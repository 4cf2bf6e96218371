import Mathlib.Data.List.DropRight
import Mathlib.Data.List.Lex
import Mathlib.Data.List.TakeWhile
import RouteDocs.Text.Blank

/-!
# Joined Texts and Their Order

Joining texts with a separator that none of them contains can be undone, and the order of texts is
the lexicographic order of their code points.

## Main Statements

* `Text.takeWhile_append_of_ends`: a run of a class ends where the class ends
* `Text.splitOn_append_sep`: a separator parts the pieces before it from those behind it
* `Text.splitOn_join`, `Text.splitOn_append_flatMap`: splitting undoes joining and listing
* `Text.trim_eq_self_iff`: which texts are left alone by trimming
* `Text.exists_splitOn_trimRight_join`: joined texts that are trimmed keep their pieces
* `Text.infix_between_iff`: what stands between two marks is a piece, neither first nor last
* `Text.linesFrom_append_cons`: a line ends with its line feed
* `Text.lt_iff`: `Text.lt` is the lexicographic order
-/

namespace RouteDocs

namespace Text

/-! ### Runs -/

section Runs

variable {cls : CodePoint → Bool} {t r : Text}

/-- A run of a class ends where the class ends. -/
theorem takeWhile_append_of_ends (all : ∀ c ∈ t, cls c = true)
    (stop : ∀ c ∈ r.head?, cls c = false) : (t ++ r).takeWhile cls = t := by
  rw [List.takeWhile_append_of_pos all]
  cases r with
  | nil => simp
  | cons c r => simp [stop c rfl]

theorem dropWhile_append_of_ends (all : ∀ c ∈ t, cls c = true)
    (stop : ∀ c ∈ r.head?, cls c = false) : (t ++ r).dropWhile cls = r := by
  rw [List.dropWhile_append_of_pos all]
  cases r with
  | nil => simp
  | cons c r => simp [stop c rfl]

end Runs

/-! ### Joining and Splitting -/

theorem join_singleton (sep t : Text) : join sep [t] = t := rfl

theorem join_cons_cons (sep t u : Text) (more : List Text) :
    join sep (t :: u :: more) = t ++ (sep ++ join sep (u :: more)) :=
  List.append_assoc t sep _

theorem mem_join_of_mem {sep t : Text} {ts : List Text} {c : CodePoint} (ht : t ∈ ts)
    (hc : c ∈ t) : c ∈ join sep ts := by
  induction ts with
  | nil => cases ht
  | cons u more ih =>
      cases more with
      | nil => simpa [join, List.mem_singleton.mp ht] using hc
      | cons w more =>
          simp only [join, List.mem_append]
          rcases List.mem_cons.mp ht with rfl | ht
          · exact Or.inl (Or.inl hc)
          · exact Or.inr (ih ht)

/-- Something is joined if one of the texts is something. -/
theorem join_ne_nil {sep t : Text} {ts : List Text} (ht : t ∈ ts) (ne : t ≠ []) :
    join sep ts ≠ [] := by
  obtain ⟨c, hc⟩ := List.exists_mem_of_ne_nil t ne
  exact List.ne_nil_of_mem (mem_join_of_mem ht hc)

theorem mem_of_mem_join {sep : Text} {ts : List Text} {c : CodePoint} (hc : c ∈ join sep ts) :
    c ∈ sep ∨ ∃ t ∈ ts, c ∈ t := by
  induction ts with
  | nil => cases hc
  | cons u more ih =>
      cases more with
      | nil => exact Or.inr ⟨u, by simp, hc⟩
      | cons w more =>
          simp only [join, List.mem_append] at hc
          rcases hc with (hu | hsep) | hmore
          · exact Or.inr ⟨u, by simp, hu⟩
          · exact Or.inl hsep
          · rcases ih hmore with hsep | ⟨t, ht, hc⟩
            · exact Or.inl hsep
            · exact Or.inr ⟨t, List.mem_cons_of_mem _ ht, hc⟩

/-! ### Splitting -/

/-- There is always a piece. -/
theorem splitOn_ne_nil (sep : CodePoint) (t : Text) : splitOn sep t ≠ [] := by
  unfold splitOn
  cases t with
  | nil => simp [splitBy]
  | cons c r =>
      rw [splitBy]
      split
      · simp
      · split <;> simp

/-- A text without the separator is a single piece. -/
theorem splitOn_eq_singleton {sep : CodePoint} {t : Text} (clean : ∀ c ∈ t, c ≠ sep) :
    splitOn sep t = [t] := by
  induction t with
  | nil => rfl
  | cons c r ih =>
      have rest := ih fun d hd => clean d (List.mem_cons_of_mem _ hd)
      unfold splitOn at rest ⊢
      simp [splitBy, rest, clean c (by simp)]

/-- **A separator parts the pieces** before it from those behind it. -/
theorem splitOn_append_sep (sep : CodePoint) (t r : Text) :
    splitOn sep (t ++ sep :: r) = splitOn sep t ++ splitOn sep r := by
  induction t with
  | nil =>
      obtain ⟨piece, more, found⟩ := List.exists_cons_of_ne_nil (splitOn_ne_nil sep r)
      unfold splitOn at found ⊢
      simp [splitBy, found]
  | cons c t ih =>
      obtain ⟨piece, more, found⟩ := List.exists_cons_of_ne_nil (splitOn_ne_nil sep t)
      rw [found] at ih
      unfold splitOn at found ih ⊢
      by_cases here : c = sep <;> simp [splitBy, ih, found, here]

/-- The first piece reaches up to the first separator. -/
theorem splitOn_append_cons {sep : CodePoint} {t : Text} (clean : ∀ c ∈ t, c ≠ sep) (r : Text) :
    splitOn sep (t ++ sep :: r) = t :: splitOn sep r := by
  rw [splitOn_append_sep, splitOn_eq_singleton clean]
  rfl

/-- The pieces of joined texts are the pieces of each of them. -/
theorem splitOn_join_eq_flatMap {sep : CodePoint} {ts : List Text} (ne : ts ≠ []) :
    splitOn sep (join [sep] ts) = ts.flatMap (splitOn sep) := by
  induction ts with
  | nil => exact absurd rfl ne
  | cons t more ih =>
      cases more with
      | nil => exact (List.append_nil _).symm
      | cons u more =>
          rw [join_cons_cons, List.flatMap_cons, ← ih (List.cons_ne_nil u more)]
          exact splitOn_append_sep sep t _

/-- **Splitting undoes joining** with a separator that no piece contains. -/
theorem splitOn_join {sep : CodePoint} {ts : List Text} (ne : ts ≠ [])
    (clean : ∀ t ∈ ts, ∀ c ∈ t, c ≠ sep) : splitOn sep (join [sep] ts) = ts := by
  have single : ∀ t ∈ ts, splitOn sep t = [t] := fun t mem => splitOn_eq_singleton (clean t mem)
  rw [splitOn_join_eq_flatMap ne, List.flatMap_congr single, List.flatMap_singleton']

/-- **Splitting undoes listing**: texts with a separator before each are found again, after the text
before them. -/
theorem splitOn_append_flatMap {sep : CodePoint} {t : Text} {ts : List Text} (first : sep ∉ t)
    (clean : ∀ u ∈ ts, sep ∉ u) : splitOn sep (t ++ ts.flatMap fun u => sep :: u) = t :: ts := by
  have apart : ∀ c ∈ t, c ≠ sep := fun c hc eq => first (eq ▸ hc)
  induction ts generalizing t with
  | nil =>
      rw [List.flatMap_nil, List.append_nil]
      exact splitOn_eq_singleton apart
  | cons u more ih =>
      have next : sep ∉ u := clean u List.mem_cons_self
      rw [List.flatMap_cons, List.cons_append, splitOn_append_cons apart,
        ih next (fun w hw => clean w (List.mem_cons_of_mem _ hw)) fun c hc eq => next (eq ▸ hc)]

/-- A text can be told from what follows it, if that begins with a code point that is not in it. -/
theorem append_injective_of_head {sep : CodePoint} {t u x y : Text} (ht : sep ∉ t) (hu : sep ∉ u)
    (hx : ∀ c ∈ x.head?, c = sep) (hy : ∀ c ∈ y.head?, c = sep) (eq : t ++ x = u ++ y) :
    t = u ∧ x = y := by
  have stop : ∀ {z : Text}, (∀ c ∈ z.head?, c = sep) → ∀ c ∈ z.head?, (c != sep) = false := by
    intro z hz c hc
    exact bne_eq_false_iff_eq.mpr (hz c hc)
  have kept : ∀ {z : Text}, sep ∉ z → ∀ c ∈ z, (c != sep) = true := by
    intro z hz c hc
    exact bne_iff_ne.mpr fun same => hz (same ▸ hc)
  have first := congrArg (List.takeWhile (· != sep)) eq
  rw [takeWhile_append_of_ends (kept ht) (stop hx), takeWhile_append_of_ends (kept hu) (stop hy)]
    at first
  subst first
  exact ⟨rfl, List.append_cancel_left eq⟩

/-- **Joining undoes splitting.** -/
theorem join_splitOn (sep : CodePoint) (t : Text) : join [sep] (splitOn sep t) = t := by
  unfold splitOn
  induction t with
  | nil => rfl
  | cons c r ih =>
      rw [splitBy]
      cases pieces : splitBy (· == sep) r with
      | nil => exact absurd pieces (splitOn_ne_nil sep r)
      | cons piece more =>
          rw [pieces] at ih
          dsimp only
          by_cases here : c = sep
          · rw [if_pos (beq_iff_eq.mpr here), join_cons_cons, ih, here]
            rfl
          · rw [if_neg (mt beq_iff_eq.mp here)]
            cases more with
            | nil => exact congrArg (c :: ·) ih
            | cons u more => exact congrArg (c :: ·) ih

/-- No piece contains the separator. -/
theorem not_mem_of_mem_splitOn {sep : CodePoint} {t piece : Text} (mem : piece ∈ splitOn sep t) :
    sep ∉ piece := by
  unfold splitOn at mem
  induction t generalizing piece with
  | nil =>
      rw [List.mem_singleton.mp mem]
      exact List.not_mem_nil
  | cons c r ih =>
      rw [splitBy] at mem
      cases pieces : splitBy (· == sep) r with
      | nil => exact absurd pieces (splitOn_ne_nil sep r)
      | cons first more =>
          simp only [pieces] at ih mem
          split at mem
          · rcases List.mem_cons.mp mem with rfl | mem
            · exact List.not_mem_nil
            · exact ih mem
          · next other =>
            rcases List.mem_cons.mp mem with rfl | mem
            · rintro (_ | ⟨_, inside⟩)
              · exact other (beq_self_eq_true sep)
              · exact ih List.mem_cons_self inside
            · exact ih (List.mem_cons_of_mem first mem)

/-! ### Lengths of Parts -/

/-- The pieces are no longer than the whole. -/
theorem length_flatten_splitBy_le (sep : CodePoint → Bool) (t : Text) :
    (splitBy sep t).flatten.length ≤ t.length := by
  induction t with
  | nil => exact le_rfl
  | cons c r ih =>
      rw [splitBy]
      split
      · simp
      · next pieces =>
        rw [pieces] at ih
        split
        · exact Nat.le_succ_of_le ih
        · exact Nat.succ_le_succ ih

/-- Joined texts are the texts, each after a separator, without the first separator. -/
theorem join_eq_tail (sep : CodePoint) (ts : List Text) :
    join [sep] ts = (ts.flatMap fun t => sep :: t).tail := by
  induction ts with
  | nil => rfl
  | cons t more ih =>
      cases more with
      | nil => exact (List.append_nil t).symm
      | cons u more =>
          rw [join_cons_cons, ih]
          rfl

/-- Texts that are left out or made shorter make up a shorter text. -/
theorem length_join_map_filter_le (sep : CodePoint) {f : Text → Text} {p : Text → Bool}
    (shorter : ∀ t, (f t).length ≤ t.length) (ts : List Text) :
    (join [sep] ((ts.filter p).map f)).length ≤ (join [sep] ts).length := by
  have whole : (((ts.filter p).map f).flatMap fun t => sep :: t).length ≤
      (ts.flatMap fun t => sep :: t).length := by
    induction ts with
    | nil => exact le_rfl
    | cons t more ih =>
        have first := shorter t
        rw [List.flatMap_cons, List.length_append, List.length_cons, List.filter_cons]
        split
        · rw [List.map_cons, List.flatMap_cons, List.length_append, List.length_cons]
          omega
        · omega
  rw [join_eq_tail, join_eq_tail, List.length_tail, List.length_tail]
  exact Nat.sub_le_sub_right whole 1

theorem length_cut?_le {sep : CodePoint} {t before after : Text}
    (h : cut? sep t = some (before, after)) : before.length ≤ t.length := by
  induction t generalizing before with
  | nil => cases h
  | cons c r ih =>
      rw [cut?] at h
      split at h
      · cases h
        exact Nat.zero_le _
      · obtain ⟨⟨first, second⟩, cut, eq⟩ := Option.map_eq_some_iff.mp h
        cases eq
        exact Nat.succ_le_succ (ih cut)

/-! ### Trimming -/

theorem trimRight_begins (cls : CodePoint → Bool) (t : Text) : trimRight cls t <+: t :=
  t.rdropWhile_prefix cls

/-- What is left of a text that is trimmed is part of it. -/
theorem trim_within (cls : CodePoint → Bool) (t : Text) : trim cls t <:+: t :=
  (trimRight_begins cls _).isInfix.trans (List.dropWhile_suffix cls).isInfix

theorem length_trim_le (cls : CodePoint → Bool) (t : Text) : (trim cls t).length ≤ t.length :=
  (trim_within cls t).length_le

theorem trimRight_eq_self_iff {cls : CodePoint → Bool} {t : Text} :
    trimRight cls t = t ↔ ∀ c ∈ t.getLast?, cls c = false := by
  change t.rdropWhile cls = t ↔ _
  rw [List.rdropWhile_eq_self_iff]
  cases t using List.reverseRecOn with
  | nil => simp
  | append_singleton t c => simp

/-- What stands up to a code point of another class is not trimmed at the end. -/
theorem trimRight_append_cons {cls : CodePoint → Bool} {c : CodePoint} (other : cls c = false)
    (t r : Text) : trimRight cls (t ++ c :: r) = t ++ c :: trimRight cls r := by
  have kept : (c :: t.reverse).dropWhile cls = c :: t.reverse := by
    rw [List.dropWhile_cons_of_neg (Bool.eq_false_iff.mp other)]
  have turned : (t ++ c :: r).reverse = r.reverse ++ c :: t.reverse := by simp
  rw [trimRight, trimRight, turned, List.dropWhile_append, kept]
  cases r.reverse.dropWhile cls with
  | nil => simp
  | cons d s => simp

/-- A code point of the class is taken away in front. -/
theorem trim_cons {cls : CodePoint → Bool} {c : CodePoint} (inClass : cls c = true) (t : Text) :
    trim cls (c :: t) = trim cls t := by
  rw [trim, trimLeft, List.dropWhile_cons_of_pos inClass]
  rfl

/-- **Which texts are left alone by trimming**: those with another code point at either end. -/
theorem trim_eq_self_iff {cls : CodePoint → Bool} {t : Text} :
    trim cls t = t ↔ (∀ c ∈ t.head?, cls c = false) ∧ ∀ c ∈ t.getLast?, cls c = false := by
  cases t with
  | nil => simp [trim, trimLeft, trimRight]
  | cons c r =>
      cases first : cls c with
      | false => simp [trim, trimLeft, first, trimRight_eq_self_iff]
      | true =>
          have shorter : (trim cls (c :: r)).length ≤ r.length := by
            rw [trim_cons first]
            exact length_trim_le cls r
          refine iff_of_false (fun same => ?_) fun ends => ?_
          · rw [same, List.length_cons] at shorter
            omega
          · exact Bool.false_ne_true ((ends.1 c rfl).symm.trans first)

/-- What is trimmed loses one code point of the class that is put at its end. -/
theorem trim_concat {cls : CodePoint → Bool} {t : Text} {c : CodePoint} (same : trim cls t = t)
    (inClass : cls c = true) : trim cls (t ++ [c]) = t := by
  obtain ⟨first, last⟩ := trim_eq_self_iff.mp same
  have left : trimLeft cls (t ++ [c]) = if t = [] then [] else t ++ [c] := by
    cases t with
    | nil => simp [trimLeft, inClass]
    | cons d r => simp [trimLeft, first d rfl]
  rw [trim, left]
  split
  · next empty =>
    rw [empty]
    rfl
  · change (t ++ [c]).rdropWhile cls = t
    rw [List.rdropWhile_concat_pos _ _ _ inClass]
    exact trimRight_eq_self_iff.mpr last

/-- Texts that are joined with others behind them have a separator before each of these. -/
theorem join_append {sep : CodePoint} {ts : List Text} (ne : ts ≠ []) (more : List Text) :
    join [sep] (ts ++ more) = join [sep] ts ++ more.flatMap fun t => sep :: t := by
  have listed : (ts.flatMap fun t => sep :: t) ≠ [] := by
    obtain ⟨t, ts, rfl⟩ := List.exists_cons_of_ne_nil ne
    exact List.cons_ne_nil _ _
  rw [join_eq_tail, join_eq_tail, List.flatMap_append, List.tail_append_of_ne_nil listed]

/-- **What stands between two marks** and does not contain the mark is a piece of the text, neither
the first nor the last one. -/
theorem infix_between_iff {mark : CodePoint} {t w : Text} (clean : mark ∉ w) :
    between mark w <:+: t ↔ w ∈ (t.splitOn mark).tail.dropLast := by
  constructor
  · rintro ⟨x, y, rfl⟩
    have whole : x ++ between mark w ++ y = x ++ mark :: (w ++ mark :: y) := by simp [between]
    have apart : ∀ c ∈ w, c ≠ mark := fun c hc eq => clean (eq ▸ hc)
    obtain ⟨first, before, pieces⟩ := List.exists_cons_of_ne_nil (splitOn_ne_nil mark x)
    rw [whole, splitOn_append_sep, splitOn_append_cons apart, pieces,
      List.cons_append, List.tail_cons, List.dropLast_append_of_ne_nil (List.cons_ne_nil _ _),
      List.dropLast_cons_of_ne_nil (splitOn_ne_nil mark y)]
    exact List.mem_append_right _ List.mem_cons_self
  · intro mem
    obtain ⟨first, rest, pieces⟩ := List.exists_cons_of_ne_nil (splitOn_ne_nil mark t)
    rw [pieces, List.tail_cons] at mem
    obtain ⟨before, after, split⟩ := List.append_of_mem mem
    have ne : rest ≠ [] := by
      rintro rfl
      cases mem
    have last := List.dropLast_append_getLast ne
    rw [split, List.append_assoc, List.cons_append] at last
    -- Some piece follows, so a mark stands behind this one too.
    obtain ⟨next, others, behind⟩ := List.exists_cons_of_ne_nil
      (List.append_ne_nil_of_right_ne_nil after (List.cons_ne_nil (rest.getLast ne) []))
    rw [behind] at last
    refine ⟨join [mark] (first :: before), next ++ others.flatMap fun u => mark :: u, ?_⟩
    rw [← join_splitOn mark t, pieces, ← last, ← List.cons_append,
      join_append (List.cons_ne_nil first before)]
    simp [between]

/-- **Trimmed at the end, joined texts keep their pieces** up to the last one that ends in a code
point of another class. -/
theorem exists_splitOn_trimRight_join {cls : CodePoint → Bool} {sep c : CodePoint}
    (other : cls c = false) (ts : List Text) (t : Text) (more : List Text) :
    ∃ rest, splitOn sep (trimRight cls (join [sep] (ts ++ (t ++ [c]) :: more)) ++ [sep]) =
      (ts ++ [t ++ [c]]).flatMap (splitOn sep) ++ rest := by
  have ne : ts ++ [t ++ [c]] ≠ [] := List.append_ne_nil_of_right_ne_nil _ (List.cons_ne_nil _ _)
  obtain ⟨x, kept⟩ : ∃ x, join [sep] (ts ++ [t ++ [c]]) = x ++ [c] := by
    cases ts with
    | nil => exact ⟨t, rfl⟩
    | cons u ts =>
        refine ⟨join [sep] (u :: ts) ++ sep :: t, ?_⟩
        rw [join_append (List.cons_ne_nil u ts), List.flatMap_singleton, List.append_assoc]
        rfl
  have whole : join [sep] (ts ++ (t ++ [c]) :: more) =
      x ++ c :: more.flatMap fun t => sep :: t := by
    rw [List.append_cons, join_append ne, kept, List.append_assoc]
    rfl
  -- What is left behind the code point is nothing, or begins with a separator.
  obtain ⟨v, left⟩ : ∃ v, trimRight cls (more.flatMap fun t => sep :: t) ++ [sep] = sep :: v := by
    have begins := trimRight_begins cls (more.flatMap fun t => sep :: t)
    cases trimmed : trimRight cls (more.flatMap fun t => sep :: t) with
    | nil => exact ⟨[], rfl⟩
    | cons d v =>
        cases more with
        | nil =>
            rw [trimmed] at begins
            exact absurd (List.prefix_nil.mp begins) (List.cons_ne_nil d v)
        | cons u more =>
            rw [trimmed, List.flatMap_cons, List.cons_append] at begins
            exact ⟨v ++ [sep], by rw [(List.cons_prefix_cons.mp begins).1]; rfl⟩
  refine ⟨splitOn sep v, ?_⟩
  rw [whole, trimRight_append_cons other, List.append_assoc, List.cons_append, left,
    ← splitOn_join_eq_flatMap ne, kept, ← splitOn_append_sep, List.append_assoc]
  rfl

/-! ### Lines -/

/-- **A line ends with its line feed.** -/
theorem linesFrom_append_cons {w : Text} (whole : ∀ c ∈ w, c.isLineBreak = false)
    (line rest : Text) :
    linesFrom false line (w ++ ('\n' : CodePoint) :: rest) =
      (line.reverse ++ w) :: linesFrom false [] rest := by
  induction w generalizing line with
  | nil =>
      rw [List.append_nil]
      rfl
  | cons c w ih =>
      obtain ⟨first, others⟩ := List.forall_mem_cons.mp whole
      rw [List.cons_append, linesFrom, Bool.false_and, if_neg Bool.false_ne_true, first,
        if_neg Bool.false_ne_true, ih others, List.reverse_cons, List.append_assoc]
      rfl

/-! ### Order -/

/-- **The order of texts is lexicographic.** -/
theorem lt_iff {a b : Text} : lt a b = true ↔ a < b := by
  induction a generalizing b with
  | nil => cases b <;> simp [lt]
  | cons c a ih =>
      cases b with
      | nil => simp [lt]
      | cons d b =>
          simp only [lt, Bool.or_eq_true, Bool.and_eq_true, decide_eq_true_eq, beq_iff_eq, ih,
            List.cons_lt_cons_iff, Fin.lt_def]

end Text

end RouteDocs
