import RouteDocs.Proofs.Text.Join

/-!
# Runs and Cuts

Texts of code points of one class, and where a text that is put together from such texts is cut.

## Main Definitions

* `Text.Run`, `Text.Run1`: the texts of a class, with and without the empty one
* `Blanks`, `oneBlank`: runs of blanks

## Main Statements

* `Text.eq_of_append_cons_eq`: there is one place where a mark parts a text
* `Text.splitBy_append_cons`: the first piece reaches up to the first separator
* `Text.trim_append`, `Text.trim_append_eq_self`: what is trimmed behind a text and what is not
* `Text.map_strip_splitOn_join`: joined texts are read back without the blanks around them
-/

namespace RouteDocs

namespace Text

/-- A text of code points of one class, which may be empty. -/
structure Run (cls : CodePoint → Bool) where
  /-- The text. -/
  text : Text
  /-- Its code points are in the class. -/
  inClass : ∀ c ∈ text, cls c = true

/-- A text of at least one code point of a class. -/
structure Run1 (cls : CodePoint → Bool) extends Run cls where
  /-- There is a code point. -/
  nonempty : text ≠ []

variable {cls sep : CodePoint → Bool} {t w x y x' y' : Text} {a : CodePoint}

/-- The empty text as a run. -/
def Run.empty : Run cls := ⟨[], List.forall_mem_nil _⟩

/-- A text as a run, where its code points are checked one by one. -/
def Run.of (text : Text) (all : text.all cls = true) : Run cls :=
  ⟨text, List.all_eq_true.mp all⟩

/-- A text with a code point as a run, where its code points are checked one by one. -/
def Run1.of (text : Text) (all : text.all cls = true) (some : text.isEmpty = false) : Run1 cls :=
  ⟨.of text all, List.isEmpty_eq_false_iff.mp some⟩

/-! ### Ends -/

/-- A run ends in its class. -/
theorem any_getLast? (ne : t ≠ []) (all : ∀ c ∈ t, cls c = true) : t.getLast?.any cls = true := by
  rw [List.getLast?_eq_some_getLast ne]
  exact all _ (List.getLast_mem ne)

/-- A text that begins with a run begins in its class. -/
theorem any_head?_append (ne : w ≠ []) (all : ∀ c ∈ w, cls c = true) (t : Text) :
    (w ++ t).head?.any cls = true := by
  obtain ⟨c, w, rfl⟩ := List.exists_cons_of_ne_nil ne
  exact all c List.mem_cons_self

/-- The end of a text is that of its last part. -/
theorem any_getLast?_append (x : Text) (ne : y ≠ []) :
    (x ++ y).getLast?.any cls = y.getLast?.any cls :=
  congrArg (Option.any cls) (List.getLast?_append_of_ne_nil x ne)

/-- A text without code points of a class does not end in the class. -/
theorem any_getLast?_eq_false (all : ∀ c ∈ t, cls c = false) : t.getLast?.any cls = false :=
  (Option.any_eq_false _ _).mpr fun c last => all c (List.mem_of_getLast? last)

/-! ### Cuts -/

/-- **There is one place where a mark parts a text**, if the mark is neither in front of the one
place nor behind the other. -/
theorem eq_of_append_cons_eq (eq : x ++ a :: y = x' ++ a :: y') (front : a ∉ x') (back : a ∉ y') :
    x = x' ∧ y = y' := by
  rcases List.append_eq_append_iff.mp eq with ⟨u, rfl, later⟩ | ⟨u, rfl, later⟩
  · cases u with
    | nil => exact ⟨(List.append_nil x).symm, (List.cons.inj later).2⟩
    | cons b u =>
        obtain rfl := (List.cons.inj later).1
        exact absurd (List.mem_append_right x List.mem_cons_self) front
  · cases u with
    | nil => exact ⟨List.append_nil x', (List.cons.inj later).2.symm⟩
    | cons b u =>
        refine absurd ?_ back
        rw [(List.cons.inj later).2]
        exact List.mem_append_right u List.mem_cons_self

/-! ### Pieces -/

/-- There is always a piece. -/
theorem exists_splitBy_eq (sep : CodePoint → Bool) (t : Text) :
    ∃ piece more, splitBy sep t = piece :: more := by
  cases t with
  | nil => exact ⟨[], [], rfl⟩
  | cons c r =>
      rw [splitBy]
      split
      · exact ⟨_, _, rfl⟩
      · split
        · exact ⟨_, _, rfl⟩
        · exact ⟨_, _, rfl⟩

/-- A separator stands behind an empty piece. -/
theorem splitBy_cons_of_pos (here : sep a = true) (t : Text) :
    splitBy sep (a :: t) = [] :: splitBy sep t := by
  obtain ⟨piece, more, pieces⟩ := exists_splitBy_eq sep t
  rw [splitBy, pieces]
  exact if_pos here

/-- What is no separator belongs to the first piece. -/
theorem splitBy_cons_of_neg {piece : Text} {more : List Text} (other : sep a = false)
    (pieces : splitBy sep t = piece :: more) : splitBy sep (a :: t) = (a :: piece) :: more := by
  rw [splitBy, pieces]
  exact if_neg (Bool.eq_false_iff.mp other)

/-- A text without separators is a single piece. -/
theorem splitBy_eq_singleton (clean : ∀ c ∈ t, sep c = false) : splitBy sep t = [t] := by
  induction t with
  | nil => rfl
  | cons c r ih =>
      obtain ⟨first, others⟩ := List.forall_mem_cons.mp clean
      exact splitBy_cons_of_neg first (ih others)

/-- **The first piece reaches up to the first separator.** -/
theorem splitBy_append_cons (clean : ∀ c ∈ w, sep c = false) (here : sep a = true) (t : Text) :
    splitBy sep (w ++ a :: t) = w :: splitBy sep t := by
  induction w with
  | nil => exact splitBy_cons_of_pos here t
  | cons c r ih =>
      obtain ⟨first, others⟩ := List.forall_mem_cons.mp clean
      exact splitBy_cons_of_neg first (ih others)

/-! ### Trimming -/

/-- A run of the class is taken away behind a text. -/
theorem trimRight_append (all : ∀ c ∈ w, cls c = true) (t : Text) :
    trimRight cls (t ++ w) = trimRight cls t := by
  rw [trimRight, List.reverse_append,
    List.dropWhile_append_of_pos fun c mem => all c (List.mem_reverse.mp mem)]
  rfl

/-- Nothing else is taken away behind a text. -/
theorem mem_trimRight_iff (other : cls a = false) : a ∈ trimRight cls t ↔ a ∈ t := by
  refine ⟨fun mem => (trimRight_begins cls t).subset mem, fun mem => ?_⟩
  obtain ⟨x, y, rfl⟩ := List.append_of_mem mem
  rw [trimRight_append_cons other]
  exact List.mem_append_right x List.mem_cons_self

/-- A run of the class is taken away in front of a text. -/
theorem trim_run_append (all : ∀ c ∈ w, cls c = true) (t : Text) :
    trim cls (w ++ t) = trim cls t := by
  rw [trim, trimLeft, List.dropWhile_append_of_pos all]
  rfl

/-- **Blanks behind a text are trimmed.** -/
theorem trim_append (same : trim cls t = t) (all : ∀ c ∈ w, cls c = true) :
    trim cls (t ++ w) = t := by
  obtain ⟨first, last⟩ := trim_eq_self_iff.mp same
  cases t with
  | nil =>
      rw [trim, trimLeft, List.nil_append, List.dropWhile_eq_nil_iff.mpr all]
      rfl
  | cons c r =>
      rw [trim, trimLeft, List.cons_append, List.dropWhile_cons_of_neg (by simp [first c rfl]),
        ← List.cons_append, trimRight_append all]
      exact trimRight_eq_self_iff.mpr last

/-- What is trimmed stays so with code points of another class behind it. -/
theorem trim_append_eq_self (same : trim cls t = t) (other : ∀ c ∈ w, cls c = false) :
    trim cls (t ++ w) = t ++ w := by
  obtain ⟨first, last⟩ := trim_eq_self_iff.mp same
  refine trim_eq_self_iff.mpr ⟨fun c head => ?_, fun c final => ?_⟩
  · rw [List.head?_append, Option.mem_def, Option.or_eq_some_iff] at head
    rcases head with own | ⟨-, behind⟩
    · exact first c own
    · exact other c (List.mem_of_head? behind)
  · rw [List.getLast?_append, Option.mem_def, Option.or_eq_some_iff] at final
    rcases final with behind | ⟨-, own⟩
    · exact other c (List.mem_of_getLast? behind)
    · exact last c own

/-! ### Joined Texts -/

section Joined

variable {ts : List Text} {bar : CodePoint}

/-- Joined texts begin with the first one. -/
theorem exists_join_cons_eq (gap t : Text) (ts : List Text) : ∃ x, join gap (t :: ts) = t ++ x := by
  cases ts with
  | nil => exact ⟨[], (List.append_nil t).symm⟩
  | cons u more => exact ⟨_, join_cons_cons gap t u more⟩

/-- Joined texts end with the last one. -/
theorem exists_join_concat_eq (gap : Text) (ts : List Text) (t : Text) :
    ∃ x, join gap (ts ++ [t]) = x ++ t := by
  induction ts with
  | nil => exact ⟨[], rfl⟩
  | cons u more ih =>
      obtain ⟨x, rest⟩ := ih
      obtain ⟨v, others, some⟩ := List.exists_cons_of_ne_nil
        (List.append_ne_nil_of_right_ne_nil more (List.cons_ne_nil t []))
      refine ⟨u ++ (gap ++ x), ?_⟩
      rw [List.cons_append, some, join_cons_cons, ← some, rest]
      simp only [List.append_assoc]

/-- Joined texts end as the last one does. -/
theorem exists_getLast?_join (gap : Text) (ne : ts ≠ []) (nonempty : ∀ t ∈ ts, t ≠ []) :
    ∃ t ∈ ts, (join gap ts).getLast? = t.getLast? := by
  obtain ⟨before, t, rfl⟩ := (List.eq_nil_or_concat' ts).resolve_left ne
  obtain ⟨x, ending⟩ := exists_join_concat_eq gap before t
  have mem : t ∈ before ++ [t] := List.mem_append_right _ List.mem_cons_self
  exact ⟨t, mem, by rw [ending, List.getLast?_append_of_ne_nil x (nonempty t mem)]⟩

/-- Texts without blanks at their ends are joined to such a text. -/
theorem strip_join (gap : Text) (trimmed : ∀ t ∈ ts, strip t = t)
    (nonempty : ∀ t ∈ ts, t ≠ []) : strip (join gap ts) = join gap ts := by
  cases ts with
  | nil => rfl
  | cons t more =>
      obtain ⟨u, mem, last⟩ := exists_getLast?_join gap (List.cons_ne_nil t more) nonempty
      obtain ⟨x, begins⟩ := exists_join_cons_eq gap t more
      refine trim_eq_self_iff.mpr ⟨?_, ?_⟩
      · rw [begins, List.head?_append_of_ne_nil t (nonempty t List.mem_cons_self)]
        exact (trim_eq_self_iff.mp (trimmed t List.mem_cons_self)).1
      · rw [last]
        exact (trim_eq_self_iff.mp (trimmed u mem)).2

/-- A blank in front of a text does not show in its trimmed pieces. -/
theorem map_strip_splitOn_cons (blank : a.isBlank = true) (other : a ≠ bar) (t : Text) :
    (splitOn bar (a :: t)).map strip = (splitOn bar t).map strip := by
  obtain ⟨piece, more, pieces⟩ := exists_splitBy_eq (· == bar) t
  have first : splitOn bar (a :: t) = (a :: piece) :: more :=
    splitBy_cons_of_neg (beq_eq_false_iff_ne.mpr other) pieces
  rw [first, List.map_cons, strip, trim_cons blank, splitOn, pieces]
  rfl

/-- **Joined texts are read back** with the blanks around the separators taken away. -/
theorem map_strip_splitOn_join (visible : bar ≠ ' ') (ne : ts ≠ [])
    (trimmed : ∀ t ∈ ts, strip t = t) (clean : ∀ t ∈ ts, bar ∉ t) :
    (splitOn bar (join [' ', bar, ' '] ts)).map strip = ts := by
  have apart : ∀ t ∈ ts, ∀ c ∈ t, c ≠ bar := fun t mem _ hc eq => clean t mem (eq ▸ hc)
  induction ts with
  | nil => exact absurd rfl ne
  | cons t more ih =>
      obtain ⟨own, trimmed⟩ := List.forall_mem_cons.mp trimmed
      obtain ⟨-, clean⟩ := List.forall_mem_cons.mp clean
      obtain ⟨first, apart⟩ := List.forall_mem_cons.mp apart
      cases more with
      | nil =>
          rw [join_singleton, splitOn_eq_singleton first, List.map_singleton, own]
      | cons u more =>
          have behind : ∀ c ∈ t ++ (" " : Text), c ≠ bar :=
            List.forall_mem_append.mpr ⟨first, List.forall_mem_singleton.mpr (Ne.symm visible)⟩
          have whole : join [' ', bar, ' '] (t :: u :: more) =
              (t ++ (" " : Text)) ++ bar :: ' ' :: join [' ', bar, ' '] (u :: more) := by
            rw [join_cons_cons, List.append_assoc]
            rfl
          have stripped : strip (t ++ (" " : Text)) = t := trim_append own (List.all_eq_true.mp rfl)
          rw [whole, splitOn_append_cons behind, List.map_cons, stripped,
            map_strip_splitOn_cons rfl (Ne.symm visible),
            ih (List.cons_ne_nil u more) trimmed clean apart]

end Joined

end Text

/-- Blanks, or none. -/
abbrev Blanks := Text.Run CodePoint.isBlank

/-- One blank. -/
def oneBlank : Text.Run1 CodePoint.isBlank := .of " " rfl rfl

end RouteDocs
