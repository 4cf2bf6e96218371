import Mathlib.Data.List.Basic
import Mathlib.Data.List.TakeWhile
import RouteDocs.Proofs.Text.Join
import RouteDocs.Proofs.Text.Match

/-!
# The First Way to Match

Where a search finds a pattern, if it is known what the pattern takes at each place.

## Main Definitions

* `Pattern.Leads`: the first way to match leads from one place to another
* `Pattern.Fails`: there is no way to match
* `Pattern.MatchesLine`: a line has one match, up to its end

## Main Statements

* `Pattern.leads_run`, `Pattern.leads_run_last`: a run takes all that it can, or all but the last
  code point, if that is needed
* `Pattern.leads_shortRun`: a run takes no more than is needed
* `Pattern.leads_star`: a repetition goes through its rounds
* `Pattern.findFrom?_skip`: a search passes by what no match begins with
* `Pattern.occursIn_iff`: a pattern occurs in a text if it reads a piece of it
* `Pattern.findAllFrom_cons`: a search goes on behind what it has found
* `Pattern.findAll_join_lines`: a text of lines with one match each has their matches

## Design Notes

The first way to match is the first one for which the rest of the pattern matches. So it is said of
every continuation: if it succeeds at the place that is reached, its result is that of the attempt.
The ways that are tried before are excluded by what a pattern reads.
-/

namespace RouteDocs

/-- A text that goes on with a piece has a place behind it. -/
theorem Cursor.exists_passes {c : Cursor} {w r : Text} (rest : c.rest = w ++ r) :
    ∃ d, Cursor.Passes w c d ∧ d.rest = r :=
  ⟨⟨w.reverse ++ c.seen, r⟩, ⟨rest, rfl⟩, rfl⟩

namespace Cursor

variable {c d e : Cursor} {x : CodePoint} {w w' : Text}

/-- A piece of two parts is passed in two steps. -/
theorem Passes.of_append (passes : Passes (w ++ w') c e) :
    ∃ d, Passes w c d ∧ Passes w' d e := by
  obtain ⟨d, first, rest⟩ := exists_passes (passes.rest.trans (List.append_assoc w w' e.rest))
  refine ⟨d, first, rest, ?_⟩
  rw [passes.seen, first.seen, List.reverse_append, List.append_assoc]

/-- A piece with a first code point is passed in two steps. -/
theorem Passes.of_cons (passes : Passes (x :: w) c e) : ∃ d, Passes [x] c d ∧ Passes w d e :=
  Passes.of_append (w := [x]) passes

theorem Passes.eq_of_nil (passes : Passes [] c d) : d = c := by
  obtain ⟨seen, r, rfl, rfl⟩ := passes.exists_eq
  rfl

/-- There is one place behind a piece of text. -/
theorem Passes.unique (first : Passes w c d) (second : Passes w c e) : d = e := by
  obtain ⟨seen, rest⟩ := d
  obtain ⟨seen', rest'⟩ := e
  obtain rfl : rest = rest' := List.append_cancel_left (first.rest.symm.trans second.rest)
  obtain rfl : seen = seen' := first.seen.trans second.seen.symm
  rfl

theorem Passes.takeWhile {cls : CodePoint → Bool} (passes : Passes w c d)
    (all : ∀ a ∈ w, cls a = true) (stop : d.rest.head?.any cls = false) :
    c.rest.takeWhile cls = w := by
  rw [passes.rest]
  refine Text.takeWhile_append_of_ends all fun a ha => ?_
  rw [Option.mem_def.mp ha] at stop
  exact stop

/-- There is one place where a run cannot go on. -/
theorem Passes.eq_of_run {cls : CodePoint → Bool} (first : Passes w c d)
    (all : ∀ a ∈ w, cls a = true) (stop : d.rest.head?.any cls = false) (second : Passes w' c e)
    (all' : ∀ a ∈ w', cls a = true) (stop' : e.rest.head?.any cls = false) : d = e := by
  obtain rfl : w = w' := (first.takeWhile all stop).symm.trans (second.takeWhile all' stop')
  exact first.unique second

end Cursor

namespace Pattern

variable {p q : Pattern} {cls : CodePoint → Bool} {x y z : Hit} {c d e : Cursor} {gs : Groups}
  {t w : Text} {a : CodePoint} {m : Match}

/-! ### Pieces That Are Read -/

theorem reads_lit (passes : Cursor.Passes t c d) : (lit t).Reads (c, gs) (d, gs) := by
  induction t using lit.induct generalizing c with
  | case1 =>
      obtain rfl := passes.eq_of_nil
      exact rfl
  | case2 a => exact ⟨a, beq_self_eq_true a, passes, rfl⟩
  | case3 a r more ih =>
      obtain ⟨e, first, second⟩ := passes.of_cons
      rw [lit.eq_3 _ _ more]
      exact ⟨(e, gs), ⟨a, beq_self_eq_true a, first, rfl⟩, ih second⟩

/-- A text and another one after it are read as one text. -/
theorem Reads.lit_append (first : (lit t).Reads x y) (second : (lit w).Reads y z) :
    (lit (t ++ w)).Reads x z := by
  obtain ⟨passes, same⟩ := first.of_lit
  obtain ⟨passes', same'⟩ := second.of_lit
  have read : (lit (t ++ w)).Reads (x.1, x.2) (z.1, x.2) := reads_lit (passes.trans passes')
  have groups : z.2 = x.2 := same'.trans same
  rwa [← groups, show (x.1, z.2) = x by rw [groups]] at read

theorem reads_caseless (same : List.Forall₂ (fun a b => CodePoint.sameLetter a b = true) t w)
    (passes : Cursor.Passes w c d) : (caseless t).Reads (c, gs) (d, gs) := by
  induction same generalizing c with
  | nil =>
      obtain rfl := passes.eq_of_nil
      exact rfl
  | cons own _ ih =>
      obtain ⟨e, first, second⟩ := passes.of_cons
      exact ⟨(e, gs), ⟨_, own, first, rfl⟩, ih second⟩

theorem reads_run1 (nonempty : w ≠ []) (all : ∀ a ∈ w, cls a = true)
    (passes : Cursor.Passes w c d) : (run1 cls).Reads (c, gs) (d, gs) := by
  obtain ⟨a, w, rfl⟩ := List.exists_cons_of_ne_nil nonempty
  obtain ⟨e, first, second⟩ := passes.of_cons
  obtain ⟨inClass, others⟩ := List.forall_mem_cons.mp all
  exact ⟨(e, gs), ⟨a, inClass, first, rfl⟩, ⟨w, others, second, rfl⟩⟩

theorem reads_threeDigits (size : w.length = 3) (digits : ∀ a ∈ w, a.isDigit = true)
    (passes : Cursor.Passes w c d) : threeDigits.Reads (c, gs) (d, gs) := by
  obtain ⟨a, b, b', rfl⟩ := List.length_eq_three.mp size
  obtain ⟨e, first, others⟩ := passes.of_cons
  obtain ⟨e', second, third⟩ := others.of_cons
  exact ⟨(e', gs), ⟨(e, gs), ⟨a, digits a (by simp), first, rfl⟩, ⟨b, digits b (by simp), second,
    rfl⟩⟩, ⟨b', digits b' (by simp), third, rfl⟩⟩

/-- What is read at a place matches there. -/
theorem exists_matchAt?_of_reads (reads : p.Reads (c, []) y) : ∃ m, p.matchAt? c = some m := by
  cases found : p.matchAt? c with
  | some m => exact ⟨m, rfl⟩
  | none =>
      have failed := Option.map_eq_none_iff.mp found
      cases (explores p).complete failed reads

/-- The first way to match leads from one place to another: if the rest of an attempt succeeds
there, the attempt has its result. -/
def Leads (p : Pattern) (x y : Hit) : Prop :=
  ∀ k hit, k y.1 y.2 = some hit → p.runAt x.1 x.2 k = some hit

/-! ### Parts of a Pattern -/

theorem leads_empty (x : Hit) : empty.Leads x x :=
  fun _ _ succeeds => succeeds

theorem Leads.append (first : p.Leads x y) (second : q.Leads y z) : (p ++ q).Leads x z :=
  fun k hit succeeds => first _ hit (second k hit succeeds)

theorem Leads.group (n : Nat) (leads : p.Leads x y) :
    (group n p).Leads x (y.1, (n, x.1, y.1) :: y.2) :=
  fun _ hit succeeds => leads _ hit succeeds

/-- A pattern fails at a place: no attempt succeeds, whatever comes after it. -/
def Fails (p : Pattern) (x : Hit) : Prop :=
  ∀ k, p.runAt x.1 x.2 k = none

/-- A pattern fails where it reads nothing. -/
theorem fails_of_reads (nothing : ∀ y, ¬ p.Reads x y) : p.Fails x := by
  intro k
  refine Option.eq_none_iff_forall_ne_some.mpr fun hit found => ?_
  obtain ⟨y, read, -⟩ := (explores p).sound found
  exact nothing y read

/-- A pattern fails where a code point stands with which no match begins. -/
theorem StartsIn.fails (starts : StartsIn cls p) (other : x.1.rest.head?.any cls = false) :
    p.Fails x := by
  intro k
  refine Option.eq_none_iff_forall_ne_some.mpr fun hit found => ?_
  obtain ⟨b, r, rest, inClass⟩ := starts _ _ _ hit found
  rw [rest] at other
  exact Bool.eq_false_iff.mp other inClass

/-- A pattern fails where its first part does. -/
theorem Fails.append (fails : p.Fails x) (q : Pattern) : (p ++ q).Fails x :=
  fun k => fails fun d hs => q.runAt d hs k

/-- A pattern fails where its second part fails behind all that the first one reads. -/
theorem fails_append_of_reads (fails : ∀ y, p.Reads x y → q.Fails y) : (p ++ q).Fails x := by
  intro k
  refine Option.eq_none_iff_forall_ne_some.mpr fun hit found => ?_
  obtain ⟨y, read, more⟩ := (explores p).sound found
  exact Option.some_ne_none hit (more.symm.trans (fails y read k))

theorem Fails.group (n : Nat) (fails : p.Fails x) : (group n p).Fails x :=
  fun k => fails fun d hs => k d ((n, x.1, d) :: hs)

theorem fails_one (other : ∀ b ∈ c.rest.head?, cls b = false) : (one cls).Fails (c, gs) := by
  refine (startsIn_one cls).fails ?_
  cases first : c.rest.head? with
  | none => rfl
  | some b => exact other b first

/-- The first of two pieces is preferred. -/
theorem Leads.alt (leads : p.Leads x y) (q : Pattern) : (alt p q).Leads x y := by
  intro k hit succeeds
  rw [runAt, leads k hit succeeds]

/-- The second of two pieces is taken where the first one fails. -/
theorem leads_alt_right (fails : p.Fails x) (leads : q.Leads x y) :
    (Pattern.alt p q).Leads x y := by
  intro k hit succeeds
  rw [runAt, fails]
  exact leads k hit succeeds

theorem leads_one (inClass : cls a = true) (passes : Cursor.Passes [a] c d) :
    (one cls).Leads (c, gs) (d, gs) := by
  obtain ⟨seen, r, rfl, rfl⟩ := passes.exists_eq
  intro k hit succeeds
  change (if cls a = true then k ⟨a :: seen, r⟩ gs else none) = some hit
  rwa [if_pos inClass]

theorem leads_lit (passes : Cursor.Passes t c d) : (lit t).Leads (c, gs) (d, gs) := by
  induction t using lit.induct generalizing c with
  | case1 =>
      obtain rfl := passes.eq_of_nil
      exact leads_empty _
  | case2 a => exact leads_one (beq_self_eq_true a) passes
  | case3 a r more ih =>
      obtain ⟨e, first, second⟩ := passes.of_cons
      have own : (one (· == a)).Leads (c, gs) (e, gs) := leads_one (beq_self_eq_true a) first
      rw [lit.eq_3 _ _ more]
      exact own.append (ih second)

/-- A text in any letter case. -/
theorem leads_caseless
    (same : List.Forall₂ (fun a b => CodePoint.sameLetter a b = true) t w)
    (passes : Cursor.Passes w c d) : (caseless t).Leads (c, gs) (d, gs) := by
  induction same generalizing c with
  | nil =>
      obtain rfl := passes.eq_of_nil
      exact leads_empty _
  | cons own _ ih =>
      obtain ⟨e, first, second⟩ := passes.of_cons
      exact (leads_one own first).append (ih second)

theorem leads_wordEdge (edge : c.isWordEdge = true) : wordEdge.Leads (c, gs) (c, gs) := by
  intro k hit succeeds
  rwa [runAt, if_pos edge]

theorem fails_wordEdge (inside : c.isWordEdge = false) : wordEdge.Fails (c, gs) :=
  fun _ => if_neg (Bool.eq_false_iff.mp inside)

/-- What must not follow does not. -/
theorem leads_follows_false (fails : p.Fails x) : (follows false p).Leads x x := by
  intro k hit succeeds
  rw [runAt, fails]
  exact succeeds

/-- What must not follow does. -/
theorem fails_follows_false (reads : p.Reads x y) : (follows false p).Fails x :=
  fails_of_reads fun _ read => Bool.false_ne_true (read.2.mp ⟨y, reads⟩)

/-! ### Runs -/

/-- If an attempt succeeds behind a piece of a run, it succeeds before the piece. -/
theorem runFrom_append {k : Cursor → Option Hit} {hit : Hit} {seen r : Text}
    (all : ∀ a ∈ w, cls a = true) (succeeds : runFrom cls k (w.reverse ++ seen) r = some hit) :
    runFrom cls k seen (w ++ r) = some hit := by
  induction w generalizing seen with
  | nil => exact succeeds
  | cons a w ih =>
      obtain ⟨inClass, others⟩ := List.forall_mem_cons.mp all
      rw [List.reverse_cons, List.append_assoc, List.singleton_append] at succeeds
      rw [List.cons_append, runFrom, if_pos inClass, ih others succeeds]

/-- A run ends where no code point of its class follows. -/
theorem runFrom_stop {k : Cursor → Option Hit} {seen r : Text} (stop : r.head?.any cls = false) :
    runFrom cls k seen r = k ⟨seen, r⟩ := by
  cases r with
  | nil => rfl
  | cons a r => exact if_neg (Bool.eq_false_iff.mp stop)

/-- A run gives back what is not accepted behind it. -/
theorem runFrom_give_back {k : Cursor → Option Hit} {seen r : Text}
    (stop : r.head?.any cls = false)
    (later : ∀ v v', w = v ++ v' → v ≠ [] → k ⟨v.reverse ++ seen, v' ++ r⟩ = none) :
    runFrom cls k seen (w ++ r) = k ⟨seen, w ++ r⟩ := by
  induction w generalizing seen with
  | nil => exact runFrom_stop stop
  | cons a w ih =>
      have shifted : runFrom cls k (a :: seen) (w ++ r) = k ⟨a :: seen, w ++ r⟩ := by
        refine ih fun v v' eq _ => ?_
        have next := later (a :: v) v' (congrArg (a :: ·) eq) (List.cons_ne_nil a v)
        rwa [List.reverse_cons, List.append_assoc] at next
      have here : k ⟨a :: seen, w ++ r⟩ = none := later [a] w rfl (List.cons_ne_nil a [])
      rw [List.cons_append, runFrom, shifted, here]
      exact ite_self _

/-- **A run takes all that it can.** -/
theorem leads_run (all : ∀ a ∈ w, cls a = true) (passes : Cursor.Passes w c d)
    (stop : d.rest.head?.any cls = false) : (run cls).Leads (c, gs) (d, gs) := by
  obtain ⟨seen, r, rfl, rfl⟩ := passes.exists_eq
  intro k hit succeeds
  exact runFrom_append all ((runFrom_stop stop).trans succeeds)

/-- A run takes nothing where no code point of its class follows. -/
theorem leads_run_nil (stop : c.rest.head?.any cls = false) : (run cls).Leads (c, gs) (c, gs) :=
  leads_run (List.forall_mem_nil _) (.refl c) stop

theorem leads_run1 (nonempty : w ≠ []) (all : ∀ a ∈ w, cls a = true)
    (passes : Cursor.Passes w c d) (stop : d.rest.head?.any cls = false) :
    (run1 cls).Leads (c, gs) (d, gs) := by
  obtain ⟨a, w, rfl⟩ := List.exists_cons_of_ne_nil nonempty
  obtain ⟨e, first, second⟩ := passes.of_cons
  obtain ⟨inClass, others⟩ := List.forall_mem_cons.mp all
  exact (leads_one inClass first).append (leads_run others second stop)

theorem leads_threeDigits (size : w.length = 3) (digits : ∀ a ∈ w, a.isDigit = true)
    (passes : Cursor.Passes w c d) : threeDigits.Leads (c, gs) (d, gs) := by
  obtain ⟨a, b, b', rfl⟩ := List.length_eq_three.mp size
  obtain ⟨e, first, others⟩ := passes.of_cons
  obtain ⟨e', second, third⟩ := others.of_cons
  have two : (one CodePoint.isDigit ++ one CodePoint.isDigit).Leads (c, gs) (e', gs) :=
    (leads_one (digits a (by simp)) first).append (leads_one (digits b (by simp)) second)
  exact two.append (leads_one (digits b' (by simp)) third)

/-- **A run leaves the last code point of a text**, if that is needed. -/
theorem leads_run_last {cls' : CodePoint → Bool} (all : ∀ b ∈ w, cls b = true)
    (last : cls' a = true) (passes : Cursor.Passes (w ++ [a]) c d) (atEnd : d.rest = []) :
    (run cls ++ one cls').Leads (c, gs) (d, gs) := by
  obtain ⟨seen, r, rfl, rfl⟩ := passes.exists_eq
  obtain rfl : r = [] := atEnd
  rw [List.append_nil, List.reverse_concat]
  intro k hit succeeds
  refine runFrom_append all ?_
  have taken : (one cls').runAt ⟨w.reverse ++ seen, [a]⟩ gs k = some hit :=
    (if_pos last).trans succeeds
  by_cases inClass : cls a = true
  · rw [runFrom, if_pos inClass]
    exact taken
  · rw [runFrom, if_neg inClass]
    exact taken

/-- **A run takes no more than is needed**: the shortest one behind which the rest of the pattern
matches. -/
theorem leads_shortRun (all : ∀ a ∈ w, cls a = true) (passes : Cursor.Passes w c d)
    (later : ∀ w' e, w' <+: w → w' ≠ w → Cursor.Passes w' c e → q.Fails (e, gs))
    (leads : q.Leads (d, gs) z) : (shortRun cls ++ q).Leads (c, gs) z := by
  intro k hit succeeds
  have reached := leads k hit succeeds
  change shortRunFrom cls (fun c => q.runAt c gs k) c.seen c.rest = some hit
  obtain ⟨seen, r, rfl, rfl⟩ := passes.exists_eq
  clear passes
  induction w generalizing seen with
  | nil =>
      cases r with
      | nil => exact reached
      | cons b r =>
          rw [List.nil_append, shortRunFrom]
          simp only [List.reverse_nil, List.nil_append] at reached
          rw [reached]
  | cons a w ih =>
      obtain ⟨inClass, others⟩ := List.forall_mem_cons.mp all
      have here : q.runAt ⟨seen, a :: (w ++ r)⟩ gs k = none :=
        later [] _ List.nil_prefix (List.cons_ne_nil a w).symm (.refl _) k
      have next := ih others (a :: seen)
        (fun w' e start ne passes => later (a :: w') e (List.cons_prefix_cons.mpr ⟨rfl, start⟩)
          (fun same => ne (List.cons.inj same).2)
          ((Cursor.passes_cons seen a (w ++ r)).trans passes))
        (by simpa using leads) (by simpa using reached)
      rw [List.cons_append, shortRunFrom, here]
      exact (if_pos inClass).trans next

/-! ### Repetitions -/

/-- **A repetition goes through its rounds**, up to a place where the piece fails. -/
theorem leads_star
    (rounds : Relation.ReflTransGen
      (fun x y => p.Leads x y ∧ y.1.rest.length < x.1.rest.length) x y)
    (fails : p.Fails y) : (star p).Leads x y := by
  intro k hit succeeds
  -- the number of rounds that are left is at least the length of the text that is left
  have all : ∀ n, x.1.rest.length ≤ n → starFrom p.runAt k n x.1 x.2 = some hit := by
    induction rounds using Relation.ReflTransGen.head_induction_on with
    | refl =>
        intro n _
        cases n with
        | zero => exact succeeds
        | succ n =>
            rw [starFrom, fails]
            exact succeeds
    | head first _ ih =>
        intro n enough
        obtain ⟨n, rfl⟩ : ∃ m, n = m + 1 := ⟨n - 1, by have := first.2; omega⟩
        rw [starFrom, first.1 _ hit ((if_pos first.2).trans (ih n (by have := first.2; omega)))]
  exact all _ (Nat.le_refl _)

/-! ### Searching -/

/-- The first way to match is the match. -/
theorem matchAt?_of_leads (leads : p.Leads (c, []) (d, gs)) : p.matchAt? c = some ⟨c, d, gs⟩ := by
  rw [matchAt?, leads (fun d gs => some (d, gs)) (d, gs) rfl]
  rfl

/-- What matches at a place is found there. -/
theorem findFrom?_of_matchAt? (matched : p.matchAt? c = some m) :
    p.findFrom? c.seen c.rest = some m := by
  obtain ⟨seen, _ | ⟨a, r⟩⟩ := c
  · exact matched
  · rw [findFrom?, matched]

/-- Where a pattern fails, it does not match. -/
theorem Fails.matchAt?_eq_none (fails : p.Fails (c, [])) : p.matchAt? c = none := by
  rw [matchAt?, fails]
  rfl

/-- A search finds something as long as there is a match. -/
theorem exists_findFrom? {seen w r : Text} (matched : p.matchAt? ⟨w.reverse ++ seen, r⟩ = some m) :
    ∃ m', p.findFrom? seen (w ++ r) = some m' := by
  induction w generalizing seen with
  | nil => exact ⟨m, findFrom?_of_matchAt? matched⟩
  | cons b w ih =>
      rw [List.cons_append, findFrom?]
      split
      · next here _ => exact ⟨here, rfl⟩
      · rw [List.reverse_cons, List.append_assoc] at matched
        exact ih matched

/-- **A pattern occurs in a text** if it reads a piece of it. -/
theorem occursIn_iff : p.occursIn t = true ↔
    ∃ c y, c.seen.reverse ++ c.rest = t ∧ p.Reads (c, []) y := by
  rw [occursIn, Option.isSome_iff_exists]
  constructor
  · rintro ⟨m, found⟩
    obtain ⟨whole, matched⟩ := findFrom?_sound found
    obtain ⟨hit, run, -⟩ := Option.map_eq_some_iff.mp matched
    obtain ⟨y, reads, -⟩ := (explores p).sound (x := (m.start, [])) run
    exact ⟨m.start, y, whole, reads⟩
  · rintro ⟨c, y, rfl, reads⟩
    obtain ⟨m, matched⟩ := exists_matchAt?_of_reads reads
    have there : p.matchAt? ⟨c.seen.reverse.reverse ++ [], c.rest⟩ = some m := by
      rwa [List.reverse_reverse, List.append_nil]
    exact exists_findFrom? there

/-- Where a pattern occurs, its first part does. -/
theorem occursIn_of_append (occurs : (p ++ q).occursIn t = true) : p.occursIn t = true := by
  obtain ⟨c, y, whole, z, first, -⟩ := occursIn_iff.mp occurs
  exact occursIn_iff.mpr ⟨c, z, whole, first⟩

/-- Where a pattern fails, the search goes on at the next place. -/
theorem findFrom?_of_fails {r : Text} (fails : p.Fails (c, [])) (rest : c.rest = a :: r) :
    p.findFrom? c.seen c.rest = p.findFrom? (a :: c.seen) r := by
  obtain ⟨seen, r⟩ := c
  obtain rfl := rest
  rw [findFrom?, fails.matchAt?_eq_none]

/-- **A search passes by where there is no match.** -/
theorem findFrom?_pass (passes : Cursor.Passes w c d)
    (fails : ∀ v v', w = v ++ v' → v' ≠ [] →
      p.Fails (⟨v.reverse ++ c.seen, v' ++ d.rest⟩, [])) :
    p.findFrom? c.seen c.rest = p.findFrom? d.seen d.rest := by
  rw [passes.rest, passes.seen]
  generalize c.seen = seen at fails
  clear passes
  induction w generalizing seen with
  | nil => rfl
  | cons a w ih =>
      have here := fails [] (a :: w) rfl (List.cons_ne_nil a w)
      refine (findFrom?_of_fails here rfl).trans ?_
      rw [List.reverse_cons, List.append_assoc]
      refine ih (a :: seen) fun v v' eq ne => ?_
      have next := fails (a :: v) v' (congrArg (a :: ·) eq) ne
      rwa [List.reverse_cons, List.append_assoc] at next

/-- **A search passes by what no match begins with.** -/
theorem findFrom?_skip (starts : StartsIn cls p) (passes : Cursor.Passes w c d)
    (other : ∀ a ∈ w, cls a = false) :
    p.findFrom? c.seen c.rest = p.findFrom? d.seen d.rest := by
  refine findFrom?_pass passes fun v v' eq ne => starts.fails ?_
  obtain ⟨a, r, rfl⟩ := List.exists_cons_of_ne_nil ne
  exact other a (eq ▸ List.mem_append_right v List.mem_cons_self)

/-- What matches at a place is read there. -/
theorem reads_of_matchAt? (matched : p.matchAt? c = some m) :
    p.Reads (c, []) (m.stop, m.groups) := by
  obtain ⟨hit, run, rfl⟩ := Option.map_eq_some_iff.mp matched
  obtain ⟨y, read, reached⟩ := (explores p).sound (x := (c, [])) run
  cases reached
  exact read

/-- The text is the same at the end of a match as at its beginning. -/
theorem matchAt?_whole (matched : p.matchAt? c = some m) :
    m.stop.seen.reverse ++ m.stop.rest = c.seen.reverse ++ c.rest := by
  obtain ⟨w, passes⟩ := (reads_of_matchAt? matched).exists_passes
  rw [passes.rest, passes.seen, List.reverse_append, List.reverse_reverse, List.append_assoc]

/-- What is found matches at a place of the text. -/
theorem mem_findAllFrom {n : Nat} (mem : m ∈ p.findAllFrom n c) :
    m.start.seen.reverse ++ m.start.rest = c.seen.reverse ++ c.rest ∧
      p.matchAt? m.start = some m := by
  induction n generalizing c with
  | zero => cases mem
  | succ n ih =>
      rw [findAllFrom] at mem
      cases found : p.findFrom? c.seen c.rest with
      | none =>
          rw [found] at mem
          cases mem
      | some first =>
          obtain ⟨whole, matched⟩ := findFrom?_sound found
          have same := (matchAt?_whole matched).trans whole
          rw [found] at mem
          dsimp only at mem
          split at mem
          · rcases List.mem_cons.mp mem with rfl | later
            · exact ⟨whole, matched⟩
            · obtain ⟨whole', matched'⟩ := ih later
              exact ⟨whole'.trans same, matched'⟩
          · cases rest : first.stop.rest with
            | nil =>
                rw [rest] at mem
                obtain rfl := List.mem_singleton.mp mem
                exact ⟨whole, matched⟩
            | cons a r =>
                rw [rest] at mem same
                rcases List.mem_cons.mp mem with rfl | later
                · exact ⟨whole, matched⟩
                · obtain ⟨whole', matched'⟩ := ih later
                  refine ⟨whole'.trans ?_, matched'⟩
                  rwa [List.reverse_cons, List.append_assoc]

/-- A search goes on behind what it has found. -/
theorem findAllFrom_cons (found : p.findFrom? c.seen c.rest = some m)
    (nonempty : m.stop.rest.length < m.start.rest.length) (n : Nat) :
    p.findAllFrom (n + 1) c = m :: p.findAllFrom n m.stop := by
  rw [findAllFrom, found]
  exact if_pos nonempty

theorem findAllFrom_nil (none : p.findFrom? c.seen c.rest = none) (n : Nat) :
    p.findAllFrom n c = [] := by
  cases n with
  | zero => rfl
  | succ n => rw [findAllFrom, none]

/-- Nothing is found in a text without a code point that is needed. -/
theorem Needs.findAllFrom_eq_nil (needs : Needs a p) (absent : a ∉ c.rest) (n : Nat) :
    p.findAllFrom n c = [] := by
  have fails (seen rest : Text) (absent : a ∉ rest) : p.Fails (⟨seen, rest⟩, []) := fun k =>
    Option.eq_none_iff_forall_ne_some.mpr fun hit found => absent (needs _ _ _ hit found)
  refine findAllFrom_nil ?_ n
  obtain ⟨seen, rest⟩ := c
  induction rest generalizing seen with
  | nil => exact (fails seen [] absent).matchAt?_eq_none
  | cons b r ih =>
      have later : a ∉ r := fun mem => absent (List.mem_cons_of_mem b mem)
      change p.findFrom? seen (b :: r) = none
      rw [findFrom?, (fails seen (b :: r) absent).matchAt?_eq_none]
      exact ih (b :: seen) later

/-! ### Lines -/

/-- A line has one match of a pattern: from a place before which no match begins to its end. -/
def MatchesLine {β : Type} (p : Pattern) (cls : CodePoint → Bool) (f : Match → β) (line : Text)
    (value : β) : Prop :=
  ∃ lead item : Text, line = lead ++ item ∧ (∀ b ∈ lead, cls b = false) ∧ item ≠ [] ∧
    ∀ (c : Cursor) (r : Text), c.rest = item ++ r → (∀ b ∈ r.head?, b = '\n') →
      ∃ m, p.matchAt? c = some m ∧ m.stop.rest = r ∧ f m = value

section Lines

variable {ι β : Type} {f : Match → β} {line : ι → Text} {value : ι → β}

/-- A line stands before the other lines, if there are any, with a line feed in between. -/
theorem exists_join_lines_eq (line : ι → Text) (i : ι) (more : List ι)
    (quiet : cls '\n' = false) :
    ∃ g : Text, (∀ b ∈ g, cls b = false) ∧
      (∀ b ∈ (g ++ Text.join "\n" (more.map line)).head?, b = '\n') ∧
      Text.join "\n" ((i :: more).map line) = line i ++ (g ++ Text.join "\n" (more.map line)) := by
  cases more with
  | nil =>
      refine ⟨[], List.forall_mem_nil _, fun b first => ?_, (List.append_nil _).symm⟩
      cases first
  | cons j more =>
      refine ⟨"\n", List.forall_mem_singleton.mpr quiet, fun b first => ?_, ?_⟩
      · cases first
        rfl
      · exact Text.join_cons_cons _ _ _ _

/-- The matches of the lines that are left are found one after another. -/
theorem findAllFrom_join_lines (starts : StartsIn cls p) (quiet : cls '\n' = false)
    (lines : ∀ i, MatchesLine p cls f (line i) (value i)) (is : List ι) {g : Text} {n : Nat}
    (rest : c.rest = g ++ Text.join "\n" (is.map line)) (silent : ∀ b ∈ g, cls b = false)
    (enough : c.rest.length < n) : (p.findAllFrom n c).map f = is.map value := by
  induction is generalizing c g n with
  | nil =>
      obtain ⟨d, passes, atEnd⟩ := Cursor.exists_passes rest
      have nothing : p.findFrom? c.seen c.rest = none := by
        rw [findFrom?_skip starts passes silent, atEnd]
        exact (starts.fails (x := (⟨d.seen, []⟩, [])) rfl).matchAt?_eq_none
      rw [findAllFrom_nil nothing]
      rfl
  | cons i more ih =>
      obtain ⟨n, rfl⟩ := Nat.exists_eq_add_one.mpr (Nat.zero_lt_of_lt enough)
      obtain ⟨g', silent', ends, joined⟩ := exists_join_lines_eq line i more quiet
      obtain ⟨lead, item, eq, mute, nonempty, matched⟩ := lines i
      rw [joined, eq, List.append_assoc] at rest
      obtain ⟨d, gap, after⟩ := Cursor.exists_passes rest
      obtain ⟨e, front, after⟩ := Cursor.exists_passes after
      obtain ⟨m, here, stop, own⟩ := matched e _ after ends
      have found : p.findFrom? c.seen c.rest = some m := by
        rw [findFrom?_skip starts (gap.trans front) (List.forall_mem_append.mpr ⟨silent, mute⟩)]
        exact findFrom?_of_matchAt? here
      have shorter : m.stop.rest.length < e.rest.length := by
        have pos := List.length_pos_iff.mpr nonempty
        rw [after, stop]
        simp only [List.length_append]
        omega
      have within : e.rest.length ≤ c.rest.length := by
        rw [rest, after]
        simp only [List.length_append]
        omega
      rw [findAllFrom_cons found (by rwa [matchAt?_start here]), List.map_cons, own,
        ih stop silent' (by omega), List.map_cons]

/-- **A text of lines with one match each has their matches.** -/
theorem findAll_join_lines (starts : StartsIn cls p) (quiet : cls '\n' = false)
    (lines : ∀ i, MatchesLine p cls f (line i) (value i)) (is : List ι) :
    (p.findAll (Text.join "\n" (is.map line))).map f = is.map value :=
  findAllFrom_join_lines (g := []) starts quiet lines is rfl (List.forall_mem_nil _)
    (Nat.lt_succ_self _)

end Lines

end Pattern

end RouteDocs
