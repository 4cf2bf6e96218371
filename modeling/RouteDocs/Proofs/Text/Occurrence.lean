import Mathlib.Data.List.Infix
import RouteDocs.Text.CodePoint

/-!
# Occurrences of a Part

Where a part stands in a text, and what a search for it from the end tells.

## Main Definitions

* `Text.StandsAt`: a part stands at a place of a text

## Main Statements

* `Text.standsAt_take`, `Text.standsAt_drop`: what stands in a beginning or an end of a text
* `Text.lastIndexOf?_eq_some_iff`, `Text.lastIndexOf?_append_cons`: the last place where a part
  stands
* `Text.hasPart_eq_true_iff`: a part stands somewhere
* `Text.infix_cases`: a part does not reach across a code point that it does not contain
-/

namespace RouteDocs

namespace Text

/-- A part stands at a place of a text. -/
def StandsAt (part t : Text) (i : Nat) : Prop :=
  part <+: t.drop i

instance (part t : Text) (i : Nat) : Decidable (StandsAt part t i) :=
  inferInstanceAs (Decidable (part <+: t.drop i))

variable {part t : Text} {i j n : Nat}

/-- What stands in a beginning of a text stands in the text and ends in the beginning. -/
theorem standsAt_take (ne : part ≠ []) :
    StandsAt part (t.take n) i ↔ StandsAt part t i ∧ i + part.length ≤ n := by
  have pos := List.length_pos_iff.mpr ne
  rw [StandsAt, List.drop_take, List.prefix_take_iff, StandsAt]
  constructor
  · rintro ⟨stands, le⟩
    exact ⟨stands, by omega⟩
  · rintro ⟨stands, le⟩
    exact ⟨stands, by omega⟩

theorem standsAt_drop : StandsAt part (t.drop n) i ↔ StandsAt part t (n + i) := by
  rw [StandsAt, List.drop_drop, StandsAt]

/-- Each code point of a part stands in the text. -/
theorem StandsAt.getElem? (h : StandsAt part t i) (lt : j < part.length) :
    t[i + j]? = part[j]? := by
  obtain ⟨rest, eq⟩ := h
  rw [← List.getElem?_drop, ← eq, List.getElem?_append_left lt]

/-- Nothing stands in the empty text. -/
theorem not_standsAt_nil (ne : part ≠ []) (i : Nat) : ¬StandsAt part [] i := by
  rw [StandsAt, List.drop_nil, List.prefix_nil]
  exact ne

/-- A part stands at the beginning of a text, or at a place of what follows its first code point. -/
theorem exists_standsAt_cons {c : CodePoint} {r : Text} :
    (∃ i, StandsAt part (c :: r) i) ↔ part <+: c :: r ∨ ∃ i, StandsAt part r i := by
  constructor
  · rintro ⟨_ | i, stands⟩
    · exact Or.inl stands
    · exact Or.inr ⟨i, stands⟩
  · rintro (stands | ⟨i, stands⟩)
    · exact ⟨0, stands⟩
    · exact ⟨i + 1, stands⟩

/-- What stands somewhere in a text is a part of it. -/
theorem StandsAt.within (h : StandsAt part t i) : part <:+: t :=
  List.IsPrefix.isInfix h |>.trans (t.drop_suffix i).isInfix

theorem exists_standsAt_iff : (∃ i, StandsAt part t i) ↔ part <:+: t := by
  constructor
  · rintro ⟨i, stands⟩
    exact stands.within
  · rintro ⟨before, after, rfl⟩
    refine ⟨before.length, after, ?_⟩
    rw [List.append_assoc, List.drop_left]

/-- A part stands where the text has it in full. -/
theorem standsAt_iff_take : StandsAt part t i ↔ (t.drop i).take part.length = part := by
  rw [StandsAt, List.prefix_iff_eq_take, eq_comm]

/-- A part stands in a text wherever it stands in a piece of the text. -/
theorem StandsAt.append (h : StandsAt part t i) (before after : Text) :
    StandsAt part (before ++ t ++ after) (before.length + i) := by
  rw [StandsAt, List.append_assoc, ← List.drop_drop, List.drop_left, List.drop_append]
  exact h.trans (List.prefix_append _ _)

/-- A part is within what lies between two places if it stands there. -/
theorem within_drop_take_iff (ne : part ≠ []) : part <:+: (t.take n).drop j ↔
    ∃ i, j ≤ i ∧ i + part.length ≤ n ∧ StandsAt part t i := by
  rw [← exists_standsAt_iff]
  constructor
  · rintro ⟨i, stands⟩
    obtain ⟨stands, fits⟩ := (standsAt_take ne).mp (standsAt_drop.mp stands)
    exact ⟨j + i, Nat.le_add_right j i, fits, stands⟩
  · rintro ⟨i, le, fits, stands⟩
    obtain ⟨i, rfl⟩ := Nat.exists_eq_add_of_le le
    exact ⟨i, standsAt_drop.mpr ((standsAt_take ne).mpr ⟨stands, fits⟩)⟩

/-! ### Separated Texts -/

/-- What begins two texts with a code point in between ends in the first one if it does not contain
the code point. -/
theorem prefix_of_prefix_append_cons {x y : Text} {c : CodePoint} (other : c ∉ part)
    (h : part <+: x ++ c :: y) : part <+: x := by
  rcases List.prefix_or_prefix_of_prefix h (List.prefix_append x (c :: y)) with inside | ⟨r, rfl⟩
  · exact inside
  · cases r with
    | nil => simp
    | cons d r =>
        obtain ⟨same, -⟩ := List.cons_prefix_cons.mp ((List.prefix_append_right_inj x).mp h)
        exact absurd (by simp [same]) other

/-- **A part does not reach across a code point that it does not contain.** -/
theorem infix_cases {x y : Text} {c : CodePoint} (other : c ∉ part)
    (h : part <:+: x ++ c :: y) : part <:+: x ∨ part <:+: y := by
  induction x with
  | nil =>
      rcases List.infix_cons_iff.mp h with first | later
      · exact Or.inl (prefix_of_prefix_append_cons (x := []) other first).isInfix
      · exact Or.inr later
  | cons d x ih =>
      rcases List.infix_cons_iff.mp h with first | later
      · exact Or.inl (prefix_of_prefix_append_cons (x := d :: x) other first).isInfix
      · exact (ih later).imp_left fun inside => inside.trans (List.suffix_cons d x).isInfix

/-! ### Searching -/

/-- **A text has a part** when the part stands somewhere. -/
theorem hasPart_eq_true_iff (ne : part ≠ []) :
    hasPart part t = true ↔ ∃ i, StandsAt part t i := by
  induction t with
  | nil => simp [hasPart, ne, not_standsAt_nil ne]
  | cons c r ih =>
      rw [hasPart, Bool.or_eq_true, List.isPrefixOf_iff_prefix, ih, exists_standsAt_cons]

/-- A search from the end finds the part unless it stands nowhere, and nowhere later than where it
is found. -/
theorem lastIndexFrom_spec (ne : part ≠ []) :
    match lastIndexFrom part n t with
    | none => ∀ i, ¬StandsAt part t i
    | some j => ∃ i, j = n + i ∧ StandsAt part t i ∧ ∀ k, i < k → ¬StandsAt part t k := by
  induction t generalizing n with
  | nil =>
      rw [lastIndexFrom, if_neg (by simpa using ne)]
      exact not_standsAt_nil ne
  | cons c r ih =>
      have rest := ih (n := n + 1)
      rw [lastIndexFrom]
      cases found : lastIndexFrom part (n + 1) r with
      | some j =>
          rw [found] at rest
          obtain ⟨i, rfl, stands, last⟩ := rest
          refine ⟨i + 1, by omega, stands, fun k lt => ?_⟩
          obtain ⟨k, rfl⟩ := Nat.exists_eq_add_one.mpr (Nat.zero_lt_of_lt lt)
          exact last k (Nat.lt_of_succ_lt_succ lt)
      | none =>
          rw [found] at rest
          have later : ∀ k, 0 < k → ¬StandsAt part (c :: r) k := by
            intro k pos
            obtain ⟨k, rfl⟩ := Nat.exists_eq_add_one.mpr pos
            exact rest k
          by_cases first : part <+: c :: r
          · rw [if_pos (List.isPrefixOf_iff_prefix.mpr first)]
            exact ⟨0, rfl, first, later⟩
          · rw [if_neg (mt List.isPrefixOf_iff_prefix.mp first)]
            intro k stands
            cases k with
            | zero => exact first stands
            | succ k => exact rest k stands

/-- **The last place where a part stands.** -/
theorem lastIndexOf?_eq_some_iff (ne : part ≠ []) :
    lastIndexOf? part t = some i ↔ StandsAt part t i ∧ ∀ k, i < k → ¬StandsAt part t k := by
  have spec := lastIndexFrom_spec ne (n := 0) (t := t)
  rw [lastIndexOf?]
  cases found : lastIndexFrom part 0 t with
  | none =>
      rw [found] at spec
      simp [spec i]
  | some j =>
      rw [found] at spec
      obtain ⟨j, rfl, stands, last⟩ := spec
      rw [Nat.zero_add, Option.some.injEq]
      constructor
      · rintro rfl
        exact ⟨stands, last⟩
      · rintro ⟨stands', last'⟩
        rcases Nat.lt_trichotomy i j with lt | eq | gt
        · exact absurd stands (last' j lt)
        · exact eq.symm
        · exact absurd stands' (last i gt)

/-- A search from the end finds the part that does not stand anywhere after its first code point. -/
theorem lastIndexOf?_append_cons {c : CodePoint} {m y : Text} (x : Text)
    (later : ¬c :: m <:+: m ++ y) : lastIndexOf? (c :: m) (x ++ c :: (m ++ y)) = some x.length := by
  refine (lastIndexOf?_eq_some_iff (List.cons_ne_nil c m)).mpr ⟨⟨y, ?_⟩, fun k lt stands => ?_⟩
  · rw [List.drop_left, List.cons_append]
  · obtain ⟨j, rfl⟩ := Nat.exists_eq_add_of_lt lt
    have after : (x ++ c :: (m ++ y)).drop (x.length + 1) = m ++ y := by
      rw [← List.drop_drop, List.drop_left, List.drop_succ_cons, List.drop_zero]
    rw [Nat.add_right_comm, ← standsAt_drop, after] at stands
    exact later stands.within

end Text

end RouteDocs
