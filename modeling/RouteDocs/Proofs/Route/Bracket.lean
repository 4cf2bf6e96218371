import RouteDocs.Proofs.Route.Path

/-!
# Bracketed Names in Segments

What a segment with bracketed names becomes: piece by piece, a bracketed name is put in braces and
every other code point is kept.

## Main Statements

* `Route.bracketed?_spec`: what a bracketed name takes of the text it is found in
* `Route.templateSegment_induction`: a relation that holds piece by piece holds between a segment
  and what it becomes
* `Route.isUrlSegment_templateSegment`: a segment of a URL becomes a segment of a URL

## Design Notes

A bracketed name is found with the number of code points that it takes, which are passed over one
by one.  The induction principle goes from one piece to the next, so that no later proof counts
them.
-/

namespace RouteDocs

namespace Route

variable {t r name : Text} {c : CodePoint} {used : Nat}

/-! ### Pieces -/

/-- What stands between the points of a rest and its end is part of it. -/
theorem withoutDots_suffix (t : Text) : withoutDots t <:+ t := by
  rw [withoutDots]
  split
  · exact List.drop_suffix 3 t
  · exact List.suffix_rfl

/-- **What a bracketed name takes of a text**: the name, a bracket on either side, and no more than
there is. -/
theorem bracketed?_spec (found : bracketed? t = some (name, used)) :
    name.length + 2 ≤ used ∧ used ≤ t.length ∧ ∀ c ∈ name, c ∈ t := by
  cases t with
  | nil => cases found
  | cons c r =>
      rw [bracketed?] at found
      split at found
      · cases found
      · extract_lets opened body at found
        split at found
        · next d s rest =>
          split at found
          · next closing =>
            cases found
            have shorter := (withoutDots_suffix body).length_le
            have length := congrArg List.length rest
            rw [List.length_drop, List.length_cons] at length
            refine ⟨by split <;> omega, ?_, fun c mem => ?_⟩
            · rw [List.length_cons]
              split
              · next second =>
                have more : s ≠ [] := by
                  rintro rfl
                  cases second
                have := List.length_pos_iff.mpr more
                omega
              · omega
            · have part : body <+: r.drop opened := List.takeWhile_prefix _
              exact List.mem_cons_of_mem _
                (List.mem_of_mem_drop (part.subset ((withoutDots_suffix body).subset mem)))
          · cases found
        · cases found

/-- What is passed over does not count. -/
theorem bracesAfter_eq_drop (k : Nat) (t : Text) : bracesAfter k t = templateSegment (t.drop k) := by
  induction t generalizing k with
  | nil => cases k <;> rfl
  | cons c r ih =>
      cases k with
      | zero => rfl
      | succ k => exact ih k

/-- A relation that holds piece by piece holds between a segment and what it becomes. -/
theorem templateSegment_induction {P : Text → Text → Prop} (nil : P [] [])
    (keep : ∀ c r, P r (templateSegment r) → P (c :: r) (c :: templateSegment r))
    (brace : ∀ t name used, bracketed? t = some (name, used) →
      P (t.drop used) (templateSegment (t.drop used)) →
      P t ("\x7b" ++ name ++ "\x7d" ++ templateSegment (t.drop used)))
    (t : Text) : P t (templateSegment t) := by
  induction n : t.length using Nat.strong_induction_on generalizing t with
  | _ n ih =>
  subst n
  cases t with
  | nil => exact nil
  | cons c r =>
      cases found : bracketed? (c :: r) with
      | none =>
          have step : templateSegment (c :: r) = c :: templateSegment r := by
            rw [templateSegment, bracesAfter, found]
            rfl
          rw [step]
          exact keep c r (ih r.length (Nat.lt_succ_self _) r rfl)
      | some piece =>
          obtain ⟨name, used⟩ := piece
          obtain ⟨wide, -, -⟩ := bracketed?_spec found
          obtain ⟨used, rfl⟩ := Nat.exists_eq_add_one.mpr (show 0 < used by omega)
          have step : templateSegment (c :: r) =
              "\x7b" ++ name ++ "\x7d" ++ templateSegment ((c :: r).drop (used + 1)) := by
            rw [templateSegment, bracesAfter, found]
            simp [bracesAfter_eq_drop]
            rfl
          rw [step]
          refine brace (c :: r) name (used + 1) found (ih _ ?_ _ rfl)
          rw [List.length_drop, List.length_cons]
          omega

/-! ### What Becomes of a Segment -/

/-- A segment without opening brackets stays what it is. -/
theorem templateSegment_of_not_mem (absent : ('[' : CodePoint) ∉ t) : templateSegment t = t := by
  induction t with
  | nil => rfl
  | cons c r ih =>
      rw [List.mem_cons, not_or] at absent
      obtain ⟨ne, rest⟩ := absent
      have unopened : bracketed? (c :: r) = none := by
        rw [bracketed?, if_pos (bne_iff_ne.mpr (Ne.symm ne))]
      rw [templateSegment, bracesAfter, unopened]
      exact congrArg (c :: ·) (ih rest)

/-- A segment becomes no longer. -/
theorem length_templateSegment_le (t : Text) : (templateSegment t).length ≤ t.length := by
  refine templateSegment_induction (P := fun t u => u.length ≤ t.length) ?_ ?_ ?_ t
  · exact Nat.le_refl 0
  · intro c r ih
    exact Nat.succ_le_succ ih
  · intro t name used found ih
    obtain ⟨wide, fits, -⟩ := bracketed?_spec found
    rw [List.length_drop] at ih
    simp only [List.length_append]
    change 1 + name.length + 1 + _ ≤ _
    omega

/-- What a segment becomes has code points of the segment, and braces. -/
theorem mem_templateSegment (mem : c ∈ templateSegment t) : c ∈ t ∨ c.val = 0x7B ∨ c.val = 0x7D := by
  revert mem
  refine templateSegment_induction
    (P := fun t u => c ∈ u → c ∈ t ∨ c.val = 0x7B ∨ c.val = 0x7D) ?_ ?_ ?_ t
  · exact nofun
  · intro d r ih mem
    rcases List.mem_cons.mp mem with rfl | mem
    · exact Or.inl List.mem_cons_self
    · exact (ih mem).imp_left (List.mem_cons_of_mem d)
  · intro t name used found ih mem
    simp only [List.mem_append] at mem
    rcases mem with ((mem | mem) | mem) | mem
    · exact Or.inr (Or.inl (by rw [List.mem_singleton.mp mem]; decide))
    · exact Or.inl ((bracketed?_spec found).2.2 c mem)
    · exact Or.inr (Or.inr (by rw [List.mem_singleton.mp mem]; decide))
    · exact (ih mem).imp_left List.mem_of_mem_drop

theorem templateSegment_eq_nil_iff : templateSegment t = [] ↔ t = [] := by
  refine templateSegment_induction (P := fun t u => u = [] ↔ t = []) ?_ ?_ ?_ t
  · exact Iff.rfl
  · intro c r ih
    simp
  · intro t name used found ih
    obtain ⟨wide, fits, -⟩ := bracketed?_spec found
    have ne : t ≠ [] := by
      rintro rfl
      rw [List.length_nil] at fits
      omega
    exact iff_of_false (List.cons_ne_nil _ _) ne

/-- The first code point of what a segment becomes is the first of the segment, or a brace. -/
theorem head?_templateSegment (first : (templateSegment t).head? = some c) (ne : c.val ≠ 0x7B) :
    t.head? = some c := by
  revert first
  refine templateSegment_induction (P := fun t u => u.head? = some c → t.head? = some c) ?_ ?_ ?_ t
  · exact id
  · intro d r ih first
    exact first
  · intro t name used found ih first
    exact absurd (congrArg Fin.val (Option.some.inj first).symm) ne

/-- The last code point of what a segment becomes is the last of the segment, or a brace. -/
theorem getLast?_templateSegment (last : (templateSegment t).getLast? = some c)
    (ne : c.val ≠ 0x7D) : t.getLast? = some c := by
  revert last
  refine templateSegment_induction
    (P := fun t u => u.getLast? = some c → t.getLast? = some c) ?_ ?_ ?_ t
  · exact id
  · intro d r ih last
    cases rest : (templateSegment r).getLast? with
    | none =>
        have empty : r = [] := templateSegment_eq_nil_iff.mp (List.getLast?_eq_none_iff.mp rest)
        rw [List.getLast?_cons, rest] at last
        rw [empty]
        exact last
    | some e =>
        rw [List.getLast?_cons, rest, Option.getD_some] at last
        rw [List.getLast?_cons, ih (rest.trans last), Option.getD_some]
  · intro t name used found ih last
    rw [List.getLast?_append] at last
    cases rest : (templateSegment (t.drop used)).getLast? with
    | none =>
        have brace : ("\x7b" ++ name ++ "\x7d").getLast? = some ('\x7d' : CodePoint) :=
          List.getLast?_concat
        rw [rest, Option.none_or, brace] at last
        exact absurd (congrArg Fin.val (Option.some.inj last).symm) ne
    | some e =>
        rw [rest, Option.some_or] at last
        have here := ih (rest.trans last)
        rw [List.getLast?_drop] at here
        split at here
        · cases here
        · exact here

/-- Only the directory itself becomes the directory itself. -/
theorem eq_dot_of_templateSegment (eq : templateSegment t = ".") : t = "." := by
  revert eq
  refine templateSegment_induction (P := fun t u => u = "." → t = ".") ?_ ?_ ?_ t
  · exact id
  · intro c r _ eq
    obtain ⟨rfl, empty⟩ := List.cons.inj eq
    rw [templateSegment_eq_nil_iff.mp empty]
    rfl
  · intro t name used _ _ eq
    exact absurd (List.cons.inj eq).1 (by decide)

/-! ### Segments of URLs -/

/-- A group begins and ends with a parenthesis. -/
theorem isGroup_iff :
    isGroup t = true ↔ t.head? = some ('(' : CodePoint) ∧ t.getLast? = some (')' : CodePoint) := by
  rw [isGroup, Bool.and_eq_true, ← List.singleton_prefix_iff_head?_eq_some,
    ← List.singleton_suffix_iff_getLast?_eq_some, ← List.isPrefixOf_iff_prefix,
    ← List.isSuffixOf_iff_suffix]
  rfl

theorem isUrlSegment_iff :
    isUrlSegment t = true ↔ t ≠ [] ∧ t ≠ "." ∧ ¬isGroup t = true := by
  simp [isUrlSegment, and_assoc]

/-- **A segment of a URL becomes a segment of a URL.** -/
theorem isUrlSegment_templateSegment (kept : isUrlSegment t = true) :
    isUrlSegment (templateSegment t) = true := by
  obtain ⟨nonempty, dot, group⟩ := isUrlSegment_iff.mp kept
  rw [isUrlSegment_iff, isGroup_iff]
  refine ⟨mt templateSegment_eq_nil_iff.mp nonempty, mt eq_dot_of_templateSegment dot, ?_⟩
  rintro ⟨first, last⟩
  exact group (isGroup_iff.mpr
    ⟨head?_templateSegment first (by decide), getLast?_templateSegment last (by decide)⟩)

end Route

end RouteDocs
