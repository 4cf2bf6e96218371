import Mathlib.Data.List.TakeWhile
import RouteDocs.Text.Case

/-!
# What Lower Case Keeps

Digits and marks below the letters of ASCII stay what they are in lower case, and nothing else
becomes one of them.

## Main Statements

* `CaseRun.le_apply`: runs that map above a bound stay above it
* `Text.mem_lower_iff`: **a text has the same digits and marks in lower case**
* `CodePoint.eq_of_sameLetter`, `CodePoint.le_of_sameLetter`: what is met in any letter case
* `Text.mem_trim_iff`: a text has the same code points that are not trimmed
-/

namespace RouteDocs

/-- Runs that map above a bound stay above it. -/
theorem CaseRun.le_apply {bound n : Nat} {runs : List CaseRun} (above : bound ≤ n)
    (maps : ∀ run ∈ runs, (bound : Int) ≤ run.first + run.delta) : bound ≤ apply n runs := by
  induction runs with
  | nil => exact above
  | cons run more ih =>
      rw [apply]
      split
      · exact above
      · next begun =>
        split
        · have first := maps run List.mem_cons_self
          omega
        · exact ih fun run mem => maps run (List.mem_cons_of_mem _ mem)

namespace CodePoint

theorem le_ofNat {bound n : Nat} (small : bound ≤ 0xFFFD) (h : bound ≤ n) : bound ≤ (ofNat n).val := by
  rw [ofNat]
  split
  · exact h
  · exact small

/-- What is not a digit or a mark below the letters stays so in lower case. -/
theorem le_simpleLower {c : CodePoint} (h : 0x41 ≤ c.val) : 0x41 ≤ c.simpleLower.val := by
  rw [simpleLower]
  split
  · split
    · exact le_ofNat (by decide) (by omega)
    · exact h
  · split
    · decide
    · next high _ =>
      have maps : ∀ run ∈ lowerRuns, ((0x61 : Nat) : Int) ≤ run.first + run.delta := by decide +kernel
      have image : 0x61 ≤ CaseRun.apply c.val lowerRuns := CaseRun.le_apply (by omega) maps
      exact le_ofNat (by decide) (by omega)

theorem simpleLower_eq_self {c : CodePoint} (h : c.val < 0x41) : c.simpleLower = c := by
  rw [simpleLower, if_pos (by omega), if_neg (by omega)]

variable {letter c : CodePoint}

/-- A mark below the letters of ASCII is met as itself only. -/
theorem eq_of_sameLetter (low : letter.val < 0x41) (same : sameLetter letter c = true) :
    c = letter := by
  have others : letter ≠ 's' ∧ letter ≠ 'i' := by
    constructor <;>
    · rintro rfl
      revert low
      decide
  have lower : c.simpleLower = letter := by
    simpa [sameLetter, others.1, others.2] using same
  by_cases high : 0x41 ≤ c.val
  · have image := le_simpleLower high
    rw [lower] at image
    omega
  · rw [← lower, simpleLower_eq_self (Nat.lt_of_not_le high)]

/-- A letter is met above the marks and digits of ASCII only. -/
theorem le_of_sameLetter (high : 0x41 ≤ letter.val) (same : sameLetter letter c = true) :
    0x41 ≤ c.val := by
  by_contra low
  rw [sameLetter, simpleLower_eq_self (Nat.lt_of_not_le low)] at same
  simp only [Bool.or_eq_true, Bool.and_eq_true, beq_iff_eq] at same
  rcases same with (rfl | ⟨-, value⟩) | ⟨-, value⟩ <;> omega

end CodePoint

namespace Text

variable {c : CodePoint} {t : Text}

theorem mem_lowerAt_iff (low : c.val < 0x41) (before : Text) (d : CodePoint) (after : Text) :
    c ∈ lowerAt before d after ↔ c = d := by
  have apart : ∀ {x : CodePoint}, 0x41 ≤ x.val → c ≠ x := by
    rintro x high rfl
    omega
  rw [lowerAt]
  split
  · next sigma =>
    have high : 0x41 ≤ d.val := by
      have := beq_iff_eq.mp sigma
      omega
    rw [iff_false_right (apart high)]
    split
    · exact fun mem => apart (by decide) (List.mem_singleton.mp mem)
    · exact fun mem => apart (by decide) (List.mem_singleton.mp mem)
  · split
    · next dotted =>
      have high : 0x41 ≤ d.val := by
        have := beq_iff_eq.mp dotted
        omega
      rw [iff_false_right (apart high)]
      intro mem
      rcases List.mem_cons.mp mem with eq | mem
      · exact apart (by decide) eq
      · exact apart (by decide) (List.mem_singleton.mp mem)
    · rw [List.mem_singleton]
      by_cases high : 0x41 ≤ d.val
      · rw [iff_false_right (apart high)]
        exact apart (CodePoint.le_simpleLower high)
      · rw [CodePoint.simpleLower_eq_self (by omega)]

/-- **A text has the same digits and marks in lower case.** -/
theorem mem_lower_iff (low : c.val < 0x41) : c ∈ t.lower ↔ c ∈ t := by
  rw [lower]
  generalize ([] : Text) = before
  induction t generalizing before with
  | nil => exact Iff.rfl
  | cons d r ih => rw [lowerAfter, List.mem_append, List.mem_cons, mem_lowerAt_iff low, ih]

/-- What is trimmed at the beginning of a text is of the class. -/
theorem mem_dropWhile_iff {cls : CodePoint → Bool} (kept : cls c = false) :
    c ∈ t.dropWhile cls ↔ c ∈ t := by
  refine ⟨fun mem => (List.dropWhile_suffix cls).subset mem, fun mem => ?_⟩
  rw [← List.takeWhile_append_dropWhile (p := cls) (l := t), List.mem_append] at mem
  rcases mem with taken | left
  · rw [List.mem_takeWhile_imp taken] at kept
    cases kept
  · exact left

/-- **A text has the same code points that are not trimmed.** -/
theorem mem_trim_iff {cls : CodePoint → Bool} (kept : cls c = false) : c ∈ t.trim cls ↔ c ∈ t := by
  rw [trim, trimRight, List.mem_reverse, mem_dropWhile_iff kept, List.mem_reverse, trimLeft,
    mem_dropWhile_iff kept]

end Text

end RouteDocs
