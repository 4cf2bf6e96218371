import Mathlib.Data.List.DropRight
import RouteDocs.Proofs.Json.Decode

/-!
# Integers Written as Texts

Where an integer is expected, a text is decoded as the integer that it writes. The decimal text of
an integer is one of the texts that write it.

## Main Statements

* `Text.trim_eq_self`, `Text.cut?_eq_none`: texts without what is looked for are left alone
* `Decoder.readInteger?_ofInt`: **an integer is read from its text**
-/

namespace RouteDocs

namespace Text

variable {t : Text} {cls : CodePoint → Bool}

/-- A text without code points of a class is not trimmed. -/
theorem trim_eq_self (h : ∀ c ∈ t, cls c = false) : t.trim cls = t := by
  have left : t.trimLeft cls = t := by
    cases t with
    | nil => rfl
    | cons c r => rw [trimLeft, List.dropWhile_cons_of_neg (by simp [h c])]
  rw [trim, left]
  refine List.rdropWhile_eq_self_iff.mpr fun ne => ?_
  simp [h _ (List.getLast_mem ne)]

theorem cut?_eq_none {sep : CodePoint} (h : ∀ c ∈ t, c ≠ sep) : t.cut? sep = none := by
  induction t with
  | nil => rfl
  | cons c r ih =>
      rw [cut?, beq_false_of_ne (h c (by simp)), ih fun d hd => h d (List.mem_cons_of_mem c hd)]
      rfl

end Text

namespace Decoder

/-- Digits are no blanks, points and underscores. -/
theorem digit_cases {c : CodePoint} (digit : c.isAsciiDigit = true) :
    c.isBlank = false ∧ c ≠ ('.' : CodePoint) ∧ c ≠ ('_' : CodePoint) ∧ c ≠ ('-' : CodePoint) ∧
      c ≠ ('+' : CodePoint) := by
  simp only [CodePoint.isAsciiDigit, Bool.and_eq_true, decide_eq_true_eq] at digit
  refine ⟨?_, ?_, ?_, ?_, ?_⟩
  · simp only [CodePoint.isBlank, Bool.or_eq_false_iff, Bool.and_eq_false_iff,
      decide_eq_false_iff_not, beq_eq_false_iff_ne]
    omega
  all_goals
    rintro rfl
    exact absurd digit (by decide)

theorem groupedDigits?_ofNat (n : Nat) : groupedDigits? (Text.ofNat n) = some n := by
  have digits : ∀ c ∈ Text.ofNat n, c.isAsciiDigit = true := fun c => Text.isAsciiDigit_of_mem_ofNat
  have one : (Text.ofNat n).splitOn '_' = [Text.ofNat n] :=
    Text.splitOn_eq_singleton fun c hc => (digit_cases (digits c hc)).2.2.1
  have nonempty : (Text.ofNat n).isEmpty = false := List.isEmpty_eq_false_iff.mpr Text.ofNat_ne_nil
  have all : (Text.ofNat n).all CodePoint.isAsciiDigit = true := List.all_eq_true.mpr digits
  have value := Text.digitsValue_ofNat n
  rw [groupedDigits?, one]
  simp only [List.all_cons, List.all_nil, nonempty, all, Bool.not_false, Bool.and_self, if_true,
    List.flatten_singleton]
  exact congrArg some value

theorem withoutLeadingZeros_ofNat (n : Nat) :
    withoutLeadingZeros (Text.ofNat n) = some (Text.ofNat n) := by
  rcases Nat.eq_zero_or_pos n with rfl | pos
  · rfl
  · have first := Text.head?_ofNat pos.ne'
    have digits : ∀ c ∈ Text.ofNat n, c.isAsciiDigit = true :=
      fun c => Text.isAsciiDigit_of_mem_ofNat
    obtain ⟨c, r, eq⟩ := List.exists_cons_of_ne_nil (Text.ofNat_ne_nil (n := n))
    rw [eq] at first digits ⊢
    have digit := digits c (by simp)
    have zero : c ≠ ('0' : CodePoint) := fun same => first (congrArg some same)
    have minus := (digit_cases digit).2.2.2.1
    simp [withoutLeadingZeros, digit, zero, minus]

theorem mem_ofInt {i : Int} {c : CodePoint} (h : c ∈ Text.ofInt i) :
    c.isAsciiDigit = true ∨ c = ('-' : CodePoint) := by
  cases i with
  | ofNat n => exact .inl (Text.isAsciiDigit_of_mem_ofNat h)
  | negSucc n =>
      rcases List.mem_cons.mp h with sign | digit
      · exact .inr sign
      · exact .inl (Text.isAsciiDigit_of_mem_ofNat digit)

theorem stripNumber_ofInt (i : Int) : (Text.ofInt i).stripNumber = Text.ofInt i := by
  refine Text.trim_eq_self fun c hc => ?_
  rcases mem_ofInt hc with digit | rfl
  · rw [(digit_cases digit).1]
    rfl
  · decide

theorem withoutZeroFraction_ofInt (i : Int) :
    withoutZeroFraction (Text.ofInt i) = Text.ofInt i := by
  have whole : (Text.ofInt i).cut? '.' = none := by
    refine Text.cut?_eq_none fun c hc => ?_
    rcases mem_ofInt hc with digit | rfl
    · exact (digit_cases digit).2.1
    · decide
  rw [withoutZeroFraction, whole]

/-- **An integer is read from its text.** -/
theorem readInteger?_ofInt (i : Int) : readInteger? (Text.ofInt i) = some i := by
  have strip := stripNumber_ofInt i
  have whole := withoutZeroFraction_ofInt i
  cases i with
  | ofNat n =>
      have zeros := withoutLeadingZeros_ofNat n
      have groups := groupedDigits?_ofNat n
      obtain ⟨c, r, eq⟩ := List.exists_cons_of_ne_nil (Text.ofNat_ne_nil (n := n))
      obtain ⟨-, -, -, minus, plus⟩ :=
        digit_cases (Text.isAsciiDigit_of_mem_ofNat (n := n) (c := c) (by simp [eq]))
      rw [Text.ofInt, eq] at strip whole ⊢
      rw [eq] at zeros groups
      cases r <;> simp [readInteger?, strip, whole, zeros, groups, minus, plus]
  | negSucc n =>
      have groups := groupedDigits?_ofNat (n + 1)
      have first := Text.head?_ofNat (Nat.succ_ne_zero n)
      rw [Text.ofInt] at strip whole ⊢
      have zeros : withoutLeadingZeros (('-' : CodePoint) :: Text.ofNat (n + 1)) =
          some (('-' : CodePoint) :: Text.ofNat (n + 1)) := rfl
      obtain ⟨c, r, eq⟩ := List.exists_cons_of_ne_nil (Text.ofNat_ne_nil (n := n + 1))
      rw [eq] at strip whole zeros groups first ⊢
      have plus : (('-' : CodePoint) == ('+' : CodePoint)) = false := rfl
      have zero : c ≠ ('0' : CodePoint) := fun same => first (congrArg some same)
      simp only [readInteger?, strip, plus, Bool.false_and, Bool.false_eq_true, if_false, zeros,
        Option.bind_some, whole]
      simp [zero, groups]
      omega

end Decoder

end RouteDocs
