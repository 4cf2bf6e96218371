import Mathlib.Data.List.Basic
import Mathlib.Tactic.IntervalCases
import RouteDocs.Json.Reader
import RouteDocs.Text.Digit
import RouteDocs.Text.Word

/-!
# Characters and the Digits of Numbers

Different characters have different code points. The decimal and the hexadecimal text of a natural
number consist of digits, and the number is read back from it.

## Main Statements

* `Text.digitsValue_ofNat`: the decimal digits of a number have its value
* `Text.head?_ofNat`: a positive number has no zero in front
* `Text.hex4?_ofHex`: four hexadecimal digits are read back
* `Text.ofString_inj`, `Text.isScalar_ofString`: strings are scalar texts
* `CodePoint.isBlank_eq_false_of_isDigit`, `CodePoint.isBlank_eq_false_of_isWord`: no digit and no
  letter of any script is a blank

## Design Notes

Numbers are written with the digits of the core library; only the passage from characters to code
points is added here.
-/

namespace RouteDocs

namespace CodePoint

/-! ### Digits and Blanks -/

theorem isDigit_of_isAsciiDigit {c : CodePoint} (digit : c.isAsciiDigit = true) :
    c.isDigit = true := by
  have range : 0x30 ≤ c.val ∧ c.val ≤ 0x39 := by simpa [isAsciiDigit] using digit
  have ascii : c.val < 0x80 := by omega
  simp [isDigit, digitValue?, digit, ascii]

/-- The numbers of the blanks. -/
def blankNumbers : List Nat := [
  9, 10, 11, 12, 13, 28, 29, 30, 31, 32, 0x85, 0xA0, 0x1680, 0x2000, 0x2001, 0x2002, 0x2003, 0x2004,
  0x2005, 0x2006, 0x2007, 0x2008, 0x2009, 0x200A, 0x2028, 0x2029, 0x202F, 0x205F, 0x3000]

/-- A class without the numbers of the blanks has no blanks. -/
theorem isBlank_eq_false_of_class {cls : CodePoint → Bool}
    (none : ∀ n ∈ blankNumbers, cls (CodePoint.ofNat n) = false) {c : CodePoint}
    (inClass : cls c = true) : c.isBlank = false := by
  refine Bool.eq_false_iff.mpr fun blank => ?_
  have listed : c.val ∈ blankNumbers := by
    simp only [isBlank, Bool.or_eq_true, Bool.and_eq_true, decide_eq_true_eq, beq_iff_eq] at blank
    simp only [blankNumbers, List.mem_cons, List.not_mem_nil, or_false]
    omega
  have same : CodePoint.ofNat c.val = c := by simp [ofNat, c.isLt]
  have other := none _ listed
  rw [same, inClass] at other
  cases other

/-- **No digit of any script is a blank.** -/
theorem isBlank_eq_false_of_isDigit {c : CodePoint} (digit : c.isDigit = true) :
    c.isBlank = false :=
  isBlank_eq_false_of_class (by decide) digit

/-- No letter, number or underscore of any script is a blank. -/
theorem isBlank_eq_false_of_isWord {c : CodePoint} (word : c.isWord = true) : c.isBlank = false :=
  isBlank_eq_false_of_class (by decide +kernel) word

theorem isWord_eq_false_of_isBlank {c : CodePoint} (blank : c.isBlank = true) : c.isWord = false :=
  Bool.eq_false_iff.mpr fun word => by
    rw [isBlank_eq_false_of_isWord word] at blank
    cases blank

end CodePoint

namespace Text

variable {n : Nat}

/-! ### Code Points of Characters -/

/-- Different characters have different code points. -/
theorem ofChar_injective {c d : Char} (h : CodePoint.ofChar c = CodePoint.ofChar d) : c = d :=
  Char.ext (UInt32.toNat_inj.mp (Fin.mk.inj h))

/-- Different strings are different texts. -/
@[simp] theorem ofString_inj {s t : String} : ofString s = ofString t ↔ s = t := by
  refine ⟨fun h => ?_, congrArg _⟩
  exact String.toList_inj.mp (List.map_injective_iff.mpr (fun _ _ => ofChar_injective) h)

/-- No character is a surrogate. -/
@[simp] theorem isScalar_ofString (s : String) : (ofString s).isScalar = true := by
  refine List.all_eq_true.mpr fun c hc => ?_
  obtain ⟨d, -, rfl⟩ := List.mem_map.mp hc
  have valid : d.toNat < 0xD800 ∨ 0xDFFF < d.toNat ∧ d.toNat < 0x110000 := d.valid
  have value : (CodePoint.ofChar d).val = d.toNat := rfl
  simp only [CodePoint.isSurrogate, value, Bool.not_eq_true', Bool.and_eq_false_iff,
    decide_eq_false_iff_not, not_le]
  exact valid.imp_right And.left

/-- To compare with the code point of a character is to compare numbers. -/
theorem beq_ofChar (c : CodePoint) (d : Char) :
    (c == CodePoint.ofChar d) = (c.val == d.toNat) := by
  rw [Bool.eq_iff_iff, beq_iff_eq, beq_iff_eq, Fin.ext_iff]
  rfl

/-! ### Decimal Digits -/

theorem isAsciiDigit_ofChar {c : Char} (h : c.isDigit = true) :
    (CodePoint.ofChar c).isAsciiDigit = true := by
  simp only [Char.isDigit, Bool.and_eq_true, decide_eq_true_eq, ge_iff_le,
    UInt32.le_iff_toNat_le] at h
  simp only [CodePoint.isAsciiDigit, CodePoint.ofChar, Bool.and_eq_true]
  exact ⟨decide_eq_true h.1, decide_eq_true h.2⟩

/-- A decimal text consists of digits. -/
theorem isAsciiDigit_of_mem_ofNat {c : CodePoint} (h : c ∈ ofNat n) : c.isAsciiDigit = true := by
  obtain ⟨d, hd, rfl⟩ := List.mem_map.mp h
  exact isAsciiDigit_ofChar (Nat.isDigit_of_mem_toDigits (by decide) (by decide) hd)

theorem ofNat_ne_nil : ofNat n ≠ [] := by
  simp [ofNat]

theorem length_ofNat : (ofNat n).length = (Nat.toDigits 10 n).length := by
  simp [ofNat]

/-- **The decimal digits of a number have its value.** -/
theorem digitsValue_ofNat (n : Nat) : Json.digitsValue (ofNat n) = n := by
  have value : ∀ (cs : List Char) (i : Nat),
      (cs.map CodePoint.ofChar).foldl (fun n c => 10 * n + (c.val - 0x30)) i =
        Nat.ofDigitChars 10 cs i := by
    intro cs
    induction cs with
    | nil => simp
    | cons c cs ih =>
        intro i
        rw [Nat.ofDigitChars_cons, ← ih]
        rfl
  unfold Json.digitsValue ofNat
  rw [value, Nat.ofDigitChars_ten_toDigits]

/-- A positive number has no zero in front. -/
theorem head?_toDigits (h : n ≠ 0) : (Nat.toDigits 10 n).head? ≠ some '0' := by
  induction n using Nat.strongRecOn with
  | ind n ih =>
      by_cases small : n < 10
      · rw [Nat.toDigits_of_lt_base small]
        intro zero
        exact h (by simpa using zero)
      · have first := ih (n / 10) (by omega) (by omega)
        rw [Nat.toDigits_of_base_le (by decide) (by omega)]
        cases digits : Nat.toDigits 10 (n / 10) with
        | nil => exact absurd digits Nat.toDigits_ne_nil
        | cons c r => simpa [digits] using first

theorem head?_ofNat (h : n ≠ 0) : (ofNat n).head? ≠ some ('0' : CodePoint) := by
  intro zero
  rw [ofNat, List.head?_map, Option.map_eq_some_iff] at zero
  obtain ⟨c, hc, eq⟩ := zero
  obtain rfl : c = '0' := ofChar_injective eq
  exact head?_toDigits h hc

/-! ### Hexadecimal Digits -/

/-- The code point of a hexadecimal digit. -/
def hexDigit (d : Nat) : CodePoint := CodePoint.ofChar (Nat.digitChar d)

theorem hexValue?_hexDigit {d : Nat} (h : d < 16) : (hexDigit d).hexValue? = some d := by
  interval_cases d <;> rfl

/-- A number of 16 bits has four hexadecimal digits, zeros in front included. -/
theorem ofHex_four (h : n < 0x10000) :
    ofHex 4 n =
      [hexDigit (n / 0x1000), hexDigit (n / 0x100 % 0x10), hexDigit (n / 0x10 % 0x10),
        hexDigit (n % 0x10)] := by
  have step : ∀ m, Nat.toDigits 16 m = if m < 16 then [Nat.digitChar m]
      else Nat.toDigits 16 (m / 16) ++ [Nat.digitChar (m % 16)] :=
    fun m => Nat.toDigits_eq_if (by decide)
  have zero : (('0' : CodePoint)) = hexDigit 0 := rfl
  unfold ofHex
  rw [step n]
  split
  · simp [hexDigit, List.replicate, show n / 4096 = 0 by omega, show n / 256 = 0 by omega,
      show n / 16 = 0 by omega, show n % 16 = n by omega]
    rfl
  rw [step (n / 16)]
  split
  · simp [hexDigit, List.replicate, show n / 4096 = 0 by omega, show n / 256 = 0 by omega,
      show n / 16 % 16 = n / 16 by omega]
    rfl
  rw [step (n / 16 / 16)]
  split
  · simp [hexDigit, Nat.div_div_eq_div_mul, show n / 4096 = 0 by omega,
      show n / 256 % 16 = n / 256 by omega]
    rfl
  rw [step (n / 16 / 16 / 16), if_pos (by omega)]
  simp [hexDigit, Nat.div_div_eq_div_mul]

/-- Four hexadecimal digits are read back. -/
theorem hex4?_ofHex (h : n < 0x10000) :
    ∃ a b c d, ofHex 4 n = [a, b, c, d] ∧ Json.hex4? a b c d = some n := by
  refine ⟨_, _, _, _, ofHex_four h, ?_⟩
  simp only [Json.hex4?, hexValue?_hexDigit (show n / 0x1000 < 16 by omega),
    hexValue?_hexDigit (show n / 0x100 % 0x10 < 16 by omega),
    hexValue?_hexDigit (show n / 0x10 % 0x10 < 16 by omega),
    hexValue?_hexDigit (show n % 0x10 < 16 by omega)]
  simp only [Option.bind_eq_bind, Option.bind_some, Option.pure_def, Option.some.injEq]
  omega

end Text

end RouteDocs
