import RouteDocs.Text.Blank
import RouteDocs.Text.Utf8

/-!
# Encoding and Decoding

A text without surrogates has bytes, and these are read back as the text.

## Main Statements

* `Utf8.firstSurrogates_eq_none`: the search for surrogates finds nothing in scalar texts only
* `Utf8.encode_eq_ok`: what is encoded
* `Utf8.decode_encode`: decoding undoes encoding
-/

namespace RouteDocs

namespace Utf8

/-- The search for surrogates finds nothing in scalar texts only. -/
theorem firstSurrogates_eq_none {i : Nat} {t : Text} :
    firstSurrogates i t = none ↔ t.isScalar = true := by
  induction t generalizing i with
  | nil => simp [firstSurrogates, Text.isScalar]
  | cons c r ih =>
      cases surrogate : c.isSurrogate with
      | true => simp [firstSurrogates, Text.isScalar, surrogate]
      | false =>
          rw [firstSurrogates, if_neg (by simp [surrogate]), ih]
          simp [Text.isScalar, surrogate]

/-- What is encoded: scalar texts, one code point after another. -/
theorem encode_eq_ok {t : Text} {bytes : List UInt8} :
    encode t = .ok bytes ↔ t.isScalar = true ∧ t.flatMap encodeOne = bytes := by
  unfold encode
  cases found : firstSurrogates 0 t with
  | none => simp [firstSurrogates_eq_none.mp found]
  | some e =>
      have unscalar : ¬t.isScalar = true := fun scalar => by
        simp [firstSurrogates_eq_none.mpr scalar] at found
      simp [unscalar]

/-! ### Single Code Points -/

theorem toNat_toUInt8 {n : Nat} (h : n < 0x100) : n.toUInt8.toNat = n := by
  simpa using h

/-- The first of two bytes announces them. -/
theorem lead?_two {n : Nat} (least : 2 ≤ n) (greatest : n < 0x20) :
    lead? (0xC0 + n).toUInt8 = some (2, 0x80, 0xBF) := by
  unfold lead?
  rw [toNat_toUInt8 (by omega), if_pos (by omega)]

/-- The first of three bytes announces them and a second byte that does not lead to a surrogate or
to a number that has two bytes. -/
theorem lead?_three {n second : Nat} (small : n < 0x10) (byte : 0x80 ≤ second)
    (byte' : second ≤ 0xBF) (least : n = 0 → 0xA0 ≤ second) (scalar : n = 0xD → second ≤ 0x9F) :
    ∃ low high, lead? (0xE0 + n).toUInt8 = some (3, low, high) ∧ low ≤ second ∧ second ≤ high := by
  unfold lead?
  rw [toNat_toUInt8 (by omega), if_neg (by omega)]
  by_cases zero : n = 0
  · exact ⟨0xA0, 0xBF, by simp [zero], least zero, byte'⟩
  by_cases high : n = 0xD
  · exact ⟨0x80, 0x9F, by simp [high], byte, scalar high⟩
  · refine ⟨0x80, 0xBF, ?_, byte, byte'⟩
    rw [if_neg (by simpa using zero), if_neg (by simp; omega), if_pos (by omega)]

/-- The first of four bytes announces them and a second byte that does not lead beyond the last code
point or to a number that has three bytes. -/
theorem lead?_four {n second : Nat} (small : n < 5) (byte : 0x80 ≤ second)
    (byte' : second ≤ 0xBF) (least : n = 0 → 0x90 ≤ second) (last : n = 4 → second ≤ 0x8F) :
    ∃ low high, lead? (0xF0 + n).toUInt8 = some (4, low, high) ∧ low ≤ second ∧ second ≤ high := by
  unfold lead?
  rw [toNat_toUInt8 (by omega), if_neg (by omega), if_neg (by simp; omega),
    if_neg (by simp; omega), if_neg (by omega)]
  by_cases zero : n = 0
  · exact ⟨0x90, 0xBF, by simp [zero], least zero, byte'⟩
  by_cases high : n = 4
  · exact ⟨0x80, 0x8F, by simp [high], byte, last high⟩
  · refine ⟨0x80, 0xBF, ?_, byte, byte'⟩
    rw [if_neg (by simpa using zero), if_neg (by simp; omega), if_pos (by omega)]

theorem ofNat_val (c : CodePoint) : CodePoint.ofNat c.val = c := by
  simp [CodePoint.ofNat, c.isLt]

/-- The bytes of a code point are read back, whatever follows. -/
theorem decodeFrom_encodeOne {c : CodePoint} (scalar : c.isSurrogate = false) (i : Nat)
    (rest : List UInt8) :
    decodeFrom i (encodeOne c ++ rest) =
      (decodeFrom (i + (encodeOne c).length) rest).map (c :: ·) := by
  have bound := c.isLt
  have lone : ¬(0xD800 ≤ c.val ∧ c.val ≤ 0xDFFF) := by
    simpa [CodePoint.isSurrogate] using scalar
  have same := ofNat_val c
  unfold encodeOne
  by_cases one : c.val < 0x80
  -- one byte
  · simp only [one, if_true, List.cons_append, List.nil_append, decodeFrom,
      toNat_toUInt8 (show c.val < 0x100 by omega), same, List.length_cons, List.length_nil]
  by_cases two : c.val < 0x800
  -- two bytes
  · have first := toNat_toUInt8 (show 0xC0 + c.val / 0x40 < 0x100 by omega)
    have second := toNat_toUInt8 (show 0x80 + c.val % 0x40 < 0x100 by omega)
    have value : (0xC0 + c.val / 0x40 - 0xC0) * 0x40 + (0x80 + c.val % 0x40) % 0x40 = c.val := by
      omega
    simp only [one, two, if_true, if_false, List.cons_append, List.nil_append, decodeFrom, first,
      lead?_two (show 2 ≤ c.val / 0x40 by omega) (show c.val / 0x40 < 0x20 by omega), second, low,
      value, same]
    simp [show ¬(0xC0 + c.val / 0x40 < 0x80) by omega, show ¬(0x80 + c.val % 0x40 < 0x80) by omega,
      show ¬(0xBF < 0x80 + c.val % 0x40) by omega]
  by_cases three : c.val < 0x10000
  -- three bytes, of which the second one tells surrogates
  · have first := toNat_toUInt8 (show 0xE0 + c.val / 0x1000 < 0x100 by omega)
    have second := toNat_toUInt8 (show 0x80 + c.val / 0x40 % 0x40 < 0x100 by omega)
    have third := toNat_toUInt8 (show 0x80 + c.val % 0x40 < 0x100 by omega)
    obtain ⟨least, greatest, leads, least_le, le_greatest⟩ :=
      lead?_three (show c.val / 0x1000 < 0x10 by omega)
        (show 0x80 ≤ 0x80 + c.val / 0x40 % 0x40 by omega) (by omega) (by omega) (by omega)
    have value : (0xE0 + c.val / 0x1000 - 0xE0) * 0x1000
        + (0x80 + c.val / 0x40 % 0x40) % 0x40 * 0x40 + (0x80 + c.val % 0x40) % 0x40 = c.val := by omega
    simp only [one, two, three, if_true, if_false, List.cons_append, List.nil_append, decodeFrom,
      first, leads, second, third, low, isContinuation, value, same]
    simp [show ¬(0xE0 + c.val / 0x1000 < 0x80) by omega, show ¬(0x80 + c.val / 0x40 % 0x40 < least)
      by omega, show ¬(greatest < 0x80 + c.val / 0x40 % 0x40) by omega,
      show 0x80 + c.val % 0x40 ≤ 0xBF by omega]
  -- four bytes, of which the second one tells numbers that are no code points
  · have first := toNat_toUInt8 (show 0xF0 + c.val / 0x40000 < 0x100 by omega)
    have second := toNat_toUInt8 (show 0x80 + c.val / 0x1000 % 0x40 < 0x100 by omega)
    have third := toNat_toUInt8 (show 0x80 + c.val / 0x40 % 0x40 < 0x100 by omega)
    have fourth := toNat_toUInt8 (show 0x80 + c.val % 0x40 < 0x100 by omega)
    obtain ⟨least, greatest, leads, least_le, le_greatest⟩ :=
      lead?_four (show c.val / 0x40000 < 5 by omega)
        (show 0x80 ≤ 0x80 + c.val / 0x1000 % 0x40 by omega) (by omega) (by omega) (by omega)
    have value : (0xF0 + c.val / 0x40000 - 0xF0) * 0x40000
        + (0x80 + c.val / 0x1000 % 0x40) % 0x40 * 0x1000
        + (0x80 + c.val / 0x40 % 0x40) % 0x40 * 0x40 + (0x80 + c.val % 0x40) % 0x40 = c.val := by omega
    simp only [one, two, three, if_false, List.cons_append, List.nil_append, decodeFrom, first,
      leads, second, third, fourth, low, isContinuation, value, same]
    simp [show ¬(0xF0 + c.val / 0x40000 < 0x80) by omega,
      show ¬(0x80 + c.val / 0x1000 % 0x40 < least) by omega,
      show ¬(greatest < 0x80 + c.val / 0x1000 % 0x40) by omega,
      show 0x80 + c.val / 0x40 % 0x40 ≤ 0xBF by omega, show 0x80 + c.val % 0x40 ≤ 0xBF by omega]

/-! ### Texts -/

theorem decodeFrom_flatMap {t : Text} (scalar : t.isScalar = true) (i : Nat) :
    decodeFrom i (t.flatMap encodeOne) = .ok t := by
  induction t generalizing i with
  | nil => rfl
  | cons c r ih =>
      simp only [Text.isScalar, List.all_cons, Bool.and_eq_true, Bool.not_eq_true'] at scalar
      rw [List.flatMap_cons, decodeFrom_encodeOne scalar.1, ih scalar.2]
      rfl

/-- **Decoding undoes encoding.** -/
theorem decode_encode {t : Text} {bytes : List UInt8} (h : encode t = .ok bytes) :
    decode bytes = .ok t := by
  obtain ⟨scalar, rfl⟩ := encode_eq_ok.mp h
  exact decodeFrom_flatMap scalar 0

end Utf8

end RouteDocs
