import Mathlib.Data.List.TakeWhile
import RouteDocs.Proofs.Json.Fits
import RouteDocs.Proofs.Json.Quoted
import RouteDocs.Proofs.Number.Shortest
import RouteDocs.Proofs.Text.Join

/-!
# Written Numbers and Words

The texts of the values that have no parts are read back, wherever a value may end.

## Main Definitions

* `Json.Ends`: what may follow a value
* `Json.Legible`: the texts that are read as one value without parts
* `Json.IsWhole`, `Json.IsFraction`, `Json.IsExponent`: the parts of a number
* `Json.IsFloat`, `Json.partsValue`: the parts of a floating-point number, and what they amount to
* `Json.IsWritten`: a text is written in such parts
* `Json.Layout.readAs`: what a floating-point number is read as

## Main Statements

* `Json.legible_ofInt`: integers that a reader takes are read back
* `Json.readNumber_float`: a number with a fraction or an exponent is read as the nearest number
* `Json.isWritten_positive`: **the text of a positive decimal amounts to the decimal**
* `Json.legible_number`: **floating-point numbers of the format are read back**, where a layout has
  texts for them

## Design Notes

The reader takes as many digits as there are, so what follows a number matters: a digit, a point or
the letter of an exponent would continue it.
-/

namespace RouteDocs

namespace Json

/-- What may follow a value: nothing, a blank, a comma or a closing bracket. -/
def Ends (rest : Text) : Prop :=
  ∀ c ∈ rest.head?, isSpace c = true ∨ c = ',' ∨ c = ']' ∨ c.val = 0x7D

/-- The code points with which a value without parts begins. -/
def isAtomStart (c : CodePoint) : Bool :=
  c.isAsciiDigit || c.isAsciiLetter || c == '-'

/-- The texts that a reader reads as one value without parts, wherever a value may end. -/
structure Legible (dialect : Dialect) (w : Text) (v : Json) : Prop where
  /-- Such a value is told from the others by its beginning. -/
  start : ∃ c r, w = c :: r ∧ isAtomStart c = true
  /-- It has no control characters. -/
  printed : w.all isPrinted = true
  /-- It is read, and what follows is left. -/
  read : ∀ rest, Ends rest → readAtom dialect (w ++ rest) = .ok (v, rest)

variable {dialect : Dialect}

/-! ### Words -/

theorem legible_null : Legible dialect "null" .null :=
  ⟨⟨_, _, rfl, rfl⟩, by decide, fun _ _ => rfl⟩

theorem legible_bool (b : Bool) : Legible dialect (if b then "true" else "false") (.bool b) := by
  cases b <;> exact ⟨⟨_, _, rfl, rfl⟩, by decide, fun _ _ => rfl⟩

theorem legible_infinity : Legible dialect "Infinity" (.float (.infinite false)) :=
  ⟨⟨_, _, rfl, rfl⟩, by decide, fun _ _ => rfl⟩

theorem legible_minusInfinity : Legible dialect "-Infinity" (.float (.infinite true)) :=
  ⟨⟨_, _, rfl, rfl⟩, by decide, fun _ _ => rfl⟩

theorem legible_nan : Legible dialect "NaN" (.float .nan) :=
  ⟨⟨_, _, rfl, rfl⟩, by decide, fun _ _ => rfl⟩

/-! ### Digits -/

variable {ds rest : Text}

/-- A value does not end before a digit. -/
theorem Ends.isAsciiDigit_eq_false (h : Ends rest) : ∀ c ∈ rest.head?, c.isAsciiDigit = false := by
  intro c hc
  have ends := h c hc
  simp only [isSpace, Bool.or_eq_true, beq_iff_eq] at ends
  rcases ends with ((((rfl | rfl) | rfl) | rfl) | rfl | rfl | brace) <;> try rfl
  simp [CodePoint.isAsciiDigit, brace]

theorem digitsValue_append (ds es : Text) :
    digitsValue (ds ++ es) = digitsValue ds * 10 ^ es.length + digitsValue es := by
  induction es using List.reverseRecOn with
  | nil => simp [digitsValue]
  | append_singleton es c ih =>
      have step (ds : Text) : digitsValue (ds ++ [c]) = 10 * digitsValue ds + (c.val - 0x30) := by
        simp [digitsValue]
      rw [← List.append_assoc, step, step, ih, List.length_append, List.length_singleton, pow_succ]
      ring

@[simp] theorem digitsValue_zeros (n : Nat) :
    digitsValue (List.replicate n ('0' : CodePoint)) = 0 := by
  induction n with
  | zero => rfl
  | succ n ih =>
      rw [List.replicate_succ', digitsValue_append, ih]
      rfl

/-- The words of the language. -/
def words : List Text := ["null", "true", "false", "NaN", "Infinity", "-Infinity"]

variable {c : CodePoint} {r : Text}

/-- What begins with no word is a number or nothing. -/
theorem readAtom_of_no_word (h : ∀ w ∈ words, List.isPrefixOf w (c :: r) = false) :
    readAtom dialect (c :: r) =
      if c == '-' then
        if r.head?.any CodePoint.isAsciiDigit then readNumber dialect true r
        else .error (.noValue, c :: r)
      else if c.isAsciiDigit then readNumber dialect false (c :: r)
      else .error (.noValue, c :: r) := by
  simp only [words, List.forall_mem_cons] at h
  obtain ⟨null, yes, no, nan, infinity, minus, -⟩ := h
  unfold readAtom
  simp only [null, yes, no, nan, infinity, minus, Bool.false_eq_true, if_false]

/-- A digit begins a number and no word. -/
theorem readAtom_digit (digit : c.isAsciiDigit = true) :
    readAtom dialect (c :: r) = readNumber dialect false (c :: r) := by
  -- No word begins with a digit.
  have other : (words.all fun w => w.head?.any fun d => !d.isAsciiDigit) = true := by decide
  rw [List.all_eq_true] at other
  have minus : (c == '-') = false := by
    rw [beq_eq_false_iff_ne]
    rintro rfl
    cases digit
  rw [readAtom_of_no_word]
  · simp only [minus, digit, Bool.false_eq_true, if_false, if_true]
  · intro w hw
    have begins := other w hw
    cases w with
    | nil => cases begins
    | cons d w =>
        have ne : d ≠ c := by
          rintro rfl
          simp [digit] at begins
        simp [List.isPrefixOf, ne]

/-- A minus sign before a digit begins a negative number and no word. -/
theorem readAtom_minus (digit : c.isAsciiDigit = true) :
    readAtom dialect ('-' :: c :: r) = readNumber dialect true (c :: r) := by
  -- One word begins with a minus sign, and a letter follows there.
  have other : (words.all fun w => w.head?.any fun d : CodePoint => d != '-' ||
      w.tail.head?.any fun e => !e.isAsciiDigit) = true := by decide
  rw [List.all_eq_true] at other
  rw [readAtom_of_no_word]
  · simp [digit]
  · intro w hw
    have begins := other w hw
    cases w with
    | nil => cases begins
    | cons d w =>
        by_cases sign : d = '-'
        · cases w with
          | nil => simp [sign] at begins
          | cons e w =>
              have ne : e ≠ c := by
                rintro rfl
                simp [digit, sign] at begins
              simp [List.isPrefixOf, ne]
        · simp [List.isPrefixOf, sign]

/-! ### The Parts of a Number -/

/-- The digits before the point: a single zero, or no zero in front. -/
structure IsWhole (w : Text) : Prop where
  /-- There is a digit. -/
  nonempty : w ≠ []
  /-- There are only digits. -/
  digits : ∀ c ∈ w, c.isAsciiDigit = true
  /-- A zero stands alone. -/
  zero : w.head? = some ('0' : CodePoint) → w = [('0' : CodePoint)]

/-- A point with digits, or nothing. -/
def IsFraction (w : Text) : Prop :=
  w = [] ∨ ∃ ds : Text, w = ('.' : CodePoint) :: ds ∧ ds ≠ [] ∧ ∀ c ∈ ds, c.isAsciiDigit = true

/-- The letter of an exponent with a sign and digits, or nothing. -/
def IsExponent (w : Text) : Prop :=
  w = [] ∨ ∃ (sign : CodePoint) (ds : Text), w = ('e' : CodePoint) :: sign :: ds ∧
    (sign = '+' ∨ sign = '-') ∧ ds ≠ [] ∧ ∀ c ∈ ds, c.isAsciiDigit = true

/-- Where a value ends there is no fraction. -/
theorem Ends.takeFraction (h : Ends rest) : takeFraction rest = ([], rest) := by
  cases rest with
  | nil => rfl
  | cons c r =>
      have point : (c == '.') = false := by
        rw [beq_eq_false_iff_ne]
        rintro rfl
        have ends := h _ rfl
        revert ends
        decide
      simp [Json.takeFraction, point]

/-- Where a value ends there is no exponent. -/
theorem Ends.takeExponent (h : Ends rest) : takeExponent rest = (none, rest) := by
  cases rest with
  | nil => rfl
  | cons c r =>
      have letter : (c == 'e' || c == 'E') = false := by
        rw [Bool.or_eq_false_iff, beq_eq_false_iff_ne, beq_eq_false_iff_ne]
        constructor <;> rintro rfl <;> have ends := h _ rfl <;> revert ends <;> decide
      simp [Json.takeExponent, letter]

/-- The digits before the point are taken. -/
theorem takeWhole_append {w : Text} (hw : IsWhole w)
    (stop : ∀ c ∈ rest.head?, c.isAsciiDigit = false) : takeWhole (w ++ rest) = (w, rest) := by
  have taken := Text.takeWhile_append_of_ends hw.digits stop
  have left := Text.dropWhile_append_of_ends hw.digits stop
  match w, hw with
  | [], hw => exact absurd rfl hw.nonempty
  | c :: r, hw =>
      by_cases zero : c = '0'
      · have alone := hw.zero (by simp [zero])
        simp only [List.cons.injEq] at alone
        simp [takeWhole, zero, alone.2]
      · rw [List.cons_append] at taken left ⊢
        simp [takeWhole, zero, taken, left]

/-- A fraction is taken. -/
theorem takeFraction_append {f : Text} (hf : IsFraction f)
    (stop : ∀ c ∈ rest.head?, c.isAsciiDigit = false ∧ c ≠ '.') :
    takeFraction (f ++ rest) = (f.tail, rest) := by
  rcases hf with rfl | ⟨ds, rfl, nonempty, digits⟩
  · cases rest with
    | nil => rfl
    | cons c r => simp [takeFraction, (stop c rfl).2]
  · have only := fun c hc => (stop c hc).1
    simp [takeFraction, Text.takeWhile_append_of_ends digits only,
      Text.dropWhile_append_of_ends digits only, nonempty]

/-- The value of an exponent, which is zero where there is none. -/
def exponentValue (e : Text) : Int := (takeExponent e).1.getD 0

theorem takeExponent_letter {sign : CodePoint} {ds : Text}
    (signed : sign = '+' ∨ sign = '-') (nonempty : ds ≠ [])
    (digits : ∀ c ∈ ds, c.isAsciiDigit = true)
    (stop : ∀ c ∈ rest.head?, c.isAsciiDigit = false) :
    takeExponent (('e' : CodePoint) :: sign :: (ds ++ rest)) =
      (some (if sign = '-' then -(digitsValue ds : Int) else digitsValue ds), rest) := by
  have taken := Text.takeWhile_append_of_ends digits stop
  have left := Text.dropWhile_append_of_ends digits stop
  have plus : ('+' : CodePoint) ≠ '-' := by decide
  rcases signed with rfl | rfl <;> simp [takeExponent, taken, left, nonempty, plus]

theorem exponentValue_letter {sign : CodePoint} {ds : Text}
    (signed : sign = '+' ∨ sign = '-') (nonempty : ds ≠ [])
    (digits : ∀ c ∈ ds, c.isAsciiDigit = true) :
    exponentValue (('e' : CodePoint) :: sign :: ds) =
      if sign = '-' then -(digitsValue ds : Int) else digitsValue ds := by
  have nothing : ∀ c ∈ ([] : Text).head?, c.isAsciiDigit = false := nofun
  have taken := takeExponent_letter signed nonempty digits nothing
  rw [List.append_nil] at taken
  rw [exponentValue, taken, Option.getD_some]

/-- An exponent is taken. -/
theorem exists_takeExponent_append {e : Text} (he : IsExponent e) (ends : Ends rest) :
    ∃ x : Option Int, x.isNone = e.isEmpty ∧ x.getD 0 = exponentValue e ∧
      takeExponent (e ++ rest) = (x, rest) := by
  rcases he with rfl | ⟨sign, ds, rfl, signed, nonempty, digits⟩
  · exact ⟨none, rfl, rfl, ends.takeExponent⟩
  · have value := exponentValue_letter signed nonempty digits
    exact ⟨some _, rfl, value.symm,
      takeExponent_letter signed nonempty digits ends.isAsciiDigit_eq_false⟩

/-- **The parts of a floating-point number**, which has a fraction or an exponent. -/
structure IsFloat (w f e : Text) : Prop where
  /-- The digits before the point. -/
  whole : IsWhole w
  /-- The fraction. -/
  fraction : IsFraction f
  /-- The exponent. -/
  exponent : IsExponent e
  /-- There is a fraction or an exponent. -/
  parts : f ≠ [] ∨ e ≠ []

/-- The power of ten of the last digit of a number with a fraction and an exponent. -/
def partsPower (f e : Text) : Int := exponentValue e - f.tail.length

/-- **A number with a fraction or an exponent is read as the nearest number** to what its parts
amount to, if its whole part is not too long for the reader. -/
theorem readNumber_float {negative : Bool} {w f e : Text} (h : IsFloat w f e)
    (short : dialect.counted negative false w.length ≤ dialect.rules.maxLength) (ends : Ends rest) :
    readNumber dialect negative (w ++ (f ++ (e ++ rest))) =
      .ok (.float (.ofDecimal negative (digitsValue (w ++ f.tail)) (partsPower f e)), rest) := by
  obtain ⟨hw, hf, he, parts⟩ := h
  obtain ⟨x, given, value, taken⟩ := exists_takeExponent_append he ends
  have afterFraction : ∀ c ∈ (e ++ rest).head?, c.isAsciiDigit = false ∧ c ≠ '.' := by
    rcases he with rfl | ⟨sign, ds, rfl, -⟩
    · intro c hc
      refine ⟨ends.isAsciiDigit_eq_false c hc, ?_⟩
      rintro rfl
      have stops := ends _ hc
      revert stops
      decide
    · rintro c ⟨⟩
      exact ⟨rfl, by decide⟩
  have afterWhole : ∀ c ∈ (f ++ (e ++ rest)).head?, c.isAsciiDigit = false := by
    rcases hf with rfl | ⟨ds, rfl, -⟩
    · exact fun c hc => (afterFraction c hc).1
    · rintro c ⟨⟩
      rfl
  have float : (f.tail.isEmpty && x.isNone) = false := by
    rw [given]
    rcases hf with rfl | ⟨ds, rfl, nonempty, -⟩
    · simpa using parts
    · simp [nonempty]
  unfold readNumber
  rw [takeWhole_append hw afterWhole]
  simp only [takeFraction_append hf afterFraction, taken, float, value, Nat.not_lt.mpr short,
    Bool.false_eq_true, if_false]
  rfl

/-! ### Integers -/

/-- The decimal digits of a number stand before a point. -/
theorem isWhole_ofNat (n : Nat) : IsWhole (Text.ofNat n) := by
  refine ⟨Text.ofNat_ne_nil, fun c => Text.isAsciiDigit_of_mem_ofNat, fun zero => ?_⟩
  by_cases h : n = 0
  · subst h
    rfl
  · exact absurd zero (Text.head?_ofNat h)

theorem readNumber_ofNat (negative : Bool) {n : Nat}
    (few : dialect.counted negative true (Binary64.decimalLength n) ≤ dialect.rules.maxLength)
    (ends : Ends rest) :
    readNumber dialect negative (Text.ofNat n ++ rest) =
      .ok (.int (if negative then -n else n), rest) := by
  have length : ¬dialect.rules.maxLength < dialect.counted negative true (Text.ofNat n).length := by
    rw [Text.length_ofNat, not_lt]
    exact few
  unfold readNumber
  rw [takeWhole_append (isWhole_ofNat n) ends.isAsciiDigit_eq_false]
  simp only [ends.takeFraction, ends.takeExponent, Text.digitsValue_ofNat]
  exact if_neg length

/-- Digits before a point make an atom, with a minus sign or without. -/
theorem IsWhole.exists_cons {w : Text} (hw : IsWhole w) :
    ∃ c r, w = c :: r ∧ c.isAsciiDigit = true := by
  obtain ⟨c, r, rfl⟩ := List.exists_cons_of_ne_nil hw.nonempty
  exact ⟨c, r, rfl, hw.digits c (by simp)⟩

/-- Digits are no control characters. -/
theorem all_isPrinted_of_digits (digits : ∀ c ∈ ds, c.isAsciiDigit = true) :
    ds.all isPrinted = true := by
  refine List.all_eq_true.mpr fun c hc => ?_
  have digit := digits c hc
  simp only [CodePoint.isAsciiDigit, Bool.and_eq_true, decide_eq_true_eq] at digit
  simp only [isPrinted, CodePoint.isSurrogate, Bool.or_eq_true, Bool.and_eq_true,
    Bool.not_eq_true', Bool.and_eq_false_iff, decide_eq_true_eq, decide_eq_false_iff_not]
  omega

theorem IsFraction.all_isPrinted {f : Text} (hf : IsFraction f) : f.all isPrinted = true := by
  rcases hf with rfl | ⟨ds, rfl, -, digits⟩
  · rfl
  · rw [List.all_cons, all_isPrinted_of_digits digits]
    rfl

theorem IsExponent.all_isPrinted {e : Text} (he : IsExponent e) : e.all isPrinted = true := by
  rcases he with rfl | ⟨sign, ds, rfl, rfl | rfl, -, digits⟩
  · rfl
  all_goals
    rw [List.all_cons, List.all_cons, all_isPrinted_of_digits digits]
    rfl

/-- What is read after a sign and digits is legible. -/
theorem legible_of_readNumber {negative : Bool} {w : Text} (tail : Text) {v : Json}
    (hw : IsWhole w) (printed : tail.all isPrinted = true)
    (reads : ∀ rest, Ends rest →
      readNumber dialect negative (w ++ (tail ++ rest)) = .ok (v, rest)) :
    Legible dialect ((if negative then ("-" : Text) else []) ++ (w ++ tail)) v := by
  have digits := all_isPrinted_of_digits hw.digits
  obtain ⟨c, r, rfl, digit⟩ := hw.exists_cons
  cases negative with
  | false =>
      refine ⟨⟨c, r ++ tail, rfl, by simp [isAtomStart, digit]⟩, ?_, fun rest ends => ?_⟩
      · simpa [printed] using digits
      have reads := reads rest ends
      rw [List.cons_append] at reads
      simpa [readAtom_digit digit] using reads
  | true =>
      refine ⟨⟨'-', c :: (r ++ tail), rfl, by decide⟩, ?_, fun rest ends => ?_⟩
      · have sign : (("-" : Text)).all isPrinted = true := by decide
        rw [if_pos rfl, List.all_append, List.all_append, sign, digits, printed]
        rfl
      have reads := reads rest ends
      rw [List.cons_append] at reads
      have sign : (("-" : Text)) = ['-'] := rfl
      simpa [sign, readAtom_minus digit] using reads

/-- **Integers that a reader takes are read back.** -/
theorem legible_ofInt {i : Int} (few : dialect.Takes i) :
    Legible dialect (Text.ofInt i) (.int i) := by
  cases i with
  | ofNat n =>
      have reads := legible_of_readNumber [] (isWhole_ofNat n) rfl fun rest ends =>
        readNumber_ofNat false few ends
      simpa [Text.ofInt] using reads
  | negSucc n =>
      rw [Dialect.Takes, decide_eq_true (Int.negSucc_lt_zero n)] at few
      have reads := legible_of_readNumber [] (isWhole_ofNat (n + 1)) rfl fun rest ends =>
        readNumber_ofNat true few ends
      have sign : (("-" : Text)) = ['-'] := rfl
      simpa [Text.ofInt, sign, Int.negSucc_eq] using reads

/-! ### Floating-Point Numbers -/

/-- Digits without a zero in front stand before a point. -/
theorem isWhole_of_head? {w : Text} (nonempty : w ≠ []) (digits : ∀ c ∈ w, c.isAsciiDigit = true)
    (first : w.head? ≠ some ('0' : CodePoint)) : IsWhole w :=
  ⟨nonempty, digits, fun zero => absurd zero first⟩

/-- The digits of a positive number without the zeros at its end begin with the digit that the
number begins with, and have its value with the zeros. -/
theorem exists_withoutTrailingZeros {k : Nat} (hk : k ≠ 0) :
    ∃ digits zeros, withoutTrailingZeros (Nat.toDigits 10 k) = (digits, zeros) ∧
      (digits.map CodePoint.ofChar) ≠ [] ∧
      (∀ c ∈ digits.map CodePoint.ofChar, c.isAsciiDigit = true) ∧
      (digits.map CodePoint.ofChar).head? ≠ some ('0' : CodePoint) ∧
      k = digitsValue (digits.map CodePoint.ofChar) * 10 ^ zeros := by
  have first := Text.head?_toDigits hk
  obtain ⟨cut, whole⟩ := List.dropWhile_suffix (l := (Nat.toDigits 10 k).reverse) (· == '0')
  have same : cut = (Nat.toDigits 10 k).reverse.takeWhile (· == '0') :=
    List.append_cancel_right (whole.trans List.takeWhile_append_dropWhile.symm)
  have zero : cut.reverse = List.replicate cut.length '0' := by
    refine List.eq_replicate_iff.mpr ⟨List.length_reverse, fun c hc => ?_⟩
    rw [List.mem_reverse, same] at hc
    simpa using List.mem_takeWhile_imp hc
  have split : Nat.toDigits 10 k =
      ((Nat.toDigits 10 k).reverse.dropWhile (· == '0')).reverse ++ List.replicate cut.length '0' := by
    rw [← zero, ← List.reverse_append, whole, List.reverse_reverse]
  have nonempty : ((Nat.toDigits 10 k).reverse.dropWhile (· == '0')).reverse ≠ [] := by
    intro nil
    rw [List.reverse_eq_nil_iff, List.dropWhile_eq_nil_iff] at nil
    obtain ⟨c, r, digits⟩ := List.exists_cons_of_ne_nil (Nat.toDigits_ne_nil (b := 10) (n := k))
    have zero := nil c (by simp [digits])
    simp only [digits, List.head?_cons] at first
    exact first (congrArg some (eq_of_beq zero))
  have value := Text.digitsValue_ofNat k
  unfold Text.ofNat at value
  refine ⟨_, _, rfl, ?_⟩
  generalize ((Nat.toDigits 10 k).reverse.dropWhile (· == '0')).reverse = kept at split nonempty ⊢
  obtain ⟨d, r, rfl⟩ := List.exists_cons_of_ne_nil nonempty
  refine ⟨by simp, fun c hc => ?_, fun zero => first ?_, ?_⟩
  · obtain ⟨d', hd, rfl⟩ := List.mem_map.mp hc
    have mem : d' ∈ Nat.toDigits 10 k := split ▸ List.mem_append_left _ hd
    exact Text.isAsciiDigit_ofChar (Nat.isDigit_of_mem_toDigits (by decide) (by decide) mem)
  · rw [split, List.cons_append, List.head?_cons]
    exact congrArg some (Text.ofChar_injective (Option.some.inj zero))
  · have length : (Nat.toDigits 10 k).length - (d :: r).length = cut.length := by
      rw [split, List.length_append, List.length_replicate, Nat.add_sub_cancel_left]
    rw [length, ← value, split, List.map_append, digitsValue_append, List.map_replicate,
      digitsValue_zeros, List.length_replicate]
    rfl

theorem isFraction_point {ds : Text} (nonempty : ds ≠ [])
    (digits : ∀ c ∈ ds, c.isAsciiDigit = true) : IsFraction (("." : Text) ++ ds) :=
  Or.inr ⟨ds, rfl, nonempty, digits⟩

theorem isFraction_pointZero : IsFraction ".0" :=
  Or.inr ⟨[('0' : CodePoint)], rfl, by simp, by simp; rfl⟩

theorem isAsciiDigit_of_mem_zeros {n : Nat} :
    ∀ c ∈ List.replicate n ('0' : CodePoint), c.isAsciiDigit = true := by
  intro c hc
  rw [List.eq_of_mem_replicate hc]
  rfl

/-- Appended digits are digits. -/
theorem isAsciiDigit_of_mem_append {ds ds' : Text} (h : ∀ c ∈ ds, c.isAsciiDigit = true)
    (h' : ∀ c ∈ ds', c.isAsciiDigit = true) : ∀ c ∈ ds ++ ds', c.isAsciiDigit = true := by
  intro c hc
  rcases List.mem_append.mp hc with hc | hc
  · exact h c hc
  · exact h' c hc

/-- An exponent is written with its letter, a sign and digits. -/
theorem exists_exponent (top : Int) (n : Nat) :
    ∃ e : Text, ("e" : Text) ++ ((if top < 0 then "-" else "+" : String) : Text)
      ++ List.replicate n ('0' : CodePoint) ++ Text.ofNat top.natAbs = e ∧
        IsExponent e ∧ e ≠ [] ∧ exponentValue e = top := by
  have digits := isAsciiDigit_of_mem_append (isAsciiDigit_of_mem_zeros (n := n))
    fun c => Text.isAsciiDigit_of_mem_ofNat (n := top.natAbs)
  have nonempty : List.replicate n ('0' : CodePoint) ++ Text.ofNat top.natAbs ≠ [] :=
    List.append_ne_nil_of_right_ne_nil _ Text.ofNat_ne_nil
  have value : digitsValue (List.replicate n ('0' : CodePoint) ++ Text.ofNat top.natAbs) =
      top.natAbs := by
    rw [digitsValue_append, digitsValue_zeros, Nat.zero_mul, Nat.zero_add, Text.digitsValue_ofNat]
  refine ⟨_, rfl, ?_⟩
  rw [List.append_assoc]
  split
  · next negative =>
    refine ⟨Or.inr ⟨'-', _, rfl, Or.inr rfl, nonempty, digits⟩, by simp [Text.ofString], ?_⟩
    refine (exponentValue_letter (Or.inr rfl) nonempty digits).trans ?_
    rw [if_pos rfl, value]
    omega
  · next positive =>
    refine ⟨Or.inr ⟨'+', _, rfl, Or.inl rfl, nonempty, digits⟩, by simp [Text.ofString], ?_⟩
    refine (exponentValue_letter (Or.inl rfl) nonempty digits).trans ?_
    rw [if_neg (by decide), value]
    omega

/-! #### What the Parts Amount To -/

/-- The rational that a number with a fraction and an exponent stands for. -/
def partsValue (w f e : Text) : ℚ := digitsValue (w ++ f.tail) * 10 ^ partsPower f e

section

variable {d : CodePoint} {r : Text} {power : Int}

/-- A whole number is written with the zeros at its end and a point. -/
theorem partsValue_whole (n : Nat) :
    partsValue (ds ++ List.replicate n ('0' : CodePoint)) ".0" [] =
      digitsValue ds * 10 ^ (n : Int) := by
  have one : partsPower ".0" [] = -1 := rfl
  have tail : (".0" : Text).tail = List.replicate 1 ('0' : CodePoint) := rfl
  rw [partsValue, one, tail, List.append_assoc, List.replicate_append_replicate, digitsValue_append,
    digitsValue_zeros, List.length_replicate, Nat.add_zero, zpow_natCast, zpow_neg_one]
  push_cast
  rw [pow_succ]
  field_simp

/-- Digits behind a point lower the power by their number. -/
theorem partsValue_fraction (w ds : Text) :
    partsValue w ("." ++ ds) [] = digitsValue (w ++ ds) * 10 ^ (-(ds.length : Int)) := by
  have tail : ("." ++ ds : Text).tail = ds := rfl
  have none : exponentValue [] = 0 := rfl
  rw [partsValue, partsPower, tail, none, zero_sub]

/-- Digits behind a point before an exponent. -/
theorem partsValue_exponent (w ds e : Text) :
    partsValue w ("." ++ ds) e =
      digitsValue (w ++ ds) * 10 ^ (exponentValue e - ds.length) :=
  rfl

end

/-- The digits behind a point, or what stands before an exponent if there are none. -/
def behindPoint (pointed : Bool) : Text → Text
  | [] => if pointed then ".0" else []
  | rest => "." ++ rest

/-- **A text is written in the parts of a number**, which amount to a rational. The whole part is
not too long. -/
def IsWritten (t : Text) (longest : Int) (amount : ℚ) : Prop :=
  ∃ w f e : Text, t = w ++ (f ++ e) ∧ IsFloat w f e ∧ (w.length : Int) ≤ longest ∧
    partsValue w f e = amount

section

variable {d : CodePoint} {r : Text} {longest power : Int}
  (only : ∀ c ∈ d :: r, c.isAsciiDigit = true) (first : d ≠ ('0' : CodePoint))

include only first

/-- A whole number has the zeros at its end before the point. -/
theorem isWritten_whole (nonneg : 0 ≤ power) (short : power + (d :: r).length ≤ longest) :
    IsWritten (d :: r ++ List.replicate power.toNat ('0' : CodePoint) ++ ".0") longest
      (digitsValue (d :: r) * 10 ^ power) := by
  have whole : IsWhole (d :: r ++ List.replicate power.toNat ('0' : CodePoint)) :=
    isWhole_of_head? (by simp) (isAsciiDigit_of_mem_append only isAsciiDigit_of_mem_zeros)
      (by simpa using first)
  refine ⟨_, ".0", [], (congrArg _ (List.append_nil _)).symm,
    ⟨whole, isFraction_pointZero, Or.inl rfl, Or.inl (by simp [Text.ofString])⟩, ?_, ?_⟩
  · rw [List.length_append, List.length_replicate]
    omega
  · rw [partsValue_whole, Int.toNat_of_nonneg nonneg]

/-- The point stands among the digits. -/
theorem isWritten_among {n : Nat} (inside : n < r.length) (short : n + 1 ≤ longest)
    (behind : power = n - r.length) :
    IsWritten ((d :: r).take (n + 1) ++ "." ++ (d :: r).drop (n + 1)) longest
      (digitsValue (d :: r) * 10 ^ power) := by
  have whole : IsWhole (d :: r.take n) :=
    isWhole_of_head? (by simp)
      (fun c hc => only c (List.cons_subset_cons d (List.take_subset n r) hc)) (by simpa using first)
  have fraction : IsFraction ("." ++ r.drop n : Text) :=
    isFraction_point (by simpa using inside) fun c hc =>
      only c (List.mem_cons_of_mem d (List.mem_of_mem_drop hc))
  refine ⟨d :: r.take n, "." ++ r.drop n, [], ?_,
    ⟨whole, fraction, Or.inl rfl, Or.inl (by simp [Text.ofString])⟩, ?_, ?_⟩
  · rw [List.take_succ_cons, List.drop_succ_cons, List.append_nil, List.append_assoc]
  · rw [List.length_cons, List.length_take]
    omega
  · rw [partsValue_fraction, List.cons_append, List.take_append_drop, List.length_drop, behind]
    congr 2
    omega

omit first in
/-- Zeros stand between the point and the digits. -/
theorem isWritten_behind {n : Nat} (some : 1 ≤ longest) (behind : power = -(n + (d :: r).length)) :
    IsWritten ("0." ++ List.replicate n ('0' : CodePoint) ++ d :: r) longest
      (digitsValue (d :: r) * 10 ^ power) := by
  refine ⟨"0", "." ++ (List.replicate n ('0' : CodePoint) ++ d :: r), [], ?_, ⟨isWhole_ofNat 0,
    isFraction_point (by simp) (isAsciiDigit_of_mem_append isAsciiDigit_of_mem_zeros only),
    Or.inl rfl, Or.inl (by simp [Text.ofString])⟩, some, ?_⟩
  · rw [List.append_nil]
    rfl
  · have zero : ("0" : Text) = List.replicate 1 ('0' : CodePoint) := rfl
    rw [partsValue_fraction, zero, ← List.append_assoc, List.replicate_append_replicate,
      digitsValue_append, digitsValue_zeros, Nat.zero_mul, Nat.zero_add, List.length_append,
      List.length_replicate, behind]
    push_cast
    rfl

/-- One digit stands before the point, and an exponent behind the other digits. -/
theorem isWritten_exponent {e : Text} (pointed : Bool) (exponent : IsExponent e) (there : e ≠ [])
    (some : 1 ≤ longest) (top : exponentValue e = power + (d :: r).length - 1) :
    IsWritten (d :: (behindPoint pointed r ++ e)) longest (digitsValue (d :: r) * 10 ^ power) := by
  have whole : IsWhole [d] :=
    isWhole_of_head? (by simp) (fun c hc => only c (List.mem_singleton.mp hc ▸ by simp))
      (by simpa using first)
  cases r with
  | nil =>
      have single : exponentValue e = power := by
        rw [top, List.length_singleton]
        omega
      cases pointed with
      | true =>
          refine ⟨[d], "." ++ [('0' : CodePoint)], e, rfl,
            ⟨whole, isFraction_pointZero, exponent, Or.inr there⟩, some, ?_⟩
          have zero : digitsValue ([d] ++ [('0' : CodePoint)]) = 10 * digitsValue [d] := by
            rw [digitsValue_append]
            exact Nat.mul_comm _ _
          rw [partsValue_exponent, zero, single, List.length_singleton, zpow_sub₀ (by norm_num)]
          push_cast
          field_simp
      | false =>
          refine ⟨[d], [], e, rfl, ⟨whole, Or.inl rfl, exponent, Or.inr there⟩, some, ?_⟩
          rw [partsValue, partsPower, single]
          simp
  | cons c r =>
      have fraction : IsFraction ("." ++ c :: r : Text) :=
        isFraction_point (by simp) fun c hc => only c (List.mem_cons_of_mem d hc)
      refine ⟨[d], "." ++ c :: r, e, rfl, ⟨whole, fraction, exponent, Or.inr there⟩, some, ?_⟩
      rw [partsValue_exponent, top, List.singleton_append]
      congr 2
      simp only [List.length_cons]
      push_cast
      omega

end

/-- **The text of a positive decimal amounts to the decimal.** It has a fraction or an exponent, and a
whole part no longer than the layout has it. -/
theorem isWritten_positive (layout : FloatLayout) {k : Nat} (hk : k ≠ 0) (power : Int) :
    IsWritten (layout.positive k power) (max 1 (layout.greatestPositional + 1)) (k * 10 ^ power) := by
  obtain ⟨digits, zeros, cut, nonempty, only, first, value⟩ := exists_withoutTrailingZeros hk
  have lengthChars : (digits.map CodePoint.ofChar).length = digits.length := List.length_map _
  unfold FloatLayout.positive
  rw [cut]
  dsimp only
  rw [← lengthChars]
  generalize digits.map CodePoint.ofChar = chars at nonempty only first value
  -- The zeros at the end of the digits are moved into the power.
  have amount : (k * 10 ^ power : ℚ) = digitsValue chars * 10 ^ (power + zeros) := by
    rw [value, zpow_add₀ (by norm_num), zpow_natCast]
    push_cast
    ring
  rw [amount]
  generalize power + (zeros : Int) = power
  obtain ⟨d, r, rfl⟩ := List.exists_cons_of_ne_nil nonempty
  have first : d ≠ ('0' : CodePoint) := fun zero => first (congrArg some zero)
  split
  · next positional =>
    split
    · next nonneg => exact isWritten_whole only first nonneg (by omega)
    split
    · next fractional inside =>
      obtain ⟨n, hn⟩ : ∃ n : Nat, (power + (d :: r).length - 1 + 1).toNat = n + 1 :=
        ⟨_, (Nat.succ_pred_eq_of_pos (by omega)).symm⟩
      rw [hn]
      simp only [List.length_cons] at hn positional fractional
      exact isWritten_among only first (by omega) (by omega) (by omega)
    · next fractional outside => exact isWritten_behind only (le_max_left _ _) (by omega)
  · obtain ⟨e, written, exponent, there, top⟩ := exists_exponent (power + (d :: r).length - 1)
      (layout.exponentDigits - (Text.ofNat (power + (d :: r).length - 1).natAbs).length)
    simp only [List.append_assoc] at written ⊢
    rw [written]
    exact isWritten_exponent only first layout.pointBeforeExponent exponent there (le_max_left _ _) top

/-! #### Numbers Read Back -/

/-- **What a floating-point number is read as**: as itself, unless it is written as null. -/
def Layout.readAs (layout : Layout) : Binary64 → Json
  | .finite negative m e => .float (.finite negative m e)
  | x => if layout.onlyFinite then .null else .float x

/-- A layout does not write whole parts that a reader refuses. -/
def Layout.IsShort (layout : Layout) (dialect : Dialect) : Prop :=
  max 1 (layout.float.greatestPositional + 1) + 1 ≤ dialect.rules.maxLength

instance (layout : Layout) (dialect : Dialect) : Decidable (layout.IsShort dialect) :=
  inferInstanceAs (Decidable (_ ≤ _))

/-- A sign and the parts of a number are read as the nearest number to what they amount to. -/
theorem IsFloat.legible {w f e : Text} (h : IsFloat w f e) (negative : Bool)
    (short : w.length + 1 ≤ dialect.rules.maxLength) :
    Legible dialect ((if negative then ("-" : Text) else []) ++ (w ++ (f ++ e)))
      (.float (.ofDecimal negative (digitsValue (w ++ f.tail)) (partsPower f e))) := by
  have printed : (f ++ e).all isPrinted = true := by
    rw [List.all_append, h.fraction.all_isPrinted, h.exponent.all_isPrinted]
    rfl
  have counted := (dialect.counted_le negative false w.length).trans short
  refine legible_of_readNumber (f ++ e) h.whole printed fun rest ends => ?_
  rw [List.append_assoc]
  exact readNumber_float h counted ends

/-- **Finite numbers of the format are read back.** -/
theorem legible_finite {layout : Layout} (short : layout.IsShort dialect) {negative : Bool} {m : Nat}
    {e : Int} (canonical : (Binary64.finite negative m e).IsCanonical) (a b c : Text) :
    Legible dialect ((Binary64.finite negative m e).layOut layout.float a b c)
      (.float (.finite negative m e)) := by
  unfold Layout.IsShort at short
  unfold Binary64.layOut
  by_cases zero : m = 0
  · subst zero
    -- Zero has the least exponent, as no other one allows a mantissa of fewer bits.
    obtain rfl : e = Binary64.minExponent := by
      obtain ⟨-, least, -, full⟩ := canonical
      rcases eq_or_lt_of_le least with same | beyond
      · exact same.symm
      · exact absurd (full beyond) (by decide)
    have float : IsFloat "0" ".0" [] :=
      ⟨isWhole_ofNat 0, isFraction_pointZero, Or.inl rfl, Or.inl (by simp [Text.ofString])⟩
    have legible := float.legible negative (show 1 + 1 ≤ dialect.rules.maxLength by omega)
    have value : Binary64.ofDecimal negative (digitsValue ("0" ++ (".0" : Text).tail))
        (partsPower ".0" []) = .finite negative 0 Binary64.minExponent := rfl
    have text : ("0.0" : Text) = ("0" : Text) ++ ((".0" : Text) ++ []) := rfl
    rw [value, ← text] at legible
    simpa using legible
  · have pos := Nat.pos_of_ne_zero zero
    have digits := (Binary64.shortest_pos (e := e) pos canonical.1).ne'
    have rounds := Binary64.roundsTo_shortest (e := e) pos canonical.1
    obtain ⟨w, f, e', text, float, length, amount⟩ :=
      isWritten_positive layout.float digits (Binary64.shortest m e).2
    rw [← amount] at rounds
    have legible := float.legible negative (show w.length + 1 ≤ dialect.rules.maxLength by omega)
    rw [Binary64.ofDecimal_of_roundsTo canonical pos rounds] at legible
    simpa [zero, text] using legible

/-- **Floating-point numbers of the format are read back**, where the layout has texts for them. -/
theorem legible_number {layout : Layout} (short : layout.IsShort dialect) {x : Binary64}
    (canonical : x.IsCanonical) : Legible dialect (layout.number x) (layout.readAs x) := by
  unfold Layout.number Layout.readAs
  cases x with
  | finite negative m e =>
      dsimp only
      split <;> exact legible_finite short canonical _ _ _
  | infinite negative =>
      dsimp only
      split
      · cases negative <;> exact legible_null
      · cases negative
        · exact legible_infinity
        · exact legible_minusInfinity
  | nan =>
      dsimp only
      split
      · exact legible_null
      · exact legible_nan

end Json

end RouteDocs
