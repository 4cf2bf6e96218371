import Mathlib.Tactic.SplitIfs
import RouteDocs.Json.Printer
import RouteDocs.Proofs.Text.Digit

/-!
# Quoted Texts

A text without surrogates is read back from its quotation, whatever is escaped. Where surrogates are
escaped, so is one that has them, unless two of them form a pair.

## Main Definitions

* `Json.units`: the units of 16 bits or code points that the escape of a code point is read as
* `Json.isPrinted`: the code points that occur in printed values
* `Json.ComesBack`: the texts that a reader gives back from their quotation

## Main Statements

* `Json.readUnits_escape`: one escape is read as its units
* `Json.joinPairs_flatMap_units`: to join the units of a text is to join the text
* `Json.readQuoted_quote`: quoted texts are read back
* `Json.visible_of_mem_escape`: escapes consist of visible ASCII and of what is not escaped
* `Json.quote_all_isPrinted`: a quotation of a scalar text holds no control characters, and neither
  does one in which surrogates are escaped

## Design Notes

Escapes and the joining of pairs are treated one after the other, as the reader does: a code point
beyond the first plane may be written as two escapes and is whole only after the joining.
-/

namespace RouteDocs

namespace Json

variable {asciiOnly : Bool} {c : CodePoint} {t : Text}

/-- The first unit of a code point beyond the first plane. -/
def highUnit (c : CodePoint) : Nat := 0xD800 + (c.val - 0x10000) / 0x400

/-- The second unit of a code point beyond the first plane. -/
def lowUnit (c : CodePoint) : Nat := 0xDC00 + (c.val - 0x10000) % 0x400

/-- The code points that the escape of a code point is read as, before pairs are joined. -/
def units (asciiOnly : Bool) (c : CodePoint) : Text :=
  if asciiOnly ∧ 0x10000 ≤ c.val then
    [CodePoint.ofNat (highUnit c), CodePoint.ofNat (lowUnit c)]
  else [c]

theorem highUnit_lt : highUnit c < 0x10000 := by
  have bound := c.isLt
  unfold highUnit
  omega

theorem lowUnit_lt : lowUnit c < 0x10000 := by
  unfold lowUnit
  omega

theorem val_ofNat {n : Nat} (h : n < 0x110000) : (CodePoint.ofNat n).val = n := by
  simp [CodePoint.ofNat, h]

/-! ### Escapes -/

theorem numberEscape_eq (beyond : ¬c.val < 0x10000) :
    numberEscape c = unitEscape (highUnit c) ++ unitEscape (lowUnit c) := by
  unfold numberEscape highUnit lowUnit
  rw [if_neg beyond]

/-- The continuation of the units after an escape. -/
theorem readUnits_unitEscape {n : Nat} (h : n < 0x10000) (opening : Text) {rest : Text}
    (more : rest ≠ []) :
    readUnits opening (unitEscape n ++ rest) =
      (readUnits opening rest).map fun (u, after) => (CodePoint.ofNat n :: u, after) := by
  obtain ⟨w, x, y, z, digits, value⟩ := Text.hex4?_ofHex h
  have mark : (backslash.val == 0x22) = false := rfl
  have mark' : (backslash.val == 0x5C) = true := rfl
  have again : rest.isEmpty = false := by simpa using more
  rw [unitEscape, digits]
  simp only [List.cons_append, List.nil_append, readUnits, mark, mark', value, again, if_true]
  rfl

/-- A short escape stands for its code point. -/
theorem readUnits_short {e x : CodePoint} (known : shortEscape? e = some x) (opening rest : Text) :
    readUnits opening (backslash :: e :: rest) =
      (readUnits opening rest).map fun (u, after) => (x :: u, after) := by
  have number : (e == 'u') = false := by
    rw [beq_eq_false_iff_ne]
    rintro rfl
    cases known
  have mark : (backslash.val == 0x22) = false := rfl
  have mark' : (backslash.val == 0x5C) = true := rfl
  rw [readUnits.eq_def]
  simp only [mark, mark', number, known, if_true]
  rfl

/-- **One escape is read as its units.** -/
theorem readUnits_escape (asciiOnly : Bool) (c : CodePoint) (opening : Text) {rest : Text}
    (more : rest ≠ []) :
    readUnits opening (escape asciiOnly c ++ rest) =
      (readUnits opening rest).map fun (u, after) => (units asciiOnly c ++ u, after) := by
  have bound := c.isLt
  have one : c.val < 0x10000 → units asciiOnly c = [c] := fun h =>
    if_neg (by omega)
  have self : CodePoint.ofNat c.val = c := by simp [CodePoint.ofNat, c.isLt]
  have short : ∀ {e : CodePoint}, shortEscape? e = some c → c.val < 0x10000 →
      readUnits opening (backslash :: e :: rest) =
        (readUnits opening rest).map fun (u, after) => (units asciiOnly c ++ u, after) :=
    fun known plane => by rw [one plane]; exact readUnits_short known opening rest
  unfold escape
  split_ifs with marks line ret tab bell feed control ascii
  -- marks and control characters with escapes of their own
  · have marks : c = doubleQuote ∨ c = backslash := by simpa using marks
    rcases marks with rfl | rfl <;> exact short rfl (by decide)
  · obtain rfl := eq_of_beq line
    exact short rfl (by decide)
  · obtain rfl := eq_of_beq ret
    exact short rfl (by decide)
  · obtain rfl := eq_of_beq tab
    exact short rfl (by decide)
  · obtain rfl : c = '\x08' := Fin.ext (eq_of_beq bell)
    exact short rfl (by decide)
  · obtain rfl : c = '\x0c' := Fin.ext (eq_of_beq feed)
    exact short rfl (by decide)
  -- other control characters
  · rw [readUnits_unitEscape (by omega) opening more, self, one (by omega)]
    rfl
  -- beyond ASCII: one unit, or the two of a pair
  · simp only [Bool.and_eq_true, decide_eq_true_eq] at ascii
    by_cases plane : c.val < 0x10000
    · rw [numberEscape, if_pos plane, readUnits_unitEscape plane opening more, self, one plane]
      rfl
    · have more' : unitEscape (lowUnit c) ++ rest ≠ [] :=
        List.append_ne_nil_of_right_ne_nil _ more
      have pair : units asciiOnly c =
          [CodePoint.ofNat (highUnit c), CodePoint.ofNat (lowUnit c)] :=
        if_pos ⟨ascii.1, by omega⟩
      rw [numberEscape_eq plane, List.append_assoc, readUnits_unitEscape highUnit_lt opening more',
        readUnits_unitEscape lowUnit_lt opening more, pair]
      cases readUnits opening rest <;> rfl
  -- what stands for itself
  · have notMark : (c.val == 0x22) = false ∧ (c.val == 0x5C) = false := by
      simp only [Bool.or_eq_true, beq_iff_eq, not_or, Fin.ext_iff] at marks
      exact ⟨beq_eq_false_iff_ne.mpr marks.1, beq_eq_false_iff_ne.mpr marks.2⟩
    have plain : units asciiOnly c = [c] := by
      refine if_neg fun wide => ascii ?_
      simp only [wide.1, Bool.true_and, decide_eq_true_eq]
      omega
    rw [plain, List.cons_append, List.nil_append, readUnits.eq_def]
    simp only [notMark, control, if_false]
    rfl

/-- The text of a quotation is read as units. -/
theorem readUnits_flatMap (asciiOnly : Bool) (t opening rest : Text) :
    readUnits opening (t.flatMap (escape asciiOnly) ++ doubleQuote :: rest) =
      .ok (t.flatMap (units asciiOnly), rest) := by
  induction t with
  | nil =>
      rw [List.flatMap_nil, List.nil_append, readUnits.eq_def]
      rfl
  | cons c r ih =>
      rw [List.flatMap_cons, List.append_assoc, readUnits_escape _ _ _ (by simp), ih]
      rfl

/-! ### Pairs -/

/-- The two units of a code point beyond the first plane are joined to it. -/
theorem joinPairs_pair (beyond : 0x10000 ≤ c.val) (r : Text) :
    joinPairs none (CodePoint.ofNat (highUnit c) :: CodePoint.ofNat (lowUnit c) :: r) =
      c :: joinPairs none r := by
  have bound := c.isLt
  have high : (CodePoint.ofNat (highUnit c)).val = highUnit c :=
    val_ofNat (Nat.lt_trans highUnit_lt (by decide))
  have low : (CodePoint.ofNat (lowUnit c)).val = lowUnit c :=
    val_ofNat (Nat.lt_trans lowUnit_lt (by decide))
  have first : isHighSurrogate (CodePoint.ofNat (highUnit c)) = true := by
    simp only [isHighSurrogate, high, Bool.and_eq_true, decide_eq_true_eq]
    unfold highUnit
    omega
  have second : isLowSurrogate (CodePoint.ofNat (lowUnit c)) = true := by
    simp only [isLowSurrogate, low, Bool.and_eq_true, decide_eq_true_eq]
    unfold lowUnit
    omega
  have joined :
      joinSurrogates (CodePoint.ofNat (highUnit c)) (CodePoint.ofNat (lowUnit c)) = c := by
    have value : 0x10000 + (highUnit c - 0xD800) * 0x400 + (lowUnit c - 0xDC00) = c.val := by
      unfold highUnit lowUnit
      omega
    rw [joinSurrogates, high, low, value]
    simp [CodePoint.ofNat, bound]
  simp only [joinPairs, first, second, joined, if_true]

/-- A code point beyond the first plane is no surrogate, so that it passes the joining. -/
theorem joinPairs_wide (beyond : 0x10000 ≤ c.val) (pending : Option CodePoint) (r : Text) :
    joinPairs pending (c :: r) = pending.toList ++ c :: joinPairs none r := by
  have high : isHighSurrogate c = false := by
    simp only [isHighSurrogate, Bool.and_eq_false_iff, decide_eq_false_iff_not]
    omega
  have low : isLowSurrogate c = false := by
    simp only [isLowSurrogate, Bool.and_eq_false_iff, decide_eq_false_iff_not]
    omega
  cases pending <;> simp [joinPairs, high, low]

/-- A first unit that waits before another first unit stays alone. -/
theorem joinPairs_high (first : isHighSurrogate c = true) (pending : Option CodePoint) (r : Text) :
    joinPairs pending (c :: r) = pending.toList ++ joinPairs none (c :: r) := by
  have low : isLowSurrogate c = false := by
    simp only [isHighSurrogate, isLowSurrogate, Bool.and_eq_true, Bool.and_eq_false_iff,
      decide_eq_true_eq, decide_eq_false_iff_not] at first ⊢
    omega
  cases pending <;> simp [joinPairs, first, low]

/-- **To join the units of a text is to join the text.** -/
theorem joinPairs_flatMap_units (pending : Option CodePoint) (t : Text) :
    joinPairs pending (t.flatMap (units asciiOnly)) = joinPairs pending t := by
  induction t generalizing pending with
  | nil => rfl
  | cons c r ih =>
      rw [List.flatMap_cons]
      by_cases wide : asciiOnly = true ∧ 0x10000 ≤ c.val
      · have high : isHighSurrogate (CodePoint.ofNat (highUnit c)) = true := by
          have value : (CodePoint.ofNat (highUnit c)).val = highUnit c :=
            val_ofNat (Nat.lt_trans highUnit_lt (by decide))
          have bound := c.isLt
          simp only [isHighSurrogate, value, Bool.and_eq_true, decide_eq_true_eq]
          unfold highUnit
          omega
        rw [show units asciiOnly c = _ from if_pos wide, List.cons_append, List.cons_append,
          List.nil_append, joinPairs_high high, joinPairs_pair wide.2, ih, joinPairs_wide wide.2]
      · rw [show units asciiOnly c = _ from if_neg wide, List.cons_append, List.nil_append]
        cases pending <;> simp only [joinPairs, ih]

/-- A scalar text has no pairs. -/
theorem joinPairs_of_scalar (scalar : t.isScalar = true) : joinPairs none t = t := by
  induction t with
  | nil => rfl
  | cons c r ih =>
      simp only [Text.isScalar, List.all_cons, Bool.and_eq_true, Bool.not_eq_true'] at scalar
      have lone : isHighSurrogate c = false := by
        have alone := scalar.1
        simp only [CodePoint.isSurrogate, isHighSurrogate, Bool.and_eq_false_iff,
          decide_eq_false_iff_not] at alone ⊢
        omega
      simp only [joinPairs, lone]
      exact congrArg (c :: ·) (ih scalar.2)

/-- The texts that a reader gives back from their quotation: scalar ones and, where surrogates are
escaped and may be read alone, those without pairs. -/
def ComesBack (asciiOnly : Bool) (dialect : Dialect) (t : Text) : Prop :=
  t.isScalar = true ∨ asciiOnly = true ∧ dialect.rules.loneSurrogates = true ∧ joinPairs none t = t

/-- **A text is read back from its quotation**, and what follows is left. -/
theorem readQuoted_quote {dialect : Dialect} (back : ComesBack asciiOnly dialect t)
    (opening rest : Text) :
    readQuoted dialect opening (t.flatMap (escape asciiOnly) ++ doubleQuote :: rest) =
      .ok (t, rest) := by
  have joined : joinPairs none t = t := back.elim joinPairs_of_scalar fun h => h.2.2
  have taken : (dialect.rules.loneSurrogates || t.isScalar) = true :=
    Bool.or_eq_true_iff.mpr (back.symm.imp_left fun h => h.2.1)
  rw [readQuoted, readUnits_flatMap]
  simp [joinPairs_flatMap_units, joined, taken]

/-! ### Printed Code Points -/

/-- The code points of printed values: line feeds and what is neither a control character nor a
surrogate. -/
def isPrinted (c : CodePoint) : Bool :=
  c == '\n' || (0x20 ≤ c.val && !c.isSurrogate)

theorem visible_hexDigit {n : Nat} (h : n < 16) :
    0x20 ≤ (Text.hexDigit n).val ∧ (Text.hexDigit n).val ≤ 0x7E := by
  interval_cases n <;> decide

/-- The escape of a unit consists of visible ASCII. -/
theorem visible_of_mem_unitEscape {n : Nat} (h : n < 0x10000) {x : CodePoint}
    (hx : x ∈ unitEscape n) : 0x20 ≤ x.val ∧ x.val ≤ 0x7E := by
  rw [unitEscape, Text.ofHex_four h] at hx
  simp only [List.mem_cons, List.not_mem_nil, or_false] at hx
  rcases hx with rfl | rfl | rfl | rfl | rfl | rfl
  · decide
  · decide
  iterate 4 exact visible_hexDigit (by omega)

/-- **An escape consists of visible ASCII**, or of the code point itself, which then is no control
character. -/
theorem visible_of_mem_escape {x : CodePoint} (hx : x ∈ escape asciiOnly c) :
    0x20 ≤ x.val ∧ (x.val ≤ 0x7E ∨ asciiOnly = false ∧ x = c) := by
  suffices visible : (0x20 ≤ x.val ∧ x.val ≤ 0x7E) ∨
      0x20 ≤ x.val ∧ asciiOnly = false ∧ x = c by
    exact visible.elim (fun h => ⟨h.1, .inl h.2⟩) fun h => ⟨h.1, .inr h.2⟩
  have two {a b : CodePoint} (ha : 0x20 ≤ a.val ∧ a.val ≤ 0x7E) (hb : 0x20 ≤ b.val ∧ b.val ≤ 0x7E)
      (mem : x ∈ [a, b]) : 0x20 ≤ x.val ∧ x.val ≤ 0x7E := by
    rcases List.mem_cons.mp mem with rfl | mem
    · exact ha
    · rwa [List.mem_singleton.mp mem]
  unfold escape at hx
  split_ifs at hx with marks line ret tab bell feed control ascii
  · have marks : c = doubleQuote ∨ c = backslash := by simpa using marks
    refine .inl (two (by decide) ?_ hx)
    rcases marks with rfl | rfl <;> decide
  iterate 5 exact .inl (two (by decide) (by decide) hx)
  · exact .inl (visible_of_mem_unitEscape (by omega) hx)
  · refine .inl ?_
    by_cases plane : c.val < 0x10000
    · rw [numberEscape, if_pos plane] at hx
      exact visible_of_mem_unitEscape plane hx
    · rw [numberEscape_eq plane] at hx
      rcases List.mem_append.mp hx with hx | hx
      · exact visible_of_mem_unitEscape highUnit_lt hx
      · exact visible_of_mem_unitEscape lowUnit_lt hx
  · obtain rfl := List.mem_singleton.mp hx
    cases asciiOnly with
    | false => exact .inr ⟨Nat.le_of_not_lt control, rfl, rfl⟩
    | true =>
        have small : ¬0x7F ≤ x.val := by simpa using ascii
        exact .inl ⟨Nat.le_of_not_lt control, by omega⟩

/-- The escape of a code point has no control characters and surrogates, if surrogates are escaped
or the code point is none. -/
theorem escape_all_isPrinted {asciiOnly : Bool} (h : asciiOnly = true ∨ c.isSurrogate = false) :
    (escape asciiOnly c).all isPrinted = true := by
  refine List.all_eq_true.mpr fun x hx => ?_
  obtain ⟨low, high⟩ := visible_of_mem_escape hx
  have scalar : x.isSurrogate = false := by
    rcases high with high | ⟨plain, rfl⟩
    · have below : ¬0xD800 ≤ x.val := by omega
      simp [CodePoint.isSurrogate, below]
    · exact h.resolve_left (by simp [plain])
  simp [isPrinted, scalar, low]

/-- A quotation is one line. -/
theorem lineFeed_notMem_quote (asciiOnly : Bool) (t : Text) :
    ('\n' : CodePoint) ∉ quote asciiOnly t := by
  intro mem
  rcases List.mem_append.mp mem with mem | mem
  · rcases List.mem_cons.mp mem with mark | mem
    · exact absurd mark (by decide)
    · obtain ⟨c, -, mem⟩ := List.mem_flatMap.mp mem
      exact absurd (visible_of_mem_escape mem).1 (by decide)
  · exact absurd (List.mem_singleton.mp mem) (by decide)

/-- A quotation has no control characters and surrogates, if surrogates are escaped or the text is
scalar. -/
theorem quote_all_isPrinted {asciiOnly : Bool} (h : asciiOnly = true ∨ t.isScalar = true) :
    (quote asciiOnly t).all isPrinted = true := by
  have mark : isPrinted doubleQuote = true := rfl
  have inner : (t.flatMap (escape asciiOnly)).all isPrinted = true := by
    rw [List.all_flatMap, List.all_eq_true]
    intro c hc
    refine escape_all_isPrinted (h.imp_right fun scalar => ?_)
    simpa using List.all_eq_true.mp scalar c hc
  rw [quote, List.cons_append, List.all_cons, List.all_append, inner, mark]
  rfl

/-- Texts that come back have surrogates only where these are escaped. -/
theorem ComesBack.printed {dialect : Dialect} (back : ComesBack asciiOnly dialect t) :
    asciiOnly = true ∨ t.isScalar = true :=
  back.symm.imp_left fun h => h.1

/-- What is printed is scalar and has no carriage returns. -/
theorem scalar_and_lines_of_isPrinted (printed : t.all isPrinted = true) :
    t.isScalar = true ∧ ∀ c ∈ t, c ≠ '\r' := by
  have each : ∀ c ∈ t, isPrinted c = true := List.all_eq_true.mp printed
  constructor
  · refine List.all_eq_true.mpr fun c hc => ?_
    rcases Bool.or_eq_true_iff.mp (each c hc) with line | visible
    · rw [eq_of_beq line]
      rfl
    · exact (Bool.and_eq_true_iff.mp visible).2
  · rintro _ hc rfl
    exact absurd (each _ hc) (by decide)

end Json

end RouteDocs
