import RouteDocs.Proofs.Json.RoundTrip

/-!
# Printed Code Points

The text of a value has no control characters but line feeds, and no surrogates, if the texts of
the value have no surrogates or the layout escapes them. Nothing is asked of its numbers and its
nesting.

## Main Statements

* `Json.positive_all_isPrinted`: every decimal is written in digits, points and signs
* `Json.printAt_all_isPrinted`: **what has scalar texts, or is written in ASCII, has a scalar text**
* `Json.lineFeed_notMem_printAt`: a layout without lines writes one line

## Design Notes

A value that is read back is printed in this sense as well, but only values within the limits of a
reader are read back.
-/

namespace RouteDocs

namespace Json

variable {layout : Layout}

/-! ### Numbers -/

/-- Among digits, what is kept without the zeros at the end are digits. -/
theorem isAsciiDigit_of_mem_withoutTrailingZeros {k : Nat} :
    ∀ c ∈ (withoutTrailingZeros (Nat.toDigits 10 k)).1.map CodePoint.ofChar,
      c.isAsciiDigit = true := by
  intro c hc
  obtain ⟨d, hd, rfl⟩ := List.mem_map.mp hc
  have mem : d ∈ Nat.toDigits 10 k := by
    have kept := (List.dropWhile_suffix (· == '0')).subset (List.mem_reverse.mp hd)
    exact List.mem_reverse.mp kept
  exact Text.isAsciiDigit_ofChar (Nat.isDigit_of_mem_toDigits (by decide) (by decide) mem)

theorem replicate_all_isPrinted (n : Nat) :
    (List.replicate n ('0' : CodePoint)).all isPrinted = true :=
  all_isPrinted_of_digits isAsciiDigit_of_mem_zeros

/-- **Every decimal is written in digits, points and signs.** -/
theorem positive_all_isPrinted (layout : FloatLayout) (k : Nat) (power : Int) :
    (layout.positive k power).all isPrinted = true := by
  have digits := isAsciiDigit_of_mem_withoutTrailingZeros (k := k)
  unfold FloatLayout.positive
  revert digits
  cases withoutTrailingZeros (Nat.toDigits 10 k) with
  | mk kept zeros =>
      intro digits
      dsimp only at digits ⊢
      generalize kept.map CodePoint.ofChar = chars at digits
      generalize power + (zeros : Int) + kept.length - 1 = top
      have all := all_isPrinted_of_digits digits
      have first (n : Nat) : (chars.take n).all isPrinted = true :=
        all_isPrinted_of_digits fun c hc => digits c (List.mem_of_mem_take hc)
      have last (n : Nat) : (chars.drop n).all isPrinted = true :=
        all_isPrinted_of_digits fun c hc => digits c (List.mem_of_mem_drop hc)
      have exponent (n : Nat) : (Text.ofNat n).all isPrinted = true :=
        all_isPrinted_of_digits fun c => Text.isAsciiDigit_of_mem_ofNat
      have point : ("." : Text).all isPrinted = true := by decide
      have pointZero : (".0" : Text).all isPrinted = true := by decide
      have zeroPoint : ("0." : Text).all isPrinted = true := by decide
      have letter : ("e" : Text).all isPrinted = true := by decide
      have sign : ((if top < 0 then "-" else "+" : String) : Text).all isPrinted = true := by
        split <;> decide
      split
      · split
        · simp only [List.all_append, all, replicate_all_isPrinted, pointZero, Bool.and_self]
        split
        · simp only [List.all_append, first, last, point, Bool.and_self]
        · simp only [List.all_append, all, replicate_all_isPrinted, zeroPoint, Bool.and_self]
      · simp only [List.all_append, first, letter, sign, replicate_all_isPrinted, exponent,
          Bool.and_true, Bool.true_and]
        have rest := last 1
        generalize chars.drop 1 = fraction at rest ⊢
        cases fraction with
        | nil => cases layout.pointBeforeExponent <;> decide
        | cons c r =>
            show (("." : Text) ++ c :: r).all isPrinted = true
            rw [List.all_append, point, rest]
            rfl

theorem number_all_isPrinted (layout : Layout) (x : Binary64) :
    (layout.number x).all isPrinted = true := by
  have words : ∀ infinity minusInfinity notANumber : Text, infinity.all isPrinted = true →
      minusInfinity.all isPrinted = true → notANumber.all isPrinted = true →
      (x.layOut layout.float infinity minusInfinity notANumber).all isPrinted = true := by
    intro infinity minusInfinity notANumber hi hm hn
    cases x with
    | finite negative m e =>
        have sign : (if negative then ("-" : Text) else []).all isPrinted = true := by
          cases negative <;> decide
        rw [Binary64.layOut]
        split
        · rw [List.all_append, sign]
          decide
        · rw [List.all_append, sign, positive_all_isPrinted]
          rfl
    | infinite negative => cases negative <;> assumption
    | nan => exact hn
  rw [Layout.number]
  split
  · exact words _ _ _ (by decide) (by decide) (by decide)
  · exact words _ _ _ (by decide) (by decide) (by decide)

theorem ofInt_all_isPrinted (i : Int) : (Text.ofInt i).all isPrinted = true := by
  have digits (n : Nat) : (Text.ofNat n).all isPrinted = true :=
    all_isPrinted_of_digits fun c => Text.isAsciiDigit_of_mem_ofNat
  cases i with
  | ofNat n => exact digits n
  | negSucc n =>
      rw [Text.ofInt, List.all_cons, digits]
      decide

/-! ### Values -/

/-- A separated key has no control characters. -/
theorem keySeparator_all_isPrinted (h : layout.Separates) :
    layout.keySeparator.all isPrinted = true := by
  obtain ⟨s, separator, blank⟩ := h.key
  rw [separator, List.all_cons, blank.all_isPrinted]
  rfl

mutual

/-- **A value has a text without control characters and surrogates**, if surrogates are escaped or
its texts have none. -/
theorem printAt_all_isPrinted (h : layout.Separates) (level : Nat) :
    ∀ v, layout.asciiOnly = true ∨ firstSurrogates v = none →
      (printAt layout level v).all isPrinted = true
  | .null, _ => rfl
  | .bool true, _ => rfl
  | .bool false, _ => rfl
  | .int i, _ => ofInt_all_isPrinted i
  | .float x, _ => number_all_isPrinted layout x
  | .str _, escaped =>
    quote_all_isPrinted (escaped.imp_right Utf8.firstSurrogates_eq_none.mp)
  | .arr vs, escaped => by
    rw [printAt, printItems_eq]
    exact bracket_all_isPrinted h rfl rfl (items_all_isPrinted h (level + 1) vs escaped) level
  | .obj ms, escaped => by
    rw [printAt, printMembers_eq]
    exact bracket_all_isPrinted h rfl rfl (members_all_isPrinted h (level + 1) ms escaped) level

theorem items_all_isPrinted (h : layout.Separates) (level : Nat) :
    ∀ vs, layout.asciiOnly = true ∨ firstSurrogatesOfItems vs = none →
      ∀ v ∈ vs, (printAt layout level v).all isPrinted = true
  | [], _ => List.forall_mem_nil _
  | w :: more, escaped => by
    have split := escaped.imp_right fun scalar =>
      List.forall_mem_cons.mp (firstSurrogatesOfItems_eq_none.mp scalar)
    refine List.forall_mem_cons.mpr ⟨?_, ?_⟩
    · exact printAt_all_isPrinted h level w (split.imp_right And.left)
    · exact items_all_isPrinted h level more
        (split.imp_right fun both => firstSurrogatesOfItems_eq_none.mpr both.2)

theorem members_all_isPrinted (h : layout.Separates) (level : Nat) :
    ∀ ms, layout.asciiOnly = true ∨ firstSurrogatesOfMembers ms = none → ∀ p ∈ ms,
      (quote layout.asciiOnly p.1 ++ layout.keySeparator ++ printAt layout level p.2).all isPrinted
        = true
  | [], _ => List.forall_mem_nil _
  | (k, w) :: more, escaped => by
    have split := escaped.imp_right fun scalar =>
      List.forall_mem_cons.mp (firstSurrogatesOfMembers_eq_none.mp scalar)
    have key := quote_all_isPrinted (split.imp_right fun both => both.1.1)
    have value := printAt_all_isPrinted h level w (split.imp_right fun both => both.1.2)
    refine List.forall_mem_cons.mpr ⟨?_, members_all_isPrinted h level more
      (split.imp_right fun both => firstSurrogatesOfMembers_eq_none.mpr both.2)⟩
    rw [List.all_append, List.all_append, key, keySeparator_all_isPrinted h, value]
    rfl

end

/-! ### One Line -/

theorem lineFeed_notMem_ofInt (i : Int) : ('\n' : CodePoint) ∉ Text.ofInt i := by
  have digits (n : Nat) : ('\n' : CodePoint) ∉ Text.ofNat n := fun mem =>
    absurd (Text.isAsciiDigit_of_mem_ofNat mem) (by decide)
  cases i with
  | ofNat n => exact digits n
  | negSucc n =>
      intro mem
      rcases List.mem_cons.mp mem with sign | mem
      · exact absurd sign (by decide)
      · exact digits _ mem

/-- Brackets around items on one line. -/
theorem lineFeed_notMem_bracket (single : layout.indent = none)
    (separator : ('\n' : CodePoint) ∉ layout.itemSeparator) (level : Nat)
    {opening closing : CodePoint} (marks : opening ≠ '\n' ∧ closing ≠ '\n') {items : List Text}
    (line : ∀ w ∈ items, ('\n' : CodePoint) ∉ w) :
    ('\n' : CodePoint) ∉ layout.bracket level opening closing items := by
  have gap (n : Nat) : layout.newLine n = [] := by rw [Layout.newLine, single]
  cases items with
  | nil => simp [Layout.bracket, marks.1.symm, marks.2.symm]
  | cons w more =>
      have inside : ('\n' : CodePoint) ∉ Text.join layout.itemSeparator (w :: more) := by
        intro mem
        rcases Text.mem_of_mem_join mem with mem | ⟨w', hw, mem⟩
        · exact separator mem
        · exact line w' hw mem
      simp [Layout.bracket, gap, marks.1.symm, marks.2.symm, inside]

/-- **A layout without lines writes one line.** -/
theorem lineFeed_notMem_printAt {ints : Int → Prop} {texts : Text → Prop} {room : Nat} {v : Json}
    (single : layout.indent = none) (item : ('\n' : CodePoint) ∉ layout.itemSeparator)
    (key : ('\n' : CodePoint) ∉ layout.keySeparator) (fits : Fits ints texts (fun _ => False) room v)
    (level : Nat) : ('\n' : CodePoint) ∉ printAt layout level v := by
  induction fits generalizing level with
  | null => exact (by decide : ('\n' : CodePoint) ∉ ("null" : Text))
  | bool b =>
      have words : ∀ b : Bool,
          ('\n' : CodePoint) ∉ ((if b then "true" else "false" : String) : Text) := by decide
      cases b with
      | false => exact words false
      | true => exact words true
  | int _ => exact lineFeed_notMem_ofInt _
  | float none => exact none.elim
  | str _ => exact lineFeed_notMem_quote _ _
  | arr _ ih =>
      rw [printAt, printItems_eq]
      refine lineFeed_notMem_bracket single item _ ⟨by decide, by decide⟩ fun w hw => ?_
      obtain ⟨v, hv, rfl⟩ := List.mem_map.mp hw
      exact ih v hv _
  | obj _ _ _ ih =>
      rw [printAt, printMembers_eq]
      refine lineFeed_notMem_bracket single item _ ⟨by decide, by decide⟩ fun w hw => ?_
      obtain ⟨p, hp, rfl⟩ := List.mem_map.mp hw
      simp [lineFeed_notMem_quote, key, ih p hp _]

end Json

end RouteDocs
