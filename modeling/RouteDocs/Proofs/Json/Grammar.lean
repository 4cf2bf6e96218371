import RouteDocs.Proofs.Json.Floats
import RouteDocs.Proofs.Json.RoundTrip

/-!
# The Grammar of JSON

The texts that are JSON, as the standard derives them, and the values whose texts are derived.

## Main Definitions

* `Json.IsQuotable`: what may stand between quotation marks
* `Json.IsNumeral`: numbers
* `Json.IsValue`, `Json.IsItem`, `Json.IsMember`: values, alone, with blanks around them and behind
  keys
* `Json.IsText`: the texts that are JSON

## Main Statements

* `Json.isNumeral_ofInt`, `Json.isNumeral_layOut`: printed numbers are numbers of the grammar
* `Json.isValue_printAt`: **values with finite numbers are printed as the grammar says**

## Design Notes

The reader of this library reads some texts that are no JSON, so the grammar is stated without it.
Blanks belong to the items of lists and objects, where the standard has them belong to brackets,
commas and colons.
-/

namespace RouteDocs

namespace Json

variable {t r : Text} {c : CodePoint}

/-! ### The Grammar -/

/-- Spaces, tabs and the ends of lines. -/
def IsWhite (t : Text) : Prop := ∀ c ∈ t, isSpace c = true

/-- What may stand between quotation marks. -/
inductive IsQuotable : Text → Prop
  /-- Nothing. -/
  | nil : IsQuotable []
  /-- Anything that is no control character, no quotation mark and no backslash. -/
  | plain {c : CodePoint} {r : Text} (visible : 0x20 ≤ c.val) (mark : c ≠ doubleQuote)
      (slash : c ≠ backslash) (rest : IsQuotable r) : IsQuotable (c :: r)
  /-- An escape of one letter or mark. -/
  | short {c : CodePoint} {r : Text} (known : c ∈ ("\"\\/bfnrt" : Text)) (rest : IsQuotable r) :
      IsQuotable (backslash :: c :: r)
  /-- An escape of four hexadecimal digits. -/
  | unit {ds r : Text} (four : ds.length = 4) (digits : ∀ c ∈ ds, c.hexValue?.isSome = true)
      (rest : IsQuotable r) : IsQuotable (backslash :: 'u' :: (ds ++ r))

/-- The letter of an exponent, perhaps a sign, and digits; or nothing. -/
def IsScale (t : Text) : Prop :=
  t = [] ∨ ∃ (letter : CodePoint) (sign ds : Text), t = letter :: (sign ++ ds) ∧
    (letter = 'e' ∨ letter = 'E') ∧ (sign = [] ∨ sign = "+" ∨ sign = "-") ∧ ds ≠ [] ∧
    ∀ c ∈ ds, c.isAsciiDigit = true

/-- Perhaps a minus sign, digits, perhaps a fraction and perhaps an exponent. -/
def IsNumeral (t : Text) : Prop :=
  ∃ sign w f e : Text, t = sign ++ (w ++ (f ++ e)) ∧ (sign = [] ∨ sign = "-") ∧
    IsWhole w ∧ IsFraction f ∧ IsScale e

/-- A text between quotation marks. -/
def quotation (t : Text) : Text := doubleQuote :: (t ++ [doubleQuote])

mutual

/-- The values. -/
inductive IsValue : Text → Prop
  /-- The words. -/
  | word {t : Text} (known : t ∈ (["false", "null", "true"] : List Text)) : IsValue t
  /-- A number. -/
  | number {t : Text} (numeral : IsNumeral t) : IsValue t
  /-- A text. -/
  | str {t : Text} (quotable : IsQuotable t) : IsValue (quotation t)
  /-- A list or an object of nothing. -/
  | empty {opening closing : CodePoint} {blank : Text}
      (brackets : (opening, closing) ∈ [(('[' : CodePoint), (']' : CodePoint)), ('\x7b', '\x7d')])
      (white : IsWhite blank) : IsValue (opening :: (blank ++ [closing]))
  /-- A list of items. -/
  | arr {ts : List Text} (nonempty : ts ≠ []) (items : ∀ t ∈ ts, IsItem t) :
      IsValue (('[' : CodePoint) :: (Text.join "," ts ++ [(']' : CodePoint)]))
  /-- An object of members. -/
  | obj {ts : List Text} (nonempty : ts ≠ []) (members : ∀ t ∈ ts, IsMember t) :
      IsValue (('\x7b' : CodePoint) :: (Text.join "," ts ++ [('\x7d' : CodePoint)]))

/-- Values with blanks around them. -/
inductive IsItem : Text → Prop
  /-- A value between blanks. -/
  | mk {before t after : Text} (left : IsWhite before) (value : IsValue t) (right : IsWhite after) :
      IsItem (before ++ (t ++ after))

/-- Values behind keys. -/
inductive IsMember : Text → Prop
  /-- A key between blanks, a colon and a value between blanks. -/
  | mk {before key after item : Text} (left : IsWhite before) (quotable : IsQuotable key)
      (right : IsWhite after) (value : IsItem item) :
      IsMember (before ++ (quotation key ++ (after ++ (':' : CodePoint) :: item)))

end

/-- **The texts that are JSON.** -/
def IsText (t : Text) : Prop := IsItem t

/-! ### Quotations -/

theorem IsQuotable.unitEscape {n : Nat} (small : n < 0x10000) (rest : IsQuotable r) :
    IsQuotable (Json.unitEscape n ++ r) := by
  have four : (Text.ofHex 4 n).length = 4 := by
    rw [Text.ofHex_four small]
    rfl
  refine .unit four (fun c hc => ?_) rest
  rw [Text.ofHex_four small] at hc
  simp only [List.mem_cons, List.not_mem_nil, or_false] at hc
  rcases hc with rfl | rfl | rfl | rfl <;> rw [Text.hexValue?_hexDigit (by omega)] <;> rfl

/-- The escape of a code point may stand in a quotation. -/
theorem IsQuotable.escape {asciiOnly : Bool} (rest : IsQuotable r) :
    IsQuotable (Json.escape asciiOnly c ++ r) := by
  unfold Json.escape
  split_ifs with marks line ret tab bell feed control ascii
  · have marks : c = doubleQuote ∨ c = backslash := by simpa using marks
    rcases marks with rfl | rfl <;> exact .short (by decide) rest
  · exact .short (by decide) rest
  · exact .short (by decide) rest
  · exact .short (by decide) rest
  · exact .short (by decide) rest
  · exact .short (by decide) rest
  · exact rest.unitEscape (by omega)
  · by_cases plane : c.val < 0x10000
    · rw [numberEscape, if_pos plane]
      exact rest.unitEscape plane
    · rw [numberEscape_eq plane, List.append_assoc]
      exact (rest.unitEscape lowUnit_lt).unitEscape highUnit_lt
  · simp only [Bool.or_eq_true, beq_iff_eq, not_or] at marks
    exact .plain (Nat.le_of_not_lt control) marks.1 marks.2 rest

theorem isQuotable_flatMap_escape (asciiOnly : Bool) (t : Text) :
    IsQuotable (t.flatMap (escape asciiOnly)) := by
  induction t with
  | nil => exact .nil
  | cons c r ih =>
      rw [List.flatMap_cons]
      exact ih.escape

/-! ### Numbers -/

theorem IsExponent.isScale (h : IsExponent t) : IsScale t := by
  rcases h with rfl | ⟨sign, ds, rfl, signed, nonempty, digits⟩
  · exact Or.inl rfl
  · refine Or.inr ⟨'e', [sign], ds, rfl, Or.inl rfl, ?_, nonempty, digits⟩
    rcases signed with rfl | rfl
    · exact Or.inr (Or.inl rfl)
    · exact Or.inr (Or.inr rfl)

theorem isNumeral_ofInt (i : Int) : IsNumeral (Text.ofInt i) := by
  cases i with
  | ofNat n =>
      exact ⟨[], Text.ofNat n, [], [], by simp [Text.ofInt], Or.inl rfl, isWhole_ofNat n,
        Or.inl rfl, Or.inl rfl⟩
  | negSucc n =>
      exact ⟨"-", Text.ofNat (n + 1), [], [], by simp [Text.ofInt, Text.ofString], Or.inr rfl,
        isWhole_ofNat _, Or.inl rfl, Or.inl rfl⟩

/-- **Finite numbers are printed as the grammar says.** -/
theorem isNumeral_layOut (layout : FloatLayout) (infinity minusInfinity notANumber : Text)
    {negative : Bool} {m : Nat} {e : Int} (canonical : (Binary64.finite negative m e).IsCanonical) :
    IsNumeral
      ((Binary64.finite negative m e).layOut layout infinity minusInfinity notANumber) := by
  have sign : (if negative then ("-" : Text) else []) = [] ∨
      (if negative then ("-" : Text) else []) = "-" := by
    cases negative
    · exact Or.inl rfl
    · exact Or.inr rfl
  rw [Binary64.layOut]
  by_cases zero : m = 0
  · rw [if_pos (beq_iff_eq.mpr zero)]
    exact ⟨_, "0", ".0", [], rfl, sign, isWhole_ofNat 0, isFraction_pointZero, Or.inl rfl⟩
  · rw [if_neg (by simpa using zero)]
    have digits := (Binary64.shortest_pos (e := e) (Nat.pos_of_ne_zero zero) canonical.1).ne'
    obtain ⟨w, f, e', text, ⟨hw, hf, he, -⟩, -⟩ :=
      isWritten_positive layout digits (Binary64.shortest m e).2
    exact ⟨_, w, f, e', congrArg _ text, sign, hw, hf, he.isScale⟩

end Json

/-- The numbers that are finite. -/
def Binary64.IsFinite : Binary64 → Prop
  | finite .. => True
  | _ => False

instance : DecidablePred Binary64.IsFinite
  | .finite .. => isTrue trivial
  | .infinite _ => isFalse id
  | .nan => isFalse id

/-- Finite numbers are read as themselves. -/
theorem Binary64.IsFinite.readAs_eq_self {x : Binary64} (h : x.IsFinite) (layout : Json.Layout) :
    layout.readAs x = .float x := by
  cases x with
  | finite => rfl
  | infinite | nan => cases h

namespace Json

variable {layout : Layout} {x : Binary64} {v : Json}

theorem isValue_null : IsValue "null" :=
  .word (by decide)

theorem isValue_bool (b : Bool) : IsValue (if b then "true" else "false") := by
  cases b <;> exact .word (by decide)

/-- The layouts that write null for what is not finite write every number as the grammar says, and
the others all finite numbers. -/
theorem isValue_number (canonical : x.IsCanonical)
    (finite : layout.onlyFinite = true ∨ x.IsFinite) : IsValue (layout.number x) := by
  unfold Layout.number
  cases x with
  | finite negative m e =>
      split
      · exact .number (isNumeral_layOut _ _ _ _ canonical)
      · exact .number (isNumeral_layOut _ _ _ _ canonical)
  | infinite negative =>
      rw [if_pos (finite.resolve_right id)]
      cases negative
      · exact isValue_null
      · exact isValue_null
  | nan =>
      rw [if_pos (finite.resolve_right id)]
      exact isValue_null

/-! ### Lists and Objects -/

theorem IsBlank.isWhite {s : Text} (h : IsBlank s) : IsWhite s := h.isSpace

theorem isWhite_nil : IsWhite [] := by simp [IsWhite]

/-- Blanks before, between and after joined parts belong to the parts. -/
theorem exists_join_eq {P Q : Text → Prop} {blank after : Text} {ts : List Text}
    (pad : ∀ before t after, IsWhite before → P t → IsWhite after → Q (before ++ (t ++ after)))
    (between : IsWhite blank) (right : IsWhite after) (nonempty : ts ≠ []) (parts : ∀ t ∈ ts, P t)
    {before : Text} (left : IsWhite before) :
    ∃ us, before ++ (Text.join ((',' : CodePoint) :: blank) ts ++ after) = Text.join "," us ∧
      us ≠ [] ∧ ∀ u ∈ us, Q u := by
  induction ts generalizing before with
  | nil => exact absurd rfl nonempty
  | cons t more ih =>
      obtain ⟨first, rest⟩ := List.forall_mem_cons.mp parts
      cases more with
      | nil =>
          refine ⟨[before ++ (t ++ after)], rfl, List.cons_ne_nil _ _, ?_⟩
          exact List.forall_mem_singleton.mpr (pad _ _ _ left first right)
      | cons u more =>
          obtain ⟨us, eq, some, each⟩ := ih (List.cons_ne_nil u more) rest between
          obtain ⟨w, us, rfl⟩ := List.exists_cons_of_ne_nil some
          refine ⟨(before ++ (t ++ [])) :: w :: us, ?_, List.cons_ne_nil _ _,
            List.forall_mem_cons.mpr ⟨pad _ _ _ left first isWhite_nil, each⟩⟩
          rw [Text.join_cons_cons, Text.join_cons_cons, ← eq]
          simp [Text.ofString]

/-- Items in the brackets of a list are printed as the grammar says. -/
theorem isValue_bracket_arr (h : layout.Separates) {level : Nat} {ts : List Text}
    (items : ∀ t ∈ ts, IsValue t) : IsValue (layout.bracket (level + 1) '[' ']' ts) := by
  obtain ⟨s, separator, hs⟩ := h.item
  by_cases nonempty : ts = []
  · rw [nonempty]
    exact @IsValue.empty '[' ']' [] (by decide) isWhite_nil
  · have between := (hs.append (isBlank_newLine layout (level + 1))).isWhite
    obtain ⟨us, eq, some, each⟩ := exists_join_eq (fun _ _ _ => IsItem.mk) between
      (isBlank_newLine layout level).isWhite nonempty items
      (isBlank_newLine layout (level + 1)).isWhite
    have text : layout.bracket (level + 1) '[' ']' (ts.map id) = _ := bracket_eq id nonempty level
    rw [List.map_id, separator, ← List.append_assoc _ _ [_], ← List.append_assoc, List.cons_append,
      eq] at text
    rw [text]
    exact .arr some each

/-- Members without blanks around them. -/
def IsBareMember (t : Text) : Prop :=
  ∃ key blank value, t = quotation key ++ (':' : CodePoint) :: (blank ++ value) ∧
    IsQuotable key ∧ IsWhite blank ∧ IsValue value

/-- Members in the brackets of an object are printed as the grammar says. -/
theorem isValue_bracket_obj (h : layout.Separates) {level : Nat} {ts : List Text}
    (members : ∀ t ∈ ts, IsBareMember t) :
    IsValue (layout.bracket (level + 1) '\x7b' '\x7d' ts) := by
  obtain ⟨s, separator, hs⟩ := h.item
  by_cases nonempty : ts = []
  · rw [nonempty]
    exact @IsValue.empty '\x7b' '\x7d' [] (by decide) isWhite_nil
  · have between := (hs.append (isBlank_newLine layout (level + 1))).isWhite
    have pad : ∀ before t after, IsWhite before → IsBareMember t → IsWhite after →
        IsMember (before ++ (t ++ after)) := by
      rintro before _ after left ⟨key, blank, item, rfl, quotable, white, value⟩ right
      have member := IsMember.mk left quotable isWhite_nil (.mk white value right)
      simpa using member
    obtain ⟨us, eq, some, each⟩ := exists_join_eq pad between
      (isBlank_newLine layout level).isWhite nonempty members
      (isBlank_newLine layout (level + 1)).isWhite
    have text : layout.bracket (level + 1) '\x7b' '\x7d' (ts.map id) = _ :=
      bracket_eq id nonempty level
    rw [List.map_id, separator, ← List.append_assoc _ _ [_], ← List.append_assoc, List.cons_append,
      eq] at text
    rw [text]
    exact .obj some each

/-- **Values are printed as the grammar says** if their numbers are finite, or the layout writes
null for those that are not. -/
theorem isValue_printAt (h : layout.Separates)
    (floats : v.FloatsIn fun x => x.IsCanonical ∧ (layout.onlyFinite = true ∨ x.IsFinite))
    (level : Nat) : IsValue (printAt layout level v) := by
  induction floats generalizing level with
  | null => exact isValue_null
  | bool b => exact isValue_bool b
  | int i => exact .number (isNumeral_ofInt i)
  | float float => exact isValue_number float.1 float.2
  | str t => exact .str (isQuotable_flatMap_escape _ t)
  | arr _ ih =>
      rw [printAt, printItems_eq]
      refine isValue_bracket_arr h (List.forall_mem_map.mpr fun v hv => ?_)
      exact ih v hv (level + 1)
  | obj _ ih =>
      rw [printAt, printMembers_eq]
      obtain ⟨s, colon, white⟩ := h.key
      refine isValue_bracket_obj h (List.forall_mem_map.mpr fun p hp => ?_)
      refine ⟨_, s, _, ?_, isQuotable_flatMap_escape layout.asciiOnly p.1, white.isWhite,
        ih p hp (level + 1)⟩
      rw [colon]
      simp [quote, quotation]

end Json

end RouteDocs
