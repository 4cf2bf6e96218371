import RouteDocs.Json.Value
import RouteDocs.Text.Utf8

/-!
# Writing JSON

The texts of JSON values in several layouts.

## Main Definitions

* `Json.Layout`: the decisions that tell one layout from another
* `Json.Layout.compact`, `Json.Layout.indented`: non-ASCII text kept, as in documentation files
* `Json.Layout.asciiIndented`, `Json.Layout.asciiInline`: ASCII output
* `Json.print`: the text of a value in a layout

## Design Notes

The layouts that keep non-ASCII text write null for what JSON has no number for; the ASCII
layouts write `NaN` and `Infinity`.
-/

namespace RouteDocs

namespace Json

/-- How JSON is laid out. -/
structure Layout where
  /-- The number of spaces of one level, or everything on one line. -/
  indent : Option Nat
  /-- What stands between two items on one line. -/
  itemSeparator : Text
  /-- What stands between a key and its value. -/
  keySeparator : Text
  /-- Whether all but printable ASCII is escaped. -/
  asciiOnly : Bool
  /-- How finite floating-point numbers are written. -/
  float : FloatLayout
  /-- Whether infinities and not-a-number are written as null. -/
  onlyFinite : Bool

namespace Layout

/-- One line without spaces, text kept; floating-point numbers positional from `1e-5` to below
`1e16`, exponents without padding. -/
def compact : Layout := ⟨none, ",", ":", false, ⟨-5, 15, 1, false⟩, true⟩

/-- Two spaces a level, text kept. -/
def indented : Layout := { compact with indent := some 2, keySeparator := ": " }

/-- One line with a space after each separator, ASCII only; floating-point numbers positional
from `1e-4` to below `1e16`, exponents of two digits at least. -/
def asciiInline : Layout := ⟨none, ", ", ": ", true, ⟨-4, 15, 2, false⟩, false⟩

/-- Two spaces a level, ASCII only. -/
def asciiIndented : Layout := { asciiInline with indent := some 2, itemSeparator := "," }

end Layout

/-- A backslash. -/
def backslash : CodePoint := '\\'

/-- A double quotation mark. -/
def doubleQuote : CodePoint := '"'

/-- The escape of one unit of 16 bits. -/
def unitEscape (n : Nat) : Text :=
  backslash :: 'u' :: Text.ofHex 4 n

/-- The escape of a code point by its number, as two units beyond the first plane. -/
def numberEscape (c : CodePoint) : Text :=
  if c.val < 0x10000 then unitEscape c.val
  else unitEscape (0xD800 + (c.val - 0x10000) / 0x400)
    ++ unitEscape (0xDC00 + (c.val - 0x10000) % 0x400)

/-- A code point within a quoted text. -/
def escape (asciiOnly : Bool) (c : CodePoint) : Text :=
  if c == doubleQuote || c == backslash then [backslash, c]
  else if c == '\n' then [backslash, 'n']
  else if c == '\r' then [backslash, 'r']
  else if c == '\t' then [backslash, 't']
  else if c.val == 8 then [backslash, 'b']
  else if c.val == 12 then [backslash, 'f']
  else if c.val < 0x20 then unitEscape c.val
  else if asciiOnly && 0x7F ≤ c.val then numberEscape c
  else [c]

/-- A text in quotation marks. -/
def quote (asciiOnly : Bool) (t : Text) : Text :=
  doubleQuote :: t.flatMap (escape asciiOnly) ++ [doubleQuote]

/-- The line break before an item at a level, if the layout has lines. -/
def Layout.newLine (layout : Layout) (level : Nat) : Text :=
  match layout.indent with
  | none => []
  | some width => '\n' :: List.replicate (width * level) ' '

/-- Brackets around printed items, at the level of the items. -/
def Layout.bracket (layout : Layout) (level : Nat) (opening closing : CodePoint) :
    List Text → Text
  | [] => [opening, closing]
  | items =>
    opening :: layout.newLine level
      ++ Text.join (layout.itemSeparator ++ layout.newLine level) items
      ++ layout.newLine (level - 1) ++ [closing]

/-- The text of a floating-point number. -/
def Layout.number (layout : Layout) (x : Binary64) : Text :=
  if layout.onlyFinite then x.layOut layout.float "null" "null" "null"
  else x.layOut layout.float "Infinity" "-Infinity" "NaN"

mutual

/-- The text of a value at a level. -/
def printAt (layout : Layout) (level : Nat) : Json → Text
  | null => "null"
  | bool b => if b then "true" else "false"
  | int i => Text.ofInt i
  | float x => layout.number x
  | str t => quote layout.asciiOnly t
  | arr items => layout.bracket (level + 1) '[' ']' (printItems layout (level + 1) items)
  | obj members => layout.bracket (level + 1) '\x7b' '\x7d' (printMembers layout (level + 1) members)

/-- The texts of the items of a list. -/
def printItems (layout : Layout) (level : Nat) : List Json → List Text
  | [] => []
  | v :: more => printAt layout level v :: printItems layout level more

/-- The texts of the members of an object. -/
def printMembers (layout : Layout) (level : Nat) : List (Text × Json) → List Text
  | [] => []
  | (k, v) :: more =>
    (quote layout.asciiOnly k ++ layout.keySeparator ++ printAt layout level v)
      :: printMembers layout level more

end

mutual

/-- The first run of surrogates in the texts of a value, keys included. -/
def firstSurrogates : Json → Option Utf8.EncodeError
  | str t => Utf8.firstSurrogates 0 t
  | arr items => firstSurrogatesOfItems items
  | obj members => firstSurrogatesOfMembers members
  | _ => none

/-- The first run of surrogates in the items of a list. -/
def firstSurrogatesOfItems : List Json → Option Utf8.EncodeError
  | [] => none
  | v :: more =>
    match firstSurrogates v with
    | some e => some e
    | none => firstSurrogatesOfItems more

/-- The first run of surrogates in the members of an object. -/
def firstSurrogatesOfMembers : List (Text × Json) → Option Utf8.EncodeError
  | [] => none
  | (k, v) :: more =>
    match Utf8.firstSurrogates 0 k with
    | some e => some e
    | none =>
      match firstSurrogates v with
      | some e => some e
      | none => firstSurrogatesOfMembers more

end

/-- The text of a value in a layout. -/
def print (layout : Layout) (v : Json) : Text :=
  printAt layout 0 v

end Json

end RouteDocs
