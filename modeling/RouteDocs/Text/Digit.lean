import RouteDocs.Text.Blank

/-!
# Decimal Digits

The decimal digits of every script, and the reading of an integer written with them.

## Main Definitions

* `CodePoint.digitValue?`: the value of a decimal digit of any script
* `Text.readDigits?`: digits in which single underscores may separate groups
* `Text.readInt?`: an integer with an optional sign and blanks around it
* `Text.readIntIn?`: the same in another base
-/

namespace RouteDocs

/-- The zeros of the decimal number systems of Unicode 14; the other nine digits follow each. -/
def digitZeros : List Nat := [
  0x30, 0x660, 0x6f0, 0x7c0, 0x966, 0x9e6, 0xa66, 0xae6, 0xb66, 0xbe6, 0xc66, 0xce6, 0xd66, 0xde6,
  0xe50, 0xed0, 0xf20, 0x1040, 0x1090, 0x17e0, 0x1810, 0x1946, 0x19d0, 0x1a80, 0x1a90, 0x1b50,
  0x1bb0, 0x1c40, 0x1c50, 0xa620, 0xa8d0, 0xa900, 0xa9d0, 0xa9f0, 0xaa50, 0xabf0, 0xff10, 0x104a0,
  0x10d30, 0x11066, 0x110f0, 0x11136, 0x111d0, 0x112f0, 0x11450, 0x114d0, 0x11650, 0x116c0,
  0x11730, 0x118e0, 0x11950, 0x11c50, 0x11d50, 0x11da0, 0x16a60, 0x16ac0, 0x16b50, 0x1d7ce,
  0x1d7d8, 0x1d7e2, 0x1d7ec, 0x1d7f6, 0x1e140, 0x1e2f0, 0x1e950, 0x1fbf0]

namespace CodePoint

/-- The value of a decimal digit of any script. -/
def digitValue? (c : CodePoint) : Option Nat :=
  if c.val < 0x80 then if c.isAsciiDigit then some (c.val - 0x30) else none
  else (digitZeros.find? fun z => z ≤ c.val && c.val ≤ z + 9).map (c.val - ·)

/-- The decimal digits of every script. -/
def isDigit (c : CodePoint) : Bool :=
  c.digitValue?.isSome

end CodePoint

namespace Text

/-- Continues a number after a digit; one underscore may stand between two digits. -/
def readDigitsFrom (value : Nat) : Text → Option Nat
  | [] => some value
  | c :: r =>
    if c == '_' then
      match r with
      | d :: s => d.digitValue?.bind fun v => readDigitsFrom (10 * value + v) s
      | [] => none
    else c.digitValue?.bind fun v => readDigitsFrom (10 * value + v) r

/-- The number written by digits, between which single underscores may stand. -/
def readDigits? : Text → Option Nat
  | [] => none
  | c :: r => c.digitValue?.bind fun v => readDigitsFrom v r

/-- The integer written with an optional sign, with blanks around it disregarded. -/
def readInt? (t : Text) : Option Int :=
  match t.stripNumber with
  | [] => none
  | c :: r =>
    if c == '-' then (readDigits? r).map fun n => -(n : Int)
    else if c == '+' then (readDigits? r).map Int.ofNat
    else (readDigits? (c :: r)).map Int.ofNat

/-- The value of a digit of any script or a letter of ASCII, of which `a` follows nine. -/
def placeValue? (c : CodePoint) : Option Nat :=
  if 0x61 ≤ c.val ∧ c.val ≤ 0x7A then some (c.val - 0x57)
  else if 0x41 ≤ c.val ∧ c.val ≤ 0x5A then some (c.val - 0x37)
  else c.digitValue?

/-- Continues a number in a base after a digit. -/
def readPlacesFrom (base value : Nat) : Text → Option Nat
  | [] => some value
  | c :: r => (placeValue? c).bind fun v =>
    if v < base then readPlacesFrom base (base * value + v) r else none

/-- The number in a base that is written without underscores, after an optional mark of the
base. -/
def readPlaces? (base : Nat) (t : Text) : Option Nat :=
  let digits : Text := match t with
    | zero :: c :: r =>
      let isMark := (base == 2 && (c == 'b' || c == 'B')) || (base == 8 && (c == 'o' || c == 'O'))
        || (base == 16 && (c == 'x' || c == 'X'))
      if zero == '0' && isMark then r else t
    | _ => t
  if digits.isEmpty then none else readPlacesFrom base 0 digits

/-- The integer in a base with an optional sign, with blanks around it disregarded. -/
def readIntIn? (base : Nat) (t : Text) : Option Int :=
  match t.stripNumber with
  | [] => none
  | c :: r =>
    if c == '-' then (readPlaces? base r).map fun n => -(n : Int)
    else if c == '+' then (readPlaces? base r).map Int.ofNat
    else (readPlaces? base (c :: r)).map Int.ofNat

end Text

end RouteDocs
