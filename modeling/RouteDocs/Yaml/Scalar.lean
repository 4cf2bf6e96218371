import RouteDocs.Text.Pattern

/-!
# Plain Scalars

What a plain scalar of YAML 1.1 stands for when it has no tag.

## Main Definitions

* `Yaml.ScalarKind`: text, or one of the kinds that are recognised by their spelling
* `Yaml.scalarKind`: the kind of a plain scalar
* `Yaml.timestamp`: the parts of a point in time

## Design Notes

The truth values include `yes`, `no`, `on` and `off`; integers can be binary, octal with a
leading zero, hexadecimal and sexagesimal; a date is a timestamp.
-/

namespace RouteDocs

namespace Yaml

open Pattern

/-- The kinds of scalars. -/
inductive ScalarKind where
  | null | truth | integer | float | timestamp | merge | value | indicator | text
  deriving Repr, DecidableEq

/-- A decimal digit. -/
def digit : Pattern := one CodePoint.isAsciiDigit

/-- One or two decimal digits. -/
def oneOrTwoDigits : Pattern := digit ++ optional digit

/-- Decimal digits and underscores. -/
def isGroupedDigit (c : CodePoint) : Bool := c.isAsciiDigit || c == '_'

/-- An optional sign. -/
def optionalSign : Pattern :=
  optional (one fun c : CodePoint => c == '-' || c == '+')

/-- A decimal digit followed by digits and underscores. -/
def groupedDigits : Pattern := digit ++ run isGroupedDigit

/-- A nonzero decimal digit followed by digits and underscores. -/
def groupedDigitsNonzero : Pattern :=
  one (fun c : CodePoint => c.isAsciiDigit && c != '0') ++ run isGroupedDigit

/-- Sexagesimal places after colons. -/
def sexagesimalPlaces : Pattern :=
  let place := lit ":" ++ optional (one fun c => 0x30 ≤ c.val && c.val ≤ 0x35) ++ digit
  place ++ star place

/-- Binary integers. -/
def binaryInteger : Pattern :=
  optionalSign ++ lit "0b" ++ run1 fun c : CodePoint => c == '0' || c == '1' || c == '_'

/-- Octal integers. -/
def octalInteger : Pattern :=
  optionalSign ++ lit "0" ++ run1 fun c : CodePoint => (0x30 ≤ c.val && c.val ≤ 0x37) || c == '_'

/-- Decimal integers. -/
def decimalInteger : Pattern :=
  optionalSign ++ alt (lit "0") groupedDigitsNonzero

/-- Hexadecimal integers. -/
def hexInteger : Pattern :=
  optionalSign ++ lit "0x" ++ run1 fun c : CodePoint => c.hexValue?.isSome || c == '_'

/-- Sexagesimal integers. -/
def sexagesimalInteger : Pattern :=
  optionalSign ++ groupedDigitsNonzero ++ sexagesimalPlaces

/-- Integers. -/
def integer : Pattern :=
  oneOf [binaryInteger, octalInteger, decimalInteger, hexInteger, sexagesimalInteger]

/-- An optional exponent, whose sign is written. -/
def optionalExponent : Pattern :=
  optional (one (fun c : CodePoint => c == 'e' || c == 'E')
    ++ one (fun c : CodePoint => c == '-' || c == '+') ++ run1 CodePoint.isAsciiDigit)

/-- Infinities. -/
def infinity : Pattern :=
  optionalSign ++ lit "." ++ oneOf [lit "inf", lit "Inf", lit "INF"]

/-- Texts for not-a-number. -/
def notANumber : Pattern :=
  lit "." ++ oneOf [lit "nan", lit "NaN", lit "NAN"]

/-- Floating-point numbers. -/
def float : Pattern := oneOf [
  optionalSign ++ groupedDigits ++ lit "." ++ run isGroupedDigit ++ optionalExponent,
  lit "." ++ groupedDigits ++ optionalExponent,
  optionalSign ++ groupedDigits ++ sexagesimalPlaces ++ lit "." ++ run isGroupedDigit,
  infinity,
  notANumber]

/-- Four decimal digits. -/
def fourDigits : Pattern := digit ++ digit ++ digit ++ digit

/-- Spaces and tabs. -/
def isSpaceOrTab (c : CodePoint) : Bool := c == ' ' || c == '\t'

/-- The offset of a time zone: the sign, hours and minutes are remembered from eight to ten. -/
def zoneOffset : Pattern :=
  group 8 (one fun c : CodePoint => c == '-' || c == '+') ++ group 9 oneOrTwoDigits
    ++ optional (lit ":" ++ group 10 (digit ++ digit))

/-- The time of day: hour, minute, second and fraction are remembered from four to seven. -/
def timeOfDay : Pattern :=
  alt (one fun c : CodePoint => c == 'T' || c == 't') (run1 isSpaceOrTab)
    ++ group 4 oneOrTwoDigits ++ lit ":" ++ group 5 (digit ++ digit) ++ lit ":"
    ++ group 6 (digit ++ digit) ++ optional (lit "." ++ group 7 (run CodePoint.isAsciiDigit))
    ++ optional (run isSpaceOrTab ++ alt (lit "Z") zoneOffset)

/-- A point in time: year, month and day are remembered from one to three. -/
def timestamp : Pattern :=
  group 1 fourDigits ++ lit "-" ++ group 2 oneOrTwoDigits ++ lit "-" ++ group 3 oneOrTwoDigits
    ++ optional timeOfDay

/-- The spelling of timestamps that are recognised without a tag: a date alone has two digits
for month and day. -/
def isTimestamp (t : Text) : Bool :=
  match timestamp.matchAll? t with
  | none => false
  | some m => (m.group? 4).isSome || t.length == 10

/-- The words for true. -/
def trueWords : List Text :=
  ["yes", "Yes", "YES", "true", "True", "TRUE", "on", "On", "ON"]

/-- The words for false. -/
def falseWords : List Text :=
  ["no", "No", "NO", "false", "False", "FALSE", "off", "Off", "OFF"]

/-- The words for null. -/
def nullWords : List Text := ["", "~", "null", "Null", "NULL"]

/-- The kind of a plain scalar without a tag. -/
def scalarKind (t : Text) : ScalarKind :=
  if nullWords.contains t then .null
  else if trueWords.contains t || falseWords.contains t then .truth
  else if float.covers t then .float
  else if integer.covers t then .integer
  else if isTimestamp t then .timestamp
  else if t == "<<" then .merge
  else if t == "=" then .value
  else if t == "!" || t == "&" || t == "*" then .indicator
  else .text

end Yaml

end RouteDocs
