import RouteDocs.Text.Quoted

/-!
# Faults of YAML Texts

Why a text denotes no value.

## Main Definitions

* `Yaml.Fault`: the text is malformed, or one of its scalars denotes nothing
* `Yaml.ScalarFault.message`: the wording of a fault in a scalar

## Design Notes

A text that is malformed can still be tried as JSON. Brackets that are nested too deep for that are
listed with the faults of scalars, as both end the reading of a text for good.
-/

namespace RouteDocs

namespace Yaml

/-- What makes a scalar of a well-formed text denote no value, or a malformed one unreadable as
JSON. -/
inductive ScalarFault where
  /-- An escape names a number beyond the last code point. -/
  | codePoint (n : Nat)
  /-- A text tagged as a truth value is none of the words for one. -/
  | truth (word : Text)
  /-- A text is no integer in a base. -/
  | integer (base : Nat) (digits : Text)
  /-- An integer has too many digits. -/
  | tooManyDigits (count : Nat)
  /-- A text is no floating-point number. -/
  | float (digits : Text)
  /-- A place of a sexagesimal number weighs more than any floating-point number. -/
  | hugeWeight
  /-- A text tagged as a number is empty. -/
  | emptyNumber
  /-- A text tagged as a timestamp has another form. -/
  | timestamp
  /-- A timestamp names the year zero. -/
  | year
  /-- A timestamp names a month that is none. -/
  | month
  /-- A timestamp names a day that its month lacks. -/
  | day
  /-- A timestamp names an hour that is none. -/
  | hour
  /-- A timestamp names a minute that is none. -/
  | minute
  /-- A timestamp names a second that is none. -/
  | second
  /-- A time zone is a day or more away, by this many seconds. -/
  | zone (seconds : Int)
  /-- Brackets of JSON are nested too deep, of which the innermost is that of a list or not. -/
  | tooDeep (isList : Bool)
  deriving Repr, DecidableEq

/-- Why a text denotes no value. -/
inductive Fault where
  /-- The text is not well-formed, or a node has the wrong kind for its tag. -/
  | malformed
  /-- The text is well-formed, but one of its scalars denotes nothing. -/
  | scalar (cause : ScalarFault)
  deriving Repr, DecidableEq

/-- The wording for an integer with too many digits. -/
def tooManyDigitsMessage (count : Nat) : Text :=
  "Exceeds the limit (4300 digits) for integer string conversion: value has " ++ Text.ofNat count
    ++ " digits; use sys.set_int_max_str_digits() to increase the limit"

/-- A span of time in days and further seconds, of which the parts that are zero are not shown. -/
def spanText (seconds : Int) : Text :=
  let days := seconds / 86400
  let rest := seconds % 86400
  let parts : List Text :=
    (if days == 0 then [] else ["days=" ++ Text.ofInt days])
      ++ (if rest == 0 then [] else ["seconds=" ++ Text.ofInt rest])
  "datetime.timedelta(" ++ Text.join ", " parts ++ ")"

/-- The wording of a fault in a scalar. -/
def ScalarFault.message : ScalarFault → Text
  | .codePoint n =>
    if n < 0x80000000 then "chr() arg not in range(0x110000)"
    else "Python int too large to convert to C int"
  | .truth word => word.quoted
  | .integer base digits =>
    "invalid literal for int() with base " ++ Text.ofNat base ++ ": " ++ digits.quoted
  | .tooManyDigits count => tooManyDigitsMessage count
  | .float digits => "could not convert string to float: " ++ digits.quoted
  | .hugeWeight => "int too large to convert to float"
  | .emptyNumber => "string index out of range"
  | .timestamp => "'NoneType' object has no attribute 'groupdict'"
  | .year => "year 0 is out of range"
  | .month => "month must be in 1..12"
  | .day => "day is out of range for month"
  | .hour => "hour must be in 0..23"
  | .minute => "minute must be in 0..59"
  | .second => "second must be in 0..59"
  | .zone seconds =>
    "offset must be a timedelta strictly between -timedelta(hours=24) and timedelta(hours=24), not "
      ++ spanText seconds ++ "."
  | .tooDeep isList =>
    "maximum recursion depth exceeded while decoding a JSON "
      ++ (if isList then "array" else "object" : Text) ++ " from a unicode string"

end Yaml

end RouteDocs
