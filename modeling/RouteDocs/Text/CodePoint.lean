/-!
# Code Points and Texts

The texts of this library are sequences of Unicode code points. A JSON or YAML escape can
name a surrogate that stands alone, so a code point may be a surrogate and a text need not be
a `String`.

## Main Definitions

* `CodePoint`: a number below `0x110000`
* `Text`: a list of code points
* `Text.ofString`: every string is a text
* `Text.splitBy`, `Text.join`, `Text.trim`: cutting and joining

## Design Notes

Character and string literals are coerced, so `'a'` and `"abc"` can be written where a code
point or a text is expected.
-/

namespace RouteDocs

/-- A Unicode code point, surrogates included. -/
abbrev CodePoint := Fin 0x110000

/-- A sequence of code points. -/
abbrev Text := List CodePoint

namespace CodePoint

/-- The code point of a character. -/
def ofChar (c : Char) : CodePoint :=
  ⟨c.toNat, by
    have h := c.valid
    unfold UInt32.isValidChar Nat.isValidChar at h
    unfold Char.toNat
    omega⟩

instance : Coe Char CodePoint := ⟨ofChar⟩

/-- The code point with a given number, or the replacement character beyond the last one. -/
def ofNat (n : Nat) : CodePoint :=
  if h : n < 0x110000 then ⟨n, h⟩ else 0xFFFD

/-- Surrogates are the code points that no character has. -/
def isSurrogate (c : CodePoint) : Bool :=
  0xD800 ≤ c.val && c.val ≤ 0xDFFF

/-- The character of a code point, where a surrogate becomes the replacement character. -/
def toChar (c : CodePoint) : Char :=
  if c.isSurrogate then '\uFFFD' else Char.ofNat c.val

/-- The ten digits of ASCII. -/
def isAsciiDigit (c : CodePoint) : Bool :=
  0x30 ≤ c.val && c.val ≤ 0x39

/-- The letters of ASCII, of either case. -/
def isAsciiLetter (c : CodePoint) : Bool :=
  (0x41 ≤ c.val && c.val ≤ 0x5A) || (0x61 ≤ c.val && c.val ≤ 0x7A)

/-- The value of a hexadecimal digit of either case. -/
def hexValue? (c : CodePoint) : Option Nat :=
  if c.isAsciiDigit then some (c.val - 0x30)
  else if 0x61 ≤ c.val ∧ c.val ≤ 0x66 then some (c.val - 0x57)
  else if 0x41 ≤ c.val ∧ c.val ≤ 0x46 then some (c.val - 0x37)
  else none

end CodePoint

namespace Text

/-- The text of a string. -/
def ofString (s : String) : Text :=
  s.toList.map CodePoint.ofChar

instance : Coe String Text := ⟨ofString⟩

/-- The string of a text, where surrogates become replacement characters. -/
def toString (t : Text) : String :=
  String.ofList (t.map CodePoint.toChar)

/-- Whether no surrogate occurs, so that the text can be encoded. -/
def isScalar (t : Text) : Bool :=
  t.all fun c => !c.isSurrogate

/-- The decimal digits of a natural number. -/
def ofNat (n : Nat) : Text :=
  (Nat.toDigits 10 n).map CodePoint.ofChar

/-- The decimal text of an integer, with a minus sign before a negative one. -/
def ofInt : Int → Text
  | .ofNat n => ofNat n
  | .negSucc n => '-' :: ofNat (n + 1)

/-- The lower-case hexadecimal digits of a number, padded with zeros to a width. -/
def ofHex (width : Nat) (n : Nat) : Text :=
  let digits := (Nat.toDigits 16 n).map CodePoint.ofChar
  (List.replicate (width - digits.length) '0' : Text) ++ digits

/-- A text between two marks of one kind. -/
def between (mark : CodePoint) (t : Text) : Text := mark :: t ++ [mark]

/-- The pieces between the separators, of which there is always at least one. -/
def splitBy (sep : CodePoint → Bool) : Text → List Text
  | [] => [[]]
  | c :: r =>
    match splitBy sep r with
    | [] => [[c]]
    | piece :: more => if sep c then [] :: piece :: more else (c :: piece) :: more

/-- The pieces between the occurrences of one code point. -/
def splitOn (sep : CodePoint) (t : Text) : List Text :=
  t.splitBy (· == sep)

/-- The texts one after another with a separator between neighbours. -/
def join (sep : Text) : List Text → Text
  | [] => []
  | [t] => t
  | t :: more => t ++ sep ++ join sep more

/-- The text without its first code points of a class. -/
def trimLeft (cls : CodePoint → Bool) (t : Text) : Text :=
  t.dropWhile cls

/-- The text without its last code points of a class. -/
def trimRight (cls : CodePoint → Bool) (t : Text) : Text :=
  (t.reverse.dropWhile cls).reverse

/-- The text without the code points of a class at both ends. -/
def trim (cls : CodePoint → Bool) (t : Text) : Text :=
  trimRight cls (trimLeft cls t)

/-- Whether the text begins with another one. -/
def startsWith (t start : Text) : Bool :=
  start.isPrefixOf t

/-- Whether the text ends with another one. -/
def endsWith (t ending : Text) : Bool :=
  ending.isSuffixOf t

/-- Whether another text occurs as a contiguous part. -/
def hasPart (part : Text) : Text → Bool
  | [] => part.isEmpty
  | c :: r => part.isPrefixOf (c :: r) || hasPart part r

/-- The parts before and after the first occurrence of a code point, if it occurs. -/
def cut? (sep : CodePoint) : Text → Option (Text × Text)
  | [] => none
  | c :: r =>
    if c == sep then some ([], r)
    else (cut? sep r).map fun (before, after) => (c :: before, after)

/-- The position of the last occurrence of a part, scanning from a position onwards. -/
def lastIndexFrom (part : Text) : Nat → Text → Option Nat
  | i, [] => if part.isEmpty then some i else none
  | i, c :: r =>
    match lastIndexFrom part (i + 1) r with
    | some j => some j
    | none => if part.isPrefixOf (c :: r) then some i else none

/-- The position of the last occurrence of a part. -/
def lastIndexOf? (part t : Text) : Option Nat :=
  lastIndexFrom part 0 t

/-- Code-point order, with a proper beginning before the longer text. -/
def lt : Text → Text → Bool
  | _, [] => false
  | [], _ :: _ => true
  | a :: r, b :: s => a.val < b.val || (a == b && lt r s)

/-- The texts in code-point order; equal texts keep their order. -/
def sort (ts : List Text) : List Text :=
  ts.mergeSort fun a b => !lt b a

end Text

end RouteDocs
