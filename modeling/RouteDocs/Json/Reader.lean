import RouteDocs.Json.Value

/-!
# Reading JSON

Reads a JSON value from a text. Besides the standard numbers, `NaN`, `Infinity` and `-Infinity`
are read. Of several members with one key, the last value counts, in the place of the first.

## Main Definitions

* `Json.ReadError`: what is wrong with a text, and where
* `Json.Dialect`: the limits in which readers differ
* `Json.read`: the value of a whole text

## Design Notes

The functions return the rest of the text. A position is told by what is left from there, and
counted from the beginning only when the whole reading fails. The mutual functions count down a
number that exceeds the number of steps a text can cause.

The reader of fragments has no nesting limit of its own: it recurses, and how far it comes depends
on how deep its caller already is on the stack. `Dialect.fragment` has one figure for all callers,
which is about what a shallow caller leaves.

Two surrogates that stand in a quoted text as they are become one code point like two escapes by
number, where the reader of fragments joins escapes only. A text that is valid UTF-8 has no such
surrogates.
-/

namespace RouteDocs

namespace Json

/-- What can be wrong with a JSON text. -/
inductive ReadError.Cause where
  /-- A byte-order mark stands before the value. -/
  | byteOrderMark
  /-- No value begins here. -/
  | noValue
  /-- Something follows the value. -/
  | extraText
  /-- A member does not begin with a quoted key. -/
  | noKey
  /-- A key is not followed by a colon. -/
  | noColon
  /-- An item is not followed by a comma or a closing bracket. -/
  | noComma
  /-- A quoted text does not end. -/
  | unterminated
  /-- A control character stands in a quoted text. -/
  | controlCharacter
  /-- A backslash is followed by an unknown letter. -/
  | badEscape
  /-- An escape by number lacks its four digits. -/
  | badNumberEscape
  /-- A surrogate stands alone where that is refused. -/
  | loneSurrogate
  /-- The integer part of a number is too long, as the reader counts it. -/
  | tooManyDigits (count : Nat)
  /-- Brackets are nested too deep. -/
  | tooDeep
  deriving Repr, DecidableEq

/-- A fault in a JSON text. -/
structure ReadError where
  /-- The fault. -/
  cause : ReadError.Cause
  /-- The number of code points before the fault. -/
  position : Nat
  deriving Repr, DecidableEq

/-- What a reader asks of numbers and of quoted texts. -/
structure Rules where
  /-- How long the integer part of a number may be. -/
  maxLength : Nat
  /-- Whether that limit is one on characters, which counts the sign and holds for every number, and
  not one on the digits of an integer. -/
  countsCharacters : Bool
  /-- Whether an escape may name a surrogate that stands alone. -/
  loneSurrogates : Bool

/-- The greatest number of digits of an integer. -/
def maxDigits : Nat := 4300

/-- The rules of a lenient reader or a strict one. -/
def Rules.of (isLenient : Bool) : Rules := ⟨maxDigits, !isLenient, isLenient⟩

instance : Coe Bool Rules := ⟨Rules.of⟩

/-- The limits of a reader. -/
structure Dialect where
  /-- How many brackets may be open at once. -/
  maxDepth : Nat
  /-- What it asks of numbers and texts. -/
  rules : Rules

/-- The reader of whole documents, which is strict. -/
def Dialect.document : Dialect := ⟨200, false⟩

/-- The reader of fragments, settings and request bodies, which is lenient. -/
def Dialect.fragment : Dialect := ⟨990, true⟩

/-- The length of a number's integer part as a reader counts it. -/
def Dialect.counted (dialect : Dialect) (negative isInteger : Bool) (digits : Nat) : Nat :=
  if dialect.rules.countsCharacters then digits + negative.toNat else if isInteger then digits else 0

/-- A fault, with what is left of the text at its place. -/
abbrev Fault := ReadError.Cause × Text

/-- A value with the rest of the text, or a fault. -/
abbrev Reading (α : Type) := Except Fault (α × Text)

/-- The blanks between tokens. -/
def isSpace (c : CodePoint) : Bool :=
  c == ' ' || c == '\t' || c == '\n' || c == '\r'

/-- The text after the blanks at its beginning. -/
def skipSpace (t : Text) : Text :=
  t.dropWhile isSpace

/-- The number of four hexadecimal digits. -/
def hex4? (a b c d : CodePoint) : Option Nat := do
  let w ← a.hexValue?
  let x ← b.hexValue?
  let y ← c.hexValue?
  let z ← d.hexValue?
  pure (((w * 16 + x) * 16 + y) * 16 + z)

/-- What a letter stands for after a backslash. -/
def shortEscape? (c : CodePoint) : Option CodePoint :=
  if c.val == 0x22 || c.val == 0x5C || c == '/' then some c
  else if c == 'b' then some '\x08'
  else if c == 'f' then some '\x0c'
  else if c == 'n' then some '\n'
  else if c == 'r' then some '\r'
  else if c == 't' then some '\t'
  else none

/-- The first unit of a pair. -/
def isHighSurrogate (c : CodePoint) : Bool := 0xD800 ≤ c.val && c.val ≤ 0xDBFF

/-- The second unit of a pair. -/
def isLowSurrogate (c : CodePoint) : Bool := 0xDC00 ≤ c.val && c.val ≤ 0xDFFF

/-- The code point of a pair of units. -/
def joinSurrogates (high low : CodePoint) : CodePoint :=
  CodePoint.ofNat (0x10000 + (high.val - 0xD800) * 0x400 + (low.val - 0xDC00))

/-- A text in which each pair of units has become one code point; `pending` is a first unit that
stands before the text. -/
def joinPairs : Option CodePoint → Text → Text
  | none, [] => []
  | some high, [] => [high]
  | none, c :: r => if isHighSurrogate c then joinPairs (some c) r else c :: joinPairs none r
  | some high, c :: r =>
    if isLowSurrogate c then joinSurrogates high c :: joinPairs none r
    else if isHighSurrogate c then high :: joinPairs (some c) r
    else high :: c :: joinPairs none r

/-- The units of a quoted text after its opening mark, which stands at `opening`. -/
def readUnits (opening : Text) : Text → Reading Text
  | [] => .error (.unterminated, opening)
  | c :: r =>
    if c.val == 0x22 then .ok ([], r)
    else if c.val == 0x5C then
      match r with
      | [] => .error (.unterminated, opening)
      | e :: s =>
        if e == 'u' then
          match s with
          | h1 :: h2 :: h3 :: h4 :: rest =>
            match hex4? h1 h2 h3 h4, rest.isEmpty with
            | some n, false => (readUnits opening rest).map fun (t, after) =>
              (CodePoint.ofNat n :: t, after)
            | _, _ => .error (.badNumberEscape, r)
          | _ => .error (.badNumberEscape, r)
        else match shortEscape? e with
          | some x => (readUnits opening s).map fun (t, after) => (x :: t, after)
          | none => .error (.badEscape, c :: r)
    else if c.val < 0x20 then .error (.controlCharacter, c :: r)
    else (readUnits opening r).map fun (t, after) => (c :: t, after)

/-- The rest of a quoted text after its opening mark, which stands at `opening`. -/
def readQuoted (dialect : Dialect) (opening r : Text) : Reading Text :=
  match readUnits opening r with
  | .error fault => .error fault
  | .ok (units, after) =>
    let t := joinPairs none units
    if dialect.rules.loneSurrogates || t.isScalar then .ok (t, after)
    else .error (.loneSurrogate, opening)

/-- The number of decimal ASCII digits. -/
def digitsValue (digits : Text) : Nat :=
  digits.foldl (fun n c => 10 * n + (c.val - 0x30)) 0

/-- The fraction digits after a point, if there are any. -/
def takeFraction (t : Text) : Text × Text :=
  match t with
  | c :: r =>
    let digits := r.takeWhile CodePoint.isAsciiDigit
    if c == '.' && !digits.isEmpty then (digits, r.dropWhile CodePoint.isAsciiDigit) else ([], t)
  | [] => ([], t)

/-- The exponent after its letter, if it has digits. -/
def takeExponent (t : Text) : Option Int × Text :=
  match t with
  | c :: r =>
    if c == 'e' || c == 'E' then
      let (negative, s) := match r with
        | d :: s => if d == '-' then (true, s) else if d == '+' then (false, s) else (false, d :: s)
        | [] => (false, [])
      let digits := s.takeWhile CodePoint.isAsciiDigit
      if digits.isEmpty then (none, t)
      else
        let n : Int := digitsValue digits
        (some (if negative then -n else n), s.dropWhile CodePoint.isAsciiDigit)
    else (none, t)
  | [] => (none, t)

/-- The digits before a point, of which a zero stands alone. -/
def takeWhole (t : Text) : Text × Text :=
  match t with
  | c :: r => if c == '0' then ([c], r)
    else (t.takeWhile CodePoint.isAsciiDigit, t.dropWhile CodePoint.isAsciiDigit)
  | [] => ([], [])

/-- A number at the beginning of a text, whose first integer digit is present. -/
def readNumber (dialect : Dialect) (negative : Bool) (t : Text) : Reading Json :=
  let (whole, r) := takeWhole t
  let (fraction, r) := takeFraction r
  let (exponent, r) := takeExponent r
  let isInteger := fraction.isEmpty && exponent.isNone
  let count := dialect.counted negative isInteger whole.length
  if dialect.rules.maxLength < count then .error (.tooManyDigits count, t)
  else if isInteger then
    let n : Int := digitsValue whole
    .ok (.int (if negative then -n else n), r)
  else
    let power := exponent.getD 0 - fraction.length
    .ok (.float (Binary64.ofDecimal negative (digitsValue (whole ++ fraction)) power), r)

/-- A value that has no parts: a word or a number. -/
def readAtom (dialect : Dialect) (t : Text) : Reading Json :=
  let word (w : Text) (v : Json) (otherwise : Reading Json) : Reading Json :=
    if w.isPrefixOf t then .ok (v, t.drop w.length) else otherwise
  word "null" .null <|
  word "true" (.bool true) <|
  word "false" (.bool false) <|
  word "NaN" (.float .nan) <|
  word "Infinity" (.float (.infinite false)) <|
  word "-Infinity" (.float (.infinite true)) <|
  match t with
  | c :: r =>
    if c == '-' then
      if r.head?.any CodePoint.isAsciiDigit then readNumber dialect true r
      else .error (.noValue, t)
    else if c.isAsciiDigit then readNumber dialect false t
    else .error (.noValue, t)
  | [] => .error (.noValue, t)

mutual

/-- A value at the beginning of a text, with `depth` brackets open. -/
def readValue (dialect : Dialect) : Nat → Nat → Text → Reading Json
  | 0, _, t => .error (.tooDeep, t)
  | fuel + 1, depth, t =>
    match t with
    | [] => .error (.noValue, t)
    | c :: r =>
      if c.val == 0x22 then (readQuoted dialect t r).map fun (s, rest) => (.str s, rest)
      else if c == '[' then
        if dialect.maxDepth ≤ depth then .error (.tooDeep, t)
        else match skipSpace r with
          | [] => .error (.noValue, [])
          | d :: s =>
            if d == ']' then .ok (.arr [], s)
            else (readItems dialect fuel (depth + 1) (d :: s)).map fun (vs, rest) => (.arr vs, rest)
      else if c.val == 0x7B then
        if dialect.maxDepth ≤ depth then .error (.tooDeep, t)
        else match skipSpace r with
          | [] => .error (.noKey, [])
          | d :: s =>
            if d.val == 0x7D then .ok (.obj [], s)
            else (readMembers dialect fuel (depth + 1) (d :: s)).map fun (ms, rest) =>
              (.obj (Assoc.ofList ms), rest)
      else readAtom dialect t

/-- The items of a list up to its closing bracket. -/
def readItems (dialect : Dialect) : Nat → Nat → Text → Reading (List Json)
  | 0, _, t => .error (.tooDeep, t)
  | fuel + 1, depth, t =>
    match readValue dialect fuel depth t with
    | .error fault => .error fault
    | .ok (v, r) =>
      match skipSpace r with
      | [] => .error (.noComma, [])
      | d :: s =>
        if d == ']' then .ok ([v], s)
        else if d == ',' then
          (readItems dialect fuel depth (skipSpace s)).map fun (vs, rest) => (v :: vs, rest)
        else .error (.noComma, d :: s)

/-- The members of an object up to its closing bracket. -/
def readMembers (dialect : Dialect) : Nat → Nat → Text → Reading (List (Text × Json))
  | 0, _, t => .error (.tooDeep, t)
  | fuel + 1, depth, t =>
    match t with
    | [] => .error (.noKey, [])
    | c :: r =>
      if c.val != 0x22 then .error (.noKey, t)
      else match readQuoted dialect t r with
        | .error fault => .error fault
        | .ok (key, r) =>
          match skipSpace r with
          | [] => .error (.noColon, [])
          | d :: s =>
            if d != ':' then .error (.noColon, d :: s)
            else match readValue dialect fuel depth (skipSpace s) with
              | .error fault => .error fault
              | .ok (v, r) =>
                match skipSpace r with
                | [] => .error (.noComma, [])
                | d :: s =>
                  if d.val == 0x7D then .ok ([(key, v)], s)
                  else if d == ',' then
                    (readMembers dialect fuel depth (skipSpace s)).map fun (ms, rest) =>
                      ((key, v) :: ms, rest)
                  else .error (.noComma, d :: s)

end

/-- The value that a text begins with, blanks before it apart, and the rest. -/
def readPart (dialect : Dialect) (t : Text) : Reading Json :=
  match t with
  | 0xFEFF :: _ => .error (.byteOrderMark, t)
  | _ => readValue dialect (2 * t.length + 2) 0 (skipSpace t)

/-- The value of a whole text. -/
def read (dialect : Dialect) (t : Text) : Except ReadError Json :=
  match readPart dialect t with
  | .error (cause, left) => .error ⟨cause, t.length - left.length⟩
  | .ok (v, r) =>
    match skipSpace r with
    | [] => .ok v
    | left => .error ⟨.extraText, t.length - left.length⟩

end Json

end RouteDocs
