import RouteDocs.Json.Value
import RouteDocs.Yaml.Scalar

/-!
# Writing YAML

Block-style YAML documents for JSON values.

## Main Definitions

* `Yaml.Style`: the three ways to write a text
* `Yaml.style`: the plainest way that reads back as the text
* `Yaml.plain`, `Yaml.singleQuoted`, `Yaml.doubleQuoted`: a text in each of them
* `Yaml.print`: the document of a value

## Design Notes

Collections are indented by two spaces, but a list that is the value of a key stands at the level
of the key. Lines are folded at the first single space after the eightieth column. A key that is
empty, long or has line breaks is written after a question mark.
-/

namespace RouteDocs

namespace Yaml

/-- How a text is written. -/
inductive Style where
  | plain | singleQuoted | doubleQuoted
  deriving Repr, DecidableEq

/-- The column after which lines are folded. -/
def width : Nat := 80

/-- The code points that break lines. -/
def isBreak (c : CodePoint) : Bool :=
  c == '\n' || c.val == 0x85 || c.val == 0x2028 || c.val == 0x2029

/-- Blanks, breaks and the null character. -/
def isSeparator (c : CodePoint) : Bool :=
  c.val == 0 || c == ' ' || c == '\t' || c == '\r' || isBreak c

/-- The code points that can stand in a scalar without an escape. -/
def isPrintable (c : CodePoint) : Bool :=
  let n := c.val
  n == 10 || (0x20 ≤ n && n ≤ 0x7E) || n == 0x85 || (0xA0 ≤ n && n ≤ 0xD7FF)
    || (0xE000 ≤ n && n ≤ 0xFFFD && n != 0xFEFF) || (0x10000 ≤ n && n < 0x10FFFF)

/-- The indicators that a plain scalar cannot begin with. -/
def isLeadingIndicator (c : CodePoint) : Bool :=
  c == '#' || c == ',' || c == '[' || c == ']' || c.val == 0x7B || c.val == 0x7D || c == '&'
    || c == '*' || c == '!' || c == '|' || c == '>' || c.val == 0x27 || c.val == 0x22 || c == '%'
    || c == '@' || c.val == 0x60

/-- Whether a text ends or a separator follows. -/
def endsHere (t : Text) : Bool :=
  match t with
  | [] => true
  | c :: _ => isSeparator c

/-- Whether an indicator stands within a text, given whether a separator precedes. -/
def hasInnerIndicator (afterSeparator : Bool) : Text → Bool
  | [] => false
  | c :: r =>
    (c == ':' && endsHere r) || (c == '#' && afterSeparator) || hasInnerIndicator (isSeparator c) r

/-- Whether indicators keep a text from being a plain scalar. -/
def hasIndicator (t : Text) : Bool :=
  match t with
  | [] => false
  | c :: r =>
    t.startsWith "---" || t.startsWith "..." || isLeadingIndicator c
      || ((c == '?' || c == ':' || c == '-') && endsHere r) || hasInnerIndicator (isSeparator c) r

/-- Whether two neighbours in a text satisfy two tests. -/
def hasNeighbours (first second : CodePoint → Bool) : Text → Bool
  | [] => false
  | c :: r => (first c && r.head?.any second) || hasNeighbours first second r

/-- A space. -/
def isSpace (c : CodePoint) : Bool := c == ' '

/-- Whether a blank or break stands at either end of a text. -/
def hasOuterSpace (t : Text) : Bool :=
  (t.head?.any fun c => isSpace c || isBreak c) || (t.getLast?.any fun c => isSpace c || isBreak c)

/-- Whether a text can be in single quotation marks: all of it is printable and no space touches
a break. -/
def allowsSingleQuotes (t : Text) : Bool :=
  t.all isPrintable && !hasNeighbours isSpace isBreak t && !hasNeighbours isBreak isSpace t

/-- Whether a text can stand without quotation marks and then reads back as itself. -/
def allowsPlain (t : Text) : Bool :=
  allowsSingleQuotes t && !t.any isBreak && !hasOuterSpace t && !hasIndicator t
    && scalarKind t == .text

/-- The plainest style for a text. -/
def style (t : Text) : Style :=
  if allowsPlain t then .plain
  else if allowsSingleQuotes t then .singleQuoted
  else .doubleQuoted

/-- A number of spaces. -/
def spaces (n : Nat) : Text :=
  List.replicate n ' '

/-- A line break and the indentation of the next line. -/
def newLine (indent : Nat) : Text :=
  '\n' :: spaces indent

/-- The rest of a plain scalar at a column, after a number of spaces that are not yet written. -/
def plainFrom (fold : Bool) (indent column : Nat) : Nat → Text → Text
  | n, [] => spaces n
  | n, c :: r =>
    if c == ' ' then plainFrom fold indent column (n + 1) r
    else if fold && n == 1 && width < column then
      newLine indent ++ c :: plainFrom fold indent (indent + 1) 0 r
    else spaces n ++ c :: plainFrom fold indent (column + n + 1) 0 r

/-- A text without quotation marks; `indent` is that of folded lines. -/
def plain (fold : Bool) (indent column : Nat) (t : Text) : Text :=
  plainFrom fold indent column 0 t

/-- The breaks of a text, the first of which is doubled if it is a line feed. -/
def writtenBreaks (breaks : Text) : Text :=
  if breaks.head? == some ('\n' : CodePoint) then '\n' :: breaks else breaks

/-- What is pending within a scalar in single quotation marks: spaces, or breaks in reverse. -/
inductive Pending where
  | spaces (count : Nat)
  | breaks (latestFirst : Text)

/-- The rest of a scalar in single quotation marks at a column; `begun` says that something of
it has been written. -/
def singleQuotedFrom (fold : Bool) (indent column : Nat) (begun : Bool) : Pending → Text → Text
  | .spaces n, [] => spaces n
  | .breaks b, [] => writtenBreaks b.reverse ++ spaces indent
  | .spaces n, c :: r =>
    if c == ' ' then singleQuotedFrom fold indent column begun (.spaces (n + 1)) r
    else
      let (space, column) := if fold && n == 1 && begun && width < column then
          (newLine indent, indent)
        else (spaces n, column + n)
      space ++ (
        if isBreak c then singleQuotedFrom fold indent column true (.breaks [c]) r
        else if c.val == 0x27 then
          c :: c :: singleQuotedFrom fold indent (column + 2) true (.spaces 0) r
        else c :: singleQuotedFrom fold indent (column + 1) true (.spaces 0) r)
  | .breaks b, c :: r =>
    if isBreak c then singleQuotedFrom fold indent column true (.breaks (c :: b)) r
    else
      writtenBreaks b.reverse ++ spaces indent ++ (
        if c == ' ' then singleQuotedFrom fold indent indent true (.spaces 1) r
        else if c.val == 0x27 then
          c :: c :: singleQuotedFrom fold indent (indent + 2) true (.spaces 0) r
        else c :: singleQuotedFrom fold indent (indent + 1) true (.spaces 0) r)

/-- A text in single quotation marks at a column. -/
def singleQuoted (fold : Bool) (indent column : Nat) (t : Text) : Text :=
  Text.between '\'' (singleQuotedFrom fold indent (column + 1) false (.spaces 0) t)

/-- The letter that names a code point after a backslash. -/
def escapeLetter? (c : CodePoint) : Option CodePoint :=
  match c.val with
  | 0 => some '0'
  | 7 => some 'a'
  | 8 => some 'b'
  | 9 => some 't'
  | 10 => some 'n'
  | 11 => some 'v'
  | 12 => some 'f'
  | 13 => some 'r'
  | 27 => some 'e'
  | 0x22 => some '"'
  | 0x5C => some '\\'
  | 0x85 => some 'N'
  | 0xA0 => some '_'
  | 0x2028 => some 'L'
  | 0x2029 => some 'P'
  | _ => none

/-- The upper-case hexadecimal digits of a number, padded with zeros to a width. -/
def upperHex (digits n : Nat) : Text :=
  (Text.ofHex digits n).map fun c => if 0x61 ≤ c.val ∧ c.val ≤ 0x66 then CodePoint.ofNat (c.val - 32) else c

/-- Whether a code point is escaped in double quotation marks. -/
def isEscaped (c : CodePoint) : Bool :=
  let n := c.val
  n == 0x22 || n == 0x5C || n == 0x85 || n == 0x2028 || n == 0x2029 || n == 0xFEFF
    || !((0x20 ≤ n && n ≤ 0x7E) || (0xA0 ≤ n && n ≤ 0xD7FF) || (0xE000 ≤ n && n ≤ 0xFFFD))

/-- The escape of a code point. -/
def escape (c : CodePoint) : Text :=
  match escapeLetter? c with
  | some letter => ['\\', letter]
  | none =>
    if c.val ≤ 0xFF then '\\' :: 'x' :: upperHex 2 c.val
    else if c.val ≤ 0xFFFF then '\\' :: 'u' :: upperHex 4 c.val
    else '\\' :: 'U' :: upperHex 8 c.val

/-- A folded line end in double quotation marks, where a space that follows is escaped; and the
column of what follows. -/
def foldedLine (indent : Nat) (next : Text) : Text × Nat :=
  if next.head? == some (' ' : CodePoint) then (Text.between '\\' (newLine indent), indent + 1)
  else (("\\" : Text) ++ newLine indent, indent)

/-- The rest of a scalar in double quotation marks at a column, of which `begun` says that it is
not the beginning and `afterEscape` that an escape precedes. -/
def doubleQuotedFrom (fold : Bool) (indent column : Nat) (begun afterEscape : Bool) :
    Text → Text
  | [] => []
  | c :: r =>
    let foldable := fold && begun && !r.isEmpty
    if isEscaped c then
      let column := column + (escape c).length
      let (line, column) := if foldable && width < column - 1 then foldedLine indent r else ([], column)
      escape c ++ line ++ doubleQuotedFrom fold indent column true true r
    else
      let (line, column) := if foldable && (c == ' ' || afterEscape) && width < column then
          foldedLine indent (c :: r)
        else ([], column)
      line ++ c :: doubleQuotedFrom fold indent (column + 1) true false r

/-- A text in double quotation marks at a column. -/
def doubleQuoted (fold : Bool) (indent column : Nat) (t : Text) : Text :=
  Text.between '"' (doubleQuotedFrom fold indent (column + 1) false false t)

/-- A text at a column in its plainest style. -/
def scalarText (fold : Bool) (indent column : Nat) (t : Text) : Text :=
  match style t with
  | .plain => plain fold indent column t
  | .singleQuoted => singleQuoted fold indent column t
  | .doubleQuoted => doubleQuoted fold indent column t

/-- How floating-point numbers are written. -/
def floatLayout : FloatLayout := ⟨-4, 15, 2, true⟩

/-- The text of a value that has no parts. -/
def atomText (indent column : Nat) : Json → Text
  | .null => "null"
  | .bool b => if b then "true" else "false"
  | .int i => Text.ofInt i
  | .float x => x.layOut floatLayout ".inf" "-.inf" ".nan"
  | .str t => scalarText true indent column t
  | .arr _ => "[]"
  | .obj _ => ['\x7b', '\x7d']

/-- Whether a key is written before its colon without a question mark. -/
def isSimpleKey (key : Text) : Bool :=
  !key.isEmpty && !key.any isBreak && key.length + 5 < 128

/-- What precedes a value: a key, or an indicator that leaves room for a collection beside it. -/
inductive Place where
  | afterKey | afterIndicator
  deriving Repr, DecidableEq

/-- What precedes the value of a key: the key itself, or a colon on a line of its own. -/
def placeOfValue (key : Text) : Place :=
  if isSimpleKey key then .afterKey else .afterIndicator

/-- The printed key of a member up to the colon, in an object with an indentation. -/
def keyText (indent : Nat) (key : Text) : Text :=
  if isSimpleKey key then scalarText false (indent + 2) indent key
  else ("? " : Text) ++ scalarText true (indent + 2) (indent + 2) key ++ newLine indent

/-- The column after the colon of a member. -/
def columnAfterKey (indent : Nat) (key : Text) : Nat :=
  if isSimpleKey key then indent + (keyText indent key).length + 1 else indent + 1

/-- Where the parts of a collection begin, given its indentation: on a new line, or beside an
indicator. -/
def opening (place : Place) (indent : Nat) : Text :=
  match place with
  | .afterKey => newLine indent
  | .afterIndicator => " "

mutual

/-- A value after what precedes it, up to a column, in a collection with an indentation. -/
def printValue (indent column : Nat) (place : Place) : Json → Text
  | .arr vs =>
    let level := match place with
      | .afterKey => indent
      | .afterIndicator => indent + 2
    if vs.isEmpty then " []"
    else opening place level ++ Text.join (newLine level) (printItems level vs)
  | .obj ms =>
    if ms.isEmpty then [' ', '\x7b', '\x7d']
    else opening place (indent + 2) ++ Text.join (newLine (indent + 2)) (printMembers (indent + 2) ms)
  | .null => ' ' :: atomText (indent + 2) (column + 1) .null
  | .bool b => ' ' :: atomText (indent + 2) (column + 1) (.bool b)
  | .int i => ' ' :: atomText (indent + 2) (column + 1) (.int i)
  | .float x => ' ' :: atomText (indent + 2) (column + 1) (.float x)
  | .str t => ' ' :: atomText (indent + 2) (column + 1) (.str t)

/-- The items of a list with an indentation. -/
def printItems (indent : Nat) : List Json → List Text
  | [] => []
  | v :: more =>
    (("-" : Text) ++ printValue indent (indent + 1) .afterIndicator v) :: printItems indent more

/-- The members of an object with an indentation. -/
def printMembers (indent : Nat) : List (Text × Json) → List Text
  | [] => []
  | (k, v) :: more =>
    (keyText indent k ++ (":" : Text)
        ++ printValue indent (columnAfterKey indent k) (placeOfValue k) v)
      :: printMembers indent more

end

/-- The document of a value. -/
def print (v : Json) : Text :=
  match v with
  | .arr (v :: vs) => Text.join (newLine 0) (printItems 0 (v :: vs)) ++ "\n"
  | .obj (m :: ms) => Text.join (newLine 0) (printMembers 0 (m :: ms)) ++ "\n"
  | v => atomText 2 0 v ++ "\n"

end Yaml

end RouteDocs
