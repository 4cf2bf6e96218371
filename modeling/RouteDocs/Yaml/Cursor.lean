import RouteDocs.Yaml.Fault

/-!
# Positions in YAML Texts

A position in a YAML text with the text that follows it, and the steps that move it on.

## Main Definitions

* `Yaml.Cursor`: a position with its line, its column and the rest of the text
* `Yaml.Cursor.lineBreak`: a line end in its normal form, with the position after it
* `Yaml.isDocumentMark`: whether `---` or `...` stands alone

## Design Notes

Line feeds, carriage returns, next-line characters and the two separators of Unicode end a line.
A byte-order mark has no width.
-/

namespace RouteDocs

namespace Yaml

/-- The code points that end a line. -/
def isLineEnd (c : CodePoint) : Bool :=
  c == '\n' || c == '\r' || c.val == 0x85 || c.val == 0x2028 || c.val == 0x2029

/-- The code points that end a line, spaces and tabs. -/
def isGap (c : CodePoint) : Bool :=
  c == ' ' || c == '\t' || isLineEnd c

/-- Whether a code point satisfies a predicate or the text is at its end. -/
def endOr (p : CodePoint → Bool) : Option CodePoint → Bool
  | none => true
  | some c => p c

/-- Whether a text begins with `---` or `...`, followed by a gap or the end. -/
def isDocumentMark (t : Text) : Bool :=
  match t with
  | a :: b :: c :: rest => (a == '-' || a == '.') && a == b && b == c && endOr isGap rest.head?
  | _ => false

/-- A position in a text. -/
structure Cursor where
  /-- The text from the position on. -/
  rest : Text
  /-- How many code points stand before the position. -/
  index : Nat
  /-- How many lines end before the position. -/
  line : Nat
  /-- The width of the line before the position. -/
  column : Nat
  deriving Repr

namespace Cursor

/-- The position before a text. -/
def start (t : Text) : Cursor := ⟨t, 0, 0, 0⟩

/-- The code point at a position. -/
def peek? (c : Cursor) : Option CodePoint := c.rest.head?

/-- Whether a position is at the end of the text. -/
def atEnd (c : Cursor) : Bool := c.rest.isEmpty

/-- Whether the code point at a position satisfies a predicate. -/
def sees (p : CodePoint → Bool) (c : Cursor) : Bool := c.rest.head?.any p

/-- The position after the next code point. -/
def next (c : Cursor) : Cursor :=
  match c.rest with
  | [] => c
  | x :: rest =>
    if isLineEnd x && !(x == '\r' && rest.head? == some '\n') then
      ⟨rest, c.index + 1, c.line + 1, 0⟩
    else ⟨rest, c.index + 1, c.line, if x.val == 0xFEFF then c.column else c.column + 1⟩

/-- The position after some code points. -/
def skip : Nat → Cursor → Cursor
  | 0, c => c
  | n + 1, c => skip n c.next

/-- The longest text of a class at a position. -/
def run (p : CodePoint → Bool) (c : Cursor) : Text := c.rest.takeWhile p

/-- The position after the longest text of a class. -/
def skipRun (p : CodePoint → Bool) (c : Cursor) : Cursor := c.skip (c.run p).length

/-- The line end at a position in its normal form, if there is one, and the position after it: the
separators of Unicode stand for themselves and every other line end for a line feed. -/
def lineBreak (c : Cursor) : Text × Cursor :=
  match c.rest with
  | [] => ([], c)
  | x :: rest =>
    if !isLineEnd x then ([], c)
    else if x.val == 0x2028 || x.val == 0x2029 then ([x], c.next)
    else (("\n" : Text), c.skip (if x == '\r' && rest.head? == some '\n' then 2 else 1))

/-- The position after spaces and a comment. -/
def skipComment (c : Cursor) : Cursor :=
  let c := c.skipRun (· == ' ')
  if c.sees (· == '#') then c.skipRun fun x => !isLineEnd x else c

/-- The position after the rest of a line, which may hold spaces and a comment only. -/
def finishLine (c : Cursor) : Except Fault Cursor :=
  let c := c.skipComment
  if endOr isLineEnd c.peek? then .ok c.lineBreak.2 else .error .malformed

end Cursor

end Yaml

end RouteDocs
