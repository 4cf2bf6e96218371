import RouteDocs.Yaml.Cursor

/-!
# Spellings of Scalars

Reads the three ways in which a scalar can be spelt: plain, between quotes, and as a block of
lines after `|` or `>`.

## Main Definitions

* `Yaml.Plain.read`: a plain scalar
* `Yaml.Quoted.read`: a scalar between single or double quotes
* `Yaml.Block.read`: a block of lines, kept as they are or folded

## Design Notes

Inside a scalar a single line end counts as a space and further ones as line feeds. Each loop
moves the position on at every turn, so the length of the text bounds the number of turns. An
escape names one code point, so a pair of surrogates written as two escapes stays a pair.
-/

namespace RouteDocs

namespace Yaml

/-- Spaces and tabs. -/
def isWhite (c : CodePoint) : Bool := c == ' ' || c == '\t'

/-- The text that folded line ends stand for: the first one alone is a space, and any others
after a line feed are kept. -/
def foldBreaks (first more : Text) : Text :=
  if first != "\n" then first ++ more
  else if more.isEmpty then " " else more

namespace Plain

/-- The marks of collections in brackets, which end a plain scalar there. -/
def isFlowMark (c : CodePoint) : Bool :=
  c == ',' || c == '[' || c == ']' || c.val == 0x7B || c.val == 0x7D

/-- Whether a colon followed by this code point ends a plain scalar. -/
def endsKey (inFlow : Bool) (follower : Option CodePoint) : Bool :=
  endOr (fun c => isGap c || (inFlow && isFlowMark c)) follower

/-- The longest part of a plain scalar without gaps at the start of a text. -/
def word (inFlow : Bool) : Text → Text
  | [] => []
  | c :: rest =>
    if isGap c || (c == ':' && endsKey inFlow rest.head?)
        || (inFlow && (c == '?' || isFlowMark c)) then []
    else c :: word inFlow rest

/-- The line ends and spaces at a position, and the position after them; nothing where a document
mark follows. The number bounds the turns. -/
def breaks : Nat → Cursor → Option Text × Cursor
  | 0, c => (none, c)
  | turns + 1, c =>
    if c.sees (· == ' ') then breaks turns c.next
    else if c.sees isLineEnd then
      let (found, c) := c.lineBreak
      if isDocumentMark c.rest then (none, c)
      else
        let (more, c) := breaks turns c
        (more.map (found ++ ·), c)
    else (some [], c)

/-- The gap after a word: the text that it stands for, the position after it, and whether it
holds a line end. -/
def gap (c : Cursor) : Text × Cursor × Bool :=
  let spaces := c.run (· == ' ')
  let c := c.skipRun (· == ' ')
  if c.sees isLineEnd then
    let (first, c) := c.lineBreak
    if isDocumentMark c.rest then ([], c, true)
    else
      let (more, c) := breaks (c.rest.length + 1) c
      ((more.map (foldBreaks first)).getD [], c, true)
  else (spaces, c, false)

/-- The words of a plain scalar with the gaps between them, the position after them, and whether
a line end precedes that position. The number bounds the turns. -/
def words (inFlow : Bool) (indent : Nat) : Nat → Cursor → Text × Cursor × Bool
  | 0, c => ([], c, false)
  | turns + 1, c =>
    let first := word inFlow c.rest
    let (between, after, newLine) := gap (c.skip first.length)
    if between.isEmpty || after.sees (· == '#') || (!inFlow && after.column < indent)
        || (word inFlow after.rest).isEmpty then (first, after, newLine)
    else
      let (more, c) := words inFlow indent turns after
      (first ++ between ++ more, c)

/-- A plain scalar at a position, inside brackets or not, whose further lines are indented. The
result says too whether a line end precedes the position after it. -/
def read (inFlow : Bool) (indent : Nat) (c : Cursor) : Text × Cursor × Bool :=
  words inFlow indent (c.rest.length + 1) c

end Plain

namespace Quoted

/-- The code point that a one-letter escape stands for. -/
def escape? (c : CodePoint) : Option CodePoint :=
  let table : List (Char × Nat) := [('0', 0), ('a', 7), ('b', 8), ('t', 9), ('\t', 9), ('n', 10),
    ('v', 11), ('f', 12), ('r', 13), ('e', 0x1B), (' ', 0x20), ('"', 0x22), ('\\', 0x5C),
    ('/', 0x2F), ('N', 0x85), ('_', 0xA0), ('L', 0x2028), ('P', 0x2029)]
  (table.find? fun e => c == e.1).map fun e => CodePoint.ofNat e.2

/-- How many hexadecimal digits follow the letter of an escape. -/
def escapeWidth? (c : CodePoint) : Option Nat :=
  if c == 'x' then some 2 else if c == 'u' then some 4 else if c == 'U' then some 8 else none

/-- The number that a text of hexadecimal digits writes. -/
def hexNumber? (digits : Text) : Option Nat :=
  digits.foldl (fun n c => n.bind fun n => c.hexValue?.map fun d => 16 * n + d) (some 0)

/-- The code point that hexadecimal digits at a position name, and the position after them. -/
def hexEscape (width : Nat) (c : Cursor) : Except Fault (CodePoint × Cursor) :=
  let digits := c.rest.take width
  match if digits.length == width then hexNumber? digits else none with
  | none => .error .malformed
  | some n =>
    if h : n < 0x110000 then .ok (⟨n, h⟩, c.skip width) else .error (.scalar (.codePoint n))

/-- The line ends at a position that are no part of a document mark's line, with white space
around them, and the position after them. The number bounds the turns. -/
def breaks : Nat → Cursor → Except Fault (Text × Cursor)
  | 0, _ => .error .malformed
  | turns + 1, c =>
    if isDocumentMark c.rest then .error .malformed
    else
      let c := c.skipRun isWhite
      if c.sees isLineEnd then do
        let (first, c) := c.lineBreak
        let (more, c) ← breaks turns c
        .ok (first ++ more, c)
      else .ok ([], c)

/-- The gap at a position inside quotes: the text that it stands for and the position after it. -/
def gap (c : Cursor) : Except Fault (Text × Cursor) :=
  let spaces := c.run isWhite
  let c := c.skipRun isWhite
  if c.sees isLineEnd then do
    let (first, c) := c.lineBreak
    let (more, c) ← breaks (c.rest.length + 1) c
    .ok (foldBreaks first more, c)
  else .ok (spaces, c)

/-- The text that an escape stands for, at the position after its backslash, and the position
after it. -/
def escaped (c : Cursor) : Except Fault (Text × Cursor) :=
  match c.peek? with
  | none => .error .malformed
  | some x =>
    match escape? x, escapeWidth? x with
    | some y, _ => .ok ([y], c.next)
    | none, some width => (hexEscape width c.next).map fun (y, c) => ([y], c)
    | none, none =>
      if isLineEnd x then breaks (c.rest.length + 1) c.lineBreak.2 else .error .malformed

/-- The text up to the closing quote and the position after that. The number bounds the turns. -/
def content (isDouble : Bool) : Nat → Cursor → Except Fault (Text × Cursor)
  | 0, _ => .error .malformed
  | turns + 1, c =>
    match c.rest with
    | [] => .error .malformed
    | x :: rest =>
      let quote : CodePoint := if isDouble then '"' else '\''
      if x == quote && (isDouble || rest.head? != some quote) then .ok ([], c.next)
      else do
        let (first, c) ←
          if x == quote then .ok ([quote], c.skip 2)
          else if isGap x then gap c
          else if isDouble && x == '\\' then escaped c.next
          else .ok ([x], c.next)
        let (more, c) ← content isDouble turns c
        .ok (first ++ more, c)

/-- A quoted scalar, at the position of its opening quote, and the position after it. -/
def read (isDouble : Bool) (c : Cursor) : Except Fault (Text × Cursor) :=
  content isDouble c.rest.length c.next

end Quoted

namespace Block

/-- What happens to the line ends at the end of a block. -/
inductive Chomping where
  /-- None is kept. -/
  | strip
  /-- The first is kept. -/
  | clip
  /-- All are kept. -/
  | keep
  deriving Repr, DecidableEq

/-- The part of the last line ends that is kept: the first one and any others after it. -/
def Chomping.tail (chomping : Chomping) (first more : Text) : Text :=
  match chomping with
  | .strip => []
  | .clip => first
  | .keep => first ++ more

/-- What stands after `|` or `>`. -/
structure Header where
  /-- What happens to the last line ends. -/
  chomping : Chomping
  /-- By how much the block is indented, if that is said. -/
  increment : Option Nat
  deriving Repr, DecidableEq

/-- The chomping that a sign stands for. -/
def chomping? (c : CodePoint) : Option Chomping :=
  if c == '+' then some .keep else if c == '-' then some .strip else none

/-- The chomping sign at a position, if there is one, and the position after it. -/
def takeChomping (c : Cursor) : Option Chomping × Cursor :=
  match c.peek?.bind chomping? with
  | some chomping => (some chomping, c.next)
  | none => (none, c)

/-- The digit of an indentation at a position, if there is one, and the position after it. -/
def takeIncrement (c : Cursor) : Except Fault (Option Nat × Cursor) :=
  match c.peek? with
  | some d =>
    if !d.isAsciiDigit then .ok (none, c)
    else if d == '0' then .error .malformed
    else .ok (some (d.val - 0x30), c.next)
  | none => .ok (none, c)

/-- The header at the position after `|` or `>`, in either order of its two parts, and the position
of the next line. -/
def header (c : Cursor) : Except Fault (Header × Cursor) := do
  let (early, c) := takeChomping c
  let (increment, c) ← takeIncrement c
  let (late, c) := if early.isNone && increment.isSome then takeChomping c else (none, c)
  if endOr (fun x => x == ' ' || isLineEnd x) c.peek? then
    .ok (⟨(early.orElse fun _ => late).getD .clip, increment⟩, ← c.finishLine)
  else .error .malformed

/-- The position after at most as many spaces as lead to a column. -/
def skipIndent (indent : Nat) (c : Cursor) : Cursor :=
  c.skip (min (indent - c.column) (c.run (· == ' ')).length)

/-- The empty lines at a position, and the position after them and after the indentation of the
next line. The number bounds the turns. -/
def breaks (indent : Nat) : Nat → Cursor → Text × Cursor
  | 0, c => ([], c)
  | turns + 1, c =>
    let c := skipIndent indent c
    if c.sees isLineEnd then
      let (first, c) := c.lineBreak
      let (more, c) := breaks indent turns c
      (first ++ more, c)
    else ([], c)

/-- The empty lines at a position, the width of the widest line of spaces, and the position of the
first code point that is neither a space nor a line end. The number bounds the turns. -/
def firstBreaks (width : Nat) : Nat → Cursor → Text × Nat × Cursor
  | 0, c => ([], width, c)
  | turns + 1, c =>
    if c.sees (· == ' ') then firstBreaks (max width c.next.column) turns c.next
    else if c.sees isLineEnd then
      let (first, c) := c.lineBreak
      let (more, width, c) := firstBreaks width turns c
      (first ++ more, width, c)
    else ([], width, c)

/-- The lines of a block from a position on, the first of them after some line ends, and the
position after them. The number bounds the turns. -/
def lines (folded : Bool) (chomping : Chomping) (indent : Nat) : Nat → Text → Cursor → Text × Cursor
  | 0, _, c => ([], c)
  | turns + 1, before, c =>
    let line := c.run fun x => !isLineEnd x
    let (first, after) := (c.skip line.length).lineBreak
    let (more, after) := breaks indent (after.rest.length + 1) after
    if after.column == indent && !after.atEnd then
      let isProse := first == "\n" && !c.sees isWhite && !after.sees isWhite
      let between : Text := if folded && isProse then (if more.isEmpty then " " else []) else first
      let (others, after) := lines folded chomping indent turns more after
      (before ++ line ++ between ++ others, after)
    else (before ++ line ++ chomping.tail first more, after)

/-- A block at the position of its `|` or `>`, whose lines are indented by at least a number of
columns, and the position after it. -/
def read (folded : Bool) (least : Nat) (c : Cursor) : Except Fault (Text × Cursor) := do
  let (header, c) ← header c.next
  let turns := c.rest.length + 1
  let (before, indent, c) :=
    match header.increment with
    | none =>
      let (before, width, c) := firstBreaks 0 turns c
      (before, max least width, c)
    | some n =>
      let indent := least + n - 1
      let (before, c) := breaks indent turns c
      (before, indent, c)
  if c.column == indent && !c.atEnd then
    .ok (lines folded header.chomping indent turns before c)
  else .ok (header.chomping.tail [] before, c)

end Block

end Yaml

end RouteDocs
