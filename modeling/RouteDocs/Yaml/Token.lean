import RouteDocs.Yaml.Property
import RouteDocs.Yaml.Spelling

/-!
# Tokens of YAML Texts

Cuts a YAML text into tokens, among them the starts and ends of the collections that are shown by
indentation alone.

## Main Definitions

* `Yaml.Token`: the tokens
* `Yaml.Token.ofText`: the tokens of a text

## Design Notes

Only a colon shows that what precedes it is a key. So a place where a key may begin is remembered,
and its token is put in when the colon is found on the same line, within 1024 code points. Where
a line of a block mapping begins, the colon must follow. Every step moves the position on, so the
length of the text bounds the number of steps.
-/

namespace RouteDocs

namespace Yaml

/-- A token of a text. -/
inductive Token where
  /-- A line that begins with `%`. -/
  | directive (d : Directive)
  /-- The mark `---`. -/
  | documentStart
  /-- The mark `...`. -/
  | documentEnd
  /-- The start of a sequence whose items begin with hyphens. -/
  | blockSequenceStart
  /-- The start of a mapping that is shown by indentation. -/
  | blockMappingStart
  /-- The end of a collection that is shown by indentation. -/
  | blockEnd
  /-- An opening bracket. -/
  | flowSequenceStart
  /-- A closing bracket. -/
  | flowSequenceEnd
  /-- An opening brace. -/
  | flowMappingStart
  /-- A closing brace. -/
  | flowMappingEnd
  /-- A comma. -/
  | flowEntry
  /-- The hyphen before an item. -/
  | blockEntry
  /-- The start of a key. -/
  | key
  /-- The colon before a value. -/
  | value
  /-- A reference to a node. -/
  | alias (name : Text)
  /-- The name of the next node. -/
  | anchor (name : Text)
  /-- The tag of the next node. -/
  | tag (spelling : TagSpelling)
  /-- A scalar, plain or not. -/
  | scalar (isPlain : Bool) (text : Text)
  deriving Repr, DecidableEq

/-- A place where a key may begin. -/
structure KeyPlace where
  /-- How many tokens precede it. -/
  tokens : Nat
  /-- Whether the colon must follow. -/
  isRequired : Bool
  /-- How many code points precede it. -/
  index : Nat
  /-- Its line. -/
  line : Nat
  /-- Its column. -/
  column : Nat
  deriving Repr

/-- What is known when a text is cut up to a position. -/
structure Cutting where
  /-- The position. -/
  cursor : Cursor
  /-- The tokens before the position, the last one first. -/
  tokens : List Token
  /-- The columns of the open block collections, the innermost first. -/
  indents : List Nat
  /-- Whether a key may begin at the position. -/
  mayBeKey : Bool
  /-- Where the key of the current level may have begun. -/
  keyPlace : Option KeyPlace
  /-- The same for the levels of brackets around the current one, the innermost first. -/
  outerKeyPlaces : List (Option KeyPlace)

namespace Cutting

/-- The state before a text. -/
def start (t : Text) : Cutting := ⟨.start t, [], [], true, none, []⟩

/-- Whether brackets are open. -/
def inFlow (s : Cutting) : Bool := !s.outerKeyPlaces.isEmpty

/-- Adds a token. -/
def emit (s : Cutting) (token : Token) : Cutting := { s with tokens := token :: s.tokens }

/-- Puts in a token that only so many tokens precede. -/
def emitAt (s : Cutting) (place : Nat) (token : Token) : Cutting :=
  let later := s.tokens.length - place
  { s with tokens := s.tokens.take later ++ token :: s.tokens.drop later }

/-- Moves the position on. -/
def moveTo (s : Cutting) (c : Cursor) : Cutting := { s with cursor := c }

/-- Says whether a key may begin next. -/
def allowKey (s : Cutting) (allowed : Bool) : Cutting := { s with mayBeKey := allowed }

/-- A place for a key that is out of reach is forgotten; its colon may have been required. -/
def refreshKeyPlace (c : Cursor) : Option KeyPlace → Except Fault (Option KeyPlace)
  | none => .ok none
  | some k =>
    if k.line == c.line && c.index ≤ k.index + 1024 then .ok (some k)
    else if k.isRequired then .error .malformed else .ok none

/-- The places for keys that are out of reach are forgotten. -/
def refreshKeyPlaces (s : Cutting) : Except Fault Cutting := do
  .ok { s with
    keyPlace := ← refreshKeyPlace s.cursor s.keyPlace
    outerKeyPlaces := ← s.outerKeyPlaces.mapM (refreshKeyPlace s.cursor) }

/-- The place for a key at the current level is forgotten; its colon may have been required. -/
def dropKeyPlace (s : Cutting) : Except Fault Cutting :=
  match s.keyPlace with
  | some k => if k.isRequired then .error .malformed else .ok { s with keyPlace := none }
  | none => .ok s

/-- The position becomes the place where a key may begin. -/
def markKeyPlace (s : Cutting) : Except Fault Cutting :=
  if !s.mayBeKey then .ok s
  else do
    let s ← s.dropKeyPlace
    let c := s.cursor
    let isRequired := !s.inFlow && s.indents.head? == some c.column
    .ok { s with keyPlace := some ⟨s.tokens.length, isRequired, c.index, c.line, c.column⟩ }

/-- The block collections that are indented deeper than a column, or all, come to their ends. -/
def closeBlocks (column : Option Nat) (s : Cutting) : Cutting :=
  if s.inFlow then s
  else
    let isDeeper (i : Nat) : Bool := column.all (· < i)
    let closed := (s.indents.takeWhile isDeeper).length
    { s with
      indents := s.indents.drop closed
      tokens := List.replicate closed .blockEnd ++ s.tokens }

/-- Whether a collection at a column is deeper than the open ones. -/
def isDeeper (s : Cutting) (column : Nat) : Bool :=
  s.indents.head?.all (· < column)

/-- A block collection begins at the position if that is deeper than the open ones. -/
def openBlock (s : Cutting) (token : Token) : Cutting :=
  let column := s.cursor.column
  if s.isDeeper column then { s.emit token with indents := column :: s.indents } else s

/-- The position after gaps and comments. After a line end outside brackets a key may begin. The
number bounds the turns. -/
def skipGaps : Nat → Cutting → Cutting
  | 0, s => s
  | turns + 1, s =>
    let c := s.cursor.skipComment
    if c.sees isLineEnd then
      skipGaps turns { s with cursor := c.lineBreak.2, mayBeKey := s.mayBeKey || !s.inFlow }
    else s.moveTo c

/-- The mark of a document's start or end. -/
def documentMark (s : Cutting) (token : Token) : Except Fault Cutting := do
  let s ← (s.closeBlocks none).dropKeyPlace
  .ok (((s.allowKey false).moveTo (s.cursor.skip 3)).emit token)

/-- A directive. -/
def directive (s : Cutting) : Except Fault Cutting := do
  let s ← (s.closeBlocks none).dropKeyPlace
  let (d, c) ← Directive.read s.cursor
  .ok (((s.allowKey false).moveTo c).emit (.directive d))

/-- An opening bracket or brace. -/
def openFlow (s : Cutting) (token : Token) : Except Fault Cutting := do
  let s ← s.markKeyPlace
  .ok { s.emit token with
    cursor := s.cursor.next
    mayBeKey := true
    keyPlace := none
    outerKeyPlaces := s.keyPlace :: s.outerKeyPlaces }

/-- A closing bracket or brace. -/
def closeFlow (s : Cutting) (token : Token) : Except Fault Cutting := do
  let s ← s.dropKeyPlace
  match s.outerKeyPlaces with
  | [] => .error .malformed
  | k :: more => .ok { s.emit token with
      cursor := s.cursor.next
      mayBeKey := false
      keyPlace := k
      outerKeyPlaces := more }

/-- A comma between brackets. -/
def flowEntry (s : Cutting) : Except Fault Cutting := do
  let s ← s.dropKeyPlace
  .ok (((s.allowKey true).moveTo s.cursor.next).emit .flowEntry)

/-- A hyphen before an item. -/
def blockEntry (s : Cutting) : Except Fault Cutting :=
  if s.inFlow || !s.mayBeKey then .error .malformed
  else do
    let s ← (s.openBlock .blockSequenceStart).dropKeyPlace
    .ok (((s.allowKey true).moveTo s.cursor.next).emit .blockEntry)

/-- A question mark before a key. -/
def explicitKey (s : Cutting) : Except Fault Cutting :=
  if !s.inFlow && !s.mayBeKey then .error .malformed
  else do
    let s := if s.inFlow then s else s.openBlock .blockMappingStart
    let s ← s.dropKeyPlace
    .ok (((s.allowKey !s.inFlow).moveTo s.cursor.next).emit .key)

/-- A colon before a value, whose key may have begun at a remembered place. -/
def value (s : Cutting) : Except Fault Cutting :=
  match s.keyPlace with
  | some k =>
    let t := { s.emitAt k.tokens .key with keyPlace := none, mayBeKey := false }
    let t := if !s.inFlow && s.isDeeper k.column then
        { t.emitAt k.tokens .blockMappingStart with indents := k.column :: s.indents }
      else t
    .ok ((t.moveTo s.cursor.next).emit .value)
  | none =>
    if !s.inFlow && !s.mayBeKey then .error .malformed
    else
      let s := if s.inFlow then s else s.openBlock .blockMappingStart
      .ok (((s.allowKey !s.inFlow).moveTo s.cursor.next).emit .value)

/-- A token that can begin a key. -/
def keyLike (s : Cutting) (read : Cursor → Except Fault (Token × Cursor)) : Except Fault Cutting := do
  let s ← s.markKeyPlace
  let (token, c) ← read s.cursor
  .ok (((s.allowKey false).moveTo c).emit token)

/-- A plain scalar. -/
def plain (s : Cutting) : Except Fault Cutting := do
  let s ← s.markKeyPlace
  let (text, c, newLine) := Plain.read s.inFlow (s.indents.head?.elim 0 (· + 1)) s.cursor
  .ok (((s.allowKey newLine).moveTo c).emit (.scalar true text))

/-- A block of lines. -/
def block (s : Cutting) (folded : Bool) : Except Fault Cutting := do
  let s ← s.dropKeyPlace
  let (text, c) ← Block.read folded (s.indents.head?.elim 1 (· + 1)) s.cursor
  .ok (((s.allowKey true).moveTo c).emit (.scalar false text))

/-- Whether a plain scalar can begin with a code point that another one follows. -/
def beginsPlain (inFlow : Bool) (c : CodePoint) (follower : Option CodePoint) : Bool :=
  let isMark := isGap c || isAmong "-?:,[]#&*!|>'\"%@" c || c.val == 0x7B || c.val == 0x7D
    || c.val == 0x60
  !isMark || (!endOr isGap follower && (c == '-' || (!inFlow && (c == '?' || c == ':'))))

/-- The next token, which begins with a code point at the position. -/
def step (c : CodePoint) (s : Cutting) : Except Fault Cutting :=
  let follower := s.cursor.rest.tail.head?
  let isAlone := endOr isGap follower
  let atStart := s.cursor.column == 0
  if c == '%' && atStart then s.directive
  else if atStart && isDocumentMark s.cursor.rest then
    s.documentMark (if c == '-' then .documentStart else .documentEnd)
  else if c == '[' then s.openFlow .flowSequenceStart
  else if c.val == 0x7B then s.openFlow .flowMappingStart
  else if c == ']' then s.closeFlow .flowSequenceEnd
  else if c.val == 0x7D then s.closeFlow .flowMappingEnd
  else if c == ',' then s.flowEntry
  else if c == '-' && isAlone then s.blockEntry
  else if c == '?' && (s.inFlow || isAlone) then s.explicitKey
  else if c == ':' && (s.inFlow || isAlone) then s.value
  else if c == '*' then s.keyLike fun c => (readName c.next).map fun (n, c) => (.alias n, c)
  else if c == '&' then s.keyLike fun c => (readName c.next).map fun (n, c) => (.anchor n, c)
  else if c == '!' then s.keyLike fun c => (TagSpelling.read c).map fun (t, c) => (.tag t, c)
  else if c == '|' && !s.inFlow then s.block false
  else if c == '>' && !s.inFlow then s.block true
  else if c == '\'' then s.keyLike fun c => (Quoted.read false c).map fun (t, c) => (.scalar false t, c)
  else if c == '"' then s.keyLike fun c => (Quoted.read true c).map fun (t, c) => (.scalar false t, c)
  else if beginsPlain s.inFlow c follower then s.plain
  else .error .malformed

/-- The tokens of the text after a position. The number bounds the steps. -/
def run : Nat → Cutting → Except Fault (List Token)
  | 0, _ => .error .malformed
  | steps + 1, s => do
    let s ← (skipGaps (s.cursor.rest.length + 1) s).refreshKeyPlaces
    let s := s.closeBlocks (some s.cursor.column)
    match s.cursor.peek? with
    | none => (s.closeBlocks none).dropKeyPlace.map fun s => s.tokens.reverse
    | some c => step c s >>= run steps

end Cutting

/-- The code points that a text may hold. -/
def isAllowed (c : CodePoint) : Bool :=
  let n := c.val
  n == 0x9 || n == 0xA || n == 0xD || (0x20 ≤ n && n ≤ 0x7E) || n == 0x85
    || (0xA0 ≤ n && n ≤ 0xD7FF) || (0xE000 ≤ n && n ≤ 0xFFFD) || 0x10000 ≤ n

/-- The text without a byte-order mark at its start. -/
def withoutMark (t : Text) : Text :=
  match t with
  | [] => []
  | c :: rest => if c.val == 0xFEFF then rest else c :: rest

/-- The tokens of a text. -/
def Token.ofText (t : Text) : Except Fault (List Token) :=
  if t.all isAllowed then
    (Cutting.start (withoutMark t)).run (t.length + 1)
  else .error .malformed

end Yaml

end RouteDocs
