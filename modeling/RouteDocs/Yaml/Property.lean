import RouteDocs.Text.Utf8
import RouteDocs.Yaml.Cursor

/-!
# Names, Tags and Directives

Reads what a YAML text says about its nodes besides their content.

## Main Definitions

* `Yaml.readName`: the name of an anchor or an alias
* `Yaml.TagSpelling`: a tag as it is written
* `Yaml.TagSpelling.read`: a tag at a position
* `Yaml.Directive`: a line that begins with `%`
* `Yaml.Directive.read`: a directive at a position

## Design Notes

Names consist of ASCII letters, digits, hyphens and underscores. In a tag, a percent sign and two
hexadecimal digits stand for a byte, and such bytes must form UTF-8.
-/

namespace RouteDocs

namespace Yaml

/-- The code points of names. -/
def isNamePart (c : CodePoint) : Bool :=
  c.isAsciiLetter || c.isAsciiDigit || c == '-' || c == '_'

/-- Spaces and the code points that end a line. -/
def isSpaceOrLineEnd (c : CodePoint) : Bool := c == ' ' || isLineEnd c

/-- Whether one of the characters of a string is a code point. -/
def isAmong (chars : String) (c : CodePoint) : Bool :=
  chars.toList.any fun x => c == x

/-- The name at the position after `&` or `*`, and the position after it. -/
def readName (c : Cursor) : Except Fault (Text × Cursor) :=
  let name := c.run isNamePart
  let c := c.skipRun isNamePart
  if name.isEmpty then .error .malformed
  else if endOr (fun x => isGap x || isAmong "?:,]%@" x || x.val == 0x7D || x.val == 0x60) c.peek?
  then .ok (name, c)
  else .error .malformed

/-- A tag as it is written: a handle, unless the tag is written in full, and the rest. -/
structure TagSpelling where
  /-- The handle, which stands for the beginning of the tag. -/
  handle : Option Text
  /-- The rest of the tag. -/
  rest : Text
  deriving Repr, DecidableEq

namespace TagSpelling

/-- The code points of tags. -/
def isTagPart (c : CodePoint) : Bool :=
  c.isAsciiLetter || c.isAsciiDigit || isAmong "-;/?:@&=+$,_.!~*'()[]%" c

/-- The bytes that percent signs with two hexadecimal digits each stand for, and the text after
them. -/
def percentBytes : Text → Except Fault (List UInt8 × Text)
  | x :: a :: b :: rest =>
    if x != '%' then .ok ([], x :: a :: b :: rest)
    else match a.hexValue?, b.hexValue? with
      | some high, some low => do
        let (bytes, rest) ← percentBytes rest
        .ok ((16 * high + low).toUInt8 :: bytes, rest)
      | _, _ => .error .malformed
  | t => if t.head? == some '%' then .error .malformed else .ok ([], t)

/-- The text of a tag in which percent signs stand for bytes. The number bounds the turns. -/
def unescape : Nat → Text → Except Fault Text
  | 0, _ => .error .malformed
  | _ + 1, [] => .ok []
  | turns + 1, x :: t =>
    if x == '%' then do
      let (bytes, rest) ← percentBytes (x :: t)
      match Utf8.decode bytes with
      | .ok part => (unescape turns rest).map (part ++ ·)
      | .error _ => .error .malformed
    else (unescape turns t).map (x :: ·)

/-- The text of a tag at a position, which is not empty, and the position after it. -/
def readUri (c : Cursor) : Except Fault (Text × Cursor) := do
  let uri := c.run isTagPart
  if uri.isEmpty then .error .malformed
  else .ok (← unescape (uri.length + 1) uri, c.skip uri.length)

/-- The handle at a position: an exclamation mark, or a name between two of them. -/
def readHandle (c : Cursor) : Except Fault (Text × Cursor) :=
  match c.rest with
  | [] => .error .malformed
  | x :: rest =>
    if x != '!' then .error .malformed
    else if rest.head? == some ' ' then .ok ([x], c.next)
    else
      let name := rest.takeWhile isNamePart
      if (rest.drop name.length).head? == some '!' then
        .ok (x :: name ++ ("!" : Text), c.skip (name.length + 2))
      else .error .malformed

/-- The tag at the position of its `!`, and the position after it. -/
def read (c : Cursor) : Except Fault (TagSpelling × Cursor) := do
  let after := c.next
  let (tag, c) ←
    if after.sees (· == '<') then do
      let (uri, c) ← readUri after.next
      if c.sees (· == '>') then .ok (TagSpelling.mk none uri, c.next) else .error .malformed
    else if endOr isGap after.peek? then .ok (⟨none, "!"⟩, after)
    else do
      let hasHandle := (after.run fun x => !isSpaceOrLineEnd x).any (· == '!')
      let (handle, c) ← if hasHandle then readHandle c else .ok (("!" : Text), after)
      let (uri, c) ← readUri c
      .ok (⟨some handle, uri⟩, c)
  if endOr isSpaceOrLineEnd c.peek? then .ok (tag, c) else .error .malformed

end TagSpelling

/-- A line that begins with `%`. -/
inductive Directive where
  /-- The version of YAML, of which the first part is given. -/
  | version (major : Nat)
  /-- What a handle of tags stands for. -/
  | handle (name meaning : Text)
  /-- A directive without a meaning. -/
  | other
  deriving Repr, DecidableEq

namespace Directive

/-- The digits at a position, of which there is at least one, and the position after them. -/
def readNumber (c : Cursor) : Except Fault (Nat × Cursor) :=
  let digits := c.run CodePoint.isAsciiDigit
  if digits.isEmpty then .error .malformed
  else .ok (digits.foldl (fun n d => 10 * n + (d.val - 0x30)) 0, c.skip digits.length)

/-- The version at a position: two numbers with a point between them. -/
def readVersion (c : Cursor) : Except Fault (Directive × Cursor) := do
  let (major, c) ← readNumber (c.skipRun (· == ' '))
  if !c.sees (· == '.') then .error .malformed
  else
    let (_, c) ← readNumber c.next
    if endOr isSpaceOrLineEnd c.peek? then .ok (version major, c) else .error .malformed

/-- A handle at a position and what it stands for. -/
def readMeaning (c : Cursor) : Except Fault (Directive × Cursor) := do
  let (name, c) ← TagSpelling.readHandle (c.skipRun (· == ' '))
  if !c.sees (· == ' ') then .error .malformed
  else
    let (meaning, c) ← TagSpelling.readUri (c.skipRun (· == ' '))
    if endOr isSpaceOrLineEnd c.peek? then .ok (handle name meaning, c) else .error .malformed

/-- The directive at the position of its `%`, and the position of the next line. -/
def read (c : Cursor) : Except Fault (Directive × Cursor) := do
  let c := c.next
  let name := c.run isNamePart
  let c := c.skip name.length
  if name.isEmpty || !endOr isSpaceOrLineEnd c.peek? then .error .malformed
  else
    let (directive, c) ←
      if name == "YAML" then readVersion c
      else if name == "TAG" then readMeaning c
      else .ok (other, c.skipRun fun x => !isLineEnd x)
    .ok (directive, ← c.finishLine)

end Directive

end Yaml

end RouteDocs
