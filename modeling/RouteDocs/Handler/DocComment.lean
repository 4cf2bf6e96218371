import RouteDocs.Text.Blank

/-!
# Documentation Comments

The comment that is attached to a handler: the nearest one before it, with nothing but blanks and
line comments in between.

## Main Definitions

* `DocComment.before?`: the comment attached to a place
* `DocComment.lines`: the lines of a comment without their decoration
* `DocComment.isGap`: what may stand between a comment and what it describes
-/

namespace RouteDocs

/-- A documentation comment in a text. -/
structure DocComment where
  /-- The number of code points before the comment. -/
  start : Nat
  /-- The number of code points up to the end of the comment. -/
  stop : Nat
  /-- What stands between the opening and the closing mark. -/
  body : Text
  deriving Repr, DecidableEq

namespace DocComment

/-- How far a gap has been read: at a blank place, after one slash, or within a line comment. -/
inductive GapState where
  | blank | slash | comment
  deriving Repr, DecidableEq

/-- Whether a text continues a gap to its end. -/
def isGapFrom : GapState → Text → Bool
  | .slash, [] => false
  | _, [] => true
  | .blank, c :: r =>
    if c.isBlank then isGapFrom .blank r
    else if c == '/' then isGapFrom .slash r
    else false
  | .slash, c :: r => c == '/' && isGapFrom .comment r
  | .comment, c :: r => isGapFrom (if c == '\n' then .blank else .comment) r

/-- Whether a text consists of blanks and line comments. -/
def isGap (t : Text) : Bool :=
  isGapFrom .blank t

/-- The first code points of a text; a negative number counts from the end. -/
def takeTo (t : Text) (offset : Int) : Text :=
  match offset with
  | .ofNat n => t.take n
  | .negSucc n => t.take (t.length - (n + 1))

/-- The documentation comment attached to a place of a text. -/
def before? (content : Text) (offset : Int) : Option DocComment := do
  let text := takeTo content offset
  let close ← Text.lastIndexOf? "*/" text
  guard (isGap (text.drop (close + 2)))
  let start ← Text.lastIndexOf? "/**" (text.take close)
  let body := (text.take close).drop (start + 3)
  guard (!Text.hasPart "*/" body)
  pure ⟨start, close + 2, body⟩

/-- A line of a comment without blanks around it and without a star in front. -/
def bareLine (line : Text) : Text :=
  match line.strip with
  | [] => []
  | c :: r => if c == '*' then Text.strip r else c :: r

/-- The lines of a comment that say something. -/
def lines (body : Text) : List Text :=
  (body.lines.map bareLine).filter fun line => !line.isEmpty

end DocComment

end RouteDocs
