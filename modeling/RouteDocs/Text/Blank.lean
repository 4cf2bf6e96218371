import RouteDocs.Text.CodePoint

/-!
# Blanks and Lines

White space in the sense of Unicode's bidirectional classes and space separators, and the line
boundaries at which a text falls into lines.

## Main Definitions

* `CodePoint.isBlank`: white space
* `CodePoint.isLineBreak`: a code point that ends a line
* `Text.strip`, `Text.stripNumber`: without the blanks at both ends
* `Text.lines`: the lines, without their ends
-/

namespace RouteDocs

namespace CodePoint

/-- White space: the control blanks of ASCII, the information separators, and the spaces and
line separators beyond ASCII. -/
def isBlank (c : CodePoint) : Bool :=
  let n := c.val
  (9 ≤ n && n ≤ 13) || (28 ≤ n && n ≤ 32) || n == 0x85 || n == 0xA0 || n == 0x1680
    || (0x2000 ≤ n && n ≤ 0x200A) || n == 0x2028 || n == 0x2029 || n == 0x202F || n == 0x205F
    || n == 0x3000

/-- The code points that end a line. -/
def isLineBreak (c : CodePoint) : Bool :=
  let n := c.val
  (10 ≤ n && n ≤ 13) || (28 ≤ n && n ≤ 30) || n == 0x85 || n == 0x2028 || n == 0x2029

end CodePoint

namespace Text

/-- The text without blanks at either end. -/
def strip (t : Text) : Text :=
  t.trim CodePoint.isBlank

/-- The text of a number without the blanks at either end, to which the information separators do
not belong. -/
def stripNumber (t : Text) : Text :=
  t.trim fun c => c.isBlank && !(28 ≤ c.val && c.val ≤ 31)

/-- The lines of a text that continues a line begun before; `afterReturn` says that the last
code point was a carriage return, which forms one end with a line feed. -/
def linesFrom (afterReturn : Bool) (line : Text) : Text → List Text
  | [] => if line.isEmpty then [] else [line.reverse]
  | c :: r =>
    if afterReturn && c == '\n' then linesFrom false line r
    else if c.isLineBreak then line.reverse :: linesFrom (c == '\r') [] r
    else linesFrom false (c :: line) r

/-- The lines of a text without their ends; a line end at the very end opens no further line. -/
def lines (t : Text) : List Text :=
  linesFrom false [] t

/-- The text with every line end written as a line feed; `afterReturn` says that a carriage
return stands before it, with which a line feed forms one end. -/
def universalNewlinesFrom (afterReturn : Bool) : Text → Text
  | [] => []
  | c :: r =>
    if c == '\r' then '\n' :: universalNewlinesFrom true r
    else if afterReturn && c == '\n' then universalNewlinesFrom false r
    else c :: universalNewlinesFrom false r

/-- The text with every line end written as a line feed, where a carriage return, alone or
before a line feed, is a line end too. -/
def universalNewlines (t : Text) : Text :=
  universalNewlinesFrom false t

end Text

end RouteDocs
