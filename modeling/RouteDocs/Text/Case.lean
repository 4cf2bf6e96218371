import RouteDocs.Text.Word
import RouteDocs.Text.CaseTable

/-!
# Letter Case

Lower, upper and title case of texts with Unicode's full mappings, in which one code point can
become several and a sigma at the end of a word has a form of its own.

## Main Definitions

* `Text.lower`, `CodePoint.upper`, `Text.capitalize`: the full mappings
* `CodePoint.simpleLower`: the mapping to one code point
* `CodePoint.sameLetter`: equality of letters without regard to case
-/

namespace RouteDocs

namespace CodePoint

/-- The lower case of a code point where it is one code point. -/
def simpleLower (c : CodePoint) : CodePoint :=
  if c.val < 0x80 then if 0x41 ≤ c.val ∧ c.val ≤ 0x5A then ofNat (c.val + 32) else c
  else if c.val == 0x130 then 'i'
  else ofNat (CaseRun.apply c.val lowerRuns)

/-- The upper case of a code point. -/
def upper (c : CodePoint) : Text :=
  if c.val < 0x80 then if 0x61 ≤ c.val ∧ c.val ≤ 0x7A then [ofNat (c.val - 32)] else [c]
  else match upperSpecial.lookup c.val with
    | some image => image.map ofNat
    | none => [ofNat (CaseRun.apply c.val upperRuns)]

/-- The title case of a code point. -/
def title (c : CodePoint) : Text :=
  if c.val < 0x80 then c.upper
  else match titleSpecial.lookup c.val with
    | some image => image.map ofNat
    | none => c.upper

/-- Upper-case code points. -/
def isUpper (c : CodePoint) : Bool :=
  inRanges c.val uppercaseRanges

/-- Whether the nearest code point that is not case-ignorable is cased. -/
def nearestIsCased : Text → Bool
  | [] => false
  | c :: r => if inRanges c.val caseIgnorableRanges then nearestIsCased r
    else inRanges c.val casedRanges

/-- Whether a code point is the given lower-case ASCII letter without regard to case: the long
s and the dotless i count as the letters they vary. -/
def sameLetter (letter c : CodePoint) : Bool :=
  c.simpleLower == letter || (letter == 's' && c.val == 0x17F) || (letter == 'i' && c.val == 0x131)

end CodePoint

namespace Text

/-- The lower case of a code point within a text, given what stands before it, the nearest
first, and what stands after it. -/
def lowerAt (before : Text) (c : CodePoint) (after : Text) : Text :=
  if c.val == 0x3A3 then
    if CodePoint.nearestIsCased before && !CodePoint.nearestIsCased after then ['ς'] else ['σ']
  else if c.val == 0x130 then ['i', CodePoint.ofNat 0x307]
  else [c.simpleLower]

/-- The lower case of a text that follows another one, of which the nearest code point comes
first. -/
def lowerAfter (before : Text) : Text → Text
  | [] => []
  | c :: r => lowerAt before c r ++ lowerAfter (c :: before) r

/-- The lower case of a text. -/
def lower (t : Text) : Text :=
  lowerAfter [] t

/-- The text with its first code point in title case and the others in lower case. -/
def capitalize : Text → Text
  | [] => []
  | c :: r => c.title ++ lowerAfter [c] r

/-- The text with its first code point in upper case. -/
def upperFirst : Text → Text
  | [] => []
  | c :: r => c.upper ++ r

end Text

end RouteDocs
