import RouteDocs.Text.CodePoint

/-!
# Similar Texts

How much two texts have in common, and which of some words resemble a misspelt one.

## Main Definitions

* `Text.LongestMatch`: the longest part that two texts share
* `Text.commonCount`: how many code points two texts have in common, in the same order
* `Text.resembling`: the words that resemble a text

## Design Notes

The longest common part is taken first, the leftmost one of several, and then what is common to
the texts before it and to those after it. Two texts resemble each other if at least three fifths
of their code points are common.
-/

namespace RouteDocs

namespace Text

/-- A part that two texts share. -/
structure LongestMatch where
  /-- How many code points precede it in the first text. -/
  left : Nat
  /-- How many code points precede it in the second text. -/
  right : Nat
  /-- Its length. -/
  length : Nat
  deriving Repr, DecidableEq

/-- The length of the common beginning of two texts. -/
def commonStart : Text → Text → Nat
  | a :: s, b :: t => if a == b then commonStart s t + 1 else 0
  | _, _ => 0

/-- The longest common part of two texts that begins where the first one does, unless another one
is at least as long. -/
def longestAt (left : Nat) (s : Text) : Nat → Text → LongestMatch → LongestMatch
  | _, [], best => best
  | right, b :: t, best =>
    let n := commonStart s (b :: t)
    longestAt left s (right + 1) t (if best.length < n then ⟨left, right, n⟩ else best)

/-- The longest common part of two texts, unless another one is at least as long. -/
def longestFrom (t : Text) : Nat → Text → LongestMatch → LongestMatch
  | _, [], best => best
  | left, a :: s, best => longestFrom t (left + 1) s (longestAt left (a :: s) 0 t best)

/-- The longest common part of two texts, the leftmost one of several. -/
def longestMatch (s t : Text) : LongestMatch :=
  longestFrom t 0 s ⟨0, 0, 0⟩

/-- How many code points two texts have in common. The number bounds the parts looked at. -/
def commonCountWithin : Nat → Text → Text → Nat
  | 0, _, _ => 0
  | rounds + 1, s, t =>
    let m := longestMatch s t
    if m.length == 0 then 0
    else commonCountWithin rounds (s.take m.left) (t.take m.right) + m.length
      + commonCountWithin rounds (s.drop (m.left + m.length)) (t.drop (m.right + m.length))

/-- How many code points two texts have in common, in the same order. -/
def commonCount (s t : Text) : Nat :=
  commonCountWithin (s.length + 1) s t

/-- Whether at least three fifths of the code points of two texts are common. -/
def resembles (s t : Text) : Bool :=
  3 * (s.length + t.length) ≤ 10 * commonCount s t

/-- Whether a word resembles a text more than another word does; of equal ones the later word
comes first. -/
def closer (t v w : Text) : Bool :=
  let a := commonCount v t * (w.length + t.length)
  let b := commonCount w t * (v.length + t.length)
  b < a || (a == b && !lt v w)

/-- The three words that resemble a text most, in the order of words. -/
def resembling (words : List Text) (t : Text) : List Text :=
  sort (((words.filter (resembles · t)).mergeSort (closer t)).take 3)

end Text

end RouteDocs
