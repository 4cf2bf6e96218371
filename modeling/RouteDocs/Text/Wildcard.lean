import RouteDocs.Text.CodePoint

/-!
# Wildcard Patterns

File name patterns in which `*` stands for any text, slashes included, `?` for any code point
and `[…]` for one of a set.

## Main Definitions

* `Wildcard.Token`: a piece of a pattern
* `Wildcard.tokens`: the pieces of a written pattern
* `Wildcard.covers`: whether a written pattern describes the whole of a text

## Design Notes

A set is negated by `!`, a hyphen between two members makes a range, and a closing bracket
directly after the opening of a set is a member. A range whose ends are in the wrong order drops
out of its set together with its ends; a set that thereby becomes empty matches nothing, and
everything if it is negated. A bracket that is never closed stands for itself.
-/

namespace RouteDocs

namespace Wildcard

/-- A piece of a pattern. -/
inductive Token where
  /-- Any text. -/
  | anyText
  /-- One code point that satisfies a test. -/
  | one (test : CodePoint → Bool)

/-- Cuts the inside of a set at the hyphens that can form ranges: a chunk ends at the first
hyphen after its first `wait` code points. The last chunk keeps a hyphen at the end of the set. -/
def chunksFrom (chunk : Text) : Nat → Text → List Text
  | _, [] => if chunk.isEmpty then [] else [chunk.reverse]
  | 0, c :: r =>
    if c == '-' then
      if r.isEmpty then [(c :: chunk).reverse] else chunk.reverse :: chunksFrom [] 2 r
    else chunksFrom (c :: chunk) 0 r
  | wait + 1, c :: r => chunksFrom (c :: chunk) wait r

/-- Joins a chunk to the chunks after it: where the ends of the range between them are in the
wrong order, they are dropped and the chunks become one. -/
def joinChunk (chunk : Text) : List Text → List Text
  | [] => [chunk]
  | next :: more =>
    match chunk.getLast?, next with
    | some a, b :: r => if b.val < a.val then (chunk.dropLast ++ r) :: more else chunk :: next :: more
    | _, _ => chunk :: next :: more

/-- The members and range signs of a set, a range sign being `none`. -/
def setItems (inside : Text) : List (Option CodePoint) :=
  let wait := if inside.head? == some ('!' : CodePoint) then 2 else 1
  let chunks := (chunksFrom [] wait inside).foldr joinChunk []
  match chunks with
  | [] => []
  | first :: more => first.map some ++ more.flatMap fun chunk => none :: chunk.map some

/-- The closed ranges of members and range signs; a sign without two ends is a hyphen. -/
def ranges : List (Option CodePoint) → List (CodePoint × CodePoint)
  | [] => []
  | some a :: none :: some b :: r => (a, b) :: ranges r
  | some a :: r => (a, a) :: ranges r
  | none :: r => ('-', '-') :: ranges r

/-- Whether a code point lies in one of several closed ranges. -/
def inSet (set : List (CodePoint × CodePoint)) (c : CodePoint) : Bool :=
  set.any fun (lo, hi) => lo.val ≤ c.val && c.val ≤ hi.val

/-- The piece that a set with a given inside stands for. -/
def setToken (inside : Text) : Token :=
  match setItems inside with
  | [] => .one fun _ => false
  | first :: more =>
    if first == some ('!' : CodePoint) then
      if more.isEmpty then .one fun _ => true else .one fun c => !inSet (ranges more) c
    else .one (inSet (ranges (first :: more)))

/-- The inside of a set whose opening bracket precedes the text, if the set is closed. -/
def setInside? (t : Text) : Option Text :=
  let start := if t.head? == some ('!' : CodePoint) then 1 else 0
  let start := if (t.drop start).head? == some (']' : CodePoint) then start + 1 else start
  let middle := (t.drop start).takeWhile fun c : CodePoint => c != ']'
  if start + middle.length < t.length then some (t.take start ++ middle) else none

/-- The pieces of a written pattern of which the first code points are passed over. -/
def tokensAfter : Nat → Text → List Token
  | _, [] => []
  | skip + 1, _ :: r => tokensAfter skip r
  | 0, c :: r =>
    if c == '*' then .anyText :: tokensAfter 0 r
    else if c == '?' then .one (fun _ => true) :: tokensAfter 0 r
    else if c == '[' then
      match setInside? r with
      | some inside => setToken inside :: tokensAfter (inside.length + 1) r
      | none => .one (· == c) :: tokensAfter 0 r
    else .one (· == c) :: tokensAfter 0 r

/-- The pieces of a written pattern. -/
def tokens (pattern : Text) : List Token :=
  tokensAfter 0 pattern

/-- Whether a test holds of a text or of what is left after some of its first code points. -/
def anyTail (test : Text → Bool) : Text → Bool
  | [] => test []
  | c :: r => test (c :: r) || anyTail test r

/-- Whether pieces describe the whole of a text. -/
def tokensMatch : List Token → Text → Bool
  | [], t => t.isEmpty
  | .anyText :: more, t => anyTail (tokensMatch more) t
  | .one test :: more, t =>
    match t with
    | [] => false
    | c :: r => test c && tokensMatch more r

/-- Whether a written pattern describes the whole of a text. -/
def covers (pattern t : Text) : Bool :=
  tokensMatch (tokens pattern) t

end Wildcard

end RouteDocs
