import RouteDocs.Text.Blank
import RouteDocs.Text.Word
import RouteDocs.Text.Case
import RouteDocs.Text.Digit

/-!
# Text Patterns

Patterns that describe pieces of source text, and the search for them. A pattern can match at a
place in several ways; the ways are tried in a fixed order and the first one after which the
rest of the pattern matches too is taken.

## Main Definitions

* `Cursor`: a place in a text
* `Pattern`: the patterns
* `Pattern.run`: the first way to match, judged by a continuation
* `Pattern.find?`, `Pattern.findAll`: the leftmost match, and all that do not overlap
* `Match.group?`: the text of a named part of a match

## Design Notes

A run of code points is a constructor of its own, so that matching recurses on the text. Other
repetitions are counted down from the length of the text that is left, which bounds them because
every round must consume something.
-/

namespace RouteDocs

/-- A place in a text: what stands before it, the nearest code point first, and what follows. -/
structure Cursor where
  /-- The code points before the place, the nearest first. -/
  seen : Text
  /-- The code points after the place. -/
  rest : Text

namespace Cursor

/-- The place before a text. -/
def start (t : Text) : Cursor := ⟨[], t⟩

/-- The number of code points before the place. -/
def offset (c : Cursor) : Nat := c.seen.length

/-- The text from one place to a later one of the same text. -/
def textUntil (c d : Cursor) : Text :=
  c.rest.take (d.offset - c.offset)

/-- Whether exactly one of the two neighbours is a word character. -/
def isWordEdge (c : Cursor) : Bool :=
  (c.seen.head?.any CodePoint.isWord) != (c.rest.head?.any CodePoint.isWord)

end Cursor

/-- Descriptions of pieces of text. -/
inductive Pattern where
  /-- The empty piece. -/
  | empty
  /-- One code point of a class. -/
  | one (cls : CodePoint → Bool)
  /-- Any number of code points of a class, the longest run first. -/
  | run (cls : CodePoint → Bool)
  /-- Any number of code points of a class, the shortest run first. -/
  | shortRun (cls : CodePoint → Bool)
  /-- One piece after another. -/
  | seq (p q : Pattern)
  /-- Either of two pieces, the first one preferred. -/
  | alt (p q : Pattern)
  /-- Any number of nonempty pieces, as many as possible. -/
  | star (p : Pattern)
  /-- A piece that is remembered under a number. -/
  | group (n : Nat) (p : Pattern)
  /-- The empty piece where another piece does, or does not, follow. -/
  | follows (expected : Bool) (p : Pattern)
  /-- The empty piece where the code point before is not of a class. -/
  | notAfter (cls : CodePoint → Bool)
  /-- The empty piece between a word character and something else. -/
  | wordEdge

/-- The remembered pieces: number, beginning and end, the latest first. -/
abbrev Groups := List (Nat × Cursor × Cursor)

/-- A finished attempt: the place reached and the remembered pieces. -/
abbrev Hit := Cursor × Groups

namespace Pattern

instance : Append Pattern := ⟨seq⟩

/-- A given text. -/
def lit : Text → Pattern
  | [] => empty
  | [c] => one (· == c)
  | c :: r => seq (one (· == c)) (lit r)

/-- A given text in lower-case ASCII, met in any letter case. -/
def caseless : Text → Pattern
  | [] => empty
  | c :: r => seq (one (CodePoint.sameLetter c)) (caseless r)

/-- The first of several pieces that fits. -/
def oneOf : List Pattern → Pattern
  | [] => follows false empty
  | [p] => p
  | p :: more => alt p (oneOf more)

/-- A piece or nothing, the piece preferred. -/
def optional (p : Pattern) : Pattern := alt p empty

/-- At least one code point of a class, the longest run first. -/
def run1 (cls : CodePoint → Bool) : Pattern := one cls ++ run cls

/-- Any number of blanks. -/
def blanks : Pattern := run CodePoint.isBlank

/-- At least one blank. -/
def blanks1 : Pattern := run1 CodePoint.isBlank

/-- At least one word character. -/
def word1 : Pattern := run1 CodePoint.isWord

/-- Three decimal digits. -/
def threeDigits : Pattern :=
  one CodePoint.isDigit ++ one CodePoint.isDigit ++ one CodePoint.isDigit

/-- Tries the runs of a class from the longest to the empty one. -/
def runFrom (cls : CodePoint → Bool) (k : Cursor → Option Hit) (seen : Text) :
    Text → Option Hit
  | [] => k ⟨seen, []⟩
  | c :: r =>
    if cls c then
      match runFrom cls k (c :: seen) r with
      | some hit => some hit
      | none => k ⟨seen, c :: r⟩
    else k ⟨seen, c :: r⟩

/-- Tries the runs of a class from the empty one to the longest. -/
def shortRunFrom (cls : CodePoint → Bool) (k : Cursor → Option Hit) (seen : Text) :
    Text → Option Hit
  | [] => k ⟨seen, []⟩
  | c :: r =>
    match k ⟨seen, c :: r⟩ with
    | some hit => some hit
    | none => if cls c then shortRunFrom cls k (c :: seen) r else none

/-- Tries the repetitions of a step, up to a number of rounds and the longest first; a round
that consumes nothing does not count. -/
def starFrom (step : Cursor → Groups → (Cursor → Groups → Option Hit) → Option Hit)
    (k : Cursor → Groups → Option Hit) : Nat → Cursor → Groups → Option Hit
  | 0, c, gs => k c gs
  | n + 1, c, gs =>
    match step c gs fun d hs =>
        if d.rest.length < c.rest.length then starFrom step k n d hs else none with
    | some hit => some hit
    | none => k c gs

/-- The first way to match a pattern at a place for which the continuation succeeds. -/
def runAt : Pattern → Cursor → Groups → (Cursor → Groups → Option Hit) → Option Hit
  | empty, c, gs, k => k c gs
  | one cls, c, gs, k =>
    match c.rest with
    | [] => none
    | d :: r => if cls d then k ⟨d :: c.seen, r⟩ gs else none
  | run cls, c, gs, k => runFrom cls (k · gs) c.seen c.rest
  | shortRun cls, c, gs, k => shortRunFrom cls (k · gs) c.seen c.rest
  | seq p q, c, gs, k => p.runAt c gs fun d hs => q.runAt d hs k
  | alt p q, c, gs, k =>
    match p.runAt c gs k with
    | some hit => some hit
    | none => q.runAt c gs k
  | star p, c, gs, k => starFrom p.runAt k c.rest.length c gs
  | group n p, c, gs, k => p.runAt c gs fun d hs => k d ((n, c, d) :: hs)
  | follows expected p, c, gs, k =>
    if (p.runAt c gs fun d hs => some (d, hs)).isSome == expected then k c gs else none
  | notAfter cls, c, gs, k => if c.seen.head?.any cls then none else k c gs
  | wordEdge, c, gs, k => if c.isWordEdge then k c gs else none

/-- A place where a pattern matched: beginning, end and remembered pieces. -/
structure Match where
  /-- The beginning of the match. -/
  start : Cursor
  /-- The end of the match. -/
  stop : Cursor
  /-- The remembered pieces. -/
  groups : Groups

namespace Match

/-- The matched text. -/
def text (m : Match) : Text := m.start.textUntil m.stop

/-- The text remembered under a number, if that part of the pattern took part. -/
def group? (m : Match) (n : Nat) : Option Text :=
  (m.groups.lookup n).map fun (c, d) => c.textUntil d

/-- The text remembered under a number, empty if that part took no part. -/
def group (m : Match) (n : Nat) : Text := (m.group? n).getD []

end Match

/-- The match of a pattern that begins at a place. -/
def matchAt? (p : Pattern) (c : Cursor) : Option Match :=
  (p.runAt c [] fun d gs => some (d, gs)).map fun (d, gs) => ⟨c, d, gs⟩

/-- The match of a pattern with the whole of a text. -/
def matchAll? (p : Pattern) (t : Text) : Option Match :=
  let start := Cursor.start t
  (p.runAt start [] fun d gs => if d.rest.isEmpty then some (d, gs) else none).map fun (d, gs) =>
    ⟨start, d, gs⟩

/-- Whether a pattern matches the whole of a text. -/
def covers (p : Pattern) (t : Text) : Bool :=
  (p.matchAll? t).isSome

/-- The leftmost match of a pattern in the rest of a text. -/
def findFrom? (p : Pattern) (seen : Text) : Text → Option Match
  | [] => p.matchAt? ⟨seen, []⟩
  | c :: r =>
    match p.matchAt? ⟨seen, c :: r⟩ with
    | some m => some m
    | none => findFrom? p (c :: seen) r

/-- The leftmost match of a pattern in a text. -/
def find? (p : Pattern) (t : Text) : Option Match :=
  p.findFrom? [] t

/-- Whether a pattern matches anywhere in a text. -/
def occursIn (p : Pattern) (t : Text) : Bool :=
  (p.find? t).isSome

/-- The matches from a place onwards, at most a number of them; after an empty match the search
moves on by one code point. -/
def findAllFrom (p : Pattern) : Nat → Cursor → List Match
  | 0, _ => []
  | n + 1, c =>
    match p.findFrom? c.seen c.rest with
    | none => []
    | some m =>
      if m.stop.rest.length < m.start.rest.length then m :: findAllFrom p n m.stop
      else match m.stop.rest with
        | [] => [m]
        | d :: r => m :: findAllFrom p n ⟨d :: m.stop.seen, r⟩

/-- The leftmost matches that do not overlap, in order. -/
def findAll (p : Pattern) (t : Text) : List Match :=
  p.findAllFrom (t.length + 1) (Cursor.start t)

end Pattern

end RouteDocs
