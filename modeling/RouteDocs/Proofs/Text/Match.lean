import RouteDocs.Proofs.Text.Reads

/-!
# Matches of Patterns

Where a pattern is found in a text, and with what code point a match begins.

## Main Definitions

* `Pattern.StartsIn`: every match of a pattern begins with a code point of a class
* `Pattern.Needs`: every match of a pattern holds a code point

## Main Statements

* `Pattern.find?_sound`: the pattern matches where it is found, and the text goes on from there
* `Pattern.find?_start_le`: what is searched for is found within the text
* `Pattern.getElem?_find?`: where a pattern that starts in a class is found, a code point of the
  class stands
* `Pattern.Needs.covers_eq_false`: a text without a code point that is needed is not covered
-/

namespace RouteDocs

namespace Pattern

variable {p q : Pattern} {cls : CodePoint → Bool} {t : Text} {m : Match} {x : CodePoint}

/-! ### Where a Match Begins -/

/-- A match begins where it was looked for. -/
theorem matchAt?_start {c : Cursor} (h : p.matchAt? c = some m) : m.start = c := by
  obtain ⟨hit, -, rfl⟩ := Option.map_eq_some_iff.mp h
  rfl

/-- What is searched for matches at a place of the text that was searched. -/
theorem findFrom?_sound {seen rest : Text} (found : p.findFrom? seen rest = some m) :
    m.start.seen.reverse ++ m.start.rest = seen.reverse ++ rest ∧
      p.matchAt? m.start = some m := by
  induction rest generalizing seen with
  | nil =>
      have start : m.start = ⟨seen, []⟩ := matchAt?_start found
      rw [start]
      exact ⟨rfl, found⟩
  | cons c r ih =>
      rw [findFrom?] at found
      split at found
      · next here =>
        cases found
        have start : m.start = ⟨seen, c :: r⟩ := matchAt?_start here
        rw [start]
        exact ⟨rfl, here⟩
      · have later := ih found
        rwa [List.reverse_cons, List.append_assoc, List.singleton_append] at later

/-- **A pattern matches where it is found**, and the text goes on from there. -/
theorem find?_sound (found : p.find? t = some m) :
    m.start.rest = t.drop m.start.offset ∧ p.matchAt? m.start = some m := by
  obtain ⟨whole, matched⟩ := findFrom?_sound found
  have whole : m.start.seen.reverse ++ m.start.rest = t := whole
  refine ⟨?_, matched⟩
  rw [← whole, Cursor.offset, ← List.length_reverse, List.drop_left]

/-- **What is searched for is found within the text.** -/
theorem find?_start_le (found : p.find? t = some m) : m.start.offset ≤ t.length := by
  have whole : m.start.seen.reverse ++ m.start.rest = t := (findFrom?_sound found).1
  rw [← whole, List.length_append, List.length_reverse]
  exact Nat.le_add_right _ _

/-! ### The First Code Point of a Match -/

/-- Every match of a pattern begins with a code point of a class. -/
def StartsIn (cls : CodePoint → Bool) (p : Pattern) : Prop :=
  ∀ c gs k hit, p.runAt c gs k = some hit → ∃ d r, c.rest = d :: r ∧ cls d = true

theorem startsIn_one (cls : CodePoint → Bool) : StartsIn cls (one cls) := by
  rintro ⟨seen, rest⟩ gs k hit run
  cases rest with
  | nil => cases run
  | cons d r =>
      rw [runAt, Option.ite_none_right_eq_some] at run
      exact ⟨d, r, rfl, run.1⟩

/-- A piece and another one after it start as the first of the two. -/
theorem StartsIn.append (starts : StartsIn cls p) (q : Pattern) : StartsIn cls (p ++ q) :=
  fun c gs k hit run => starts c gs (fun d hs => q.runAt d hs k) hit run

/-- A given text starts with its first code point. -/
theorem startsIn_lit (x : CodePoint) (t : Text) : StartsIn (· == x) (lit (x :: t)) := by
  cases t with
  | nil => exact startsIn_one _
  | cons y r => exact (startsIn_one (· == x)).append (lit (y :: r))

theorem StartsIn.mono {cls' : CodePoint → Bool} (starts : StartsIn cls p)
    (within : ∀ d, cls d = true → cls' d = true) : StartsIn cls' p := by
  intro c gs k hit run
  obtain ⟨d, r, rest, inClass⟩ := starts c gs k hit run
  exact ⟨d, r, rest, within d inClass⟩

/-- Either of two pieces starts as the one or the other. -/
theorem StartsIn.alt (first : StartsIn cls p) (second : StartsIn cls q) :
    StartsIn cls (Pattern.alt p q) := by
  intro c gs k hit run
  rw [runAt] at run
  split at run
  · next found => exact first c gs k _ found
  · exact second c gs k hit run

/-- **Where a pattern that starts in a class is found, a code point of the class stands.** -/
theorem getElem?_find? (starts : StartsIn cls p) (found : p.find? t = some m) :
    ∃ c, t[m.start.offset]? = some c ∧ cls c = true := by
  obtain ⟨rest, matched⟩ := find?_sound found
  obtain ⟨hit, run, -⟩ := Option.map_eq_some_iff.mp matched
  obtain ⟨c, r, first, inClass⟩ := starts _ _ _ hit run
  refine ⟨c, ?_, inClass⟩
  rw [← List.head?_drop, ← rest, first]
  rfl

/-! ### What a Match Needs -/

/-- Every match of a pattern holds a code point. -/
def Needs (x : CodePoint) (p : Pattern) : Prop :=
  ∀ c gs k hit, p.runAt c gs k = some hit → x ∈ c.rest

theorem needs_one (only : ∀ d, cls d = true → d = x) : Needs x (one cls) := by
  intro c gs k hit found
  obtain ⟨d, r, rest, inClass⟩ := startsIn_one cls c gs k hit found
  rw [rest, only d inClass]
  exact List.mem_cons_self

theorem needs_lit (mem : x ∈ t) : Needs x (lit t) := by
  intro c gs k hit h
  obtain ⟨y, read, -⟩ := (explores (lit t)).sound (x := (c, gs)) h
  rw [show c.rest = t ++ y.1.rest from read.of_lit.1.rest]
  exact List.mem_append_left _ mem

theorem Needs.left (needs : Needs x p) (q : Pattern) : Needs x (p ++ q) :=
  fun c gs k hit h => needs c gs (fun d hs => q.runAt d hs k) hit h

theorem Needs.right (p : Pattern) (needs : Needs x q) : Needs x (p ++ q) := by
  intro c gs k hit h
  obtain ⟨y, read, more⟩ := (explores p).sound (x := (c, gs)) h
  obtain ⟨w, passes⟩ := read.exists_passes
  rw [show c.rest = w ++ y.1.rest from passes.rest]
  exact List.mem_append_right w (needs _ _ _ _ more)

theorem Needs.alt (first : Needs x p) (second : Needs x q) : Needs x (alt p q) := by
  intro c gs k hit h
  rw [runAt] at h
  split at h
  · next found =>
    cases h
    exact first _ _ _ _ found
  · exact second _ _ _ _ h

/-- **A text without a code point that is needed is not covered.** -/
theorem Needs.covers_eq_false (needs : Needs x p) (absent : x ∉ t) : p.covers t = false := by
  rw [Bool.eq_false_iff]
  intro covered
  obtain ⟨m, found⟩ := Option.isSome_iff_exists.mp covered
  obtain ⟨hit, run, -⟩ := Option.map_eq_some_iff.mp found
  exact absent (needs _ _ _ _ run)

end Pattern

end RouteDocs
