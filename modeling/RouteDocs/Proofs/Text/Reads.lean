import Mathlib.Data.List.Forall2
import Mathlib.Logic.Relation
import RouteDocs.Text.Pattern

/-!
# What Patterns Read

Which pieces of a text a pattern describes, said without the order in which the ways to match are
tried, and that matching tries them all.

## Main Definitions

* `Cursor.Passes`: a piece of text lies between two places
* `Pattern.Reads`: a pattern describes what lies between two places
* `Pattern.Explores`: a step of matching tries all places that a relation leads to, and no others

## Main Statements

* `Pattern.explores`: **matching tries exactly what the pattern reads**
* `Pattern.Reads.exists_passes`: what is read is a piece of the text
* `Pattern.Reads.groups_eq`: what remembers nothing leaves the remembered pieces as they are
* `Pattern.Reads.of_lit`, `Pattern.Reads.of_caseless`, `Pattern.Reads.of_run1`,
  `Pattern.Reads.of_threeDigits`: what given texts, runs and digits read

## Design Notes

A match is judged by a continuation, so that there is no set of results to compare a relation with.
What is compared instead is success: an attempt succeeds by one of the places that the relation
leads to, and if it fails, the continuation fails at all of them.
-/

namespace RouteDocs

/-- A piece of text lies between two places. -/
structure Cursor.Passes (w : Text) (c d : Cursor) : Prop where
  /-- The piece comes first in what follows. -/
  rest : c.rest = w ++ d.rest
  /-- The piece stands right before the later place. -/
  seen : d.seen = w.reverse ++ c.seen

namespace Cursor

variable {w w' : Text} {c d e : Cursor} {x : CodePoint}

theorem Passes.refl (c : Cursor) : Passes [] c c := ⟨rfl, rfl⟩

theorem Passes.trans (first : Passes w c d) (second : Passes w' d e) : Passes (w ++ w') c e where
  rest := by rw [first.rest, second.rest, List.append_assoc]
  seen := by rw [second.seen, first.seen, List.reverse_append, List.append_assoc]

theorem passes_cons (seen : Text) (x : CodePoint) (rest : Text) :
    Passes [x] ⟨seen, x :: rest⟩ ⟨x :: seen, rest⟩ := ⟨rfl, rfl⟩

/-- Two places with a piece of text between them, in full. -/
theorem Passes.exists_eq (passes : Passes w c d) :
    ∃ seen r, c = ⟨seen, w ++ r⟩ ∧ d = ⟨w.reverse ++ seen, r⟩ := by
  obtain ⟨seen, rest⟩ := c
  obtain ⟨seen', r⟩ := d
  obtain ⟨rfl, rfl⟩ : rest = w ++ r ∧ seen' = w.reverse ++ seen := ⟨passes.rest, passes.seen⟩
  exact ⟨seen, r, rfl, rfl⟩

/-- What lies between two places is the text from the one to the other. -/
theorem Passes.textUntil (passes : Passes w c d) : c.textUntil d = w := by
  have size : d.offset - c.offset = w.length := by
    rw [offset, offset, passes.seen, List.length_append, List.length_reverse, Nat.add_sub_cancel]
  rw [Cursor.textUntil, size, passes.rest, List.take_left]

end Cursor

namespace Pattern

variable {p q : Pattern} {cls : CodePoint → Bool} {x y z : Hit} {w t : Text}

/-- A pattern describes what lies between two places, and remembers pieces on the way. -/
def Reads : Pattern → Hit → Hit → Prop
  | empty, x, y => y = x
  | one cls, x, y =>
    ∃ c, cls c = true ∧ Cursor.Passes [c] x.1 y.1 ∧ y.2 = x.2
  | run cls, x, y | shortRun cls, x, y =>
    ∃ w : Text, (∀ c ∈ w, cls c = true) ∧ Cursor.Passes w x.1 y.1 ∧ y.2 = x.2
  | seq p q, x, y => ∃ z, p.Reads x z ∧ q.Reads z y
  | alt p q, x, y => p.Reads x y ∨ q.Reads x y
  | star p, x, y =>
    Relation.ReflTransGen
      (fun x y => p.Reads x y ∧ y.1.rest.length < x.1.rest.length) x y
  | group n p, x, y => ∃ gs, p.Reads x (y.1, gs) ∧ y.2 = (n, x.1, y.1) :: gs
  | follows expected p, x, y => y = x ∧ ((∃ z, p.Reads x z) ↔ expected = true)
  | notAfter cls, x, y => y = x ∧ x.1.seen.head?.any cls = false
  | wordEdge, x, y => y = x ∧ x.1.isWordEdge = true

/-- A step of matching tries all places that a relation leads to, and no others. -/
structure Explores
    (step : Cursor → Groups → (Cursor → Groups → Option Hit) → Option Hit)
    (reads : Hit → Hit → Prop) : Prop where
  /-- It succeeds by one of the places. -/
  sound : ∀ {x k hit}, step x.1 x.2 k = some hit → ∃ y, reads x y ∧ k y.1 y.2 = some hit
  /-- It fails only if every place fails. -/
  complete : ∀ {x k y}, step x.1 x.2 k = none → reads x y → k y.1 y.2 = none

/-! ### Runs -/

theorem explores_run (cls : CodePoint → Bool) : Explores (run cls).runAt (run cls).Reads where
  sound {x k hit} found := by
    obtain ⟨⟨seen, rest⟩, gs⟩ := x
    simp only [runAt] at found
    induction rest generalizing seen with
    | nil => exact ⟨_, ⟨[], List.forall_mem_nil _, .refl _, rfl⟩, found⟩
    | cons c r ih =>
        rw [runFrom] at found
        split at found
        · next inClass =>
          split at found
          · next further =>
            cases found
            obtain ⟨y, ⟨w, all, passes, same⟩, succeeds⟩ := ih _ further
            exact ⟨y, ⟨c :: w, List.forall_mem_cons.mpr ⟨inClass, all⟩,
              (Cursor.passes_cons seen c r).trans passes, same⟩, succeeds⟩
          · exact ⟨_, ⟨[], List.forall_mem_nil _, .refl _, rfl⟩, found⟩
        · exact ⟨_, ⟨[], List.forall_mem_nil _, .refl _, rfl⟩, found⟩
  complete {x k y} failed reads := by
    obtain ⟨c, gs⟩ := x
    obtain ⟨d, gs'⟩ := y
    obtain ⟨w, all, passes, rfl⟩ := reads
    obtain ⟨seen, rest', rfl, rfl⟩ := Cursor.Passes.exists_eq passes
    simp only [runAt] at failed ⊢
    clear passes
    induction w generalizing seen with
    | nil =>
        cases rest' with
        | nil => exact failed
        | cons c r =>
            rw [List.nil_append, runFrom] at failed
            split at failed
            · split at failed
              · cases failed
              · exact failed
            · exact failed
    | cons c w ih =>
        obtain ⟨inClass, more⟩ := List.forall_mem_cons.mp all
        rw [List.cons_append, runFrom, if_pos inClass] at failed
        split at failed
        · cases failed
        · next further =>
          rw [List.reverse_cons, List.append_assoc]
          exact ih more _ further

theorem explores_shortRun (cls : CodePoint → Bool) :
    Explores (shortRun cls).runAt (shortRun cls).Reads where
  sound {x k hit} found := by
    obtain ⟨⟨seen, rest⟩, gs⟩ := x
    simp only [runAt] at found
    induction rest generalizing seen with
    | nil => exact ⟨_, ⟨[], List.forall_mem_nil _, .refl _, rfl⟩, found⟩
    | cons c r ih =>
        rw [shortRunFrom] at found
        split at found
        · next here =>
          cases found
          exact ⟨_, ⟨[], List.forall_mem_nil _, .refl _, rfl⟩, here⟩
        · split at found
          · next inClass =>
            obtain ⟨y, ⟨w, all, passes, same⟩, succeeds⟩ := ih _ found
            exact ⟨y, ⟨c :: w, List.forall_mem_cons.mpr ⟨inClass, all⟩,
              (Cursor.passes_cons seen c r).trans passes, same⟩, succeeds⟩
          · cases found
  complete {x k y} failed reads := by
    obtain ⟨c, gs⟩ := x
    obtain ⟨d, gs'⟩ := y
    obtain ⟨w, all, passes, rfl⟩ := reads
    obtain ⟨seen, rest', rfl, rfl⟩ := Cursor.Passes.exists_eq passes
    simp only [runAt] at failed ⊢
    clear passes
    induction w generalizing seen with
    | nil =>
        cases rest' with
        | nil => exact failed
        | cons c r =>
            rw [List.nil_append, shortRunFrom] at failed
            split at failed
            · cases failed
            · next here => exact here
    | cons c w ih =>
        obtain ⟨inClass, more⟩ := List.forall_mem_cons.mp all
        rw [List.cons_append, shortRunFrom] at failed
        split at failed
        · cases failed
        · rw [if_pos inClass] at failed
          rw [List.reverse_cons, List.append_assoc]
          exact ih more _ failed

/-! ### Repetitions -/

/-- The rounds of a repetition are tried as often as the text can be shortened. -/
theorem explores_star
    {step : Cursor → Groups → (Cursor → Groups → Option Hit) → Option Hit}
    {reads : Hit → Hit → Prop} (explores : Explores step reads) :
    Explores (fun c gs k => starFrom step k c.rest.length c gs)
      (Relation.ReflTransGen fun x y => reads x y ∧ y.1.rest.length < x.1.rest.length) where
  sound {x k hit} found := by
    generalize x.1.rest.length = n at found
    induction n generalizing x with
    | zero => exact ⟨x, .refl, found⟩
    | succ n ih =>
        rw [starFrom] at found
        split at found
        · next round =>
          cases found
          obtain ⟨y, read, more⟩ := explores.sound round
          rw [Option.ite_none_right_eq_some] at more
          obtain ⟨z, others, succeeds⟩ := ih more.2
          exact ⟨z, .head ⟨read, more.1⟩ others, succeeds⟩
        · exact ⟨x, .refl, found⟩
  complete {x k y} failed reads := by
    -- the number of rounds that are left is at least the length of the text that is left
    have all : ∀ n, x.1.rest.length ≤ n → starFrom step k n x.1 x.2 = none →
        k y.1 y.2 = none := by
      clear failed
      induction reads using Relation.ReflTransGen.head_induction_on with
      | refl =>
          intro n _ failed
          cases n with
          | zero => exact failed
          | succ n =>
              rw [starFrom] at failed
              split at failed
              · cases failed
              · exact failed
      | head first _ ih =>
          intro n enough failed
          obtain ⟨n, rfl⟩ : ∃ m, n = m + 1 := ⟨n - 1, by have := first.2; omega⟩
          rw [starFrom] at failed
          split at failed
          · cases failed
          · next round =>
            have next := explores.complete round first.1
            rw [if_pos first.2] at next
            exact ih n (by have := first.2; omega) next
    exact all _ (Nat.le_refl _) failed

/-! ### All Patterns -/

section Parts

variable {step step' : Cursor → Groups → (Cursor → Groups → Option Hit) → Option Hit}
  {reads reads' : Hit → Hit → Prop}

theorem Explores.seq (first : Explores step reads) (second : Explores step' reads') :
    Explores (fun c gs k => step c gs fun d hs => step' d hs k)
      (fun x y => ∃ z, reads x z ∧ reads' z y) where
  sound {x k hit} found := by
    obtain ⟨y, read, more⟩ := first.sound found
    obtain ⟨z, read', succeeds⟩ := second.sound more
    exact ⟨z, ⟨y, read, read'⟩, succeeds⟩
  complete {x k z} failed read := by
    obtain ⟨y, read, read'⟩ := read
    exact second.complete (first.complete failed read) read'

/-- A piece is remembered once it has been read. -/
theorem Explores.group (explores : Explores step reads) (n : Nat) :
    Explores (fun c gs k => step c gs fun d hs => k d ((n, c, d) :: hs))
      (fun x y => ∃ gs, reads x (y.1, gs) ∧ y.2 = (n, x.1, y.1) :: gs) where
  sound {x k hit} found := by
    obtain ⟨y, read, succeeds⟩ := explores.sound found
    exact ⟨(y.1, (n, x.1, y.1) :: y.2), ⟨y.2, read, rfl⟩, succeeds⟩
  complete {x k y} failed read := by
    obtain ⟨d, gs'⟩ := y
    obtain ⟨gs, read, same⟩ := read
    obtain rfl : gs' = (n, x.1, d) :: gs := same
    exact explores.complete (x := x) (k := fun e hs => k e ((n, x.1, e) :: hs)) failed read

/-- An attempt whose result is not looked at succeeds if there is any place to go to. -/
theorem Explores.isSome_iff (explores : Explores step reads) (x : Hit) :
    (step x.1 x.2 fun d hs => some (d, hs)).isSome = true ↔ ∃ z, reads x z := by
  constructor
  · intro succeeds
    obtain ⟨hit, found⟩ := Option.isSome_iff_exists.mp succeeds
    obtain ⟨z, read, -⟩ := explores.sound found
    exact ⟨z, read⟩
  · rintro ⟨z, read⟩
    rw [Option.isSome_iff_ne_none]
    intro failed
    cases explores.complete failed read

/-- An assertion reads nothing: matching goes on at the same place if something holds there. -/
theorem explores_assertion {holds : Hit → Prop} (test : Hit → Bool)
    (agrees : ∀ x, test x = true ↔ holds x)
    (step_eq : ∀ x k, step x.1 x.2 k = if test x then k x.1 x.2 else none) :
    Explores step fun x y => y = x ∧ holds x where
  sound {x k hit} found := by
    rw [step_eq, Option.ite_none_right_eq_some] at found
    exact ⟨x, ⟨rfl, (agrees x).mp found.1⟩, found.2⟩
  complete {x k y} failed read := by
    obtain ⟨rfl, met⟩ := read
    rwa [step_eq, if_pos ((agrees _).mpr met)] at failed

end Parts

theorem explores_one (cls : CodePoint → Bool) : Explores (one cls).runAt (one cls).Reads where
  sound {x k hit} found := by
    obtain ⟨⟨seen, _ | ⟨c, r⟩⟩, gs⟩ := x
    · cases found
    · rw [runAt, Option.ite_none_right_eq_some] at found
      exact ⟨(⟨c :: seen, r⟩, gs), ⟨c, found.1, Cursor.passes_cons _ _ _, rfl⟩, found.2⟩
  complete {x k y} failed read := by
    obtain ⟨e, gs⟩ := x
    obtain ⟨d, gs'⟩ := y
    obtain ⟨c, inClass, passes, rfl⟩ := read
    obtain ⟨seen, r, rfl, rfl⟩ := Cursor.Passes.exists_eq passes
    have failed : (if cls c = true then k ⟨c :: seen, r⟩ gs' else none) = none := failed
    rwa [if_pos inClass] at failed

theorem explores_alt (first : Explores p.runAt p.Reads) (second : Explores q.runAt q.Reads) :
    Explores (alt p q).runAt (alt p q).Reads where
  sound {x k hit} found := by
    rw [runAt] at found
    split at found
    · next here =>
      cases found
      obtain ⟨y, read, succeeds⟩ := first.sound here
      exact ⟨y, .inl read, succeeds⟩
    · obtain ⟨y, read, succeeds⟩ := second.sound found
      exact ⟨y, .inr read, succeeds⟩
  complete {x k y} failed read := by
    rw [runAt] at failed
    split at failed
    · cases failed
    · next here => exact read.elim (first.complete here) (second.complete failed)

/-- **Matching tries exactly what the pattern reads.** -/
theorem explores (p : Pattern) : Explores p.runAt p.Reads := by
  induction p with
  | empty =>
      refine ⟨fun {x k hit} found => ⟨x, rfl, found⟩, fun {x k y} failed reads => ?_⟩
      obtain rfl : y = x := reads
      exact failed
  | one cls => exact explores_one cls
  | run cls => exact explores_run cls
  | shortRun cls => exact explores_shortRun cls
  | seq p q first second => exact first.seq second
  | alt p q first second => exact explores_alt first second
  | star p ih => exact explores_star ih
  | group n p ih => exact ih.group n
  | follows expected p ih =>
      refine explores_assertion
        (fun x => (p.runAt x.1 x.2 fun d hs => some (d, hs)).isSome == expected) (fun x => ?_)
        fun _ _ => rfl
      rw [beq_iff_eq, Bool.eq_iff_iff, ih.isSome_iff]
  | notAfter cls =>
      refine explores_assertion (fun x => !x.1.seen.head?.any cls)
        (fun x => by rw [Bool.not_eq_true']) fun x k => ?_
      rw [runAt]
      cases x.1.seen.head?.any cls <;> rfl
  | wordEdge => exact explores_assertion (fun x => x.1.isWordEdge) (fun _ => Iff.rfl) fun _ _ => rfl

/-- What a pattern reads is a piece of the text. -/
theorem Reads.exists_passes (reads : p.Reads x y) : ∃ w, Cursor.Passes w x.1 y.1 := by
  induction p generalizing x y with
  | empty | follows _ _ | notAfter _ | wordEdge =>
      first
        | obtain rfl : y = x := reads
          exact ⟨[], .refl _⟩
        | obtain rfl : y = x := reads.1
          exact ⟨[], .refl _⟩
  | one cls =>
      obtain ⟨c, -, passes, -⟩ := reads
      exact ⟨[c], passes⟩
  | run cls | shortRun cls =>
      obtain ⟨w, -, passes, -⟩ := reads
      exact ⟨w, passes⟩
  | seq p q ihp ihq =>
      obtain ⟨z, first, second⟩ := reads
      obtain ⟨w, passes⟩ := ihp first
      obtain ⟨w', passes'⟩ := ihq second
      exact ⟨w ++ w', passes.trans passes'⟩
  | alt p q ihp ihq => exact reads.elim ihp ihq
  | star p ih =>
      induction reads with
      | refl => exact ⟨[], .refl _⟩
      | tail _ last ih' =>
          obtain ⟨w, passes⟩ := ih'
          obtain ⟨w', passes'⟩ := ih last.1
          exact ⟨w ++ w', passes.trans passes'⟩
  | group n p ih =>
      obtain ⟨gs, read, -⟩ := reads
      exact ih (y := (y.1, gs)) read

/-! ### What Is Remembered -/

/-- Whether a pattern remembers pieces. -/
def remembers : Pattern → Bool
  | empty | one _ | run _ | shortRun _ | follows _ _ | notAfter _ | wordEdge => false
  | seq p q | alt p q => p.remembers || q.remembers
  | star p => p.remembers
  | group _ _ => true

/-- **A pattern that remembers nothing leaves the remembered pieces as they are.** -/
theorem Reads.groups_eq (silent : p.remembers = false) (reads : p.Reads x y) : y.2 = x.2 := by
  induction p generalizing x y with
  | empty | follows _ _ | notAfter _ | wordEdge =>
      first
        | obtain rfl : y = x := reads
          rfl
        | obtain rfl : y = x := reads.1
          rfl
  | one cls =>
      obtain ⟨c, -, -, same⟩ := reads
      exact same
  | run cls | shortRun cls =>
      obtain ⟨w, -, -, same⟩ := reads
      exact same
  | seq p q ihp ihq =>
      obtain ⟨first, second⟩ := (Bool.or_eq_false_iff ..).mp silent
      obtain ⟨z, readsFirst, readsSecond⟩ := reads
      exact (ihq second readsSecond).trans (ihp first readsFirst)
  | alt p q ihp ihq =>
      obtain ⟨first, second⟩ := (Bool.or_eq_false_iff ..).mp silent
      exact reads.elim (ihp first) (ihq second)
  | star p ih =>
      induction reads with
      | refl => rfl
      | tail _ last ih' => exact (ih silent last.1).trans ih'
  | group n p ih => cases silent

/-! ### Given Texts and Digits -/

/-- A given text reads itself. -/
theorem Reads.of_lit (reads : (lit t).Reads x y) : Cursor.Passes t x.1 y.1 ∧ y.2 = x.2 := by
  induction t using lit.induct generalizing x with
  | case1 =>
      obtain rfl : y = x := reads
      exact ⟨.refl _, rfl⟩
  | case2 a =>
      obtain ⟨c, same, passes, groups⟩ := reads
      rw [eq_of_beq same] at passes
      exact ⟨passes, groups⟩
  | case3 a r more ih =>
      rw [lit.eq_3 _ _ more] at reads
      obtain ⟨z, ⟨c, same, passes, groups⟩, others⟩ := reads
      obtain ⟨passes', groups'⟩ := ih others
      rw [eq_of_beq same] at passes
      exact ⟨passes.trans passes', groups'.trans groups⟩

/-- A text in any letter case reads itself in some letter case. -/
theorem Reads.of_caseless (reads : (caseless t).Reads x y) :
    ∃ w : Text, List.Forall₂ (fun a b => CodePoint.sameLetter a b = true) t w ∧
      Cursor.Passes w x.1 y.1 ∧ y.2 = x.2 := by
  induction t generalizing x with
  | nil =>
      obtain rfl : y = x := reads
      exact ⟨[], .nil, .refl _, rfl⟩
  | cons a r ih =>
      obtain ⟨z, ⟨b, same, passes, groups⟩, others⟩ := reads
      obtain ⟨w, all, passes', groups'⟩ := ih others
      exact ⟨b :: w, .cons same all, passes.trans passes', groups'.trans groups⟩

/-- A run of at least one code point reads such a run. -/
theorem Reads.of_run1 (reads : (run1 cls).Reads x y) :
    ∃ w : Text, w ≠ [] ∧ (∀ c ∈ w, cls c = true) ∧ Cursor.Passes w x.1 y.1 ∧ y.2 = x.2 := by
  obtain ⟨z, ⟨a, inClass, passes, groups⟩, ⟨w, all, passes', groups'⟩⟩ := reads
  exact ⟨a :: w, List.cons_ne_nil a w, List.forall_mem_cons.mpr ⟨inClass, all⟩,
    passes.trans passes', groups'.trans groups⟩

/-- Three digits read three digits. -/
theorem Reads.of_threeDigits (reads : threeDigits.Reads x y) :
    ∃ w : Text, w.length = 3 ∧ (∀ c ∈ w, c.isDigit = true) ∧ Cursor.Passes w x.1 y.1 ∧
      y.2 = x.2 := by
  obtain ⟨z', ⟨z, ⟨a, ha, first, groups⟩, ⟨b, hb, second, groups'⟩⟩, ⟨c, hc, third, groups''⟩⟩ :=
    reads
  exact ⟨[a, b, c], rfl, by simp [ha, hb, hc], (first.trans second).trans third,
    groups''.trans (groups'.trans groups)⟩

end Pattern

end RouteDocs
