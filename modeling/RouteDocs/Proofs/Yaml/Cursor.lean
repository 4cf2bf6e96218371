import Mathlib.Data.List.TakeWhile
import RouteDocs.Proofs.Text.Join
import RouteDocs.Yaml.Printer
import RouteDocs.Yaml.Spelling

/-!
# Moves through YAML Texts

Where a position is after some code points were passed over.

## Main Definitions

* `Yaml.isInline`: the code points that move a position on within its line

## Main Statements

* `Yaml.Cursor.skip_inline`: **passing over a part of a line**
* `Yaml.Cursor.skip_newLine`: passing over a line end and an indentation
* `Yaml.Cursor.skipComment_spaces`: spaces before what is no comment

## Design Notes

Every reader moves on by a number of code points, so what it reads is described by that number.
The rest of the text is then known at once, and the line and the column where they matter.
-/

namespace RouteDocs

namespace Yaml

/-- The code points that move a position on by one column. -/
def isInline (x : CodePoint) : Bool := !isLineEnd x && x.val != 0xFEFF

theorem isLineEnd_eq_false_of_isInline {x : CodePoint} (h : isInline x = true) :
    isLineEnd x = false := by
  simpa using (Bool.and_eq_true_iff.mp h).1

theorem isGap_eq_false {x : CodePoint} :
    isGap x = false ↔ isWhite x = false ∧ isLineEnd x = false := by
  simp [isGap, isWhite]

theorem isWhite_eq_false_of_isLineEnd {x : CodePoint} (h : isLineEnd x = true) :
    isWhite x = false := by
  simp only [isWhite, Bool.or_eq_false_iff, beq_eq_false_iff_ne]
  constructor <;> (rintro rfl; exact absurd h (by decide))

theorem isGap_of_isWhite {x : CodePoint} (h : isWhite x = true) : isGap x = true :=
  Bool.or_eq_true_iff.mpr (.inl h)

/-- Only hyphens and dots begin the mark of a document. -/
theorem isDocumentMark_eq_false {x : CodePoint} {r : Text}
    (h : x ≠ ('-' : CodePoint) ∧ x ≠ ('.' : CodePoint)) : isDocumentMark (x :: r) = false := by
  rcases r with _ | ⟨y, _ | ⟨z, r⟩⟩ <;> simp [isDocumentMark, h.1, h.2]

@[simp] theorem length_spaces (n : Nat) : (spaces n).length = n :=
  List.length_replicate

@[simp] theorem length_newLine (n : Nat) : (newLine n).length = n + 1 := by
  simp [newLine]

theorem spaces_succ (n : Nat) : spaces (n + 1) = (' ' : CodePoint) :: spaces n :=
  List.replicate_succ

theorem eq_space_of_mem_spaces {n : Nat} {x : CodePoint} (h : x ∈ spaces n) :
    x = (' ' : CodePoint) :=
  List.eq_of_mem_replicate h

namespace Cursor

variable {c : Cursor} {m n : Nat} {x : CodePoint} {u r : Text} {p : CodePoint → Bool}

/-! ### The Rest of the Text -/

theorem skip_succ : c.skip (n + 1) = c.next.skip n := rfl

theorem skip_add : c.skip (m + n) = (c.skip m).skip n := by
  induction m generalizing c with
  | zero => rw [Nat.zero_add, skip]
  | succ m ih => rw [Nat.succ_add, skip, skip, ih]

theorem next_skip : (c.skip n).next = c.skip (n + 1) := by
  rw [skip_add]
  rfl

@[simp] theorem rest_next : c.next.rest = c.rest.tail := by
  unfold next
  split
  · next h => rw [h]; rfl
  · next h => rw [h]; split <;> rfl

@[simp] theorem rest_skip : (c.skip n).rest = c.rest.drop n := by
  induction n generalizing c with
  | zero => rfl
  | succ n ih => rw [skip, ih, rest_next, List.drop_tail]

theorem rest_skip_append (h : c.rest = u ++ r) : (c.skip u.length).rest = r := by
  rw [rest_skip, h, List.drop_left]

theorem sees_of_rest (h : c.rest = x :: r) : c.sees p = p x := by
  rw [sees, h]
  rfl

theorem sees_of_nil (h : c.rest = []) : c.sees p = false := by
  rw [sees, h]
  rfl

/-- A run of a class ends where the class ends. -/
theorem run_append (h : c.rest = u ++ r) (all : ∀ x ∈ u, p x = true)
    (stop : ∀ x ∈ r.head?, p x = false) : c.run p = u := by
  rw [run, h, Text.takeWhile_append_of_ends all stop]

theorem skipRun_append (h : c.rest = u ++ r) (all : ∀ x ∈ u, p x = true)
    (stop : ∀ x ∈ r.head?, p x = false) : c.skipRun p = c.skip u.length := by
  rw [skipRun, run_append h all stop]

theorem skipRun_nil (stop : ∀ x ∈ c.rest.head?, p x = false) : c.skipRun p = c :=
  skipRun_append (List.nil_append _).symm nofun stop

/-! ### Lines and Columns -/

theorem line_le_skip (n : Nat) (c : Cursor) : c.line ≤ (c.skip n).line := by
  induction n generalizing c with
  | zero => exact Nat.le_refl _
  | succ n ih =>
      refine Nat.le_trans ?_ (ih c.next)
      unfold next
      split
      · exact Nat.le_refl _
      · split
        · exact Nat.le_succ _
        · exact Nat.le_refl _

theorem next_inline (h : c.rest = x :: r) (inline : isInline x = true) :
    c.next = ⟨r, c.index + 1, c.line, c.column + 1⟩ := by
  obtain ⟨stays, wide⟩ := Bool.and_eq_true_iff.mp inline
  simp_all [next]

/-- **Passing over a part of a line.** -/
theorem skip_inline (h : c.rest = u ++ r) (inline : ∀ x ∈ u, isInline x = true) :
    c.skip u.length = ⟨r, c.index + u.length, c.line, c.column + u.length⟩ := by
  induction u generalizing c with
  | nil =>
      rw [List.nil_append] at h
      rw [← h]
      rfl
  | cons x u ih =>
      obtain ⟨first, others⟩ := List.forall_mem_cons.mp inline
      rw [List.length_cons, skip, next_inline h first, ih rfl others]
      simp only [mk.injEq, true_and]
      omega

theorem skip_spaces (h : c.rest = spaces n ++ r) :
    c.skip n = ⟨r, c.index + n, c.line, c.column + n⟩ := by
  have passed := skip_inline h fun x hx => by
    rw [eq_space_of_mem_spaces hx]
    rfl
  rwa [length_spaces] at passed

theorem next_lineFeed (h : c.rest = ('\n' : CodePoint) :: r) :
    c.next = ⟨r, c.index + 1, c.line + 1, 0⟩ := by
  rw [next, h]
  rfl

/-- Passing over a line end and an indentation. -/
theorem skip_newLine (h : c.rest = newLine n ++ r) :
    c.skip (n + 1) = ⟨r, c.index + 1 + n, c.line + 1, n⟩ := by
  rw [skip, next_lineFeed h, skip_spaces rfl, Nat.zero_add]

theorem lineBreak_lineFeed (h : c.rest = ('\n' : CodePoint) :: r) :
    c.lineBreak = (("\n" : Text), c.next) := by
  rw [lineBreak, h]
  rfl

/-- Spaces before what is no comment. -/
theorem skipComment_spaces (h : c.rest = spaces n ++ r)
    (first : ∀ x ∈ r.head?, x ≠ (' ' : CodePoint) ∧ x ≠ ('#' : CodePoint)) :
    c.skipComment = c.skip n := by
  have passed : c.skipRun (· == ' ') = c.skip n := by
    rw [skipRun_append h (fun x hx => by rw [eq_space_of_mem_spaces hx]; rfl)
      fun x hx => beq_false_of_ne (first x hx).1, length_spaces]
  have comment : (c.skip n).sees (· == '#') = false := by
    rw [sees, rest_skip, h, List.drop_left' (length_spaces n)]
    cases r with
    | nil => rfl
    | cons x r => exact beq_false_of_ne (first x rfl).2
  rw [skipComment, passed, comment]
  rfl

theorem skipComment_none
    (first : ∀ x ∈ c.rest.head?, x ≠ (' ' : CodePoint) ∧ x ≠ ('#' : CodePoint)) :
    c.skipComment = c :=
  skipComment_spaces (n := 0) rfl first

end Cursor

end Yaml

end RouteDocs
