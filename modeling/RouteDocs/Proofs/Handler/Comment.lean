import Mathlib.Data.Option.Basic
import RouteDocs.Handler.DocComment
import RouteDocs.Proofs.Text.Occurrence

/-!
# Attached Comments

Which comment is attached to a place of a file: what its two marks are, what may stand in it, and
what may stand between it and the place.

## Main Definitions

* `DocComment.IsAttached`: a comment is attached to a place

## Main Statements

* `DocComment.before?_eq_some_iff`: the search for a comment finds the attached one
* `DocComment.IsAttached.at_gap`: the comment is attached to every place of its gap that does not
  begin a line comment
* `DocComment.IsAttached.stop_eq`: a comment is determined by its beginning

## Design Notes

The search goes backwards twice, for the closing mark and from there for the opening mark.
`IsAttached` keeps what the two searches tell as separate fields, so that a later proof takes the
one it needs.
-/

namespace RouteDocs

namespace DocComment

open Text

/-- Where the closing mark of a comment stands. -/
def closing (d : DocComment) : Nat := d.stop - 2

/-- A comment is attached to a place of a file. -/
structure IsAttached (content : Text) (offset : Nat) (d : DocComment) : Prop where
  /-- It begins with its opening mark. -/
  opens : StandsAt "/**" content d.start
  /-- It ends with its closing mark. -/
  closes : StandsAt "*/" content d.closing
  /-- The two marks do not overlap. -/
  start_add_le : d.start + 3 ≤ d.closing
  /-- The comment ends where its closing mark ends. -/
  stop_eq_add : d.stop = d.closing + 2
  /-- The comment stands before the place. -/
  stop_le : d.stop ≤ offset
  /-- No opening mark stands in the comment after its own. -/
  last_opening : ∀ k, d.start < k → k + 3 ≤ d.closing → ¬StandsAt "/**" content k
  /-- No closing mark stands in the comment before its own. -/
  first_closing : ∀ k, d.start + 3 ≤ k → k + 2 ≤ d.closing → ¬StandsAt "*/" content k
  /-- No closing mark stands between the comment and the place. -/
  last_closing : ∀ k, d.closing < k → k + 2 ≤ offset → ¬StandsAt "*/" content k
  /-- Between the comment and the place stand blanks and line comments. -/
  gap : isGap ((content.take offset).drop d.stop) = true
  /-- The body is what stands between the two marks. -/
  body_eq : d.body = (content.take d.closing).drop (d.start + 3)

variable {content : Text} {offset p : Nat} {d d' : DocComment}

/-- The two searches, one after the other. -/
theorem before?_eq_some :
    before? content offset = some d ↔
      ∃ close start, lastIndexOf? "*/" (content.take offset) = some close ∧
        isGap ((content.take offset).drop (close + 2)) = true ∧
        lastIndexOf? "/**" ((content.take offset).take close) = some start ∧
        hasPart "*/" (((content.take offset).take close).drop (start + 3)) = false ∧
        d = ⟨start, close + 2, ((content.take offset).take close).drop (start + 3)⟩ := by
  have taken : takeTo content offset = content.take offset := rfl
  constructor
  · intro found
    obtain ⟨close, closes, found⟩ := Option.bind_eq_some_iff.mp found
    obtain ⟨⟨⟩, gap, found⟩ := Option.bind_eq_some_iff.mp found
    obtain ⟨start, opens, found⟩ := Option.bind_eq_some_iff.mp found
    obtain ⟨⟨⟩, body, found⟩ := Option.bind_eq_some_iff.mp found
    rw [Option.guard_eq_some'] at gap body
    rw [taken] at closes gap opens body found
    refine ⟨close, start, closes, gap, opens, by simpa using body, ?_⟩
    exact (Option.some.inj found).symm
  · rintro ⟨close, start, closes, gap, opens, body, rfl⟩
    simp [before?, taken, closes, gap, opens, body]

/-- **The search for a comment finds the attached one.** -/
theorem before?_eq_some_iff :
    before? content offset = some d ↔ IsAttached content offset d := by
  have mark : ("*/" : Text) ≠ [] := by decide
  have opening : ("/**" : Text) ≠ [] := by decide
  rw [before?_eq_some]
  -- What stands before the closing mark is the same in the file and in its beginning.
  have taken {close : Nat} (le : close ≤ offset) :
      (content.take offset).take close = content.take close := by
    rw [List.take_take, Nat.min_eq_left le]
  constructor
  · rintro ⟨close, start, closes, gap, opens, body, rfl⟩
    obtain ⟨closes, last⟩ := (lastIndexOf?_eq_some_iff mark).mp closes
    obtain ⟨closes, inside⟩ := (standsAt_take mark).mp closes
    have inside : close + 2 ≤ offset := inside
    rw [taken (by omega)] at opens body ⊢
    obtain ⟨opens, lastOpening⟩ := (lastIndexOf?_eq_some_iff opening).mp opens
    obtain ⟨opens, le⟩ := (standsAt_take opening).mp opens
    refine ⟨opens, closes, le, rfl, inside, ?_, ?_, ?_, gap, rfl⟩
    · intro k lt fits stands
      exact lastOpening k lt ((standsAt_take opening).mpr ⟨stands, fits⟩)
    · intro k after fits stands
      have part : ∃ i, StandsAt "*/" ((content.take close).drop (start + 3)) i := by
        refine ⟨k - (start + 3), standsAt_drop.mpr ?_⟩
        rw [Nat.add_sub_cancel' after]
        exact (standsAt_take mark).mpr ⟨stands, fits⟩
      rw [(hasPart_eq_true_iff mark).mpr part] at body
      cases body
    · intro k lt fits stands
      exact last k lt ((standsAt_take mark).mpr ⟨stands, fits⟩)
  · intro attached
    have inside := attached.stop_le
    have stop := attached.stop_eq_add
    have apart := attached.start_add_le
    have before : (content.take offset).take d.closing = content.take d.closing :=
      taken (by omega)
    have closes : lastIndexOf? "*/" (content.take offset) = some d.closing := by
      refine (lastIndexOf?_eq_some_iff mark).mpr
        ⟨(standsAt_take mark).mpr ⟨attached.closes, stop ▸ inside⟩, fun k lt stands => ?_⟩
      obtain ⟨stands, fits⟩ := (standsAt_take mark).mp stands
      exact attached.last_closing k lt fits stands
    have opens : lastIndexOf? "/**" (content.take d.closing) = some d.start := by
      refine (lastIndexOf?_eq_some_iff opening).mpr
        ⟨(standsAt_take opening).mpr ⟨attached.opens, apart⟩, fun k lt stands => ?_⟩
      obtain ⟨stands, fits⟩ := (standsAt_take opening).mp stands
      exact attached.last_opening k lt fits stands
    have body : hasPart "*/" ((content.take d.closing).drop (d.start + 3)) = false := by
      rw [Bool.eq_false_iff, ne_eq, hasPart_eq_true_iff mark]
      rintro ⟨i, stands⟩
      obtain ⟨stands, fits⟩ := (standsAt_take mark).mp (standsAt_drop.mp stands)
      exact attached.first_closing (d.start + 3 + i) (Nat.le_add_right _ _) fits stands
    refine ⟨d.closing, d.start, closes, stop ▸ attached.gap, ?_, ?_, ?_⟩
    · rw [before, opens]
    · rw [before, body]
    · rw [before, ← attached.body_eq, ← stop]

/-! ### Places in the Gap -/

/-- The beginning of a gap is a gap unless it ends within the mark of a line comment. -/
theorem isGapFrom_of_append {state : GapState} {x y : Text} {c : CodePoint} (ne : c ≠ '/')
    (gap : isGapFrom state (x ++ c :: y) = true) : isGapFrom state x = true := by
  induction x generalizing state with
  | nil =>
      cases state with
      | blank => rfl
      | comment => rfl
      | slash =>
          have first : (c == '/') = true := (Bool.and_eq_true_iff.mp gap).1
          exact absurd (beq_iff_eq.mp first) ne
  | cons e x ih =>
      rw [List.cons_append] at gap
      cases state with
      | blank =>
          rw [isGapFrom] at gap ⊢
          split_ifs at gap ⊢ with blank slash
          · exact ih gap
          · exact ih gap
      | slash =>
          rw [isGapFrom, Bool.and_eq_true] at gap ⊢
          exact ⟨gap.1, ih gap.2⟩
      | comment =>
          rw [isGapFrom] at gap ⊢
          exact ih gap

namespace IsAttached

/-- The first code point of a comment is a slash. -/
theorem getElem?_start (attached : IsAttached content offset d) :
    content[d.start]? = some ('/' : CodePoint) :=
  attached.opens.getElem? (j := 0) (by decide)

/-- **A comment is attached to the places of its gap** which do not begin a line comment. -/
theorem at_gap (attached : IsAttached content offset d) (after : d.stop ≤ p) (lt : p < offset)
    {c : CodePoint} (here : content[p]? = some c) (ne : c ≠ '/') : IsAttached content p d where
  __ := attached
  stop_le := after
  last_closing k late fits := attached.last_closing k late (by omega)
  gap := by
    have split : (content.take offset).drop d.stop =
        (content.take p).drop d.stop ++ c :: (content.take offset).drop (p + 1) := by
      obtain ⟨inside, rfl⟩ := List.getElem?_eq_some_iff.mp here
      have before : (content.take offset).take p = content.take p := by
        rw [List.take_take, Nat.min_eq_left (Nat.le_of_lt lt)]
      have short : p < (content.take offset).length := by
        rw [List.length_take]
        omega
      have fits : d.stop ≤ ((content.take offset).take p).length := by
        rw [before, List.length_take]
        omega
      rw [← before, ← List.getElem_take (j := offset) (h := short), ← List.drop_eq_getElem_cons short,
        ← List.drop_append_of_le_length fits, List.take_append_drop]
    have gap := attached.gap
    rw [split] at gap
    exact isGapFrom_of_append ne gap

/-- A comment does not end before another one that begins with it. -/
theorem stop_le_stop (attached : IsAttached content offset d) (other : IsAttached content p d')
    (same : d.start = d'.start) : d'.stop ≤ d.stop := by
  by_contra! shorter
  have stop := attached.stop_eq_add
  have stop' := other.stop_eq_add
  have apart := attached.start_add_le
  rcases Nat.lt_or_ge d'.closing (d.closing + 2) with overlap | apart'
  · -- The slash of one closing mark would be the star of the other.
    have slash : content[d.closing + 1]? = some ('/' : CodePoint) :=
      attached.closes.getElem? (j := 1) (by decide)
    have star : content[d'.closing + 0]? = some ('*' : CodePoint) :=
      other.closes.getElem? (j := 0) (by decide)
    have eq : d'.closing = d.closing + 1 := by omega
    rw [Nat.add_zero, eq, slash] at star
    exact absurd star (by decide)
  · exact other.first_closing d.closing (by omega) apart' attached.closes

/-- **A comment is determined by its beginning.** -/
theorem stop_eq (attached : IsAttached content offset d) (other : IsAttached content p d')
    (same : d.start = d'.start) : d.stop = d'.stop :=
  Nat.le_antisymm (other.stop_le_stop attached same.symm) (attached.stop_le_stop other same)

end IsAttached

end DocComment

end RouteDocs
