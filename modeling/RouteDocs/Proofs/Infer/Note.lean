import RouteDocs.Infer.Responses
import RouteDocs.Proofs.Text.Ahead
import RouteDocs.Proofs.Text.Case
import RouteDocs.Proofs.Text.Digit

/-!
# What an Annotation Consists Of

An annotation is a mark in any letter case, a status code of three digits and a text, with blanks
between them. The text ends with its line, but the blanks may contain ends of lines.

## Main Definitions

* `Response.IsMark`, `Response.IsGap`, `Response.IsCode`: the parts before the text
* `Response.Begins`: a text begins with an annotation

## Main Statements

* `Response.exists_begins_of_matchAt?`: what matches the pattern of annotations begins with one
* `Response.exists_matchAt?_of_begins`: what begins with an annotation matches the pattern
* `Response.exists_matchAt?_of_visible`: **the text of an annotation begins behind the blanks and
  ends with its line**

## Design Notes

The blanks before the text are taken as far as possible, so that the text begins with a blank only
if nothing else follows. Without this, a text could begin with any of the blanks.
-/

namespace RouteDocs

namespace Response

open Pattern

variable {mark gap code space body rest t w : Text} {c : Cursor} {m : Match}

/-- The mark of an annotation, in any letter case. -/
def IsMark (w : Text) : Prop :=
  List.Forall₂ (fun a b => CodePoint.sameLetter a b = true) ("@response" : Text) w

/-- Blanks, at least one. -/
structure IsGap (w : Text) : Prop where
  /-- There is a blank. -/
  nonempty : w ≠ []
  /-- There are only blanks. -/
  blank : ∀ c ∈ w, c.isBlank = true

/-- Three decimal digits. -/
structure IsCode (w : Text) : Prop where
  /-- There are three. -/
  size : w.length = 3
  /-- There are only digits. -/
  digits : ∀ c ∈ w, c.isDigit = true

/-- **A text begins with an annotation** of a status code and a text on one line. -/
structure Begins (mark gap code space body rest t : Text) : Prop where
  /-- The parts stand one after another. -/
  text : t = mark ++ (gap ++ (code ++ (space ++ (body ++ rest))))
  /-- The mark comes first. -/
  mark : IsMark mark
  /-- Blanks stand before the code. -/
  gap : IsGap gap
  /-- The status code. -/
  code : IsCode code
  /-- Blanks stand before the text. -/
  space : IsGap space
  /-- The text is not empty. -/
  nonempty : body ≠ []
  /-- The text is on one line. -/
  single : ('\n' : CodePoint) ∉ body

theorem IsCode.exists_cons (h : IsCode w) : ∃ c r, w = c :: r ∧ c.isBlank = false := by
  obtain ⟨c, r, rfl⟩ := List.exists_cons_of_ne_nil
    (List.length_pos_iff.mp (by rw [h.size]; decide : 0 < w.length))
  exact ⟨c, r, rfl, CodePoint.isBlank_eq_false_of_isDigit (h.digits c List.mem_cons_self)⟩

/-! ### The Mark -/

/-- Letters in any letter case stand above the marks and digits of ASCII. -/
theorem le_of_forall₂_sameLetter
    (same : List.Forall₂ (fun a b => CodePoint.sameLetter a b = true) t w)
    (high : ∀ a ∈ t, 0x41 ≤ a.val) : ∀ b ∈ w, 0x41 ≤ b.val := by
  induction same with
  | nil => exact List.forall_mem_nil _
  | cons first _ ih =>
      obtain ⟨own, others⟩ := List.forall_mem_cons.mp high
      exact List.forall_mem_cons.mpr ⟨CodePoint.le_of_sameLetter own first, ih others⟩

/-- The mark begins with its sign, and letters follow. -/
theorem IsMark.exists_eq (h : IsMark w) :
    ∃ letters : Text, w = ('@' : CodePoint) :: letters ∧ ∀ c ∈ letters, 0x41 ≤ c.val := by
  obtain ⟨sign, letters, first, others, rfl⟩ := List.forall₂_cons_left_iff.mp h
  rw [CodePoint.eq_of_sameLetter (by decide) first]
  have all : (("response" : Text).all fun a => decide (0x41 ≤ a.val)) = true := rfl
  have high : ∀ a ∈ ("response" : Text), 0x41 ≤ a.val := fun a ha =>
    of_decide_eq_true (List.all_eq_true.mp all a ha)
  exact ⟨letters, rfl, le_of_forall₂_sameLetter others high⟩

theorem looksAhead_note : LooksAhead note :=
  ((((looksAhead_caseless _).append (.run1 _)).append
    (.group 1 (((LooksAhead.one _).append (.one _)).append (.one _)))).append (.run1 _)).append
      (.group 2 (.run1 _))

theorem startsIn_note : note.StartsIn (CodePoint.sameLetter '@') :=
  ((((startsIn_one _).append (caseless "response")).append _).append _).append _ |>.append _

/-- What does not begin with the sign of the mark does not match. -/
theorem matchAt?_note_eq_none (other : c.rest.head? ≠ some ('@' : CodePoint)) :
    note.matchAt? c = none := by
  refine (startsIn_note.fails (x := (c, [])) ?_).matchAt?_eq_none
  rw [Bool.eq_false_iff]
  intro begins
  obtain ⟨x, first, same⟩ := (Option.any_eq_true _ _).mp begins
  rw [CodePoint.eq_of_sameLetter (by decide) same] at first
  exact other first

/-! ### Matching an Annotation -/

/-- What matches the pattern of annotations begins with one. -/
theorem exists_begins_of_matchAt? (found : note.matchAt? c = some m) :
    ∃ mark gap space, Begins mark gap (m.group 1) space (m.group 2) m.stop.rest c.rest := by
  obtain ⟨hit, run, rfl⟩ := Option.map_eq_some_iff.mp found
  obtain ⟨y, reads, same⟩ := (explores note).sound (x := (c, [])) run
  cases same
  obtain ⟨x₄, ⟨x₃, ⟨x₂, ⟨x₁, marked, first⟩, ⟨gs, digits, groups⟩⟩, second⟩,
    ⟨gs', line, groups'⟩⟩ := reads
  obtain ⟨mark, isMark, passes₁, -⟩ := marked.of_caseless
  obtain ⟨gap, some₂, blank₂, passes₂, -⟩ := first.of_run1
  obtain ⟨code, size, digits, passes₃, -⟩ := digits.of_threeDigits
  obtain ⟨space, some₄, blank₄, passes₄, same₄⟩ := second.of_run1
  obtain ⟨body, some₅, inLine, passes₅, same₅⟩ := line.of_run1
  have remembered : y.2 = (2, x₄.1, y.1) :: (1, x₂.1, x₃.1) :: gs := by
    rw [groups', show gs' = x₄.2 from same₅, same₄, groups]
  have text : Match.group ⟨c, y.1, y.2⟩ 2 = body := by
    rw [remembered]
    exact passes₅.textUntil
  have status : Match.group ⟨c, y.1, y.2⟩ 1 = code := by
    rw [remembered]
    exact passes₃.textUntil
  refine ⟨mark, gap, space, ?_, isMark, ⟨some₂, blank₂⟩, ?_, ⟨some₄, blank₄⟩, ?_, ?_⟩
  · change c.rest = _ ++ (_ ++ (Match.group ⟨c, y.1, y.2⟩ 1 ++
      (_ ++ (Match.group ⟨c, y.1, y.2⟩ 2 ++ y.1.rest))))
    rw [text, status, ← passes₅.rest, ← passes₄.rest, ← passes₃.rest, ← passes₂.rest]
    exact passes₁.rest
  · exact status ▸ ⟨size, digits⟩
  · exact text ▸ some₅
  · intro mem
    have mem : ('\n' : CodePoint) ∈ body := text ▸ mem
    exact Bool.false_ne_true (inLine _ mem)

/-- What begins with an annotation matches the pattern of annotations. -/
theorem exists_matchAt?_of_begins (begins : Begins mark gap code space body rest c.rest) :
    ∃ m, note.matchAt? c = some m := by
  obtain ⟨c₁, passes₁, rest₁⟩ := Cursor.exists_passes begins.text
  obtain ⟨c₂, passes₂, rest₂⟩ := Cursor.exists_passes rest₁
  obtain ⟨c₃, passes₃, rest₃⟩ := Cursor.exists_passes rest₂
  obtain ⟨c₄, passes₄, rest₄⟩ := Cursor.exists_passes rest₃
  obtain ⟨c₅, passes₅, -⟩ := Cursor.exists_passes rest₄
  have inLine : ∀ x ∈ body, (x != ('\n' : CodePoint)) = true := fun x hx =>
    bne_iff_ne.mpr fun same => begins.single (same ▸ hx)
  have code : (group 1 threeDigits).Reads (c₂, []) (c₃, [(1, c₂, c₃)]) :=
    ⟨[], reads_threeDigits begins.code.size begins.code.digits passes₃, rfl⟩
  have line : (group 2 (run1 fun x : CodePoint => x != '\n')).Reads (c₄, [(1, c₂, c₃)])
      (c₅, [(2, c₄, c₅), (1, c₂, c₃)]) :=
    ⟨_, reads_run1 begins.nonempty inLine passes₅, rfl⟩
  have reads : note.Reads (c, []) (c₅, [(2, c₄, c₅), (1, c₂, c₃)]) :=
    ⟨_, ⟨_, ⟨_, ⟨_, reads_caseless begins.mark passes₁,
      reads_run1 begins.gap.nonempty begins.gap.blank passes₂⟩, code⟩,
      reads_run1 begins.space.nonempty begins.space.blank passes₄⟩, line⟩
  exact exists_matchAt?_of_reads reads

/-- **The text of an annotation begins behind the blanks and ends with its line.** -/
theorem exists_matchAt?_of_visible (begins : Begins mark gap code space body rest c.rest)
    (visible : ∀ x ∈ body.head?, x.isBlank = false) (ends : ∀ x ∈ rest.head?, x = '\n') :
    ∃ m, note.matchAt? c = some m ∧ m.group 1 = code ∧ m.group 2 = body ∧ m.stop.rest = rest := by
  obtain ⟨c₁, passes₁, rest₁⟩ := Cursor.exists_passes begins.text
  obtain ⟨c₂, passes₂, rest₂⟩ := Cursor.exists_passes rest₁
  obtain ⟨c₃, passes₃, rest₃⟩ := Cursor.exists_passes rest₂
  obtain ⟨c₄, passes₄, rest₄⟩ := Cursor.exists_passes rest₃
  obtain ⟨c₅, passes₅, rest₅⟩ := Cursor.exists_passes rest₄
  have stop₂ : c₂.rest.head?.any CodePoint.isBlank = false := by
    obtain ⟨x, r, eq, other⟩ := begins.code.exists_cons
    rw [rest₂, eq]
    exact other
  have stop₄ : c₄.rest.head?.any CodePoint.isBlank = false := by
    obtain ⟨x, r, eq⟩ := List.exists_cons_of_ne_nil begins.nonempty
    rw [rest₄, eq]
    exact visible x (by rw [eq]; rfl)
  have stop₅ : c₅.rest.head?.any (fun x : CodePoint => x != '\n') = false := by
    rw [rest₅]
    cases first : rest.head? with
    | none => rfl
    | some x =>
        rw [ends x first]
        rfl
  have inLine : ∀ x ∈ body, (x != ('\n' : CodePoint)) = true := fun x hx =>
    bne_iff_ne.mpr fun same => begins.single (same ▸ hx)
  have leads : note.Leads (c, []) (c₅, [(2, c₄, c₅), (1, c₂, c₃)]) :=
    ((((leads_caseless begins.mark passes₁).append
      (leads_run1 begins.gap.nonempty begins.gap.blank passes₂ stop₂)).append
      ((leads_threeDigits begins.code.size begins.code.digits passes₃).group 1)).append
      (leads_run1 begins.space.nonempty begins.space.blank passes₄ stop₄)).append
      ((leads_run1 begins.nonempty inLine passes₅ stop₅).group 2)
  exact ⟨_, matchAt?_of_leads leads, passes₃.textUntil, passes₅.textUntil, rest₅⟩

end Response

end RouteDocs
