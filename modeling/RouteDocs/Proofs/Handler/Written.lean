import RouteDocs.Proofs.Handler.Comment
import RouteDocs.Proofs.Text.Join

/-!
# Written Comments

A documentation comment that is written in front of a handler, line by line and with a star before
each line, is the attached one, and its lines are the ones that were written.

## Main Definitions

* `DocComment.IsDocLine`: what may be written as a line of a comment
* `DocComment.Written`: a file with a written comment

## Main Statements

* `DocComment.before?_append`: a comment without marks in it is attached to the end of its gap,
  whatever stands before it
* `DocComment.lines_writtenBody`: the lines of a written comment
* `DocComment.Written.exists_before?`: **a written comment is read back**

## Design Notes

Neither mark contains a blank, and every line of a written comment stands between two blanks. So a
mark within the comment would stand within a line or within the star in front of one.
-/

namespace RouteDocs

namespace DocComment

open Text

variable {before body gap rest l w : Text} {ls : List Text}

/-! ### The Attached Comment -/

/-- Blanks are a gap. -/
theorem isGap_of_blank (blank : ∀ c ∈ w, c.isBlank = true) : isGap w = true := by
  rw [isGap]
  induction w with
  | nil => rfl
  | cons c w ih =>
      obtain ⟨first, others⟩ := List.forall_mem_cons.mp blank
      rw [isGapFrom, if_pos first]
      exact ih others

/-- No opening mark begins within another one. -/
theorem noOpening_within (clean : ¬("/**" : Text) <:+: body) :
    ¬("/**" : Text) <:+: ("**" : Text) ++ body := by
  intro stands
  rcases List.infix_cons_iff.mp stands with first | stands
  · exact absurd (List.cons_prefix_cons.mp first).1 (by decide)
  rcases List.infix_cons_iff.mp stands with first | stands
  · exact absurd (List.cons_prefix_cons.mp first).1 (by decide)
  · exact clean stands

/-- No closing mark begins within another one. -/
theorem noClosing_within (clean : ¬("*/" : Text) <:+: gap) :
    ¬("*/" : Text) <:+: ("/" : Text) ++ gap := by
  intro stands
  rcases List.infix_cons_iff.mp stands with first | stands
  · exact absurd (List.cons_prefix_cons.mp first).1 (by decide)
  · exact clean stands

/-- **A comment is attached to the end of its gap**, whatever stands before it. -/
theorem before?_append (before rest : Text) (closed : ¬("*/" : Text) <:+: body)
    (opened : ¬("/**" : Text) <:+: body) (isGap_gap : isGap gap = true)
    (clean : ¬("*/" : Text) <:+: gap) :
    before? (before ++ "/**" ++ body ++ "*/" ++ gap ++ rest)
        (before ++ "/**" ++ body ++ "*/" ++ gap).length =
      some ⟨before.length, (before ++ "/**" ++ body ++ "*/").length, body⟩ := by
  have mark : ("*/" : Text) ≠ [] := by decide
  have closes : lastIndexOf? "*/" (before ++ "/**" ++ body ++ "*/" ++ gap) =
      some (before ++ "/**" ++ body).length := by
    rw [List.append_assoc _ _ gap]
    exact lastIndexOf?_append_cons _ (noClosing_within clean)
  have opens : lastIndexOf? "/**" (before ++ "/**" ++ body) = some before.length := by
    rw [List.append_assoc]
    exact lastIndexOf?_append_cons _ (noOpening_within opened)
  have start : (before ++ "/**").length = before.length + 3 := List.length_append
  have stop : (before ++ "/**" ++ body ++ "*/").length = (before ++ "/**" ++ body).length + 2 :=
    List.length_append
  have ahead : (before ++ "/**" ++ body ++ "*/" ++ gap).take (before ++ "/**" ++ body).length =
      before ++ "/**" ++ body := by
    rw [List.append_assoc _ _ gap, List.take_left]
  refine before?_eq_some.mpr ⟨(before ++ "/**" ++ body).length, before.length, ?_⟩
  rw [List.take_left, ahead, ← stop, ← start, List.drop_left, List.drop_left]
  refine ⟨closes, isGap_gap, opens, ?_, rfl⟩
  rw [Bool.eq_false_iff, ne_eq, hasPart_eq_true_iff mark, exists_standsAt_iff]
  exact closed

/-! ### Lines -/

/-- The lines of a comment say something. -/
theorem ne_nil_of_mem_lines (body : Text) : ∀ l ∈ lines body, l ≠ [] := by
  intro l hl
  simpa using List.of_mem_filter hl

/-- **What may be written as a line of a comment.** -/
structure IsDocLine (l : Text) : Prop where
  /-- Something is said. -/
  nonempty : l ≠ []
  /-- There are no blanks around it. -/
  bare : l.strip = l
  /-- It does not end the comment. -/
  closed : ¬("*/" : Text) <:+: l
  /-- It does not begin a comment. -/
  opened : ¬("/**" : Text) <:+: l
  /-- It is a single line. -/
  single : ∀ c ∈ l, c.isLineBreak = false

instance (l : Text) : Decidable (IsDocLine l) :=
  decidable_of_iff (l ≠ [] ∧ l.strip = l ∧ ¬("*/" : Text) <:+: l ∧ ¬("/**" : Text) <:+: l ∧
      (l.all fun c => !c.isLineBreak) = true) <| by
    constructor
    · rintro ⟨nonempty, bare, closed, opened, single⟩
      exact ⟨nonempty, bare, closed, opened, fun c hc => by
        simpa using List.all_eq_true.mp single c hc⟩
    · intro h
      refine ⟨h.nonempty, h.bare, h.closed, h.opened, List.all_eq_true.mpr fun c hc => ?_⟩
      rw [h.single c hc]
      rfl

/-- A line with a star in front. -/
def starred (l : Text) : Text := " * " ++ l

/-- A line with a star in front and its line feed. -/
def starredLine (l : Text) : Text := starred l ++ "\n"

/-- What stands between the marks of a comment that is written line by line. -/
def writtenBody (ls : List Text) : Text :=
  ("\n" : Text) ++ ls.flatMap starredLine ++ " "

theorem IsDocLine.bareLine_starred (h : IsDocLine l) : bareLine (starred l) = l := by
  have inner : Text.strip (("* " : Text) ++ l) = ("* " : Text) ++ l := by
    refine trim_eq_self_iff.mpr ⟨fun c hc => ?_, fun c hc => ?_⟩
    · cases hc
      decide
    · obtain ⟨d, r, rfl⟩ := List.exists_cons_of_ne_nil h.nonempty
      exact (trim_eq_self_iff.mp h.bare).2 c hc
  have outer : Text.strip (starred l) = ("* " : Text) ++ l :=
    (trim_cons (c := ' ') (by decide) _).trans inner
  rw [bareLine, outer]
  exact (trim_cons (c := ' ') (by decide) l).trans h.bare

theorem IsDocLine.single_starred (h : IsDocLine l) : ∀ c ∈ starred l, c.isLineBreak = false := by
  have star : ∀ c ∈ (" * " : Text), c.isLineBreak = false := by
    intro c hc
    have all : ((" * " : Text).all fun c => !c.isLineBreak) = true := rfl
    simpa using List.all_eq_true.mp all c hc
  exact List.forall_mem_append.mpr ⟨star, h.single⟩

/-- Each line of a written comment is one line of its text; the marks stand on two more. -/
theorem lines_eq_of_isDocLine (isDocLine : ∀ l ∈ ls, IsDocLine l) :
    Text.lines (writtenBody ls) = [] :: (ls.map starred ++ [(" " : Text)]) := by
  have cut : linesFrom false [] (ls.flatMap starredLine ++ " ") =
      ls.map starred ++ [(" " : Text)] := by
    induction ls with
    | nil => rfl
    | cons l ls ih =>
        obtain ⟨first, others⟩ := List.forall_mem_cons.mp isDocLine
        rw [List.flatMap_cons, starredLine, List.append_assoc, List.append_assoc]
        refine (linesFrom_append_cons first.single_starred [] _).trans ?_
        exact congrArg _ (ih others)
  exact congrArg _ cut

/-- **The lines of a written comment** are the ones that were written. -/
theorem lines_writtenBody (isDocLine : ∀ l ∈ ls, IsDocLine l) : lines (writtenBody ls) = ls := by
  have bare : (ls.map starred).map bareLine = ls := by
    have own : ∀ l ∈ ls, (bareLine ∘ starred) l = id l := fun l hl =>
      (isDocLine l hl).bareLine_starred
    rw [List.map_map, List.map_congr_left own, List.map_id]
  have marks : bareLine [] = [] ∧ bareLine (" " : Text) = [] := by decide
  have said : ls.filter (fun line => !line.isEmpty) = ls :=
    List.filter_eq_self.mpr fun l hl => by simpa using (isDocLine l hl).nonempty
  rw [lines, lines_eq_of_isDocLine isDocLine, List.map_cons, List.map_append, bare,
    List.map_singleton, marks.1, marks.2]
  simp [said]

/-! ### Written Files -/

/-- A mark stands in a written comment only if it stands in one of its lines: it reaches neither
across a line feed nor across a blank. -/
theorem notWithin_writtenBody {mark : Text} (noFeed : ('\n' : CodePoint) ∉ mark)
    (noBlank : (' ' : CodePoint) ∉ mark) (noStar : ¬mark <:+: "*")
    (clean : ∀ l ∈ ls, ¬mark <:+: l) : ¬mark <:+: writtenBody ls := by
  have nowhere : ¬mark <:+: [] := fun stands => noStar (stands.trans List.nil_infix)
  have rest : ¬mark <:+: ls.flatMap starredLine ++ " " := by
    induction ls with
    | nil =>
        intro stands
        rcases infix_cases (x := []) (y := []) noBlank stands with stands | stands
        · exact nowhere stands
        · exact nowhere stands
    | cons l ls ih =>
        obtain ⟨first, others⟩ := List.forall_mem_cons.mp clean
        intro stands
        rw [List.flatMap_cons, starredLine, List.append_assoc, List.append_assoc] at stands
        rcases infix_cases noFeed stands with inLine | later
        · rcases infix_cases (x := []) (y := "* " ++ l) noBlank inLine with stands | stands
          · exact nowhere stands
          rcases infix_cases (x := "*") (y := l) noBlank stands with stands | stands
          · exact noStar stands
          · exact first stands
        · exact ih others later
  intro stands
  rcases infix_cases (x := []) noFeed stands with stands | stands
  · exact nowhere stands
  · exact rest stands

/-- **A file with a written comment** in front of a handler. -/
structure Written where
  /-- What stands before the comment. -/
  before : Text
  /-- The lines of the comment. -/
  lines : List Text
  /-- What stands between the comment and the handler. -/
  gap : Text
  /-- The handler and what follows. -/
  rest : Text
  /-- The lines can be written in a comment. -/
  isDocLine : ∀ l ∈ lines, IsDocLine l
  /-- There are only blanks in the gap. -/
  blank : ∀ c ∈ gap, c.isBlank = true

namespace Written

/-- What stands before the handler. -/
def ahead (w : Written) : Text :=
  w.before ++ "/**\n" ++ w.lines.flatMap starredLine ++ " */" ++ w.gap

/-- The text of the file. -/
def text (w : Written) : Text := w.ahead ++ w.rest

theorem ahead_eq (w : Written) :
    w.ahead = w.before ++ "/**" ++ writtenBody w.lines ++ "*/" ++ w.gap := by
  have opening : ("/**\n" : Text) = ("/**" : Text) ++ "\n" := rfl
  have closing : (" */" : Text) = (" " : Text) ++ "*/" := rfl
  rw [ahead, writtenBody, opening, closing]
  simp only [List.append_assoc]

/-- **A written comment is read back**: it is attached to the handler, and its lines are the ones
that were written. -/
theorem exists_before? (w : Written) :
    ∃ d, before? w.text w.ahead.length = some d ∧ DocComment.lines d.body = w.lines := by
  have closed : ¬("*/" : Text) <:+: writtenBody w.lines :=
    notWithin_writtenBody (by decide) (by decide) (by decide) fun l hl => (w.isDocLine l hl).closed
  have opened : ¬("/**" : Text) <:+: writtenBody w.lines :=
    notWithin_writtenBody (by decide) (by decide) (by decide) fun l hl => (w.isDocLine l hl).opened
  have clean : ¬("*/" : Text) <:+: w.gap := by
    intro stands
    have blank := w.blank '*' (stands.subset (by decide))
    exact absurd blank (by decide)
  rw [text, ahead_eq]
  exact ⟨_, before?_append w.before w.rest closed opened (isGap_of_blank w.blank) clean,
    lines_writtenBody w.isDocLine⟩

end Written

end DocComment

end RouteDocs
