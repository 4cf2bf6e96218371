import RouteDocs.Proofs.Infer.Answers
import RouteDocs.Proofs.Infer.Note
import RouteDocs.Proofs.Text.Join

/-!
# Annotations Line by Line

The blanks within an annotation may contain the end of its line. So a text is read as its lines are
unless one of them ends before its annotation does: then the annotation takes up what follows.

## Main Definitions

* `Response.IsHead`: the beginning of an annotation that has no text yet
* `Response.LeavesOpen`: lines that end with such a beginning
* `Response.mergeLines`: the annotated answers of lines, one after another

## Main Statements

* `Response.notes_of_none`, `Response.notes_of_visible`: the annotations of a text, step by step
* `Response.notes_append_line`: a line that leaves no annotation open is read by itself
* `Response.exists_taken_up`: a line that leaves an annotation open is not
* `Response.annotated_lines`: **when annotations are read line by line**

## Design Notes

A line holds one annotation at most, since the text of an annotation goes on to the end of the line.
So the induction is on the line, and the first code point where an annotation begins settles it.
-/

namespace RouteDocs

namespace Response

open Pattern

variable {mark gap code space body rest t line more : Text} {x : CodePoint} {m : Match}

/-! ### Annotations Step by Step -/

theorem notes_eq (source : Text) : notes source =
    ((note.findAll source).map Match.group?).map fun g => ((g 1).getD [], (g 2).getD []) := by
  rw [List.map_map]
  rfl

/-- A text that no annotation begins has the annotations of what follows its first code point. -/
theorem notes_of_none (none : note.matchAt? (.start (x :: t)) = none) :
    notes (x :: t) = notes t := by
  rw [notes_eq, notes_eq, findAll_of_none looksAhead_note none]

/-- A text that an annotation begins has this annotation and those of what follows it. -/
theorem notes_of_some (matched : note.matchAt? (.start t) = some m) :
    notes t = (m.group 1, m.group 2) :: notes m.stop.rest := by
  have nonempty : m.stop.rest.length < t.length := by
    obtain ⟨mark, gap, space, begins⟩ := exists_begins_of_matchAt? matched
    have text : t = _ := begins.text
    rw [text]
    simp only [List.length_append, begins.code.size]
    omega
  rw [notes_eq, notes_eq, findAll_of_some looksAhead_note matched nonempty]
  rfl

/-- **A text that begins with an annotation**, whose text begins behind the blanks and ends with its
line, has this annotation and those of what follows it. -/
theorem notes_of_visible (begins : Begins mark gap code space body rest t)
    (visible : ∀ x ∈ body.head?, x.isBlank = false) (ends : ∀ x ∈ rest.head?, x = '\n') :
    notes t = (code, body) :: notes rest := by
  obtain ⟨m, matched, status, text, stop⟩ :=
    exists_matchAt?_of_visible (c := .start t) begins visible ends
  rw [notes_of_some matched, status, text, stop]

/-- A code point other than the sign of the mark is passed by. -/
theorem notes_cons (other : x ≠ '@') : notes (x :: t) = notes t :=
  notes_of_none (matchAt?_note_eq_none fun same => other (Option.some.inj same))

/-- A text without the sign of the mark has no annotations. -/
theorem notes_eq_nil (absent : ('@' : CodePoint) ∉ t) : notes t = [] := by
  induction t with
  | nil => rfl
  | cons x t ih =>
      obtain ⟨other, later⟩ := not_or.mp (List.mem_cons.not.mp absent)
      rw [notes_cons (Ne.symm other), ih later]

/-! ### Lines That Leave an Annotation Open -/

/-- **The beginning of an annotation that has no text yet**: its mark and blanks, perhaps with a
code and more blanks. -/
inductive IsHead : Text → Prop
  /-- The mark. -/
  | mark {mark blank : Text} (isMark : IsMark mark) (blanks : ∀ c ∈ blank, c.isBlank = true) :
      IsHead (mark ++ blank)
  /-- The mark and the code. -/
  | code {mark gap code blank : Text} (isMark : IsMark mark) (isGap : IsGap gap)
      (isCode : IsCode code) (blanks : ∀ c ∈ blank, c.isBlank = true) :
      IsHead (mark ++ (gap ++ (code ++ blank)))

/-- **Lines that leave an annotation open**: they end with its beginning, and the text of another
annotation does not cover that. -/
structure LeavesOpen (line : Text) : Prop where
  /-- The line ends with the beginning of an annotation. -/
  ends : ∃ h, h <:+ line ∧ IsHead h
  /-- Annotations of the line have no text but blanks. -/
  blank : ∀ n ∈ notes line, ∀ c ∈ n.2, c.isBlank = true

theorem ne_sign_of_isBlank {c : CodePoint} (blank : c.isBlank = true) : c ≠ '@' := by
  rintro rfl
  cases blank

theorem ne_sign_of_isDigit {c : CodePoint} (digit : c.isDigit = true) : c ≠ '@' := by
  rintro rfl
  revert digit
  decide

/-- Only its first code point is the sign of the mark. -/
theorem IsHead.exists_eq {h : Text} (head : IsHead h) :
    ∃ r : Text, h = ('@' : CodePoint) :: r ∧ ('@' : CodePoint) ∉ r := by
  have letters {r : Text} (high : ∀ c ∈ r, 0x41 ≤ c.val) : ('@' : CodePoint) ∉ r := fun mem =>
    absurd (high _ mem) (by decide)
  have blanks {r : Text} (blank : ∀ c ∈ r, c.isBlank = true) : ('@' : CodePoint) ∉ r := fun mem =>
    ne_sign_of_isBlank (blank _ mem) rfl
  cases head with
  | mark isMark blank =>
      obtain ⟨r, rfl, high⟩ := isMark.exists_eq
      refine ⟨r ++ _, rfl, fun mem => ?_⟩
      exact (List.mem_append.mp mem).elim (letters high) (blanks blank)
  | code isMark isGap isCode blank =>
      obtain ⟨r, rfl, high⟩ := isMark.exists_eq
      refine ⟨r ++ _, rfl, fun mem => ?_⟩
      rcases List.mem_append.mp mem with mem | mem
      · exact letters high mem
      rcases List.mem_append.mp mem with mem | mem
      · exact blanks isGap.blank mem
      rcases List.mem_append.mp mem with mem | mem
      · exact ne_sign_of_isDigit (isCode.digits _ mem) rfl
      · exact blanks blank mem

/-! ### Lines and What Follows Them -/

/-- Text without a code point comes before that code point as a whole. -/
theorem exists_cut {s w r u : Text} (clean : x ∉ w) (eq : s ++ x :: r = w ++ u) :
    ∃ s', s = w ++ s' ∧ u = s' ++ x :: r := by
  rcases List.append_eq_append_iff.mp eq with ⟨as, inside, rest⟩ | ⟨s', whole, rest⟩
  · cases as with
    | nil => exact ⟨[], by rw [inside, List.append_nil, List.append_nil], rest.symm⟩
    | cons y as =>
        obtain rfl : x = y := (List.cons.inj rest).1
        exact absurd (by rw [inside]; simp) clean
  · exact ⟨s', whole, rest⟩

/-- **Where an annotation begins in a line**: it is one of the line, or the line ends before its
text. -/
theorem isHead_or_begins {s : Text} (single : ('\n' : CodePoint) ∉ s)
    (begins : Begins mark gap code space body rest (s ++ ('\n' : CodePoint) :: more)) :
    IsHead s ∨ ∃ rest', Begins mark gap code space body rest' s := by
  have low : ('\n' : CodePoint).val < 0x41 := by decide
  have inMark : ('\n' : CodePoint) ∉ mark := by
    obtain ⟨r, eq, high⟩ := begins.mark.exists_eq
    rw [eq]
    intro mem
    rcases List.mem_cons.mp mem with same | mem
    · revert same
      decide
    · exact absurd (high _ mem) (Nat.not_le_of_lt low)
  have inCode : ('\n' : CodePoint) ∉ code := fun mem => by
    have digit := begins.code.digits _ mem
    revert digit
    decide
  obtain ⟨s₁, rfl, after₁⟩ := exists_cut inMark begins.text
  rcases List.append_eq_append_iff.mp after₁ with ⟨s₂, rfl, after₂⟩ | ⟨as, inside, -⟩
  · obtain ⟨s₃, rfl, after₃⟩ := exists_cut inCode after₂.symm
    rcases List.append_eq_append_iff.mp after₃ with ⟨s₄, rfl, after₄⟩ | ⟨as, inside, -⟩
    · obtain ⟨rest', rfl, -⟩ := exists_cut begins.single after₄.symm
      exact .inr ⟨rest', rfl, begins.mark, begins.gap, begins.code, begins.space,
        begins.nonempty, begins.single⟩
    · refine .inl (.code begins.mark begins.gap begins.code fun c hc => ?_)
      exact begins.space.blank c (inside ▸ List.mem_append_left as hc)
  · refine .inl (.mark begins.mark fun c hc => ?_)
    exact begins.gap.blank c (inside ▸ List.mem_append_left as hc)

/-- What begins with an annotation still does if more text follows. -/
theorem Begins.append (begins : Begins mark gap code space body rest t) (r : Text) :
    Begins mark gap code space body (rest ++ r) (t ++ r) where
  text := by
    rw [begins.text]
    simp only [List.append_assoc]
  mark := begins.mark
  gap := begins.gap
  code := begins.code
  space := begins.space
  nonempty := begins.nonempty
  single := begins.single

/-- **An annotation that begins a line** has no text but blanks, or its text begins behind the
blanks and goes on to the end of the line. -/
theorem Begins.of_line (begins : Begins mark gap code space body rest line)
    (single : ('\n' : CodePoint) ∉ line) :
    (IsHead line ∧ (∀ c ∈ body, c.isBlank = true) ∧ ('@' : CodePoint) ∉ rest) ∨
      ∃ space' body', Begins mark gap code space' body' [] line ∧
        ∀ c ∈ body'.head?, c.isBlank = false := by
  have split := List.takeWhile_append_dropWhile (p := CodePoint.isBlank) (l := body ++ rest)
  have blank : ∀ c ∈ (body ++ rest).takeWhile CodePoint.isBlank, c.isBlank = true :=
    fun c => List.mem_takeWhile_imp
  have ends := List.head?_dropWhile_not CodePoint.isBlank (body ++ rest)
  generalize (body ++ rest).takeWhile CodePoint.isBlank = more at split blank
  generalize (body ++ rest).dropWhile CodePoint.isBlank = visible at split ends
  by_cases empty : visible = []
  · have all : ∀ c ∈ body ++ rest, c.isBlank = true := by
      rw [← split, empty, List.append_nil]
      exact blank
    obtain ⟨ofBody, ofRest⟩ := List.forall_mem_append.mp all
    refine .inl ⟨?_, ofBody, fun mem => ne_sign_of_isBlank (ofRest _ mem) rfl⟩
    rw [begins.text]
    refine .code begins.mark begins.gap begins.code ?_
    exact List.forall_mem_append.mpr ⟨begins.space.blank, all⟩
  · refine .inr ⟨space ++ more, visible, ?_, fun c first => ?_⟩
    · have text : line = mark ++ (gap ++ (code ++ ((space ++ more) ++ (visible ++ [])))) := by
        rw [begins.text, ← split, List.append_nil, List.append_assoc]
      refine ⟨text, begins.mark, begins.gap, begins.code, ⟨?_, ?_⟩, empty, fun mem => single ?_⟩
      · exact List.append_ne_nil_of_left_ne_nil begins.space.nonempty _
      · exact List.forall_mem_append.mpr ⟨begins.space.blank, blank⟩
      · rw [text]
        simp [mem]
    · rw [Option.mem_def.mp first] at ends
      exact ends

/-- **A line that an annotation begins** ends before the text of the annotation, or the text goes on
to the end of the line. -/
theorem notes_of_line (matched : note.matchAt? (.start line) = some m)
    (single : ('\n' : CodePoint) ∉ line) :
    (IsHead line ∧ ∀ n ∈ notes line, ∀ c ∈ n.2, c.isBlank = true) ∨
      ∃ mark gap code space body, Begins mark gap code space body [] line ∧
        ∀ c ∈ body.head?, c.isBlank = false := by
  obtain ⟨mark, gap, space, begins⟩ := exists_begins_of_matchAt? matched
  rcases begins.of_line single with ⟨head, blank, absent⟩ | ⟨space', body', visible⟩
  · refine .inl ⟨head, ?_⟩
    rw [notes_of_some matched, notes_eq_nil absent]
    exact List.forall_mem_singleton.mpr blank
  · exact .inr ⟨mark, gap, _, space', body', visible⟩

/-! ### One Line -/

theorem notes_lineFeed (more : Text) : notes (('\n' : CodePoint) :: more) = notes more :=
  notes_cons (by decide)

/-- If no annotation begins a line, one begins it only with what follows, and the line is open. -/
theorem matchAt?_eq_none_or_isHead (single : ('\n' : CodePoint) ∉ line)
    (none : note.matchAt? (.start line) = none) (more : Text) :
    note.matchAt? (.start (line ++ ('\n' : CodePoint) :: more)) = .none ∨ IsHead line := by
  cases matched : note.matchAt? (.start (line ++ ('\n' : CodePoint) :: more)) with
  | none => exact .inl rfl
  | some m =>
      obtain ⟨mark, gap, space, begins⟩ := exists_begins_of_matchAt? matched
      rcases isHead_or_begins single begins with head | ⟨rest', own⟩
      · exact .inr head
      · obtain ⟨m', found⟩ := exists_matchAt?_of_begins (c := .start line) own
        rw [none] at found
        cases found

/-- **A line that leaves no annotation open is read by itself.** -/
theorem notes_append_line (single : ('\n' : CodePoint) ∉ line) (closed : ¬ LeavesOpen line)
    (more : Text) : notes (line ++ ('\n' : CodePoint) :: more) = notes line ++ notes more := by
  induction line with
  | nil => exact notes_lineFeed more
  | cons x l ih =>
      cases matched : note.matchAt? (.start (x :: l)) with
      | none =>
          have next := notes_of_none matched
          have whole : note.matchAt? (.start (x :: l ++ ('\n' : CodePoint) :: more)) = none := by
            refine (matchAt?_eq_none_or_isHead single matched more).resolve_right fun head => ?_
            obtain ⟨r, eq, absent⟩ := head.exists_eq
            have later : ('@' : CodePoint) ∉ l := (List.cons.inj eq).2 ▸ absent
            refine closed ⟨⟨_, List.suffix_rfl, head⟩, ?_⟩
            rw [next, notes_eq_nil later]
            exact List.forall_mem_nil _
          rw [next, ← ih (fun mem => single (List.mem_cons_of_mem x mem)) fun still => ?_]
          · exact notes_of_none whole
          · obtain ⟨⟨h, suffix, head⟩, blank⟩ := still
            exact closed ⟨⟨h, suffix.trans (List.suffix_cons x l), head⟩, next ▸ blank⟩
      | some m =>
          rcases notes_of_line matched single with ⟨head, blank⟩ | ⟨_, _, _, _, _, own, visible⟩
          · exact absurd ⟨⟨_, List.suffix_rfl, head⟩, blank⟩ closed
          · have whole := own.append (('\n' : CodePoint) :: more)
            rw [notes_of_visible own visible (by simp), notes_of_visible whole visible (by simp),
              List.nil_append, notes_lineFeed]
            rfl

/-- The beginning of an annotation takes up a text that follows it. -/
theorem IsHead.exists_taken_up {h : Text} (head : IsHead h) :
    ∃ more code : Text, notes (h ++ ('\n' : CodePoint) :: more) = [(code, ("x" : Text))] ∧
      notes more = [] := by
  have gap {blank : Text} (blanks : ∀ c ∈ blank, c.isBlank = true) :
      IsGap (blank ++ [('\n' : CodePoint)]) :=
    ⟨by simp, List.forall_mem_append.mpr ⟨blanks, List.forall_mem_singleton.mpr rfl⟩⟩
  have visible : ∀ c ∈ ("x" : Text).head?, c.isBlank = false := by
    rintro _ ⟨⟩
    rfl
  have atEnd : ∀ c ∈ ([] : Text).head?, c = '\n' := by
    rintro _ ⟨⟩
  have letter : ("x" : Text) ≠ [] ∧ ('\n' : CodePoint) ∉ ("x" : Text) := by decide
  cases head with
  | @mark mark blank isMark blanks =>
      have code : IsCode "200" := ⟨rfl, List.all_eq_true.mp rfl⟩
      have space : IsGap " " := ⟨by decide, List.all_eq_true.mp rfl⟩
      have text : mark ++ blank ++ ('\n' : CodePoint) :: ("200 x" : Text) =
          mark ++ ((blank ++ [('\n' : CodePoint)]) ++
            (("200" : Text) ++ ((" " : Text) ++ (("x" : Text) ++ [])))) := by
        simp only [List.append_assoc, List.append_cancel_left_eq]
        rfl
      refine ⟨"200 x", "200", ?_, rfl⟩
      exact notes_of_visible ⟨text, isMark, gap blanks, code, space, letter.1, letter.2⟩ visible
        atEnd
  | @code mark before code blank isMark isGap isCode blanks =>
      have text : mark ++ (before ++ (code ++ blank)) ++ ('\n' : CodePoint) :: ("x" : Text) =
          mark ++ (before ++ (code ++ ((blank ++ [('\n' : CodePoint)]) ++
            (("x" : Text) ++ [])))) := by
        simp only [List.append_assoc, List.append_cancel_left_eq]
        rfl
      refine ⟨"x", code, ?_, rfl⟩
      exact notes_of_visible ⟨text, isMark, isGap, isCode, gap blanks, letter.1, letter.2⟩ visible
        atEnd

/-- **A line that leaves an annotation open takes up a text that follows it.** -/
theorem LeavesOpen.exists_taken_up (still : LeavesOpen line) (single : ('\n' : CodePoint) ∉ line) :
    ∃ more code : Text, notes (line ++ ('\n' : CodePoint) :: more) = [(code, ("x" : Text))] ∧
      notes more = [] := by
  induction line with
  | nil =>
      obtain ⟨⟨h, suffix, head⟩, -⟩ := still
      obtain ⟨r, rfl, -⟩ := head.exists_eq
      cases List.suffix_nil.mp suffix
  | cons x l ih =>
      obtain ⟨⟨h, suffix, head⟩, blank⟩ := still
      rcases List.suffix_cons_iff.mp suffix with rfl | inner
      · exact head.exists_taken_up
      -- the sign of the mark stands behind the first code point, so no beginning does there
      have noHead : ¬ IsHead (x :: l) := fun other => by
        obtain ⟨r, rfl, -⟩ := head.exists_eq
        obtain ⟨r', eq, absent⟩ := other.exists_eq
        exact absent ((List.cons.inj eq).2 ▸ inner.subset List.mem_cons_self)
      cases matched : note.matchAt? (.start (x :: l)) with
      | none =>
          have next := notes_of_none matched
          obtain ⟨more, code, taken, nothing⟩ :=
            ih ⟨⟨h, inner, head⟩, next ▸ blank⟩ fun mem => single (List.mem_cons_of_mem x mem)
          have whole := (matchAt?_eq_none_or_isHead single matched more).resolve_right noHead
          exact ⟨more, code, (notes_of_none whole).trans taken, nothing⟩
      | some m =>
          rcases notes_of_line matched single with ⟨other, -⟩ | ⟨_, _, _, _, body, own, visible⟩
          · exact absurd other noHead
          · rw [notes_of_visible own visible (by simp)] at blank
            obtain ⟨c, r, rfl⟩ := List.exists_cons_of_ne_nil own.nonempty
            have dark := blank _ List.mem_cons_self c List.mem_cons_self
            rw [visible c rfl] at dark
            cases dark

/-! ### All Lines -/

/-- The annotated answers of lines, one after another: a later answer for a code replaces an
earlier one in its place. -/
def mergeLines (lines : List Text) : Except NoteFault (Assoc Response) :=
  lines.foldlM (fun found line => (annotated line).map (Assoc.update found)) []

/-- Lines are merged as their annotations are, one after another. -/
theorem mergeLines_eq (lines : List Text) :
    mergeLines lines = ((lines.flatMap notes).mapM entry).map Assoc.ofList := by
  -- the map that is filled so far is general
  have fold (start : Assoc Response) (nodup : start.keys.Nodup) :
      lines.foldlM (fun found line => (annotated line).map (Assoc.update found)) start =
        ((lines.flatMap notes).mapM entry).map (Assoc.update start) := by
    induction lines generalizing start with
    | nil => rfl
    | cons line more ih =>
        rw [List.foldlM_cons, annotated_eq, List.flatMap_cons, List.mapM_append]
        cases (notes line).mapM entry with
        | error e => rfl
        | ok es =>
            change List.foldlM _ (start.update (Assoc.ofList es)) more = _
            rw [Assoc.update_ofList nodup, ih _ (Assoc.nodup_update nodup)]
            cases (more.flatMap notes).mapM entry with
            | error e => rfl
            | ok es' => exact congrArg Except.ok (Assoc.update_append es').symm
  exact fold [] List.nodup_nil

/-- The annotations of a text are those of its lines, if no line but the last leaves one open. -/
theorem notes_lines {content : Text}
    (closed : ∀ line ∈ (content.splitOn '\n').dropLast, ¬ LeavesOpen line) :
    notes content = (content.splitOn '\n').flatMap notes := by
  induction size : content.length using Nat.strong_induction_on generalizing content with
  | _ n ih =>
      by_cases several : ('\n' : CodePoint) ∈ content
      · obtain ⟨line, more, rfl, single⟩ := List.eq_append_cons_of_mem several
        have clean : ∀ c ∈ line, c ≠ '\n' := fun c mem same => single (same ▸ mem)
        have shorter : more.length < n := by
          rw [← size, List.length_append, List.length_cons]
          omega
        rw [Text.splitOn_append_cons clean] at closed ⊢
        rw [List.dropLast_cons_of_ne_nil (Text.splitOn_ne_nil '\n' more)] at closed
        obtain ⟨first, others⟩ := List.forall_mem_cons.mp closed
        rw [notes_append_line single first, List.flatMap_cons, ih _ shorter others rfl]
      · have clean : ∀ c ∈ content, c ≠ '\n' := fun c mem same => several (same ▸ mem)
        rw [Text.splitOn_eq_singleton clean, List.flatMap_singleton]

/-- An annotation without text has an empty description. -/
theorem ofNote_of_blank {status text : Text} (blank : ∀ c ∈ text, c.isBlank = true) :
    ofNote status text = .ok ⟨status, [], .null, [], []⟩ := by
  have nothing : noteText text = [] := by
    have left : text.dropWhile CodePoint.isBlank = [] := List.dropWhile_eq_nil_iff.mpr blank
    rw [noteText, Text.strip, Text.trim, Text.trimLeft, left]
    rfl
  rw [ofNote, nothing]
  rfl

/-- A line that leaves an annotation open is not read by itself. -/
theorem LeavesOpen.exists_ne (still : LeavesOpen line) (single : ('\n' : CodePoint) ∉ line) :
    ∃ more, annotated (line ++ ('\n' : CodePoint) :: more) ≠ mergeLines [line, more] := by
  obtain ⟨more, code, taken, nothing⟩ := still.exists_taken_up single
  have own : (notes line).mapM entry =
      .ok ((notes line).map fun n => (n.1, ⟨n.1, [], .null, [], []⟩)) :=
    mapM_eq_ok_map fun n mem => by rw [entry, ofNote_of_blank (still.blank n mem)]; rfl
  refine ⟨more, fun same => ?_⟩
  rw [annotated_eq, taken, mergeLines_eq, List.flatMap_cons, List.flatMap_singleton, nothing,
    List.append_nil, own] at same
  have same : [(code, ⟨code, "x", .null, [], []⟩)] =
      Assoc.ofList ((notes line).map fun n => (n.1, (⟨n.1, [], .null, [], []⟩ : Response))) :=
    Except.ok.inj same
  have mem := Assoc.mem_ofList (same ▸ List.mem_singleton_self _)
  obtain ⟨n, -, eq⟩ := List.mem_map.mp mem
  cases congrArg (fun p => p.2.description) eq

/-- **When annotations are read line by line.** A text has the annotated answers of its lines,
merged in order, if no line but the last leaves an annotation open; and a line is read by itself,
whatever follows it, exactly if it leaves none open. -/
theorem annotated_lines (content line : Text) :
    ((∀ line ∈ (content.splitOn '\n').dropLast, ¬ LeavesOpen line) →
      annotated content = mergeLines (content.splitOn '\n')) ∧
    (('\n' : CodePoint) ∉ line →
      ((∀ more, annotated (line ++ ('\n' : CodePoint) :: more) = mergeLines [line, more]) ↔
        ¬ LeavesOpen line)) := by
  refine ⟨fun closed => ?_, fun single => ⟨fun alone still => ?_, fun closed more => ?_⟩⟩
  · rw [annotated_eq, mergeLines_eq, notes_lines closed]
  · obtain ⟨more, ne⟩ := still.exists_ne single
    exact ne (alone more)
  · rw [annotated_eq, mergeLines_eq, notes_append_line single closed, List.flatMap_cons,
      List.flatMap_singleton]

/-- A comment of two annotations. -/
def ofTwo : Text := "@response 200 A user\n@response 404 Not found"

theorem annotated_lines_ofTwo :
    (∀ line ∈ (ofTwo.splitOn '\n').dropLast, ¬ LeavesOpen line) ∧
      annotated ofTwo = mergeLines (ofTwo.splitOn '\n') := by
  have closed : ∀ line ∈ (ofTwo.splitOn '\n').dropLast, ¬ LeavesOpen line := by
    intro line mem still
    have first : (ofTwo.splitOn '\n').dropLast = [("@response 200 A user" : Text)] := by
      decide +kernel
    rw [first, List.mem_singleton] at mem
    have noted : notes line = [(("200" : Text), ("A user" : Text))] := by
      rw [mem]
      decide +kernel
    have dark : ∀ c ∈ ("A user" : Text), c.isBlank = true :=
      still.blank _ (noted ▸ List.mem_singleton_self _)
    cases dark 'A' (by decide)
  exact ⟨closed, (annotated_lines ofTwo []).1 closed⟩

/-- **An annotation that hides the next one**: without a text of its own, it takes that of the
following line, and the annotation there is not read. -/
theorem annotated_takes_next_line :
    annotated "@response 200\n@response 404 Not found" =
      .ok [("200", ⟨"200", "@response 404 Not found", .null, [], []⟩)] ∧
    mergeLines (Text.splitOn '\n' "@response 200\n@response 404 Not found") =
      .ok [("404", ⟨"404", "Not found", .null, [], []⟩)] :=
  ⟨rfl, rfl⟩

end Response

end RouteDocs
