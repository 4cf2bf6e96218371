import RouteDocs.Handler.Title
import RouteDocs.Proofs.Handler.Written

/-!
# Titles From Comments

What the lines of a documentation comment say about the title and the description of a handler: the
last value of a tag counts, and without one the free text before the first tag.

## Main Definitions

* `Title.IsTagLine`: a line gives a value to a tag
* `Title.LastValue`: the value that counts among the lines
* `Title.Gives`: the title and the description that lines give

## Main Statements

* `Title.lastValue?_eq_some_iff`, `Title.lastValue?_eq_none_iff`: the last value, if there is one
* `Title.gives_iff`: lines give one title and one description at most
* `Title.documented?_eq`: what the comment in front of a handler gives
* `Title.infer_reads_written`: **a written comment is read back as title and description**, and no
  handler is without them

## Design Notes

`Gives` says for the title and for the description separately where they come from. The free text
before the first tag is the same for both.
-/

namespace RouteDocs

namespace Title

variable {tags ls free : List Text} {line tag value v : Text}

/-! ### Tag Lines -/

/-- **A line gives a value to a tag.** The name of the tag is in lower case here, in any letter case
in the line, and as long as it can be. -/
inductive IsTagLine : Text → Text → Text → Prop
  | intro {name rest : Text} (ne : name ≠ []) (part : ∀ c ∈ name, isTagPart c = true)
      (ends : ∀ c ∈ rest.head?, isTagPart c = false) :
      IsTagLine ('@' :: (name ++ rest)) name.lower rest.strip

/-- A line tells the value of one of several tags. -/
def Tells (tags : List Text) (line value : Text) : Prop :=
  ∃ tag ∈ tags, IsTagLine line tag value ∧ value ≠ []

/-- **The value that counts** is told by the last line that tells one. -/
def LastValue (tags ls : List Text) (value : Text) : Prop :=
  ∃ before line after, ls = before ++ line :: after ∧ Tells tags line value ∧
    ∀ l ∈ after, ∀ v, ¬Tells tags l v

/-- The lines before the first tag line. -/
structure IsFreeStart (ls free : List Text) : Prop where
  /-- The lines begin with it. -/
  exists_rest : ∃ rest, ls = free ++ rest ∧ ∀ l ∈ rest.head?, ∃ tag value, IsTagLine l tag value
  /-- No tag line is among it. -/
  noTag : ∀ l ∈ free, ∀ tag value, ¬IsTagLine l tag value

/-- What is told under a tag; something else if no line tells a value. -/
inductive Told (tags ls : List Text) (otherwise : Option Text) : Option Text → Prop
  | value {v : Text} (last : LastValue tags ls v) : Told tags ls otherwise (some v)
  | otherwise (silent : ∀ l ∈ ls, ∀ v, ¬Tells tags l v) : Told tags ls otherwise otherwise

/-- The free text without its first line, unless that line is alone. -/
def remaining? : List Text → Option Text
  | [] => none
  | [first] => some first
  | _ :: more => some (Text.join " " more)

/-- **The title and the description that lines give**, as far as they give them. -/
def Gives (ls : List Text) (title description : Option Text) : Prop :=
  ∃ free, IsFreeStart ls free ∧ Told ["api-title"] ls free.head? title ∧
    Told ["api-description", "description"] ls (remaining? free) description

/-- A title and a description, unless there is neither. -/
def both? (title description : Option Text) : Option (Option Text × Option Text) :=
  if title = none ∧ description = none then none else some (title, description)

theorem isTagLine_cons_iff {c : CodePoint} {r : Text} :
    IsTagLine (c :: r) tag value ↔ c = '@' ∧ r.takeWhile isTagPart ≠ [] ∧
      Text.lower (r.takeWhile isTagPart) = tag ∧ Text.strip (r.dropWhile isTagPart) = value := by
  constructor
  · rintro ⟨ne, part, ends⟩
    rw [Text.takeWhile_append_of_ends part ends, Text.dropWhile_append_of_ends part ends]
    exact ⟨rfl, ne, rfl, rfl⟩
  · rintro ⟨rfl, ne, rfl, rfl⟩
    have ends : ∀ c ∈ (r.dropWhile isTagPart).head?, isTagPart c = false := by
      intro c hc
      have other := List.head?_dropWhile_not isTagPart r
      rw [Option.mem_def.mp hc] at other
      exact other
    have h := IsTagLine.intro ne (fun c => List.mem_takeWhile_imp) ends
    rwa [List.takeWhile_append_dropWhile] at h

theorem classify_cons (c : CodePoint) (r : Text) :
    classify (c :: r) = if c = '@' ∧ r.takeWhile isTagPart ≠ [] then
      .tagged (Text.lower (r.takeWhile isTagPart)) (Text.strip (r.dropWhile isTagPart))
    else .free (c :: r) := by
  rw [classify]
  congr 1
  simp

/-- **Tag lines are told from free text.** -/
theorem classify_eq_tagged_iff : classify line = .tagged tag value ↔ IsTagLine line tag value := by
  cases line with
  | nil => exact ⟨fun h => (by cases h), fun h => (by cases h)⟩
  | cons c r =>
      rw [isTagLine_cons_iff, classify_cons]
      split_ifs with h
      · simp [h]
      · refine iff_of_false (fun same => (by cases same)) ?_
        rintro ⟨sign, ne, -⟩
        exact h ⟨sign, ne⟩

theorem classify_eq_free (noTag : ∀ tag value, ¬IsTagLine line tag value) :
    classify line = .free line := by
  cases line with
  | nil => rfl
  | cons c r =>
      rw [classify_cons, if_neg]
      rintro ⟨sign, ne⟩
      exact noTag _ _ (isTagLine_cons_iff.mpr ⟨sign, ne, rfl, rfl⟩)

/-! ### The Value that Counts -/

theorem lastValue?_append (tags : List Text) (a b : List Line) :
    lastValue? tags (a ++ b) = (lastValue? tags b).or (lastValue? tags a) := by
  rw [lastValue?, List.reverse_append, List.findSome?_append]
  rfl

theorem nonempty?_eq_some_iff {t u : Text} : t.nonempty? = some u ↔ t = u ∧ u ≠ [] := by
  rw [Text.nonempty?]
  split_ifs with empty
  · rw [List.isEmpty_iff.mp empty]
    refine iff_of_false (fun same => (by cases same)) ?_
    rintro ⟨rfl, ne⟩
    exact ne rfl
  · rw [List.isEmpty_iff] at empty
    refine ⟨fun same => ?_, fun same => congrArg some same.1⟩
    cases same
    exact ⟨rfl, empty⟩

/-- A single line tells the value that it gives to one of the tags. -/
theorem lastValue?_singleton : lastValue? tags [classify line] = some v ↔ Tells tags line v := by
  cases told : classify line with
  | free t =>
      refine iff_of_false (fun same => (by cases same)) ?_
      rintro ⟨tag, -, isTagLine, -⟩
      rw [classify_eq_tagged_iff.mpr isTagLine] at told
      cases told
  | tagged tag value =>
      have alone : lastValue? tags [.tagged tag value] =
          if tags.contains tag then value.nonempty? else none := by
        rw [lastValue?, List.reverse_singleton, List.findSome?_singleton]
      rw [alone]
      constructor
      · intro same
        obtain ⟨among, same⟩ := Option.ite_none_right_eq_some.mp same
        obtain ⟨rfl, ne⟩ := nonempty?_eq_some_iff.mp same
        exact ⟨tag, List.contains_iff_mem.mp among, classify_eq_tagged_iff.mp told, ne⟩
      · rintro ⟨tag', among, isTagLine, ne⟩
        have same := told.symm.trans (classify_eq_tagged_iff.mpr isTagLine)
        obtain ⟨rfl, rfl⟩ := Line.tagged.inj same
        rw [if_pos (List.contains_iff_mem.mpr among)]
        exact nonempty?_eq_some_iff.mpr ⟨rfl, ne⟩

/-- **There is no value** if no line tells one. -/
theorem lastValue?_eq_none_iff :
    lastValue? tags (ls.map classify) = none ↔ ∀ l ∈ ls, ∀ v, ¬Tells tags l v := by
  induction ls with
  | nil => exact iff_of_true rfl (List.forall_mem_nil _)
  | cons l ls ih =>
      have first : lastValue? tags [classify l] = none ↔ ∀ v, ¬Tells tags l v := by
        rw [Option.eq_none_iff_forall_ne_some]
        exact forall_congr' fun v => not_congr lastValue?_singleton
      rw [List.map_cons, ← List.singleton_append, lastValue?_append, Option.or_eq_none_iff, ih,
        first, List.forall_mem_cons, and_comm]

/-- **The value that counts** is the one of the last line that tells one. -/
theorem lastValue?_eq_some_iff :
    lastValue? tags (ls.map classify) = some v ↔ LastValue tags ls v := by
  constructor
  · intro found
    induction ls with
    | nil => cases found
    | cons l ls ih =>
        rw [List.map_cons, ← List.singleton_append, lastValue?_append, Option.or_eq_some_iff]
          at found
        rcases found with later | ⟨nothing, here⟩
        · obtain ⟨before, line, after, rfl, tells, silent⟩ := ih later
          exact ⟨l :: before, line, after, rfl, tells, silent⟩
        · exact ⟨[], l, ls, rfl, lastValue?_singleton.mp here, lastValue?_eq_none_iff.mp nothing⟩
  · rintro ⟨before, line, after, rfl, tells, silent⟩
    rw [List.map_append, lastValue?_append, List.map_cons, ← List.singleton_append,
      lastValue?_append, lastValue?_eq_none_iff.mpr silent, lastValue?_singleton.mpr tells]
    rfl

/-! ### Free Text -/

/-- **The free text** is what stands before the first tag line. -/
theorem isFreeStart_freeText (ls : List Text) : IsFreeStart ls (freeText (ls.map classify)) := by
  induction ls with
  | nil => exact ⟨⟨[], rfl, fun l hl => (by cases hl)⟩, List.forall_mem_nil _⟩
  | cons l ls ih =>
      rw [List.map_cons]
      by_cases isTag : ∃ tag value, IsTagLine l tag value
      · obtain ⟨tag, value, isTagLine⟩ := isTag
        rw [classify_eq_tagged_iff.mpr isTagLine]
        refine ⟨⟨l :: ls, rfl, fun first hfirst => ?_⟩, List.forall_mem_nil _⟩
        cases hfirst
        exact ⟨tag, value, isTagLine⟩
      · have noTag : ∀ tag value, ¬IsTagLine l tag value := fun tag value h => isTag ⟨tag, value, h⟩
        obtain ⟨⟨rest, eq, next⟩, others⟩ := ih
        rw [classify_eq_free noTag]
        exact ⟨⟨rest, congrArg _ eq, next⟩, List.forall_mem_cons.mpr ⟨noTag, others⟩⟩

/-- There is one such beginning. -/
theorem IsFreeStart.eq_freeText (h : IsFreeStart ls free) : free = freeText (ls.map classify) := by
  obtain ⟨⟨rest, rfl, next⟩, noTag⟩ := h
  induction free with
  | nil =>
      cases rest with
      | nil => rfl
      | cons l rest =>
          obtain ⟨tag, value, isTagLine⟩ := next l rfl
          rw [List.nil_append, List.map_cons, classify_eq_tagged_iff.mpr isTagLine]
          rfl
  | cons l free ih =>
      obtain ⟨first, others⟩ := List.forall_mem_cons.mp noTag
      rw [List.cons_append, List.map_cons, classify_eq_free first]
      exact congrArg (l :: ·) (ih others)

/-- What is told is the last value, or else what is put in its place. -/
theorem told_iff {otherwise told : Option Text} : Told tags ls otherwise told ↔
    told = (lastValue? tags (ls.map classify)).or otherwise := by
  constructor
  · intro h
    cases h with
    | value last =>
        rw [lastValue?_eq_some_iff.mpr last]
        rfl
    | otherwise silent =>
        rw [lastValue?_eq_none_iff.mpr silent]
        rfl
  · rintro rfl
    cases found : lastValue? tags (ls.map classify) with
    | none => exact .otherwise (lastValue?_eq_none_iff.mp found)
    | some v => exact .value (lastValue?_eq_some_iff.mp found)

/-- **Lines give one title and one description at most**, and they can be computed. -/
theorem gives_iff {title description : Option Text} : Gives ls title description ↔
    title = (lastValue? ["api-title"] (ls.map classify)).or (freeText (ls.map classify)).head? ∧
      description = (lastValue? ["api-description", "description"] (ls.map classify)).or
        (remaining? (freeText (ls.map classify))) := by
  constructor
  · rintro ⟨free, start, title, description⟩
    obtain rfl := start.eq_freeText
    exact ⟨told_iff.mp title, told_iff.mp description⟩
  · rintro ⟨title, description⟩
    exact ⟨_, isFreeStart_freeText ls, told_iff.mpr title, told_iff.mpr description⟩

theorem exists_gives (ls : List Text) : ∃ title description, Gives ls title description :=
  ⟨_, _, gives_iff.mpr ⟨rfl, rfl⟩⟩

theorem remaining?_cons {first : Text} {more : List Text} (said : ∀ l ∈ more, l ≠ []) :
    remaining? (first :: more) = some ((Text.join " " more).nonempty?.getD first) := by
  cases more with
  | nil => rfl
  | cons l more =>
      have ne : Text.join " " (l :: more) ≠ [] :=
        Text.join_ne_nil List.mem_cons_self (said l List.mem_cons_self)
      rw [nonempty?_eq_some_iff.mpr ⟨rfl, ne⟩]
      rfl

/-- **What lines give** is found, if each of them says something. -/
theorem ofLines?_eq {title description : Option Text} (said : ∀ l ∈ ls, l ≠ [])
    (gives : Gives ls title description) :
    ofLines? (ls.map classify) = both? title description := by
  obtain ⟨rfl, rfl⟩ := gives_iff.mp gives
  obtain ⟨⟨rest, eq, -⟩, -⟩ := isFreeStart_freeText ls
  rw [ofLines?]
  cases free : freeText (ls.map classify) with
  | nil => simp [both?, remaining?]
  | cons first more =>
      have others : ∀ l ∈ more, l ≠ [] := by
        intro l hl
        refine said l ?_
        rw [eq, free]
        exact List.mem_append_left _ (List.mem_cons_of_mem _ hl)
      simp [both?, remaining?_cons others]

/-! ### No Empty Texts -/

theorem Told.ne_nil {otherwise told : Option Text} (h : Told tags ls otherwise told)
    (said : ∀ v ∈ otherwise, v ≠ []) : ∀ v ∈ told, v ≠ [] := by
  cases h with
  | otherwise => exact said
  | value last =>
      obtain ⟨_, _, _, _, ⟨_, _, _, ne⟩, _⟩ := last
      intro v hv
      cases hv
      exact ne

theorem ne_nil_of_mem_remaining? (said : ∀ l ∈ free, l ≠ []) : ∀ v ∈ remaining? free, v ≠ [] := by
  intro v hv
  cases free with
  | nil => cases hv
  | cons first more =>
      obtain ⟨own, others⟩ := List.forall_mem_cons.mp said
      cases more with
      | nil =>
          cases hv
          exact own
      | cons l more =>
          cases hv
          exact Text.join_ne_nil List.mem_cons_self (others l List.mem_cons_self)

/-- Lines that say something give no empty texts. -/
theorem Gives.ne_nil {title description : Option Text} (said : ∀ l ∈ ls, l ≠ [])
    (h : Gives ls title description) : (∀ v ∈ title, v ≠ []) ∧ ∀ v ∈ description, v ≠ [] := by
  obtain ⟨free, ⟨⟨rest, rfl, -⟩, -⟩, title, description⟩ := h
  have said' : ∀ l ∈ free, l ≠ [] := fun l hl => said l (List.mem_append_left _ hl)
  refine ⟨title.ne_nil fun v hv => said' v (List.mem_of_mem_head? hv),
    description.ne_nil (ne_nil_of_mem_remaining? said')⟩

/-- The title and the description that are made from method and URL have blanks in between. -/
theorem exists_synthesized (ctx : RouteContext) :
    ∃ action resource more phrase subject byId, synthesized ctx =
      (Text.join " " (action :: resource :: more) ++ byId, phrase ++ " " ++ subject ++ byId) :=
  ⟨_, _, _, _, _, _, rfl⟩

theorem synthesized_ne_nil (ctx : RouteContext) :
    (synthesized ctx).1 ≠ [] ∧ (synthesized ctx).2 ≠ [] := by
  have blank : (" " : Text) ≠ [] := by decide
  obtain ⟨action, resource, more, phrase, subject, byId, eq⟩ := exists_synthesized ctx
  rw [eq, Text.join_cons_cons]
  simp [blank]

/-- **What the comment in front of a handler gives.** -/
theorem documented?_eq {ctx : RouteContext} {offset : Int} {d : DocComment}
    {title description : Option Text} (here : ctx.handlerOffset = some offset)
    (found : DocComment.before? ctx.content offset = some d)
    (gives : Gives (DocComment.lines d.body) title description) :
    documented? ctx = both? title description := by
  rw [documented?, here]
  change (DocComment.before? ctx.content offset).bind _ = _
  rw [found]
  exact ofLines?_eq (DocComment.ne_nil_of_mem_lines d.body) gives

theorem documented?_ne_nil {ctx : RouteContext} {title description : Option Text}
    (h : documented? ctx = some (title, description)) :
    (∀ v ∈ title, v ≠ []) ∧ ∀ v ∈ description, v ≠ [] := by
  obtain ⟨offset, here, rest⟩ := Option.bind_eq_some_iff.mp h
  obtain ⟨d, found, -⟩ := Option.bind_eq_some_iff.mp rest
  obtain ⟨title', description', gives⟩ := exists_gives (DocComment.lines d.body)
  have eq := documented?_eq here found gives
  rw [h, both?] at eq
  split_ifs at eq
  cases eq
  exact gives.ne_nil (DocComment.ne_nil_of_mem_lines d.body)

theorem getD_ne_nil {o : Option Text} (said : ∀ v ∈ o, v ≠ []) (ne : v ≠ []) : o.getD v ≠ [] := by
  cases o with
  | none => exact ne
  | some u => exact said u rfl

/-- **No handler is without title and description.** -/
theorem infer_ne_nil (ctx : RouteContext) : (infer ctx).1 ≠ [] ∧ (infer ctx).2 ≠ [] := by
  obtain ⟨title, description⟩ := synthesized_ne_nil ctx
  rw [infer]
  cases documented : documented? ctx with
  | none => exact ⟨title, description⟩
  | some given =>
      obtain ⟨t, d⟩ := given
      obtain ⟨own, other⟩ := documented?_ne_nil documented
      refine ⟨getD_ne_nil own title, getD_ne_nil ?_ description⟩
      cases d with
      | none => exact own
      | some v => exact other

/-- **A written comment is read back as title and description**, whatever stands before it and after
the handler. No handler is without title and description. -/
theorem infer_reads_written (ctx : RouteContext) :
    ((infer ctx).1 ≠ [] ∧ (infer ctx).2 ≠ []) ∧
      ∀ w : DocComment.Written, ctx.content = w.text → ctx.handlerOffset = some w.ahead.length →
        (∃ d, DocComment.before? ctx.content w.ahead.length = some d ∧
            DocComment.lines d.body = w.lines) ∧
          (∃ title description, Gives w.lines title description) ∧
            ∀ title description, Gives w.lines title description →
              documented? ctx = both? title description := by
  refine ⟨infer_ne_nil ctx, fun w content here => ?_⟩
  obtain ⟨d, found, lines⟩ := w.exists_before?
  rw [← content] at found
  refine ⟨⟨d, found, lines⟩, exists_gives w.lines, fun title description gives => ?_⟩
  rw [← lines] at gives
  exact documented?_eq here found gives

/-- A file with a comment of free text and two tags, after another comment. -/
def tagged : DocComment.Written where
  before := "/** Users. */\n"
  lines := ["Lists users.", "Newest first.", "@API-Title  Users", "@param page"]
  gap := "\n"
  rest := "export async function GET() \x7b\x7d"
  isDocLine := by decide +kernel
  blank := List.all_eq_true.mp rfl

/-- The handler of the file. -/
def ofTagged : RouteContext :=
  ⟨"GET", "/api/users", "app/api/users/route.ts", tagged.text, none, some tagged.ahead.length,
    RouteContext.defaultLogin⟩

theorem infer_reads_written_ofTagged :
    ofTagged.content = tagged.text ∧ ofTagged.handlerOffset = some tagged.ahead.length ∧
      ((∃ d, DocComment.before? ofTagged.content tagged.ahead.length = some d ∧
          DocComment.lines d.body = tagged.lines) ∧
        (∃ title description, Gives tagged.lines title description) ∧
          ∀ title description, Gives tagged.lines title description →
            documented? ofTagged = both? title description) ∧
      documented? ofTagged = both? (some "Users") (some "Newest first.") :=
  ⟨rfl, rfl, (infer_reads_written ofTagged).2 tagged rfl rfl, by decide +kernel⟩

end Title

end RouteDocs
