import RouteDocs.Infer.TypeBlock
import RouteDocs.Proofs.Json.Fits
import RouteDocs.Proofs.Text.Digit
import RouteDocs.Proofs.Text.Run
import RouteDocs.Proofs.Text.Search

/-!
# Type Declarations Are Read Back

A file can declare object types, each with a name and fields. What was written in this way is found
again: the declarations in order, each with its fields in order.

## Main Definitions

* `TypeBlock.WrittenField`: a field, and how it is written
* `TypeBlock.Written`: a declaration, and how it is written

## Main Statements

* `TypeBlock.field?_append`: a field is read from its piece
* `TypeBlock.fieldsOf_inside`: **the fields of a declaration are those that were written**
* `TypeBlock.exists_matchAt?`: a declaration is read up to its closing brace
* `TypeBlock.all_reads_written`: **the declarations of a text are those that were written**

## Design Notes

Names and types can look like keywords. At the outer level that does no harm because a declaration
is met at its first keyword, before anything within it, and ends at the first closing brace. At the
inner level a keyword before the name counts only with a blank behind it, and no field has a blank
between its name and the colon.
-/

namespace RouteDocs

namespace TypeBlock

open Pattern

/-! ### What Is Written -/

/-- Code points that end a field. -/
def isBreak (c : CodePoint) : Bool := c == ';' || c == '\n' || c == ','

/-- Code points between fields. -/
def isFiller (c : CodePoint) : Bool := c.isBlank || isBreak c

/-- Code points that a field can have: neither braces nor those that end it. -/
def isFieldPart (c : CodePoint) : Bool := isFlat c && !isBreak c

/-- Quotation marks around a name. -/
inductive Quote where
  | none | single | double
  deriving DecidableEq, Repr

/-- How a quotation mark is written. -/
def Quote.text : Quote → Text
  | none => []
  | single => "'"
  | double => "\""

/-- **What is written about a field.** -/
structure WrittenField where
  /-- Whether the field is declared to be read only. -/
  isReadonly : Bool
  /-- The quotation marks around the name. -/
  quote : Quote
  /-- The name. -/
  name : Text.Run1 isNamePart
  /-- Whether the field may be absent. -/
  isOptional : Bool
  /-- The type. -/
  type : Text
  /-- There is a type. -/
  typed : type ≠ []
  /-- There are no blanks around the type. -/
  trimmed : Text.strip type = type
  /-- The type has neither braces nor code points that end a field. -/
  plain : ∀ c ∈ type, isFieldPart c = true

namespace WrittenField

variable (f : WrittenField)

/-- The keyword before the name, if there is one. -/
def keyword : Text := if f.isReadonly then "readonly " else []

/-- The question mark behind the name, if there is one. -/
def mark : Text := if f.isOptional then "?" else []

/-- How a field is written. -/
def text : Text :=
  f.keyword ++ (f.quote.text ++ (f.name.text ++ (f.quote.text ++ (f.mark ++
    (":" ++ (" " ++ f.type))))))

/-- The field that is meant. -/
def entry : Text × Field := (f.name.text, ⟨f.isOptional, f.type⟩)

end WrittenField

/-- What stands between two fields: blanks and at least one code point that ends a field. -/
structure Separator extends Text.Run isFiller where
  /-- There is a code point that ends a field. -/
  separates : ∃ c ∈ text, isBreak c = true

/-- How a declaration begins. -/
inductive Heading where
  /-- As an interface. -/
  | interface
  /-- As an interface that extends another one. -/
  | extending (base : Text.Run1 isNamePart)
  /-- As the name of an object type. -/
  | type

/-- **What is written about an object type.** -/
structure Written where
  /-- How the declaration begins. -/
  heading : Heading
  /-- The name. -/
  name : Text.Run1 CodePoint.isWord
  /-- What stands before the first field. -/
  before : Text.Run isFiller
  /-- The first field. -/
  first : WrittenField
  /-- The other fields, each with what stands before it. -/
  others : List (Separator × WrittenField)
  /-- What stands behind the last field. -/
  after : Text.Run isFiller
  /-- The names of the fields are different. -/
  distinct : ((first :: others.map (·.2)).map (·.name.text)).Nodup

namespace Written

variable (b : Written)

/-- The fields. -/
def fields : List WrittenField := b.first :: b.others.map (·.2)

/-- What stands between the braces. -/
def inside : Text :=
  b.before.text ++ (b.first.text ++
    ((b.others.flatMap fun o => o.1.text ++ o.2.text) ++ b.after.text))

/-- What stands before the braces. -/
def head : Text :=
  match b.heading with
  | .interface => "interface" ++ (" " ++ (b.name.text ++ " "))
  | .extending base =>
    "interface" ++ (" " ++ (b.name.text ++ (" " ++ ("extends" ++ (" " ++ (base.text ++ " "))))))
  | .type => "type" ++ (" " ++ (b.name.text ++ (" " ++ ("=" ++ " "))))

/-- How a declaration is written. -/
def text : Text := b.head ++ ("\x7b" ++ (b.inside ++ "\x7d"))

/-- The declaration that is meant. -/
def block : TypeBlock := ⟨b.name.text, b.fields.map WrittenField.entry⟩

end Written

/-- A text of declarations, each with blanks before it. -/
def source (blocks : List (Blanks × Written)) (after : Blanks) : Text :=
  (blocks.flatMap fun b => b.1.text ++ b.2.text) ++ after.text

variable {c d : Cursor} {gs : Groups} {t w r : Text} {a : CodePoint}

/-! ### Reading a Field -/

theorem isBlank_eq_false_of_isNamePart (part : isNamePart a = true) : a.isBlank = false := by
  rcases (Bool.or_eq_true _ _).mp part with word | dollar
  · exact CodePoint.isBlank_eq_false_of_isWord word
  · rw [eq_of_beq dollar]
    decide

/-- What stands behind a name does not go on with it. -/
theorem exists_behind_name (f : WrittenField) (t : Text) :
    ∃ a r, f.quote.text ++ (f.mark ++ (":" ++ t : Text)) = a :: r ∧ isNamePart a = false ∧
      a.isBlank = false := by
  rw [WrittenField.mark]
  cases f.quote <;> cases f.isOptional <;> exact ⟨_, _, rfl, by decide, by decide⟩

/-- A name does not begin with a blank, and neither does the quotation mark before it. -/
theorem isBlank_head_quoted (f : WrittenField) (t : Text) :
    (f.quote.text ++ (f.name.text ++ t)).head?.any CodePoint.isBlank = false := by
  cases f.quote with
  | none =>
      obtain ⟨x, more, name⟩ := List.exists_cons_of_ne_nil f.name.nonempty
      rw [name]
      exact isBlank_eq_false_of_isNamePart (f.name.inClass x (name ▸ List.mem_cons_self))
  | single | double => rfl

/-- A name is no keyword: no blank stands behind it. -/
theorem fails_readonly (f : WrittenField) (text : c.rest = f.quote.text ++ (f.name.text ++ a :: r))
    (stop : isNamePart a = false) (visible : a.isBlank = false) :
    (lit "readonly" ++ blanks1).Fails (c, gs) := by
  refine fails_of_reads fun y reads => ?_
  obtain ⟨z, word, gap⟩ := reads
  obtain ⟨w, nonempty, blank, passes, -⟩ := gap.of_run1
  obtain ⟨x, w, rfl⟩ := List.exists_cons_of_ne_nil nonempty
  have eq := text.symm.trans (word.of_lit.1.trans passes).rest
  have first := blank x List.mem_cons_self
  cases quote : f.quote with
  | none =>
      rw [quote, List.append_assoc] at eq
      -- the keyword would end where the name ends, and no blank stands there
      have word : ∀ x ∈ ("readonly" : Text), isNamePart x = true := List.all_eq_true.mp rfl
      have same := congrArg (List.dropWhile isNamePart) eq
      rw [Quote.text, List.nil_append, Text.dropWhile_append_of_ends f.name.inClass,
        Text.dropWhile_append_of_ends word] at same
      · rw [(List.cons.inj same).1, first] at visible
        cases visible
      · rintro _ ⟨⟩
        exact Bool.eq_false_iff.mpr fun part => by
          rw [isBlank_eq_false_of_isNamePart part] at first
          cases first
      · rintro _ ⟨⟩
        exact stop
  | single | double =>
      rw [quote] at eq
      exact absurd (List.cons.inj eq).1 (by decide)

/-- The keyword before the name is read if it is there. -/
theorem leads_readonly (f : WrittenField) (passes : Cursor.Passes f.keyword c d)
    (text : d.rest = f.quote.text ++ (f.name.text ++ a :: r)) (stop : isNamePart a = false)
    (visible : a.isBlank = false) :
    (optional (lit "readonly" ++ blanks1)).Leads (c, gs) (d, gs) := by
  rw [WrittenField.keyword] at passes
  cases isReadonly : f.isReadonly with
  | true =>
      rw [isReadonly] at passes
      have passes : Cursor.Passes ("readonly" ++ " " : Text) c d := passes
      obtain ⟨e, word, gap⟩ := passes.of_append
      have next : d.rest.head?.any CodePoint.isBlank = false := by
        rw [text]
        exact isBlank_head_quoted f _
      have blank : blanks1.Leads (e, gs) (d, gs) :=
        leads_run1 (by decide) (List.all_eq_true.mp rfl) gap next
      exact ((leads_lit word).append blank).alt empty
  | false =>
      rw [isReadonly] at passes
      obtain rfl : d = c := passes.eq_of_nil
      exact leads_alt_right (fails_readonly f text stop visible) (leads_empty _)

/-- A quotation mark is read if it is there. -/
theorem leads_optionalQuote {quote : Quote} (passes : Cursor.Passes quote.text c d)
    (next : ∀ x ∈ d.rest.head?, (x.val == 0x27 || x.val == 0x22) = false) :
    optionalQuote.Leads (c, gs) (d, gs) := by
  cases quote with
  | none =>
      obtain rfl : d = c := passes.eq_of_nil
      exact leads_alt_right (fails_one next) (leads_empty _)
  | single | double => exact (leads_one rfl passes).alt empty

/-- The question mark behind the name is read if it is there. -/
theorem exists_leads_mark (f : WrittenField) (passes : Cursor.Passes f.mark c d)
    (next : ∀ x ∈ d.rest.head?, x = ':') :
    ∃ o : Option (Cursor × Cursor), o.isSome = f.isOptional ∧ ∀ gs,
      (optional (group 2 (lit "?"))).Leads (c, gs) (d, (o.toList.map fun g => (2, g)) ++ gs) := by
  rw [WrittenField.mark] at passes
  cases marked : f.isOptional with
  | true =>
      rw [marked] at passes
      exact ⟨some (c, d), rfl, fun gs => ((leads_lit passes).group 2).alt empty⟩
  | false =>
      rw [marked] at passes
      obtain rfl : d = c := passes.eq_of_nil
      have fails (gs : Groups) : (lit "?").Fails (d, gs) := fails_one fun x first => by
        rw [next x first]
        rfl
      exact ⟨none, rfl, fun gs => leads_alt_right ((fails gs).group 2) (leads_empty _)⟩

/-- The type does not begin with a blank. -/
theorem isBlank_head_type (f : WrittenField) : f.type.head?.any CodePoint.isBlank = false :=
  (Option.any_eq_false _ _).mpr (Text.trim_eq_self_iff.mp f.trimmed).1

/-- A name is no quotation mark. -/
theorem isQuote_eq_false_of_isNamePart (part : isNamePart a = true) :
    (a.val == 0x27 || a.val == 0x22) = false := by
  refine Bool.eq_false_iff.mpr fun quote => ?_
  rcases (Bool.or_eq_true _ _).mp quote with same | same
  · obtain rfl : a = '\'' := Fin.ext (eq_of_beq same)
    exact absurd part (by decide)
  · obtain rfl : a = '"' := Fin.ext (eq_of_beq same)
    exact absurd part (by decide)

/-- The pattern of a field up to the quotation mark behind its name. -/
def quotedName : Pattern :=
  optional (lit "readonly" ++ blanks1) ++ optionalQuote ++ group 1 (run1 isNamePart)
    ++ optionalQuote

/-- The pattern of a field behind its name. -/
def typeBehind : Pattern :=
  optional (group 2 (lit "?")) ++ blanks ++ lit ":" ++ blanks
    ++ group 3 (run1 fun c : CodePoint => c != '\n')

theorem runAt_fieldPattern (c : Cursor) (gs : Groups) (k : Cursor → Groups → Option Hit) :
    fieldPattern.runAt c gs k = (quotedName ++ typeBehind).runAt c gs k := rfl

/-- The name of a field is read with what stands before it and the quotation mark behind it. -/
theorem exists_leads_quotedName (f : WrittenField)
    (text : c.rest = f.keyword ++ (f.quote.text ++ (f.name.text ++ (f.quote.text ++ (f.mark ++
      (":" ++ t)))))) :
    ∃ d e e', quotedName.Leads (c, []) (d, [(1, e, e')]) ∧ e.textUntil e' = f.name.text ∧
      d.rest = f.mark ++ (":" ++ t) := by
  obtain ⟨c₁, passes₁, rest₁⟩ := Cursor.exists_passes text
  obtain ⟨c₂, passes₂, rest₂⟩ := Cursor.exists_passes rest₁
  obtain ⟨c₃, passes₃, rest₃⟩ := Cursor.exists_passes rest₂
  obtain ⟨c₄, passes₄, rest₄⟩ := Cursor.exists_passes rest₃
  obtain ⟨a, r, behind, stop, visible⟩ := exists_behind_name f t
  have stop₃ : c₃.rest.head?.any isNamePart = false := by
    rw [rest₃, behind]
    exact stop
  have quoted : ∀ x ∈ c₂.rest.head?, (x.val == 0x27 || x.val == 0x22) = false := by
    obtain ⟨x, more, name⟩ := List.exists_cons_of_ne_nil f.name.nonempty
    rw [rest₂, name]
    rintro _ ⟨⟩
    exact isQuote_eq_false_of_isNamePart (f.name.inClass x (name ▸ List.mem_cons_self))
  have unquoted : ∀ x ∈ c₄.rest.head?, (x.val == 0x27 || x.val == 0x22) = false := by
    rw [rest₄, WrittenField.mark]
    cases f.isOptional <;> rintro _ ⟨⟩ <;> rfl
  have keyword : (optional (lit "readonly" ++ blanks1)).Leads (c, []) (c₁, []) :=
    leads_readonly f passes₁ (rest₁.trans (by rw [behind])) stop visible
  have name : (group 1 (run1 isNamePart)).Leads (c₂, []) (c₃, [(1, c₂, c₃)]) :=
    (leads_run1 f.name.nonempty f.name.inClass passes₃ stop₃).group 1
  exact ⟨c₄, c₂, c₃, ((keyword.append (leads_optionalQuote passes₂ quoted)).append name).append
    (leads_optionalQuote passes₄ unquoted), passes₃.textUntil, rest₄⟩

/-- The type of a field is read with the question mark before it, if there is one. -/
theorem exists_leads_typeBehind (f : WrittenField)
    (text : c.rest = f.mark ++ (":" ++ (" " ++ f.type))) :
    ∃ d e, ∃ o : Option (Cursor × Cursor), o.isSome = f.isOptional ∧ e.textUntil d = f.type ∧
      ∀ gs, typeBehind.Leads (c, gs) (d, (3, e, d) :: ((o.toList.map fun g => (2, g)) ++ gs)) := by
  obtain ⟨c₁, passes₁, rest₁⟩ := Cursor.exists_passes text
  obtain ⟨c₂, passes₂, rest₂⟩ := Cursor.exists_passes rest₁
  obtain ⟨c₃, passes₃, rest₃⟩ := Cursor.exists_passes rest₂
  obtain ⟨c₄, passes₄, rest₄⟩ := Cursor.exists_passes (rest₃.trans (List.append_nil _).symm)
  have colon : ∀ x ∈ c₁.rest.head?, x = ':' := by
    rw [rest₁]
    rintro _ ⟨⟩
    rfl
  have stop₁ : c₁.rest.head?.any CodePoint.isBlank = false := by
    rw [rest₁]
    rfl
  have stop₃ : c₃.rest.head?.any CodePoint.isBlank = false := by
    rw [rest₃]
    exact isBlank_head_type f
  have stop₄ : c₄.rest.head?.any (fun x : CodePoint => x != '\n') = false := by
    rw [rest₄]
    rfl
  have inLine : ∀ x ∈ f.type, (x != '\n') = true := fun x mem => bne_iff_ne.mpr <| by
    rintro rfl
    exact absurd (f.plain _ mem) (by decide)
  obtain ⟨o, marked, mark⟩ := exists_leads_mark f passes₁ colon
  refine ⟨c₄, c₃, o, marked, passes₄.textUntil, fun gs => ?_⟩
  have upToColon := ((mark gs).append (leads_run_nil stop₁)).append (leads_lit passes₂)
  exact (upToColon.append (leads_run (List.all_eq_true.mp rfl) passes₃ stop₃)).append
    ((leads_run1 f.typed inLine passes₄ stop₄).group 3)

/-- **A field is read from its text.** -/
theorem exists_matchAt?_field (f : WrittenField) : ∃ m,
    fieldPattern.matchAt? (Cursor.start f.text) = some m ∧ m.group 1 = f.name.text ∧
      (m.group? 2).isSome = f.isOptional ∧ m.group 3 = f.type := by
  obtain ⟨c, e, e', first, name, rest⟩ := exists_leads_quotedName (c := .start f.text) f rfl
  obtain ⟨d, g, o, marked, type, second⟩ := exists_leads_typeBehind f rest
  have whole : fieldPattern.Leads (.start f.text, [])
      (d, (3, g, d) :: ((o.toList.map fun g => (2, g)) ++ [(1, e, e')])) := fun k hit succeeds =>
    (runAt_fieldPattern _ _ k).trans (first.append (second _) k hit succeeds)
  refine ⟨_, matchAt?_of_leads whole, ?_, ?_, type⟩
  · rw [← name]
    cases o <;> rfl
  · rw [← marked]
    cases o <;> rfl

/-- There are no blanks around a field. -/
theorem strip_text (f : WrittenField) : Text.strip f.text = f.text := by
  refine Text.trim_eq_self_iff.mpr ⟨(Option.any_eq_false _ _).mp ?_, ?_⟩
  · rw [WrittenField.text, WrittenField.keyword]
    cases f.isReadonly with
    | true => rfl
    | false => exact isBlank_head_quoted f _
  · have last : f.text.getLast? = f.type.getLast? := by
      rw [WrittenField.text]
      simp only [← List.append_assoc]
      exact List.getLast?_append_of_ne_nil _ f.typed
    rw [last]
    exact (Text.trim_eq_self_iff.mp f.trimmed).2

/-- **A field is read from its piece**, whatever blanks stand behind it. -/
theorem field?_append (f : WrittenField) (blank : ∀ x ∈ w, x.isBlank = true) :
    field? (f.text ++ w) = some f.entry := by
  obtain ⟨m, found, name, optional, type⟩ := exists_matchAt?_field f
  have stripped : Text.strip (f.text ++ w) = f.text := Text.trim_append (strip_text f) blank
  rw [field?, stripped, found, Option.map_some, name, optional, type, f.trimmed]
  rfl

/-! ### Reading the Fields -/

/-- The fields of the pieces of a text. -/
def entriesOf (t : Text) : List (Text × Field) := (t.splitBy isBreak).filterMap field?

/-- Nothing is read from an empty piece. -/
theorem field?_nil : field? [] = none := rfl

/-- **What stands between fields is passed over.** -/
theorem entriesOf_append_filler (filler : ∀ x ∈ w, isFiller x = true) (t : Text) :
    entriesOf (w ++ t) = entriesOf t := by
  induction w with
  | nil => rfl
  | cons x w ih =>
      obtain ⟨first, others⟩ := List.forall_mem_cons.mp filler
      rw [List.cons_append, ← ih others]
      by_cases here : isBreak x = true
      · rw [entriesOf, Text.splitBy_cons_of_pos here, List.filterMap_cons, field?_nil]
        rfl
      · have other := Bool.eq_false_iff.mpr here
        have blank : x.isBlank = true := by rwa [isFiller, other, Bool.or_false] at first
        obtain ⟨piece, more, pieces⟩ := Text.exists_splitBy_eq isBreak (w ++ t)
        have same : field? (x :: piece) = field? piece := by
          rw [field?, field?, Text.strip, Text.strip, Text.trim_cons blank]
        rw [entriesOf, entriesOf, Text.splitBy_cons_of_neg other pieces, pieces,
          List.filterMap_cons, List.filterMap_cons, same]

/-- A filler is made of blanks, or of blanks, a code point that ends a field and another filler. -/
theorem filler_cases (filler : ∀ x ∈ w, isFiller x = true) :
    (∀ x ∈ w, x.isBlank = true ∧ isBreak x = false) ∨ ∃ (v : Text) (x : CodePoint) (u : Text),
      w = v ++ x :: u ∧ (∀ y ∈ v, y.isBlank = true ∧ isBreak y = false) ∧ isBreak x = true ∧
        ∀ y ∈ u, isFiller y = true := by
  induction w with
  | nil => exact .inl (List.forall_mem_nil _)
  | cons x w ih =>
      obtain ⟨first, others⟩ := List.forall_mem_cons.mp filler
      by_cases here : isBreak x = true
      · exact .inr ⟨[], x, w, rfl, List.forall_mem_nil _, here, others⟩
      · have other := Bool.eq_false_iff.mpr here
        have blank : x.isBlank = true := by rwa [isFiller, other, Bool.or_false] at first
        rcases ih others with blanks | ⟨v, y, u, rfl, blanks, breaks, more⟩
        · exact .inl (List.forall_mem_cons.mpr ⟨⟨blank, other⟩, blanks⟩)
        · exact .inr ⟨x :: v, y, u, rfl, List.forall_mem_cons.mpr ⟨⟨blank, other⟩, blanks⟩, breaks,
            more⟩

/-- A code point that is no part of fields is no part of names. -/
theorem isFieldPart_of_isNamePart (part : isNamePart a = true) : isFieldPart a = true := by
  rw [isFieldPart, isFlat, isBreak]
  by_contra other
  simp only [Bool.and_eq_true, Bool.not_eq_true', Bool.or_eq_false_iff, bne_iff_ne,
    beq_eq_false_iff_ne, not_and_or, ne_eq, not_not] at other
  rcases other with (brace | brace) | (mark | mark) | mark
  · obtain rfl : a = '\x7b' := Fin.ext brace
    exact absurd part (by decide)
  · obtain rfl : a = '\x7d' := Fin.ext brace
    exact absurd part (by decide)
  all_goals
    rw [mark] at part
    exact absurd part (by decide)

/-- A field has neither braces nor code points that end it. -/
theorem isFieldPart_text (f : WrittenField) : ∀ x ∈ f.text, isFieldPart x = true := by
  rw [WrittenField.text, WrittenField.keyword, WrittenField.mark]
  simp only [List.forall_mem_append]
  refine ⟨?_, ?_, fun x mem => isFieldPart_of_isNamePart (f.name.inClass x mem), ?_, ?_,
    List.all_eq_true.mp rfl, List.all_eq_true.mp rfl, f.plain⟩
  · cases f.isReadonly <;> exact List.all_eq_true.mp rfl
  · cases f.quote <;> exact List.all_eq_true.mp rfl
  · cases f.quote <;> exact List.all_eq_true.mp rfl
  · cases f.isOptional <;> exact List.all_eq_true.mp rfl

theorem isFlat_text (f : WrittenField) : ∀ x ∈ f.text, isFlat x = true :=
  fun x mem => ((Bool.and_eq_true _ _).mp (isFieldPart_text f x mem)).1

theorem isBreak_text (f : WrittenField) : ∀ x ∈ f.text, isBreak x = false :=
  fun x mem => (Bool.not_eq_true' _).mp ((Bool.and_eq_true _ _).mp (isFieldPart_text f x mem)).2

/-- **A field is read before what separates it from the next one**, or before the end. -/
theorem entriesOf_append_field (f : WrittenField) (filler : ∀ x ∈ w, isFiller x = true)
    (separates : (∃ x ∈ w, isBreak x = true) ∨ t = []) :
    entriesOf (f.text ++ (w ++ t)) = f.entry :: entriesOf t := by
  rcases filler_cases filler with blanks | ⟨v, x, u, rfl, blanks, breaks, more⟩
  · have atEnd : t = [] := by
      refine separates.resolve_left ?_
      rintro ⟨x, mem, breaks⟩
      rw [(blanks x mem).2] at breaks
      cases breaks
    rw [atEnd, List.append_nil, entriesOf, Text.splitBy_eq_singleton
      (List.forall_mem_append.mpr ⟨isBreak_text f, fun x mem => (blanks x mem).2⟩),
      List.filterMap_cons, field?_append f fun x mem => (blanks x mem).1]
    rfl
  · have clean : ∀ x ∈ f.text ++ v, isBreak x = false :=
      List.forall_mem_append.mpr ⟨isBreak_text f, fun x mem => (blanks x mem).2⟩
    rw [List.append_assoc, List.cons_append, ← List.append_assoc, entriesOf,
      Text.splitBy_append_cons clean breaks, List.filterMap_cons,
      field?_append f fun x mem => (blanks x mem).1]
    exact congrArg (f.entry :: ·) (entriesOf_append_filler more t)

/-- **The fields of a declaration are those that were written.** -/
theorem fieldsOf_inside (b : Written) : fieldsOf b.inside = b.fields.map WrittenField.entry := by
  have all (f : WrittenField) (others : List (Separator × WrittenField)) :
      entriesOf (f.text ++ ((others.flatMap fun o => o.1.text ++ o.2.text) ++ b.after.text)) =
        (f :: others.map (·.2)).map WrittenField.entry := by
    induction others generalizing f with
    | nil =>
        have last := entriesOf_append_field (t := []) f b.after.inClass (.inr rfl)
        rwa [List.append_nil] at last
    | cons o more ih =>
        rw [List.flatMap_cons, List.append_assoc, List.append_assoc,
          entriesOf_append_field f o.1.inClass (.inl o.1.separates), ih o.2]
        rfl
  have entries : entriesOf b.inside = b.fields.map WrittenField.entry := by
    rw [Written.inside, entriesOf_append_filler b.before.inClass, all]
    rfl
  change Assoc.ofList (entriesOf b.inside) = _
  rw [entries]
  refine Assoc.ofList_eq_self ?_
  rw [List.map_map]
  exact b.distinct

/-! ### Reading a Declaration -/

/-- Code points of names are no braces. -/
theorem isOpen_of_isNamePart (part : isNamePart a = true) : (a.val != 0x7B) = true := by
  have flat := ((Bool.and_eq_true _ _).mp (isFieldPart_of_isNamePart part)).1
  exact ((Bool.and_eq_true _ _).mp flat).1

/-- What stands between fields has no braces. -/
theorem isFlat_of_isFiller (filler : isFiller a = true) : isFlat a = true := by
  rw [isFlat, Bool.and_eq_true, bne_iff_ne, bne_iff_ne]
  constructor
  · intro brace
    obtain rfl : a = '\x7b' := Fin.ext brace
    exact absurd filler (by decide)
  · intro brace
    obtain rfl : a = '\x7d' := Fin.ext brace
    exact absurd filler (by decide)

/-- There are no braces within a declaration. -/
theorem isFlat_inside (b : Written) : ∀ x ∈ b.inside, isFlat x = true := by
  have filler (g : Text.Run isFiller) : ∀ x ∈ g.text, isFlat x = true := fun x mem =>
    isFlat_of_isFiller (g.inClass x mem)
  rw [Written.inside]
  simp only [List.forall_mem_append]
  refine ⟨filler b.before, isFlat_text b.first, fun x mem => ?_, filler b.after⟩
  obtain ⟨o, -, inField⟩ := List.mem_flatMap.mp mem
  rcases List.mem_append.mp inField with gap | own
  · exact filler o.1.toRun x gap
  · exact isFlat_text o.2 x own

/-- The pattern of a declaration as an interface, up to the blanks before its brace. -/
def interfaceHead : Pattern :=
  lit "interface" ++ blanks1 ++ group 1 word1
    ++ optional (blanks1 ++ lit "extends" ++ blanks1 ++ run1 fun c => c.val != 0x7B)

/-- The pattern of a declaration as the name of a type, up to the blanks before its brace. -/
def aliasHead : Pattern := lit "type" ++ blanks1 ++ group 2 word1 ++ blanks ++ lit "="

theorem pattern_eq : pattern = alt interfaceHead aliasHead ++ blanks ++ openBrace
    ++ group 3 (run isFlat) ++ closeBrace := rfl

/-- A keyword and a name with a blank in between. -/
theorem exists_leads_named (name : Text.Run1 CodePoint.isWord) (n : Nat)
    (text : c.rest = t ++ (" " ++ (name.text ++ (" " ++ r)))) :
    ∃ d e, (lit t ++ blanks1 ++ group n word1).Leads (c, []) (d, [(n, e, d)]) ∧
      e.textUntil d = name.text ∧ d.rest = " " ++ r := by
  obtain ⟨c₁, passes₁, rest₁⟩ := Cursor.exists_passes text
  obtain ⟨c₂, passes₂, rest₂⟩ := Cursor.exists_passes rest₁
  obtain ⟨c₃, passes₃, rest₃⟩ := Cursor.exists_passes rest₂
  have stop₂ : c₂.rest.head?.any CodePoint.isBlank = false := by
    obtain ⟨x, more, eq⟩ := List.exists_cons_of_ne_nil name.nonempty
    rw [rest₂, eq]
    exact CodePoint.isBlank_eq_false_of_isWord (name.inClass x (eq ▸ List.mem_cons_self))
  have stop₃ : c₃.rest.head?.any CodePoint.isWord = false := by
    rw [rest₃]
    rfl
  exact ⟨c₃, c₂, ((leads_lit passes₁).append (leads_run1 (by decide) (List.all_eq_true.mp rfl)
    passes₂ stop₂)).append ((leads_run1 name.nonempty name.inClass passes₃ stop₃).group n),
    passes₃.textUntil, rest₃⟩

/-- The blanks before a brace are read. -/
theorem exists_leads_blanks (text : c.rest = " " ++ ("\x7b" ++ r)) :
    ∃ d, blanks.Leads (c, gs) (d, gs) ∧ d.rest = "\x7b" ++ r := by
  obtain ⟨d, passes, rest⟩ := Cursor.exists_passes text
  have stop : d.rest.head?.any CodePoint.isBlank = false := by
    rw [rest]
    rfl
  exact ⟨d, leads_run (List.all_eq_true.mp rfl) passes stop, rest⟩

/-- Nothing is extended where the brace follows. -/
theorem fails_extends (text : c.rest = " " ++ ("\x7b" ++ r)) (p : Pattern) :
    (blanks1 ++ lit "extends" ++ p).Fails (c, gs) := by
  refine Fails.append (fails_of_reads fun y reads => ?_) p
  obtain ⟨z, gap, word⟩ := reads
  obtain ⟨w, -, blank, passes, -⟩ := gap.of_run1
  have eq := text.symm.trans (passes.trans word.of_lit.1).rest
  have same := congrArg (List.dropWhile CodePoint.isBlank) eq
  rw [List.append_assoc, Text.dropWhile_append_of_ends (List.all_eq_true.mp rfl),
    Text.dropWhile_append_of_ends blank] at same
  · exact absurd (List.cons.inj same).1 (by decide)
  · rintro _ ⟨⟩
    rfl
  · rintro _ ⟨⟩
    rfl

/-- What is extended is passed over up to the brace. -/
theorem exists_leads_extends (base : Text.Run1 isNamePart)
    (text : c.rest = " " ++ ("extends" ++ (" " ++ (base.text ++ (" " ++ ("\x7b" ++ r)))))) :
    ∃ d, (blanks1 ++ lit "extends" ++ blanks1 ++ run1 fun x => x.val != 0x7B).Leads (c, gs)
      (d, gs) ∧ d.rest = "\x7b" ++ r := by
  obtain ⟨c₁, passes₁, rest₁⟩ := Cursor.exists_passes text
  obtain ⟨c₂, passes₂, rest₂⟩ := Cursor.exists_passes rest₁
  obtain ⟨c₃, passes₃, rest₃⟩ := Cursor.exists_passes rest₂
  obtain ⟨c₄, passes₄, rest₄⟩ := Cursor.exists_passes rest₃
  obtain ⟨c₅, passes₅, rest₅⟩ := Cursor.exists_passes rest₄
  have stop₁ : c₁.rest.head?.any CodePoint.isBlank = false := by
    rw [rest₁]
    rfl
  have stop₃ : c₃.rest.head?.any CodePoint.isBlank = false := by
    obtain ⟨x, more, eq⟩ := List.exists_cons_of_ne_nil base.nonempty
    rw [rest₃, eq]
    exact isBlank_eq_false_of_isNamePart (base.inClass x (eq ▸ List.mem_cons_self))
  have stop₅ : c₅.rest.head?.any (fun x : CodePoint => x.val != 0x7B) = false := by
    rw [rest₅]
    rfl
  have open₄ : ∀ x ∈ base.text ++ (" " : Text), (x.val != 0x7B) = true :=
    List.forall_mem_append.mpr ⟨fun x mem => isOpen_of_isNamePart (base.inClass x mem),
      List.all_eq_true.mp rfl⟩
  have blank₁ : blanks1.Leads (c, gs) (c₁, gs) :=
    leads_run1 (by decide) (List.all_eq_true.mp rfl) passes₁ stop₁
  have blank₃ : blanks1.Leads (c₂, gs) (c₃, gs) :=
    leads_run1 (by decide) (List.all_eq_true.mp rfl) passes₃ stop₃
  have name : (run1 fun x : CodePoint => x.val != 0x7B).Leads (c₃, gs) (c₅, gs) :=
    leads_run1 (List.append_ne_nil_of_right_ne_nil _ (by decide)) open₄ (passes₄.trans passes₅)
      stop₅
  exact ⟨c₅, ((blank₁.append (leads_lit passes₂)).append blank₃).append name, rest₅⟩

/-- The name of a declaration is remembered as one or two. -/
theorem exists_leads_head (b : Written) (text : c.rest = b.head ++ ("\x7b" ++ r)) :
    ∃ d e e', ∃ n : Nat, (n = 1 ∨ n = 2) ∧
      (alt interfaceHead aliasHead ++ blanks).Leads (c, []) (d, [(n, e, e')]) ∧
      e.textUntil e' = b.name.text ∧ d.rest = "\x7b" ++ r := by
  rw [Written.head] at text
  cases heading : b.heading with
  | interface =>
      simp only [heading, List.append_assoc] at text
      obtain ⟨c₁, e, named, name, rest₁⟩ := exists_leads_named b.name 1 text
      obtain ⟨c₂, gap, rest₂⟩ := exists_leads_blanks rest₁
      have plain : (optional (blanks1 ++ lit "extends" ++ blanks1
          ++ run1 fun x => x.val != 0x7B)).Leads (c₁, [(1, e, c₁)]) (c₁, [(1, e, c₁)]) :=
        leads_alt_right ((fails_extends rest₁ blanks1).append _) (leads_empty _)
      have head := named.append plain
      exact ⟨c₂, e, c₁, 1, .inl rfl, (head.alt aliasHead).append gap, name, rest₂⟩
  | extending base =>
      simp only [heading, List.append_assoc] at text
      obtain ⟨c₁, e, named, name, rest₁⟩ := exists_leads_named b.name 1 text
      obtain ⟨c₂, extended, rest₂⟩ := exists_leads_extends base rest₁
      have noGap : blanks.Leads (c₂, [(1, e, c₁)]) (c₂, [(1, e, c₁)]) := leads_run_nil <| by
        rw [rest₂]
        rfl
      have head := named.append (extended.alt empty)
      exact ⟨c₂, e, c₁, 1, .inl rfl, (head.alt aliasHead).append noGap, name, rest₂⟩
  | type =>
      simp only [heading, List.append_assoc] at text
      obtain ⟨c₁, e, named, name, rest₁⟩ := exists_leads_named b.name 2 text
      obtain ⟨c₂, passes₂, rest₂⟩ := Cursor.exists_passes rest₁
      obtain ⟨c₃, passes₃, rest₃⟩ := Cursor.exists_passes rest₂
      obtain ⟨c₄, gap, rest₄⟩ := exists_leads_blanks rest₃
      have other : interfaceHead.Fails (c, []) := by
        refine ((((startsIn_lit _ _).append _).append _).append _).fails ?_
        rw [text]
        rfl
      have stop₂ : c₂.rest.head?.any CodePoint.isBlank = false := by
        rw [rest₂]
        rfl
      have head := (named.append (leads_run (List.all_eq_true.mp rfl) passes₂ stop₂)).append
        (leads_lit passes₃)
      exact ⟨c₄, e, c₁, 2, .inr rfl, (leads_alt_right other head).append gap, name, rest₄⟩

/-- **A declaration is read up to its closing brace.** -/
theorem exists_matchAt? (b : Written) (text : c.rest = b.text ++ r) : ∃ m,
    pattern.matchAt? c = some m ∧ m.stop.rest = r ∧
      ((m.group? 1).orElse fun _ => m.group? 2).getD [] = b.name.text ∧ m.group 3 = b.inside := by
  rw [Written.text, List.append_assoc, List.append_assoc, List.append_assoc] at text
  obtain ⟨c₁, e, e', n, number, head, name, rest₁⟩ := exists_leads_head b text
  obtain ⟨c₂, passes₂, rest₂⟩ := Cursor.exists_passes rest₁
  obtain ⟨c₃, passes₃, rest₃⟩ := Cursor.exists_passes rest₂
  obtain ⟨c₄, passes₄, rest₄⟩ := Cursor.exists_passes rest₃
  have stop : c₃.rest.head?.any isFlat = false := by
    rw [rest₃]
    rfl
  have opening : openBrace.Leads (c₁, [(n, e, e')]) (c₂, [(n, e, e')]) := leads_one rfl passes₂
  have inside : (group 3 (run isFlat)).Leads (c₂, [(n, e, e')]) (c₃, [(3, c₂, c₃), (n, e, e')]) :=
    (leads_run (isFlat_inside b) passes₃ stop).group 3
  have closing : closeBrace.Leads (c₃, [(3, c₂, c₃), (n, e, e')]) (c₄, [(3, c₂, c₃), (n, e, e')]) :=
    leads_one rfl passes₄
  rw [pattern_eq]
  refine ⟨_, matchAt?_of_leads (((head.append opening).append inside).append closing), rest₄, ?_,
    passes₃.textUntil⟩
  rw [← name]
  rcases number with rfl | rfl <;> rfl

/-! ### Reading All Declarations -/

/-- The first letters of declarations. -/
def isInitial (c : CodePoint) : Bool := c == 'i' || c == 't'

/-- A declaration begins with its first letter. -/
theorem startsIn_pattern : StartsIn isInitial pattern := by
  have first : StartsIn isInitial interfaceHead :=
    ((((startsIn_lit _ _).append _).append _).append _).mono fun x same =>
      (Bool.or_eq_true _ _).mpr (.inl same)
  have second : StartsIn isInitial aliasHead :=
    (((((startsIn_lit _ _).append _).append _).append _).append _).mono fun x same =>
      (Bool.or_eq_true _ _).mpr (.inr same)
  rw [pattern_eq]
  exact ((((first.alt second).append _).append _).append _).append _

/-- No blank is the first letter of a declaration. -/
theorem isInitial_eq_false_of_isBlank (blank : a.isBlank = true) : isInitial a = false := by
  refine Bool.eq_false_iff.mpr fun initial => ?_
  rcases (Bool.or_eq_true _ _).mp initial with same | same
  · rw [eq_of_beq same] at blank
    exact absurd blank (by decide)
  · rw [eq_of_beq same] at blank
    exact absurd blank (by decide)

/-- The name and the inside of a match. -/
def partsOf (m : Match) : Text × Text :=
  (((m.group? 1).orElse fun _ => m.group? 2).getD [], m.group 3)

/-- The declarations that are left are found one after another. -/
theorem map_findAllFrom_source (blocks : List (Blanks × Written)) (after : Blanks) {n : Nat}
    (text : c.rest = source blocks after) (enough : c.rest.length < n) :
    (pattern.findAllFrom n c).map partsOf = blocks.map fun b => (b.2.name.text, b.2.inside) := by
  have quiet (g : Blanks) : ∀ x ∈ g.text, isInitial x = false := fun x mem =>
    isInitial_eq_false_of_isBlank (g.inClass x mem)
  induction blocks generalizing c n with
  | nil =>
      obtain ⟨d, passes, atEnd⟩ := Cursor.exists_passes (text.trans (List.append_nil _).symm)
      have nothing : pattern.findFrom? c.seen c.rest = none := by
        rw [findFrom?_skip startsIn_pattern passes (quiet after), atEnd]
        exact (startsIn_pattern.fails (x := (⟨d.seen, []⟩, [])) rfl).matchAt?_eq_none
      rw [findAllFrom_nil nothing]
      rfl
  | cons b more ih =>
      obtain ⟨n, rfl⟩ := Nat.exists_eq_add_one.mpr (Nat.zero_lt_of_lt enough)
      rw [source, List.flatMap_cons, List.append_assoc, List.append_assoc] at text
      obtain ⟨d, gap, rest⟩ := Cursor.exists_passes text
      obtain ⟨m, here, stop, name, inside⟩ := exists_matchAt? b.2 rest
      have found : pattern.findFrom? c.seen c.rest = some m := by
        rw [findFrom?_skip startsIn_pattern gap (quiet b.1)]
        exact findFrom?_of_matchAt? here
      have shorter : m.stop.rest.length < d.rest.length := by
        have pos : 0 < b.2.text.length := List.length_pos_iff.mpr
          (List.append_ne_nil_of_right_ne_nil _ (List.cons_ne_nil _ _))
        rw [rest, stop]
        simp only [List.length_append]
        omega
      have within : d.rest.length ≤ c.rest.length := by
        rw [text, rest]
        simp only [List.length_append]
        omega
      rw [findAllFrom_cons found (by rwa [matchAt?_start here]), List.map_cons, List.map_cons,
        ih stop (by omega), partsOf, name, inside]

/-- **The declarations of a text are those that were written**, in order and each with its fields in
order. -/
theorem all_reads_written (blocks : List (Blanks × Written)) (after : Blanks) :
    all (source blocks after) = blocks.map fun b => b.2.block := by
  have parts := map_findAllFrom_source blocks after (c := .start (source blocks after)) rfl
    (Nat.lt_succ_self _)
  have read : (pattern.findAll (source blocks after)).map (fun m =>
      (⟨(partsOf m).1, fieldsOf (partsOf m).2⟩ : TypeBlock)) = blocks.map fun b => b.2.block := by
    have meant := congrArg (List.map fun p : Text × Text => (⟨p.1, fieldsOf p.2⟩ : TypeBlock)) parts
    rw [List.map_map, List.map_map] at meant
    refine meant.trans (List.map_congr_left fun b _ => ?_)
    rw [Function.comp_apply, fieldsOf_inside]
    rfl
  refine (congrArg (List.filter _) read).trans (List.filter_eq_self.mpr fun block mem => ?_)
  obtain ⟨b, -, rfl⟩ := List.mem_map.mp mem
  rfl

/-- A declaration of two fields, the first one read only and the second one in quotation marks. -/
def userDeclaration : Written where
  heading := .extending (.of "Base" rfl rfl)
  name := .of "User" rfl rfl
  before := .of "\n  " rfl
  first := ⟨true, .none, .of "id" rfl rfl, false, "string", by decide, by decide,
    List.all_eq_true.mp (by decide)⟩
  others := [(⟨.of ";\n  " rfl, ';', by decide, by decide⟩, ⟨false, .single,
    .of "name" rfl rfl, true, "string | null", by decide, by decide,
    List.all_eq_true.mp (by decide)⟩)]
  after := .of "\n" rfl
  distinct := by decide

/-- The declaration is read back with both fields. -/
theorem all_userDeclaration :
    source [(.of "\n" rfl, userDeclaration)] .empty =
        "\ninterface User extends Base \x7b\n  readonly id: string;\n  'name'?: string | null\n\x7d" ∧
      all (source [(.of "\n" rfl, userDeclaration)] .empty) =
        [⟨"User", [("id", ⟨false, "string"⟩), ("name", ⟨true, "string | null"⟩)]⟩] :=
  ⟨by decide +kernel, (all_reads_written _ _).trans (by decide +kernel)⟩

end TypeBlock

end RouteDocs
