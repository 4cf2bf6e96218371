import Mathlib.Data.List.Forall2
import RouteDocs.Infer.TypeBlock
import RouteDocs.Proofs.Text.Run

/-!
# Unions of Types

A type expression can be a union, whose parts are joined by vertical bars.  That a value may be
missing is said by the parts `null` and `undefined`; what the other parts say does not depend on
whether and where these stand, and neither on semicolons behind the expression.

## Main Definitions

* `FieldType.Part`: a part of a union that says what a value is
* `FieldType.Member`: a part, or one of the two that say that there is no value
* `FieldType.written`: how a union is written
* `FieldType.IsLiteral`: a text between quotation marks of one kind

## Main Statements

* `FieldType.unionParts_written`: **the parts of a union are read back**, whatever else is written
* `FieldType.literals?_eq_some_iff`: which parts are all literals, and what they list
* `FieldType.ofUnion_written`: **the type of a union is that of its parts**

## Design Notes

The type of a union is chosen by its parts alone, so the statements on types follow from the reading
of the parts.
-/

namespace RouteDocs

namespace FieldType

open Text

/-! ### What Is Written -/

/-- **A part of a union** that says what a value is. -/
structure Part where
  /-- The text. -/
  text : Text
  /-- There is something. -/
  nonempty : text ≠ []
  /-- There are no blanks around it. -/
  trimmed : strip text = text
  /-- It is a single part. -/
  undivided : ('|' : CodePoint) ∉ text
  /-- It stands on one line. -/
  onOneLine : ('\n' : CodePoint) ∉ text
  /-- It does not end the type expression. -/
  unended : text.getLast? ≠ some (';' : CodePoint)
  /-- It says that there is a value. -/
  present : text ≠ "null" ∧ text ≠ "undefined"

/-- **A member of a union**: a part, or one of the two that say that there is no value. -/
inductive Member where
  | part (p : Part)
  | null
  | undefined

namespace Member

/-- How a member is written. -/
def text : Member → Text
  | part p => p.text
  | null => "null"
  | undefined => "undefined"

/-- The part that a member is, if it is one. -/
def part? : Member → Option Part
  | part p => some p
  | null => none
  | undefined => none

variable (m : Member)

theorem text_ne_nil : m.text ≠ [] := by
  cases m with
  | part p => exact p.nonempty
  | null | undefined => decide

theorem strip_text : strip m.text = m.text := by
  cases m with
  | part p => exact p.trimmed
  | null | undefined => decide

theorem bar_notMem_text : ('|' : CodePoint) ∉ m.text := by
  cases m with
  | part p => exact p.undivided
  | null | undefined => decide

theorem getLast?_text_ne : m.text.getLast? ≠ some (';' : CodePoint) := by
  cases m with
  | part p => exact p.unended
  | null | undefined => decide

end Member

/-- The parts of a union, without the members that say that there is no value. -/
def parts (ms : List Member) : List Text := (ms.filterMap Member.part?).map Part.text

/-- How a union is written, with a number of semicolons behind it. -/
def written (ms : List Member) (semicolons : Nat) : Text :=
  join " | " (ms.map Member.text) ++ (List.replicate semicolons ';' : Text)

/-- **A literal**: a text between quotation marks of one kind. -/
def IsLiteral (t v : Text) : Prop :=
  t = between '\'' v ∨ t = between '"' v

variable {ms : List Member} {t v : Text} {ts vs : List Text}

/-! ### The Parts -/

/-- Semicolons behind a union are not part of it. -/
theorem trimRight_strip_written (ms : List Member) (semicolons : Nat) :
    trimRight (fun c : CodePoint => c == ';') (strip (written ms semicolons)) =
      join " | " (ms.map Member.text) := by
  have semis : ∀ c ∈ List.replicate semicolons (';' : CodePoint), c = ';' := fun _ mem =>
    List.eq_of_mem_replicate mem
  have visible : ∀ c ∈ List.replicate semicolons (';' : CodePoint), c.isBlank = false := by
    intro c mem
    rw [semis c mem]
    decide
  have trimmed : strip (join " | " (ms.map Member.text)) = join " | " (ms.map Member.text) :=
    strip_join " | " (List.forall_mem_map.mpr fun m _ => m.strip_text)
      (List.forall_mem_map.mpr fun m _ => m.text_ne_nil)
  rw [written, strip, trim_append_eq_self trimmed visible,
    trimRight_append fun c mem => beq_iff_eq.mpr (semis c mem)]
  refine trimRight_eq_self_iff.mpr fun c last => beq_eq_false_iff_ne.mpr ?_
  rintro rfl
  by_cases none : ms.map Member.text = []
  · rw [none] at last
    cases last
  · obtain ⟨t, mem, same⟩ := exists_getLast?_join " | " none
      (List.forall_mem_map.mpr fun m _ => m.text_ne_nil)
    obtain ⟨m, -, rfl⟩ := List.mem_map.mp mem
    exact m.getLast?_text_ne (same.symm.trans last)

/-- The members of a union without those that say that there is no value. -/
theorem filter_map_text (ms : List Member) :
    (ms.map Member.text).filter (fun part : Text => !part.isEmpty && part != "null" &&
      part != "undefined") = parts ms := by
  induction ms with
  | nil => rfl
  | cons m more ih =>
      rw [parts] at ih ⊢
      cases m with
      | part p =>
          have something : p.text.isEmpty = false := List.isEmpty_eq_false_iff.mpr p.nonempty
          rw [List.map_cons, List.filter_cons_of_pos, ih]
          · rfl
          · simp [Member.text, something, p.present]
      | null | undefined =>
          rw [List.map_cons, List.filter_cons_of_neg (by decide), ih]
          rfl

/-- **The parts of a union are read back**, whatever else is written. -/
theorem unionParts_written (ms : List Member) (semicolons : Nat) :
    unionParts (written ms semicolons) = parts ms := by
  rw [unionParts, trimRight_strip_written]
  by_cases none : ms = []
  · rw [none]
    rfl
  · have read : (splitOn '|' (join " | " (ms.map Member.text))).map strip = ms.map Member.text :=
      map_strip_splitOn_join (by decide) (by simpa using none)
        (List.forall_mem_map.mpr fun m _ => m.strip_text)
        (List.forall_mem_map.mpr fun m _ => m.bar_notMem_text)
    rw [read, filter_map_text]

/-! ### Literals -/

/-- **A text on one line is a literal** if it stands between quotation marks of one kind. -/
theorem literal?_eq_some_iff (onOneLine : ('\n' : CodePoint) ∉ t) :
    literal? t = some v ↔ IsLiteral t v := by
  have quoted (mark : CodePoint) (isQuote : (mark.val == 0x27 || mark.val == 0x22) = true)
      (same : t = between mark v) : literal? t = some v := by
    have plain : v.all (fun c : CodePoint => c != '\n') = true :=
      List.all_eq_true.mpr fun c mem => bne_iff_ne.mpr fun eq => onOneLine <| by
        rw [same, ← eq]
        exact List.mem_cons_of_mem mark (List.mem_append_left _ mem)
    have whole : between mark v = mark :: (v ++ [mark]) := rfl
    simp [same, whole, literal?, isQuote, plain]
  constructor
  · intro read
    cases t with
    | nil => cases read
    | cons mark r =>
        rw [literal?, Option.ite_none_right_eq_some, Bool.and_eq_true] at read
        obtain ⟨⟨isQuote, last⟩, inside⟩ := read
        have whole : r.dropLast ++ [mark] = r := List.dropLast_append_getLast? _ (eq_of_beq last)
        have inner : r.dropLast = v := Option.some.inj (Option.ite_none_right_eq_some.mp inside).2
        rw [IsLiteral, ← inner, between, between, List.cons_append, List.cons_append]
        rcases (Bool.or_eq_true _ _).mp isQuote with single | double
        · obtain rfl : mark = '\'' := Fin.ext (eq_of_beq single)
          exact Or.inl (congrArg _ whole.symm)
        · obtain rfl : mark = '"' := Fin.ext (eq_of_beq double)
          exact Or.inr (congrArg _ whole.symm)
  · rintro (single | double)
    · exact quoted _ rfl single
    · exact quoted _ rfl double

/-- **Texts are all literals** if each of them is one, and they list what these hold, in order. -/
theorem literals?_eq_some_iff (onOneLine : ∀ t ∈ ts, ('\n' : CodePoint) ∉ t) :
    literals? ts = some vs ↔ List.Forall₂ IsLiteral ts vs := by
  induction ts generalizing vs with
  | nil => rw [literals?, Option.some.injEq, List.forall₂_nil_left_iff, eq_comm]
  | cons t more ih =>
      obtain ⟨first, others⟩ := List.forall_mem_cons.mp onOneLine
      rw [literals?, Option.bind_eq_some_iff]
      simp only [Option.map_eq_some_iff, literal?_eq_some_iff first, ih others]
      constructor
      · rintro ⟨v, literal, vs, rest, rfl⟩
        exact .cons literal rest
      · intro all
        cases all with
        | cons literal rest => exact ⟨_, literal, _, rest, rfl⟩

theorem exists_isLiteral_of_mem (all : List.Forall₂ IsLiteral ts vs) (mem : t ∈ ts) :
    ∃ v, IsLiteral t v := by
  induction all with
  | nil => cases mem
  | cons literal _ ih =>
      rcases List.mem_cons.mp mem with rfl | mem
      · exact ⟨_, literal⟩
      · exact ih mem

/-! ### The Type -/

/-- A union is read as its parts are. -/
theorem ofUnion_congr {u : Text} (same : unionParts t = unionParts u) : ofUnion t = ofUnion u := by
  rw [ofUnion, ofUnion, same]

/-- Parts that are all literals are a choice of texts. -/
theorem ofUnion_of_literals (ne : unionParts t ≠ []) (all : literals? (unionParts t) = some vs) :
    ofUnion t = (string, some vs) := by
  obtain ⟨first, more, eq⟩ := List.exists_cons_of_ne_nil ne
  rw [eq] at all
  simp only [ofUnion, eq, all]

/-- Of parts that are not all literals the first one counts. -/
theorem ofUnion_of_notLiterals {first : Text} {more : List Text}
    (eq : unionParts t = first :: more) (other : literals? (first :: more) = none) :
    ofUnion t = (ofName first, none) := by
  simp only [ofUnion, eq, other]

/-- The parts of a union are read back where they are written alone. -/
theorem unionParts_join_parts (ms : List Member) : unionParts (join " | " (parts ms)) = parts ms := by
  let alone : List Member := (ms.filterMap Member.part?).map Member.part
  have kept : parts alone = parts ms := by
    rw [parts, List.filterMap_map]
    exact congrArg _ List.filterMap_some
  have text : written alone 0 = join " | " (parts ms) := by
    rw [written, List.map_map]
    exact List.append_nil _
  have read := unionParts_written alone 0
  rwa [text, kept] at read

/-- **The type of a union is that of its parts.**  It stays the same with `null` and `undefined`
anywhere among them and with semicolons behind; without parts it is a text.  Parts that are all
literals list what these hold, and if one of them is no literal, nothing is listed. -/
theorem ofUnion_written (ms : List Member) (semicolons : Nat) :
    ofUnion (written ms semicolons) = ofUnion (join " | " (parts ms)) ∧
    (parts ms = [] → ofUnion (written ms semicolons) = (string, none)) ∧
    (∀ values, parts ms ≠ [] → List.Forall₂ IsLiteral (parts ms) values →
      ofUnion (written ms semicolons) = (string, some values)) ∧
    ∀ first more, parts ms = first :: more → (∃ t ∈ parts ms, ∀ v, ¬IsLiteral t v) →
      ofUnion (written ms semicolons) = (ofName first, none) := by
  have read := unionParts_written ms semicolons
  have onOneLine : ∀ t ∈ parts ms, ('\n' : CodePoint) ∉ t :=
    List.forall_mem_map.mpr fun p _ => p.onOneLine
  refine ⟨ofUnion_congr (read.trans (unionParts_join_parts ms).symm), fun none => ?_,
    fun values ne all => ?_, fun first more eq other => ?_⟩
  · rw [none] at read
    rw [ofUnion, read]
  · refine ofUnion_of_literals (read ▸ ne) ?_
    rw [read]
    exact (literals?_eq_some_iff onOneLine).mpr all
  · refine ofUnion_of_notLiterals (read.trans eq) (Option.eq_none_iff_forall_ne_some.mpr ?_)
    intro values all
    obtain ⟨t, mem, bare⟩ := other
    rw [← eq, literals?_eq_some_iff onOneLine] at all
    obtain ⟨v, literal⟩ := exists_isLiteral_of_mem all mem
    exact bare v literal

/-- A union of literals in both kinds of quotation marks, with other members between them. -/
def sizes : List Member :=
  [.null, .part ⟨"'s; m'", by decide, by decide, by decide, by decide, by decide, by decide⟩,
    .undefined, .part ⟨"\"\"", by decide, by decide, by decide, by decide, by decide, by decide⟩, .null]

/-- A union of a literal with a type behind it. -/
def sizeOrNumber : List Member :=
  [.part ⟨"'s'", by decide, by decide, by decide, by decide, by decide, by decide⟩, .null,
    .part ⟨"number[]", by decide, by decide, by decide, by decide, by decide, by decide⟩]

theorem ofUnion_written_sizes : parts sizes ≠ [] ∧
    List.Forall₂ IsLiteral (parts sizes) (["s; m", ""] : List Text) ∧
    ofUnion "null | 's; m' | undefined | \"\" | null;;" =
      (string, some (["s; m", ""] : List Text)) ∧
    parts [.undefined] = [] ∧ ofUnion "undefined;" = (string, none) ∧
    parts sizeOrNumber = (["'s'", "number[]"] : List Text) ∧ (∀ v, ¬IsLiteral "number[]" v) ∧
    ofUnion "'s' | null | number[]" = (string, none) := by
  have literals : List.Forall₂ IsLiteral (parts sizes) (["s; m", ""] : List Text) :=
    .cons (Or.inl rfl) (.cons (Or.inr rfl) .nil)
  have bare : ∀ v, ¬IsLiteral "number[]" v := by
    intro v literal
    rw [← literal?_eq_some_iff (by decide)] at literal
    cases literal
  have mem : ("number[]" : Text) ∈ parts sizeOrNumber := List.mem_cons_of_mem _ List.mem_cons_self
  exact ⟨List.cons_ne_nil _ _, literals,
    (ofUnion_written sizes 2).2.2.1 _ (List.cons_ne_nil _ _) literals, rfl,
    (ofUnion_written [.undefined] 1).2.1 rfl, rfl, bare,
    (ofUnion_written sizeOrNumber 0).2.2.2 _ _ rfl ⟨_, mem, bare⟩⟩

end FieldType

end RouteDocs
