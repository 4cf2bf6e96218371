import RouteDocs.Infer.Body
import RouteDocs.Proofs.Infer.Declaration

/-!
# Binding Patterns Are Read Back

Taking a body apart names its properties in a pattern: each item has the name of a property, and can
give it another name, a default or both; the last items can be for all the rest.  What was written in
this way is found again.

## Main Definitions

* `BodyField.Binding`: an item that takes a property, and how it is written
* `BodyField.PatternItem`: such an item, or one for the rest

## Main Statements

* `BodyField.bound?_text`: **a property is read from its item**, and whether it has a default
* `BodyField.boundNames_written`: **the properties of a pattern are those that were written**

## Design Notes

An item counts as one with a default if there is an equals sign anywhere behind the name.  That is
why another name must not have one, while a default may have anything but a comma.
-/

namespace RouteDocs

namespace BodyField

open TypeBlock (isNamePart)

/-! ### What Is Written -/

/-- Code points that an item can have. -/
def isItemPart (c : CodePoint) : Bool := c != ','

/-- Code points that another name can have, those of identifiers among them. -/
def isAliasPart (c : CodePoint) : Bool := c != ',' && c != '='

/-- Another name with what stands around it. -/
structure Alias where
  /-- What stands before it. -/
  before : Blanks
  /-- The name. -/
  name : Text.Run1 isAliasPart
  /-- What stands behind it. -/
  after : Blanks

/-- A default with what stands before it. -/
structure Default where
  /-- What stands before it. -/
  before : Blanks
  /-- The default. -/
  value : Text.Run1 isItemPart

/-- **What is written about a property** that is taken. -/
structure Binding where
  /-- What stands before the name. -/
  before : Blanks
  /-- The name of the property. -/
  name : Text.Run1 isNamePart
  /-- What stands behind the name. -/
  after : Blanks
  /-- Another name, if one is given. -/
  other? : Option Alias
  /-- A default, if one is given. -/
  default? : Option Default

/-- How another name is written. -/
def Alias.text (o : Alias) : Text := ":" ++ (o.before.text ++ (o.name.text ++ o.after.text))

/-- How a default is written. -/
def Default.text (d : Default) : Text := "=" ++ (d.before.text ++ d.value.text)

namespace Binding

variable (b : Binding)

/-- What is written behind the name and the blanks there. -/
def behind : Text := b.other?.elim [] Alias.text ++ b.default?.elim [] Default.text

/-- How an item is written. -/
def text : Text := b.before.text ++ (b.name.text ++ (b.after.text ++ b.behind))

end Binding

/-- **An item of a pattern.** -/
inductive PatternItem where
  /-- An item that takes a property. -/
  | property (b : Binding)
  /-- An item for all the rest. -/
  | rest (before : Blanks) (name : Text.Run isItemPart)

namespace PatternItem

/-- How an item is written. -/
def text : PatternItem → Text
  | property b => b.text
  | rest before name => before.text ++ ("..." ++ name.text)

/-- The property that an item takes, and whether it has no default; an item for the rest takes
none. -/
def taken? : PatternItem → Option (Text × Bool)
  | property b => some (b.name.text, b.default?.isNone)
  | rest _ _ => none

end PatternItem

/-- How a pattern is written: its items with commas between them, and perhaps one behind them. -/
def patternText (items : List PatternItem) (trailing : Option Blanks) : Text :=
  Text.join "," (items.map PatternItem.text) ++ trailing.elim [] fun after => ("," : Text) ++ after.text

variable {t : Text} {a : CodePoint}

/-! ### Items -/

theorem isItemPart_of_isBlank (blank : a.isBlank = true) : isItemPart a = true :=
  bne_iff_ne.mpr <| by
    rintro rfl
    exact absurd blank (by decide)

theorem isItemPart_of_isNamePart (part : isNamePart a = true) : isItemPart a = true :=
  bne_iff_ne.mpr <| by
    rintro rfl
    exact absurd part (by decide)

theorem isItemPart_of_isAliasPart (part : isAliasPart a = true) : isItemPart a = true :=
  ((Bool.and_eq_true _ _).mp part).1

/-- Blanks are part of their item. -/
theorem isItemPart_of_mem_blanks (g : Blanks) : ∀ c ∈ g.text, isItemPart c = true := fun c mem =>
  isItemPart_of_isBlank (g.inClass c mem)

theorem isItemPart_of_mem_alias (o : Alias) : ∀ c ∈ o.text, isItemPart c = true := by
  rw [Alias.text]
  simp only [List.forall_mem_append]
  exact ⟨List.all_eq_true.mp rfl, isItemPart_of_mem_blanks o.before,
    fun c mem => isItemPart_of_isAliasPart (o.name.inClass c mem), isItemPart_of_mem_blanks o.after⟩

theorem isItemPart_of_mem_default (d : Default) : ∀ c ∈ d.text, isItemPart c = true := by
  rw [Default.text]
  simp only [List.forall_mem_append]
  exact ⟨List.all_eq_true.mp rfl, isItemPart_of_mem_blanks d.before, d.value.inClass⟩

theorem isItemPart_of_mem_behind (b : Binding) : ∀ c ∈ b.behind, isItemPart c = true := by
  refine List.forall_mem_append.mpr ⟨?_, ?_⟩
  · cases b.other? with
    | none => exact List.forall_mem_nil _
    | some o => exact isItemPart_of_mem_alias o
  · cases b.default? with
    | none => exact List.forall_mem_nil _
    | some d => exact isItemPart_of_mem_default d

/-- **No comma stands in an item.** -/
theorem isItemPart_of_mem_text (item : PatternItem) : ∀ c ∈ item.text, isItemPart c = true := by
  cases item with
  | property b =>
      rw [PatternItem.text, Binding.text]
      simp only [List.forall_mem_append]
      exact ⟨isItemPart_of_mem_blanks b.before,
        fun c mem => isItemPart_of_isNamePart (b.name.inClass c mem),
        isItemPart_of_mem_blanks b.after, isItemPart_of_mem_behind b⟩
  | rest before name =>
      rw [PatternItem.text]
      simp only [List.forall_mem_append]
      exact ⟨isItemPart_of_mem_blanks before, List.all_eq_true.mp rfl, name.inClass⟩

/-- Behind the name stands nothing or a colon or an equals sign: to be seen, no part of the name and
no question mark. -/
theorem head?_behind (b : Binding) :
    ∀ c ∈ b.behind.head?, c.isBlank = false ∧ isNamePart c = false ∧ c ≠ ('?' : CodePoint) := by
  rw [Binding.behind]
  cases b.other? with
  | some o =>
      rintro _ ⟨⟩
      decide
  | none =>
      cases b.default? with
      | some d =>
          rintro _ ⟨⟩
          decide
      | none =>
          intro _ first
          cases first

/-- **An equals sign stands behind the name** exactly if there is a default. -/
theorem mem_behind_iff (b : Binding) : ('=' : CodePoint) ∈ b.behind ↔ b.default?.isSome = true := by
  have unmarked (o : Alias) : ('=' : CodePoint) ∉ o.text := by
    have blank (g : Blanks) : ('=' : CodePoint) ∉ g.text := fun mem =>
      absurd (g.inClass _ mem) (by decide)
    have name : ('=' : CodePoint) ∉ o.name.text := fun mem =>
      absurd (o.name.inClass _ mem) (by decide)
    have colon : ('=' : CodePoint) ∉ (":" : Text) := by decide
    simp only [Alias.text, List.mem_append, colon, blank, name, or_self, not_false_eq_true]
  have first : ('=' : CodePoint) ∉ b.other?.elim [] Alias.text := by
    cases b.other? with
    | none => exact List.not_mem_nil
    | some o => exact unmarked o
  rw [Binding.behind, List.mem_append, or_iff_right first]
  cases b.default? with
  | none => exact iff_of_false List.not_mem_nil Bool.false_ne_true
  | some d => exact iff_of_true List.mem_cons_self rfl

/-! ### Reading an Item -/

/-- Blanks before a name are taken away, and what is behind it is trimmed at its end. -/
theorem strip_append_name (before : Blanks) (name : Text.Run1 isNamePart) (t : Text) :
    Text.strip (before.text ++ (name.text ++ t)) =
      name.text ++ Text.trimRight CodePoint.isBlank t := by
  have visible : ∀ c ∈ name.text, c.isBlank = false := fun c mem =>
    TypeBlock.isBlank_eq_false_of_isNamePart (name.inClass c mem)
  obtain ⟨c, r, first⟩ := List.exists_cons_of_ne_nil name.nonempty
  obtain ⟨s, d, last⟩ := (List.eq_nil_or_concat' name.text).resolve_left name.nonempty
  have left : Text.trimLeft CodePoint.isBlank (name.text ++ t) = name.text ++ t := by
    rw [first, Text.trimLeft, List.cons_append, List.dropWhile_cons_of_neg]
    exact Bool.eq_false_iff.mp (visible c (first ▸ List.mem_cons_self))
  have other : d.isBlank = false := visible d (last ▸ List.mem_append_right s List.mem_cons_self)
  rw [Text.strip, Text.trim_run_append before.inClass, Text.trim, left, last, List.append_assoc,
    List.singleton_append, Text.trimRight_append_cons other, List.append_assoc]
  rfl

/-- A name does not go on behind blanks. -/
theorem isNamePart_head_append (g : Blanks) (stop : isNamePart a = false) (t : Text) :
    ∀ c ∈ (g.text ++ a :: t).head?, isNamePart c = false := by
  intro c first
  cases gap : g.text with
  | nil =>
      rw [gap] at first
      obtain rfl : a = c := Option.some.inj first
      exact stop
  | cons d r =>
      rw [gap] at first
      obtain rfl : d = c := Option.some.inj first
      refine Bool.eq_false_iff.mpr fun part => ?_
      have visible := TypeBlock.isBlank_eq_false_of_isNamePart part
      rw [g.inClass d (gap ▸ List.mem_cons_self)] at visible
      cases visible

/-- **Behind a name** there is nothing that goes on with it, and the first thing to be seen is no
question mark. -/
theorem trimRight_after_behind (b : Binding) {r : Text}
    (trimmed : Text.trimRight CodePoint.isBlank (b.after.text ++ b.behind) = r) :
    (∀ c ∈ r.head?, isNamePart c = false) ∧
      (r.dropWhile CodePoint.isBlank).head? ≠ some ('?' : CodePoint) := by
  subst trimmed
  cases behind : b.behind with
  | nil =>
      have nothing : Text.trimRight CodePoint.isBlank (b.after.text ++ []) = [] := by
        rw [List.append_nil]
        exact Text.trimRight_append b.after.inClass []
      rw [nothing]
      exact ⟨by rintro _ ⟨⟩, by decide⟩
  | cons c s =>
      obtain ⟨visible, stop, known⟩ := head?_behind b c (by rw [behind]; rfl)
      have seen : ∀ x ∈ (c :: Text.trimRight CodePoint.isBlank s).head?, x.isBlank = false := by
        rintro _ ⟨⟩
        exact visible
      rw [Text.trimRight_append_cons visible,
        Text.dropWhile_append_of_ends b.after.inClass seen]
      exact ⟨isNamePart_head_append b.after stop _, fun same => known (Option.some.inj same)⟩

/-- **A property is read from its item**, and whether it has a default. -/
theorem bound?_text (b : Binding) : bound? b.text = some (b.name.text, b.default?.isNone) := by
  obtain ⟨r, trimmed⟩ : ∃ r, Text.trimRight CodePoint.isBlank (b.after.text ++ b.behind) = r :=
    ⟨_, rfl⟩
  obtain ⟨stop, known⟩ := trimRight_after_behind b trimmed
  have named : b.name.text.isEmpty = false := List.isEmpty_eq_false_iff.mpr b.name.nonempty
  have unasked : ((r.dropWhile CodePoint.isBlank).head? == some ('?' : CodePoint)) = false :=
    beq_eq_false_iff_ne.mpr known
  have gap : ('=' : CodePoint) ∉ b.after.text := fun mem =>
    absurd (b.after.inClass _ mem) (by decide)
  have given : r.contains '=' = b.default?.isSome := by
    rw [Bool.eq_iff_iff, List.contains_iff_mem, ← trimmed, Text.mem_trimRight_iff (by decide),
      List.mem_append, or_iff_right gap, mem_behind_iff]
  rw [bound?, Binding.text, strip_append_name, trimmed,
    Text.takeWhile_append_of_ends b.name.inClass stop,
    Text.dropWhile_append_of_ends b.name.inClass stop]
  simp only [named, unasked, given, Bool.false_or, Option.not_isSome, Bool.false_eq_true, if_false]

/-- Nothing is read from an item for the rest. -/
theorem bound?_rest (before : Blanks) (name : Text) :
    bound? (before.text ++ ("..." ++ name)) = none := by
  have point : CodePoint.isBlank '.' = false := rfl
  have trimmed : Text.strip (before.text ++ ("..." ++ name)) =
      ('.' : CodePoint) :: Text.trimRight CodePoint.isBlank (".." ++ name) := by
    rw [Text.strip, Text.trim_run_append before.inClass]
    exact Text.trimRight_append_cons point [] _
  rw [bound?, trimmed]
  rfl

/-- Nothing is read from blanks. -/
theorem bound?_blanks (g : Blanks) : bound? g.text = none := by
  have trimmed : Text.strip g.text = [] :=
    Text.trim_append (t := []) rfl g.inClass
  rw [bound?, trimmed]
  rfl

theorem bound?_item (item : PatternItem) : bound? item.text = item.taken? := by
  cases item with
  | property b => exact bound?_text b
  | rest before name => exact bound?_rest before name.text

/-! ### Reading a Pattern -/

/-- The items of a pattern are read one after another. -/
theorem filterMap_splitOn_join (items : List PatternItem) :
    ((Text.join "," (items.map PatternItem.text)).splitOn ',').filterMap bound? =
      items.filterMap PatternItem.taken? := by
  by_cases none : items = []
  · rw [none]
    rfl
  · have clean : ∀ t ∈ items.map PatternItem.text, ∀ c ∈ t, c ≠ ',' := by
      refine List.forall_mem_map.mpr fun item _ c mem => ?_
      exact bne_iff_ne.mp (isItemPart_of_mem_text item c mem)
    have pieces : (Text.join "," (items.map PatternItem.text)).splitOn ',' =
        items.map PatternItem.text := Text.splitOn_join (by simpa using none) clean
    rw [pieces, List.filterMap_map]
    exact List.filterMap_congr fun item _ => bound?_item item

/-- **The properties of a pattern are those that were written**, in order and each with whether it
has no default; items for the rest and a comma behind the items add nothing. -/
theorem boundNames_written (items : List PatternItem) (trailing : Option Blanks) :
    boundNames (patternText items trailing) = items.filterMap PatternItem.taken? := by
  rw [boundNames, patternText]
  cases trailing with
  | none =>
      rw [Option.elim_none, List.append_nil]
      exact filterMap_splitOn_join items
  | some after =>
      have clean : ∀ c ∈ after.text, c ≠ ',' := fun c mem =>
        bne_iff_ne.mp (isItemPart_of_mem_blanks after c mem)
      have last : after.text.splitOn ',' = [after.text] := Text.splitOn_eq_singleton clean
      have pieces : (Text.join "," (items.map PatternItem.text) ++
          (("," : Text) ++ after.text)).splitOn ',' =
          (Text.join "," (items.map PatternItem.text)).splitOn ',' ++ [after.text] :=
        (Text.splitOn_append_sep ',' _ after.text).trans (congrArg _ last)
      rw [Option.elim_some, pieces, List.filterMap_append, filterMap_splitOn_join,
        List.filterMap_cons_none (bound?_blanks after)]
      exact List.append_nil _

/-- A pattern with a plain item, one with another name and a default, and one for the rest. -/
def titlePattern : List PatternItem :=
  let blank := oneBlank.toRun
  let name : Alias := ⟨blank, .of "t" rfl rfl, blank⟩
  let value : Default := ⟨blank, .of "a ? b : 'x=y'" rfl rfl⟩
  [.property ⟨.empty, .of "slug" rfl rfl, blank, none, none⟩,
    .property ⟨blank, .of "title" rfl rfl, .empty, some name, some value⟩,
    .rest blank (.of "others" rfl)]

/-- The pattern takes two properties, the second one with a default. -/
theorem boundNames_titlePattern :
    patternText titlePattern (some oneBlank.toRun) =
        "slug , title: t = a ? b : 'x=y', ...others, " ∧
      boundNames (patternText titlePattern (some oneBlank.toRun)) =
        ([("slug", true), ("title", false)] : List (Text × Bool)) :=
  ⟨by decide, (boundNames_written titlePattern _).trans (by decide)⟩

end BodyField

end RouteDocs
