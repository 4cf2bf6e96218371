import RouteDocs.Infer.Body
import RouteDocs.Proofs.Json.Keys

/-!
# Schemas and Examples of Inferred Bodies

The body of a handler is described twice, by a schema and by an example, and both are made from the
fields that one of three ways finds in its source.

## Main Definitions

* `FieldType.admits`: the values of a type
* `Json.Meets`: the values that are as a schema says
* `RequestBody.properties`, `RequestBody.examples`: what is said of each property
* `BodyField.IsTyped`: the fields whose type and listed values belong together
* `BodyField.demanded`: the names that taking a body apart demands, with repetitions

## Main Statements

* `BodyField.isTyped_of_fields?`: whatever way finds the fields, their types are in order
* `BodyField.meets_property_iff`: which fields have an example that is as their schema says
* `RequestBody.examples_meet_iff`: **when the example of a body satisfies its schema**
* `RequestBody.infer_isObjectSchema`: **a body is in order, apart from demands made twice**

## Design Notes

The type of a field and its example are chosen by different rules: the type by a declaration, or by
the name where the field is read from a variable, the example by the type and, for texts, by the
name. The rules differ only for texts that have the name of a flag.
-/

namespace RouteDocs

/-! ### Values of a Type -/

namespace FieldType

/-- The values of a type. -/
def admits : FieldType → Json → Bool
  | string, .str _ => true
  | number, .int _ => true
  | number, .float _ => true
  | boolean, .bool _ => true
  | array, .arr _ => true
  | object, .obj _ => true
  | _, _ => false

theorem name_injective {t u : FieldType} (h : t.name = u.name) : t = u := by
  cases t <;> cases u <;> first | rfl | exact absurd h (by decide)

/-- Only texts have listed values, and then there are some. -/
theorem listed_of_ofUnion {t : Text} {values : List Text} (h : (ofUnion t).2 = some values) :
    (ofUnion t).1 = string ∧ values ≠ [] := by
  unfold ofUnion at h ⊢
  cases parts : unionParts t with
  | nil => simp [parts] at h
  | cons first more =>
      simp only [parts] at h ⊢
      cases literal : literals? (first :: more) with
      | none => simp [literal] at h
      | some values' =>
          simp only [literal, Option.some.injEq] at h ⊢
          subst h
          obtain ⟨l, -, found⟩ := Option.bind_eq_some_iff.mp literal
          obtain ⟨ls, -, rfl⟩ := Option.map_eq_some_iff.mp found
          exact ⟨trivial, List.cons_ne_nil _ _⟩

end FieldType

/-- The values that are as the schema of a property says: of the type that it names, and one of the
values that it lists, if it lists any. -/
structure Json.Meets (v : Json) (schema : Assoc Json) : Prop where
  /-- The type is named, and the value is of it. -/
  type : ∃ t : FieldType, schema.get? "type" = some (.str t.name) ∧ t.admits v = true
  /-- The value is listed. -/
  listed : ∀ w, schema.get? "enum" = some w → ∃ vs, w = .arr vs ∧ v ∈ vs

/-! ### Fields -/

namespace BodyField

open RequestBody (property)

variable {f : BodyField} {fields : List BodyField} {ctx : RouteContext}

/-- Fields that have one of the types and list values, of which there are some, only for texts. -/
structure IsTyped (f : BodyField) : Prop where
  /-- The type is one of the types. -/
  type : ∃ t : FieldType, f.type = t.name
  /-- Only texts have listed values. -/
  values : ∀ vs, f.values = some vs → f.type = FieldType.string.name ∧ vs ≠ []

theorem isTyped_ofDeclared (name : Text) (required : Bool) (d : TypeBlock.Field) :
    (ofDeclared name required d).IsTyped where
  type := ⟨(FieldType.ofUnion d.type).1, rfl⟩
  values vs h :=
    have listed : (FieldType.ofUnion d.type).1 = .string ∧ vs ≠ [] := FieldType.listed_of_ofUnion h
    ⟨congrArg FieldType.name listed.1, listed.2⟩

theorem isTyped_of_values_eq_none {name : Text} {required : Bool} {t : FieldType} :
    (BodyField.mk name required t.name none).IsTyped where
  type := ⟨t, rfl⟩
  values _ h := by cases h

theorem isTyped_accessed (name : Text) (required : Bool) : (accessed name required).IsTyped := by
  unfold accessed
  split <;> exact isTyped_of_values_eq_none

/-! ### The Three Ways -/

theorem isTyped_of_ofDestructuring? (found : ofDestructuring? ctx = some fields) :
    ∀ f ∈ fields, f.IsTyped := by
  obtain ⟨m, -, taken⟩ := List.exists_of_findSome?_eq_some found
  dsimp only at taken
  split at taken
  · cases taken
  · split at taken
    · cases taken
    · obtain rfl := Option.some.inj taken
      refine List.forall_mem_map.mpr fun p _ => ?_
      split
      · exact isTyped_ofDeclared _ _ _
      · exact isTyped_of_values_eq_none

/-- Fields that are read from a variable have different names, and their types are chosen by their
names. -/
theorem of_ofAccess? (found : ofAccess? ctx = some fields) :
    (fields.map (·.name)).Nodup ∧ ∀ f ∈ fields, ∃ name required, f = accessed name required := by
  unfold ofAccess? at found
  dsimp only at found
  split at found
  · cases found
  · obtain rfl := Option.some.inj found
    generalize ((jsonDestructuring.findAll ctx.source).flatMap fun m => boundNames (m.group 1)) ++
      ((propertyRead (identifiers ctx.source)).findAll ctx.source).map
        (fun m => (m.group 1, false)) = named
    obtain ⟨nodup, members⟩ := Assoc.foldl_putNew (fun p : Text × Bool => p.1)
      (fun p => accessed p.1 p.2) named [] List.nodup_nil
    have own (p : Text × BodyField) (hp : p ∈ named.foldl (fun m x =>
        Assoc.putNew x.1 (accessed x.1 x.2) m) []) : ∃ required, p.2 = accessed p.1 required := by
      obtain ⟨x, -, rfl⟩ := (members p hp).resolve_left List.not_mem_nil
      exact ⟨x.2, rfl⟩
    constructor
    · rw [List.map_map]
      refine (List.map_congr_left fun p hp => ?_) ▸ nodup
      obtain ⟨required, eq⟩ := own p hp
      exact (congrArg name eq).symm
    · refine List.forall_mem_map.mpr fun p hp => ?_
      obtain ⟨required, eq⟩ := own p hp
      exact ⟨p.1, required, eq⟩

/-- The fields of a declared type have different names. -/
theorem nodup_fields_of_mem_all {content : Text} {b : TypeBlock} (mem : b ∈ TypeBlock.all content) :
    (b.fields.map (·.1)).Nodup := by
  obtain ⟨m, -, rfl⟩ := List.mem_map.mp (List.mem_of_mem_filter mem)
  exact Assoc.nodup_ofList _

theorem of_ofDeclarations? (found : ofDeclarations? ctx = some fields) :
    (fields.map (·.name)).Nodup ∧ ∀ f ∈ fields, f.IsTyped := by
  obtain ⟨b, chosen, rfl⟩ := Option.map_eq_some_iff.mp found
  have mem : b ∈ TypeBlock.all ctx.content := by
    cases preferred : (TypeBlock.all ctx.content).find? fun b => isBodyTypeName b.name with
    | some b' =>
        rw [preferred] at chosen
        obtain rfl : b' = b := Option.some.inj chosen
        exact List.mem_of_find?_eq_some preferred
    | none =>
        rw [preferred] at chosen
        exact List.mem_of_head? chosen
  constructor
  · rw [List.map_map]
    exact nodup_fields_of_mem_all mem
  · exact List.forall_mem_map.mpr fun p _ => isTyped_ofDeclared _ _ _

/-- Whatever way finds the fields of a body, their types are in order. -/
theorem isTyped_of_fields? (found : RequestBody.fields? ctx = some fields) :
    ∀ f ∈ fields, f.IsTyped := by
  unfold RequestBody.fields? at found
  cases taken : ofDestructuring? ctx with
  | some first =>
      rw [taken] at found
      obtain rfl : first = fields := Option.some.inj found
      exact isTyped_of_ofDestructuring? taken
  | none =>
      rw [taken, Option.orElse_none] at found
      cases read : ofAccess? ctx with
      | some second =>
          rw [read] at found
          obtain rfl : second = fields := Option.some.inj found
          intro f hf
          obtain ⟨name, required, rfl⟩ := (of_ofAccess? read).2 f hf
          exact isTyped_accessed name required
      | none =>
          rw [read] at found
          exact (of_ofDeclarations? found).2

/-! ### Examples and Schemas of Fields -/

/-- The example for a name is a text, or the name is that of a flag. -/
theorem exampleForName_cases (name : Text) :
    (∃ t, exampleForName name = .str t) ∨
      exampleForName name = .bool true ∧ isFlagName name = true := by
  unfold exampleForName
  dsimp only
  split_ifs <;> simp [*]

/-- A schema that names a type and says nothing else. -/
def typeOnly (type : Text) : Assoc Json := [("type", .str type)]

theorem typeOnly_injective {t u : FieldType} (h : typeOnly t.name = typeOnly u.name) : t = u := by
  injection h with pair
  injection pair with _ named
  injection named with named
  exact FieldType.name_injective named

/-- The example of a field without listed values that is no text is of the type of the field. -/
theorem admits_exampleValue {t : FieldType} (values : f.values = none) (type : f.type = t.name)
    (other : t ≠ .string) : t.admits f.exampleValue = true := by
  cases t with
  | string => exact absurd rfl other
  | number | boolean | array | object =>
      simp only [exampleValue, values, type]
      rfl

/-- **Which fields have an example that is as their schema says**: all but those that are any text
and have a name whose example is a truth value. -/
theorem meets_property_iff (typed : f.IsTyped) :
    f.exampleValue.Meets (property f) ↔
      ¬ (property f = typeOnly "string" ∧ exampleForName f.name = .bool true) := by
  obtain ⟨t, type⟩ := typed.type
  cases values : f.values with
  | some vs =>
      obtain ⟨text, nonempty⟩ := typed.values vs values
      obtain ⟨first, more, rfl⟩ := List.exists_cons_of_ne_nil nonempty
      have schema : property f =
          typeOnly f.type ++ ([("enum", Json.ofTexts (first :: more))] : Assoc Json) := by
        simp only [property, values]
        rfl
      have value : f.exampleValue = .str first := by
        simp only [exampleValue, values]
      rw [schema, value, text]
      refine iff_of_true ⟨⟨.string, rfl, rfl⟩, fun w h => ?_⟩ fun plain => ?_
      · obtain rfl : Json.ofTexts (first :: more) = w := Option.some.inj h
        exact ⟨_, rfl, List.mem_map_of_mem List.mem_cons_self⟩
      · exact absurd (congrArg List.length plain.1) (by simp [typeOnly])
  | none =>
      have schema : property f = typeOnly t.name := by
        simp only [property, values, type]
        rfl
      have meets_iff : f.exampleValue.Meets (typeOnly t.name) ↔
          t.admits f.exampleValue = true := by
        constructor
        · rintro ⟨⟨u, named, admits⟩, -⟩
          have same : t.name = u.name := by
            injection Option.some.inj named
          rwa [FieldType.name_injective same]
        · exact fun admits => ⟨⟨t, rfl, admits⟩, fun w h => by cases h⟩
      have plain_iff : typeOnly t.name = typeOnly "string" ↔ t = .string :=
        ⟨fun same => typeOnly_injective (u := .string) same, fun same => by rw [same]; rfl⟩
      rw [schema, meets_iff, plain_iff]
      by_cases text : t = .string
      · subst text
        have value : f.exampleValue = exampleForName f.name := by
          simp only [exampleValue, values, type]
          rfl
        rw [value]
        rcases exampleForName_cases f.name with ⟨u, eq⟩ | ⟨eq, -⟩ <;>
          simp [eq, FieldType.admits]
      · simp [text, admits_exampleValue values type text]

/-- The names that taking a body apart demands, as often as it demands them. -/
def demanded (ctx : RouteContext) : List Text :=
  (((ofDestructuring? ctx).getD []).filter (·.required)).map (·.name)

end BodyField

/-! ### Bodies -/

namespace RequestBody

open BodyField

variable {ctx : RouteContext} {b : RequestBody} {fields : List BodyField}

/-- The schemas of the properties of a body. -/
def properties (b : RequestBody) : Assoc Json :=
  match b.schema.get? "properties" with
  | some (.obj ps) => ps
  | _ => []

/-- The examples of the properties of a body. -/
def examples (b : RequestBody) : Assoc Json :=
  match b.example? with
  | .obj ms => ms
  | _ => []

/-- A body is made from the fields that are found, or from none. -/
theorem eq_ofFields_of_infer (inferred : infer ctx = some b) :
    b = ofFields ((fields? ctx).getD []) := by
  unfold infer at inferred
  split at inferred
  · cases inferred
  · exact (Option.some.inj inferred).symm

theorem infer_eq_some (mutating : ctx.verb?.any Verb.isMutating = true)
    (read : isBodyRead ctx.source = true) :
    infer ctx = some (ofFields ((fields? ctx).getD [])) := by
  rw [infer, mutating, read]
  rfl

/-- The schema of a property is that of the last field with its name. -/
theorem get?_properties_ofFields (name : Text) :
    (ofFields fields).properties.get? name =
      ((fields.filter (·.name == name)).getLast?).map fun f => .obj (property f) :=
  Assoc.get?_ofList_map fields _ _ name

/-- The example of a property is that of the last field with its name. -/
theorem get?_examples_ofFields (name : Text) :
    (ofFields fields).examples.get? name =
      ((fields.filter (·.name == name)).getLast?).map exampleValue :=
  Assoc.get?_ofList_map fields _ _ name

theorem isTyped_of_mem_fields? : ∀ f ∈ (fields? ctx).getD [], f.IsTyped := by
  cases found : fields? ctx with
  | none => exact List.forall_mem_nil _
  | some fields => exact isTyped_of_fields? found

/-- **When the example of a body satisfies its schema.** Every property has an example, which is as
the schema of the property says unless that is any text and the name is one whose example is a truth
value. Properties that are read from a variable always have such an example. -/
theorem examples_meet_iff (inferred : infer ctx = some b) :
    b.schema.get? "properties" = some (.obj b.properties) ∧ b.example? = .obj b.examples ∧
      ∀ name schema, b.properties.get? name = some schema →
        ∃ members v, schema = .obj members ∧ b.examples.get? name = some v ∧
          (v.Meets members ↔
            ¬ (members = typeOnly "string" ∧ exampleForName name = .bool true)) ∧
          (ofDestructuring? ctx = none → (ofAccess? ctx).isSome = true → v.Meets members) := by
  obtain rfl := eq_ofFields_of_infer inferred
  refine ⟨rfl, rfl, fun name schema found => ?_⟩
  rw [get?_properties_ofFields] at found
  rw [get?_examples_ofFields]
  obtain ⟨f, last, rfl⟩ := Option.map_eq_some_iff.mp found
  have mem := List.mem_filter.mp (List.mem_of_getLast? last)
  obtain rfl : f.name = name := eq_of_beq mem.2
  have typed := isTyped_of_mem_fields? f mem.1
  have meets := meets_property_iff typed
  refine ⟨property f, f.exampleValue, rfl, by rw [last]; rfl, meets, fun none some => ?_⟩
  obtain ⟨read, eq⟩ := Option.isSome_iff_exists.mp some
  have fields : (fields? ctx).getD [] = read := by
    rw [fields?, none, eq]
    rfl
  rw [fields] at mem
  obtain ⟨name, required, same⟩ := (of_ofAccess? eq).2 f mem.1
  rw [meets]
  rintro ⟨text, switch⟩
  -- a name with such an example is that of a flag, and a flag is read as a truth value
  have flag : isFlagName name = true := by
    rcases exampleForName_cases f.name with ⟨t, str⟩ | ⟨-, flag⟩
    · rw [str] at switch
      cases switch
    · rw [same] at flag
      exact flag
  have boolean : property f = typeOnly FieldType.boolean.name := by
    simp only [same, accessed, flag, property, if_true]
    rfl
  exact absurd (typeOnly_injective (u := .string) (boolean.symm.trans text)) (by decide)

/-- A `POST` handler with a given source. -/
def postContext (source : Text) : RouteContext :=
  ⟨"POST", "/api/tasks", "src/app/api/tasks/route.ts", source, none, none,
    RouteContext.defaultLogin⟩

/-- A handler that takes two properties out of its body, one of them with declared values. -/
def taskContext : RouteContext :=
  postContext ("type Task = \x7b title: string; priority?: 'low' | 'high' \x7d\n"
    ++ "const body = await request.json();\nconst \x7b title, priority \x7d = body;")

theorem infer_taskContext : infer taskContext = some (ofFields [
    ⟨"title", true, "string", none⟩, ⟨"priority", false, "string", some ["low", "high"]⟩]) := by
  have found : fields? taskContext = some [
      ⟨"title", true, "string", none⟩, ⟨"priority", false, "string", some ["low", "high"]⟩] := by
    decide +kernel
  rw [infer_eq_some (by decide +kernel) (by decide +kernel), found]
  rfl

theorem examples_meet_priority :
    ∃ b members v, infer taskContext = some b ∧
      b.properties.get? "priority" = some (.obj members) ∧
      b.examples.get? "priority" = some v ∧ v.Meets members := by
  have listed : Assoc.get? "priority" (properties (ofFields [
      ⟨"title", true, "string", none⟩, ⟨"priority", false, "string", some ["low", "high"]⟩])) =
      some (.obj (property ⟨"priority", false, "string", some ["low", "high"]⟩)) := by
    rw [get?_properties_ofFields]
    rfl
  obtain ⟨members, v, same, value, meets, -⟩ :=
    (examples_meet_iff infer_taskContext).2.2 "priority" _ listed
  refine ⟨_, members, v, infer_taskContext, same ▸ listed, value, meets.mpr fun plain => ?_⟩
  injection same with same
  rw [← same] at plain
  exact absurd (congrArg List.length plain.1) (by decide)

/-- **An example that is not as the schema says**: a flag that is taken out of a body variable is
described as a text, and its example is a truth value. -/
theorem example_is_no_text :
    ∃ b, infer (postContext
        "const body = await request.json();\nconst \x7b isActive \x7d = body;") = some b ∧
      b.properties.get? "isActive" = some (.obj (typeOnly "string")) ∧
      b.examples.get? "isActive" = some (.bool true) ∧
      ¬ Json.Meets (.bool true) (typeOnly "string") := by
  have found : fields? (postContext
      "const body = await request.json();\nconst \x7b isActive \x7d = body;") =
        some [⟨"isActive", true, "string", none⟩] := by decide +kernel
  refine ⟨_, infer_eq_some (by decide +kernel) (by decide +kernel), ?_, ?_, ?_⟩
  · rw [found, get?_properties_ofFields]
    rfl
  · rw [found, get?_examples_ofFields]
    rfl
  · rintro ⟨⟨t, named, admits⟩, -⟩
    have text : FieldType.string.name = t.name := by
      injection Option.some.inj named
    rw [← FieldType.name_injective text] at admits
    cases admits

/-! ### Required Properties -/

theorem keys_ofFields : (ofFields fields).properties.keys = (fields.map (·.name)).eraseDups ∧
    (ofFields fields).examples.keys = (fields.map (·.name)).eraseDups := by
  have names {β : Type} (value : BodyField → β) :
      (Assoc.ofList (fields.map fun f => (f.name, value f))).keys =
        (fields.map (·.name)).eraseDups := by
    rw [Assoc.keys_ofList, List.map_map]
    rfl
  exact ⟨names _, names _⟩

/-- The schema has the list of required properties unless that is empty. -/
theorem get?_required_ofFields :
    (ofFields fields).schema.get? "required" =
      if (ofFields fields).required = [] then none
      else some (.ofTexts (ofFields fields).required) := by
  change Assoc.get? "required" (("type", _) :: ("properties", _) ::
    if (ofFields fields).required.isEmpty then [] else
      [("required", Json.ofTexts (ofFields fields).required)]) = _
  by_cases none : (ofFields fields).required = []
  · rw [if_pos none, if_pos (by rw [none]; rfl)]
    rfl
  · rw [if_neg none, if_neg (by simpa using none)]
    rfl

/-- Only by taking a body apart can a property be demanded twice: the other ways find fields with
different names. -/
theorem nodup_required_iff :
    (ofFields ((fields? ctx).getD [])).required.Nodup ↔ (demanded ctx).Nodup := by
  have distinct {fs : List BodyField} (names : (fs.map (·.name)).Nodup) :
      (ofFields fs).required.Nodup := names.sublist (List.filter_sublist.map _)
  rw [fields?]
  cases taken : ofDestructuring? ctx with
  | some fs => rw [demanded, taken]; rfl
  | none =>
      have nothing : (demanded ctx).Nodup := by
        rw [demanded, taken]
        exact List.nodup_nil
      refine iff_of_true (distinct ?_) nothing
      rw [Option.orElse_none]
      cases read : ofAccess? ctx with
      | some fs => exact (of_ofAccess? read).1
      | none =>
          rw [Option.orElse_none]
          cases declared : ofDeclarations? ctx with
          | some fs => exact (of_ofDeclarations? declared).1
          | none => exact List.nodup_nil

/-- **A body is in order, apart from demands made twice.** Its schema describes an object, the
example has the same properties in the same order, what is required is among them, and the schema
has the list of required properties unless that is empty. The list has no repetitions exactly if
none are made by taking the body apart. -/
theorem infer_isObjectSchema (inferred : infer ctx = some b) :
    b.schema.get? "type" = some (.str "object") ∧
      b.schema.get? "properties" = some (.obj b.properties) ∧ b.example? = .obj b.examples ∧
      b.properties.keys.Nodup ∧ b.examples.keys = b.properties.keys ∧
      (∀ name ∈ b.required, name ∈ b.properties.keys) ∧
      b.schema.get? "required" =
        (if b.required = [] then none else some (.ofTexts b.required)) ∧
      (b.required.Nodup ↔ (demanded ctx).Nodup) := by
  obtain rfl := eq_ofFields_of_infer inferred
  generalize found : (fields? ctx).getD [] = fields
  obtain ⟨properties, examples⟩ : (ofFields fields).properties.keys = _ ∧
      (ofFields fields).examples.keys = _ := keys_ofFields
  refine ⟨rfl, rfl, rfl, ?_, examples.trans properties.symm, ?_, ?_, found ▸ nodup_required_iff⟩
  · rw [properties]
    exact nodup_eraseDups _
  · intro name mem
    rw [properties, List.mem_eraseDups]
    exact (List.filter_sublist.map _).subset mem
  · exact get?_required_ofFields

theorem infer_isObjectSchema_task :
    ∃ b, infer taskContext = some b ∧ b.required = ["title"] ∧ b.required.Nodup ∧
      b.examples.keys = b.properties.keys ∧ ∀ name ∈ b.required, name ∈ b.properties.keys := by
  obtain ⟨-, -, -, -, keys, required, -, nodup⟩ := infer_isObjectSchema infer_taskContext
  exact ⟨_, infer_taskContext, rfl, nodup.mpr (by decide +kernel), keys, required⟩

/-- **A property that is required twice**: it is taken out of the body under two names. -/
theorem required_twice :
    ∃ b, infer (postContext
        "const body = await request.json();\nconst \x7b id: first, id: second \x7d = body;") =
          some b ∧
      b.properties.keys = ["id"] ∧ b.required = ["id", "id"] ∧ ¬ b.required.Nodup := by
  have found : fields? (postContext
      "const body = await request.json();\nconst \x7b id: first, id: second \x7d = body;") =
        some [⟨"id", true, "string", none⟩, ⟨"id", true, "string", none⟩] := by decide +kernel
  refine ⟨_, infer_eq_some (by decide +kernel) (by decide +kernel), ?_⟩
  rw [found, keys_ofFields.1]
  decide +kernel

end RequestBody

end RouteDocs
