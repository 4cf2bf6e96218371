import RouteDocs.Proofs.Json.Unquoted
import RouteDocs.Proofs.Render.OpenApi

/-!
# OpenAPI Documents as JSON

The numbers of an OpenAPI document are those of the examples and schemas of the endpoints that it
shows.  The document is JSON if they are finite.

## Main Definitions

* `OpenApi.IsShown`: the endpoints whose operations stand in a document
* `Endpoint.ExamplesIn`: the endpoints whose examples and schemas have numbers of a class

## Main Statements

* `OpenApi.floatsIn_ownOperation_iff`: the numbers of an operation
* `OpenApi.floatsIn_document_iff`: **the numbers of a document**
* `OpenApi.isText_renderJson_iff`: when a document is JSON
-/

namespace RouteDocs

open Json

variable {floats : Binary64 → Prop}

/-- The endpoints whose examples and schemas, as far as an operation shows them, have floating-point
numbers of a class. -/
structure Endpoint.ExamplesIn (floats : Binary64 → Prop) (e : Endpoint) : Prop where
  /-- Parameters outside of the body. -/
  parameters : ∀ p ∈ e.parameters, p.location ≠ .body → p.example?.FloatsIn floats
  /-- The body. -/
  requestBody : ∀ b, e.requestBody = some b →
    (∀ p ∈ b.schema, p.2.FloatsIn floats) ∧ b.example?.FloatsIn floats
  /-- The answers. -/
  responses : ∀ r ∈ e.responses, r.2.example?.FloatsIn floats

namespace OpenApi

variable {e : Endpoint} {d : Documentation}

/-! ### Members -/

theorem floatsIn_textMember (key : Text) (t : Option Text) :
    ∀ p ∈ textMember key t, p.2.FloatsIn floats := by
  unfold textMember
  split
  · split
    · exact List.forall_mem_nil _
    · exact List.forall_mem_singleton.mpr (.str _)
  · exact List.forall_mem_nil _

theorem floatsIn_valueMember_iff {key : Text} {v : Json} :
    (∀ p ∈ valueMember key v, p.2.FloatsIn floats) ↔ v.FloatsIn floats := by
  cases v <;> simp [valueMember, isNull]

theorem floatsIn_typeSchema (type : Text) : (typeSchema type).FloatsIn floats := by
  simp [typeSchema]

/-! ### Operations -/

theorem floatsIn_parameter_iff {p : Parameter} :
    (parameter p).FloatsIn floats ↔ p.example?.FloatsIn floats := by
  have description : ∀ m ∈ textMember "description" p.description, m.2.FloatsIn floats :=
    floatsIn_textMember _ _
  have schema : (typeSchema (schemaType p.type)).FloatsIn floats := floatsIn_typeSchema _
  simp only [parameter, FloatsIn.obj_iff, List.forall_mem_append, List.forall_mem_cons, schema,
    FloatsIn.str, FloatsIn.bool, List.not_mem_nil, IsEmpty.forall_iff, implies_true, true_and,
    floatsIn_valueMember_iff]
  exact and_iff_right description

theorem floatsIn_headerParameter (h : RequestHeader) : (headerParameter h).FloatsIn floats := by
  simp [headerParameter, floatsIn_typeSchema]

/-- The parameters of an operation have the numbers of their examples. -/
theorem floatsIn_parameters_iff : (∀ v ∈ parameters e, v.FloatsIn floats) ↔
    ∀ p ∈ e.parameters, p.location ≠ .body → p.example?.FloatsIn floats := by
  have headers : ∀ v ∈ ((e.requestHeaders.getD []).filter fun h =>
      Text.lower h.name != "authorization").map headerParameter, v.FloatsIn floats :=
    List.forall_mem_map.mpr fun h _ => floatsIn_headerParameter h
  rw [parameters, List.forall_mem_append, and_iff_left headers, List.forall_mem_map]
  simp only [List.mem_filter, bne_iff_ne, and_imp, floatsIn_parameter_iff]

/-- The body of an operation has the numbers of its schema and its example. -/
theorem floatsIn_requestBody?_iff : ((requestBody? e).getD .null).FloatsIn floats ↔
    ∀ b, e.requestBody = some b →
      (∀ p ∈ b.schema, p.2.FloatsIn floats) ∧ b.example?.FloatsIn floats := by
  unfold requestBody?
  cases body : e.requestBody with
  | none =>
      refine iff_of_true ?_ nofun
      dsimp only
      split
      · exact .null
      · have properties : ∀ ps : List Parameter, ∀ p ∈ Assoc.ofList (ps.map fun p =>
            (p.name, typeSchema (schemaType p.type))), p.2.FloatsIn floats := fun ps =>
          FloatsIn.of_mem_ofList (List.forall_mem_map.mpr fun p _ => floatsIn_typeSchema _)
        simp only [Option.getD_some, jsonContent, FloatsIn.obj_iff, List.forall_mem_cons,
          FloatsIn.bool, FloatsIn.str, List.not_mem_nil, IsEmpty.forall_iff, implies_true, true_and,
          and_true]
        exact properties _
  | some b =>
      have schema : (if b.schema.isEmpty then typeSchema "object" else .obj b.schema).FloatsIn
          floats ↔ ∀ p ∈ b.schema, p.2.FloatsIn floats := by
        cases hs : b.schema with
        | nil => simpa using floatsIn_typeSchema _
        | cons p more => simp
      simp only [Option.getD_some, jsonContent, FloatsIn.obj_iff, List.forall_mem_cons,
        FloatsIn.bool, FloatsIn.str, List.not_mem_nil, IsEmpty.forall_iff, implies_true, true_and,
        and_true, schema, floatsIn_valueMember_iff, Option.some.injEq, forall_eq']

theorem floatsIn_response_iff {r : Response} :
    (response r).FloatsIn floats ↔ r.example?.FloatsIn floats := by
  simp only [response, jsonContent, FloatsIn.obj_iff, List.forall_mem_cons, FloatsIn.str,
    List.not_mem_nil, IsEmpty.forall_iff, implies_true, true_and, and_true,
    floatsIn_valueMember_iff]

theorem floatsIn_responses_iff : (responses e).FloatsIn floats ↔
    ∀ r ∈ e.responses, r.2.example?.FloatsIn floats := by
  unfold responses
  cases answers : e.responses with
  | nil => simp
  | cons r more =>
      rw [if_neg (by simp), FloatsIn.obj_iff, List.forall_mem_map]
      simp only [floatsIn_response_iff]

/-- **The numbers of an operation** are those of the examples and schemas of its endpoint. -/
theorem floatsIn_ownOperation_iff :
    (ownOperation e).FloatsIn floats ↔ e.ExamplesIn floats := by
  have inputs : (∀ p ∈ (if (parameters e).isEmpty then [] else
      [("parameters", Json.arr (parameters e))] : Assoc Json), p.2.FloatsIn floats) ↔
        ∀ v ∈ parameters e, v.FloatsIn floats := by
    cases parameters e with
    | nil => simp
    | cons v more => simp
  have description : ∀ m ∈ textMember "description" e.description, m.2.FloatsIn floats :=
    floatsIn_textMember _ _
  have inner : (∀ p ∈ operation e e.groupTag, p.2.FloatsIn floats) ↔ e.ExamplesIn floats := by
    simp only [operation, List.forall_mem_append, List.forall_mem_cons, List.not_mem_nil,
      IsEmpty.forall_iff, implies_true, FloatsIn.arr_iff, FloatsIn.str, and_true, true_and,
      and_iff_right description, inputs, floatsIn_parameters_iff, floatsIn_valueMember_iff,
      floatsIn_requestBody?_iff, floatsIn_responses_iff]
    constructor
    · rintro ⟨⟨parameters, requestBody⟩, responses⟩
      exact ⟨parameters, requestBody, responses⟩
    · rintro ⟨parameters, requestBody, responses⟩
      exact ⟨⟨parameters, requestBody⟩, responses⟩
  rw [ownOperation, securedOperation, ← inner]
  cases demandedScheme? e with
  | none => exact FloatsIn.obj_iff
  | some scheme =>
      rw [FloatsIn.obj_iff, List.forall_mem_append, and_iff_left]
      simp

/-! ### Documents -/

/-- The endpoints whose operations stand in a document: the last ones with their places. -/
def IsShown (es : List Endpoint) (e : Endpoint) : Prop :=
  ((grouped es).filter (place · == place e)).getLast? = some e

/-- The schemes of identification have no numbers. -/
theorem floatsIn_securitySchemes (groups : Assoc (List Endpoint)) :
    ∀ p ∈ securitySchemes groups, p.2.FloatsIn floats := by
  have scheme : ∀ kind p, securityScheme? kind = some p → p.2.FloatsIn floats := by
    intro kind p found
    cases kind <;> simp only [securityScheme?, reduceCtorEq, Option.some.injEq] at found <;>
      subst found <;> simp
  refine FloatsIn.of_mem_ofList fun p mem => ?_
  obtain ⟨e, -, demanded⟩ := List.mem_filterMap.mp mem
  obtain ⟨kind, found⟩ := exists_kind_of_demandedScheme? demanded
  exact scheme kind p found

/-- The numbers of a document are those of its operations. -/
theorem floatsIn_document_iff_operations : (document d).FloatsIn floats ↔
    ∀ cell ∈ operations (document d), cell.2.FloatsIn floats := by
  have description : ∀ m ∈ textMember "description" d.info.description, m.2.FloatsIn floats :=
    floatsIn_textMember _ _
  have components : ∀ p ∈ (if (securitySchemes (groupByTag d.endpoints)).isEmpty then [] else
      [("components", .obj [("securitySchemes",
        .obj (securitySchemes (groupByTag d.endpoints)))])] : Assoc Json),
      p.2.FloatsIn floats := by
    split
    · exact List.forall_mem_nil _
    · simpa using floatsIn_securitySchemes _
  rw [operations_document, Assoc.cells, List.forall_mem_flatMap]
  simp only [List.forall_mem_map]
  rw [document, FloatsIn.obj_iff, List.forall_mem_append, and_iff_left components]
  simp only [List.forall_mem_cons, List.not_mem_nil, IsEmpty.forall_iff, implies_true, and_true,
    true_and, FloatsIn.str, FloatsIn.obj_iff, FloatsIn.arr_iff, List.forall_mem_append,
    List.forall_mem_map]
  exact and_iff_right description

/-- **The numbers of a document** are those of the endpoints that it shows. -/
theorem floatsIn_document_iff : (document d).FloatsIn floats ↔
    ∀ e ∈ d.endpoints, IsShown d.endpoints e → e.ExamplesIn floats := by
  rw [floatsIn_document_iff_operations]
  constructor
  · intro each e _ shown
    exact floatsIn_ownOperation_iff.mp (each (place e, ownOperation e)
      ((mem_operations_document d).mpr ⟨e, shown, rfl⟩))
  · rintro each ⟨p, op⟩ stands
    obtain ⟨e, last, rfl⟩ := (mem_operations_document d).mp stands
    obtain ⟨listed, same⟩ := List.mem_filter.mp (List.mem_of_getLast? last)
    obtain rfl := eq_of_beq same
    exact floatsIn_ownOperation_iff.mpr (each e (mem_grouped.mp listed) last)

/-- **When a document is JSON**: if the numbers of the endpoints that it shows are finite. -/
theorem isText_renderJson_iff
    (canonical : ∀ e ∈ d.endpoints, IsShown d.endpoints e → e.ExamplesIn Binary64.IsCanonical) :
    IsText (renderJson d) ↔
      ∀ e ∈ d.endpoints, IsShown d.endpoints e → e.ExamplesIn Binary64.IsFinite := by
  rw [renderJson, isText_print_iff separates_asciiIndented (floatsIn_document_iff.mpr canonical),
    floatsIn_document_iff]
  exact or_iff_right nofun

end OpenApi

end RouteDocs
