import RouteDocs.Proofs.Render.JsonText

/-!
# Limits of an OpenAPI Document

An OpenAPI document has each key once and is not much deeper than the examples and schemas that it
shows.

## Main Definitions

* `Endpoint.ValuesFit`: the endpoints whose examples and schemas fit into limits

## Main Statements

* `OpenApi.fits_ownOperation`: the limits of an operation
* `OpenApi.fits_document`: **the limits of a document**

## Design Notes

Ten brackets are around the type of a property in a body that is made of parameters, and nine around
an example at most.
-/

namespace RouteDocs

open Json

variable {ints : Int → Prop} {floats : Binary64 → Prop} {room : Nat}

/-- The endpoints whose examples and schemas, as far as an operation shows them, fit into limits, and
whose tables have each key once. -/
structure Endpoint.ValuesFit (ints : Int → Prop) (floats : Binary64 → Prop) (room : Nat)
    (e : Endpoint) : Prop where
  /-- Parameters outside of the body. -/
  parameters : ∀ p ∈ e.parameters, p.location ≠ .body →
    Within ints floats room p.example?
  /-- The keys of the schema of the body. -/
  keys : ∀ b, e.requestBody = some b → (b.schema.map (·.1)).Nodup
  /-- The schema of the body and its example. -/
  requestBody : ∀ b, e.requestBody = some b →
    (∀ p ∈ b.schema, Within ints floats room p.2) ∧
      Within ints floats room b.example?
  /-- The codes of the answers. -/
  codes : (e.responses.map (·.1)).Nodup
  /-- The answers. -/
  responses : ∀ r ∈ e.responses, Within ints floats room r.2.example?

namespace OpenApi

variable {e : Endpoint} {d : Documentation} {ms : Assoc Json} {v : Json}

/-! ### Members -/

theorem fits_widen (fits : Within ints floats room v) (n : Nat) :
    Within ints floats (room + n) v :=
  fits.mono (fun _ => id) (fun _ => id) (fun _ => id) (Nat.le_add_right room n)

/-- An object fits if its keys are some of different ones. -/
theorem fits_obj (names : List Text) (some : (ms.map (·.1)).Sublist names) (apart : names.Nodup)
    (values : ∀ p ∈ ms, Within ints floats room p.2) :
    Within ints floats (room + 1) (.obj ms) :=
  .obj (apart.sublist some) (fun _ _ => trivial) values

theorem sublist_textMember (key : Text) (t : Option Text) :
    ((textMember key t).map (·.1)).Sublist [key] := by
  unfold textMember
  split
  · split
    · exact List.nil_sublist _
    · exact .refl _
  · exact List.nil_sublist _

theorem sublist_valueMember (key : Text) (v : Json) :
    ((valueMember key v).map (·.1)).Sublist [key] := by
  unfold valueMember
  split
  · exact List.nil_sublist _
  · exact .refl _

theorem fits_textMember (key : Text) (t : Option Text) :
    ∀ p ∈ textMember key t, Within ints floats room p.2 := by
  unfold textMember
  split
  · split
    · exact List.forall_mem_nil _
    · exact List.forall_mem_singleton.mpr (.str trivial)
  · exact List.forall_mem_nil _

theorem fits_valueMember {key : Text} (fits : Within ints floats room v) :
    ∀ p ∈ valueMember key v, Within ints floats room p.2 := by
  unfold valueMember
  split
  · exact List.forall_mem_nil _
  · exact List.forall_mem_singleton.mpr fits

theorem fits_typeSchema (type : Text) :
    Within ints floats (room + 1) (typeSchema type) :=
  .obj (List.nodup_singleton _) (fun _ _ => trivial) (List.forall_mem_singleton.mpr (.str trivial))

theorem fits_jsonContent (fits : Within ints floats room v) :
    Within ints floats (room + 1) (jsonContent v) :=
  .obj (List.nodup_singleton _) (fun _ _ => trivial) (List.forall_mem_singleton.mpr fits)

/-! ### Operations -/

theorem fits_parameter {p : Parameter} (fits : Within ints floats room p.example?) :
    Within ints floats (room + 2) (parameter p) := by
  refine fits_obj ["name", "in", "required", "schema", "description", "example"] ?_ (by decide) ?_
  · rw [List.map_append, List.map_append, List.append_assoc]
    exact (List.Sublist.refl _).append
      ((sublist_textMember "description" _).append (sublist_valueMember "example" _))
  · refine List.forall_mem_append.mpr ⟨List.forall_mem_append.mpr ⟨?_, fits_textMember _ _⟩,
      fits_valueMember (fits_widen fits 1)⟩
    simp [fits_typeSchema]

theorem fits_headerParameter (h : RequestHeader) :
    Within ints floats (room + 2) (headerParameter h) := by
  have apart : ([("name" : Text), "in", "required", "schema", "description"]).Nodup := by decide
  refine .obj apart (fun _ _ => trivial) ?_
  simp [fits_typeSchema]

/-- The parameters of an operation fit if their examples do. -/
theorem fits_parameters (examples : ∀ p ∈ e.parameters, p.location ≠ .body →
    Within ints floats room p.example?) :
    ∀ v ∈ parameters e, Within ints floats (room + 2) v := by
  refine List.forall_mem_append.mpr ⟨List.forall_mem_map.mpr fun p hp => ?_,
    List.forall_mem_map.mpr fun h _ => fits_headerParameter h⟩
  obtain ⟨listed, outside⟩ := List.mem_filter.mp hp
  exact fits_parameter (examples p listed (by simpa using outside))

/-- A body of parameters has each of them once. -/
theorem fits_properties (ps : List Parameter) :
    Within ints floats (room + 2) (.obj (Assoc.ofList
      (ps.map fun p => (p.name, typeSchema (schemaType p.type))))) := by
  refine .obj (Assoc.nodup_ofList _) (fun _ _ => trivial) fun p hp => ?_
  obtain ⟨q, -, rfl⟩ := List.mem_map.mp (Assoc.mem_ofList hp)
  exact fits_typeSchema _

/-- The body of an operation fits if its schema and its example do. -/
theorem fits_requestBody? (values : e.ValuesFit ints floats room) :
    Within ints floats (room + 6) ((requestBody? e).getD .null) := by
  unfold requestBody?
  cases body : e.requestBody with
  | none =>
      dsimp only
      split
      · exact .null
      · have schema : Within ints floats (room + 3) (.obj [("type", .str "object"),
            ("properties", .obj (Assoc.ofList ((e.parameters.filter fun p => p.location == .body).map
              fun p => (p.name, typeSchema (schemaType p.type)))))]) :=
          fits_obj ["type", "properties"] (.refl _) (by decide)
            (List.forall_mem_cons.mpr ⟨.str trivial, List.forall_mem_singleton.mpr (fits_properties _)⟩)
        have content : Within ints floats (room + 4) (.obj [("schema", _)]) :=
          fits_obj ["schema"] (.refl _) (by decide) (List.forall_mem_singleton.mpr schema)
        exact fits_obj ["required", "content"] (.refl _) (by decide) (List.forall_mem_cons.mpr
          ⟨.bool _, List.forall_mem_singleton.mpr (fits_jsonContent content)⟩)
  | some b =>
      obtain ⟨properties, body_example⟩ := values.requestBody b body
      have schema : Within ints floats (room + 1)
          (if b.schema.isEmpty then typeSchema "object" else .obj b.schema) := by
        split
        · exact fits_typeSchema _
        · exact .obj (values.keys b body) (fun _ _ => trivial) properties
      have content : Within ints floats (room + 2)
          (.obj (("schema", _) :: valueMember "example" b.example?)) :=
        fits_obj ["schema", "example"] ((sublist_valueMember "example" _).cons_cons _) (by decide)
          (List.forall_mem_cons.mpr ⟨schema, fits_valueMember (fits_widen body_example 1)⟩)
      suffices whole : Within ints floats (room + 4) _ from fits_widen whole 2
      exact fits_obj ["required", "description", "content"] (.refl _) (by decide)
        (List.forall_mem_cons.mpr ⟨.bool _, List.forall_mem_cons.mpr ⟨.str trivial,
          List.forall_mem_singleton.mpr (fits_jsonContent content)⟩⟩)

theorem fits_response {r : Response} (fits : Within ints floats room r.example?) :
    Within ints floats (room + 4) (response r) := by
  have schema : Within ints floats (room + 1)
      (.obj (("type", .str "object") :: valueMember "example" r.example?)) :=
    fits_obj ["type", "example"] ((sublist_valueMember "example" _).cons_cons _) (by decide)
      (List.forall_mem_cons.mpr ⟨.str trivial, fits_valueMember fits⟩)
  have content : Within ints floats (room + 2) (.obj [("schema", _)]) :=
    fits_obj ["schema"] (.refl _) (by decide) (List.forall_mem_singleton.mpr schema)
  exact fits_obj ["description", "content"] (.refl _) (by decide)
    (List.forall_mem_cons.mpr ⟨.str trivial, List.forall_mem_singleton.mpr (fits_jsonContent content)⟩)

/-- The answers of an operation fit if their examples do. -/
theorem fits_responses (codes : (e.responses.map (·.1)).Nodup)
    (examples : ∀ r ∈ e.responses, Within ints floats room r.2.example?) :
    Within ints floats (room + 5) (responses e) := by
  unfold responses
  split
  · have answer : Within ints floats (room + 4) (.obj [("description", .str "Response")]) :=
      fits_obj ["description"] (.refl _) (by decide) (List.forall_mem_singleton.mpr (.str trivial))
    exact fits_obj ["default"] (.refl _) (by decide) (List.forall_mem_singleton.mpr answer)
  · refine .obj ?_ (fun _ _ => trivial)
      (List.forall_mem_map.mpr fun r hr => fits_response (examples r hr))
    rw [List.map_map]
    exact codes

/-- **An operation fits** if the examples and schemas of its endpoint do. -/
theorem fits_ownOperation (values : e.ValuesFit ints floats room) :
    Within ints floats (room + 7) (ownOperation e) := by
  have inputs : ∀ p ∈ (if (parameters e).isEmpty then [] else
      [("parameters", Json.arr (parameters e))] : Assoc Json), Within ints floats (room + 6) p.2 := by
    split
    · exact List.forall_mem_nil _
    · refine List.forall_mem_singleton.mpr (.arr fun v hv => ?_)
      exact fits_widen (fits_parameters values.parameters v hv) 3
  have inputNames : ((if (parameters e).isEmpty then [] else
      [("parameters", Json.arr (parameters e))] : Assoc Json).map (·.1)).Sublist
        [("parameters" : Text)] := by
    split
    · exact List.nil_sublist _
    · exact .refl _
  have names : ((operation e e.groupTag).map (·.1)).Sublist [("tags" : Text), "summary",
      "operationId", "description", "parameters", "requestBody", "responses"] := by
    simp only [operation, List.map_append]
    exact ((((List.Sublist.refl _).append (sublist_textMember _ _)).append inputNames).append
      (sublist_valueMember _ _)).append (.refl _)
  have tags : Within ints floats (room + 6) (.arr [.str e.groupTag]) :=
    .arr (List.forall_mem_singleton.mpr (.str trivial))
  have head : ∀ p ∈ ([("tags", .arr [.str e.groupTag]),
      ("summary", .str (firstText [e.summary, e.title, e.description])),
      ("operationId", .str (operationId e))] : Assoc Json), Within ints floats (room + 6) p.2 :=
    List.forall_mem_cons.mpr ⟨tags, List.forall_mem_cons.mpr ⟨.str trivial,
      List.forall_mem_singleton.mpr (.str trivial)⟩⟩
  have answers :
      ∀ p ∈ ([("responses", responses e)] : Assoc Json), Within ints floats (room + 6) p.2 :=
    List.forall_mem_singleton.mpr (fits_widen (fits_responses values.codes values.responses) 1)
  have parts : ∀ p ∈ operation e e.groupTag, Within ints floats (room + 6) p.2 :=
    List.forall_mem_append.mpr ⟨List.forall_mem_append.mpr ⟨List.forall_mem_append.mpr
      ⟨List.forall_mem_append.mpr ⟨head, fits_textMember _ _⟩, inputs⟩,
      fits_valueMember (fits_requestBody? values)⟩, answers⟩
  unfold ownOperation securedOperation
  cases demandedScheme? e with
  | none => exact fits_obj _ names (by decide) parts
  | some scheme =>
      refine fits_obj ([("tags" : Text), "summary", "operationId", "description", "parameters",
        "requestBody", "responses"] ++ [("security" : Text)]) ?_ (by decide) ?_
      · rw [List.map_append]
        exact names.append (.refl _)
      · have none : Within ints floats (room + 4) (.arr []) := .arr (List.forall_mem_nil _)
        have demand : Within ints floats (room + 5) (.obj [(scheme.1, .arr [])]) :=
          .obj (List.nodup_singleton _) (fun _ _ => trivial) (List.forall_mem_singleton.mpr none)
        exact List.forall_mem_append.mpr ⟨parts, List.forall_mem_singleton.mpr
          (.arr (List.forall_mem_singleton.mpr demand))⟩

/-! ### Documents -/

/-- The operations of a document fit if the endpoints that it shows do. -/
theorem fits_paths
    (values : ∀ e ∈ d.endpoints, IsShown d.endpoints e → e.ValuesFit ints floats room) :
    Within ints floats (room + 9) (.obj ((paths (groupByTag d.endpoints)).map fun row =>
      (row.1, .obj row.2))) := by
  have keyed : (paths (groupByTag d.endpoints)).Keyed := by
    rw [paths_groupByTag]
    exact Assoc.keyed_tabulate
  refine .obj ?_ (fun _ _ => trivial) (List.forall_mem_map.mpr fun row hrow => ?_)
  · rw [List.map_map]
    exact keyed.rows
  · refine .obj (keyed.columns row hrow) (fun _ _ => trivial) fun p hp => ?_
    have stands : ((row.1, p.1), p.2) ∈ operations (document d) := by
      rw [operations_document]
      exact List.mem_flatMap.mpr ⟨row, hrow, List.mem_map.mpr ⟨p, hp, rfl⟩⟩
    obtain ⟨e, last, own⟩ := (mem_operations_document d).mp stands
    obtain ⟨listed, same⟩ := List.mem_filter.mp (List.mem_of_getLast? last)
    rw [← eq_of_beq same] at last
    rw [own]
    exact fits_ownOperation (values e (mem_grouped.mp listed) last)

theorem fits_securityScheme {kind : AuthKind} {p : Text × Json}
    (found : securityScheme? kind = some p) : Within ints floats (room + 1) p.2 := by
  cases kind with
  | none => cases found
  | bearer | basic =>
      obtain rfl := Option.some.inj found
      exact fits_obj ["type", "scheme"] (.refl _) (by decide) (by simp)
  | apiKey =>
      obtain rfl := Option.some.inj found
      exact fits_obj ["type", "in", "name"] (.refl _) (by decide) (by simp)

/-- The schemes of identification fit. -/
theorem fits_securitySchemes (groups : Assoc (List Endpoint)) :
    Within ints floats (room + 2) (.obj (securitySchemes groups)) := by
  refine .obj (Assoc.nodup_ofList _) (fun _ _ => trivial) fun p hp => ?_
  obtain ⟨e, -, demanded⟩ := List.mem_filterMap.mp (Assoc.mem_ofList hp)
  obtain ⟨kind, found⟩ := exists_kind_of_demandedScheme? demanded
  exact fits_securityScheme found

/-- **A document fits** if the examples and schemas of the endpoints that it shows do. -/
theorem fits_document
    (values : ∀ e ∈ d.endpoints, IsShown d.endpoints e → e.ValuesFit ints floats room) :
    Within ints floats (room + 10) (document d) := by
  have info : Within ints floats (room + 9) (.obj (("title", .str d.info.title) ::
      ("version", .str d.info.version) :: textMember "description" d.info.description)) :=
    fits_obj ["title", "version", "description"]
      (((sublist_textMember "description" _).cons_cons _).cons_cons _) (by decide)
      (List.forall_mem_cons.mpr ⟨.str trivial, List.forall_mem_cons.mpr
        ⟨.str trivial, fits_textMember _ _⟩⟩)
  have servers : Within ints floats (room + 9) (.arr [.obj [
      ("url", .str (firstText [d.info.baseUrl, some apiRoot])),
      ("description", .str "API Server")]]) :=
    .arr (List.forall_mem_singleton.mpr
      (fits_obj ["url", "description"] (.refl _) (by decide) (by simp)))
  have tags : Within ints floats (room + 9) (.arr ((groupByTag d.endpoints).map fun group =>
      .obj [("name", .str group.1), ("description", .str (group.1 ++ " endpoints"))])) :=
    .arr (List.forall_mem_map.mpr fun group _ =>
      fits_obj ["name", "description"] (.refl _) (by decide) (by simp))
  have components : Within ints floats (room + 9) (.obj [("securitySchemes",
      .obj (securitySchemes (groupByTag d.endpoints)))]) :=
    fits_obj ["securitySchemes"] (.refl _) (by decide)
      (List.forall_mem_singleton.mpr (fits_securitySchemes _))
  unfold document
  dsimp only
  split
  · exact fits_obj ["openapi", "info", "servers", "paths", "tags"] (.refl _) (by decide)
      (by simp [info, servers, tags, fits_paths values, -Fits.obj_iff, -Fits.arr_iff])
  · exact fits_obj ["openapi", "info", "servers", "paths", "tags", "components"] (.refl _)
      (by decide)
      (by simp [info, servers, tags, components, fits_paths values, -Fits.obj_iff, -Fits.arr_iff])

end OpenApi

end RouteDocs
