import RouteDocs.Proofs.Infer.Authentication
import RouteDocs.Proofs.Route.Placeholder

/-!
# Operations Ask for What Their Paths and Endpoints Say

The operation of an inferred endpoint asks a client for the placeholders of its path, the query
parameters and the headers of the endpoint, and for a body if the endpoint has one.

## Main Definitions

* `OpenApi.Input`: what a client reads of an operation parameter
* `OpenApi.isIn`: where an operation parameter is carried

## Main Statements

* `OpenApi.placeholders_path_iff`: a path has the placeholders of its URL
* `OpenApi.requestBody?_isSome_iff`: when an endpoint has a body
* `OpenApi.inputs_of_route`: **an operation asks for what its path and its endpoint say**

## Design Notes

An inferred endpoint has its parameters in the order of their places, so the list of an operation
is that of its endpoint without the body parameters, and falls into three parts by itself.
-/

namespace RouteDocs

namespace Parameter

/-! ### Parameters by Place -/

variable {ctx : RouteContext} {place : Location}

theorem filter_eq_self_of_location {ps : List Parameter} (own : ∀ p ∈ ps, p.location = place) :
    ps.filter (fun p => p.location == place) = ps := by
  refine List.filter_eq_self.mpr fun p mem => ?_
  rw [own p mem]
  exact beq_self_eq_true place

theorem filter_eq_nil_of_location {ps : List Parameter} {other : Location} (ne : other ≠ place)
    (own : ∀ p ∈ ps, p.location = other) : ps.filter (fun p => p.location == place) = [] := by
  refine List.filter_eq_nil_iff.mpr fun p mem same => ne ?_
  rw [← own p mem]
  exact eq_of_beq same

/-- The query parameters of a handler are those with this place. -/
theorem filter_query_infer (ctx : RouteContext) :
    (infer ctx).filter (fun p => p.location == .query) = ofQuery ctx := by
  have path : (ofUrl ctx.url).filter (fun p => p.location == .query) = [] :=
    filter_eq_nil_of_location (by decide) fun p mem => location_of_mem_ofUrl mem
  have own : (ofQuery ctx).filter (fun p => p.location == .query) = ofQuery ctx :=
    filter_eq_self_of_location fun p mem => location_of_mem_ofQuery mem
  have body : (ofBody ctx).filter (fun p => p.location == .query) = [] :=
    filter_eq_nil_of_location (by decide) fun p mem => location_of_mem_ofBody mem
  rw [infer, List.filter_append, List.filter_append, path, own, body, List.nil_append,
    List.append_nil]

/-- The parameters of a handler other than those of its body come first. -/
theorem filter_notBody_infer (ctx : RouteContext) :
    (infer ctx).filter (fun p => p.location != .body) = ofUrl ctx.url ++ ofQuery ctx := by
  have first : (ofUrl ctx.url ++ ofQuery ctx).filter (fun p => p.location != .body) =
      ofUrl ctx.url ++ ofQuery ctx := by
    refine List.filter_eq_self.mpr fun p mem => ?_
    rcases List.mem_append.mp mem with mem | mem
    · rw [location_of_mem_ofUrl mem]
      rfl
    · rw [location_of_mem_ofQuery mem]
      rfl
  have body : (ofBody ctx).filter (fun p => p.location != .body) = [] := by
    refine List.filter_eq_nil_iff.mpr fun p mem => ?_
    rw [location_of_mem_ofBody mem]
    decide
  rw [infer, List.filter_append, first, body, List.append_nil]

end Parameter

namespace OpenApi

open Route (Placeholders)

variable {e : Endpoint} {tag : Text}

/-! ### Reading an Operation Parameter -/

/-- What a client reads of an operation parameter. -/
structure Input where
  /-- The name. -/
  name : Json
  /-- Where it is carried. -/
  place : Json
  /-- Whether a request must give it. -/
  required : Json
  /-- The type in its schema. -/
  type : Json

/-- What a client should read of a parameter. -/
def Input.of (name : Text) (place : Location) (required : Bool) (type : Text) : Input :=
  ⟨.str name, .str place.name, .bool required, .str type⟩

/-- What a client reads of an operation parameter. -/
def input (parameter : Json) : Input :=
  ⟨parameter.part "name", parameter.part "in", parameter.part "required",
    (parameter.part "schema").part "type"⟩

/-- Whether an operation parameter is carried in a place. -/
def isIn (place : Location) (parameter : Json) : Bool :=
  match parameter.part "in" with
  | .str t => t == place.name
  | _ => false

theorem input_parameter (p : Parameter) :
    input (parameter p) = .of p.name p.location p.required (schemaType p.type) := rfl

theorem input_headerParameter (h : RequestHeader) :
    input (headerParameter h) = .of h.name .header h.required "string" := rfl

/-- A parameter is carried in its own place only. -/
theorem isIn_parameter (place : Location) (p : Parameter) :
    isIn place (parameter p) = (p.location == place) := by
  show (p.location.name == place.name) = (p.location == place)
  cases p.location <;> cases place <;> decide

theorem isIn_headerParameter (place : Location) (h : RequestHeader) :
    isIn place (headerParameter h) = (Location.header == place) := by
  show (Location.header.name == place.name) = (Location.header == place)
  cases place <;> decide

/-! ### Paths -/

/-- **A path has the placeholders of its URL**: the API root, which is taken off, has none. -/
theorem placeholders_path_iff {url : Text} {names : List Text} :
    Placeholders (path url) names ↔ Placeholders url names := by
  have alone : Placeholders "/" names ↔ Placeholders [] names := by
    rw [Route.placeholders_iff, Route.placeholders_iff]
    rfl
  rw [path]
  by_cases root : apiRoot.isPrefixOf url = true
  · obtain ⟨r, rfl⟩ := List.isPrefixOf_iff_prefix.mp root
    rw [if_pos root, List.drop_left, Route.placeholders_append_iff (by decide)]
    cases r with
    | nil => exact alone
    | cons c r => exact Iff.rfl
  · rw [if_neg root]
    cases url with
    | nil => exact alone
    | cons c r => exact Iff.rfl

/-- What a client reads of the parameters of a URL. -/
theorem map_input_ofUrl (url : Text) :
    ((Parameter.ofUrl url).map parameter).map input =
      (bracedNames 0 url).map fun name => .of name .path true "string" := by
  have type : schemaType "string" = "string" := by decide +kernel
  rw [Parameter.ofUrl, List.map_map, List.map_map]
  refine List.map_congr_left fun name _ => ?_
  exact congrArg (Input.of name .path true) type

/-! ### Bodies -/

theorem isNull_of_requestBody? {body : Json} (found : requestBody? e = some body) :
    body.isNull = false := by
  rw [requestBody?] at found
  split at found
  · cases found
    rfl
  · dsimp only at found
    split at found
    · cases found
    · cases found
      rfl

/-- The body of an operation is that of its endpoint. -/
theorem get?_operation_requestBody :
    Assoc.get? "requestBody" (operation e tag) = requestBody? e := by
  have inputs : Assoc.get? "requestBody"
      (if (parameters e).isEmpty then [] else [("parameters", Json.arr (parameters e))]) =
        none := by
    split <;> simp [Assoc.get?]
  have member : Assoc.get? "requestBody" (valueMember "requestBody" ((requestBody? e).getD .null)) =
      requestBody? e := by
    cases found : requestBody? e with
    | none => rfl
    | some body =>
        rw [Option.getD_some, valueMember, isNull_of_requestBody? found, if_neg Bool.false_ne_true]
        rfl
  simp only [operation, Assoc.get?_append, inputs, member]
  rw [get?_textMember (by decide)]
  exact Option.or_none

/-- **An endpoint has a body** if it has a request body or a parameter in the body. -/
theorem requestBody?_isSome_iff : (requestBody? e).isSome = true ↔
    e.requestBody.isSome = true ∨ ∃ p ∈ e.parameters, p.location = .body := by
  rw [requestBody?]
  cases e.requestBody with
  | some body => exact iff_of_true rfl (Or.inl rfl)
  | none =>
      dsimp only
      split
      · next none =>
        rw [List.isEmpty_iff, List.filter_eq_nil_iff] at none
        refine iff_of_false Bool.false_ne_true ?_
        rintro (some | ⟨p, mem, own⟩)
        · cases some
        · exact none p mem (beq_iff_eq.mpr own)
      · next some =>
        rw [List.isEmpty_iff] at some
        obtain ⟨p, mem⟩ := List.exists_mem_of_ne_nil _ some
        obtain ⟨listed, own⟩ := List.mem_filter.mp mem
        exact iff_of_true rfl (Or.inr ⟨p, listed, eq_of_beq own⟩)

/-! ### Operations of Routes -/

/-- The headers of an endpoint but for the authorization header, in any letter case. -/
def otherHeaders (e : Endpoint) : List RequestHeader :=
  (e.requestHeaders.getD []).filter fun h => Text.lower h.name != "authorization"

/-- The query parameters of an endpoint. -/
def queries (e : Endpoint) : List Parameter :=
  e.parameters.filter fun p => p.location == .query

theorem location_of_mem_queries {p : Parameter} (mem : p ∈ queries e) : p.location = .query := by
  obtain ⟨-, own⟩ := List.mem_filter.mp mem
  exact eq_of_beq own

/-- The parameters of an operation of a route, part by part. -/
theorem parameters_endpoint (route : ParsedRoute) (login : Option Text) :
    parameters (route.endpoint login) =
      (Parameter.ofUrl route.url).map parameter ++
        ((queries (route.endpoint login)).map parameter ++
          (otherHeaders (route.endpoint login)).map headerParameter) := by
  have inferred : (route.endpoint login).parameters = Parameter.infer (route.context login) := rfl
  rw [parameters, queries, inferred, Parameter.filter_notBody_infer, Parameter.filter_query_infer,
    List.map_append, List.append_assoc]
  rfl

/-- Operation parameters that are carried alike are all in a place or all elsewhere. -/
theorem filter_isIn_map {α : Type} {xs : List α} {f : α → Json} {own place : Location}
    (carried : ∀ x ∈ xs, isIn place (f x) = (own == place)) :
    (xs.map f).filter (isIn place) = if own == place then xs.map f else [] := by
  have same : xs.filter (isIn place ∘ f) = xs.filter fun _ => own == place :=
    List.filter_congr carried
  rw [List.filter_map, same]
  cases own == place with
  | true => rw [List.filter_true, if_pos rfl]
  | false => rw [List.filter_false, if_neg Bool.false_ne_true, List.map_nil]

/-- **Each part of an operation of a route is in a place of its own.** -/
theorem filter_isIn_parameters (route : ParsedRoute) (login : Option Text) (place : Location) :
    (parameters (route.endpoint login)).filter (isIn place) =
      (if Location.path == place then (Parameter.ofUrl route.url).map parameter else []) ++
        ((if Location.query == place then (queries (route.endpoint login)).map parameter else []) ++
          if Location.header == place then
            (otherHeaders (route.endpoint login)).map headerParameter else []) := by
  rw [parameters_endpoint, List.filter_append, List.filter_append]
  congr 1
  · refine filter_isIn_map fun p mem => ?_
    rw [isIn_parameter, Parameter.location_of_mem_ofUrl mem]
  · congr 1
    · refine filter_isIn_map fun p mem => ?_
      rw [isIn_parameter, location_of_mem_queries mem]
    · exact filter_isIn_map fun h _ => isIn_headerParameter place h

/-- What a client reads of the query parameters of an endpoint. -/
theorem map_input_queries (e : Endpoint) : ((queries e).map parameter).map input =
    (queries e).map fun p => .of p.name .query p.required (schemaType p.type) := by
  rw [List.map_map]
  refine List.map_congr_left fun p mem => ?_
  rw [← location_of_mem_queries mem]
  exact input_parameter p

theorem map_input_otherHeaders (e : Endpoint) : ((otherHeaders e).map headerParameter).map input =
    (otherHeaders e).map fun h => .of h.name .header h.required "string" := by
  rw [List.map_map]
  exact List.map_congr_left fun h _ => input_headerParameter h

/-- **An operation asks for what its path and its endpoint say.**  What a client reads first are the
placeholders of the path, each required and of type string, then the query parameters of the
endpoint and then its headers without the authorization header, in order; nothing else is in the
path and nothing is in the body.  And there is a request body if the endpoint has one or has a
parameter in the body. -/
theorem inputs_of_route (route : ParsedRoute) (login : Option Text) (tag : Text) :
    let e := route.endpoint login
    let op := Json.obj (operation e tag)
    (∃ names, Placeholders (path e.url) names ∧
      (operationParameters op).map input =
        (names.map fun name => .of name .path true "string") ++
          (((queries e).map fun p => .of p.name .query p.required (schemaType p.type)) ++
            (otherHeaders e).map fun h => .of h.name .header h.required "string") ∧
      ((operationParameters op).filter (isIn .path)).map input =
        names.map fun name => .of name .path true "string") ∧
    (operationParameters op).filter (isIn .body) = [] ∧
    ((op.members.get? "requestBody").isSome = true ↔
      e.requestBody.isSome = true ∨ ∃ p ∈ e.parameters, p.location = .body) := by
  intro e op
  have listed : operationParameters op = parameters e := operationParameters_operation
  rw [listed]
  refine ⟨⟨bracedNames 0 route.url, ?_, ?_, ?_⟩, filter_isIn_parameters route login .body, ?_⟩
  · exact placeholders_path_iff.mpr (Route.placeholders_iff.mpr rfl)
  · rw [← map_input_ofUrl, ← map_input_queries, ← map_input_otherHeaders, ← List.map_append,
      ← List.map_append]
    exact congrArg (List.map input) (parameters_endpoint route login)
  · rw [← map_input_ofUrl]
    refine congrArg (List.map input) ?_
    exact (filter_isIn_parameters route login .path).trans (List.append_nil _)
  · show (Assoc.get? "requestBody" (operation e tag)).isSome = true ↔ _
    rw [get?_operation_requestBody]
    exact requestBody?_isSome_iff

end OpenApi

end RouteDocs
