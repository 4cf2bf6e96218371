import RouteDocs.Proofs.Json.Assoc
import RouteDocs.Proofs.Render.Grouping
import RouteDocs.Render.OpenApi

/-!
# The OpenAPI Document Holds the Endpoints

The operations of an OpenAPI document are read as a client reads them, under a path and a method.
They are those of the endpoints, and the tags and security schemes that they name are there.

## Main Definitions

* `Json.part`, `Json.members`, `Json.items`: what a client sees of a value
* `OpenApi.operations`, `OpenApi.tagNames`, `OpenApi.schemes`: the three tables of a document
* `OpenApi.place`: the path and the method of an endpoint
* `OpenApi.grouped`: the endpoints tag by tag
* `OpenApi.Exact`: the documents that hold exactly some endpoints

## Main Statements

* `OpenApi.paths_groupByTag`: the paths are a table that is filled in grouped order
* `OpenApi.securityNames_securedOperation`: an operation names the scheme that its endpoint demands
* `OpenApi.exact_document`: **the OpenAPI document holds exactly the endpoints**

## Design Notes

The readers are total: a part that is absent is null, and null has no members and no items. That
something is found in a document therefore says that it is there.
-/

namespace RouteDocs

namespace Json

/-- The members of an object. -/
def members : Json → Assoc Json
  | .obj ms => ms
  | _ => []

/-- The items of a list. -/
def items : Json → List Json
  | .arr vs => vs
  | _ => []

/-- The value of a member of an object, or null. -/
def part (key : Text) (v : Json) : Json :=
  (v.members.get? key).getD .null

end Json

namespace OpenApi

/-! ### Reading a Document -/

/-- The operations of a document with their paths and methods. -/
def operations (spec : Json) : List ((Text × Text) × Json) :=
  Assoc.cells ((spec.part "paths").members.map fun row => (row.1, row.2.members))

/-- The names of the tags that a document lists. -/
def tagNames (spec : Json) : List Json :=
  (spec.part "tags").items.map (Json.part "name")

/-- The security schemes that a document defines. -/
def schemes (spec : Json) : Assoc Json :=
  ((spec.part "components").part "securitySchemes").members

/-- The tags of an operation. -/
def operationTags (operation : Json) : List Json :=
  (operation.part "tags").items

/-- The names of the security schemes of an operation. -/
def securityNames (operation : Json) : List Text :=
  (operation.part "security").items.flatMap fun requirement => requirement.members.keys

/-! ### What Should Be There -/

/-- The path and the method under which an endpoint stands. -/
def place (e : Endpoint) : Text × Text :=
  (path e.url, Text.lower e.method)

/-- The operation of an endpoint alone. -/
def ownOperation (e : Endpoint) : Json :=
  securedOperation e e.groupTag

/-- Endpoints tag by tag, the tags by first appearance and the endpoints of a tag in order. -/
def grouped (es : List Endpoint) : List Endpoint :=
  (es.map (·.groupTag)).eraseDups.flatMap fun tag => es.filter (·.groupTag == tag)

/-- **The documents that hold exactly some endpoints.** -/
structure Exact (es : List Endpoint) (spec : Json) : Prop where
  /-- No path has a method twice. -/
  nodup : ((operations spec).map (·.1)).Nodup
  /-- The paths with their methods are those of the endpoints. -/
  places : ∀ p, p ∈ (operations spec).map (·.1) ↔ p ∈ es.map place
  /-- The operation of a place is that of the last endpoint with this place in grouped order. -/
  last : ∀ p op, (p, op) ∈ operations spec ↔
    ∃ e, ((grouped es).filter (place · == p)).getLast? = some e ∧ op = ownOperation e
  /-- Endpoints with different places have an operation each, and there are no other ones. -/
  each : (es.map place).Nodup →
    (operations spec).length = es.length ∧ ∀ e ∈ es, (place e, ownOperation e) ∈ operations spec
  /-- Each tag is listed in the order of first appearance. -/
  tags : tagNames spec = (es.map (·.groupTag)).eraseDups.map .str
  /-- No tag is listed twice. -/
  nodup_tags : (tagNames spec).Nodup
  /-- An operation has one tag, which is listed. -/
  listed : ∀ p op, (p, op) ∈ operations spec → ∃ tag ∈ tagNames spec, operationTags op = [tag]
  /-- A security scheme that an operation names is defined, as the scheme with this name. -/
  defined : ∀ p op, (p, op) ∈ operations spec → ∀ name ∈ securityNames op,
    ∃ kind scheme, securityScheme? kind = some (name, scheme) ∧
      (schemes spec).get? name = some scheme

/-! ### Grouped Endpoints -/

variable {es : List Endpoint} {e : Endpoint} {tag : Text}

theorem mem_grouped : e ∈ grouped es ↔ e ∈ es := by
  rw [grouped, List.mem_flatMap]
  constructor
  · rintro ⟨_, -, mem⟩
    exact List.mem_of_mem_filter mem
  · intro mem
    refine ⟨e.groupTag, ?_, List.mem_filter.mpr ⟨mem, beq_self_eq_true _⟩⟩
    exact List.mem_eraseDups.mpr (List.mem_map_of_mem mem)

/-- Endpoints in groups with their tags are the grouped endpoints. -/
theorem flatMap_groupByTag (es : List Endpoint) :
    ((groupByTag es).flatMap fun (tag, es) => es.map fun e => (tag, e)) =
      (grouped es).map fun e => (e.groupTag, e) := by
  rw [groupByTag, groupBy_eq, List.flatMap_map, grouped, List.map_flatMap]
  refine List.flatMap_congr fun tag _ => List.map_congr_left fun e mem => ?_
  have same : e.groupTag = tag := by simpa using List.of_mem_filter mem
  rw [same]

/-- **The paths of a document are a table** that is filled with the operations of the endpoints in
grouped order. -/
theorem paths_groupByTag (es : List Endpoint) :
    paths (groupByTag es) = Assoc.tabulate place ownOperation (grouped es) := by
  rw [paths, flatMap_groupByTag, List.foldl_map]
  rfl

/-! ### Operations -/

theorem get?_textMember {key other : Text} (apart : key ≠ other) (t : Option Text) :
    (textMember key t).get? other = none := by
  cases t with
  | none => rfl
  | some t =>
      rw [textMember]
      split <;> simp [Assoc.get?, apart]

theorem get?_valueMember {key other : Text} (apart : key ≠ other) (v : Json) :
    (valueMember key v).get? other = none := by
  rw [valueMember]
  split <;> simp [Assoc.get?, apart]

/-- The parts of an operation other than its security do not have its name. -/
theorem get?_operation_security : (operation e tag).get? "security" = none := by
  have inputs : Assoc.get? "security"
      (if (parameters e).isEmpty then [] else [("parameters", Json.arr (parameters e))]) =
        none := by
    split <;> simp [Assoc.get?]
  simp only [operation, Assoc.get?_append, inputs]
  rw [get?_textMember (by decide), get?_valueMember (by decide)]
  rfl

/-- The tags of an operation are its first part. -/
theorem operationTags_securedOperation : operationTags (securedOperation e tag) = [.str tag] := by
  rw [securedOperation]
  cases demandedScheme? e with
  | none => rfl
  | some scheme => rfl

/-- **An operation names the scheme that its endpoint demands**, and no other one. -/
theorem securityNames_securedOperation :
    securityNames (securedOperation e tag) = ((demandedScheme? e).map (·.1)).toList := by
  rw [securityNames, Json.part, securedOperation]
  cases demandedScheme? e with
  | none =>
      rw [Json.members, get?_operation_security]
      rfl
  | some scheme =>
      rw [Json.members, Assoc.get?_append, get?_operation_security]
      rfl

/-- What an endpoint demands is the scheme of a way of identification. -/
theorem exists_kind_of_demandedScheme? {name : Text} {scheme : Json}
    (demanded : demandedScheme? e = some (name, scheme)) :
    ∃ kind, securityScheme? kind = some (name, scheme) := by
  obtain ⟨auth, -, found⟩ := Option.bind_eq_some_iff.mp demanded
  split at found
  · exact ⟨_, found⟩
  · cases found

/-! ### The Tables of a Document -/

variable (d : Documentation)

theorem operations_document :
    operations (document d) = (paths (groupByTag d.endpoints)).cells := by
  have rows : ((document d).part "paths").members =
      (paths (groupByTag d.endpoints)).map fun row => (row.1, .obj row.2) := rfl
  rw [operations, rows, List.map_map]
  congr 1
  exact List.map_id _

theorem tagNames_document :
    tagNames (document d) = (d.endpoints.map (·.groupTag)).eraseDups.map .str := by
  have listed : ((document d).part "tags").items = (groupByTag d.endpoints).map fun group =>
      .obj [("name", .str group.1), ("description", .str (group.1 ++ " endpoints"))] := rfl
  rw [tagNames, listed, groupByTag, groupBy_eq, List.map_map, List.map_map]
  rfl

/-- The schemes that a document defines are those that its endpoints demand. -/
theorem schemes_document :
    schemes (document d) = Assoc.ofList ((grouped d.endpoints).filterMap demandedScheme?) := by
  have members : (groupByTag d.endpoints).flatMap (·.2) = grouped d.endpoints := by
    rw [groupByTag, groupBy_eq, List.flatMap_map, grouped]
  have defined : schemes (document d) = securitySchemes (groupByTag d.endpoints) := by
    rw [schemes, document]
    by_cases none : (securitySchemes (groupByTag d.endpoints)).isEmpty
    · rw [if_pos none, List.isEmpty_iff.mp none]
      rfl
    · rw [if_neg none]
      rfl
  rw [defined, securitySchemes, members]

/-- The operation of a place is that of the last endpoint with this place in grouped order. -/
theorem mem_operations_document {p : Text × Text} {op : Json} :
    (p, op) ∈ operations (document d) ↔ ∃ e,
      ((grouped d.endpoints).filter (place · == p)).getLast? = some e ∧ op = ownOperation e := by
  rw [operations_document, paths_groupByTag, Assoc.mem_cells_iff Assoc.keyed_tabulate,
    Assoc.valueAt?_tabulate, Option.map_eq_some_iff]
  simp only [eq_comm]

/-- What stands in a document is the operation of an endpoint with its place. -/
theorem exists_endpoint_of_mem {p : Text × Text} {op : Json}
    (mem : (p, op) ∈ operations (document d)) :
    ∃ e ∈ d.endpoints, place e = p ∧ op = ownOperation e := by
  obtain ⟨e, last, rfl⟩ := (mem_operations_document d).mp mem
  obtain ⟨listed, same⟩ := List.mem_filter.mp (List.mem_of_getLast? last)
  exact ⟨e, mem_grouped.mp listed, eq_of_beq same, rfl⟩

/-- The place of an endpoint has an operation, of that endpoint or of another one. -/
theorem exists_endpoint_of_place (listed : e ∈ d.endpoints) :
    ∃ e' ∈ d.endpoints, place e' = place e ∧
      (place e, ownOperation e') ∈ operations (document d) := by
  have mem : e ∈ (grouped d.endpoints).filter (place · == place e) :=
    List.mem_filter.mpr ⟨mem_grouped.mpr listed, beq_self_eq_true _⟩
  have last := List.getLast?_eq_getLast_of_ne_nil (List.ne_nil_of_mem mem)
  have found := (mem_operations_document d).mpr ⟨_, last, rfl⟩
  obtain ⟨listed', same⟩ := List.mem_filter.mp (List.mem_of_getLast? last)
  exact ⟨_, mem_grouped.mp listed', eq_of_beq same, found⟩

theorem mem_places_document {p : Text × Text} :
    p ∈ (operations (document d)).map (·.1) ↔ p ∈ d.endpoints.map place := by
  constructor
  · intro mem
    obtain ⟨⟨p, op⟩, stands, rfl⟩ := List.mem_map.mp mem
    obtain ⟨e, listed, same, -⟩ := exists_endpoint_of_mem d stands
    exact List.mem_map.mpr ⟨e, listed, same⟩
  · intro mem
    obtain ⟨e, listed, rfl⟩ := List.mem_map.mp mem
    obtain ⟨e', -, -, stands⟩ := exists_endpoint_of_place d listed
    exact List.mem_map.mpr ⟨_, stands, rfl⟩

theorem nodup_places_document : ((operations (document d)).map (·.1)).Nodup := by
  rw [operations_document, paths_groupByTag]
  exact Assoc.nodup_cells Assoc.keyed_tabulate

/-- A scheme that an endpoint demands is defined. -/
theorem exists_scheme_of_demanded {name : Text} {scheme : Json} (listed : e ∈ d.endpoints)
    (demanded : demandedScheme? e = some (name, scheme)) :
    ∃ kind scheme', securityScheme? kind = some (name, scheme') ∧
      (schemes (document d)).get? name = some scheme' := by
  have mem : (name, scheme) ∈
      ((grouped d.endpoints).filterMap demandedScheme?).filter (·.1 == name) := by
    refine List.mem_filter.mpr ⟨?_, beq_self_eq_true _⟩
    exact List.mem_filterMap.mpr ⟨e, mem_grouped.mpr listed, demanded⟩
  -- The scheme in the document is the one of the last endpoint that demands one with this name.
  have last := List.getLast?_eq_getLast_of_ne_nil (List.ne_nil_of_mem mem)
  obtain ⟨given, same⟩ := List.mem_filter.mp (List.mem_of_getLast? last)
  obtain ⟨e', -, demanded'⟩ := List.mem_filterMap.mp given
  obtain ⟨kind, found⟩ := exists_kind_of_demandedScheme? demanded'
  refine ⟨kind, _, (eq_of_beq same) ▸ found, ?_⟩
  rw [schemes_document, Assoc.get?_ofList, last]
  rfl

/-- **The OpenAPI document holds exactly the endpoints.** -/
theorem exact_document : Exact d.endpoints (document d) where
  nodup := nodup_places_document d
  places := fun _ => mem_places_document d
  last := fun _ _ => mem_operations_document d
  each := by
    intro apart
    constructor
    · have same := (List.perm_ext_iff_of_nodup (nodup_places_document d) apart).mpr
        fun _ => mem_places_document d
      simpa using same.length_eq
    · intro e listed
      obtain ⟨e', listed', same, stands⟩ := exists_endpoint_of_place d listed
      rwa [List.inj_on_of_nodup_map apart listed' listed same] at stands
  tags := tagNames_document d
  nodup_tags := by
    rw [tagNames_document]
    exact (nodup_eraseDups _).map fun _ _ same => Json.str.inj same
  listed := by
    intro p op stands
    obtain ⟨e, listed, -, rfl⟩ := exists_endpoint_of_mem d stands
    refine ⟨.str e.groupTag, ?_, operationTags_securedOperation⟩
    rw [tagNames_document]
    exact List.mem_map_of_mem (List.mem_eraseDups.mpr (List.mem_map_of_mem listed))
  defined := by
    intro p op stands name named
    obtain ⟨e, listed, -, rfl⟩ := exists_endpoint_of_mem d stands
    rw [ownOperation, securityNames_securedOperation, Option.mem_toList] at named
    obtain ⟨⟨name, scheme⟩, demanded, rfl⟩ := Option.map_eq_some_iff.mp named
    exact exists_scheme_of_demanded d listed demanded

/-- An endpoint of which little is known, for clients with a bearer token. -/
def tokenEndpoint (method url tag : Text) : Endpoint where
  method := method
  url := url
  file := "route.ts"
  title := none
  description := none
  summary := none
  parameters := []
  responses := []
  requestHeaders := none
  requestBody := none
  tags := [tag]
  requiresAuth := true
  authentication := some ⟨.bearer, true, "", none, none, none, none, []⟩

/-- Endpoints of which two have one path and different tags, with one of the first tag between. -/
def interleaved : Documentation where
  info := ⟨"Users", "1.0.0", none, none, none⟩
  endpoints := [tokenEndpoint "GET" "/api/users" "users", tokenEndpoint "GET" "/api/log" "admin",
    tokenEndpoint "POST" "/api/users" "admin", tokenEndpoint "GET" "/api/users/\x7bid\x7d" "users"]
  totalEndpoints := 4
  generatedAt := "2024-05-01T12:00:00"

theorem exact_document_interleaved : (interleaved.endpoints.map place).Nodup ∧
    (operations (document interleaved)).length = 4 ∧
    tagNames (document interleaved) = [.str "users", .str "admin"] ∧
    ((("/users" : Text), ("post" : Text)),
      ownOperation (tokenEndpoint "POST" "/api/users" "admin")) ∈
        operations (document interleaved) := by
  have exact := exact_document interleaved
  have apart : (interleaved.endpoints.map place).Nodup := by decide
  obtain ⟨count, each⟩ := exact.each apart
  have tags : (interleaved.endpoints.map (·.groupTag)).eraseDups =
      [("users" : Text), ("admin" : Text)] := by decide
  refine ⟨apart, count, ?_, each (tokenEndpoint "POST" "/api/users" "admin") ?_⟩
  · rw [exact.tags, tags]
    rfl
  · simp [interleaved]

/-- Grouped order decides: the endpoint between the two of the first tag counts. -/
example : (((grouped [tokenEndpoint "GET" "/api/users" "users",
      tokenEndpoint "GET" "/api/users" "admin", tokenEndpoint "get" "/api/users" "users"]).filter
        (place · == (("/users" : Text), ("get" : Text)))).getLast?).map (·.groupTag) =
      some ("admin" : Text) := by
  decide

end OpenApi

end RouteDocs
