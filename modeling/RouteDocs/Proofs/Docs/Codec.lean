import RouteDocs.Docs.Codec
import RouteDocs.Proofs.Json.Decode

/-!
# Encoding and Decoding of a Documentation

What the parts of a documentation are encoded as is decoded to them, whatever becomes of the
floating-point numbers within their examples and schemas.

## Main Definitions

* `Parameter.mapFree`, …, `Endpoint.mapFree`: the data with a function applied to examples and
  schemas
* `Documentation.decoded`: what a documentation is decoded as

## Main Statements

* `Endpoint.decode_toJson`: an encoded endpoint is decoded to the endpoint
* `Documentation.decode_toJson`: an encoded documentation is decoded to the documentation, described
* `Documentation.decoded_eq_self`: a described documentation is decoded as itself if its numbers are
  kept

## Design Notes

An absent description of the whole is not encoded and decoded as the default description, so it
is the one part that has to be there.
-/

namespace RouteDocs

open Decoder Json

variable {g : Binary64 → Json}

/-! ### Parts of Endpoints -/

/-- The parameter with a function applied to its example. -/
def Parameter.mapFree (f : Json → Json) (p : Parameter) : Parameter :=
  { p with example? := f p.example? }

/-- Locations are decoded from their names. -/
theorem Location.ofName?_name (l : Location) : ofName? l.name = some l := by
  cases l <;> decide

theorem Parameter.decode_toJson (p : Parameter) :
    Parameter.decode .document ((p.toJson false).mapFloats g) = .ok (p.mapFree (mapFloats g)) := by
  refine object_record (by simp) fun ms kept => ?_
  have location : enumeration Location.ofName? (mapFloats g (.str p.location.name)) =
      .ok p.location := by
    simp only [mapFloats, enumeration, Location.ofName?_name]
  refine also_ok (also_ok (also_ok (also_ok (also_ok (also_ok rfl ?_) ?_) ?_) ?_) ?_) ?_
  · exact kept.found (v := .str p.name) (by simp) (by simp) rfl rfl
  · exact kept.found (v := .str p.type) (by simp) (by simp) rfl rfl
  · exact kept.found (v := .bool p.required) (by simp) (by simp) rfl rfl
  · exact kept.found (v := .str p.location.name) (by simp) (by simp) rfl location
  · exact kept.optionalText (by simp) (by simp)
  · exact kept.free (by simp) (by simp)

/-- The response with a function applied to its example. -/
def Response.mapFree (f : Json → Json) (r : Response) : Response :=
  { r with example? := f r.example? }

theorem Response.decode_toJson (r : Response) :
    Response.decode .document ((r.toJson false).mapFloats g) = .ok (r.mapFree (mapFloats g)) := by
  refine object_record (by simp) fun ms kept => ?_
  refine also_ok (also_ok (also_ok (also_ok (also_ok rfl ?_) ?_) ?_) ?_) ?_
  · exact kept.found (v := .str r.statusCode) (by simp) (by simp) rfl rfl
  · exact kept.found (v := .str r.description) (by simp) (by simp) rfl rfl
  · exact kept.free (by simp) (by simp)
  · exact kept.found (v := .ofTexts r.requiredFields) (by simp) (by simp) rfl (list_ofTexts _)
  · exact kept.found (v := .ofTexts r.optionalFields) (by simp) (by simp) rfl (list_ofTexts _)

theorem RequestHeader.decode_toJson (h : RequestHeader) :
    RequestHeader.decode .document ((h.toJson false).mapFloats g) = .ok h := by
  refine object_record (by simp) fun ms kept => ?_
  refine also_ok (also_ok (also_ok rfl ?_) ?_) ?_
  · exact kept.found (v := .str h.name) (by simp) (by simp) rfl rfl
  · exact kept.found (v := .bool h.required) (by simp) (by simp) rfl rfl
  · exact kept.optionalText (by simp) (by simp)

/-- The request body with a function applied to its schema and its example. -/
def RequestBody.mapFree (f : Json → Json) (b : RequestBody) : RequestBody :=
  { b with schema := b.schema.map fun p => (p.1, f p.2), example? := f b.example? }

theorem RequestBody.decode_toJson (b : RequestBody) :
    RequestBody.decode .document ((b.toJson false).mapFloats g) =
      .ok (b.mapFree (mapFloats g)) := by
  refine object_record (by simp) fun ms kept => ?_
  refine also_ok (also_ok (also_ok (also_ok (also_ok rfl ?_) ?_) ?_) ?_) ?_
  · exact kept.found (v := .str b.type) (by simp) (by simp) rfl rfl
  · exact kept.found (v := .obj b.schema) (by simp) (by simp) rfl (free_map _)
  · exact kept.optionalText (by simp) (by simp)
  · exact kept.free (by simp) (by simp)
  · exact kept.found (v := .ofTexts b.required) (by simp) (by simp) rfl (list_ofTexts _)

/-- Ways to identify oneself are decoded from their names. -/
theorem AuthKind.ofName?_name (k : AuthKind) : ofName? k.name = some k := by
  cases k <;> decide

/-- The authentication with a function applied to its example. -/
def Authentication.mapFree (f : Json → Json) (a : Authentication) : Authentication :=
  { a with example? := a.example?.map fun ms => ms.map fun p => (p.1, f p.2) }

theorem Authentication.decode_toJson (a : Authentication) :
    Authentication.decode .document ((a.toJson false).mapFloats g) =
      .ok (a.mapFree (mapFloats g)) := by
  refine object_record (by simp) fun ms kept => ?_
  have kind : enumeration AuthKind.ofName? (mapFloats g (.str a.kind.name)) = .ok a.kind := by
    simp only [mapFloats, enumeration, AuthKind.ofName?_name]
  refine also_ok (also_ok (also_ok (also_ok (also_ok (also_ok (also_ok (also_ok rfl
    ?_) ?_) ?_) ?_) ?_) ?_) ?_) ?_
  · exact kept.found (v := .str a.kind.name) (by simp) (by simp) rfl kind
  · exact kept.found (v := .bool a.required) (by simp) (by simp) rfl rfl
  · exact kept.found (v := .str a.description) (by simp) (by simp) rfl rfl
  · exact kept.optionalText (by simp) (by simp)
  · exact kept.optionalText (by simp) (by simp)
  · exact kept.optionalText (by simp) (by simp)
  · exact kept.optional Json.obj (by simp) (by simp) (fun _ => ⟨rfl, rfl⟩)
      fun ms _ => free_map ms
  · exact kept.found (v := .ofTexts a.steps) (by simp) (by simp) rfl (list_ofTexts _)

/-! ### Endpoints -/

/-- The endpoint with a function applied to all examples and schemas. -/
def Endpoint.mapFree (f : Json → Json) (e : Endpoint) : Endpoint :=
  { e with
    parameters := e.parameters.map (Parameter.mapFree f)
    responses := e.responses.map fun p => (p.1, p.2.mapFree f)
    requestBody := e.requestBody.map (RequestBody.mapFree f)
    authentication := e.authentication.map (Authentication.mapFree f) }

/-- **An encoded endpoint is decoded to the endpoint.** -/
theorem Endpoint.decode_toJson (e : Endpoint) :
    Endpoint.decode .document ((e.toJson false).mapFloats g) = .ok (e.mapFree (mapFloats g)) := by
  refine object_record (by simp [members]) fun ms kept => ?_
  unfold members at kept
  have parameters : list (Parameter.decode .document)
      (mapFloats g (.arr (e.parameters.map (Parameter.toJson false)))) =
        .ok (e.parameters.map (Parameter.mapFree (mapFloats g))) :=
    list_map fun p _ => p.decode_toJson
  have responses : Decoder.map (Response.decode .document)
      (mapFloats g (.obj (e.responses.map fun p => (p.1, p.2.toJson false)))) =
        .ok (e.responses.map fun p => (p.1, p.2.mapFree (mapFloats g))) :=
    map_map fun p _ => p.2.decode_toJson
  have headers (hs : List RequestHeader) : list (RequestHeader.decode .document)
      (mapFloats g (.arr (hs.map (RequestHeader.toJson false)))) = .ok (hs.map id) :=
    list_map fun h _ => h.decode_toJson
  refine also_ok (also_ok (also_ok (also_ok (also_ok (also_ok (also_ok (also_ok (also_ok (also_ok
    (also_ok (also_ok (also_ok rfl ?_) ?_) ?_) ?_) ?_) ?_) ?_) ?_) ?_) ?_) ?_) ?_) ?_
  · exact kept.found (v := .str e.method) (by simp) (by simp) rfl rfl
  · exact kept.found (v := .str e.url) (by simp) (by simp) rfl rfl
  · exact kept.found (v := .str e.file) (by simp) (by simp) rfl rfl
  · exact kept.optionalText (by simp) (by simp)
  · exact kept.optionalText (by simp) (by simp)
  · exact kept.optionalText (by simp) (by simp)
  · exact kept.found (v := .arr (e.parameters.map (Parameter.toJson false)))
      (by simp) (by simp) rfl parameters
  · exact kept.found (v := .obj (e.responses.map fun p => (p.1, p.2.toJson false)))
      (by simp) (by simp) rfl responses
  · have found : Decoder.member ms "requestHeaders" "request_headers" (some none)
        (nullable (list (RequestHeader.decode .document))) =
          .ok (e.requestHeaders.map fun hs => hs.map id) :=
      kept.optional (fun hs => .arr (hs.map (RequestHeader.toJson false))) (by simp) (by simp)
        (fun _ => ⟨rfl, rfl⟩) fun hs _ => headers hs
    simpa only [List.map_id, Option.map_id'] using found
  · exact kept.optional (RequestBody.toJson false) (by simp) (by simp)
      (fun _ => ⟨rfl, rfl⟩) fun b _ => b.decode_toJson
  · exact kept.found (v := .ofTexts e.tags) (by simp) (by simp) rfl (list_ofTexts _)
  · exact kept.found (v := .bool e.requiresAuth) (by simp) (by simp) rfl rfl
  · exact kept.optional (Authentication.toJson false) (by simp) (by simp)
      (fun _ => ⟨rfl, rfl⟩) fun a _ => a.decode_toJson

/-! ### The Whole -/

theorem InfoAuthentication.decode_toJson {origin : Origin} (a : InfoAuthentication) :
    InfoAuthentication.decode origin ((a.toJson false).mapFloats g) = .ok a := by
  refine object_record (by simp) fun ms kept => ?_
  have kind : Decoder.member ms "type" "auth_type" (some none)
      (nullable (enumeration AuthKind.ofName?)) = .ok (a.kind.map id) := by
    refine kept.optional (fun k => .str k.name) (by simp) (by simp) (fun _ => ⟨rfl, rfl⟩) ?_
    intro k _
    simp only [mapFloats, enumeration, AuthKind.ofName?_name, id]
  have required : Decoder.member ms "required" "required" (some none) (nullable truth) =
      .ok (a.required.map id) :=
    kept.optional .bool (by simp) (by simp) (fun _ => ⟨rfl, rfl⟩) fun _ _ => rfl
  rw [Option.map_id] at kind required
  refine also_ok (also_ok (also_ok (also_ok (also_ok rfl kind) required) ?_) ?_) ?_
  · exact kept.optionalText (by simp) (by simp)
  · exact kept.optionalText (by simp) (by simp)
  · exact kept.optionalText (by simp) (by simp)

/-- What is said about an API, with the default description if there is none. -/
def Info.described (i : Info) : Info :=
  { i with description := some (i.description.getD defaultDescription) }

theorem Info.described_eq_self {i : Info} (h : i.description ≠ none) : i.described = i := by
  obtain ⟨description, h⟩ := Option.ne_none_iff_exists'.mp h
  cases i
  cases h
  rfl

theorem Info.decode_toJson (i : Info) :
    Info.decode .document ((i.toJson false).mapFloats g) = .ok i.described := by
  refine object_record (by simp) fun ms kept => ?_
  -- An absent description is left out of the form, and its default is no absent one.
  have description : Decoder.member ms "description" "description"
      (some (some defaultDescription)) (nullable text) =
        .ok (some (i.description.getD defaultDescription)) := by
    refine kept.member (v := .ofText? i.description) (by simp) (by simp) ?_ ?_
    · intro present
      cases h : i.description with
      | none => simp [h, ofText?, isNull] at present
      | some t => rfl
    · intro absent
      cases h : i.description with
      | none => rfl
      | some t => simp [h, ofText?, isNull] at absent
  have authentication : Decoder.member ms "authentication" "authentication" (some none)
      (nullable (InfoAuthentication.decode .document)) = .ok (i.authentication.map id) :=
    kept.optional (InfoAuthentication.toJson false) (by simp) (by simp) (fun _ => ⟨rfl, rfl⟩)
      fun a _ => a.decode_toJson
  rw [Option.map_id] at authentication
  refine also_ok (also_ok (also_ok (also_ok (also_ok rfl ?_) ?_) description) ?_) authentication
  · exact kept.found (v := .str i.title) (by simp) (by simp) rfl rfl
  · exact kept.found (v := .str i.version) (by simp) (by simp) rfl rfl
  · exact kept.optionalText (by simp) (by simp)

/-- What is decoded from the form of a documentation: it is described, and a function was applied
to all examples and schemas. -/
def Documentation.decoded (f : Json → Json) (d : Documentation) : Documentation :=
  { d with info := d.info.described, endpoints := d.endpoints.map (Endpoint.mapFree f) }

/-- **An encoded documentation is decoded to the documentation**, described. -/
theorem Documentation.decode_toJson (d : Documentation) :
    Documentation.decode .document ((d.toJson false).mapFloats g) =
      .ok (d.decoded (mapFloats g)) := by
  refine object_record (by simp) fun ms kept => ?_
  have endpoints : list (Endpoint.decode .document)
      (mapFloats g (.arr (d.endpoints.map (Endpoint.toJson false)))) =
        .ok (d.endpoints.map (Endpoint.mapFree (mapFloats g))) :=
    list_map fun e _ => e.decode_toJson
  refine also_ok (also_ok (also_ok (also_ok rfl ?_) ?_) ?_) ?_
  · exact kept.found (v := d.info.toJson false) (by simp) (by simp) rfl d.info.decode_toJson
  · exact kept.found (v := .arr (d.endpoints.map (Endpoint.toJson false)))
      (by simp) (by simp) rfl endpoints
  · exact kept.found (v := .int d.totalEndpoints) (by simp) (by simp) rfl rfl
  · exact kept.found (v := .str d.generatedAt) (by simp) (by simp) rfl rfl

/-! ### Data Without Numbers to Replace -/

/-- Endpoints stay what they are if nothing is changed in their examples and schemas. -/
theorem Endpoint.mapFree_id (e : Endpoint) : e.mapFree id = e := by
  have parameters : Parameter.mapFree id = id := rfl
  have bodies : RequestBody.mapFree id = id := by
    funext b
    exact congrArg (fun schema => { b with schema := schema }) (List.map_id' b.schema)
  have authentications : Authentication.mapFree id = id := by
    funext a
    have example? : (a.example?.map fun ms => ms.map fun p => (p.1, id p.2)) = a.example? := by
      simp
    exact congrArg (fun o => { a with example? := o }) example?
  unfold mapFree
  rw [parameters, bodies, authentications, List.map_id, Option.map_id, Option.map_id]
  exact congrArg (fun rs => { e with responses := rs }) (List.map_id' e.responses)

/-- A described documentation stays what it is if its numbers are kept. -/
theorem Documentation.decoded_eq_self {d : Documentation} (described : d.info.description ≠ none) :
    d.decoded (mapFloats .float) = d := by
  have kept : mapFloats .float = id := funext mapFloats_float
  have endpoints : Endpoint.mapFree id = id := funext Endpoint.mapFree_id
  rw [kept, decoded, endpoints, List.map_id, Info.described_eq_self described]

end RouteDocs
