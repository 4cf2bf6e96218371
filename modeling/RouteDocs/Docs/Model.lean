import RouteDocs.Json.Value

/-!
# API Documentation

The data that a scan infers and that every output format renders.

## Main Definitions

* `Verb`: the request methods for which a route file exports handlers
* `Parameter`, `Response`, `RequestHeader`, `RequestBody`, `Authentication`: parts of an endpoint
* `Endpoint`: one method of one URL
* `Info`, `Documentation`: the whole

## Design Notes

Methods and locations of a documentation that was edited by hand are free text where its format
lets them be, so an `Endpoint` has a text as its method although handlers are found for the
seven verbs only. `Json.null` as an example means that there is none.
-/

namespace RouteDocs

/-- The request methods for which handlers can be exported, in canonical order. -/
inductive Verb where
  | get | post | put | delete | patch | head | options
  deriving Repr, DecidableEq, Inhabited

namespace Verb

/-- The verbs in canonical order. -/
def all : List Verb := [get, post, put, delete, patch, head, options]

/-- The upper-case name of a verb. -/
def name : Verb → Text
  | get => "GET"
  | post => "POST"
  | put => "PUT"
  | delete => "DELETE"
  | patch => "PATCH"
  | head => "HEAD"
  | options => "OPTIONS"

theorem mem_all (v : Verb) : v ∈ all := by
  cases v <;> decide

/-- Verbs with one name are one verb. -/
theorem name_injective {v w : Verb} (h : v.name = w.name) : v = w := by
  cases v <;> cases w <;> first | rfl | exact absurd h (by decide)

/-- The verb with a name. -/
def ofName? (t : Text) : Option Verb :=
  all.find? fun v => v.name == t

/-- Whether requests with this verb change something, so that a body is looked for. -/
def isMutating : Verb → Bool
  | post | put | patch | delete => true
  | _ => false

/-- Whether annotated parameters of this verb belong to the body unless they say otherwise. -/
def carriesBody : Verb → Bool
  | post | put | patch => true
  | _ => false

end Verb

/-- The first segment of every URL. -/
def apiRoot : Text := "/api"

/-- Where a request carries a parameter. -/
inductive Location where
  | path | query | body | header
  deriving Repr, DecidableEq, Inhabited

namespace Location

/-- The name of a location. -/
def name : Location → Text
  | path => "path"
  | query => "query"
  | body => "body"
  | header => "header"

/-- The location with a name. -/
def ofName? (t : Text) : Option Location :=
  [path, query, body, header].find? fun l => l.name == t

end Location

/-- A parameter of an endpoint. -/
structure Parameter where
  /-- The name. -/
  name : Text
  /-- The type as it was annotated. -/
  type : Text
  /-- Whether a request must give it. -/
  required : Bool
  /-- Where a request carries it. -/
  location : Location
  /-- What it means. -/
  description : Option Text
  /-- An example, or null. -/
  example? : Json

/-- What an endpoint answers with one status code. -/
structure Response where
  /-- The status code. -/
  statusCode : Text
  /-- What the answer means. -/
  description : Text
  /-- An example, or null. -/
  example? : Json
  /-- Names of fields that are always present. -/
  requiredFields : List Text
  /-- Names of fields that may be present. -/
  optionalFields : List Text

/-- A header that a handler reads. -/
structure RequestHeader where
  /-- The name. -/
  name : Text
  /-- Whether a request must give it. -/
  required : Bool
  /-- What it means. -/
  description : Option Text

/-- The body that a handler expects. -/
structure RequestBody where
  /-- The type of the body. -/
  type : Text
  /-- The schema of the body. -/
  schema : Assoc Json
  /-- What it means. -/
  description : Option Text
  /-- An example, or null. -/
  example? : Json
  /-- The names of the required properties. -/
  required : List Text

/-- The ways in which clients identify themselves. -/
inductive AuthKind where
  | none | bearer | apiKey | basic
  deriving Repr, DecidableEq, Inhabited

namespace AuthKind

/-- The name of a way. -/
def name : AuthKind → Text
  | none => "none"
  | bearer => "bearer"
  | apiKey => "api-key"
  | basic => "basic"

/-- The way with a name. -/
def ofName? (t : Text) : Option AuthKind :=
  [none, bearer, apiKey, basic].find? fun k => k.name == t

end AuthKind

/-- How clients of an endpoint identify themselves. -/
structure Authentication where
  /-- The way. -/
  kind : AuthKind
  /-- Whether it is demanded. -/
  required : Bool
  /-- What it means. -/
  description : Text
  /-- The header that carries the credentials. -/
  headerName : Option Text
  /-- What the header holds. -/
  headerFormat : Option Text
  /-- Where credentials are obtained. -/
  loginEndpoint : Option Text
  /-- An example request. -/
  example? : Option (Assoc Json)
  /-- What a client does, step by step. -/
  steps : List Text

/-- One method of one URL. -/
structure Endpoint where
  /-- The request method. -/
  method : Text
  /-- The URL template. -/
  url : Text
  /-- The file that holds the handler. -/
  file : Text
  /-- A title. -/
  title : Option Text
  /-- A description. -/
  description : Option Text
  /-- A short summary. -/
  summary : Option Text
  /-- The parameters. -/
  parameters : List Parameter
  /-- The answers by status code. -/
  responses : Assoc Response
  /-- The headers, if the handler reads any. -/
  requestHeaders : Option (List RequestHeader)
  /-- The body, if one is expected. -/
  requestBody : Option RequestBody
  /-- The tags, of which the first one groups endpoints. -/
  tags : List Text
  /-- Whether clients must identify themselves. -/
  requiresAuth : Bool
  /-- How clients identify themselves. -/
  authentication : Option Authentication

/-- How clients of the whole API identify themselves. -/
structure InfoAuthentication where
  /-- The way. -/
  kind : Option AuthKind
  /-- Whether it is demanded. -/
  required : Option Bool
  /-- Where credentials are obtained. -/
  endpoint : Option Text
  /-- The header that carries the credentials. -/
  headerName : Option Text
  /-- What it means. -/
  description : Option Text

/-- What is said about the API as a whole. -/
structure Info where
  /-- The title. -/
  title : Text
  /-- The version. -/
  version : Text
  /-- A description. -/
  description : Option Text
  /-- The address of the server. -/
  baseUrl : Option Text
  /-- How clients identify themselves. -/
  authentication : Option InfoAuthentication

namespace Info

/-- The title of an API that has none of its own. -/
def defaultTitle : Text := "API Documentation"

/-- The version of an API that states none. -/
def defaultVersion : Text := "1.0.0"

/-- The description of an API that has none of its own. -/
def defaultDescription : Text := "Auto-generated API documentation"

/-- What is said about an API of which nothing is known. -/
def default : Info := ⟨defaultTitle, defaultVersion, some defaultDescription, none, none⟩

end Info

/-- The documentation of an API. -/
structure Documentation where
  /-- The API as a whole. -/
  info : Info
  /-- Its endpoints. -/
  endpoints : List Endpoint
  /-- The stated number of endpoints. -/
  totalEndpoints : Int
  /-- When the documentation was made. -/
  generatedAt : Text

end RouteDocs
