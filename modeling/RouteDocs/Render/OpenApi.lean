import RouteDocs.Render.Grouping
import RouteDocs.Json.Printer
import RouteDocs.Yaml.Printer

/-!
# OpenAPI

A documentation as an OpenAPI 3.0 document, in JSON or YAML.

## Main Definitions

* `OpenApi.path`: the path of a URL template below the server's address
* `OpenApi.operation`: the operation of an endpoint
* `OpenApi.document`: the document as a value
* `OpenApi.renderJson`, `OpenApi.renderYaml`: the document as text

## Design Notes

URL templates have their placeholders in braces already, so only the API root is taken off; it is
the address of the server. Of several endpoints with one path and method the last one counts.
-/

namespace RouteDocs

namespace OpenApi

/-- The path of a URL template below the API root. -/
def path (url : Text) : Text :=
  let rest : Text := if apiRoot.isPrefixOf url then url.drop apiRoot.length else url
  if rest.isEmpty then "/" else rest

/-- The types that are kept as they are. -/
def knownTypes : List Text := ["string", "number", "integer", "boolean", "object", "array"]

/-- The schema type of an annotated type. -/
def schemaType (type : Text) : Text :=
  let cleaned := Text.lower (Text.trimRight (fun c : CodePoint => c == '?') (Text.strip type))
  if cleaned.endsWith "[]" || cleaned.startsWith "array" then "array"
  else if knownTypes.contains cleaned then cleaned
  else "string"

/-- The name and the security scheme of a way of identification, if it has one. -/
def securityScheme? : AuthKind → Option (Text × Json)
  | .none => none
  | .bearer => some ("bearerAuth", .obj [("type", .str "http"), ("scheme", .str "bearer")])
  | .basic => some ("basicAuth", .obj [("type", .str "http"), ("scheme", .str "basic")])
  | .apiKey => some ("apiKeyAuth",
      .obj [("type", .str "apiKey"), ("in", .str "header"), ("name", .str "X-API-Key")])

/-- The scheme that an endpoint demands. -/
def demandedScheme? (e : Endpoint) : Option (Text × Json) :=
  e.authentication.bind fun a => if a.required then securityScheme? a.kind else none

/-- The first of several optional texts that says something, or the empty text. -/
def firstText (ts : List (Option Text)) : Text :=
  (ts.filterMap fun t => t.filter fun t => !t.isEmpty).head?.getD []

/-- A member with a text that says something. -/
def textMember (key : Text) (t : Option Text) : Assoc Json :=
  match t with
  | some t => if t.isEmpty then [] else [(key, .str t)]
  | none => []

/-- A member with a value other than null. -/
def valueMember (key : Text) (v : Json) : Assoc Json :=
  if v.isNull then [] else [(key, v)]

/-- The schema of a type alone. -/
def typeSchema (type : Text) : Json := .obj [("type", .str type)]

/-- The operation parameter of a parameter. -/
def parameter (p : Parameter) : Json :=
  let head : Assoc Json := [
    ("name", .str p.name),
    ("in", .str p.location.name),
    ("required", .bool p.required),
    ("schema", typeSchema (schemaType p.type))]
  .obj (head ++ textMember "description" p.description ++ valueMember "example" p.example?)

/-- The operation parameter of a header. -/
def headerParameter (h : RequestHeader) : Json :=
  .obj [
    ("name", .str h.name),
    ("in", .str "header"),
    ("required", .bool h.required),
    ("schema", typeSchema "string"),
    ("description", .str (h.description.getD []))]

/-- The operation parameters of an endpoint: all but body parameters, then the headers other than
the authorization header, which the security schemes cover. -/
def parameters (e : Endpoint) : List Json :=
  (e.parameters.filter fun p => p.location != .body).map parameter
    ++ ((e.requestHeaders.getD []).filter fun h => Text.lower h.name != "authorization").map
      headerParameter

/-- The content of a body with a media type. -/
def jsonContent (content : Json) : Json := .obj [("application/json", content)]

/-- The body of an endpoint: its request body, or an object of its body parameters. -/
def requestBody? (e : Endpoint) : Option Json :=
  match e.requestBody with
  | some b =>
    let schema := if b.schema.isEmpty then typeSchema "object" else .obj b.schema
    some (.obj [
      ("required", .bool !b.required.isEmpty),
      ("description", .str (firstText [b.description, some "Request body"])),
      ("content", jsonContent (.obj (("schema", schema) :: valueMember "example" b.example?)))])
  | none =>
    let ps := e.parameters.filter fun p => p.location == .body
    if ps.isEmpty then none
    else
      let properties := Assoc.ofList (ps.map fun p => (p.name, typeSchema (schemaType p.type)))
      some (.obj [
        ("required", .bool (ps.any (·.required))),
        ("content", jsonContent (.obj [
          ("schema", .obj [("type", .str "object"), ("properties", .obj properties)])]))])

/-- An answer. -/
def response (r : Response) : Json :=
  .obj [
    ("description", .str r.description),
    ("content", jsonContent (.obj [
      ("schema", .obj (("type", .str "object") :: valueMember "example" r.example?))]))]

/-- The answers of an endpoint, or a default one. -/
def responses (e : Endpoint) : Json :=
  if e.responses.isEmpty then .obj [("default", .obj [("description", .str "Response")])]
  else .obj (e.responses.map fun (code, r) => (code, response r))

/-- The name of an operation: the method and the segments of the path. -/
def operationId (e : Endpoint) : Text :=
  let parts := ((path e.url).splitOn '/').filter fun p => !p.isEmpty
  Text.join "_" (Text.lower e.method
    :: parts.map (Text.trim fun c => c.val == 0x7B || c.val == 0x7D))

/-- The operation of an endpoint with a tag. -/
def operation (e : Endpoint) (tag : Text) : Assoc Json :=
  let ps := parameters e
  let parameterMember : Assoc Json := if ps.isEmpty then [] else [("parameters", .arr ps)]
  let head : Assoc Json := [
    ("tags", .arr [.str tag]),
    ("summary", .str (firstText [e.summary, e.title, e.description])),
    ("operationId", .str (operationId e))]
  let answers : Assoc Json := [("responses", responses e)]
  head ++ textMember "description" e.description ++ parameterMember
    ++ valueMember "requestBody" ((requestBody? e).getD .null) ++ answers

/-- The operation of an endpoint with a tag and the security it demands. -/
def securedOperation (e : Endpoint) (tag : Text) : Json :=
  match demandedScheme? e with
  | some (name, _) =>
    let security : Assoc Json := [("security", .arr [.obj [(name, .arr [])]])]
    .obj (operation e tag ++ security)
  | none => .obj (operation e tag)

/-- The operations by path and method: the endpoints group by group. -/
def paths (groups : Assoc (List Endpoint)) : Assoc (Assoc Json) :=
  (groups.flatMap fun (tag, es) => es.map fun e => (tag, e)).foldl (fun found (tag, e) =>
    let url := path e.url
    let methods := (Assoc.get? url found).getD []
    Assoc.put url (Assoc.put (Text.lower e.method) (securedOperation e tag) methods) found) []

/-- The security schemes that endpoints demand. -/
def securitySchemes (groups : Assoc (List Endpoint)) : Assoc Json :=
  Assoc.ofList ((groups.flatMap (·.2)).filterMap demandedScheme?)

/-- The OpenAPI document of a documentation. -/
def document (d : Documentation) : Json :=
  let groups := groupByTag d.endpoints
  let info : Assoc Json := [("title", .str d.info.title), ("version", .str d.info.version)]
  let schemes := securitySchemes groups
  let components : Assoc Json :=
    if schemes.isEmpty then [] else [("components", .obj [("securitySchemes", .obj schemes)])]
  let head : Assoc Json := [
    ("openapi", .str "3.0.0"),
    ("info", .obj (info ++ textMember "description" d.info.description)),
    ("servers", .arr [.obj [
      ("url", .str (firstText [d.info.baseUrl, some apiRoot])),
      ("description", .str "API Server")]]),
    ("paths", .obj ((paths groups).map fun (url, methods) => (url, .obj methods))),
    ("tags", .arr (groups.map fun (tag, _) =>
      .obj [("name", .str tag), ("description", .str (tag ++ " endpoints"))]))]
  .obj (head ++ components)

/-- The document in JSON. -/
def renderJson (d : Documentation) : Text :=
  Json.print .asciiIndented (document d)

/-- The document in YAML. -/
def renderYaml (d : Documentation) : Text :=
  Yaml.print (document d)

end OpenApi

end RouteDocs
