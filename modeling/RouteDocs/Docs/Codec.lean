import RouteDocs.Docs.Model
import RouteDocs.Json.Decode

/-!
# Documentation as JSON

The JSON form of a documentation and of each of its parts: how it is built and how it is decoded.

## Main Definitions

* `Documentation.toJson`, `Endpoint.toJson`, …: the JSON form
* `Documentation.decode`, `Endpoint.decode`, …: the data of a JSON form

## Design Notes

The members have camel-case names; a decoder also accepts them in snake case. A part that is
absent is left out of the form unless nulls are kept, and a null within an example stays.
-/

namespace RouteDocs

namespace Parameter

/-- The JSON form of a parameter. -/
def toJson (keepNulls : Bool) (p : Parameter) : Json :=
  .record keepNulls [
    ("name", .str p.name),
    ("type", .str p.type),
    ("required", .bool p.required),
    ("location", .str p.location.name),
    ("description", .ofText? p.description),
    ("example", p.example?)]

/-- The parameter of a JSON form. -/
def decode (origin : Origin) : Decoder Parameter :=
  Decoder.object origin fun ms =>
    (Decoded.of Parameter.mk)
      |>.also (Decoder.member ms "name" "name" none Decoder.text)
      |>.also (Decoder.member ms "type" "param_type" none Decoder.text)
      |>.also (Decoder.member ms "required" "required" none Decoder.truth)
      |>.also (Decoder.member ms "location" "location" none (Decoder.enumeration Location.ofName?))
      |>.also (Decoder.member ms "description" "description" (some none) (Decoder.nullable Decoder.text))
      |>.also (Decoder.member ms "example" "example" (some .null) (Decoder.free origin))

end Parameter

namespace Response

/-- The JSON form of a response. -/
def toJson (keepNulls : Bool) (r : Response) : Json :=
  .record keepNulls [
    ("statusCode", .str r.statusCode),
    ("description", .str r.description),
    ("example", r.example?),
    ("requiredFields", .ofTexts r.requiredFields),
    ("optionalFields", .ofTexts r.optionalFields)]

/-- The response of a JSON form. -/
def decode (origin : Origin) : Decoder Response :=
  Decoder.object origin fun ms =>
    (Decoded.of Response.mk)
      |>.also (Decoder.member ms "statusCode" "status_code" none Decoder.text)
      |>.also (Decoder.member ms "description" "description" none Decoder.text)
      |>.also (Decoder.member ms "example" "example" (some .null) (Decoder.free origin))
      |>.also (Decoder.member ms "requiredFields" "required_fields" (some [])
        (Decoder.list Decoder.text))
      |>.also (Decoder.member ms "optionalFields" "optional_fields" (some [])
        (Decoder.list Decoder.text))

end Response

namespace RequestHeader

/-- The JSON form of a header. -/
def toJson (keepNulls : Bool) (h : RequestHeader) : Json :=
  .record keepNulls [
    ("name", .str h.name),
    ("required", .bool h.required),
    ("description", .ofText? h.description)]

/-- The header of a JSON form. -/
def decode (origin : Origin) : Decoder RequestHeader :=
  Decoder.object origin fun ms =>
    (Decoded.of RequestHeader.mk)
      |>.also (Decoder.member ms "name" "name" none Decoder.text)
      |>.also (Decoder.member ms "required" "required" none Decoder.truth)
      |>.also (Decoder.member ms "description" "description" (some none) (Decoder.nullable Decoder.text))

end RequestHeader

namespace RequestBody

/-- The JSON form of a request body. -/
def toJson (keepNulls : Bool) (b : RequestBody) : Json :=
  .record keepNulls [
    ("type", .str b.type),
    ("schema", .obj b.schema),
    ("description", .ofText? b.description),
    ("example", b.example?),
    ("required", .ofTexts b.required)]

/-- The request body of a JSON form. -/
def decode (origin : Origin) : Decoder RequestBody :=
  Decoder.object origin fun ms =>
    (Decoded.of RequestBody.mk)
      |>.also (Decoder.member ms "type" "body_type" (some "object") Decoder.text)
      |>.also (Decoder.member ms "schema" "json_schema" (some []) (Decoder.map (Decoder.free origin)))
      |>.also (Decoder.member ms "description" "description" (some none) (Decoder.nullable Decoder.text))
      |>.also (Decoder.member ms "example" "example" (some .null) (Decoder.free origin))
      |>.also (Decoder.member ms "required" "required" (some []) (Decoder.list Decoder.text))

end RequestBody

namespace Authentication

/-- The JSON form of an authentication. -/
def toJson (keepNulls : Bool) (a : Authentication) : Json :=
  .record keepNulls [
    ("type", .str a.kind.name),
    ("required", .bool a.required),
    ("description", .str a.description),
    ("headerName", .ofText? a.headerName),
    ("headerFormat", .ofText? a.headerFormat),
    ("loginEndpoint", .ofText? a.loginEndpoint),
    ("example", a.example?.elim .null .obj),
    ("steps", .ofTexts a.steps)]

/-- The authentication of a JSON form. -/
def decode (origin : Origin) : Decoder Authentication :=
  Decoder.object origin fun ms =>
    (Decoded.of Authentication.mk)
      |>.also (Decoder.member ms "type" "auth_type" none (Decoder.enumeration AuthKind.ofName?))
      |>.also (Decoder.member ms "required" "required" none Decoder.truth)
      |>.also (Decoder.member ms "description" "description" none Decoder.text)
      |>.also (Decoder.member ms "headerName" "header_name" (some none) (Decoder.nullable Decoder.text))
      |>.also (Decoder.member ms "headerFormat" "header_format" (some none)
        (Decoder.nullable Decoder.text))
      |>.also (Decoder.member ms "loginEndpoint" "login_endpoint" (some none)
        (Decoder.nullable Decoder.text))
      |>.also (Decoder.member ms "example" "example" (some none)
        (Decoder.nullable (Decoder.map (Decoder.free origin))))
      |>.also (Decoder.member ms "steps" "steps" (some []) (Decoder.list Decoder.text))

end Authentication

namespace Endpoint

/-- The members of the JSON form of an endpoint, nulls included. -/
def members (keepNulls : Bool) (e : Endpoint) : List (Text × Json) := [
  ("method", .str e.method),
  ("url", .str e.url),
  ("file", .str e.file),
  ("title", .ofText? e.title),
  ("description", .ofText? e.description),
  ("summary", .ofText? e.summary),
  ("parameters", .arr (e.parameters.map (Parameter.toJson keepNulls))),
  ("responses", .obj (e.responses.map fun (code, r) => (code, r.toJson keepNulls))),
  ("requestHeaders", e.requestHeaders.elim .null fun hs =>
    .arr (hs.map (RequestHeader.toJson keepNulls))),
  ("requestBody", e.requestBody.elim .null (RequestBody.toJson keepNulls)),
  ("tags", .ofTexts e.tags),
  ("requiresAuth", .bool e.requiresAuth),
  ("authentication", e.authentication.elim .null (Authentication.toJson keepNulls))]

/-- The JSON form of an endpoint. -/
def toJson (keepNulls : Bool) (e : Endpoint) : Json :=
  .record keepNulls (e.members keepNulls)

/-- The endpoint of a JSON form. -/
def decode (origin : Origin) : Decoder Endpoint :=
  Decoder.object origin fun ms =>
    (Decoded.of Endpoint.mk)
      |>.also (Decoder.member ms "method" "method" none Decoder.text)
      |>.also (Decoder.member ms "url" "url" none Decoder.text)
      |>.also (Decoder.member ms "file" "file" none Decoder.text)
      |>.also (Decoder.member ms "title" "title" (some none) (Decoder.nullable Decoder.text))
      |>.also (Decoder.member ms "description" "description" (some none) (Decoder.nullable Decoder.text))
      |>.also (Decoder.member ms "summary" "summary" (some none) (Decoder.nullable Decoder.text))
      |>.also (Decoder.member ms "parameters" "parameters" (some [])
        (Decoder.list (Parameter.decode origin)))
      |>.also (Decoder.member ms "responses" "responses" (some [])
        (Decoder.map (Response.decode origin)))
      |>.also (Decoder.member ms "requestHeaders" "request_headers" (some none)
        (Decoder.nullable (Decoder.list (RequestHeader.decode origin))))
      |>.also (Decoder.member ms "requestBody" "request_body" (some none)
        (Decoder.nullable (RequestBody.decode origin)))
      |>.also (Decoder.member ms "tags" "tags" (some []) (Decoder.list Decoder.text))
      |>.also (Decoder.member ms "requiresAuth" "requires_auth" (some false) Decoder.truth)
      |>.also (Decoder.member ms "authentication" "authentication" (some none)
        (Decoder.nullable (Authentication.decode origin)))

end Endpoint

namespace InfoAuthentication

/-- The JSON form of what is said about authentication. -/
def toJson (keepNulls : Bool) (a : InfoAuthentication) : Json :=
  .record keepNulls [
    ("type", a.kind.elim .null fun k => .str k.name),
    ("required", a.required.elim .null .bool),
    ("endpoint", .ofText? a.endpoint),
    ("headerName", .ofText? a.headerName),
    ("description", .ofText? a.description)]

/-- What a JSON form says about authentication. -/
def decode (origin : Origin) : Decoder InfoAuthentication :=
  Decoder.object origin fun ms =>
    (Decoded.of InfoAuthentication.mk)
      |>.also (Decoder.member ms "type" "auth_type" (some none)
        (Decoder.nullable (Decoder.enumeration AuthKind.ofName?)))
      |>.also (Decoder.member ms "required" "required" (some none) (Decoder.nullable Decoder.truth))
      |>.also (Decoder.member ms "endpoint" "endpoint" (some none) (Decoder.nullable Decoder.text))
      |>.also (Decoder.member ms "headerName" "header_name" (some none) (Decoder.nullable Decoder.text))
      |>.also (Decoder.member ms "description" "description" (some none) (Decoder.nullable Decoder.text))

end InfoAuthentication

namespace Info

/-- The JSON form of what is said about the API. -/
def toJson (keepNulls : Bool) (i : Info) : Json :=
  .record keepNulls [
    ("title", .str i.title),
    ("version", .str i.version),
    ("description", .ofText? i.description),
    ("baseUrl", .ofText? i.baseUrl),
    ("authentication", i.authentication.elim .null (InfoAuthentication.toJson keepNulls))]

/-- What a JSON form says about the API. -/
def decode (origin : Origin) : Decoder Info :=
  Decoder.object origin fun ms =>
    (Decoded.of Info.mk)
      |>.also (Decoder.member ms "title" "title" (some defaultTitle) Decoder.text)
      |>.also (Decoder.member ms "version" "version" (some defaultVersion) Decoder.text)
      |>.also (Decoder.member ms "description" "description" (some (some defaultDescription))
        (Decoder.nullable Decoder.text))
      |>.also (Decoder.member ms "baseUrl" "base_url" (some none) (Decoder.nullable Decoder.text))
      |>.also (Decoder.member ms "authentication" "authentication" (some none)
        (Decoder.nullable (InfoAuthentication.decode origin)))

end Info

namespace Documentation

/-- The JSON form of a documentation. -/
def toJson (keepNulls : Bool) (d : Documentation) : Json :=
  .record keepNulls [
    ("info", d.info.toJson keepNulls),
    ("endpoints", .arr (d.endpoints.map (Endpoint.toJson keepNulls))),
    ("totalEndpoints", .int d.totalEndpoints),
    ("generatedAt", .str d.generatedAt)]

/-- The documentation of a JSON form. -/
def decode (origin : Origin) : Decoder Documentation :=
  Decoder.object origin fun ms =>
    (Decoded.of Documentation.mk)
      |>.also (Decoder.member ms "info" "info" none (Info.decode origin))
      |>.also (Decoder.member ms "endpoints" "endpoints" none (Decoder.list (Endpoint.decode origin)))
      |>.also (Decoder.member ms "totalEndpoints" "total_endpoints" none Decoder.integer)
      |>.also (Decoder.member ms "generatedAt" "generated_at" none Decoder.text)

end Documentation

end RouteDocs
