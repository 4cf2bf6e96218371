import RouteDocs.Handler.Context
import RouteDocs.Text.Pattern

/-!
# Parameters

The parameters of a handler: those in its URL, and those that its comments annotate as query or
body parameters.

## Main Definitions

* `Parameter.ofUrl`: the placeholders of a URL template
* `ParamNote`: an annotation `@param {type} name description`
* `Parameter.annotated`: the annotated parameters of one location
* `Parameter.infer`: path, query and body parameters, in this order

## Design Notes

An annotation is optional if its type ends in a question mark or its name stands in brackets. A
`query.` or `body.` before the name says where it belongs; without one it belongs to the default
location. The names of the handler's own arguments are no parameters.
-/

namespace RouteDocs

/-- The names in the braces of a text whose first code points are passed over. -/
def bracedNames : Nat → Text → List Text
  | _, [] => []
  | skip + 1, _ :: r => bracedNames skip r
  | 0, c :: r =>
    let name := r.takeWhile fun d : CodePoint => d.val != 0x7D
    if c.val == 0x7B && !name.isEmpty && name.length < r.length then
      name :: bracedNames (name.length + 1) r
    else bracedNames 0 r

/-- An annotated parameter. -/
structure ParamNote where
  /-- The type. -/
  type : Text
  /-- Whether a request may leave it out. -/
  isOptional : Bool
  /-- Where it belongs, if the annotation says so. -/
  location? : Option Location
  /-- The name. -/
  name : Text
  /-- What it means. -/
  description : Text
  deriving DecidableEq

namespace ParamNote

open Pattern

/-- An annotation: the type, the opening bracket of an optional name, the location, the name and
the description are remembered under the numbers from one to five. -/
def pattern : Pattern :=
  caseless "@param" ++ blanks1 ++ one (fun c => c.val == 0x7B)
    ++ group 1 (run1 fun c => c.val != 0x7D) ++ one (fun c => c.val == 0x7D) ++ blanks1
    ++ optional (group 2 (lit "["))
    ++ optional (group 3 (alt (caseless "query") (caseless "body")) ++ lit ".")
    ++ group 4 word1 ++ optional (lit "]") ++ optional (blanks1 ++ lit "-")
    ++ run1 (fun c : CodePoint => c == ' ' || c == '\t')
    ++ group 5 (run1 fun c : CodePoint => c != '\n')

/-- The names of a handler's own arguments. -/
def handlerArguments : List Text :=
  ["request", "req", "res", "response", "context", "ctx", "params"]

/-- The annotation at a match of the pattern. -/
def ofMatch (m : Match) : ParamNote :=
  let rawType := Text.strip (m.group 1)
  let type := Text.strip (Text.trimRight (fun c : CodePoint => c == '?') rawType)
  { type := if type.isEmpty then "string" else type
    isOptional := rawType.endsWith "?" || (m.group? 2).isSome
    location? := (m.group? 3).map fun t => if Text.lower t == "query" then .query else .body
    name := m.group 4
    description := Text.strip (m.group 5) }

/-- The annotations of a text, in order, without those of the handler's own arguments. -/
def all (content : Text) : List ParamNote :=
  ((pattern.findAll content).map ofMatch).filter fun a =>
    !handlerArguments.contains (Text.lower a.name)

/-- The parameter that an annotation describes, at a location. -/
def toParameter (location : Location) (a : ParamNote) : Parameter :=
  ⟨a.name, a.type, !a.isOptional, location, some a.description, .null⟩

end ParamNote

namespace Parameter

open Pattern

/-- The parameters that the placeholders of a URL template stand for. -/
def ofUrl (url : Text) : List Parameter :=
  (bracedNames 0 url).map fun name =>
    ⟨name, "string", true, .path, some ("Path parameter: " ++ name), .null⟩

/-- The annotated parameters of a location, where those that name no location belong to a
default one, if there is one. -/
def annotated (content : Text) (location : Location) (default : Option Location) :
    List Parameter :=
  ((ParamNote.all content).filter fun a =>
    (a.location?.orElse fun _ => default) == some location).map
      (ParamNote.toParameter location)

/-- The word `req` or `request` at the beginning of a word. -/
def requestWord : Pattern :=
  wordEdge ++ lit "req" ++ optional (lit "uest")

/-- A key with an object behind it, in any letter case. -/
def objectKey (key : Text) : Pattern :=
  wordEdge ++ caseless key ++ blanks ++ lit ":" ++ blanks ++ one fun c => c.val == 0x7B

/-- Signs that a handler reads the query. -/
def queryMarkers : List Pattern := [
  lit "searchParams",
  lit "URLSearchParams",
  objectKey "query",
  requestWord ++ lit ".query" ++ wordEdge]

/-- Signs that a handler reads the body. -/
def bodyMarkers : List Pattern := [
  objectKey "body",
  wordEdge ++ lit "request" ++ blanks ++ lit ":" ++ blanks ++ optional (lit "Next")
    ++ lit "Request" ++ wordEdge,
  lit "await" ++ blanks1 ++ word1 ++ lit ".json(" ++ blanks ++ lit ")"]

/-- Whether the method of a context carries a body. -/
def carriesBody (ctx : RouteContext) : Bool :=
  ctx.verb?.any Verb.carriesBody

/-- The query parameters of a handler: the annotated ones, or one for the whole query. -/
def ofQuery (ctx : RouteContext) : List Parameter :=
  if !queryMarkers.any (·.occursIn ctx.source) then []
  else match annotated ctx.source .query (some (if carriesBody ctx then .body else .query)) with
    | [] => [⟨"query", "object", false, .query, some "Query parameters", .null⟩]
    | found => found

/-- The body parameters of a handler: the annotated ones, or one for the whole body. -/
def ofBody (ctx : RouteContext) : List Parameter :=
  if !carriesBody ctx || !bodyMarkers.any (·.occursIn ctx.source) then []
  else match annotated ctx.source .body (some .body) with
    | [] => [⟨"body", "object", true, .body, some "Request body", .null⟩]
    | found => found

/-- The parameters of a handler: path, then query, then body. -/
def infer (ctx : RouteContext) : List Parameter :=
  ofUrl ctx.url ++ ofQuery ctx ++ ofBody ctx

end Parameter

end RouteDocs
