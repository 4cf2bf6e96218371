import RouteDocs.Render.Grouping
import RouteDocs.Json.Printer
import RouteDocs.Text.Blank

/-!
# Markdown

A documentation as a Markdown page, with one heading for each tag.

## Main Definitions

* `Markdown.endpointLines`: the lines of one endpoint
* `Markdown.render`: the page
-/

namespace RouteDocs

namespace Markdown

/-- An optional text that is present and not empty. -/
def present? (t : Option Text) : Option Text :=
  t.filter fun t => !t.isEmpty

/-- Lines that depend on an optional text which says something. -/
def linesFor (t : Option Text) (lines : Text → List Text) : List Text :=
  (present? t).elim [] lines

/-- Three backquotes. -/
def fence : Text := ['\x60', '\x60', '\x60']

/-- A text in backquotes. -/
def code (t : Text) : Text := Text.between '\x60' t

/-- An example in a fenced block. -/
def exampleBlock (v : Json) : List Text :=
  [fence ++ "json", Json.print .asciiIndented v, fence, []]

/-- The table row of a parameter. -/
def parameterRow (p : Parameter) : Text :=
  "| " ++ p.name ++ " | " ++ p.type ++ " | " ++ (if p.required then "Yes" else "No") ++ " | "
    ++ p.location.name ++ " | " ++ (present? p.description).getD "-" ++ " |"

/-- The parameters as a table. -/
def parameterLines (ps : List Parameter) : List Text :=
  if ps.isEmpty then []
  else
    let head : List Text := ["#### Parameters", [],
      "| Name | Type | Required | Location | Description |",
      "|------|------|----------|----------|-------------|"]
    head ++ ps.map parameterRow ++ [[]]

/-- The list item of a header. -/
def headerItem (h : RequestHeader) : Text :=
  let mark : Text := if h.required then " (required)" else []
  "- " ++ code h.name ++ mark ++ ": "
    ++ (present? h.description).getD "-"

/-- The headers as a list. -/
def headerLines (hs : List RequestHeader) : List Text :=
  if hs.isEmpty then []
  else
    let items := hs.map headerItem
    let last : List Text := [[]]
    "#### Headers" :: [] :: (items ++ last)

/-- The authentication in one line, if it is demanded. -/
def authenticationLines (a : Option Authentication) : List Text :=
  match a with
  | some a =>
    if a.required then
      ["**Authentication:** " ++ a.kind.name ++ " ("
        ++ code (a.headerName.getD "None" ++ ": " ++ a.headerFormat.getD "None") ++ ")", []]
    else []
  | none => []

/-- The example of a request body. -/
def bodyLines (b : Option RequestBody) : List Text :=
  match b with
  | some b => if b.example?.isTruthy then "#### Request Body" :: [] :: exampleBlock b.example? else []
  | none => []

/-- An answer with its example. -/
def responseLines (code : Text) (r : Response) : List Text :=
  let block := if r.example?.isNull then [] else exampleBlock r.example?
  ("**" ++ code ++ "** - " ++ r.description) :: [] :: block

/-- The answers. -/
def responsesLines (rs : Assoc Response) : List Text :=
  if rs.isEmpty then []
  else "#### Responses" :: [] :: rs.flatMap fun (code, r) => responseLines code r

/-- The lines of one endpoint. -/
def endpointLines (e : Endpoint) : List Text :=
  let head : List Text := ["### " ++ e.method ++ " " ++ e.url, []]
  let last : List Text := ["**File:** " ++ code e.file, [], "---", []]
  head
    ++ linesFor (if e.title == e.description then none else e.title) (fun t => ["**" ++ t ++ "**", []])
    ++ linesFor e.description (fun t => [t, []])
    ++ authenticationLines e.authentication
    ++ parameterLines e.parameters
    ++ headerLines (e.requestHeaders.getD [])
    ++ bodyLines e.requestBody
    ++ responsesLines e.responses
    ++ last

/-- The lines of a group of endpoints. -/
def groupLines (tag : Text) (es : List Endpoint) : List Text :=
  ("## " ++ tag) :: [] :: es.flatMap endpointLines

/-- The lines about the API as a whole. -/
def infoLines (d : Documentation) : List Text :=
  let head : List Text := ["# " ++ d.info.title, []]
  let version : List Text := ["**Version:** " ++ d.info.version ++ "  "]
  let last : List Text := ["**Generated:** " ++ d.generatedAt ++ "  ",
    "**Total Endpoints:** " ++ Text.ofInt d.totalEndpoints, []]
  head ++ linesFor d.info.description (fun t => [t, []]) ++ version
    ++ linesFor d.info.baseUrl (fun t => ["**Base URL:** " ++ t ++ "  "]) ++ last

/-- The Markdown page of a documentation. -/
def render (d : Documentation) : Text :=
  let lines := infoLines d ++ (groupByTag d.endpoints).flatMap fun (tag, es) => groupLines tag es
  Text.trimRight CodePoint.isBlank (Text.join "\n" lines) ++ "\n"

end Markdown

end RouteDocs
