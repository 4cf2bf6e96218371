import RouteDocs.Render.Document
import RouteDocs.Render.Markdown
import RouteDocs.Render.OpenApi
import RouteDocs.Render.React

/-!
# Output Formats

The formats in which a documentation can be written.

## Main Definitions

* `Format`: the formats
* `Format.defaultOutput`: where a format is written unless something else is said
* `Format.render`: the text of a documentation in a format
-/

namespace RouteDocs

/-- An output format. -/
inductive Format where
  | json | jsonFolder | markdown | openApi | react
  deriving Repr, DecidableEq, Inhabited

namespace Format

/-- The formats in the order in which they are offered. -/
def all : List Format := [json, jsonFolder, markdown, openApi, react]

/-- The name of a format. -/
def name : Format → Text
  | json => "json"
  | jsonFolder => "json-folder"
  | markdown => "markdown"
  | openApi => "swagger"
  | react => "react"

/-- The format with a name. -/
def ofName? (t : Text) : Option Format :=
  all.find? fun f => f.name == t

/-- Where a format is written unless something else is said. -/
def defaultOutput : Format → Text
  | json => "api-documentation.json"
  | jsonFolder => "public/api-documentation"
  | markdown => "api-documentation.md"
  | openApi => "swagger.json"
  | react => "ApiDocsPage.tsx"

/-- The text of a documentation in a format; the OpenAPI document can be in YAML. Everything that
has no text of its own is rendered as the JSON document. -/
def render (f : Format) (yaml : Bool) (d : Documentation) : Except Utf8.EncodeError Text :=
  match f with
  | markdown => .ok (Markdown.render d)
  | openApi => .ok (if yaml then OpenApi.renderYaml d else OpenApi.renderJson d)
  | react => React.render d
  | _ => d.print

end Format

end RouteDocs
