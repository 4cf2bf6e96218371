import RouteDocs.Handler.Context
import RouteDocs.Handler.DocComment
import RouteDocs.Text.Pattern

/-!
# Titles and Descriptions

The title and description of a handler: from the documentation comment attached to it, and where
that says nothing, from its method and URL.

## Main Definitions

* `Title.documented?`: what the documentation comment says
* `Title.synthesized`: a title and description made from method and URL
* `Title.infer`: the title and description of a handler

## Design Notes

In a documentation comment the tags `@api-title`, `@api-description` and `@description` come
first, the last one of a kind counting; the free text before the first tag is used otherwise.
-/

namespace RouteDocs

/-- The content of a pair of texts unless it is empty. -/
def Text.nonempty? (t : Text) : Option Text :=
  if t.isEmpty then none else some t

namespace Title

/-- A line of a documentation comment: a tag with its value, or free text. -/
inductive Line where
  /-- A tag, in lower case, with its value. -/
  | tagged (tag value : Text)
  /-- Free text. -/
  | free (t : Text)
  deriving Repr, DecidableEq

/-- Characters of tag names. -/
def isTagPart (c : CodePoint) : Bool :=
  c.isWord || c == '-'

/-- Tells a tag line from free text. -/
def classify (line : Text) : Line :=
  match line with
  | c :: r =>
    let tag := r.takeWhile isTagPart
    if c == '@' && !tag.isEmpty then
      .tagged (Text.lower tag) (Text.strip (r.dropWhile isTagPart))
    else .free line
  | [] => .free line

/-- The value of the last tag line of one of several tags that has a value. -/
def lastValue? (tags : List Text) (lines : List Line) : Option Text :=
  (lines.reverse.findSome? fun
    | .tagged tag value => if tags.contains tag then value.nonempty? else none
    | .free _ => none)

/-- The free text before the first tag line. -/
def freeText : List Line → List Text
  | .free t :: more => t :: freeText more
  | _ => []

/-- The title and description that classified lines give; none at all if they give neither. -/
def ofLines? (lines : List Line) : Option (Option Text × Option Text) :=
  let title := lastValue? ["api-title"] lines
  let description := lastValue? ["api-description", "description"] lines
  match freeText lines with
  | first :: rest =>
    let remaining := (Text.join " " rest).nonempty?.getD first
    some (some (title.getD first), some (description.getD remaining))
  | [] => if title.isNone && description.isNone then none else some (title, description)

/-- The title and description that a documentation comment gives. -/
def documented? (ctx : RouteContext) : Option (Option Text × Option Text) := do
  let offset ← ctx.handlerOffset
  let comment ← DocComment.before? ctx.content offset
  ofLines? ((DocComment.lines comment.body).map classify)

/-- Whether a segment of a URL is a placeholder. -/
def isDynamic (segment : Text) : Bool :=
  segment.head? == some ('\x7b' : CodePoint) && segment.getLast? == some ('\x7d' : CodePoint)

/-- What a method does, as the first word of a title. -/
def action (method : Text) (single : Bool) : Text :=
  if method == "GET" then if single then "Get" else "List"
  else if method == "POST" then "Create"
  else if method == "PUT" || method == "PATCH" then "Update"
  else if method == "DELETE" then "Delete"
  else if method == "HEAD" then "Check"
  else if method == "OPTIONS" then "Options"
  else method.capitalize

/-- What an action does, as the first words of a description. -/
def actionPhrase (action : Text) : Text :=
  if action == "List" then "Retrieve a list of"
  else if action == "Get" then "Retrieve"
  else if action == "Options" then "Describe the options of"
  else action

/-- A title and a description made from method and URL. -/
def synthesized (ctx : RouteContext) : Text × Text :=
  let path : Text := if apiRoot.isPrefixOf ctx.url then ctx.url.drop apiRoot.length else ctx.url
  let segments := (path.splitOn '/').filter fun s => !s.isEmpty
  let named := segments.filter fun s => !isDynamic s
  let hasId := segments.any isDynamic
  let resource := named.head?.getD "root"
  let part := named[1]?
  let action := action ctx.method (part.isSome || hasId)
  let byId : Text := if hasId then " by ID" else []
  let words := [action, resource.upperFirst] ++ part.toList.map Text.upperFirst
  let subject := (Text.join " " (named.take 2)).nonempty?.getD resource
  (Text.join " " words ++ byId, actionPhrase action ++ " " ++ subject ++ byId)

/-- The title and description of a handler. -/
def infer (ctx : RouteContext) : Text × Text :=
  let (title, description) := synthesized ctx
  match documented? ctx with
  | none => (title, description)
  | some (t, d) => (t.getD title, (d.orElse fun _ => t).getD description)

end Title

end RouteDocs
