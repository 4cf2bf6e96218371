import RouteDocs.Docs.Codec
import RouteDocs.Files.Tree
import RouteDocs.Json.Printer
import RouteDocs.Render.Grouping
import RouteDocs.Text.Case

/-!
# JSON Folder

A documentation as a directory with an index and one file for each endpoint, in one directory for
each category.

## Main Definitions

* `Folder.endpointId`, `Folder.directoryName`: the names of files and directories
* `Folder.index`, `Folder.endpointFile`: what the files hold
* `Folder.write`: writes the directory
-/

namespace RouteDocs

namespace Folder

/-- Letters and digits of ASCII. -/
def isAlphanumeric (c : CodePoint) : Bool := c.isAsciiLetter || c.isAsciiDigit

/-- A hyphen. -/
def isHyphen (c : CodePoint) : Bool := c == '-'

/-- The name of an endpoint: its method and URL with hyphens for everything unusual. -/
def endpointId (e : Endpoint) : Text :=
  let url : Text := e.url.map fun c => if isAlphanumeric c then c else '-'
  Text.trim isHyphen (Text.lower e.method ++ "-" ++ url)

/-- The name of the directory of a category. -/
def directoryName (category : Text) : Text :=
  let name := Text.trim isHyphen (category.map fun c =>
    if isAlphanumeric c || c == '_' || c == '.' || c == '-' then c else '-')
  if name.isEmpty then "general" else name

/-- The entry of an endpoint in the index. -/
def indexEntry (e : Endpoint) : Json :=
  .obj [
    ("id", .str (endpointId e)),
    ("method", .str e.method),
    ("url", .str e.url),
    ("title", .ofText? e.title),
    ("description", .ofText? e.description),
    ("category", .str e.category),
    ("file", .str e.file)]

/-- The index of a documentation. -/
def index (d : Documentation) : Json :=
  .obj [
    ("info", d.info.toJson false),
    ("generatedAt", .str d.generatedAt),
    ("totalEndpoints", .int d.totalEndpoints),
    ("endpoints", .arr (d.endpoints.map indexEntry))]

/-- The data of an endpoint. -/
def endpointFile (e : Endpoint) : Json :=
  let first : Assoc Json := [("id", .str (endpointId e))]
  let last : Assoc Json := [("category", .str e.category)]
  match e.toJson false with
  | .obj members => .obj (first ++ members ++ last)
  | v => v

/-- Writes the file of an endpoint into a directory. -/
def writeEndpoint (directory : FilePath) (e : Endpoint) : FileAction FilePath := do
  let file := directory.join (endpointId e ++ ".json")
  FileTree.writeText file (Json.print .asciiIndented (endpointFile e))
  pure file

/-- Writes the endpoints of a category. -/
def writeCategory (base : FilePath) (category : Text) (es : List Endpoint) :
    FileAction (List FilePath) := do
  let directory := base.join (directoryName category)
  FileTree.makeDirs directory
  es.mapM (writeEndpoint directory)

/-- Writes a documentation into a directory and tells the files written. -/
def write (d : Documentation) (base : FilePath) : FileAction (List FilePath) := do
  FileTree.makeDirs base
  let file := base.join "index.json"
  FileTree.writeText file (Json.print .asciiIndented (index d))
  let groups ← (groupByCategory d.endpoints).mapM fun (category, es) =>
    writeCategory base category es
  pure (file :: groups.flatten)

end Folder

end RouteDocs
