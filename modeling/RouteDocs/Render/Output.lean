import RouteDocs.Render.Folder
import RouteDocs.Render.Format

/-!
# Writing Documentation

Writes a documentation in a format to where it is wanted.

## Main Definitions

* `OutputError`: why nothing, or not everything, is written
* `Format.write`: writes a documentation and tells the files written
-/

namespace RouteDocs

/-- Why a documentation is not written. -/
inductive OutputError where
  /-- A text of the documentation cannot be encoded. -/
  | unprintable (e : Utf8.EncodeError)
  /-- A file cannot be written. -/
  | file (e : FileError)
  deriving DecidableEq

/-- The wording of an error. -/
def OutputError.message : OutputError → Text
  | .unprintable e => "Error serializing to JSON: UnicodeEncodeError: " ++ e.message
  | .file e => e.message

/-- An operation that writes and can change a tree, also when it fails. -/
abbrev OutputAction (α : Type) := ExceptT OutputError (StateM FileTree) α

/-- An operation on files as one that writes. -/
def OutputAction.ofFile {α : Type} (action : FileAction α) : OutputAction α :=
  fun tree =>
    match action tree with
    | (.ok a, tree) => (.ok a, tree)
    | (.error e, tree) => (.error (.file e), tree)

namespace Format

/-- Whether a path asks for YAML. -/
def isYamlPath (output : FilePath) : Bool :=
  output.suffix == ".yaml" || output.suffix == ".yml"

/-- Writes a documentation: a directory for a JSON folder, else one file, whose directory is made
if it is not there. -/
def write (f : Format) (d : Documentation) (output : FilePath) : OutputAction (List FilePath) :=
  match f with
  | jsonFolder => .ofFile (Folder.write d output)
  | _ => do
    let content ← match f.render (isYamlPath output) d with
      | .ok t => pure t
      | .error e => throw (.unprintable e)
    .ofFile do
      FileTree.makeDirs output.parent
      FileTree.writeText output content
      pure [output]

end Format

end RouteDocs
