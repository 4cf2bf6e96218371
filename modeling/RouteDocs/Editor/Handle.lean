import RouteDocs.Editor.Page
import RouteDocs.Editor.Request
import RouteDocs.Files.Tree
import RouteDocs.Render.Document

/-!
# Answers of the Editor

How the editor grants requests: it reads a documentation from its one file and writes it back.

## Main Definitions

* `Editor.Response`: a status with a reply
* `Editor.load`, `Editor.store`: the reading and the writing of the file
* `Editor.Call.run`: what is asked for, done
* `Editor.handle`: the response to a request

## Design Notes

To replace an endpoint is to load, to change and to store; the file is not locked in between. A
refused request changes nothing. Only a file that is no text and a documentation that cannot be
printed remain without a response.
-/

namespace RouteDocs

namespace Editor

/-- The contents of a response. -/
inductive Reply where
  /-- A page. -/
  | page (text : Text)
  /-- A JSON value. -/
  | value (v : Json)
  /-- The faults of a request. -/
  | issues (es : List Issue)

/-- A response to a client. -/
structure Response where
  /-- The status. -/
  status : Nat
  /-- The contents. -/
  reply : Reply

/-- Why there is no response. -/
inductive Fault where
  /-- The bytes of the file are no text. -/
  | undecodable (e : Utf8.DecodeError)
  /-- The documentation cannot be printed. -/
  | unprintable (e : Utf8.EncodeError)
  deriving DecidableEq

/-- Why an action of the editor stops. -/
inductive Stop where
  /-- The request is refused. -/
  | refused (r : Refusal)
  /-- There is no response. -/
  | failed (f : Fault)
  deriving DecidableEq

/-- An action of the editor, which can change files. -/
abbrev Action (α : Type) := ExceptT Stop (StateM FileTree) α

/-- A reply that tells what is wrong. -/
def detail (t : Text) : Reply := .value (.obj [("detail", .str t)])

/-- The response that refuses a request. -/
def Refusal.response : Refusal → Response
  | notFound => ⟨404, detail "Not Found"⟩
  | methodNotAllowed => ⟨405, detail "Method Not Allowed"⟩
  | unparsableBody => ⟨400, detail "There was an error parsing the body"⟩
  | invalid es => ⟨422, .issues es⟩
  | noSuchEndpoint => ⟨400, detail "Invalid endpoint index"⟩
  | unreadableFile => ⟨500, detail "Failed to read JSON file"⟩
  | unwritableFile => ⟨500, detail "Failed to save JSON file"⟩

/-- The documentation of the file. -/
def load (file : FilePath) : Action Documentation := do
  match (← get).readText file with
  | .error (.undecodable e) => throw (.failed (.undecodable e))
  | .error _ => throw (.refused .unreadableFile)
  | .ok t =>
    match Documentation.read t with
    | .ok d => pure d
    | .error _ => throw (.refused .unreadableFile)

/-- Writes a documentation to the file. -/
def store (file : FilePath) (d : Documentation) : Action Unit := do
  match d.print with
  | .error e => throw (.failed (.unprintable e))
  | .ok t => fun tree =>
    match FileTree.writeText file t tree with
    | (.ok _, tree) => (.ok (), tree)
    | (.error _, tree) => (.error (.refused .unwritableFile), tree)

/-- The documentation with another endpoint at a number, if there is one. -/
def replaceEndpoint? (d : Documentation) (index : Int) (e : Endpoint) : Option Documentation :=
  if 0 ≤ index ∧ index < d.endpoints.length then
    some { d with endpoints := d.endpoints.set index.toNat e }
  else none

mutual

/-- A value in which numbers that are not finite are replaced by null. -/
def finite : Json → Json
  | .float x => match x with
    | .finite .. => .float x
    | _ => .null
  | .arr vs => .arr (finiteItems vs)
  | .obj ms => .obj (finiteMembers ms)
  | v => v

/-- Items in which numbers that are not finite are replaced by null. -/
def finiteItems : List Json → List Json
  | [] => []
  | v :: more => finite v :: finiteItems more

/-- Members in which numbers that are not finite are replaced by null. -/
def finiteMembers : List (Text × Json) → List (Text × Json)
  | [] => []
  | (k, v) :: more => (k, finite v) :: finiteMembers more

end

/-- The reply to a request that changed the file. -/
def success : Reply := .value (.obj [("success", .bool true)])

/-- Does what is asked for. -/
def Call.run (file : FilePath) : Call → Action Reply
  | .page => pure (.page Editor.page)
  | .data => do
    let d ← load file
    pure (.value (finite (d.toJson false)))
  | .update index e => do
    let d ← load file
    match replaceEndpoint? d index e with
    | none => throw (.refused .noSuchEndpoint)
    | some d => store file d
    pure success
  | .saveAll d => do
    store file { d with totalEndpoints := d.endpoints.length }
    pure success

/-- The response to a request, and the files after it. -/
def handle (file : FilePath) (r : Request) (tree : FileTree) : Except Fault Response × FileTree :=
  match r.call with
  | .error refusal => (.ok refusal.response, tree)
  | .ok call =>
    match call.run file tree with
    | (.ok reply, tree) => (.ok ⟨200, reply⟩, tree)
    | (.error (.refused refusal), tree) => (.ok refusal.response, tree)
    | (.error (.failed fault), tree) => (.error fault, tree)

end Editor

end RouteDocs
