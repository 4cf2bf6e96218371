import RouteDocs.Files.Tree
import RouteDocs.Infer.Endpoint
import RouteDocs.Route.Ignore

/-!
# Scanning

Finds the route files below a directory and documents what they handle.

## Main Definitions

* `Scan.Options`: what to scan and how to label the result
* `Scan.files`: the route files below a directory
* `Scan.endpointsOf`: the endpoints of one file
* `Scan.poolMap`: the results of tasks that a pool of workers finishes in some order
* `Scan.run`: the documentation of a directory

## Design Notes

Each file is read and documented by itself and the results are put together in the order of the
paths. Several workers finish the files in an order that nobody controls, so `Scan.runFinishing`
takes it as an argument; each result is kept at the place of its file. A file that is no text is
skipped.
-/

namespace RouteDocs

namespace Scan

/-- The directory that is scanned unless another one is named. -/
def defaultRoot : Text := "src/app/api"

/-- What to scan and how to label the result. -/
structure Options where
  /-- The directory. -/
  root : FilePath
  /-- The patterns of files to leave out. -/
  ignore : List Text
  /-- What is said about the API as a whole. -/
  info : Info
  /-- Where clients obtain credentials. -/
  login : Option Text
  /-- How many files are read at once. -/
  workers : Nat

/-- The options of a scan for which nothing is asked. -/
def Options.default : Options :=
  ⟨FilePath.ofText defaultRoot, Route.defaultIgnore, Info.default, none, 1⟩

/-- The options that a JSON form gives, together with what is said about the API as a whole. -/
def Options.decode (info : Info) : Decoder Options :=
  Decoder.object .value fun ms =>
    let path : Decoder FilePath := fun v => (Decoder.text v).map FilePath.ofText
    (Decoded.of fun root ignore login (workers : Int) =>
        Options.mk root ignore info login workers.toNat)
      |>.also (Decoder.member ms "root_path" "root_path" (some Options.default.root) path)
      |>.also (Decoder.member ms "ignore" "ignore" (some Route.defaultIgnore)
        (Decoder.list Decoder.text))
      |>.also (Decoder.member ms "login_endpoint" "login_endpoint" (some none)
        (Decoder.nullable Decoder.text))
      |>.also (Decoder.member ms "workers" "workers" (some 1) Decoder.integer)

/-- Why a scan is not possible. -/
inductive Error where
  /-- The directory does not exist. -/
  | notFound (root : FilePath)
  deriving DecidableEq

/-- The wording of an error. -/
def Error.message : Error → Text
  | .notFound root => "Path '" ++ root.toText ++ "' does not exist"

/-- Whether a path, seen as a text, comes before another one or equals it. -/
def pathLe (p q : FilePath) : Bool :=
  !Text.lt q.toText p.toText

/-- The route files below a directory that no pattern excludes, in the order of their paths. -/
def files (tree : FileTree) (root : FilePath) (ignore : List Text) : List FilePath :=
  ((tree.filesBelow root).filter fun p =>
    Route.handlerNames.contains p.name
      && !Route.isIgnored (tree.absolute p) p root ignore).mergeSort pathLe

/-- A path as seen from the working directory, if it lies below that. -/
def displayPath (tree : FileTree) (path : FilePath) : Text :=
  match (tree.absolute path).relativeTo? (tree.absolute (FilePath.ofText "")) with
  | some below => below.toText
  | none => path.toText

/-- The endpoints of one file, none if it cannot be read. -/
def endpointsOf (tree : FileTree) (root : FilePath) (login : Option Text) (path : FilePath) :
    List Endpoint :=
  match tree.readText path with
  | .error _ => []
  | .ok content =>
    (ParsedRoute.ofFile (displayPath tree path) content (some (displayPath tree root))).map
      (ParsedRoute.endpoint · login)

/-- The results of a pool of workers: when a task is finished, its result is put at the place of
the task, and in the end the places are read from first to last. -/
def poolMap {α β : Type} (f : α → β) (tasks : List α) (finished : List Nat) : List β :=
  let places : List (Option β) := tasks.map fun _ => none
  (finished.foldl (fun places i => places.set i (tasks[i]?.map f)) places).filterMap id

/-- The documentation of a directory, made at a given time; several workers finish a number of
files in a given order. -/
def runFinishing (finishing : Nat → List Nat) (tree : FileTree) (options : Options) (now : Text) :
    Except Error Documentation :=
  if !tree.pathExists options.root then .error (.notFound options.root)
  else
    let paths := files tree options.root options.ignore
    let document := endpointsOf tree options.root options.login
    let endpoints := (if 1 < options.workers then poolMap document paths (finishing paths.length)
      else paths.map document).flatten
    .ok ⟨options.info, endpoints, endpoints.length, now⟩

/-- The documentation of a directory, made at a given time. -/
def run (tree : FileTree) (options : Options) (now : Text) : Except Error Documentation :=
  runFinishing List.range tree options now

end Scan

end RouteDocs
