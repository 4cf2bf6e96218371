import RouteDocs.Docs.Codec
import RouteDocs.Files.Tree
import RouteDocs.Json.Printer
import RouteDocs.Json.Reader
import RouteDocs.Render.Format
import RouteDocs.Yaml.Value

/-!
# Settings

The settings that a file can give for scans.

## Main Definitions

* `Settings`: the settings, each of which may be absent
* `Settings.isWord`: the keys under which one of several words is expected
* `Settings.ofText`: the settings that a text in YAML or JSON gives
* `Settings.load`: the settings of a file
* `Settings.print`, `Settings.save`: settings as JSON

## Design Notes

A text that is no YAML is read as JSON. A file that is missing or gives no valid settings counts as
one that gives none. Reading fails only where the bytes are no text, where a YAML scalar denotes
nothing, such as the day of a thirteenth month, and where a text that is no YAML opens too many
brackets to be read as JSON.
-/

namespace RouteDocs

/-- Settings for scans. -/
structure Settings where
  /-- The directory to scan. -/
  path : Option Text
  /-- Where to write the documentation. -/
  output : Option Text
  /-- In which format to write it. -/
  format : Option Format
  /-- Whether to tell more. -/
  verbose : Bool
  /-- The patterns of files to leave out. -/
  ignore : Option (List Text)
  /-- Where the API is found. -/
  baseUrl : Option Text
  /-- The title of the API. -/
  title : Option Text
  /-- The version of the API. -/
  version : Option Text
  /-- The description of the API. -/
  description : Option Text
  /-- How clients identify themselves. -/
  authentication : Option InfoAuthentication

namespace Settings

/-- Where the settings are unless another file is named. -/
def defaultFile : Text := ".api-scanner.json"

/-- Settings that say nothing. -/
def default : Settings := ⟨none, none, none, false, none, none, none, none, none, none⟩

/-- Settings as a JSON value. -/
def toJson (keepNulls : Bool) (s : Settings) : Json :=
  .record keepNulls [
    ("path", .ofText? s.path),
    ("output", .ofText? s.output),
    ("format", .ofText? (s.format.map Format.name)),
    ("verbose", .bool s.verbose),
    ("ignore", s.ignore.elim .null Json.ofTexts),
    ("baseUrl", .ofText? s.baseUrl),
    ("title", .ofText? s.title),
    ("version", .ofText? s.version),
    ("description", .ofText? s.description),
    ("authentication", s.authentication.elim .null (InfoAuthentication.toJson keepNulls))]

/-- The settings that a JSON form gives. -/
def decode (origin : Origin) : Decoder Settings :=
  Decoder.object origin fun ms =>
    let text (outer inner : Text) : Decoded (Option Text) :=
      Decoder.member ms outer inner (some none) (Decoder.nullable Decoder.text)
    (Decoded.of Settings.mk)
      |>.also (text "path" "path")
      |>.also (text "output" "output")
      |>.also (Decoder.member ms "format" "format" (some none)
        (Decoder.nullable (Decoder.enumeration Format.ofName?)))
      |>.also (Decoder.member ms "verbose" "verbose" (some false) Decoder.truth)
      |>.also (Decoder.member ms "ignore" "ignore" (some none)
        (Decoder.nullable (Decoder.list Decoder.text)))
      |>.also (text "baseUrl" "base_url")
      |>.also (text "title" "title")
      |>.also (text "version" "version")
      |>.also (text "description" "description")
      |>.also (Decoder.member ms "authentication" "authentication" (some none)
        (Decoder.nullable (InfoAuthentication.decode origin)))

/-- The JSON text of settings, without what is absent. -/
def print (s : Settings) : Text :=
  Json.print .asciiIndented (s.toJson false) ++ ("\n" : Text)

/-- How deep the values of settings are nested. -/
def depth : Nat := 3

/-- The settings that a value gives: none unless it is an object and valid throughout. -/
def ofJson (v : Json) : Settings :=
  match v with
  | .obj _ => ((decode .value v).toOption).getD default
  | _ => default

/-- The keys under which one of several words is expected: the format, and the kind of
authentication under its two names. -/
def isWord (key : Text) : Bool := (["format", "type", "auth_type"] : List Text).contains key

/-- The settings that a text gives. -/
def ofText (t : Text) : Except Yaml.ScalarFault Settings :=
  match Yaml.read depth t with
  | .ok v => .ok (ofJson (v.toJson isWord))
  | .error (.scalar fault) => .error fault
  | .error .malformed =>
    match Json.read .fragment t with
    | .ok v => .ok (ofJson v)
    | .error ⟨.tooDeep, place⟩ => .error (.tooDeep (t[place]? == some ('[' : CodePoint)))
    | .error _ => .ok default

/-- Why a file can be neither read nor disregarded. -/
inductive LoadError where
  /-- The text denotes nothing. -/
  | scalar (fault : Yaml.ScalarFault)
  /-- The name of the file is too long, or its bytes are no text. -/
  | file (e : FileError)
  deriving DecidableEq

/-- The wording of an error. -/
def LoadError.message : LoadError → Text
  | .scalar fault => fault.message
  | .file e => e.message

/-- The settings of a file. -/
def load (tree : FileTree) (path : FilePath) : Except LoadError Settings :=
  match tree.readText path with
  | .ok t => (ofText t).mapError .scalar
  | .error (.undecodable e) => .error (.file (.undecodable e))
  | .error (.nameTooLong p) => .error (.file (.nameTooLong p))
  | .error _ => .ok default

/-- Writes settings to a file. -/
def save (s : Settings) (path : FilePath) : FileAction Unit :=
  FileTree.writeText path s.print

end Settings

end RouteDocs
