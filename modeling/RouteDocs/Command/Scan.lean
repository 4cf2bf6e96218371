import RouteDocs.Command.Console
import RouteDocs.Command.Option
import RouteDocs.Scan

/-!
# The Scan Command

Scans route files as the options and the settings say and writes the documentation.

## Main Definitions

* `Command.ScanCall`: a call of the command
* `Command.ScanPlan`: what is scanned and written, settled from a call and the settings
* `Command.ScanPlan.run`: scans and writes
* `Command.scan`: the command

## Design Notes

An option wins over the settings, and those over the defaults; an empty text counts as absent. An
output named in the settings belongs to the format named there, so another format does not use it.
-/

namespace RouteDocs

namespace Command

/-- The parameters of the command. -/
inductive ScanParameter where
  | path | output | format | settings | workers | verbose | help
  deriving Repr, DecidableEq

namespace ScanParameter

/-- The names of the options. -/
def names : List (OptionName ScanParameter) := [
  ⟨"-p", path, .takeValue⟩, ⟨"--path", path, .takeValue⟩,
  ⟨"-o", output, .takeValue⟩, ⟨"--output", output, .takeValue⟩,
  ⟨"-f", format, .takeValue⟩, ⟨"--format", format, .takeValue⟩,
  ⟨"-c", settings, .takeValue⟩, ⟨"--config", settings, .takeValue⟩,
  ⟨"-w", workers, .takeValue⟩, ⟨"--workers", workers, .takeValue⟩,
  ⟨"-v", verbose, .turn true⟩, ⟨"--verbose", verbose, .turn true⟩,
  ⟨"--help", help, .turn true⟩]

/-- The names of the option that sets a parameter. -/
def namesOf (p : ScanParameter) : List Text :=
  (names.filter fun n => n.parameter = p).map OptionName.name

end ScanParameter

/-- What is said of a word that names no format. -/
def noFormat (t : Text) : Text :=
  t.quoted ++ (" is not one of " : Text) ++ Text.join ", " (Format.all.map (·.name.quoted))
    ++ ("." : Text)

/-- The format that a word names. -/
def readFormat (t : Text) : Except Text Format :=
  match Format.ofName? t with
  | some f => .ok f
  | none => .error (noFormat t)

/-- The integer that a word writes, or what is said of it. -/
def readNumber (kind t : Text) : Except Text Int :=
  match t.readInt? with
  | some i => .ok i
  | none => .error (t.quoted ++ (" is not a valid " : Text) ++ kind ++ ("." : Text))

/-- A number of workers, of which there is at least one. -/
def readWorkers (t : Text) : Except Text Nat :=
  match readNumber "integer range" t with
  | .error reason => .error reason
  | .ok i =>
    if i < 1 then .error (Text.ofInt i ++ (" is not in the range x>=1." : Text)) else .ok i.toNat

/-- The fault in the value of a parameter, if there is one. -/
def ScanParameter.fault? (p : ScanParameter) (value : Text) : Option CallFault :=
  let refused {α : Type} : Except Text α → Option CallFault
    | .ok _ => none
    | .error reason => some (.invalidValue p.namesOf reason)
  match p with
  | .format => refused (readFormat value)
  | .workers => refused (readWorkers value)
  | _ => none

/-- A call of the command. -/
structure ScanCall where
  /-- The directory to scan. -/
  path : Option Text
  /-- Where to write. -/
  output : Option Text
  /-- In which format. -/
  format : Option Format
  /-- The file with the settings. -/
  settings : Text
  /-- How many files are read at once. -/
  workers : Nat
  /-- Whether to tell more. -/
  verbose : Bool

/-- A call without options. -/
def ScanCall.plain : ScanCall := ⟨none, none, none, Settings.defaultFile, 1, false⟩

/-- The call that some words make. -/
def ScanCall.ofWords (words : List Text) : Action ScanCall := do
  let a ← checked .scan (readOptions ScanParameter.names true words)
  if a.isOn .help false then throw (.help .scan)
  checked .scan (a.check ScanParameter.fault?)
  checked .scan (Arguments.checkOthers a.others)
  pure {
    path := a.value? .path
    output := a.value? .output
    format := (a.value? .format).bind Format.ofName?
    settings := (a.value? .settings).getD Settings.defaultFile
    workers := ((a.value? .workers).bind fun t => (readWorkers t).toOption).getD 1
    verbose := a.isOn .verbose false }

/-- What is scanned and written. -/
structure ScanPlan where
  /-- The directory to scan. -/
  path : Text
  /-- Where to write. -/
  output : Text
  /-- In which format. -/
  format : Format
  /-- Whether to tell more. -/
  verbose : Bool

/-- The first text that is not empty, or a default. -/
def firstText (ts : List (Option Text)) (default : Text) : Text :=
  (ts.findSome? fun t => t.filter fun t => !t.isEmpty).getD default

/-- What a call and the settings amount to. -/
def ScanPlan.ofCall (a : ScanCall) (s : Settings) : ScanPlan :=
  let ownFormat := s.format.getD .json
  let format := a.format.getD ownFormat
  let ownOutput := if format == ownFormat then s.output else none
  { path := firstText [a.path, s.path] Scan.defaultRoot
    output := firstText [a.output, ownOutput] format.defaultOutput
    format
    verbose := a.verbose || s.verbose }

/-- What is said about the API, as far as the settings say something. -/
def infoOf (s : Settings) : Info :=
  { title := s.title.getD Info.defaultTitle
    version := s.version.getD Info.defaultVersion
    description := some (s.description.getD Info.defaultDescription)
    baseUrl := s.baseUrl
    authentication := s.authentication }

/-- The options of a scan. -/
def scanOptions (path : Text) (s : Settings) (workers : Nat) : Scan.Options :=
  { root := FilePath.ofText path
    ignore := s.ignore.getD Route.defaultIgnore
    info := infoOf s
    login := s.authentication.bind InfoAuthentication.endpoint
    workers }

/-- A size in kilobytes with two decimal places, a half rounded to the even neighbour. -/
def kilobytes (bytes : Nat) : Text :=
  let hundredths := Binary64.divNearestEven (bytes * 25) 256
  let places := hundredths % 100
  let padding : Text := if places < 10 then "0" else []
  Text.ofNat (hundredths / 100) ++ ("." : Text) ++ padding ++ Text.ofNat places

/-- Tells where the documentation is and how large it is. -/
def reportFile (path : FilePath) : Action Unit := do
  let tree := (← get).tree
  echo ("Documentation saved to " ++ (tree.absolute path).toText)
  let size := ((tree.readBytes path).toOption.getD []).length
  echo ("Size: " ++ kilobytes size ++ " KB")

/-- Scans and writes as planned. -/
def ScanPlan.run (plan : ScanPlan) (s : Settings) (workers : Nat) (now : Text) : Action Unit := do
  if plan.verbose then
    echo "Configuration:"
    echo ("  Path: " ++ plan.path)
    echo ("  Output: " ++ plan.output)
    echo ("  Format: " ++ plan.format.name)
  match Scan.run (← get).tree (scanOptions plan.path s workers) now with
  | .error e => throw (.refused e.message)
  | .ok d => do
    echo ("Found " ++ Text.ofNat d.totalEndpoints.toNat ++ " endpoints.")
    let written ← onFiles Failure.output (plan.format.write d (FilePath.ofText plan.output))
    if plan.format == .jsonFolder then
      echo ("Documentation saved to " ++ plan.output ++ " (" ++ Text.ofNat written.length
        ++ " files)")
    else written.forM reportFile

/-- The command for a call. -/
def ScanCall.run (a : ScanCall) (now : Text) : Action Unit := do
  let s ← match Settings.load (← get).tree (FilePath.ofText a.settings) with
    | .ok s => pure s
    | .error e => throw (.failed (.settings e))
  let plan := ScanPlan.ofCall a s
  request (.logging plan.verbose)
  echo ("Scanning API routes in " ++ plan.path ++ "...")
  plan.run s a.workers now

/-- The command. -/
def scan (words : List Text) (now : Text) : Action Unit := do
  (← ScanCall.ofWords words).run now

end Command

end RouteDocs
