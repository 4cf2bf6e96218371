import RouteDocs.Command.Scan

/-!
# The Setup Command

Asks for settings, saves them and scans, if that is wanted.

## Main Definitions

* `Command.askPlan`: what is to be scanned and written, as answered
* `Command.setup`: the command
-/

namespace RouteDocs

namespace Command

/-- The parameters of the command. -/
inductive SetupParameter where
  | settings | help
  deriving Repr, DecidableEq

/-- The names of the options. -/
def SetupParameter.names : List (OptionName SetupParameter) := [
  ⟨"-c", settings, .takeValue⟩, ⟨"--config", settings, .takeValue⟩, ⟨"--help", help, .turn true⟩]

/-- Asks what is to be scanned and written. -/
def askPlan : Action ScanPlan := do
  let path ← ask "Path to scan for API routes" Scan.defaultRoot .ok
  let choices := Text.join ", " (Format.all.map Format.name)
  let format ← ask ("Output format (" ++ choices ++ ")") Format.json.name readFormat
  let output ← ask "Output path" format.defaultOutput .ok
  let verbose ← confirm "Enable verbose output?" false
  pure { path, output, format, verbose }

/-- The settings that a plan amounts to. -/
def ScanPlan.settings (plan : ScanPlan) : Settings :=
  { Settings.default with
    path := some plan.path
    output := some plan.output
    format := some plan.format
    verbose := plan.verbose }

/-- The call of the scan command that a plan amounts to. -/
def ScanPlan.callText (plan : ScanPlan) : Text :=
  Name.scan.call ++ (" --path " : Text) ++ plan.path ++ (" --format " : Text) ++ plan.format.name
    ++ (" --output " : Text) ++ plan.output

/-- The command. -/
def setup (words : List Text) (now : Text) : Action Unit := do
  let a ← checked .init (readOptions SetupParameter.names true words)
  if a.isOn .help false then throw (.help .init)
  checked .init (Arguments.checkOthers a.others)
  let file := FilePath.ofText ((a.value? .settings).getD Settings.defaultFile)
  echo "API Scanner - Interactive Setup Wizard\n"
  let plan ← askPlan
  if ← confirm ("Save these settings to " ++ file.toText ++ "?") true then
    onFiles Failure.file (plan.settings.save file)
    echo ("Configuration saved to " ++ file.toText)
  if ← confirm "Run API Scanner now?" true then
    request (.logging plan.verbose)
    plan.run plan.settings 1 now
  else
    echo "To run later, use:"
    echo ("  " ++ plan.callText)

end Command

end RouteDocs
