import RouteDocs.Command.Scan

/-!
# The Edit Command

Opens the editor for a documentation file.

## Main Definitions

* `Command.edit`: the command
-/

namespace RouteDocs

namespace Command

/-- The parameters of the command. -/
inductive EditParameter where
  | host | portNumber | browser | help
  deriving Repr, DecidableEq

namespace EditParameter

/-- The names of the options. -/
def names : List (OptionName EditParameter) := [
  ⟨"--host", host, .takeValue⟩, ⟨"--port", portNumber, .takeValue⟩,
  ⟨"--open", browser, .turn true⟩, ⟨"--no-open", browser, .turn false⟩,
  ⟨"--help", help, .turn true⟩]

/-- The fault in the value of a parameter, if there is one. -/
def fault? (p : EditParameter) (value : Text) : Option CallFault :=
  match p with
  | portNumber => match readNumber "integer" value with
    | .ok _ => none
    | .error reason => some (.invalidValue ["--port"] reason)
  | _ => none

end EditParameter

/-- The name of the argument for the file. -/
def fileArgument : Text := "JSON_PATH"

/-- The file to edit, which must be there. -/
def editedFile (tree : FileTree) (words : List Text) : Except CallFault FilePath :=
  match words with
  | [] => .error (.missingArgument fileArgument)
  | word :: _ =>
    let refused (reason : Text) : Except CallFault FilePath :=
      .error (.invalidValue [fileArgument] ("File " ++ word.quoted ++ reason))
    let path := FilePath.ofText word
    match if word.isEmpty then none else tree.at? path with
    | none => refused " does not exist."
    | some .directory => refused " is a directory."
    | some (.file _) => .ok path

/-- The command. -/
def edit (words : List Text) : Action Unit := do
  let a ← checked .edit (readOptions EditParameter.names true words)
  if a.isOn .help false then throw (.help .edit)
  checked .edit (a.check EditParameter.fault?)
  let file ← checked .edit (editedFile (← get).tree a.others)
  checked .edit (Arguments.checkOthers a.others.tail)
  let host := (a.value? .host).getD "127.0.0.1"
  let portNumber := ((a.value? .portNumber).bind Text.readInt?).getD 4000
  let url := "http://" ++ host ++ ":" ++ Text.ofInt portNumber
  echo ("Editing " ++ file.toText ++ " at " ++ url ++ " (Ctrl+C to stop)")
  if a.isOn .browser true then request (.launch url)
  request (.serve file.toText host portNumber)

end Command

end RouteDocs
