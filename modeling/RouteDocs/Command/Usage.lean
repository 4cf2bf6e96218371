import RouteDocs.Text.Quoted
import RouteDocs.Text.Similarity

/-!
# Usage of the Program

The commands of the program, how they are called, and what is said of a wrong call.

## Main Definitions

* `Command.Name`: the program and its commands
* `Command.CallFault`: what can be wrong with a call
* `Command.UsageError`: a fault, with the command whose usage is shown
* `Command.UsageError.text`: what is said of it
-/

namespace RouteDocs

namespace Command

/-- The program itself and its commands. -/
inductive Name where
  | program | scan | init | edit
  deriving Repr, DecidableEq

namespace Name

/-- The commands of the program. -/
def commands : List Name := [scan, init, edit]

/-- The word for a command. -/
def word : Name → Text
  | program => "api-scanner"
  | scan => "scan"
  | init => "init"
  | edit => "edit"

/-- The command that a word stands for. -/
def ofWord? (t : Text) : Option Name :=
  commands.find? fun c => c.word == t

/-- What is typed to call a command. -/
def call : Name → Text
  | program => program.word
  | c => program.word ++ (" " : Text) ++ c.word

/-- What can follow the call of a command. -/
def operands : Name → Text
  | program => "[OPTIONS] [COMMAND] [ARGS]..."
  | edit => "[OPTIONS] JSON_PATH"
  | _ => "[OPTIONS]"

/-- The line that shows how a command is called. -/
def usage (c : Name) : Text :=
  "Usage: " ++ c.call ++ " " ++ c.operands

end Name

/-- What can be wrong with a call. -/
inductive CallFault where
  /-- No option has this name. -/
  | noSuchOption (name : Text) (similar : List Text)
  /-- No command has this name. -/
  | noSuchCommand (name : Text) (similar : List Text)
  /-- An option lacks its value. -/
  | needsValue (name : Text)
  /-- An option has a value that it does not take. -/
  | takesNoValue (name : Text)
  /-- The value of a parameter is refused. -/
  | invalidValue (parameter : List Text) (reason : Text)
  /-- A parameter is absent that must be there. -/
  | missingArgument (parameter : Text)
  /-- There are more arguments than the command takes. -/
  | extraArguments (arguments : List Text)
  deriving Repr, DecidableEq

/-- What is suggested to someone who misspelt a word. -/
def suggestion (kind : Text) (similar : List Text) : Text :=
  match similar with
  | [] => []
  | [one] => " Did you mean " ++ one.quoted ++ "?"
  | several => " (Possible " ++ kind ++ ": " ++ Text.join ", " (several.map Text.quoted) ++ ")"

/-- The wording of a fault. -/
def CallFault.message : CallFault → Text
  | noSuchOption name similar =>
    "No such option " ++ name.quoted ++ "." ++ suggestion "options" similar
  | noSuchCommand name similar =>
    "No such command " ++ name.quoted ++ "." ++ suggestion "commands" similar
  | needsValue name => "Option " ++ name.quoted ++ " requires an argument."
  | takesNoValue name => "Option " ++ name.quoted ++ " does not take a value."
  | invalidValue parameter reason =>
    let hint := Text.join " / " (parameter.map fun n => ("'" : Text) ++ n ++ ("'" : Text))
    "Invalid value for " ++ hint ++ ": " ++ reason
  | missingArgument parameter => "Missing argument '" ++ parameter ++ "'."
  | extraArguments arguments =>
    let plural : Text := if arguments.length == 1 then [] else "s"
    "Got unexpected extra argument" ++ plural ++ " (" ++ Text.join " " arguments ++ ")"

/-- A fault in a call. -/
structure UsageError where
  /-- The command whose usage is shown, if any is. -/
  command : Option Name
  /-- What is wrong. -/
  fault : CallFault
  deriving Repr, DecidableEq

/-- Whether the usage of the command is shown with a fault. -/
def CallFault.showsUsage : CallFault → Bool
  | needsValue _ | takesNoValue _ => false
  | _ => true

/-- A fault in the call of a command. -/
def CallFault.within (command : Name) (fault : CallFault) : UsageError :=
  ⟨if fault.showsUsage then some command else none, fault⟩

/-- What is said of a wrong call. -/
def UsageError.text (e : UsageError) : Text :=
  let usage : Text := match e.command with
    | some c => c.usage ++ ("\nTry '" : Text) ++ c.call ++ (" --help' for help.\n\n" : Text)
    | none => []
  usage ++ "Error: " ++ e.fault.message ++ "\n"

end Command

end RouteDocs
