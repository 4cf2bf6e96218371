import RouteDocs.Command.Usage
import RouteDocs.Render.Output
import RouteDocs.Settings
import RouteDocs.Text.Case

/-!
# The Console

What a command sees and changes: the files, what is typed, what is printed, and the requests that
it makes to the outside.

## Main Definitions

* `Command.Console`: the state
* `Command.Action`: a step of a command
* `Command.echo`: prints a line
* `Command.ask`, `Command.confirm`: questions with an answer to be typed
* `Command.Outcome`: how a command ends

## Design Notes

A question is repeated until its answer is accepted, so the lines typed bound the repetitions.
An empty answer stands for the default. What is typed is echoed. Input that ends before the answer
aborts the command.
-/

namespace RouteDocs

namespace Command

/-- A request of a command to the outside. -/
inductive Event where
  /-- To log more or less. -/
  | logging (verbose : Bool)
  /-- To open an address in a browser. -/
  | launch (url : Text)
  /-- To serve the editor of a file. -/
  | serve (file : Text) (host : Text) (portNumber : Int)
  deriving Repr, DecidableEq

/-- What a command sees and changes. -/
structure Console where
  /-- The files. -/
  tree : FileTree
  /-- The lines typed that are not read yet. -/
  input : List Text
  /-- What is printed so far. -/
  output : Text
  /-- The requests so far. -/
  events : List Event

/-- What no message explains to the user. -/
inductive Failure where
  /-- The settings cannot be read. -/
  | settings (e : Settings.LoadError)
  /-- The documentation cannot be written. -/
  | output (e : OutputError)
  /-- A file cannot be written. -/
  | file (e : FileError)
  /-- A line cannot be printed. -/
  | line (e : Utf8.EncodeError)
  deriving DecidableEq

/-- The wording of a failure. -/
def Failure.message : Failure → Text
  | settings e => e.message
  | output e => e.message
  | file e => e.message
  | line e => e.message

/-- Why a command ends early. -/
inductive Stop where
  /-- Its usage was asked for. -/
  | help (c : Name)
  /-- The call is wrong. -/
  | usage (e : UsageError)
  /-- It cannot do its work. -/
  | refused (message : Text)
  /-- The input ended. -/
  | aborted
  /-- It failed. -/
  | failed (f : Failure)
  deriving DecidableEq

/-- A step of a command. -/
abbrev Action (α : Type) := ExceptT Stop (StateM Console) α

/-- Prints a line. -/
def echo (line : Text) : Action Unit := do
  match Utf8.firstSurrogates 0 line with
  | some e => throw (.failed (.line e))
  | none => modify fun c => { c with output := c.output ++ line ++ ("\n" : Text) }

/-- Makes a request to the outside. -/
def request (e : Event) : Action Unit :=
  modify fun c => { c with events := c.events ++ [e] }

/-- Runs an operation on the files. -/
def onFiles {α ε : Type} (failure : ε → Failure) (action : ExceptT ε (StateM FileTree) α) :
    Action α := fun c =>
  match action c.tree with
  | (.ok a, tree) => (.ok a, { c with tree })
  | (.error e, tree) => (.error (.failed (failure e)), { c with tree })

/-- Ends with a fault in the call, if there is one. -/
def checked {α : Type} (command : Name) (result : Except CallFault α) : Action α :=
  match result with
  | .ok a => pure a
  | .error fault => throw (.usage (fault.within command))

/-- Asks a question until an answer is accepted: what is printed, and the answer with the lines
left, unless the input ends. -/
def askWith {α : Type} (question : Text) (accept : Text → Except Text α) :
    List Text → Text × Option (α × List Text)
  | [] => (question, none)
  | line :: more =>
    let shown : Text := question ++ line ++ ("\n" : Text)
    match accept line with
    | .ok a => (shown, some (a, more))
    | .error reason =>
      let (rest, result) := askWith question accept more
      (shown ++ ("Error: " : Text) ++ reason ++ ("\n" : Text) ++ rest, result)

/-- Asks a question until an answer is accepted. -/
def askUntil {α : Type} (question : Text) (accept : Text → Except Text α) : Action α := fun c =>
  match askWith question accept c.input with
  | (shown, some (a, input)) => (.ok a, { c with input, output := c.output ++ shown })
  | (shown, none) => (.error .aborted, { c with input := [], output := c.output ++ shown })

/-- Asks for a value, for which there is a default. -/
def ask {α : Type} (question default : Text) (accept : Text → Except Text α) : Action α :=
  askUntil (question ++ (" [" : Text) ++ default ++ ("]: " : Text)) fun line =>
    accept (if line.isEmpty then default else line)

/-- The answer yes or no that a word stands for. -/
def readAnswer (default : Bool) (line : Text) : Except Text Bool :=
  let word := line.lower.strip
  if word == "y" || word == "yes" then .ok true
  else if word == "n" || word == "no" then .ok false
  else if word.isEmpty then .ok default
  else .error "invalid input"

/-- Asks a question to be answered by yes or no. -/
def confirm (question : Text) (default : Bool) : Action Bool :=
  let choices : Text := if default then "Y/n" else "y/N"
  askUntil (question ++ (" [" : Text) ++ choices ++ ("]: " : Text)) (readAnswer default)

/-- The lines that are typed: a line end at the very end opens no further line. -/
def typedLines (input : Text) : List Text :=
  let pieces := input.universalNewlines.splitOn '\n'
  if pieces.getLast? == some [] then pieces.dropLast else pieces

/-- How a command ends. -/
structure Outcome where
  /-- The exit code. -/
  exitCode : Nat
  /-- What is printed on the error channel. -/
  errorOutput : Text
  /-- The failure that no message explains. -/
  failure : Option Failure

/-- How a command ends that stops early. -/
def Stop.outcome : Stop → Outcome
  | help _ => ⟨0, [], none⟩
  | usage e => ⟨2, e.text, none⟩
  | refused message => ⟨1, "Error: " ++ message ++ "\n", none⟩
  | aborted => ⟨1, "Aborted!\n", none⟩
  | failed f => ⟨1, [], some f⟩

/-- Runs a command to its end. -/
def Action.finish (action : Action Unit) (c : Console) : Outcome × Console :=
  match action c with
  | (.ok _, c) => (⟨0, [], none⟩, c)
  | (.error (.help name), c) =>
    ((Stop.help name).outcome, { c with output := c.output ++ name.usage ++ ("\n" : Text) })
  | (.error stop, c) => (stop.outcome, c)

end Command

end RouteDocs
