import RouteDocs.Command.Edit
import RouteDocs.Command.Setup

/-!
# The Program

Calls the command that the arguments name.

## Main Definitions

* `Command.program`: the program for some arguments
* `Command.run`: the program from its start to its end
-/

namespace RouteDocs

namespace Command

/-- The names of the options of the program itself. -/
def programOptions : List (OptionName Unit) := [⟨"--help", (), .turn true⟩]

/-- The command that the first argument names. -/
def commandNamed (word : Text) : Except CallFault Name :=
  match Name.ofWord? word with
  | some c => .ok c
  | none => .error (.noSuchCommand word (Text.resembling (Name.commands.map Name.word) word))

/-- The program for some arguments: without any it scans. -/
def program (words : List Text) (now : Text) : Action Unit := do
  let a ← checked .program (readOptions programOptions false words)
  if a.isOn () false then throw (.help .program)
  match a.others with
  | [] => ScanCall.plain.run now
  | word :: more =>
    if (Name.ofWord? word).isNone then
      discard <| checked .program (readOptions programOptions false a.others)
    match ← checked .program (commandNamed word) with
    | .edit => edit more
    | .init => setup more now
    | _ => scan more now

/-- The program for some arguments, on some files and with something typed: how it ends, and what
it leaves. -/
def run (words : List Text) (input : Text) (tree : FileTree) (now : Text) : Outcome × Console :=
  (program words now).finish ⟨tree, typedLines input, [], []⟩

end Command

end RouteDocs
