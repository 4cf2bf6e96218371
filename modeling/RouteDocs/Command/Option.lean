import RouteDocs.Command.Usage

/-!
# Options of Commands

Reads options and other arguments in the usual way: `-p value`, `-pvalue`, `-vp value`,
`--path value` and `--path=value`; all that follows `--` is no option.

## Main Definitions

* `Command.OptionName`: a way to write an option
* `Command.Occurrence`: an option as it occurs in a call
* `Command.readOptions`: the options of a call and its other arguments

## Design Notes

A word that begins with a hyphen and is not a long option as a whole is a cluster of short
options; with two hyphens it can only be a long option. A number bounds the words and letters read,
because what is joined to a short option is put back as a word of its own.
-/

namespace RouteDocs

namespace Command

/-- What an option does where it occurs. -/
inductive Effect where
  /-- It takes the next argument as its value. -/
  | takeValue
  /-- It turns something on or off. -/
  | turn (on : Bool)
  deriving Repr, DecidableEq

/-- A way to write an option, for the parameter that it sets. -/
structure OptionName (κ : Type) where
  /-- The name with its hyphens. -/
  name : Text
  /-- The parameter. -/
  parameter : κ
  /-- What it does. -/
  effect : Effect

/-- An option as it occurs in a call. -/
inductive Occurrence (κ : Type) where
  /-- A parameter is given a value. -/
  | value (parameter : κ) (text : Text)
  /-- A parameter is turned on or off. -/
  | turned (parameter : κ) (on : Bool)
  deriving Repr, DecidableEq

/-- The parameter that an occurrence sets. -/
def Occurrence.parameter {κ : Type} : Occurrence κ → κ
  | value p _ => p
  | turned p _ => p

/-- The options of a call in their order and its other arguments. -/
structure Arguments (κ : Type) where
  /-- The options. -/
  options : List (Occurrence κ)
  /-- The other arguments. -/
  others : List Text

variable {κ : Type}

/-- The options and arguments after one more option. -/
def Arguments.withOption (o : Occurrence κ) (a : Arguments κ) : Arguments κ :=
  { a with options := o :: a.options }

/-- The options and arguments after one more argument. -/
def Arguments.withOther (t : Text) (a : Arguments κ) : Arguments κ :=
  { a with others := t :: a.others }

/-- The option with a name. -/
def optionNamed? (names : List (OptionName κ)) (name : Text) : Option (OptionName κ) :=
  names.find? fun n => n.name == name

/-- Whether a name is a long one. -/
def isLong (name : Text) : Bool := name.startsWith "--"

/-- The name and the value of a word in which an equals sign joins them. -/
def splitValue (word : Text) : Text × Option Text :=
  match word.cut? '=' with
  | some (name, value) => (name, some value)
  | none => (word, none)

/-- The long options among some. -/
def longNames (names : List (OptionName κ)) : List Text :=
  (names.map OptionName.name).filter isLong

/-- What is left to read of a call. -/
structure Remainder where
  /-- The short options left of a cluster. -/
  cluster : Text
  /-- The words after it. -/
  words : List Text

/-- What reading one option gives: its occurrence and what is left. -/
abbrev OptionStep (κ : Type) := Except CallFault (Occurrence κ × Remainder)

/-- Reads the value of an option from the next word. -/
def takeValue (option : OptionName κ) (words : List Text) : OptionStep κ :=
  match words with
  | [] => .error (.needsValue option.name)
  | v :: more => .ok (.value option.parameter v, ⟨[], more⟩)

/-- Reads a long option, to which a value may be joined. -/
def longOption (option : OptionName κ) (joined : Option Text) (words : List Text) : OptionStep κ :=
  match option.effect, joined with
  | .takeValue, some v => .ok (.value option.parameter v, ⟨[], words⟩)
  | .takeValue, none => takeValue option words
  | .turn _, some _ => .error (.takesNoValue option.name)
  | .turn on, none => .ok (.turned option.parameter on, ⟨[], words⟩)

/-- Reads the first option of a cluster of short ones. -/
def shortOption (names : List (OptionName κ)) (letter : CodePoint) (cluster : Text)
    (words : List Text) : OptionStep κ :=
  let name : Text := ['-', letter]
  match optionNamed? names name with
  | none => .error (.noSuchOption name [])
  | some option => match option.effect with
    | .turn on => .ok (.turned option.parameter on, ⟨cluster, words⟩)
    | .takeValue => takeValue option (if cluster.isEmpty then words else cluster :: words)

/-- Reads a word that begins with a hyphen. -/
def optionWord (names : List (OptionName κ)) (word : Text) (words : List Text) : OptionStep κ :=
  let (name, joined) := splitValue word
  match (optionNamed? names name).filter fun n => isLong n.name with
  | some option => longOption option joined words
  | none =>
    if isLong word then .error (.noSuchOption name (Text.resembling (longNames names) name))
    else match word.drop 1 with
      | letter :: cluster => shortOption names letter cluster words
      | [] => .error (.noSuchOption word [])

/-- The options and arguments of the rest of a call. Unless they may be mixed, the first argument
ends the options. The number bounds the steps. -/
def readRemainder (names : List (OptionName κ)) (isMixed : Bool) :
    Nat → Remainder → Except CallFault (Arguments κ)
  | 0, r => .ok ⟨[], r.words⟩
  | steps + 1, ⟨letter :: cluster, words⟩ => do
    let (o, r) ← shortOption names letter cluster words
    (readRemainder names isMixed steps r).map (Arguments.withOption o)
  | _ + 1, ⟨[], []⟩ => .ok ⟨[], []⟩
  | steps + 1, ⟨[], word :: words⟩ =>
    if word == "--" then .ok ⟨[], words⟩
    else if word.startsWith "-" && word != "-" then do
      let (o, r) ← optionWord names word words
      (readRemainder names isMixed steps r).map (Arguments.withOption o)
    else if isMixed then
      (readRemainder names isMixed steps ⟨[], words⟩).map (Arguments.withOther word)
    else .ok ⟨[], word :: words⟩

/-- The options of a call and its other arguments. -/
def readOptions (names : List (OptionName κ)) (isMixed : Bool) (words : List Text) :
    Except CallFault (Arguments κ) :=
  let size := words.foldl (fun n w => n + w.length + 1) 1
  readRemainder names isMixed (2 * size) ⟨[], words⟩

namespace Arguments

variable [DecidableEq κ]

/-- The value that a parameter is given last. -/
def value? (a : Arguments κ) (parameter : κ) : Option Text :=
  a.options.reverse.findSome? fun
    | .value p t => if p = parameter then some t else none
    | .turned _ _ => none

/-- Whether a parameter is turned on or off last, or a default. -/
def isOn (a : Arguments κ) (parameter : κ) (default : Bool) : Bool :=
  (a.options.reverse.findSome? fun
    | .turned p on => if p = parameter then some on else none
    | .value _ _ => none).getD default

/-- The parameters that are set, in the order in which each is first. -/
def parameters (a : Arguments κ) : List κ :=
  (a.options.map Occurrence.parameter).eraseDups

/-- The first fault in the values of the parameters, in their order. -/
def check (a : Arguments κ) (fault? : κ → Text → Option CallFault) : Except CallFault Unit :=
  match a.parameters.findSome? fun p => (a.value? p).bind (fault? p) with
  | some fault => .error fault
  | none => .ok ()

/-- All arguments are used. -/
def checkOthers (rest : List Text) : Except CallFault Unit :=
  if rest.isEmpty then .ok () else .error (.extraArguments rest)

end Arguments

end Command

end RouteDocs
