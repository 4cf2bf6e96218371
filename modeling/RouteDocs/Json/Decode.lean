import RouteDocs.Json.Value
import RouteDocs.Text.Blank

/-!
# Decoding JSON Values

Turns JSON values into data of other types and reports every fault with the path to it.

## Main Definitions

* `Issue`: a fault in a value, with the path that leads to it
* `Decoded`: a result or all issues in order
* `Decoder.text`, `Decoder.truth`, `Decoder.integer`, `Decoder.list`, …: decoders
* `Decoder.member`: a member of an object, found under either of two names

## Design Notes

Decoding is lenient where a value has only one sensible meaning: the texts `yes` and `off` are
truth values, `"3"` and `3.0` are integers. Unlike a monadic chain, `Decoded.also` collects the
issues of both sides, so that one pass reports all of them.
-/

namespace RouteDocs

/-- A step into a value. -/
inductive Step where
  /-- To the member with a key. -/
  | key (name : Text)
  /-- To the item with a number. -/
  | index (i : Nat)
  deriving Repr, DecidableEq

/-- What can be wrong with a value. -/
inductive Issue.Problem where
  /-- A member is absent. -/
  | missing
  /-- A text was expected. -/
  | notText
  /-- A truth value was expected. -/
  | notTruth
  /-- A text or number that is no truth value. -/
  | unreadableTruth
  /-- An integer was expected. -/
  | notInteger
  /-- A text that is no integer. -/
  | unreadableInteger
  /-- A text or number with too many digits for an integer. -/
  | hugeInteger
  /-- A number with a fraction where an integer was expected. -/
  | fraction
  /-- An infinity or not-a-number where an integer was expected. -/
  | notFinite
  /-- A value outside an enumeration. -/
  | notListed
  /-- A list was expected. -/
  | notList
  /-- A map was expected. -/
  | notMap
  /-- An object with members was expected. -/
  | notObject
  /-- An object was expected from a client. -/
  | notRequestObject
  /-- Values are nested too deep. -/
  | tooDeep
  /-- The text is no JSON. -/
  | notJson
  deriving Repr, DecidableEq

/-- The word that names a problem to clients. -/
def Issue.Problem.code : Issue.Problem → Text
  | missing => "missing"
  | notText => "string_type"
  | notTruth => "bool_type"
  | unreadableTruth => "bool_parsing"
  | notInteger => "int_type"
  | unreadableInteger => "int_parsing"
  | hugeInteger => "int_parsing_size"
  | fraction => "int_from_float"
  | notFinite => "finite_number"
  | notListed => "literal_error"
  | notList => "list_type"
  | notMap => "dict_type"
  | notObject => "model_type"
  | notRequestObject => "model_attributes_type"
  | tooDeep => "recursion_loop"
  | notJson => "json_invalid"

/-- A fault in a value. -/
structure Issue where
  /-- The steps from the root to the fault. -/
  path : List Step
  /-- The fault. -/
  problem : Issue.Problem
  deriving Repr, DecidableEq

/-- The result of decoding, or all issues in order. -/
abbrev Decoded (α : Type) := Except (List Issue) α

/-- A way to decode values. -/
abbrev Decoder (α : Type) := Json → Decoded α

namespace Decoded

/-- A result that needs no value. -/
def of {α : Type} (a : α) : Decoded α := .ok a

/-- A single issue at the value itself. -/
def fail {α : Type} (problem : Issue.Problem) : Decoded α := .error [⟨[], problem⟩]

/-- A function applied to a further result; the issues of both are kept, in order. -/
def also {α β : Type} (f : Decoded (α → β)) (a : Decoded α) : Decoded β :=
  match f, a with
  | .ok f, .ok a => .ok (f a)
  | .ok _, .error es => .error es
  | .error es, .ok _ => .error es
  | .error es, .error fs => .error (es ++ fs)

/-- The result with its issues moved below a step. -/
def below {α : Type} (step : Step) : Decoded α → Decoded α
  | .ok a => .ok a
  | .error es => .error (es.map fun e => { e with path := step :: e.path })

end Decoded

/-- Where decoded values come from, which decides how some faults are reported. -/
inductive Origin where
  /-- A JSON document. -/
  | document
  /-- A value made inside the program. -/
  | value
  /-- The body of a client's request. -/
  | request
  deriving Repr, DecidableEq

/-- How a value is reported that should be an object. -/
def Origin.notObject : Origin → Issue.Problem
  | .request => .notRequestObject
  | _ => .notObject

namespace Decoder

/-- A text. -/
def text : Decoder Text
  | .str t => .ok t
  | _ => .fail .notText

/-- Equality of ASCII words without regard to case. -/
def sameWord (word t : Text) : Bool :=
  word == t.map fun c => if 0x41 ≤ c.val ∧ c.val ≤ 0x5A then CodePoint.ofNat (c.val + 32) else c

/-- The truth value that a word stands for. -/
def readTruth? (t : Text) : Option Bool :=
  if ["0", "f", "n", "no", "off", "false"].any fun w : String => sameWord w t then some false
  else if ["1", "t", "y", "on", "yes", "true"].any fun w : String => sameWord w t then some true
  else none

/-- The truth value that an integer stands for. -/
def truthOfInt (i : Int) : Decoded Bool :=
  if i == 0 then .ok false else if i == 1 then .ok true else .fail .unreadableTruth

/-- The least and the greatest integer that a floating-point number is converted to. -/
def withinWord (i : Int) : Bool :=
  -0x8000000000000000 ≤ i && i < 0x8000000000000000

/-- The integer that a floating-point number equals. -/
def integerOfFloat (x : Binary64) : Decoded Int :=
  match x with
  | .finite .. =>
    match x.toInt? with
    | none => .fail .fraction
    | some i => if withinWord i then .ok i else .fail .hugeInteger
  | _ => .fail .notFinite

/-- A truth value, or a word or number that stands for one. -/
def truth : Decoder Bool
  | .bool b => .ok b
  | .str t => match readTruth? t with
    | some b => .ok b
    | none => .fail .unreadableTruth
  | .int i => if withinWord i then truthOfInt i else .fail .notTruth
  | .float x => match integerOfFloat x with
    | .ok i => truthOfInt i
    | .error _ => .fail .notTruth
  | _ => .fail .notTruth

/-- The digits without zeros, and underscores among them, in front. -/
def withoutLeadingZeros (digits : Text) : Option Text :=
  match digits with
  | [] => none
  | c :: r =>
    if c == '-' then some digits
    else if !c.isAsciiDigit then none
    else if c != '0' then some digits
    else match r.dropWhile fun d : CodePoint => d == '0' || d == '_' with
      | [] => some "0"
      | d :: s => if d.isAsciiDigit then some (d :: s) else if d == '.' then some ('0' :: d :: s) else none

/-- The text without a point and zeros at its end. -/
def withoutZeroFraction (t : Text) : Text :=
  match t.cut? '.' with
  | some (whole, fraction) => if fraction.all fun c : CodePoint => c == '0' then whole else t
  | none => t

/-- Digits with single underscores between them, as a number. -/
def groupedDigits? (t : Text) : Option Nat :=
  let groups := t.splitOn '_'
  if groups.all fun g => !g.isEmpty && g.all CodePoint.isAsciiDigit then
    some (groups.flatten.foldl (fun n c => 10 * n + (c.val - 0x30)) 0)
  else none

/-- The integer written by a text: an optional sign, digits grouped by underscores, and perhaps
a point with zeros; blanks may surround it. -/
def readInteger? (t : Text) : Option Int :=
  let body := Text.stripNumber t
  let body := match body with
    | c :: d :: r => if c == '+' && d.isAsciiDigit then d :: r else body
    | _ => body
  (withoutLeadingZeros body).bind fun body =>
    match withoutZeroFraction body with
    | [] => none
    | c :: r =>
      if c == '-' then
        if r.length > 1 && r.head? == some '0' then none
        else (groupedDigits? r).map fun n => -(n : Int)
      else (groupedDigits? (c :: r)).map Int.ofNat

/-- An integer, or a truth value, whole number or text that stands for one. -/
def integer : Decoder Int
  | .int i => .ok i
  | .bool b => .ok (if b then 1 else 0)
  | .float x => integerOfFloat x
  | .str t =>
    if 4300 < t.length then .fail .hugeInteger
    else match readInteger? t with
      | some i => .ok i
      | none => .fail .unreadableInteger
  | _ => .fail .notInteger

/-- One of the words of an enumeration. -/
def enumeration {α : Type} (ofText? : Text → Option α) : Decoder α
  | .str t => match ofText? t with
    | some a => .ok a
    | none => .fail .notListed
  | _ => .fail .notListed

/-- A value or null. -/
def nullable {α : Type} (decode : Decoder α) : Decoder (Option α)
  | .null => .ok none
  | v => (decode v).map some

/-- The items of a list, of which the first has a given number. -/
def items {α : Type} (decode : Decoder α) : Nat → List Json → Decoded (List α)
  | _, [] => .ok []
  | i, v :: more =>
    ((Decoded.of List.cons).also ((decode v).below (.index i))).also (items decode (i + 1) more)

/-- A list of values of one kind. -/
def list {α : Type} (decode : Decoder α) : Decoder (List α)
  | .arr vs => items decode 0 vs
  | _ => .fail .notList

/-- The values of the members of a map. -/
def values {α : Type} (decode : Decoder α) : List (Text × Json) → Decoded (Assoc α)
  | [] => .ok []
  | (k, v) :: more =>
    ((Decoded.of fun a rest => (k, a) :: rest).also ((decode v).below (.key k))).also
      (values decode more)

/-- A map from texts to values of one kind. -/
def map {α : Type} (decode : Decoder α) : Decoder (Assoc α)
  | .obj ms => values decode ms
  | _ => .fail .notMap

/-- An object with named members. -/
def object {α : Type} (origin : Origin) (decode : Assoc Json → Decoded α) : Decoder α
  | .obj ms => decode ms
  | _ => .fail origin.notObject

/-- A member of an object, found under its outer name or else its inner name; a default stands
in for an absent one. -/
def member {α : Type} (members : Assoc Json) (outer inner : Text) (default : Option α)
    (decode : Decoder α) : Decoded α :=
  match members.get? outer with
  | some v => (decode v).below (.key outer)
  | none =>
    match members.get? inner with
    | some v => (decode v).below (.key inner)
    | none =>
      match default with
      | some a => .ok a
      | none => (Decoded.fail .missing).below (.key outer)

/-- How many free-form values may contain one another, the innermost one included. -/
def maxFreeDepth : Nat := 254

mutual

/-- The issues of a free-form value that may be nested to a depth. -/
def depthIssues : Nat → Json → List Issue
  | 0, _ => [⟨[], .tooDeep⟩]
  | depth + 1, .arr vs => (depthIssuesOfItems depth 0 vs).map fun e =>
    { e with path := .key "list" :: e.path }
  | depth + 1, .obj ms => (depthIssuesOfMembers depth ms).map fun e =>
    { e with path := .key "dict" :: e.path }
  | _ + 1, _ => []

/-- The issues of the items of a list, of which the first has a given number. -/
def depthIssuesOfItems (depth : Nat) (i : Nat) : List Json → List Issue
  | [] => []
  | v :: more => ((depthIssues depth v).map fun e => { e with path := .index i :: e.path })
      ++ depthIssuesOfItems depth (i + 1) more

/-- The issues of the members of an object. -/
def depthIssuesOfMembers (depth : Nat) : List (Text × Json) → List Issue
  | [] => []
  | (k, v) :: more => ((depthIssues depth v).map fun e => { e with path := .key k :: e.path })
      ++ depthIssuesOfMembers depth more

end

/-- Any value; one that does not come from a document must not be nested too deep. -/
def free (origin : Origin) : Decoder Json := fun v =>
  match origin with
  | .document => .ok v
  | _ => match depthIssues maxFreeDepth v with
    | [] => .ok v
    | issues => .error issues

end Decoder

end RouteDocs
