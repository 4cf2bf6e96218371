import RouteDocs.Number.Binary64
import RouteDocs.Text.Base64
import RouteDocs.Text.Case
import RouteDocs.Text.Digit
import RouteDocs.Yaml.Node

/-!
# Values of YAML Documents

What the nodes of a document stand for.

## Main Definitions

* `Yaml.Value`: the values
* `Yaml.Value.ofScalar`: the value of a tagged text
* `Yaml.Graph.check`: a fault in the nodes of a document, if there is one
* `Yaml.read`: the value of a text
* `Yaml.Value.toJson`: a value as JSON

## Design Notes

A mapping may take entries from others under the key `<<`; its own entries come after those and
win. The nodes are checked level by level from the outermost one, so of several faults the one
nearest to the root counts. A node can contain itself, so a value is made down to a given depth.

How deep a text may be nested is not limited here. A reader on a call stack gives up somewhere near
five hundred levels; where exactly depends on how much of the stack its caller has taken.

A text that must be one of several words is never given as bytes, whereas bytes can stand for any
other text. In JSON bytes are therefore a text only under the keys for which any text will do.
-/

namespace RouteDocs

namespace Yaml

/-- A value. -/
inductive Value where
  /-- The null value. -/
  | null
  /-- A truth value. -/
  | truth (b : Bool)
  /-- An integer. -/
  | integer (i : Int)
  /-- A floating-point number. -/
  | float (x : Binary64)
  /-- A text. -/
  | text (t : Text)
  /-- Bytes. -/
  | bytes (bs : List UInt8)
  /-- A day or a moment. -/
  | time
  /-- Values in order. -/
  | list (items : List Value)
  /-- Keys with their values. -/
  | map (entries : List (Value × Value))

/-- The truth value that a word stands for in any case. -/
def readTruth (t : Text) : Except ScalarFault Bool :=
  let word := t.lower
  if word == "yes" || word == "true" || word == "on" then .ok true
  else if word == "no" || word == "false" || word == "off" then .ok false
  else .error (.truth word)

/-- The integer that digits in a base write. -/
def readDigitsIn (base : Nat) (digits : Text) : Except ScalarFault Int :=
  let count := (digits.filter CodePoint.isDigit).length
  match digits.readIntIn? base with
  | some i => if base == 10 && 4300 < count then .error (.tooManyDigits count) else .ok i
  | none => .error (.integer base digits)

/-- The sign before a number and the rest of it. -/
def takeSign (t : Text) : Except ScalarFault (Bool × Text) :=
  match t with
  | [] => .error .emptyNumber
  | c :: rest =>
    if c == '-' then .ok (true, rest) else if c == '+' then .ok (false, rest) else .ok (false, t)

/-- The integer that a text writes: in base two after `0b`, sixteen after `0x` and eight after a
zero, in places of sixty between colons, and in base ten otherwise. -/
def readInteger (t : Text) : Except ScalarFault Int := do
  let (isNegative, body) ← takeSign (t.filter (· != '_'))
  let magnitude ← match body with
    | [] => .error .emptyNumber
    | c :: rest =>
      let mark := rest.head?
      if body == "0" then .ok 0
      else if c == '0' && mark == some 'b' then readDigitsIn 2 rest.tail
      else if c == '0' && mark == some 'x' then readDigitsIn 16 rest.tail
      else if c == '0' then readDigitsIn 8 body
      else (Text.splitOn ':' body).foldlM (fun n place => do pure (60 * n + (← readDigitsIn 10 place))) 0
  .ok (if isNegative then -magnitude else magnitude)

/-- The decimal at the start of a text: its digits, how many of them are behind the point, and the
text that follows. -/
def takeDecimal (t : Text) : Text × Nat × Text :=
  let whole := t.takeWhile CodePoint.isDigit
  match t.drop whole.length with
  | c :: rest =>
    if c == '.' then
      let fraction := rest.takeWhile CodePoint.isDigit
      (whole ++ fraction, fraction.length, rest.drop fraction.length)
    else (whole, 0, c :: rest)
  | [] => (whole, 0, [])

/-- The number that digits of any script write. -/
def digitsNumber (digits : Text) : Nat :=
  digits.foldl (fun n c => 10 * n + c.digitValue?.getD 0) 0

/-- The floating-point number that a decimal without a sign writes. -/
def readMagnitude? (isNegative : Bool) (t : Text) : Option Binary64 :=
  if t == "inf" || t == "infinity" then some (.infinite isNegative)
  else if t == "nan" then some .nan
  else
    let (digits, places, rest) := takeDecimal t
    let scaled (exponent : Int) : Option Binary64 :=
      some (.ofDecimal isNegative (digitsNumber digits) (exponent - places))
    if digits.isEmpty then none
    else match rest with
      | [] => scaled 0
      | c :: rest =>
        if c != 'e' then none
        else match rest with
          | [] => none
          | s :: more =>
            let power := if s == '-' || s == '+' then more else rest
            if power.isEmpty || !power.all CodePoint.isDigit then none
            else scaled (if s == '-' then -(digitsNumber power : Int) else digitsNumber power)

/-- The floating-point number that a text in lower case writes. -/
def readPlainFloat (t : Text) : Except ScalarFault Binary64 :=
  let body := Text.stripNumber t
  let (isNegative, magnitude) := match body with
    | c :: rest => if c == '-' then (true, rest) else if c == '+' then (false, rest) else (false, body)
    | [] => (false, [])
  match readMagnitude? isNegative magnitude with
  | some x => .ok x
  | none => .error (.float t)

/-- The floating-point number that a text writes, in places of sixty between colons. -/
def readFloat (t : Text) : Except ScalarFault Binary64 := do
  let (isNegative, body) ← takeSign (Text.lower (t.filter (· != '_')))
  let signed (x : Binary64) : Binary64 := if isNegative then x.negate else x
  if body == ".inf" then .ok (.infinite isNegative)
  else if body == ".nan" then .ok .nan
  else if body.contains ':' then
    let places ← (Text.splitOn ':' body).mapM readPlainFloat
    let (total, _) ← places.reverse.foldlM
      (fun (total, weight) x => match Binary64.ofInt weight with
        | .infinite _ => .error .hugeWeight
        | y => .ok (Binary64.add total (x.mul y), 60 * weight))
      (Binary64.ofInt 0, (1 : Int))
    .ok (signed total)
  else (readPlainFloat body).map signed

/-- How many days a month has. -/
def daysIn (year month : Nat) : Nat :=
  if month == 2 then
    if year % 4 == 0 && (year % 100 != 0 || year % 400 == 0) then 29 else 28
  else if month == 4 || month == 6 || month == 9 || month == 11 then 30 else 31

/-- A fault in a timestamp, if there is one: in its time zone first, then from the year on. A line
feed may end it. -/
def checkTimestamp (t : Text) : Except ScalarFault Unit :=
  match timestamp.matchAll? (if t.getLast? == some '\n' then t.dropLast else t) with
  | none => .error .timestamp
  | some m =>
    let part (n : Nat) : Option Nat := (m.group? n).map digitsNumber
    let number (n : Nat) : Nat := (part n).getD 0
    let away := 3600 * number 9 + 60 * number 10
    let hasTime := (part 4).isSome
    if hasTime && 86400 ≤ away then
      .error (.zone (if m.group? 8 == some "-" then -(away : Int) else away))
    else if number 1 == 0 then .error .year
    else if number 2 == 0 || 12 < number 2 then .error .month
    else if number 3 == 0 || daysIn (number 1) (number 2) < number 3 then .error .day
    else if 24 ≤ number 4 then .error .hour
    else if 60 ≤ number 5 then .error .minute
    else if 60 ≤ number 6 then .error .second
    else .ok ()

/-- The value of a text with a tag. -/
def Value.ofScalar (tag : Tag) (t : Text) : Except Fault Value :=
  match tag with
  | .null => .ok .null
  | .text => .ok (.text t)
  | .truth => (readTruth t).map Value.truth |>.mapError Fault.scalar
  | .integer => (readInteger t).map Value.integer |>.mapError Fault.scalar
  | .float => (readFloat t).map Value.float |>.mapError Fault.scalar
  | .timestamp => (checkTimestamp t).map (fun _ => Value.time) |>.mapError Fault.scalar
  | .binary =>
    match if t.all (·.val < 0x80) then Base64.decode? t else none with
    | some bs => .ok (.bytes bs)
    | none => .error .malformed
  | _ => .error .malformed

/-- Whether a tag is one of a collection. -/
def Tag.isCollection : Tag → Bool
  | .sequence | .pairs | .mapping | .set => true
  | _ => false

namespace Graph

/-- The node with a number. -/
def node (g : Graph) (number : Nat) : Node :=
  g.nodes[number]?.getD ⟨.null, .scalar []⟩

/-- The text of a node with the tag of a scalar: a mapping has the text that it gives to the key
`=`. The number bounds the turns. -/
def scalarText? (g : Graph) : Nat → Nat → Option Text
  | 0, _ => none
  | turns + 1, number =>
    match (g.node number).content with
    | .scalar t => some t
    | .sequence _ => none
    | .mapping entries =>
      (entries.find? fun e => (g.node e.1).tag == .value).bind fun e => scalarText? g turns e.2

/-- How many turns suffice for what visits each node once. -/
def size (g : Graph) : Nat := g.nodes.length + 1

/-- The value of a node with the tag of a scalar. -/
def scalar (g : Graph) (number : Nat) (tag : Tag) : Except Fault Value :=
  match g.scalarText? g.size number with
  | some t => Value.ofScalar tag t
  | none => .error .malformed

/-- The entries of the mappings at some nodes, together. -/
def concatEntries (entries : Nat → Except Fault (List (Nat × Nat))) (numbers : List Nat) :
    Except Fault (List (Nat × Nat)) :=
  (numbers.mapM entries).map List.flatten

/-- The entries of a mapping after those that it takes from others. A mapping within itself gives
its own entries only, and of a list of mappings the first one wins. The number bounds the turns. -/
def entries (g : Graph) : Nat → List Nat → Nat → Except Fault (List (Nat × Nat))
  | 0, _, _ => .error .malformed
  | turns + 1, around, number =>
    match (g.node number).content with
    | .mapping all =>
      let isMerge (e : Nat × Nat) : Bool := (g.node e.1).tag == .merge
      let own := all.filter fun e => !isMerge e
      if around.contains number then .ok own
      else do
        let taken ← ((all.filter isMerge).map (·.2)).mapM fun source =>
          match (g.node source).content with
          | .mapping _ => entries g turns (number :: around) source
          | .sequence sources =>
            concatEntries (entries g turns (number :: around)) sources.reverse
          | .scalar _ => .error .malformed
        .ok (taken.flatten ++ own)
    | _ => .error .malformed

/-- The entries of a mapping after those that it takes from others. -/
def allEntries (g : Graph) (number : Nat) : Except Fault (List (Nat × Nat)) :=
  g.entries g.size [] number

/-- The key and the value of a mapping with one entry. -/
def pair (g : Graph) (number : Nat) : Except Fault (Nat × Nat) :=
  match (g.node number).content with
  | .mapping [e] => .ok e
  | _ => .error .malformed

/-- The tag of a key in a mapping, where `=` is a text. -/
def keyTag (g : Graph) (number : Nat) : Tag :=
  let tag := (g.node number).tag
  if tag == .value then .text else tag

/-- A fault in a node that is no collection, if there is one. -/
def checkPart (g : Graph) (number : Nat) (tag : Tag) : Except Fault Unit :=
  if tag.isCollection then .ok () else (g.scalar number tag).map fun _ => ()

/-- A fault in the scalars that a collection consists of, if there is one; otherwise its parts. A
key must not be a collection. -/
def checkParts (g : Graph) (number : Nat) : Except Fault (List Nat) :=
  let node := g.node number
  match node.tag, node.content with
  | .sequence, .sequence items => do
    items.forM fun i => g.checkPart i (g.node i).tag
    .ok items
  | .pairs, .sequence items => do
    let parts ← items.mapM fun i => do
      let (k, v) ← g.pair i
      g.checkPart k (g.node k).tag
      g.checkPart v (g.node v).tag
      .ok [k, v]
    .ok parts.flatten
  | .mapping, _ | .set, _ => do
    let entries ← g.allEntries number
    entries.forM fun (k, v) => do
      if (g.keyTag k).isCollection then .error .malformed
      g.checkPart k (g.keyTag k)
      g.checkPart v (g.node v).tag
    .ok (entries.map (·.2))
  | _, _ => .error .malformed

/-- A fault in some collections and in those within them, level by level; `met` lists all that
need not be checked again. The number bounds the turns. -/
def checkLevels (g : Graph) : Nat → List Nat → List Nat → Except Fault Unit
  | 0, _, _ => .ok ()
  | _ + 1, _, [] => .ok ()
  | turns + 1, met, number :: queue => do
    let parts ← g.checkParts number
    let inner := parts.filter fun n => (g.node n).tag.isCollection && !met.contains n
    checkLevels g turns (met ++ inner) (queue ++ inner.eraseDups)

/-- A fault in a node or in those within it, if there is one. -/
def check (g : Graph) (number : Nat) : Except Fault Unit :=
  if (g.node number).tag.isCollection then g.checkLevels g.size [number] [number]
  else g.checkPart number (g.node number).tag

/-- The value of a node that has a tag and is no collection. -/
def scalarValue (g : Graph) (number : Nat) (tag : Tag) : Value :=
  ((g.scalar number tag).toOption).getD .null

/-- The value of a node without faults, made down to a depth. -/
def value (g : Graph) : Nat → Nat → Value
  | 0, number =>
    match (g.node number).tag with
    | .sequence | .pairs | .set => .list []
    | .mapping => .map []
    | tag => g.scalarValue number tag
  | depth + 1, number =>
    let node := g.node number
    let all := ((g.allEntries number).toOption).getD []
    match node.tag, node.content with
    | .sequence, .sequence items => .list (items.map (value g depth))
    | .pairs, .sequence items => .list (items.filterMap fun i =>
        (g.pair i).toOption.map fun (k, v) => .list [value g depth k, value g depth v])
    | .mapping, _ => .map (all.map fun (k, v) => (g.scalarValue k (g.keyTag k), value g depth v))
    | .set, _ => .list (all.map fun (k, _) => g.scalarValue k (g.keyTag k))
    | tag, _ => g.scalarValue number tag

end Graph

/-- The value of a text, made down to a depth. -/
def read (depth : Nat) (t : Text) : Except Fault Value := do
  let g ← Graph.ofText t
  match g.root with
  | none => .ok .null
  | some number =>
    g.check number
    .ok (g.value depth number)

namespace Value

/-- Whether a value is bytes. -/
def isBytes : Value → Bool
  | bytes _ => true
  | _ => false

section

variable (isWord : Text → Bool)

mutual

/-- A value as JSON. A time has no JSON form, and bytes have none either if they are no text or
stand under a key for words; all of these become not-a-number. -/
def toJson : Value → Json
  | null => .null
  | truth b => .bool b
  | integer i => .int i
  | float x => .float x
  | text t => .str t
  | bytes bs => (Utf8.decode bs).toOption.elim (.float .nan) .str
  | time => .float .nan
  | list items => .arr (itemsToJson items)
  | map entries => .obj (Assoc.ofList (entriesToJson entries))

/-- Values as JSON. -/
def itemsToJson : List Value → List Json
  | [] => []
  | v :: more => v.toJson :: itemsToJson more

/-- The entries with texts as keys, as JSON. -/
def entriesToJson : List (Value × Value) → List (Text × Json)
  | [] => []
  | (k, v) :: more =>
    match k with
    | text t => (t, if v.isBytes && isWord t then .float .nan else v.toJson) :: entriesToJson more
    | _ => entriesToJson more

end

end

end Value

end Yaml

end RouteDocs
