import RouteDocs.Number.Shortest

/-!
# JSON Values

The values that JSON texts denote, with objects in the order of their members.

## Main Definitions

* `Assoc`: an ordered map, and `Assoc.put`, which replaces in place or appends
* `Json`: the values
* `Json.isTruthy`: every value but the empty ones
* `Json.record`: an object from named parts, with or without the parts that are null

## Design Notes

Integers and floating-point numbers are different values: `1` is an integer and `1.0` is not.
An object read from text has each key once, at the place of its first member and with the value
of its last one.
-/

namespace RouteDocs

/-- An ordered map: keys with their values, in the order in which the keys came. -/
abbrev Assoc (β : Type) := List (Text × β)

namespace Assoc

variable {β : Type}

/-- Gives a key a value: in place if the key is there, at the end otherwise. -/
def put (key : Text) (value : β) : Assoc β → Assoc β
  | [] => [(key, value)]
  | (k, v) :: more => if k == key then (k, value) :: more else (k, v) :: put key value more

/-- Gives a key a value unless it has one. -/
def putNew (key : Text) (value : β) (m : Assoc β) : Assoc β :=
  if m.any (·.1 == key) then m else m ++ [(key, value)]

/-- The value of a key. -/
def get? (key : Text) (m : Assoc β) : Option β :=
  (m.find? (·.1 == key)).map (·.2)

/-- Whether a key has a value. -/
def has (key : Text) (m : Assoc β) : Bool :=
  m.any (·.1 == key)

/-- The keys in order. -/
def keys (m : Assoc β) : List Text :=
  m.map (·.1)

/-- The map that results from giving values one after another. -/
def ofList (entries : List (Text × β)) : Assoc β :=
  entries.foldl (fun m (k, v) => m.put k v) []

/-- The first map changed by the entries of the second one. -/
def update (m : Assoc β) (changes : Assoc β) : Assoc β :=
  changes.foldl (fun m (k, v) => m.put k v) m

end Assoc

/-- A JSON value. -/
inductive Json where
  /-- The null value. -/
  | null
  /-- A truth value. -/
  | bool (b : Bool)
  /-- An integer. -/
  | int (i : Int)
  /-- A floating-point number. -/
  | float (x : Binary64)
  /-- A text. -/
  | str (t : Text)
  /-- A list of values. -/
  | arr (items : List Json)
  /-- An object: its members in order. -/
  | obj (members : List (Text × Json))
  deriving Inhabited

namespace Json

/-- Whether a value is other than null, false, zero and the empty text, list and object. -/
def isTruthy : Json → Bool
  | null => false
  | bool b => b
  | int i => i != 0
  | float x => !x.isZero
  | str t => !t.isEmpty
  | arr items => !items.isEmpty
  | obj members => !members.isEmpty

/-- Whether a value is null. -/
def isNull : Json → Bool
  | null => true
  | _ => false

/-- A text, or null where there is none. -/
def ofText? (t : Option Text) : Json :=
  t.elim null str

/-- A list of texts. -/
def ofTexts (ts : List Text) : Json :=
  arr (ts.map str)

/-- The object of named parts; unless nulls are kept, a part that is null is left out. -/
def record (keepNulls : Bool) (parts : List (Text × Json)) : Json :=
  obj (parts.filter fun p => keepNulls || !p.2.isNull)

end Json

end RouteDocs
