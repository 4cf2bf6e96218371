import RouteDocs.Text.Pattern
import RouteDocs.Json.Value

/-!
# Type Declarations

The object types that a source text declares, and the JSON types that their field types stand for.

## Main Definitions

* `TypeBlock`, `TypeBlock.Field`: a declared object type and its fields
* `TypeBlock.all`: the declarations of a text
* `FieldType`: the JSON types of properties
* `FieldType.ofUnion`: the JSON type, and the listed values, of a type expression
-/

namespace RouteDocs

/-- The JSON types of properties. -/
inductive FieldType where
  | string | number | boolean | array | object
  deriving Repr, DecidableEq, Inhabited

namespace FieldType

/-- The name of a type. -/
def name : FieldType → Text
  | string => "string"
  | number => "number"
  | boolean => "boolean"
  | array => "array"
  | object => "object"

/-- The text of a literal in matching quotation marks on one line. -/
def literal? (t : Text) : Option Text :=
  match t with
  | [] => none
  | quote :: r =>
    if (quote.val == 0x27 || quote.val == 0x22) && r.getLast? == some quote then
      let inside := r.dropLast
      if inside.all fun c : CodePoint => c != '\n' then some inside else none
    else none

/-- The literals of a list, if all of its members are literals. -/
def literals? : List Text → Option (List Text)
  | [] => some []
  | t :: more => (literal? t).bind fun l => (literals? more).map (l :: ·)

/-- The JSON type of a single type expression. -/
def ofName (t : Text) : FieldType :=
  let lowered := Text.lower t
  if t.endsWith "[]" || t.startsWith "Array<" then .array
  else if lowered == "number" || lowered == "bigint" then .number
  else if lowered == "boolean" then .boolean
  else if lowered == "object" || t.startsWith "Record<" || t.head? == some ('\x7b' : CodePoint) then .object
  else .string

/-- The parts of a union other than `null` and `undefined`. -/
def unionParts (t : Text) : List Text :=
  let body : Text := Text.trimRight (fun c : CodePoint => c == ';') (Text.strip t)
  ((body.splitOn '|').map Text.strip).filter fun part =>
    !part.isEmpty && part != "null" && part != "undefined"

/-- The JSON type of a type expression: a union of literals lists its values, and of any other
union the first part counts. -/
def ofUnion (t : Text) : FieldType × Option (List Text) :=
  match unionParts t with
  | [] => (.string, none)
  | first :: more =>
    match literals? (first :: more) with
    | some values => (.string, some values)
    | none => (ofName first, none)

end FieldType

/-- A field of a declared object type. -/
structure TypeBlock.Field where
  /-- Whether the field may be absent. -/
  isOptional : Bool
  /-- The type expression. -/
  type : Text
  deriving DecidableEq

/-- A declared object type. -/
structure TypeBlock where
  /-- The name. -/
  name : Text
  /-- The fields by name. -/
  fields : Assoc TypeBlock.Field
  deriving DecidableEq

namespace TypeBlock

open Pattern

/-- The opening brace. -/
def openBrace : Pattern := one fun c => c.val == 0x7B

/-- The closing brace. -/
def closeBrace : Pattern := one fun c => c.val == 0x7D

/-- Everything but braces. -/
def isFlat (c : CodePoint) : Bool := c.val != 0x7B && c.val != 0x7D

/-- Characters of identifiers: word characters and the dollar sign. -/
def isNamePart (c : CodePoint) : Bool := c.isWord || c == '$'

/-- A declaration: the name is remembered as one or two, the fields as three. -/
def pattern : Pattern :=
  alt
    (lit "interface" ++ blanks1 ++ group 1 word1
      ++ optional (blanks1 ++ lit "extends" ++ blanks1 ++ run1 fun c => c.val != 0x7B))
    (lit "type" ++ blanks1 ++ group 2 word1 ++ blanks ++ lit "=")
    ++ blanks ++ openBrace ++ group 3 (run isFlat) ++ closeBrace

/-- An optional quotation mark. -/
def optionalQuote : Pattern :=
  optional (one fun c => c.val == 0x27 || c.val == 0x22)

/-- A field: name, question mark and type are remembered as one, two and three. -/
def fieldPattern : Pattern :=
  optional (lit "readonly" ++ blanks1) ++ optionalQuote ++ group 1 (run1 isNamePart)
    ++ optionalQuote ++ optional (group 2 (lit "?")) ++ blanks ++ lit ":" ++ blanks
    ++ group 3 (run1 fun c : CodePoint => c != '\n')

/-- The field that a piece of a declaration declares, if it does. -/
def field? (piece : Text) : Option (Text × Field) :=
  (fieldPattern.matchAt? (Cursor.start (Text.strip piece))).map fun m =>
    (m.group 1, ⟨(m.group? 2).isSome, Text.strip (m.group 3)⟩)

/-- The fields of the inside of a declaration; of several with one name the last one counts. -/
def fieldsOf (inside : Text) : Assoc Field :=
  Assoc.ofList <| (inside.splitBy fun c : CodePoint => c == ';' || c == '\n' || c == ',').filterMap
    field?

/-- The declared object types of a text that have fields, in order. -/
def all (content : Text) : List TypeBlock :=
  ((pattern.findAll content).map fun m =>
    (⟨((m.group? 1).orElse fun _ => m.group? 2).getD [], fieldsOf (m.group 3)⟩ : TypeBlock)).filter
      fun block => !block.fields.isEmpty

end TypeBlock

end RouteDocs
