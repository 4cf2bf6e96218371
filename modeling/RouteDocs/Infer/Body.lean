import RouteDocs.Handler.Context
import RouteDocs.Infer.TypeBlock

/-!
# Request Bodies

The body that a handler expects, inferred from how it takes the body apart.

## Main Definitions

* `BodyField`: a property of the body
* `BodyField.ofDestructuring?`, `BodyField.ofAccess?`, `BodyField.ofDeclarations?`: three ways to
  find properties
* `RequestBody.ofFields`: the body with given properties
* `RequestBody.infer`: the body of a handler

## Design Notes

The ways are tried in order and the first one that finds properties wins: names taken out of a
body variable, properties read from it, and the fields of a declared type. Declared types are
looked up in the whole file, everything else in the handler's own part.
-/

namespace RouteDocs

/-- A property of a request body. -/
structure BodyField where
  /-- The name. -/
  name : Text
  /-- Whether a request must give it. -/
  required : Bool
  /-- The name of its JSON type. -/
  type : Text
  /-- The values it is limited to, if it is. -/
  values : Option (List Text)
  deriving DecidableEq

namespace BodyField

open Pattern

/-- The JSON form of a field, with members in snake case. -/
def toJson (keepNulls : Bool) (f : BodyField) : Json :=
  .record keepNulls [
    ("name", .str f.name),
    ("required", .bool f.required),
    ("field_type", .str f.type),
    ("enum", f.values.elim .null .ofTexts)]

/-- The field of a JSON form. -/
def decode (origin : Origin) : Decoder BodyField :=
  Decoder.object origin fun ms =>
    (Decoded.of BodyField.mk)
      |>.also (Decoder.member ms "name" "name" none Decoder.text)
      |>.also (Decoder.member ms "required" "required" none Decoder.truth)
      |>.also (Decoder.member ms "field_type" "field_type" (some "string") Decoder.text)
      |>.also (Decoder.member ms "enum" "enum" (some none)
        (Decoder.nullable (Decoder.list Decoder.text)))

/-- A body awaited from a variable or a path of properties. -/
def awaitedJson : Pattern :=
  lit "await" ++ blanks1 ++ word1 ++ star (lit "." ++ word1) ++ lit ".json(" ++ blanks ++ lit ")"

/-- A word that begins a declaration of variables. -/
def declarationWord : Pattern :=
  oneOf [lit "const", lit "let", lit "var"]

/-- Blanks, an optional type annotation and an equals sign. -/
def assigned : Pattern :=
  blanks
    ++ optional (lit ":" ++ run1 fun c : CodePoint => c != '=' && c != '\n')
    ++ lit "=" ++ blanks

/-- An awaited body, perhaps after an opening parenthesis. -/
def assignedJson : Pattern :=
  assigned ++ optional (lit "(") ++ blanks ++ awaitedJson

/-- Names taken out of the variable `body`. -/
def bodyDestructuring : Pattern :=
  declarationWord ++ blanks ++ TypeBlock.openBrace ++ run (fun c => c.val != 0x7D)
    ++ TypeBlock.closeBrace ++ assigned ++ lit "body" ++ wordEdge

/-- A variable, remembered as one, that is assigned an awaited body. -/
def bodyAssignment : Pattern :=
  declarationWord ++ blanks1 ++ group 1 word1 ++ assignedJson

/-- Names, remembered as one, taken out of a variable, remembered as two, of which nothing is
read or called. -/
def destructuring : Pattern :=
  declarationWord ++ blanks ++ TypeBlock.openBrace ++ group 1 (run TypeBlock.isFlat)
    ++ TypeBlock.closeBrace ++ assigned ++ group 2 word1 ++ wordEdge
    ++ follows false (blanks ++ one fun c : CodePoint => c == '.' || c == '(' || c == '[')

/-- Names, remembered as one, taken out of an awaited body. -/
def jsonDestructuring : Pattern :=
  declarationWord ++ blanks ++ TypeBlock.openBrace ++ group 1 (run TypeBlock.isFlat)
    ++ TypeBlock.closeBrace ++ assignedJson

/-- Whether a text reads a request body. -/
def isBodyRead (source : Text) : Bool :=
  awaitedJson.occursIn source || bodyDestructuring.occursIn source

/-- The variables that hold a body, in code-point order: `body` and those assigned one. -/
def identifiers (source : Text) : List Text :=
  let assigned : List Text := (bodyAssignment.findAll source).map (·.group 1)
  Text.sort (List.eraseDups (("body" : Text) :: assigned))

/-- Names that are flags by themselves. -/
def flagNames : List Text :=
  ["enabled", "active", "completed", "published", "archived", "done", "verified", "public",
    "private"]

/-- Beginnings of names that are flags if a capital follows. -/
def flagBeginnings : List Text := ["is", "has", "can", "should", "allow", "enable"]

/-- Whether a name is that of a flag. -/
def isFlagName (name : Text) : Bool :=
  flagNames.contains (Text.lower name)
    || flagBeginnings.any fun b =>
      b.isPrefixOf name && (name.drop b.length).head?.any CodePoint.isUpper

/-- An example value for a property with a name. -/
def exampleForName (name : Text) : Json :=
  let lowered := Text.lower name
  if Text.hasPart "email" lowered then .str "user@example.com"
  else if Text.hasPart "password" lowered then .str "securePassword123"
  else if Text.hasPart "title" lowered then .str "Example Title"
  else if Text.hasPart "description" lowered then .str "Example description"
  else if Text.hasPart "name" lowered then .str "Example Name"
  else if lowered == "id" || name.endsWith "Id" || name.endsWith "_id" || name.endsWith "ID" then
    .str "123"
  else if isFlagName name then .bool true
  else .str ("example " ++ name)

/-- An example value for a property. -/
def exampleValue (f : BodyField) : Json :=
  match f.values with
  | some (first :: _) => .str first
  | _ =>
    if f.type == "number" then .int 0
    else if f.type == "boolean" then .bool true
    else if f.type == "array" then .arr []
    else if f.type == "object" then .obj []
    else exampleForName f.name

/-- The name at the beginning of an item of a binding pattern, and whether the item has no
default; rest elements and items without a name are passed over. -/
def bound? (item : Text) : Option (Text × Bool) :=
  let item := Text.strip item
  let name := item.takeWhile TypeBlock.isNamePart
  let rest := item.dropWhile TypeBlock.isNamePart
  if name.isEmpty then none
  else some (name,
    !((rest.dropWhile CodePoint.isBlank).head? == some ('?' : CodePoint) || rest.contains '='))

/-- The names that the inside of a binding pattern binds, each with whether it is required. -/
def boundNames (inside : Text) : List (Text × Bool) :=
  (inside.splitOn ',').filterMap bound?

/-- The fields of all declared types of a file, the first declaration of a name counting. -/
def declaredFields (content : Text) : Assoc TypeBlock.Field :=
  ((TypeBlock.all content).flatMap (·.fields)).foldl (fun m (k, f) => Assoc.putNew k f m) []

/-- A field of a declared type as a property. -/
def ofDeclared (name : Text) (required : Bool) (f : TypeBlock.Field) : BodyField :=
  let (type, values) := FieldType.ofUnion f.type
  ⟨name, required && !f.isOptional, type.name, values⟩

/-- The properties taken out of a body variable. -/
def ofDestructuring? (ctx : RouteContext) : Option (List BodyField) :=
  let known := identifiers ctx.source
  let declared := declaredFields ctx.content
  (destructuring.findAll ctx.source).findSome? fun m =>
    if !known.contains (m.group 2) then none
    else
      let fields := (boundNames (m.group 1)).map fun (name, required) =>
        match declared.get? name with
        | some f => ofDeclared name required f
        | none => ⟨name, required, FieldType.string.name, none⟩
      if fields.isEmpty then none else some fields

/-- A property of which only the name is known. -/
def accessed (name : Text) (required : Bool) : BodyField :=
  ⟨name, required, (if isFlagName name then FieldType.boolean else FieldType.string).name, none⟩

/-- First characters of property names. -/
def isPropertyStart (c : CodePoint) : Bool :=
  c.isAsciiLetter || c == '_' || c == '$'

/-- A property, remembered as one, read from one of several variables and not called. -/
def propertyRead (holders : List Text) : Pattern :=
  wordEdge ++ oneOf (holders.map lit) ++ optional (lit "?") ++ lit "."
    ++ group 1 (one isPropertyStart ++ run TypeBlock.isNamePart) ++ wordEdge
    ++ follows false (blanks ++ lit "(")

/-- The properties taken out of an awaited body and those read from a body variable. -/
def ofAccess? (ctx : RouteContext) : Option (List BodyField) :=
  let taken := (jsonDestructuring.findAll ctx.source).flatMap fun m => boundNames (m.group 1)
  let read := ((propertyRead (identifiers ctx.source)).findAll ctx.source).map fun m =>
    (m.group 1, false)
  let fields : Assoc BodyField := (taken ++ read).foldl (fun m (name, required) =>
    Assoc.putNew name (accessed name required) m) []
  if fields.isEmpty then none else some (fields.map (·.2))

/-- Endings of the names of types that describe bodies. -/
def bodyTypeEndings : List Text :=
  ["Request", "Body", "Input", "Payload", "Data", "Dto", "Params"]

/-- Whether a type name is that of a body. -/
def isBodyTypeName (name : Text) : Bool :=
  bodyTypeEndings.any fun ending => name.endsWith ending

/-- The fields of the first declared type with the name of a body, or else of the first one. -/
def ofDeclarations? (ctx : RouteContext) : Option (List BodyField) :=
  let blocks := TypeBlock.all ctx.content
  ((blocks.find? fun b => isBodyTypeName b.name).orElse fun _ => blocks.head?).map fun b =>
    b.fields.map fun (name, f) => ofDeclared name true f

end BodyField

namespace RequestBody

/-- The schema of a property. -/
def property (f : BodyField) : Assoc Json :=
  match f.values with
  | some (first :: more) => [("type", Json.str f.type), ("enum", Json.ofTexts (first :: more))]
  | _ => [("type", Json.str f.type)]

/-- The schema of an object with given properties. -/
def schemaOf (fields : List BodyField) : Assoc Json :=
  let properties := Assoc.ofList <| fields.map fun f =>
    (f.name, Json.obj (property f))
  let required := (fields.filter (·.required)).map (·.name)
  let demand : Assoc Json := if required.isEmpty then [] else [("required", .ofTexts required)]
  ("type", .str "object") :: ("properties", .obj properties) :: demand

/-- The body with given properties. -/
def ofFields (fields : List BodyField) : RequestBody :=
  { type := "object"
    schema := schemaOf fields
    description := some "Request body"
    example? := .obj (Assoc.ofList (fields.map fun f => (f.name, f.exampleValue)))
    required := (fields.filter (·.required)).map (·.name) }

/-- The properties that a handler takes from its body, by the first way that finds any. -/
def fields? (ctx : RouteContext) : Option (List BodyField) :=
  (BodyField.ofDestructuring? ctx).orElse fun _ =>
    (BodyField.ofAccess? ctx).orElse fun _ => BodyField.ofDeclarations? ctx

/-- The body that a handler expects, if its method changes something and it reads a body. -/
def infer (ctx : RouteContext) : Option RequestBody :=
  if !ctx.verb?.any Verb.isMutating || !BodyField.isBodyRead ctx.source then none
  else some (ofFields ((fields? ctx).getD []))

end RequestBody

end RouteDocs
