import RouteDocs.Handler.Context
import RouteDocs.Infer.Catalog
import RouteDocs.Json.Reader
import RouteDocs.Text.Pattern

/-!
# Responses

What a handler answers: the literal payload that it returns or the answers usual for its method,
changed by the answers that its comments annotate.

## Main Definitions

* `Response.describe`: the meaning of a status code
* `Response.payloadNames`: the names that a payload refers to
* `Response.literal?`: the answer seen in a call that returns a payload
* `Response.ofNote`: the answer of an annotation `@response code text {json}`
* `Response.infer`: the answers of a handler

## Design Notes

An annotation whose braces hold no JSON keeps its whole text as the description. JSON that is
well-formed but beyond the limits of the reader makes the inference fail, which
`NoteFault` reports.
-/

namespace RouteDocs

/-- Why an annotated answer cannot be used. -/
inductive NoteFault where
  /-- An integer has too many digits. -/
  | tooManyDigits (count : Nat)
  /-- Brackets are nested too deep to be read. -/
  | tooDeep
  /-- The example is refused as a value. -/
  | refused (issues : List Issue)
  deriving Repr, DecidableEq

namespace Response

open Pattern

/-- The meaning of a status code, however its number is written. -/
def describe (status : Text) : Text :=
  match Catalog.wordings.get? status with
  | some wording => wording
  | none =>
    match Text.readInt? status with
    | some n => Text.ofString ((Catalog.phrases.lookup n).getD "Response")
    | none => "Response"

/-- First characters of identifiers. -/
def isIdentifierStart (c : CodePoint) : Bool :=
  c.isAsciiLetter || c == '_' || c == '$'

/-- Characters of identifiers. -/
def isIdentifierPart (c : CodePoint) : Bool :=
  c.isWord || c == '$'

/-- An identifier. -/
def identifier : Pattern := one isIdentifierStart ++ run isIdentifierPart

/-- Whether a text is an identifier, apart from one line feed at its end. -/
def isIdentifier (t : Text) : Bool :=
  match t with
  | [] => false
  | c :: r =>
    let rest := r.dropWhile isIdentifierPart
    isIdentifierStart c && (rest.isEmpty || rest == "\n")

/-- The names in an item of an object: its key and its value, as far as they are identifiers. -/
def itemNames (item : Text) : List Text :=
  let item := Text.strip item
  if item.isEmpty || item.startsWith "..." then []
  else
    let (key, value) := (Text.cut? ':' item).getD (item, [])
    let key := Text.trim (fun c => c.val == 0x27 || c.val == 0x22) (Text.strip key)
    [key, Text.strip value].filter isIdentifier

/-- The names that a payload refers to: the keys and values of an object, or the last name of a
path. -/
def payloadNames (payload : Text) : List Text :=
  if payload.head? != some ('\x7b' : CodePoint) then [((payload.splitOn '.').getLast?).getD []]
  else
    let inside : Text := Text.trim
      (fun c => c.val == 0x7B || c.val == 0x7D || c == ' ' || c == '\n') payload
    (inside.splitOn ',').flatMap itemNames |>.eraseDups

/-- Everything but braces. -/
def isFlat (c : CodePoint) : Bool := c.val != 0x7B && c.val != 0x7D

/-- A brace with a given number. -/
def brace (n : Nat) : Pattern := one fun c => c.val == n

/-- A call that returns a payload, remembered as two; the status is remembered as one or three. -/
def call : Pattern :=
  wordEdge
    ++ oneOf [lit "NextResponse", lit "Response",
      lit "res" ++ optional (lit ".status(" ++ blanks ++ group 1 threeDigits ++ blanks ++ lit ")")]
    ++ lit ".json(" ++ blanks
    ++ group 2 (alt (brace 0x7B ++ run isFlat ++ brace 0x7D)
      (identifier ++ star (lit "." ++ identifier)))
    ++ optional (blanks ++ lit "," ++ blanks ++ brace 0x7B ++ shortRun isFlat
      ++ wordEdge ++ lit "status" ++ blanks ++ lit ":" ++ blanks ++ group 3 threeDigits
      ++ run isFlat ++ brace 0x7D)

/-- The answer of the first call with a success status and a known payload. -/
def literal? (source : Text) : Option Response :=
  (call.findAll source).findSome? fun m =>
    let status := ((m.group? 1).orElse fun _ => m.group? 3).getD "200"
    if status.head? != some ('2' : CodePoint) then none
    else (Catalog.lookup (payloadNames (m.group 2))).map fun payload =>
      ⟨status, describe status, payload, [], []⟩

/-- An answer with an example of one member. -/
def simple (status description : Text) (payload : Assoc Json) : Text × Response :=
  (status, ⟨status, description, .obj payload, [], []⟩)

/-- The answers usual for a method. -/
def defaults (verb : Option Verb) : Assoc Response :=
  let notFound := simple "404" "Not found" [("error", .str "Resource not found")]
  match verb with
  | some .get => [simple "200" "Success" [("data", .arr [])], notFound]
  | some .post | some .put | some .patch => [
      simple "200" "Success" [("success", .bool true)],
      simple "201" "Created" [("id", .str "123"), ("success", .bool true)],
      simple "400" "Bad request" [("error", .str "Invalid input")]]
  | some .delete => [simple "200" "Success" [("success", .bool true)], notFound]
  | _ => []

/-- Everything between the first opening and the last closing brace of a line. -/
def inlineJson : Pattern :=
  brace 0x7B ++ run (fun c : CodePoint => c != '\n') ++ brace 0x7D

/-- The text of an annotation without blanks and the end of a comment around it. -/
def noteText (text : Text) : Text :=
  let full := Text.strip text
  if full.endsWith "*/" then Text.trimRight CodePoint.isBlank (full.take (full.length - 2)) else full

/-- The answer of an annotation with a status code and a text. -/
def ofNote (status text : Text) : Except NoteFault Response :=
  let full := noteText text
  match inlineJson.find? full with
  | none => .ok ⟨status, full, .null, [], []⟩
  | some m =>
    match Json.read .fragment m.text with
    | .error e =>
      match e.cause with
      | .tooManyDigits count => .error (.tooManyDigits count)
      | .tooDeep => .error .tooDeep
      | _ => .ok ⟨status, full, .null, [], []⟩
    | .ok payload =>
      match (Decoder.free .value payload : Decoded Json) with
      | .error issues =>
        .error (.refused (issues.map fun e => { e with path := .key "example" :: e.path }))
      | .ok payload =>
        let description : Text := Text.strip
          (full.take m.start.offset ++ full.drop m.stop.offset)
        .ok ⟨status, if description.isEmpty then describe status else description, payload, [], []⟩

/-- An annotated answer: the status and the text are remembered as one and two. -/
def note : Pattern :=
  caseless "@response" ++ blanks1 ++ group 1 threeDigits ++ blanks1
    ++ group 2 (run1 fun c : CodePoint => c != '\n')

/-- The annotated answers of a text by status code, the last one of a code counting. -/
def annotated (source : Text) : Except NoteFault (Assoc Response) :=
  (note.findAll source).foldlM (fun found m =>
    (ofNote (m.group 1) (m.group 2)).map fun r => Assoc.put (m.group 1) r found) []

/-- Whether a text contains a whole word. -/
def mentions (source word : Text) : Bool :=
  (wordEdge ++ lit word ++ wordEdge).occursIn source

/-- The names of required fields that a text mentions. -/
def requiredNames (source : Text) : List Text :=
  (["id", "createdAt", "updatedAt", "status"] : List Text).filter (mentions source)

/-- The names of optional fields that a text mentions. -/
def optionalNames (source : Text) : List Text :=
  (["description", "notes", "tags", "metadata"] : List Text).filter (mentions source)

/-- The answers of a handler before annotations: the literal one, or those of its method. -/
def base (ctx : RouteContext) : Assoc Response :=
  match literal? ctx.source with
  | some r => [(r.statusCode, r)]
  | none => defaults ctx.verb?

/-- The answers of a handler. -/
def infer (ctx : RouteContext) : Except NoteFault (Assoc Response) :=
  (annotated ctx.source).map fun changes =>
    (Assoc.update (base ctx) changes).map fun (code, r) =>
      (code, { r with
        requiredFields := requiredNames ctx.source
        optionalFields := optionalNames ctx.source })

end Response

end RouteDocs
