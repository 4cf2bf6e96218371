import RouteDocs.Docs.Codec
import RouteDocs.Json.Reader
import RouteDocs.Text.Utf8

/-!
# Requests to the Editor

What clients of the editor send and what they ask for with it.

## Main Definitions

* `Editor.Request`: a method, a path and a body
* `Editor.Call`: what can be asked of the editor
* `Editor.Refusal`: why a request is not granted
* `Editor.Request.call`: what a request asks for

## Design Notes

A request is understood completely before any file is touched: its body is valid JSON and has
the form of an endpoint or of a documentation. A path with further slashes at its end stands for
the path without them.
-/

namespace RouteDocs

namespace Editor

/-- A request of a client. -/
structure Request where
  /-- The method. -/
  method : Text
  /-- The path. -/
  path : Text
  /-- The body, which may be empty. -/
  body : Text
  deriving Repr, DecidableEq

/-- What can be asked of the editor. -/
inductive Call where
  /-- The page. -/
  | page
  /-- The documentation. -/
  | data
  /-- To replace the endpoint with a number. -/
  | update (index : Int) (endpoint : Endpoint)
  /-- To replace the whole documentation. -/
  | saveAll (d : Documentation)

/-- Why a request is not granted. -/
inductive Refusal where
  /-- Nothing has this path. -/
  | notFound
  /-- What has this path does not know the method. -/
  | methodNotAllowed
  /-- The body cannot be read. -/
  | unparsableBody
  /-- The path or the body has faults. -/
  | invalid (issues : List Issue)
  /-- No endpoint has the number. -/
  | noSuchEndpoint
  /-- The file holds no documentation. -/
  | unreadableFile
  /-- The file cannot be written. -/
  | unwritableFile
  deriving Repr, DecidableEq

/-- What a path can lead to. -/
inductive Resource where
  /-- The page. -/
  | page
  /-- The documentation. -/
  | data
  /-- The endpoint with a number, as it is written. -/
  | endpoint (index : Text)
  /-- The documentation as a whole, to be saved. -/
  | all
  deriving Repr, DecidableEq

namespace Resource

/-- What the paths of endpoints begin with. -/
def endpointStart : Text := "/api/endpoint/"

/-- What a path leads to exactly. -/
def ofExactPath? (path : Text) : Option Resource :=
  if path == "/" then some page
  else if path == "/api/data" then some data
  else if path == "/api/save-all" then some all
  else if path.startsWith endpointStart then
    let index := path.drop endpointStart.length
    if index.isEmpty || index.contains '/' then none else some (endpoint index)
  else none

/-- What a path leads to, slashes at its end disregarded. -/
def ofPath? (path : Text) : Option Resource :=
  (ofExactPath? path).orElse fun _ =>
    ofExactPath? (Text.trimRight (fun c : CodePoint => c == '/') path)

/-- The method that a resource knows. -/
def method : Resource → Text
  | page | data => "GET"
  | endpoint _ | all => "PUT"

end Resource

/-- The bytes that percent signs with two hexadecimal digits each stand for, and the text after
them. -/
def percentBytes : Text → List UInt8 × Text
  | x :: a :: b :: rest =>
    match if x == '%' then a.hexValue? else none, b.hexValue? with
    | some high, some low =>
      let (bytes, rest) := percentBytes rest
      ((16 * high + low).toUInt8 :: bytes, rest)
    | _, _ => ([], x :: a :: b :: rest)
  | t => ([], t)

/-- A text in which percent signs with two hexadecimal digits stand for bytes; bytes that are no
text become a replacement character. The number bounds the turns. -/
def unescapePercents : Nat → Text → Text
  | 0, t => t
  | _ + 1, [] => []
  | turns + 1, x :: t =>
    let (bytes, rest) := percentBytes (x :: t)
    if bytes.isEmpty then x :: unescapePercents turns t
    else
      let part : Text := (Utf8.decode bytes).toOption.getD [CodePoint.ofNat 0xFFFD]
      part ++ unescapePercents turns rest

namespace Request

/-- The path without a query and without escapes. -/
def plainPath (r : Request) : Text :=
  let path := r.path.takeWhile fun c : CodePoint => c != '?' && c != '#'
  unescapePercents path.length path

/-- The value of the body, unless it is empty or null. -/
def bodyValue? (r : Request) : Except Refusal (Option Json) :=
  let text := match r.body with
    | c :: rest => if c.val == 0xFEFF then rest else c :: rest
    | [] => []
  if r.body.isEmpty then .ok none
  else match Json.read .fragment text with
    | .ok .null => .ok none
    | .ok v => .ok (some v)
    | .error e => match e.cause with
      | .tooManyDigits _ | .tooDeep => .error .unparsableBody
      | _ => .error (.invalid [⟨[.key "body", .index e.position], .notJson⟩])

/-- What a body decodes to; there must be one. -/
def decodeBody {α : Type} (decode : Decoder α) (v : Option Json) : Decoded α :=
  match v with
  | none => (Decoded.fail .missing).below (.key "body")
  | some v => (decode v).below (.key "body")

/-- The number of an endpoint. -/
def decodeIndex (t : Text) : Decoded Int :=
  ((Decoder.integer (.str t)).below (.key "index")).below (.key "path")

/-- A decoded value, or the refusal with the issues. -/
def valid {α : Type} : Decoded α → Except Refusal α
  | .ok a => .ok a
  | .error issues => .error (.invalid issues)

/-- What a request asks for. -/
def call (r : Request) : Except Refusal Call :=
  match Resource.ofPath? r.plainPath with
  | none => .error .notFound
  | some resource =>
    if r.method != resource.method then .error .methodNotAllowed
    else match resource with
      | .page => .ok .page
      | .data => .ok .data
      | .endpoint index => do
        let v ← r.bodyValue?
        valid <| (Decoded.of Call.update)
          |>.also (decodeIndex index)
          |>.also (decodeBody (Endpoint.decode .request) v)
      | .all => do
        let v ← r.bodyValue?
        valid <| (Decoded.of Call.saveAll)
          |>.also (decodeBody (Documentation.decode .request) v)

end Request

end Editor

end RouteDocs
