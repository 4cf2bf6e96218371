import RouteDocs.Editor.Handle
import RouteDocs.Json.Printer
import RouteDocs.Text.Case
import RouteDocs.Text.Digit

/-!
# Messages of the Editor

The form in which requests and responses travel: a first line, header lines, an empty line and a
body.

## Main Definitions

* `Editor.Request.ofFirstLine?`: the request that a message begins
* `Editor.bodyLength?`: the length of the body, as a header line tells it
* `Editor.Response.message`: the message of a response
-/

namespace RouteDocs

namespace Editor

/-- The request that the first line of a message and its body make. -/
def Request.ofFirstLine? (line body : Text) : Option Request :=
  match line.strip.splitOn ' ' with
  | method :: path :: _ => some ⟨method, path, body⟩
  | _ => none

/-- The number of bytes of a body, if a header line tells it. -/
def bodyLength? (header : Text) : Option Nat :=
  (header.cut? ':').bind fun (name, value) =>
    if name.lower == "content-length" then value.readInt?.map Int.toNat else none

/-- A step of a path as a JSON value. -/
def stepValue : Step → Json
  | .key k => .str k
  | .index i => .int i

/-- A fault of a request as a JSON value. -/
def issueValue (e : Issue) : Json :=
  .obj [("type", .str e.problem.code), ("loc", .arr (e.path.map stepValue))]

/-- The kind of contents of a reply and their text. -/
def Reply.contents : Reply → Text × Text
  | page t => ("text/html; charset=utf-8", t)
  | value v => ("application/json", Json.print .compact v)
  | issues es => ("application/json",
      Json.print .compact (.obj [("detail", .arr (es.map issueValue))]))

/-- The message of a response. -/
def Response.message (r : Response) : Text :=
  let (kind, text) := r.reply.contents
  let size := ((Utf8.encode text).toOption.getD []).length
  Text.join "\r\n" ["HTTP/1.1 " ++ Text.ofNat r.status ++ " ", "Content-Type: " ++ kind,
    "Content-Length: " ++ Text.ofNat size, [], text]

end Editor

end RouteDocs
