import RouteDocs.Docs.Codec
import RouteDocs.Json.Printer
import RouteDocs.Json.Reader

/-!
# The JSON Document

A documentation as an indented JSON text, and its reading.

## Main Definitions

* `Documentation.print`: the text, which exists if all texts can be encoded
* `Documentation.read`: the documentation of a text, or all issues
-/

namespace RouteDocs

namespace Documentation

/-- The indented JSON text of a documentation; a text with surrogates cannot be written. -/
def print (d : Documentation) : Except Utf8.EncodeError Text :=
  let v := d.toJson false
  match v.firstSurrogates with
  | some e => .error e
  | none => .ok (Json.print .indented v)

/-- What a JSON text decodes to. -/
def readWith {α : Type} (decode : Decoder α) (t : Text) : Decoded α :=
  match Json.read .document t with
  | .error _ => .fail .notJson
  | .ok v => decode v

/-- The documentation of a JSON text. -/
def read (t : Text) : Decoded Documentation :=
  readWith (Documentation.decode .document) t

end Documentation

end RouteDocs
