import RouteDocs.Handler.Export
import RouteDocs.Handler.DocComment

/-!
# Handler Sections

A route file falls into a preamble, which all handlers share, and one section for each handler,
from its documentation comment or signature to the start of the next handler.

## Main Definitions

* `Handler.starts`: where the section of each exported verb begins
* `Handler.source`: what belongs to a method: the preamble and its own section
-/

namespace RouteDocs

namespace Handler

/-- Where a handler with a signature at an offset begins: at its documentation comment, if it
has one. -/
def startAt (content : Text) (offset : Nat) : Nat :=
  ((DocComment.before? content offset).map (·.start)).getD offset

/-- The exported verbs in canonical order, each with the beginning of its section. -/
def starts (content : Text) : List (Verb × Nat) :=
  Verb.all.filterMap fun v => (offset? content v.name).map fun o => (v, startAt content o)

/-- The beginning of the section of a method, if a verb of that name is exported. -/
def start? (content method : Text) : Option Nat :=
  ((starts content).find? fun (v, _) => v.name == method).map (·.2)

/-- The end of a section that begins at a place: the next beginning, or the end of the file. -/
def sectionEnd (content : Text) (own : Nat) : Nat :=
  (((starts content).map (·.2)).filter fun s => own < s).min?.getD content.length

/-- The length of the preamble: where the first section begins. -/
def preambleEnd (content : Text) : Nat :=
  ((starts content).map (·.2)).min?.getD content.length

/-- The preamble followed by the section of a method, or the whole file if the method has no
section. -/
def source (content method : Text) : Text :=
  match start? content method with
  | none => content
  | some own =>
    content.take (preambleEnd content)
      ++ (content.take (sectionEnd content own)).drop own

end Handler

end RouteDocs
