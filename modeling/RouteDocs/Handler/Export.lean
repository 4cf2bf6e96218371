import RouteDocs.Docs.Model
import RouteDocs.Text.Pattern

/-!
# Exported Handlers

A route file exports a handler as a function, as a constant or in an export list, under the name
of its verb.

## Main Definitions

* `Handler.functionExport`, `Handler.constantExport`, `Handler.listExport`: the three signatures
* `Handler.offset?`: where the earliest signature of a method stands
* `Handler.verbs`: the verbs for which a file exports handlers

## Design Notes

The keywords `export` and `async` are met in any letter case, the name of the method only as it
is. In an export list a name counts as what it is exported as, so `GET as handler` does not
export `GET`, and a name is not found within a longer one.
-/

namespace RouteDocs

namespace Handler

open Pattern

/-- Characters of identifiers: word characters and the dollar sign. -/
def isIdentifierPart (c : CodePoint) : Bool :=
  c.isWord || c == '$'

/-- An exported function with the name of a method. -/
def functionExport (method : Text) : Pattern :=
  caseless "export" ++ blanks1 ++ optional (caseless "async" ++ blanks1)
    ++ lit "function" ++ blanks1 ++ lit method ++ blanks
    ++ one fun c : CodePoint => c == '(' || c == '<'

/-- An optional type annotation and the equals sign of a declaration. -/
def annotatedEquals : Pattern :=
  optional (one (fun c : CodePoint => c == ':') ++ run1 fun c : CodePoint => c != '=' && c != '\n')
    ++ lit "="

/-- An exported constant with the name of a method. -/
def constantExport (method : Text) : Pattern :=
  caseless "export" ++ blanks1 ++ lit "const" ++ blanks1 ++ lit method ++ blanks
    ++ annotatedEquals

/-- The opening brace. -/
def openBrace : Pattern := one fun c => c.val == 0x7B

/-- The closing brace. -/
def closeBrace : Pattern := one fun c => c.val == 0x7D

/-- Everything but a closing brace. -/
def notCloseBrace (c : CodePoint) : Bool := c.val != 0x7D

/-- An export list that names a method, not renaming it to something else. -/
def listExport (method : Text) : Pattern :=
  caseless "export" ++ blanks ++ openBrace ++ shortRun notCloseBrace
    ++ notAfter isIdentifierPart ++ lit method ++ follows false (one isIdentifierPart)
    ++ follows false (blanks1 ++ lit "as" ++ wordEdge)
    ++ run notCloseBrace ++ closeBrace

/-- The signatures under which a method can be exported. -/
def signatures (method : Text) : List Pattern :=
  [functionExport method, constantExport method, listExport method]

/-- The number of code points before the earliest signature of a method, if there is one. -/
def offset? (content method : Text) : Option Nat :=
  ((signatures method).filterMap fun p => (p.find? content).map (·.start.offset)).min?

/-- The verbs for which a file exports handlers, in canonical order. -/
def verbs (content : Text) : List Verb :=
  Verb.all.filter fun v => (offset? content v.name).isSome

end Handler

end RouteDocs
