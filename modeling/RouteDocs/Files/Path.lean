import RouteDocs.Text.CodePoint

/-!
# File Paths

Paths with slashes, kept as their components.

## Main Definitions

* `FilePath`: the root and the components of a path
* `FilePath.ofText`, `FilePath.toText`: reading and writing
* `FilePath.relativeTo?`: the part of a path below another one
* `FilePath.resolved`: the path without `..`

## Design Notes

Empty components and `.` say nothing and are dropped when a path is read; `..` is kept. A path
without components is written `.`. Exactly two slashes at the beginning are a root of their own.
-/

namespace RouteDocs

/-- A path in a file system. -/
structure FilePath where
  /-- The slashes at the beginning: none, one or two. -/
  root : Text
  /-- The components. -/
  parts : List Text
  deriving DecidableEq

namespace FilePath

/-- Whether a path begins at the root of the file system. -/
def isAbsolute (p : FilePath) : Bool := !p.root.isEmpty

/-- The path that a text writes. -/
def ofText (t : Text) : FilePath :=
  let slashes := (t.takeWhile fun c : CodePoint => c == '/').length
  let root : Text := if slashes == 0 then [] else if slashes == 2 then "//" else "/"
  ⟨root, (t.splitOn '/').filter fun s => !s.isEmpty && s != "."⟩

/-- The text that writes a path. -/
def toText (p : FilePath) : Text :=
  if p.root.isEmpty && p.parts.isEmpty then "." else p.root ++ Text.join "/" p.parts

/-- A path read from a directory on; an absolute path stays what it is. -/
def within (p base : FilePath) : FilePath :=
  if p.isAbsolute then p else { base with parts := base.parts ++ p.parts }

/-- The path that a text writes, read from a directory on. -/
def join (base : FilePath) (t : Text) : FilePath :=
  (ofText t).within base

/-- The last component, empty if there is none. -/
def name (p : FilePath) : Text :=
  p.parts.getLast?.getD []

/-- The directory of a path; a path without components is its own directory. -/
def parent (p : FilePath) : FilePath :=
  { p with parts := p.parts.dropLast }

/-- The ending of the last component from its last point on, unless the point begins or ends
the component. -/
def suffix (p : FilePath) : Text :=
  match Text.lastIndexOf? "." p.name with
  | some i => if 0 < i ∧ i + 1 < p.name.length then p.name.drop i else []
  | none => []

/-- The components after a beginning, if the list begins so. -/
def partsAfter? : List Text → List Text → Option (List Text)
  | [], parts => some parts
  | _ :: _, [] => none
  | b :: base, p :: parts => if b == p then partsAfter? base parts else none

/-- The part of a path below another one, if it lies there by its components. -/
def relativeTo? (p base : FilePath) : Option FilePath :=
  if p.root == base.root then (partsAfter? base.parts p.parts).map fun parts => ⟨[], parts⟩
  else none

/-- The components that remain when each `..` takes back the component before it; `done` are
those before, the nearest first. -/
def resolveParts (done : List Text) : List Text → List Text
  | [] => done.reverse
  | part :: more =>
    if part == ".." then resolveParts (done.drop 1) more else resolveParts (part :: done) more

/-- An absolute path with each `..` taking back the component before it. -/
def resolved (p : FilePath) : FilePath :=
  { p with parts := resolveParts [] p.parts }

end FilePath

end RouteDocs
