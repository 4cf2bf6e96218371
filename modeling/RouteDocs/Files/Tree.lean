import RouteDocs.Files.Path
import RouteDocs.Text.Blank
import RouteDocs.Text.Quoted
import RouteDocs.Text.Utf8

/-!
# File Trees

A directory with everything below it as a value, and the operations on it.

## Main Definitions

* `FileTree`: the files and directories below a base directory, and the working directory
* `FileTree.locate`: the place that a path leads to
* `FileTree.readText`: the text of a file
* `FileAction`: operations that change a tree, such as `FileTree.writeText` and
  `FileTree.makeDirs`
* `FileError`: why an operation fails

## Design Notes

A place is the list of components below the base directory; nothing outside the base is known.
`..` in a path is followed through directories that exist. An operation that fails keeps what it
has changed before: a text that cannot be encoded leaves an empty file. A name whose bytes are no
text is kept with a surrogate for each byte that has no meaning.

Each name in a path has a greatest length. A file system also limits the length of a whole path;
that limit is left out.
-/

namespace RouteDocs

/-- A place in a file tree: the components below the base directory. -/
abbrev Place := List Text

/-- What stands at a place. -/
inductive FileEntry where
  /-- A file with its bytes. -/
  | file (bytes : List UInt8)
  /-- A directory. -/
  | directory
  deriving DecidableEq

/-- A directory with everything below it. -/
structure FileTree where
  /-- The absolute path of the base directory. -/
  base : FilePath
  /-- The place of the working directory. -/
  cwd : Place
  /-- What stands below the base directory. -/
  entries : List (Place × FileEntry)

/-- Why an operation on files fails. -/
inductive FileError where
  /-- Nothing is there. -/
  | notFound (path : Text)
  /-- Something is there already. -/
  | alreadyExists (path : Text)
  /-- A file stands where a directory is needed. -/
  | notADirectory (path : Text)
  /-- A directory stands where a file is needed. -/
  | isADirectory (path : Text)
  /-- A component of the path is too long. -/
  | nameTooLong (path : Text)
  /-- The path contains a null character. -/
  | nullInPath
  /-- The text or the path has surrogates. -/
  | unencodable (e : Utf8.EncodeError)
  /-- The bytes are no text. -/
  | undecodable (e : Utf8.DecodeError)
  deriving DecidableEq

/-- The wording of a failed operation on a path. -/
def FileError.withPath (number : Nat) (wording path : Text) : Text :=
  "[Errno " ++ Text.ofNat number ++ "] " ++ wording ++ ": " ++ path.quoted

/-- The wording of an error. -/
def FileError.message : FileError → Text
  | .notFound p => withPath 2 "No such file or directory" p
  | .alreadyExists p => withPath 17 "File exists" p
  | .notADirectory p => withPath 20 "Not a directory" p
  | .isADirectory p => withPath 21 "Is a directory" p
  | .nameTooLong p => withPath 36 "File name too long" p
  | .nullInPath => "embedded null byte"
  | .unencodable e => e.message
  | .undecodable e => e.message

/-- An operation that can change a tree, also when it fails. -/
abbrev FileAction (α : Type) := ExceptT FileError (StateM FileTree) α

/-- Whether a surrogate stands for a byte of a name. -/
def isNameByte (c : CodePoint) : Bool := 0xDC80 ≤ c.val && c.val ≤ 0xDCFF

/-- The first run of surrogates that stand for no bytes, in a text that begins at a position. -/
def firstStray (position : Nat) : Text → Option Utf8.EncodeError
  | [] => none
  | c :: r =>
    if c.isSurrogate && !isNameByte c then
      some ⟨c, position, 1 + (r.takeWhile CodePoint.isSurrogate).length⟩
    else firstStray (position + 1) r

/-- The number of bytes of a name. -/
def nameSize (name : Text) : Nat :=
  (name.flatMap fun c => if isNameByte c then [c.val.toUInt8] else Utf8.encodeOne c).length

/-- The greatest number of bytes of a name. -/
def maxNameSize : Nat := 255

namespace FileTree

/-- What stands at a place; the base directory is always there. -/
def entry? (tree : FileTree) (place : Place) : Option FileEntry :=
  if place.isEmpty then some .directory
  else (tree.entries.find? (·.1 == place)).map (·.2)

/-- Whether a directory stands at a place. -/
def hasDirectory (tree : FileTree) (place : Place) : Bool :=
  tree.entry? place == some .directory

/-- The place reached from another one by components, each of which but the last must lead into
a directory; or why there is none. -/
def walk (tree : FileTree) (path : Text) (place : Place) : List Text → Except FileError Place
  | [] => .ok place
  | part :: more =>
    match tree.entry? place with
    | none => .error (.notFound path)
    | some (.file _) => .error (.notADirectory path)
    | some .directory =>
      if part == ".." then
        if place.isEmpty then .error (.notFound path) else walk tree path place.dropLast more
      else if maxNameSize < nameSize part then .error (.nameTooLong path)
      else walk tree path (place ++ [part]) more

/-- The place that a path leads to. The last component need not exist. -/
def locate (tree : FileTree) (path : FilePath) : Except FileError Place :=
  let text := path.toText
  match firstStray 0 text with
  | some e => .error (.unencodable e)
  | none =>
    if text.any fun c => c.val == 0 then .error .nullInPath
    else if path.isAbsolute then
      match path.relativeTo? tree.base with
      | some below => tree.walk text [] below.parts
      | none => .error (.notFound text)
    else tree.walk text tree.cwd path.parts

/-- What stands where a path leads. -/
def at? (tree : FileTree) (path : FilePath) : Option FileEntry :=
  match tree.locate path with
  | .ok place => tree.entry? place
  | .error _ => none

/-- Whether anything stands where a path leads. -/
def pathExists (tree : FileTree) (path : FilePath) : Bool :=
  (tree.at? path).isSome

/-- The absolute path of a path, with each `..` taking back the component before it. -/
def absolute (tree : FileTree) (path : FilePath) : FilePath :=
  let start : FilePath := { tree.base with parts := tree.base.parts ++ tree.cwd }
  (path.within start).resolved

/-- The bytes of a file. -/
def readBytes (tree : FileTree) (path : FilePath) : Except FileError (List UInt8) := do
  let place ← tree.locate path
  match tree.entry? place with
  | some (.file bytes) => .ok bytes
  | some .directory => .error (.isADirectory path.toText)
  | none => .error (.notFound path.toText)

/-- The text of a file with each line end as a line feed. -/
def readText (tree : FileTree) (path : FilePath) : Except FileError Text := do
  let bytes ← tree.readBytes path
  match Utf8.decode bytes with
  | .ok t => .ok t.universalNewlines
  | .error e => .error (.undecodable e)

/-- The tree with something put at a place. -/
def put (tree : FileTree) (place : Place) (entry : FileEntry) : FileTree :=
  if tree.entries.any (·.1 == place) then
    { tree with entries := tree.entries.map fun p => if p.1 == place then (place, entry) else p }
  else { tree with entries := tree.entries ++ [(place, entry)] }

/-- Writes a file, whose directory must exist. The file is opened before its text is encoded. -/
def writeText (path : FilePath) (t : Text) : FileAction Unit := do
  let tree ← get
  let place ← tree.locate path
  if !tree.hasDirectory place.dropLast then throw (.notFound path.toText)
  if tree.hasDirectory place then throw (.isADirectory path.toText)
  match Utf8.encode t with
  | .ok bytes => set (tree.put place (.file bytes))
  | .error e =>
    set (tree.put place (.file []))
    throw (.unencodable e)

/-- Makes one directory, unless it is there. -/
def makeDir (path : FilePath) : FileAction Unit := do
  let tree ← get
  let place ← tree.locate path
  match tree.entry? place with
  | some .directory => pure ()
  | some (.file _) => throw (.alreadyExists path.toText)
  | none => set (tree.put place .directory)

/-- Makes a directory and first those that it needs, of which there are at most a number. -/
def makeDirsWithin : Nat → FilePath → FileAction Unit
  | 0, path => makeDir path
  | rounds + 1, path => do
    match (← get).locate path with
    | .error (.notFound _) => makeDirsWithin rounds path.parent
    | _ => pure ()
    makeDir path

/-- Makes a directory together with those that it needs. -/
def makeDirs (path : FilePath) : FileAction Unit :=
  makeDirsWithin path.parts.length path

/-- The components below a place of everything that stands below it. -/
def below (tree : FileTree) (place : Place) : List (List Text × FileEntry) :=
  tree.entries.filterMap fun (p, e) =>
    match FilePath.partsAfter? place p with
    | some (part :: more) => some (part :: more, e)
    | _ => none

/-- The paths of all files below a directory, as seen from it. -/
def filesBelow (tree : FileTree) (path : FilePath) : List FilePath :=
  match tree.locate path with
  | .error _ => []
  | .ok place =>
    if !tree.hasDirectory place then []
    else (tree.below place).filterMap fun (parts, e) =>
      match e with
      | .file _ => some { path with parts := path.parts ++ parts }
      | .directory => none

end FileTree

end RouteDocs
