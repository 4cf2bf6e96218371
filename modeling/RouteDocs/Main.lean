import RouteDocs.Clock
import RouteDocs.Command.Run
import RouteDocs.Editor.Wire
import Std.Time.DateTime.Timestamp

/-!
# The Executable

Reads the files below the working directory, runs the program on them and writes what it changed.
The editor answers requests from the standard input on the standard output.
-/

namespace RouteDocs

namespace Executable

/-- How deep directories are read. -/
def maxDepth : Nat := 64

/-- What stands at an entry of a directory, and below it. -/
def readEntry : Nat → Place → IO.FS.DirEntry → IO (List (Place × FileEntry))
  | 0, _, _ => pure []
  | depth + 1, place, entry => do
    let here := place ++ [Text.ofString entry.fileName]
    if ← entry.path.isDir then
      let inner ← (← entry.path.readDir).toList.mapM (readEntry depth here)
      pure ((here, .directory) :: inner.flatten)
    else
      let bytes ← IO.FS.readBinFile entry.path
      pure [(here, .file bytes.toList)]

/-- The files below the working directory. -/
def readTree : IO FileTree := do
  let here ← IO.currentDir
  let entries ← (← here.readDir).toList.mapM (readEntry maxDepth [])
  pure ⟨FilePath.ofText (Text.ofString here.toString), [], entries.flatten⟩

/-- Writes what is new or changed. -/
def writeChanges (before after : FileTree) : IO Unit := do
  for (place, entry) in after.entries do
    if before.entry? place != some entry then
      let path := (Text.join "/" place).toString
      match entry with
      | .directory => IO.FS.createDirAll path
      | .file bytes => IO.FS.writeBinFile path ⟨bytes.toArray⟩

/-- The text of the current moment. -/
def now : IO Text := do
  let moment ← Std.Time.Timestamp.now
  pure (Clock.momentText (moment.toNanosecondsSinceUnixEpoch.val / 1000).toNat)

/-- Runs the program with more and more of what is typed, as long as it asks for that. -/
partial def converse (words : List Text) (tree : FileTree) (moment typed : Text) (shown : Nat) :
    IO (Command.Outcome × Command.Console) := do
  let (outcome, console) := Command.run words typed tree moment
  IO.print (Text.toString (console.output.drop shown))
  (← IO.getStdout).flush
  if outcome.errorOutput != Command.Stop.aborted.outcome.errorOutput then
    return (outcome, console)
  let line := Text.ofString (← (← IO.getStdin).getLine)
  if line.isEmpty then return (outcome, console)
  converse words tree moment (typed ++ line) (console.output.length + line.length)

/-- Answers the requests of clients one after another. -/
partial def serve (file : FilePath) (tree : FileTree) : IO Unit := do
  let input ← IO.getStdin
  let output ← IO.getStdout
  let first ← input.getLine
  if first.isEmpty then return
  let mut size := 0
  let mut header ← input.getLine
  while !header.trimAscii.isEmpty do
    size := (Editor.bodyLength? (Text.ofString header)).getD size
    header ← input.getLine
  let bytes ← input.read size.toUSize
  let body := (Utf8.decode bytes.toList).toOption.getD []
  match Editor.Request.ofFirstLine? (Text.ofString first) body with
  | none => serve file tree
  | some request =>
    match Editor.handle file request tree with
    | (.error _, _) => serve file tree
    | (.ok response, changed) =>
      writeChanges tree changed
      output.putStr (Text.toString response.message)
      output.flush
      serve file changed

end Executable

end RouteDocs

open RouteDocs in
/-- The program. -/
def main (words : List String) : IO UInt32 := do
  let tree ← Executable.readTree
  let (outcome, console) ←
    Executable.converse (words.map Text.ofString) tree (← Executable.now) [] 0
  Executable.writeChanges tree console.tree
  IO.eprint (Text.toString outcome.errorOutput)
  if let some failure := outcome.failure then
    IO.eprintln (Text.toString failure.message)
  for event in console.events do
    if let .serve file _ _ := event then
      Executable.serve (FilePath.ofText file) console.tree
  pure outcome.exitCode.toUInt32
