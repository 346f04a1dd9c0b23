import AuthorityLedger.Command
import AuthorityLedger.Storage.Image
import Std.Time.DateTime.Timestamp

/-!
# The program

Brings the files that a command line reaches into a `Site`, carries the command
out there, and brings back what it has printed and changed.  A database is kept
as its image in a file of its directory.
-/

namespace AuthorityLedger.Program

open Command (CommandLine Outcome Site)

/-- The path of a place. -/
def pathOf (place : Place) : String :=
  "/" ++ "/".intercalate place

/-- The file of a directory that holds the image of a database. -/
def imagePath (place : Place) : String :=
  FilePath.join (pathOf place) "records.json"

/-- The text of a file; bytes that are no text are one foreign character. -/
def textAt (path : String) : IO String := do
  let bytes ← IO.FS.readBinFile path
  return (String.fromUTF8? bytes).getD "\uFFFD"

/-- The database whose image is in a directory, if there is one. -/
def databaseAt? (place : Place) : IO (Option Storage.Database) := do
  let root ← IO.currentDir
  if ← (root / imagePath place).pathExists then
    match Storage.Database.ofImage? (← textAt (imagePath place)) with
    | some database => return some database
    | none => throw (IO.userError ("damaged database: " ++ imagePath place))
  else return none

/-- Bring in what stands at a place. -/
def observe (files : FileTree) (place : Place) : IO FileTree := do
  let path := (← IO.currentDir) / pathOf place
  if place = [] then return files
  else if ← path.isDir then return files.put place (.directory (← databaseAt? place))
  else if ← path.pathExists then return files.put place (.text (← textAt (pathOf place)))
  else return files

/-- Bring in what stands at the places that paths lead through. -/
def observePaths (files : FileTree) (paths : List String) : IO FileTree :=
  (paths.flatMap files.places).foldlM observe files

/-- The paths of the files in a directory. -/
def pathsIn (directory : String) : IO (List String) := do
  let root ← IO.currentDir
  if ← (root / directory).isDir then
    let entries ← (root / directory).readDir
    return entries.toList.map fun entry => FilePath.join directory entry.fileName
  else return []

/-- Bring in the files that a command line reaches. -/
def observeFor (line : CommandLine) : IO FileTree := do
  let here := (FilePath.names (toString (← IO.currentDir))).filter (· ≠ "")
  let files : FileTree := ⟨SortedMap.empty, here⟩
  let named := line.config?.toList ++ (line.request?.map Command.Request.paths).getD []
  let inner ← named.mapM pathsIn
  observePaths files (pathOf here :: named ++ inner.flatten)

/-- Bring back what stands at a place. -/
def deposit (place : Place) : FileItem → IO Unit
  | .text content => IO.FS.writeFile (pathOf place) content
  | .directory none => IO.FS.createDirAll (pathOf place)
  | .directory (some database) => do
    IO.FS.createDirAll (pathOf place)
    IO.FS.writeFile (imagePath place) database.image

/-- What the wall clock shows. -/
def wallClock : IO Timestamp := do
  let nanos := (← Std.Time.Timestamp.now).toNanosecondsSinceUnixEpoch.val
  return ⟨Int64.ofInt (nanos / 1000000000), UInt32.ofNat (nanos % 1000000000).toNat⟩

/-- A site with the files that a command line reaches. -/
def siteFor (line : CommandLine) : IO Site := do
  let secret := (← IO.getRandomBytes 32).toList
  return {
    files := ← observeFor line
    clock := ← wallClock
    seeds := fun number => sha256 (secret ++ Bytes.ofNatBE 8 number)
    drawn := 0
    output := "" }

/-- Carry out a command line on the files of this computer. -/
def run (arguments : List String) : IO Outcome := do
  match CommandLine.ofArguments arguments with
  | .error stop => return .stopped stop
  | .ok line =>
    let before ← siteFor line
    let (outcome, after) := Command.execute arguments before
    for (place, found) in before.files.changes after.files do
      deposit place found
    IO.sleep (UInt32.ofNat (1000 * (after.clock.secs - before.clock.secs).toInt.toNat))
    IO.print after.output
    return outcome

end AuthorityLedger.Program

/-- Carry out the command line and answer its exit code. -/
def main (arguments : List String) : IO UInt32 := do
  let outcome ← AuthorityLedger.Program.run arguments
  match outcome with
  | .failed _ | .stopped .usage => IO.eprint outcome.notice
  | _ => IO.print outcome.notice
  return UInt32.ofNat outcome.exitCode
