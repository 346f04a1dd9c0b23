import AuthorityLedger.Command.Cause
import AuthorityLedger.FileTree.Directories

/-!
# Where commands run

A command sees files, a wall clock and a supply of random seeds, and prints
lines.  All of this is a value (`Site`), so a run of a command is a function of
the site that it starts on.  The clock may move whenever it has been read, and
waiting moves it.
-/

namespace AuthorityLedger.Command

/-- What a command sees and changes. -/
structure Site where
  files : FileTree
  /-- What the wall clock shows. -/
  clock : Timestamp
  /-- Random seeds for new keys. -/
  seeds : Nat → Bytes
  /-- How many seeds have been used. -/
  drawn : Nat
  /-- The lines printed so far, each with its end. -/
  output : String
  /-- How the wall clock moves on after each time that it is read; it may stand still or go back. -/
  moves : Nat → Timestamp → Timestamp := fun _ shown => shown
  /-- How often the wall clock has been read. -/
  readings : Nat := 0

/-- The directory of a data directory that is kept for the ledger's database. -/
def databaseDirectory (dataDir : String) : String :=
  FilePath.join dataDir "ledger"

/-- A part of the work of a command. -/
abbrev Job (α : Type) := Action Site (List Cause) α

namespace Job

variable {ε α : Type}

/-- Go on with an outcome, or explain it. -/
def expect [Explained ε] (outcome : Except ε α) : Job α :=
  Action.ofExcept (outcome.mapError Explained.causes)

/-- Say what a job was about when it fails. -/
def about (wording : String) (job : Job α) : Job α :=
  Action.wrapping (.text wording :: ·) job

/-- Fail with a text. -/
def refuse (wording : String) : Job α :=
  throw [.text wording]

/-- Print a line. -/
def print (line : String) : Job Unit :=
  modify fun site => { site with output := site.output ++ line ++ "\n" }

/-- The present time. -/
def now : Job Timestamp := do
  let site ← get
  set { site with
    clock := site.moves site.readings site.clock
    readings := site.readings + 1 }
  return Timestamp.ofClock site.clock.secs site.clock.nanos

/-- The present time in milliseconds. -/
def millis : Job Nat := do
  return (← now).millis

/-- Wait for a number of seconds. -/
def wait (seconds : Nat) : Job Unit :=
  modify fun site => { site with
    clock := { site.clock with secs := site.clock.secs + Int64.ofNat seconds } }

/-- A new random key. -/
def newKey : Job Key := do
  let site ← get
  set { site with drawn := site.drawn + 1 }
  return Key.ofSeed (site.seeds site.drawn)

/-- A number of new random keys. -/
def newKeys : Nat → Job (List Key)
  | 0 => return []
  | count + 1 => do
    let key ← newKey
    return key :: (← newKeys count)

/-- The text of a file. -/
def read (path : String) : Job String := do
  expect ((← get).files.read path)

/-- Work on the files; what has been changed there stays changed. -/
def onFiles {α : Type} (change : FileTree.Change α) : Action Site FileError α :=
  Action.focus Site.files (fun files site => { site with files }) change

/-- Change the files. -/
def change (step : FileTree.Change Unit) : Job Unit :=
  Action.wrapping Explained.causes (onFiles step)

/-- Write the text of a file. -/
def write (path content : String) : Job Unit :=
  change (Action.advance (·.write path content))

/-- Make a directory and those above it. -/
def makeDirectories (path : String) : Job Unit :=
  change (FileTree.makeDirectories path)

/-- Make the directory for the data of the ledger. -/
def makeDataDirectory (path : String) : Job Unit :=
  about ("Failed to create data directory: " ++ Text.quoted path) (makeDirectories path)

/-- How a database says that its directory cannot be made. -/
def databaseCauses (error : FileError) : List Cause :=
  let wording := "IO error: " ++ error.message
  [.text ("Database error: " ++ wording), .text wording]

/-- The store of a data directory, made if it is missing. -/
def openStore (dataDir : String) : Job Storage.Store := do
  let opened := onFiles (FileTree.openDatabase (databaseDirectory dataDir))
  return Storage.Store.ofDatabase (← Action.wrapping databaseCauses opened)

/-- Keep what a store holds now. -/
def keepStore (dataDir : String) (store : Storage.Store) : Job Unit :=
  modify fun site => { site with
    files := site.files.storeDatabase (databaseDirectory dataDir) store.database }

end Job

/-- A hash as it is shown in lists: sixteen digits of a digest, or all of any other text. -/
def shortHash (hash : String) : String :=
  if isDigestText hash then String.ofList (hash.toList.take 16) else hash

/-- An identifier as it is shown in messages. -/
def shortId (id : String) : String :=
  String.ofList (id.toList.take 10)

end AuthorityLedger.Command
