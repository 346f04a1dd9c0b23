import AuthorityLedger.Command.Arguments
import AuthorityLedger.Command.DataDirectory

/-!
# Generating keys

Writes a number of new keys into a data directory, one file each, and a
complete configuration.  The keys are written before the configuration is
looked at.
-/

namespace AuthorityLedger.Command

/-- The text of a key file. -/
def keyFileText (key : Key) (seed : Bytes) : String :=
  Json.indented (.object [
    ("id", .string key.id),
    ("private_key", .string (Hex.encode seed)),
    ("public_key", .string (Hex.encode key.publicKey))])

/-- The path of the key file with a number. -/
def keyFile (directory : String) (number : Nat) : String :=
  FilePath.join directory ("validator_" ++ toString number ++ ".json")

/-- Write new keys, numbered from the given number on, and answer their files. -/
def writeKeys (directory : String) : Nat → Nat → Job (List (String × Key))
  | _, 0 => return []
  | number, count + 1 => do
    let key ← Job.newKey
    let file := keyFile directory number
    Job.write file (keyFileText key (key.seed?.getD []))
    return (file, key) :: (← writeKeys directory (number + 1) count)

/-- Say where keys have been written. -/
def reportKeys : List (String × Key) → Job Unit
  | [] => return ()
  | (file, key) :: rest => do
    Job.print ("✓  " ++ key.id ++ " saved to " ++ file)
    reportKeys rest

/-- Generate keys and write the configuration that counts. -/
def keygen (options : KeygenOptions) (config? : Option String) : Job Unit := do
  Job.print "Generating validator keys..."
  Job.print ""
  Job.makeDataDirectory options.dataDir
  let directory := keysDirectory options.dataDir
  Job.makeDirectories directory
  reportKeys (← writeKeys directory 0 options.validators)
  let config ← loadConfig config? options.dataDir
  let file := FilePath.join options.dataDir configName
  Job.write file config.toJson.indented
  Job.print ("✓  Saved config to: " ++ file)
  Job.print ""
  Job.print "Next: run authchain demo to drive blocks through consensus"

end AuthorityLedger.Command
