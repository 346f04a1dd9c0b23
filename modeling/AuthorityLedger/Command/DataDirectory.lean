import AuthorityLedger.Command.Site
import AuthorityLedger.Consensus.Config

/-!
# The data directory

A data directory holds a configuration (`config.json`), a directory of key
files (`keys`), and the ledger database.  Configuration and keys may be
missing: then the standard configuration holds, and there are no keys.
-/

namespace AuthorityLedger.Command

/-- The name of the configuration in a data directory. -/
def configName : String := "config.json"

/-- The directory of key files in a data directory. -/
def keysDirectory (dataDir : String) : String :=
  FilePath.join dataDir "keys"

/-- The configuration file that counts: the one asked for, or the one in the data directory if it
exists. -/
def configFile? (files : FileTree) (asked? : Option String) (dataDir : String) : Option String :=
  match asked? with
  | some file => some file
  | none =>
    let file := FilePath.join dataDir configName
    if files.has file then some file else none

/-- The configuration that counts. -/
def loadConfig (asked? : Option String) (dataDir : String) : Job Consensus.Config := do
  match configFile? (← get).files asked? dataDir with
  | none => return Consensus.Config.standard
  | some file =>
    let text ← Job.about ("Failed to read config: " ++ file) (Job.read file)
    let config ← Job.about ("Invalid config: " ++ file)
      (Job.expect (Consensus.Config.ofText text))
    Job.about "Invalid consensus config" (Job.expect config.validate)
    return config

/-- The key of a private half in hexadecimal. -/
def keyOfDigits (digits : String) : Job Key :=
  match Hex.decode? digits with
  | none => throw [.text "Invalid private key hex", .hexadecimal]
  | some seed =>
    if seed.length = 32 then
      Job.about "Failed to load key" (Job.expect (Key.ofPrivate seed))
    else
      Job.refuse ("Invalid private key length: expected 32 bytes, got " ++ toString seed.length)

/-- The key in a key file. -/
def loadKey (file : String) : Job Key := do
  let text ← Job.about ("Failed to read key file: " ++ file) (Job.read file)
  let json ← Job.expect (Json.ofText text)
  match (json.member? "private_key").bind Json.string? with
  | some digits => keyOfDigits digits
  | none => Job.refuse "Missing private_key in key file"

/-- The keys in named files of a directory; files that are not called so are passed over. -/
def loadKeysFrom (directory : String) : List String → Job (List (String × Key))
  | [] => return []
  | name :: rest => do
    match FilePath.splitExtension name with
    | (stem, some "json") =>
      let key ← loadKey (FilePath.join directory name)
      return (stem, key) :: (← loadKeysFrom directory rest)
    | _ => loadKeysFrom directory rest

/-- All keys of a data directory with the names of their files, in the order of these names. -/
def loadKeys (dataDir : String) : Job (List (String × Key)) := do
  let directory := keysDirectory dataDir
  let files := (← get).files
  if files.has directory then loadKeysFrom directory (← Job.expect (files.list directory))
  else return []

end AuthorityLedger.Command
