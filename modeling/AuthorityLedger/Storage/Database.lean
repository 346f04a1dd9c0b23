import AuthorityLedger.SortedMap
import AuthorityLedger.Storage.Key
import AuthorityLedger.Wire.Wide

/-!
# The record database

A database maps byte strings to byte strings.  A batch of writes is applied as
a whole and in order, so the last write to a key wins.
-/

namespace AuthorityLedger.Storage

/-- Why storage refuses an operation. -/
inductive Error where
  /-- A record is not what its key promises. -/
  | serialization
  | transactionOpen
  | noTransaction
  deriving DecidableEq, Repr

/-- The wording of a storage failure. -/
def Error.message : Error → String
  | .serialization => "Serialization error: malformed record"
  | .transactionOpen => "A store transaction is already open"
  | .noTransaction => "No store transaction is open"

/-- The kind of a storage failure. -/
def Error.kind : Error → ErrorKind
  | .serialization => .inputOutput
  | _ => .invalidArgument

/-- One write of a batch. -/
inductive Write where
  | insert (key value : Bytes)
  | remove (key : Bytes)
  deriving DecidableEq, Repr

/-- Store a value under a ledger key. -/
def Write.put (key : RecordKey) (value : Bytes) : Write :=
  .insert key.encode value

/-- A map from byte strings to byte strings. -/
abbrev Database := SortedMap Bytes Bytes

namespace Database

/-- The bytes stored under a key. -/
def fetch (db : Database) (key : RecordKey) : Option Bytes :=
  db.get? key.encode

/-- Apply one write. -/
def write (db : Database) : Write → Database
  | .insert key value => db.insert key value
  | .remove key => db.erase key

/-- Apply a batch of writes in order. -/
def batch (db : Database) (writes : List Write) : Database :=
  writes.foldl write db

/-- Store bytes under a key. -/
def store (db : Database) (key : RecordKey) (value : Bytes) : Database :=
  db.write (.put key value)

/-- The record stored under a key, read with a reader. -/
def record? {α : Type} (db : Database) (reader : Wire.Reader α) (key : RecordKey) :
    Except Error (Option α) :=
  match db.fetch key with
  | none => .ok none
  | some bytes =>
    match reader.front? bytes with
    | some value => .ok (some value)
    | none => .error .serialization

/-- The number stored under a key. -/
def number? (db : Database) (key : RecordKey) : Except Error (Option UInt64) :=
  db.record? Wire.Reader.uint64 key

/-- The text stored under a key. -/
def text? (db : Database) (key : RecordKey) : Except Error (Option String) :=
  db.record? Wire.Reader.wideText key

/-- Store a number under a key. -/
def storeNumber (db : Database) (key : RecordKey) (value : UInt64) : Database :=
  db.store key (Wire.putUInt64 value)

/-- Store a text under a key. -/
def storeText (db : Database) (key : RecordKey) (value : String) : Database :=
  db.store key (Wire.putWideText value)

end Database

end AuthorityLedger.Storage
