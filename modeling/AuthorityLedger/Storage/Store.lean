import AuthorityLedger.Action
import AuthorityLedger.Storage.Database

/-!
# The ledger store

Blocks are kept by height and transactions by identifier, both as opaque wire
bytes.  Writes between opening and committing a transaction become visible
together or not at all; writes outside a transaction are applied at once.  The
greatest height of a stored block is kept in a record of its own.

Committing takes the queued writes out of the store first, so a commit that
fails to read the height record has lost them.
-/

namespace AuthorityLedger.Storage

/-- What a chain needs of the place where its records go. -/
class LedgerStore (σ : Type) where
  start : Action σ Error Unit
  putBlock : UInt64 → Bytes → Action σ Error Unit
  putTransaction : String → Bytes → Action σ Error Unit
  commit : Action σ Error Unit
  rollback : Action σ Error Unit
  block? : σ → UInt64 → Except Error (Option Bytes)
  transaction? : σ → String → Except Error (Option Bytes)
  height? : σ → Except Error (Option UInt64)

/-- Writes that wait for a commit. -/
structure Pending where
  writes : List Write
  maxHeight : Option UInt64
  deriving DecidableEq, Repr

/-- A database and perhaps an open transaction. -/
structure Store where
  database : Database
  pending : Option Pending
  deriving DecidableEq

namespace Store

/-- A store over a database, with no transaction open. -/
def ofDatabase (database : Database) : Store :=
  ⟨database, none⟩

/-- A store without records. -/
def empty : Store :=
  ofDatabase SortedMap.empty

/-- Whether a transaction is open. -/
def inTransaction (s : Store) : Bool :=
  s.pending.isSome

/-- The wire bytes of the block at a height. -/
def block? (s : Store) (height : UInt64) : Option Bytes :=
  s.database.fetch (.block height)

/-- The wire bytes of the transaction with an identifier. -/
def transaction? (s : Store) (id : String) : Option Bytes :=
  s.database.fetch (.transaction id)

/-- The greatest height of a stored block. -/
def height? (s : Store) : Except Error (Option UInt64) :=
  s.database.number? .topHeight

/-- Whether a height is above the stored one. -/
def exceedsHeight (s : Store) (height : UInt64) : Except Error Bool := do
  match ← s.height? with
  | some stored => return decide (stored < height)
  | none => return true

/-- Open a transaction. -/
def start : Action Store Error Unit := do
  if (← get).inTransaction then throw .transactionOpen
  modify fun s => { s with pending := some ⟨[], none⟩ }

/-- Raise the stored height. -/
def bumpHeight (height : UInt64) : Action Store Error Unit := do
  if ← Action.ofExcept ((← get).exceedsHeight height) then
    modify fun s => { s with database := s.database.storeNumber .topHeight height }

/-- The greater of a height and an optional one. -/
def raise (height : UInt64) : Option UInt64 → UInt64
  | some other => max other height
  | none => height

/-- Store a block, or queue it if a transaction is open. -/
def putBlock (height : UInt64) (bytes : Bytes) : Action Store Error Unit := do
  match (← get).pending with
  | some queue =>
    modify fun s => { s with
      pending := some ⟨queue.writes ++ [.put (.block height) bytes],
        some (raise height queue.maxHeight)⟩ }
  | none =>
    modify fun s => { s with database := s.database.store (.block height) bytes }
    bumpHeight height

/-- Store a transaction, or queue it if a transaction of the store is open. -/
def putTransaction (id : String) (bytes : Bytes) : Action Store Error Unit := do
  match (← get).pending with
  | some queue =>
    modify fun s => { s with
      pending := some ⟨queue.writes ++ [.put (.transaction id) bytes], queue.maxHeight⟩ }
  | none =>
    modify fun s => { s with database := s.database.store (.transaction id) bytes }

/-- Take the queued writes out of the store. -/
def takePending : Action Store Error Pending := do
  match (← get).pending with
  | none => throw .noTransaction
  | some queue =>
    modify fun s => { s with pending := none }
    return queue

/-- The write that raises the stored height, if the queued blocks ask for it. -/
def heightWrites (s : Store) (queue : Pending) : Except Error (List Write) :=
  match queue.maxHeight with
  | none => .ok []
  | some height => do
    if ← s.exceedsHeight height then return [.put .topHeight (Wire.putUInt64 height)]
    else return []

/-- Apply the queued writes. -/
def commit : Action Store Error Unit := do
  let queue ← takePending
  let more ← Action.ofExcept ((← get).heightWrites queue)
  modify fun s => { s with database := s.database.batch (queue.writes ++ more) }

/-- Drop the queued writes. -/
def rollback : Action Store Error Unit := do
  let _ ← takePending

instance : LedgerStore Store where
  start := start
  putBlock := putBlock
  putTransaction := putTransaction
  commit := commit
  rollback := rollback
  block? s height := .ok (s.block? height)
  transaction? s id := .ok (s.transaction? id)
  height? := height?

end Store

end AuthorityLedger.Storage
