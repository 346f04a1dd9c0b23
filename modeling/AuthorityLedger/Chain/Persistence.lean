import AuthorityLedger.Block.Wire
import AuthorityLedger.Chain
import AuthorityLedger.Storage.Store

/-!
# Chains in a store

A chain writes the blocks that its store does not hold yet, in one transaction
of the store, and is rebuilt from the blocks of a store.  Participants are not
stored.

What a store lacks is told from its greatest height alone.
-/

namespace AuthorityLedger.Chain

open Storage (LedgerStore)

variable {α σ : Type} [Payload α] [LedgerStore σ]

/-- Put transactions into a store. -/
def putTransactions : List (Transaction α) → Action σ Error Unit
  | [] => return ()
  | tx :: rest => do
    let bytes ← Action.ofExcept (tx.toBytes.mapError .transaction)
    Action.wrapping .storage (LedgerStore.putTransaction tx.id bytes)
    putTransactions rest

/-- Put blocks with their transactions into a store. -/
def putBlocks : List (Block α) → Action σ Error Unit
  | [] => return ()
  | block :: rest => do
    let bytes ← Action.ofExcept (block.toBytes.mapError .invalidBlock)
    Action.wrapping .storage (LedgerStore.putBlock block.index.toUInt64 bytes)
    putTransactions block.transactions
    putBlocks rest

/-- The number of blocks in a store, told from its greatest height. -/
def storedCount (store : σ) : Except Error Nat :=
  match LedgerStore.height? store with
  | .ok (some height) => .ok (height.toNat + 1)
  | .ok none => .ok 0
  | .error cause => .error (.storage cause)

/-- Write the blocks that a store lacks and answer their number; if a write fails, the store's
transaction is rolled back and the failure of the write is the one reported. -/
def persist (chain : Chain α) : Action σ Error Nat := do
  let start ← Action.ofExcept (storedCount (← get))
  if chain.size ≤ start then return 0
  Action.wrapping .storage LedgerStore.start
  Action.undoing (LedgerStore.rollback (σ := σ)) (putBlocks (chain.blocks.drop start))
  Action.wrapping .storage LedgerStore.commit
  return chain.size - start

/-- Read a number of blocks from a height on. -/
def readBlocks (store : σ) : Nat → Nat → Except Error (List (Block α))
  | 0, _ => .ok []
  | count + 1, height => do
    let found ← (LedgerStore.block? store (UInt64.ofNat height)).mapError .storage
    match found with
    | none => throw (.blockNotFound height)
    | some bytes =>
      let block ← (Block.ofBytes bytes).mapError .invalidBlock
      return block :: (← readBlocks store count (height + 1))

/-- Rebuild a chain from the blocks of a store. -/
def load (id : String) (store : σ) : Except Error (Chain α) := do
  let count ← storedCount store
  if count = 0 then throw .emptyStore
  ofRecord id (← readBlocks store count 0) Registry.empty

end AuthorityLedger.Chain
