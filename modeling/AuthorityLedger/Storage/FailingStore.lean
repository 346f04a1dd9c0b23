import AuthorityLedger.Storage.Store

/-!
# A store with a failing operation

To see what becomes of a chain's records when its store fails half-way, one
operation of a store is made to fail after a number of good calls.  The failing
calls do not touch the store, and all other operations work.
-/

namespace AuthorityLedger.Storage

/-- The operations that can be made to fail. -/
inductive Operation where
  | start
  | putBlock
  | putTransaction
  | commit
  deriving DecidableEq, Repr

/-- A store, one of whose operations works only a few more times. -/
structure FailingStore where
  store : Store
  operation : Operation
  goodCalls : Nat
  deriving DecidableEq

namespace FailingStore

/-- Run an operation of the underlying store, unless it is its turn to fail. -/
def guarded {α : Type} (operation : Operation) (action : Action Store Error α) :
    Action FailingStore Error α := do
  let state ← get
  if state.operation = operation then
    if state.goodCalls = 0 then throw .noTransaction
    set { state with goodCalls := state.goodCalls - 1 }
  Action.focus FailingStore.store (fun store s => { s with store := store }) action

instance : LedgerStore FailingStore where
  start := guarded .start Store.start
  putBlock height bytes := guarded .putBlock (Store.putBlock height bytes)
  putTransaction id bytes := guarded .putTransaction (Store.putTransaction id bytes)
  commit := guarded .commit Store.commit
  rollback :=
    Action.focus FailingStore.store (fun store s => { s with store := store }) Store.rollback
  block? s height := .ok (s.store.block? height)
  transaction? s id := .ok (s.store.transaction? id)
  height? s := s.store.height?

end FailingStore

end AuthorityLedger.Storage
