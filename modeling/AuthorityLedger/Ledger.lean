import AuthorityLedger.Chain.Persistence
import AuthorityLedger.Consensus.Engine

/-!
# The ledger: blocks gated by consensus

A ledger parks a block while validators sign its hash and appends it to its
chain only once the proposal has enough signatures.  The engine is not a part
of the ledger, since several ledgers may share one; operations work on a ledger
beside an engine.

* `propose` links a block behind the tip, checks it, opens a proposal for its
  hash and parks it.
* `commit` appends a parked block whose proposal has enough signatures.  If the
  tip has moved since, block and proposal are dropped; a block whose proposal
  is gone is dropped too.
* `cleanupExpired` drops what nobody can sign any more.
-/

namespace AuthorityLedger

/-- A chain and the blocks that wait for signatures, by proposal. -/
structure Ledger (α : Type) where
  chain : Chain α
  pending : SortedMap String (Block α)
  deriving DecidableEq

/-- A ledger beside the engine that admits its blocks. -/
structure GatedLedger (α : Type) where
  ledger : Ledger α
  engine : Engine
  deriving DecidableEq

namespace Ledger

/-- Why a ledger refuses an operation. -/
inductive Error where
  | chain (cause : Chain.Error)
  | consensus (cause : Consensus.Error)
  | unknownProposal (id : String)
  | staleProposal (id : String)
  deriving DecidableEq, Repr

/-- The wording of a ledger failure. -/
def Error.message : Error → String
  | .chain cause => "chain error: " ++ cause.message
  | .consensus cause => "consensus error: " ++ cause.message
  | .unknownProposal id => "no pending block for proposal " ++ id
  | .staleProposal id => "proposal " ++ id ++ " was built on a block that is no longer the tip"

/-- The kind of a ledger failure. -/
def Error.kind : Error → ErrorKind
  | .chain cause => cause.kind
  | .consensus cause => cause.kind
  | .unknownProposal _ => .notFound
  | .staleProposal _ => .invalidArgument

variable {α : Type}

/-- A ledger over a chain, with nothing parked. -/
def ofChain (chain : Chain α) : Ledger α :=
  ⟨chain, SortedMap.empty⟩

/-- The block parked under a proposal. -/
def pendingBlock? (ledger : Ledger α) (proposal : String) : Option (Block α) :=
  ledger.pending.get? proposal

/-- The same ledger without the block parked under a proposal. -/
def dropPending (ledger : Ledger α) (proposal : String) : Ledger α :=
  { ledger with pending := ledger.pending.erase proposal }

variable [Payload α]

/-- An action on the chain of a ledger. -/
def onChain {β : Type} (action : Action (Chain α) Chain.Error β) : Action (Ledger α) Error β :=
  Action.wrapping .chain
    (Action.focus Ledger.chain (fun chain ledger => { ledger with chain := chain }) action)

/-- Write the blocks that a store lacks and answer their number. -/
def persist {σ : Type} [Storage.LedgerStore σ] (ledger : Ledger α) : Action σ Error Nat :=
  Action.wrapping .chain ledger.chain.persist

/-- A ledger over the chain that a store holds. -/
def load {σ : Type} [Storage.LedgerStore σ] (id : String) (store : σ) :
    Except Error (Ledger α) :=
  match Chain.load id store with
  | .ok chain => .ok (ofChain chain)
  | .error cause => .error (.chain cause)

end Ledger

namespace GatedLedger

open Ledger (Error)

variable {α : Type}

/-- An action on the engine. -/
def onEngine {β : Type} (action : Action Engine Consensus.Error β) :
    Action (GatedLedger α) Error β :=
  Action.wrapping .consensus
    (Action.focus GatedLedger.engine (fun engine g => { g with engine := engine }) action)

/-- Drop the block parked under a proposal. -/
def dropBlock (proposal : String) : Action (GatedLedger α) Error Unit :=
  modify fun g => { g with ledger := g.ledger.dropPending proposal }

/-- Drop the block parked under a proposal and the proposal itself. -/
def dropProposal (proposal : String) : Action (GatedLedger α) Error Unit :=
  modify fun g => {
    ledger := g.ledger.dropPending proposal
    engine := (g.engine.removeProposal proposal).2 }

/-- Forget a proposal and its block, and answer the block. -/
def abandon (g : GatedLedger α) (proposal : String) : Option (Block α) × GatedLedger α :=
  (g.ledger.pendingBlock? proposal,
    { ledger := g.ledger.dropPending proposal
      engine := (g.engine.removeProposal proposal).2 })

/-- Forget expired proposals and every parked block whose proposal is gone; answers the number of
blocks dropped. -/
def cleanupExpired (g : GatedLedger α) (now : Nat) : Nat × GatedLedger α :=
  let engine := (g.engine.cleanupExpired now).2
  let kept := g.ledger.pending.filter fun proposal _ => engine.proposals.contains proposal
  (g.ledger.pending.size - kept.size, { ledger := { g.ledger with pending := kept }, engine })

/-- Sign a proposal with a validator's own key; answers whether that completed the quorum. -/
def sign (proposal validator : String) (now : Nat) : Action (GatedLedger α) Error Bool :=
  onEngine (Engine.signProposal proposal validator now)

/-- Record a signature that was made elsewhere. -/
def addSignature (proposal validator : String) (signature : Bytes) (now : Nat) :
    Action (GatedLedger α) Error Bool :=
  onEngine (Engine.addSignature proposal validator signature now)

variable [Payload α]

/-- Link a block behind the tip, open a proposal for its hash and park it; answers the proposal.
The clock is read for the rate limit, for the proposal and for its record. -/
def proposeAt (block : Block α) (proposer : String) (checked opened recorded : Nat) :
    Action (GatedLedger α) Error String := do
  let chain := (← get).ledger.chain
  let prepared := chain.prepare block
  Action.ofExcept ((chain.check prepared).mapError .chain)
  Action.ofExcept (((← get).engine.canPropose proposer checked).mapError .consensus)
  let proposal ← onEngine (Engine.createProposal prepared.hash proposer opened)
  onEngine (Engine.recordProposal proposer recorded)
  modify fun g => { g with
    ledger := { g.ledger with pending := g.ledger.pending.insert proposal prepared } }
  return proposal

/-- Propose a block while the clock shows one time. -/
def propose (block : Block α) (proposer : String) (now : Nat) :
    Action (GatedLedger α) Error String :=
  proposeAt block proposer now now now

/-- Whether a refusal means that nobody can sign the proposal any more. -/
def endsProposal : Consensus.Error → Bool
  | .proposalNotFound _ => true
  | .proposalExpired _ => true
  | _ => false

/-- The signatures of a proposal that has enough of them.  The parked block is dropped if its
proposal is gone. -/
def finalizedSignatures (proposal : String) :
    Action (GatedLedger α) Error (List BlockSignature) := do
  match (← get).engine.finalizedSignatures proposal with
  | .ok signatures => return signatures
  | .error cause =>
    if endsProposal cause then dropBlock proposal
    throw (.consensus cause)

/-- Append the block of a proposal that has enough signatures, and answer them. -/
def commit (proposal : String) : Action (GatedLedger α) Error (List BlockSignature) := do
  match (← get).ledger.pendingBlock? proposal with
  | none => throw (.unknownProposal proposal)
  | some parked =>
    let signatures ← finalizedSignatures proposal
    let relinked := (← get).ledger.chain.prepare parked
    if relinked.hash ≠ parked.hash then
      dropProposal proposal
      throw (.staleProposal proposal)
    let _ ← Action.focus GatedLedger.ledger (fun ledger g => { g with ledger := ledger })
      (Ledger.onChain (Chain.addBlock relinked))
    dropProposal proposal
    return signatures

end GatedLedger

end AuthorityLedger
