import AuthorityLedger.Block
import AuthorityLedger.Registry
import AuthorityLedger.Storage.Store

/-!
# Chains

A chain is a first block and the blocks behind it, together with the registry
that guards it.  A block is admitted only behind the tip: the chain links it
there itself, whatever header it came with, and then checks that none of its
transaction identifiers is used or comes twice and that the block is valid.

`validate` looks at a chain from its first block on and reports the first thing
wrong.  `ofRecord` makes a chain only of blocks that pass, and marks every
identifier in them as used.
-/

namespace AuthorityLedger

/-- The identifier of the only transaction in a chain's first block. -/
def genesisTransactionId : String := "genesis"

/-- Linked blocks and the registry that guards them. -/
structure Chain (α : Type) where
  id : String
  genesis : Block α
  /-- The blocks behind the first, in order. -/
  later : List (Block α)
  registry : Registry
  deriving DecidableEq

namespace Chain

/-- Why a chain refuses an operation. -/
inductive Error where
  | duplicateTransaction (id : String)
  | invalidBlock (cause : Block.Error)
  | invalidGenesis
  | emptyChain
  | brokenLink (index : Nat)
  | blockNotFound (height : Nat)
  | emptyStore
  | registry (cause : Registry.Error)
  | transaction (cause : Transaction.Error)
  | storage (cause : Storage.Error)
  | json (fault : Json.Fault)
  deriving DecidableEq, Repr

/-- The wording of a chain failure. -/
def Error.message : Error → String
  | .duplicateTransaction id => "transaction " ++ id ++ " has already been used"
  | .invalidBlock cause => "invalid block: " ++ cause.message
  | .invalidGenesis => "invalid genesis block"
  | .emptyChain => "chain has no blocks"
  | .brokenLink index => "block " ++ toString index ++ " does not link to its predecessor"
  | .blockNotFound height => "block " ++ toString height ++ " not found"
  | .emptyStore => "store holds no blocks"
  | .registry cause => "authorization error: " ++ cause.message
  | .transaction cause => "transaction error: " ++ cause.message
  | .storage cause => "storage error: " ++ cause.message
  | .json fault => "json error: " ++ fault.message

/-- The kind of a chain failure. -/
def Error.kind : Error → ErrorKind
  | .duplicateTransaction _ => .alreadyExists
  | .blockNotFound _ => .notFound
  | .emptyStore => .notFound
  | .emptyChain => .notFound
  | .invalidBlock cause => cause.kind
  | .registry cause => cause.kind
  | .transaction cause => cause.kind
  | .storage cause => cause.kind
  | .json _ => .inputOutput
  | .invalidGenesis => .invalidArgument
  | .brokenLink _ => .invalidArgument

variable {α : Type}

/-! ## Blocks -/

/-- All blocks in order. -/
def blocks (chain : Chain α) : List (Block α) :=
  chain.genesis :: chain.later

/-- The number of blocks. -/
def size (chain : Chain α) : Nat :=
  chain.blocks.length

/-- The last block. -/
def tip (chain : Chain α) : Block α :=
  chain.later.getLastD chain.genesis

/-- The block at an index. -/
def block? (chain : Chain α) (index : Nat) : Option (Block α) :=
  chain.blocks[index]?

/-- The block with one more index that holds a transaction with the given identifier, and the
transaction. -/
def findFrom (id : String) : Nat → List (Block α) → Option (Nat × Transaction α)
  | _, [] => none
  | index, block :: rest =>
    match block.findTransaction? id with
    | some tx => some (index, tx)
    | none => findFrom id (index + 1) rest

/-- The first transaction with an identifier, and the index of its block. -/
def find? (chain : Chain α) (id : String) : Option (Nat × Transaction α) :=
  findFrom id 0 chain.blocks

/-- The identifiers of the transactions of some blocks. -/
def transactionIds (blocks : List (Block α)) : List String :=
  blocks.flatMap fun block => block.transactions.map Transaction.id

/-- The first identifier that is used already or comes twice. -/
def firstDuplicate? (r : Registry) : List String → NameSet → Option String
  | [], _ => none
  | id :: rest, seen =>
    if r.isUsed id || seen.contains id then some id
    else firstDuplicate? r rest (seen.add id)

variable [Payload α]

/-- Whether a block is committed to by its root at a position. -/
def verifyTransaction (chain : Chain α) (index position : Nat) : Bool :=
  (chain.block? index).any (·.verifyTransaction position)

/-- A chain of one block, whose only transaction is signed with a key.  The transaction is written
before the block is built, each with the time shown then. -/
def newAt (written built : Timestamp) (id : String) (payload : α) (key : Key) :
    Except Error (Chain α) :=
  match (Transaction.new written genesisTransactionId payload 0).sign key with
  | .error cause => .error (.transaction cause)
  | .ok tx => .ok {
      id := id
      genesis := Block.genesis built [tx]
      later := []
      registry := Registry.empty.markUsed [genesisTransactionId] }

/-- A chain of one block that is made while the clock shows one time. -/
def new (now : Timestamp) (id : String) (payload : α) (key : Key) : Except Error (Chain α) :=
  newAt now now id payload key

/-! ## Admission -/

/-- Link a block behind the tip without admitting it. -/
def prepare (chain : Chain α) (candidate : Block α) : Block α :=
  candidate.stamp (chain.tip.index + 1) chain.tip.hash

/-- The first reason to refuse a block that has been prepared, if there is one. -/
def check (chain : Chain α) (block : Block α) : Except Error Unit :=
  if block.index ≠ chain.tip.index + 1 ∨ block.previousHash ≠ chain.tip.hash then
    .error (.brokenLink chain.size)
  else
    match firstDuplicate? chain.registry (block.transactions.map Transaction.id) SortedMap.empty with
    | some id => .error (.duplicateTransaction id)
    | none => block.validate.mapError .invalidBlock

/-- The chain with one more block, whose identifiers become used. -/
def append (chain : Chain α) (block : Block α) : Chain α :=
  { chain with
    later := chain.later ++ [block]
    registry := chain.registry.markUsed (block.transactions.map Transaction.id) }

/-- Link a block behind the tip and admit it if it may be; answers the block as it was admitted. -/
def addBlock (candidate : Block α) : Action (Chain α) Error (Block α) := do
  let chain ← get
  let block := chain.prepare candidate
  Action.ofExcept (chain.check block)
  set (chain.append block)
  return block

/-! ## Validation -/

/-- Validate blocks behind a predecessor, the first of which has the given index. -/
def validateLinks : Nat → Block α → List (Block α) → Except Error Unit
  | _, _, [] => .ok ()
  | index, previous, block :: rest =>
    if block.previousHash ≠ previous.hash ∨ block.index ≠ Int64.ofNat index then
      .error (.brokenLink index)
    else
      match block.validate with
      | .error cause => .error (.invalidBlock cause)
      | .ok () => validateLinks (index + 1) block rest

/-- The first thing wrong with the blocks of a chain, if there is one. -/
def validate (chain : Chain α) : Except Error Unit :=
  if !chain.genesis.isGenesis then .error .invalidGenesis
  else
    match chain.genesis.validate with
    | .error cause => .error (.invalidBlock cause)
    | .ok () => validateLinks 1 chain.genesis chain.later

/-- Whether nothing is wrong with the blocks of a chain. -/
def isValid (chain : Chain α) : Bool :=
  chain.validate.isOk

/-- The chain of given blocks, if they are valid; their identifiers become used. -/
def ofRecord (id : String) (blocks : List (Block α)) (registry : Registry) :
    Except Error (Chain α) :=
  match blocks with
  | [] => .error .emptyChain
  | genesis :: later =>
    let chain : Chain α := ⟨id, genesis, later, registry⟩
    match chain.validate with
    | .error cause => .error cause
    | .ok () => .ok { chain with registry := registry.markUsed (transactionIds blocks) }

/-! ## The registry of a chain -/

/-- An action on the registry of a chain. -/
def onRegistry {β : Type} (action : Action Registry Registry.Error β) :
    Action (Chain α) Error β :=
  Action.wrapping .registry
    (Action.focus Chain.registry (fun r chain => { chain with registry := r }) action)

/-- Change the registry of a chain. -/
def withRegistry (chain : Chain α) (change : Registry → Registry) : Chain α :=
  { chain with registry := change chain.registry }

/-- Whether a participant may act. -/
def checkAuthorization (chain : Chain α) (participant capability : String) : Except Error Unit :=
  (chain.registry.checkAuthorization participant capability).mapError .registry

/-- Use up a transaction identifier for an action that is allowed. -/
def recordAction (participant transaction capability : String) : Action (Chain α) Error Unit :=
  onRegistry (Registry.recordAction participant transaction capability)

end Chain

end AuthorityLedger
