import AuthorityLedger.Chain.Json
import AuthorityLedger.Command.DataDirectory
import AuthorityLedger.Command.Inspect

/-!
# The demonstration

Takes the validators of a data directory, or three that are made up, and drives
blocks of signed transactions through consensus: each is proposed by the next
validator in turn, signed until the quorum is complete, and committed.  A
proposer that has to wait is waited for once.  At the end a transaction that is
in the last block already is proposed again, which must be refused, and what is
new in the chain is stored.
-/

namespace AuthorityLedger.Command

/-- The participant that writes. -/
def writer : String := "writer"

/-- The capability that writing takes. -/
def writing : String := "write"

/-- A ledger at work, with its validators in turn and the key that signs transactions. -/
structure Stage where
  gated : GatedLedger String
  validators : List String
  client : Key

/-- Run an action of a ledger and go on if it succeeds. -/
def onLedger {α : Type} (g : GatedLedger String)
    (action : Action (GatedLedger String) Ledger.Error α) : Job (α × GatedLedger String) := do
  let (outcome, next) := action.on g
  return (← Job.expect outcome, next)

/-! ## Preparations -/

/-- The validators' keys: those of the data directory, or three new ones. -/
def demoKeys (dataDir : String) : Job (List (String × Key)) := do
  let keys ← loadKeys dataDir
  if keys.isEmpty then
    Job.print "No keys found; using 3 throwaway validators (see 'authchain keygen')"
    let fresh ← Job.newKeys 3
    return fresh.zipIdx.map fun (key, number) => ("validator_" ++ toString number, key)
  else return keys

/-- Register validators of weight one, and answer their identifiers. -/
def addValidators (engine : Engine) : List (String × Key) → Job (List String × Engine)
  | [] => return ([], engine)
  | (name, key) :: rest => do
    let (outcome, next) := (Engine.addValidator name key 1 (← Job.millis)).on engine
    let id ← Job.expect outcome
    let (ids, final) ← addValidators next rest
    return (id :: ids, final)

/-- The ledger that a store holds, or one over a new chain if it holds none. -/
def demoLedger (store : Storage.Store) (client : Key) : Job (Ledger String) := do
  match ← Job.expect store.height? with
  | some _ =>
    Job.about "Failed to load stored chain" (Job.expect (Ledger.load demoChainId store))
  | none =>
    let chain ← Job.expect (Chain.newAt (← Job.now) (← Job.now) demoChainId "init" client)
    return Ledger.ofChain chain

/-- The same ledger with the writer registered and allowed to write. -/
def admitWriter (ledger : Ledger String) : Ledger String :=
  { ledger with chain := ledger.chain.withRegistry fun r =>
      (r.register writer "active" SortedMap.empty).grant writer writing }

/-! ## One block -/

/-- The identifier of a transaction that is made for the block at an index, under a number. -/
def entryId (index number : Nat) : String :=
  "tx-" ++ toString index ++ "-" ++ toString number

/-- Signed transactions for the block at an index, numbered from the given number on. -/
def demoTransactions (client : Key) (index : Nat) : Nat → Nat → Job (List (Transaction String))
  | _, 0 => return []
  | number, count + 1 => do
    let payload := "entry " ++ toString number ++ " of block " ++ toString index
    let tx ← Job.expect
      ((Transaction.new (← Job.now) (entryId index number) payload 1).sign client)
    return tx :: (← demoTransactions client index (number + 1) count)

/-- What comes of proposing a block now, and the ledger afterwards. -/
def attempt (g : GatedLedger String) (block : Block String) (proposer : String) :
    Job (Except Ledger.Error String × GatedLedger String) := do
  let proposing := GatedLedger.proposeAt block proposer (← Job.millis) (← Job.millis) (← Job.millis)
  return proposing.on g

/-- Propose a block; a proposer that has to wait is waited for once. -/
def proposePatiently (g : GatedLedger String) (block : Block String) (proposer : String) :
    Job (String × GatedLedger String) := do
  match ← attempt g block proposer with
  | (.error (.consensus (.proposingTooSoon _ seconds)), next) =>
    Job.print ("  " ++ shortId proposer ++ " must wait " ++ toString seconds ++ "s")
    Job.wait seconds
    let (outcome, final) ← attempt next block proposer
    return (← Job.expect outcome, final)
  | (outcome, next) => return (← Job.expect outcome, next)

/-- Let validators sign one after another until the quorum is complete. -/
def signInTurn (g : GatedLedger String) (proposal : String) : List String →
    Job (GatedLedger String)
  | [] => return g
  | validator :: rest => do
    let (completed, next) ← onLedger g (GatedLedger.sign proposal validator (← Job.millis))
    if completed then return next else signInTurn next proposal rest

/-- Drive one block through consensus; the round decides whose turn it is to propose. -/
def commitBlock (stage : Stage) (transactions round : Nat) : Job Stage := do
  let chain := stage.gated.ledger.chain
  Job.expect (chain.checkAuthorization writer writing)
  let txs ← demoTransactions stage.client chain.size 0 transactions
  let proposer := stage.validators.getD (round % stage.validators.length) ""
  let block := Block.new (← Job.now) txs
  let (proposal, proposed) ← proposePatiently stage.gated block proposer
  let signed ← signInTurn proposed proposal stage.validators
  let (signatures, committed) ← onLedger signed (GatedLedger.commit proposal)
  Job.print (blockLine committed.ledger.chain.tip ++ toString signatures.length ++ " signatures")
  return { stage with gated := committed }

/-- Drive a number of blocks through consensus, from a round on. -/
def commitBlocks (transactions : Nat) : Nat → Nat → Stage → Job Stage
  | _, 0, stage => return stage
  | round, count + 1, stage => do
    commitBlocks transactions (round + 1) count (← commitBlock stage transactions round)

/-! ## The end -/

/-- Propose a transaction of the last block once more and say what comes of it. -/
def replay (stage : Stage) : Job Stage := do
  match stage.gated.ledger.chain.tip.transactions.head? with
  | none => return stage
  | some committed =>
    let tx ← Job.expect
      ((Transaction.new (← Job.now) committed.id "replay" 1).sign stage.client)
    let proposer := stage.validators.headD ""
    match ← attempt stage.gated (Block.new (← Job.now) [tx]) proposer with
    | (.error error, next) =>
      Job.print ("✓  Replay of " ++ committed.id ++ " rejected: " ++ error.message)
      return { stage with gated := next }
    | (.ok proposal, next) =>
      Job.print ("✗  Replay of " ++ committed.id ++ " was not rejected")
      return { stage with gated := (next.abandon proposal).2 }

/-- Store the blocks that the store lacks. -/
def persistChain (dataDir : String) (store : Storage.Store) (ledger : Ledger String) :
    Job Unit := do
  let (outcome, next) := (ledger.persist : Action Storage.Store Ledger.Error Nat).on store
  Job.keepStore dataDir next
  let written ← Job.expect outcome
  Job.print ("✓  Persisted " ++ toString written ++ " new blocks, chain valid: " ++
    truthText ledger.chain.isValid)

/-- Write a chain as JSON. -/
def exportChain (chain : Chain String) (file : String) : Job Unit := do
  Job.about ("Failed to write " ++ file) (Job.write file chain.toText)
  Job.print ("✓  Exported chain to: " ++ file)

/-- The validators, beside an engine that knows them. -/
def assemble (options : DemoOptions) (config? : Option String) : Job (List String × Engine) := do
  let config ← loadConfig config? options.dataDir
  let keys ← demoKeys options.dataDir
  let (validators, engine) ← addValidators (← Job.expect (Engine.new config)) keys
  Job.print ("✓  " ++ toString validators.length ++ " validators, " ++
    toString engine.requiredSignatures ++ " signatures required")
  return (validators, engine)

/-- A stage over what a store holds, with a new key for the client. -/
def openStage (store : Storage.Store) (validators : List String) (engine : Engine) :
    Job Stage := do
  let client ← Job.newKey
  let ledger ← demoLedger store client
  Job.print ("✓  Chain at height " ++ toString ledger.chain.tip.index.toInt)
  return ⟨⟨admitWriter ledger, engine⟩, validators, client⟩

/-- Everything up to the first block: configuration, validators, the store and a ledger. -/
def setStage (options : DemoOptions) (config? : Option String) : Job (Storage.Store × Stage) := do
  let (validators, engine) ← assemble options config?
  Job.makeDataDirectory options.dataDir
  let store ← Job.about "Failed to open ledger database" (Job.openStore options.dataDir)
  return (store, ← openStage store validators engine)

/-- Everything up to a round, with the blocks of the rounds before it committed. -/
def stageAfter (options : DemoOptions) (config? : Option String) (rounds : Nat) :
    Job (Storage.Store × Stage) := do
  let (store, stage) ← setStage options config?
  Job.print ""
  Job.print "Committing blocks..."
  return (store, ← commitBlocks options.transactions 0 rounds stage)

/-- Everything up to storing the chain: all blocks and the replay. -/
def rehearse (options : DemoOptions) (config? : Option String) :
    Job (Storage.Store × Stage) := do
  let (store, stage) ← stageAfter options config? options.blocks
  let stage ← replay stage
  Job.print ""
  return (store, stage)

/-- The whole demonstration. -/
def demo (options : DemoOptions) (config? : Option String) : Job Unit := do
  let (store, stage) ← rehearse options config?
  persistChain options.dataDir store stage.gated.ledger
  match options.exportPath? with
  | some file => exportChain stage.gated.ledger.chain file
  | none => return ()

end AuthorityLedger.Command
