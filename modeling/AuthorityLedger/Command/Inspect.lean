import AuthorityLedger.Calendar
import AuthorityLedger.Command.Arguments
import AuthorityLedger.Command.Site

/-!
# Showing a persisted chain

Lists the last blocks of the chain in a data directory, or shows one block with
its transactions and whether the block commits to each of them.
-/

namespace AuthorityLedger.Command

/-- The identifier under which demonstrations keep their chain. -/
def demoChainId : String := "demo"

/-- The word for a truth value. -/
def truthText (value : Bool) : String :=
  if value then "true" else "false"

/-- A block in one line. -/
def blockLine (block : Block String) : String :=
  "  #" ++ toString block.index.toInt ++ " " ++ shortHash block.hash ++ " (" ++
    toString block.transactions.length ++ " txs) "

/-- Print one line for each block. -/
def listLines : List (Block String) → Job Unit
  | [] => return ()
  | block :: rest => do
    Job.print (blockLine block ++ block.timestamp.civilText)
    listLines rest

/-- List the last blocks of a chain, the last one first. -/
def listBlocks (chain : Chain String) (count : Nat) : Job Unit := do
  Job.print ""
  Job.print ("Chain (" ++ toString chain.size ++ " blocks, valid: " ++ truthText chain.isValid ++
    ")")
  Job.print ""
  listLines (chain.blocks.reverse.take count)
  Job.print ""

/-- Print one line for each transaction of a block, from a position on. -/
def transactionLines (chain : Chain String) (index : Nat) : Nat → List (Transaction String) →
    Job Unit
  | _, [] => return ()
  | position, tx :: rest => do
    let mark := if chain.verifyTransaction index position then "✓" else "✗"
    Job.print ("  " ++ toString (position + 1) ++ ". " ++ mark ++ " " ++ tx.id ++ " " ++ tx.payload)
    transactionLines chain index (position + 1) rest

/-- Show a block of a chain. -/
def showBlock (chain : Chain String) (block : Block String) : Job Unit := do
  if block.index < 0 then
    throw [.text "Negative block index",
      .text "out of range integral type conversion attempted"]
  Job.print ""
  Job.print "Block Information:"
  Job.print ""
  Job.print ("  Index:        " ++ toString block.index.toInt)
  Job.print ("  Hash:         " ++ block.hash)
  Job.print ("  Previous:     " ++ block.previousHash)
  Job.print ("  Merkle Root:  " ++ block.merkleRoot)
  Job.print ("  Timestamp:    " ++ block.timestamp.civilText)
  Job.print ("  Valid:        " ++ truthText block.isValid)
  Job.print ""
  Job.print "Transactions:"
  Job.print ""
  transactionLines chain block.index.toInt.toNat 0 block.transactions
  Job.print ""

/-- Show the chain in a data directory. -/
def inspect (options : InspectOptions) : Job Unit := do
  let store ← Job.about "Failed to open ledger database. Did you run 'authchain demo'?"
    (Job.openStore options.dataDir)
  let chain ← Job.about "Failed to load chain" (Job.expect (Chain.load demoChainId store))
  match options.block? with
  | none => listBlocks chain options.count
  | some index =>
    match chain.block? index with
    | some block => showBlock chain block
    | none => Job.refuse ("Block " ++ toString index ++ " not found")

end AuthorityLedger.Command
