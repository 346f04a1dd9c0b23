import AuthorityLedger.Merkle
import AuthorityLedger.Transaction

/-!
# Blocks

A block holds transactions in order, the Merkle root over their canonical
texts, and the hash of its predecessor.  Its own hash covers the header: index,
seconds, nanoseconds, previous hash, nonce and Merkle root, put end to end.

`validate` reports the first thing wrong with a block: a negative index, a
missing hash, a missing previous hash, no transactions, a hash that does not
match the header, a root that does not match the transactions, and then the
first transaction that is refused.
-/

namespace AuthorityLedger

/-- What stands in the place of a previous hash in a first block. -/
def genesisPreviousHash : String := "GENESIS"

/-- Transactions linked to a predecessor. -/
structure Block (α : Type) where
  index : Int64
  previousHash : String
  hash : String
  transactions : List (Transaction α)
  nonce : Int64
  timestamp : Timestamp
  merkleRoot : String
  deriving DecidableEq, Repr, Inhabited

namespace Block

/-- Why a block is refused or cannot be read. -/
inductive Error where
  | missingHash (index : Int64)
  | missingPreviousHash (index : Int64)
  | negativeIndex (index : Int64)
  | empty (index : Int64)
  | hashMismatch (index : Int64) (stored computed : String)
  | merkleRootMismatch (index : Int64)
  | invalidTransaction (index : Int64) (position : Nat) (cause : Transaction.Error)
  | wire (cause : Wire.Error)
  | json (fault : Json.Fault)
  deriving DecidableEq, Repr

/-- The wording of a block failure. -/
def Error.message : Error → String
  | .missingHash index => "block " ++ toString index.toInt ++ " has no hash"
  | .missingPreviousHash index => "block " ++ toString index.toInt ++ " has no previous hash"
  | .negativeIndex index => "block index " ++ toString index.toInt ++ " is negative"
  | .empty index => "block " ++ toString index.toInt ++ " contains no transactions"
  | .hashMismatch index stored computed =>
    "block " ++ toString index.toInt ++ " hash mismatch (stored " ++ stored ++ ", computed " ++
      computed ++ ")"
  | .merkleRootMismatch index =>
    "block " ++ toString index.toInt ++ " merkle root does not match its transactions"
  | .invalidTransaction index position cause =>
    "transaction " ++ toString position ++ " in block " ++ toString index.toInt ++
      " is invalid: " ++ cause.message
  | .wire cause => "codec error: " ++ cause.message
  | .json fault => "json error: " ++ fault.message

/-- The kind of a block failure. -/
def Error.kind : Error → ErrorKind
  | .wire _ => .inputOutput
  | .json _ => .inputOutput
  | _ => .invalidArgument

variable {α : Type}

/-- Whether a block stands first in a chain. -/
def isGenesis (block : Block α) : Bool :=
  block.index == 0 && block.previousHash == genesisPreviousHash

/-- The text that the hash of a block covers. -/
def headerText (block : Block α) : String :=
  toString block.index.toInt ++ toString block.timestamp.secs.toInt ++
    toString block.timestamp.nanos.toNat ++ block.previousHash ++
    toString block.nonce.toInt ++ block.merkleRoot

/-- The hash recomputed from the stored header. -/
def computedHash (block : Block α) : String :=
  digestText (Bytes.ofText block.headerText)

/-- The first transaction with an identifier. -/
def findTransaction? (block : Block α) (id : String) : Option (Transaction α) :=
  block.transactions.find? (·.id == id)

variable [Payload α]

/-- The canonical texts of the transactions, in order. -/
def leaves (block : Block α) : List String :=
  block.transactions.map Transaction.canonical

/-- The Merkle tree of the transactions. -/
def tree (block : Block α) : MerkleTree :=
  MerkleTree.ofLeaves block.leaves

/-- The Merkle root recomputed from the transactions. -/
def computedRoot (block : Block α) : String :=
  block.tree.root

/-- Recompute the Merkle root and then the hash. -/
def rehash (block : Block α) : Block α :=
  let rooted := { block with merkleRoot := block.computedRoot }
  { rooted with hash := rooted.computedHash }

/-- Link a block behind a predecessor and rehash it. -/
def stamp (block : Block α) (index : Int64) (previousHash : String) : Block α :=
  rehash { block with index := index, previousHash := previousHash }

/-- A block behind a predecessor. -/
def linked (now : Timestamp) (index : Int64) (previousHash : String)
    (transactions : List (Transaction α)) : Block α :=
  rehash {
    index := index
    previousHash := previousHash
    hash := ""
    transactions := transactions
    nonce := 0
    timestamp := now
    merkleRoot := "" }

/-- A block on its own, to be linked by the chain that takes it. -/
def new (now : Timestamp) (transactions : List (Transaction α)) : Block α :=
  linked now 0 "" transactions

/-- The first block of a chain. -/
def genesis (now : Timestamp) (transactions : List (Transaction α)) : Block α :=
  linked now 0 genesisPreviousHash transactions

/-- Whether hash and Merkle root agree with what they cover. -/
def verifyIntegrity (block : Block α) : Except Error Unit :=
  if block.computedHash ≠ block.hash then
    .error (.hashMismatch block.index block.hash block.computedHash)
  else if block.computedRoot ≠ block.merkleRoot then .error (.merkleRootMismatch block.index)
  else .ok ()

/-- Validate transactions from a position on. -/
def validateTransactions (index : Int64) : Nat → List (Transaction α) → Except Error Unit
  | _, [] => .ok ()
  | position, tx :: rest =>
    match tx.validate with
    | .ok () => validateTransactions index (position + 1) rest
    | .error cause => .error (.invalidTransaction index position cause)

/-- The first reason to refuse a block, if there is one. -/
def validate (block : Block α) : Except Error Unit :=
  if block.index < 0 then .error (.negativeIndex block.index)
  else if block.hash = "" then .error (.missingHash block.index)
  else if block.previousHash = "" then .error (.missingPreviousHash block.index)
  else if block.transactions.isEmpty then .error (.empty block.index)
  else
    match block.verifyIntegrity with
    | .error cause => .error cause
    | .ok () => validateTransactions block.index 0 block.transactions

/-- Whether there is no reason to refuse a block. -/
def isValid (block : Block α) : Bool :=
  block.validate.isOk

/-- The inclusion proof of the transaction at a position. -/
def merkleProof (block : Block α) (position : Nat) : Option (List String) :=
  block.tree.proof position

/-- Whether the stored root commits to the transaction at a position.  The tree is rebuilt, so a
root that was not made from these transactions proves nothing. -/
def verifyTransaction (block : Block α) (position : Nat) : Bool :=
  match block.transactions[position]?, block.merkleProof position with
  | some tx, some proof =>
    block.computedRoot == block.merkleRoot &&
      Merkle.verifyProof block.merkleRoot tx.canonical position proof
  | _, _ => false

end Block

end AuthorityLedger
