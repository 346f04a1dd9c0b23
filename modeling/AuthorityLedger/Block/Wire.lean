import AuthorityLedger.Block
import AuthorityLedger.Transaction.Wire

/-!
# Blocks on the wire

The header comes first, then the number of transactions, then each transaction
as a byte string of its own.  A decoded block is what the bytes say; whether it
is valid is another question.
-/

namespace AuthorityLedger.Block

variable {α : Type} [Payload α]

/-- The wire bytes of transactions, each behind its length. -/
def putTransactions : List (Transaction α) → Except Wire.Error Bytes
  | [] => .ok []
  | tx :: rest => do
    let front ← Wire.putBytes (← tx.put)
    let back ← putTransactions rest
    return front ++ back

/-- The wire bytes of a block. -/
def put (block : Block α) : Except Wire.Error Bytes := do
  let previousHash ← Wire.putText block.previousHash
  let hash ← Wire.putText block.hash
  let merkleRoot ← Wire.putText block.merkleRoot
  let count ← Wire.putSize block.transactions.length
  let transactions ← putTransactions block.transactions
  return Wire.putInt64 block.index ++ previousHash ++ hash ++ Wire.putInt64 block.nonce ++
    Wire.putInt64 block.timestamp.secs ++ Wire.putUInt32 block.timestamp.nanos ++ merkleRoot ++
    count ++ transactions

/-- Read a number of transactions, each of which must fill its byte string. -/
def takeTransactions : Nat → Wire.Reader (List (Transaction α))
  | 0 => return []
  | count + 1 => do
    let body ← Wire.Reader.bytes
    let tx ← Action.ofExcept (Wire.Reader.whole Transaction.take body)
    return tx :: (← takeTransactions count)

/-- Read a block from the front of a byte string. -/
def take : Wire.Reader (Block α) := do
  let index ← Wire.Reader.int64
  let previousHash ← Wire.Reader.text
  let hash ← Wire.Reader.text
  let nonce ← Wire.Reader.int64
  let secs ← Wire.Reader.int64
  let nanos ← Wire.Reader.uint32
  let merkleRoot ← Wire.Reader.text
  let count ← Wire.Reader.uint32
  let transactions ← takeTransactions count.toNat
  return { index, previousHash, hash, transactions, nonce, timestamp := ⟨secs, nanos⟩, merkleRoot }

/-- Encode a block. -/
def toBytes (block : Block α) : Except Error Bytes :=
  block.put.mapError .wire

/-- Decode a block from bytes that hold nothing else. -/
def ofBytes (bytes : Bytes) : Except Error (Block α) :=
  (Wire.Reader.whole take bytes).mapError .wire

end AuthorityLedger.Block
