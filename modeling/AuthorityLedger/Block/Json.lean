import AuthorityLedger.Block
import AuthorityLedger.Transaction.Json

/-!
# Blocks as JSON

The record has the fields `index`, `previous_hash`, `hash`, `transactions`,
`nonce`, `timestamp` and `merkle_root`.
-/

namespace AuthorityLedger.Block

variable {α : Type} [Payload α]

/-- The JSON record of a block. -/
def toJson (block : Block α) : Json :=
  .object [
    ("index", .ofInt block.index.toInt),
    ("previous_hash", .string block.previousHash),
    ("hash", .string block.hash),
    ("transactions", .array (block.transactions.map Transaction.toJson)),
    ("nonce", .ofInt block.nonce.toInt),
    ("timestamp", block.timestamp.toJson),
    ("merkle_root", .string block.merkleRoot)]

/-- What has been read of a block. -/
structure Draft (α : Type) where
  index? : Option Int64 := none
  previousHash? : Option String := none
  hash? : Option String := none
  transactions? : Option (List (Transaction α)) := none
  nonce? : Option Int64 := none
  timestamp? : Option Timestamp := none
  merkleRoot? : Option String := none

/-- The fields of a block. -/
def fields : List (Json.Field (Draft α)) :=
  [ .of "index" (·.index?) (fun d v => { d with index? := some v }) Json.Reader.int64,
    .of "previous_hash" (·.previousHash?) (fun d v => { d with previousHash? := some v })
      Json.Reader.string,
    .of "hash" (·.hash?) (fun d v => { d with hash? := some v }) Json.Reader.string,
    .of "transactions" (·.transactions?) (fun d v => { d with transactions? := some v })
      (Json.Reader.list Transaction.reader),
    .of "nonce" (·.nonce?) (fun d v => { d with nonce? := some v }) Json.Reader.int64,
    .of "timestamp" (·.timestamp?) (fun d v => { d with timestamp? := some v })
      Timestamp.reader,
    .of "merkle_root" (·.merkleRoot?) (fun d v => { d with merkleRoot? := some v })
      Json.Reader.string ]

/-- All fields are needed. -/
def Draft.finish (d : Draft α) : Option (Block α) := do
  return {
    index := ← d.index?
    previousHash := ← d.previousHash?
    hash := ← d.hash?
    transactions := ← d.transactions?
    nonce := ← d.nonce?
    timestamp := ← d.timestamp?
    merkleRoot := ← d.merkleRoot? }

/-- A block, read from its JSON record. -/
def reader : Json.Reader (Block α) :=
  Json.Reader.record fields {} Draft.finish

/-- The compact JSON text of a block. -/
def toText (block : Block α) : String :=
  block.toJson.compact

/-- The block of a JSON text. -/
def ofText (text : String) : Except Error (Block α) :=
  (Json.Reader.document reader text).mapError .json

end AuthorityLedger.Block
