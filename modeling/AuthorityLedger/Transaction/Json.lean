import AuthorityLedger.Transaction

/-!
# Transactions as JSON

The record has the fields `timestamp`, `priority`, `id`, `payload` and
`signature`, the signature as hexadecimal text.
-/

namespace AuthorityLedger.Transaction

variable {α : Type} [Payload α]

/-- The JSON record of a transaction. -/
def toJson (tx : Transaction α) : Json :=
  .object [
    ("timestamp", tx.timestamp.toJson),
    ("priority", .ofInt tx.priority.toInt),
    ("id", .string tx.id),
    ("payload", Payload.toJson tx.payload),
    ("signature", .string (Hex.encode tx.signature))]

/-- What has been read of a transaction. -/
structure Draft (α : Type) where
  timestamp? : Option Timestamp := none
  priority? : Option Int16 := none
  id? : Option String := none
  payload? : Option α := none
  signature? : Option Bytes := none

/-- The fields of a transaction. -/
def fields : List (Json.Field (Draft α)) :=
  [ .of "timestamp" (·.timestamp?) (fun d v => { d with timestamp? := some v }) Timestamp.reader,
    .of "priority" (·.priority?) (fun d v => { d with priority? := some v }) Json.Reader.int16,
    .of "id" (·.id?) (fun d v => { d with id? := some v }) Json.Reader.string,
    .of "payload" (·.payload?) (fun d v => { d with payload? := some v }) Payload.reader,
    .of "signature" (·.signature?) (fun d v => { d with signature? := some v })
      Json.Reader.hexBytes ]

/-- All fields are needed. -/
def Draft.finish (d : Draft α) : Option (Transaction α) := do
  return {
    timestamp := ← d.timestamp?
    priority := ← d.priority?
    id := ← d.id?
    payload := ← d.payload?
    signature := ← d.signature? }

/-- A transaction, read from its JSON record. -/
def reader : Json.Reader (Transaction α) :=
  Json.Reader.record fields {} Draft.finish

/-- The compact JSON text of a transaction. -/
def toText (tx : Transaction α) : String :=
  tx.toJson.compact

/-- The transaction of a JSON text. -/
def ofText (text : String) : Except Error (Transaction α) :=
  (Json.Reader.document reader text).mapError .json

end AuthorityLedger.Transaction
