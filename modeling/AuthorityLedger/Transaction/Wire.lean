import AuthorityLedger.Transaction

/-!
# Transactions on the wire

Seconds, nanoseconds and priority have fixed widths; identifier, payload and
signature stand behind their lengths.
-/

namespace AuthorityLedger.Transaction

variable {α : Type} [Payload α]

/-- The wire bytes of a transaction. -/
def put (tx : Transaction α) : Except Wire.Error Bytes := do
  let id ← Wire.putText tx.id
  let payload ← Wire.putBytes (← Payload.encode tx.payload)
  let signature ← Wire.putBytes tx.signature
  return Wire.putInt64 tx.timestamp.secs ++ Wire.putUInt32 tx.timestamp.nanos ++
    Wire.putInt16 tx.priority ++ id ++ payload ++ signature

/-- Read a transaction from the front of a byte string. -/
def take : Wire.Reader (Transaction α) := do
  let secs ← Wire.Reader.int64
  let nanos ← Wire.Reader.uint32
  let priority ← Wire.Reader.int16
  let id ← Wire.Reader.text
  let body ← Wire.Reader.bytes
  let payload ← Action.ofExcept (Payload.decode body)
  let signature ← Wire.Reader.bytes
  return { timestamp := ⟨secs, nanos⟩, priority, id, payload, signature }

/-- Encode a transaction. -/
def toBytes (tx : Transaction α) : Except Error Bytes :=
  tx.put.mapError .wire

/-- Decode a transaction from bytes that hold nothing else. -/
def ofBytes (bytes : Bytes) : Except Error (Transaction α) :=
  (Wire.Reader.whole take bytes).mapError .wire

end AuthorityLedger.Transaction
