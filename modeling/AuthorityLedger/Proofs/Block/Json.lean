import AuthorityLedger.Block.Json
import AuthorityLedger.Payload.Reading
import AuthorityLedger.Proofs.Json.Number
import AuthorityLedger.Proofs.Json.Record

/-!
# Blocks are read from their JSON form

Each record is written with its fields in their order and read field by field:
every field is found by its name, has not been set before and takes up the value
that was written, and the fields together finish the draft.  The parts of a
record are read before the record: points in time, transactions, blocks.

Nothing is asked of the values themselves.  A transaction that is not valid and
a block with a wrong hash are read back as they are; only the payload has to be
of a kind that can be read back (`ImportablePayload`).
-/

namespace AuthorityLedger

open Json (Reads reads_hexBytes reads_int16 reads_int64 reads_list reads_record reads_string
  reads_uint32 takes_field)

/-- A payload type whose JSON form can be read back. -/
class ImportablePayload (α : Type) [Payload α] : Prop where
  reads : ∀ value : α, Reads Payload.reader (Payload.toJson value) value

instance : ImportablePayload String where
  reads := reads_string

instance : ImportablePayload Reading where
  reads r := reads_record
    (.cons (takes_field rfl rfl (reads_string r.sensor)) <|
      .cons (takes_field rfl rfl (reads_uint32 r.value)) .nil)
    rfl

/-! In each record below, a field is found by its name and has not been set: the two `rfl`.  The last
`rfl` is that the draft with all fields is finished to the value. -/

theorem Timestamp.reads_toJson (t : Timestamp) : Reads Timestamp.reader t.toJson t :=
  reads_record
    (.cons (takes_field rfl rfl (reads_int64 t.secs)) <|
      .cons (takes_field rfl rfl (reads_uint32 t.nanos)) .nil)
    rfl

variable {α : Type} [Payload α] [ImportablePayload α]

/-- A transaction is read from its record, whatever its fields. -/
theorem Transaction.reads_toJson (tx : Transaction α) : Reads Transaction.reader tx.toJson tx :=
  reads_record
    (.cons (takes_field rfl rfl tx.timestamp.reads_toJson) <|
      .cons (takes_field rfl rfl (reads_int16 tx.priority)) <|
      .cons (takes_field rfl rfl (reads_string tx.id)) <|
      .cons (takes_field rfl rfl (ImportablePayload.reads tx.payload)) <|
      .cons (takes_field rfl rfl (reads_hexBytes tx.signature)) .nil)
    rfl

/-- A block is read from its record, whatever its fields. -/
theorem Block.reads_toJson (block : Block α) : Reads Block.reader block.toJson block :=
  reads_record
    (.cons (takes_field rfl rfl (reads_int64 block.index)) <|
      .cons (takes_field rfl rfl (reads_string block.previousHash)) <|
      .cons (takes_field rfl rfl (reads_string block.hash)) <|
      .cons (takes_field rfl rfl (reads_list fun tx _ => tx.reads_toJson)) <|
      .cons (takes_field rfl rfl (reads_int64 block.nonce)) <|
      .cons (takes_field rfl rfl block.timestamp.reads_toJson) <|
      .cons (takes_field rfl rfl (reads_string block.merkleRoot)) .nil)
    rfl

/-- **Every transaction is read from its JSON text**, valid or not. -/
theorem Transaction.ofText_toText (tx : Transaction α) : ofText tx.toText = .ok tx := by
  unfold ofText toText
  rw [(Json.document_eq_ok tx.reads_toJson).1]
  rfl

/-- **Every block is read from its JSON text**, valid or not. -/
theorem Block.ofText_toText (block : Block α) : ofText block.toText = .ok block := by
  unfold ofText toText
  rw [(Json.document_eq_ok block.reads_toJson).1]
  rfl

end AuthorityLedger
