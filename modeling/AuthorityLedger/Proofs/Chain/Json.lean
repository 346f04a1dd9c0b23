import AuthorityLedger.Proofs.Block.Json
import AuthorityLedger.Proofs.Chain.History

/-!
# Chains are read from their JSON form

The record of a chain is read back with its blocks and its registry: the
participants with their capabilities and metadata, which are sorted maps and
come back as the same maps, and the used identifiers.

A chain that is read is validated, and the identifiers in its blocks are marked
as used.  That changes nothing for a valid chain whose identifiers are used
already (`toChain_toRecord`), and every chain that grows from such a chain is
one (`json_form_restored`).
-/

namespace AuthorityLedger

open Json (Reads reads_list reads_map reads_nameSet reads_record reads_string takes_field)

theorem Participant.reads_toJson (p : Participant) : Reads Participant.reader p.toJson p :=
  reads_record
    (.cons (takes_field rfl rfl (reads_string p.state)) <|
      .cons (takes_field rfl rfl (reads_nameSet p.capabilities)) <|
      .cons (takes_field rfl rfl (reads_map p.metadata fun entry _ => reads_string entry.2)) .nil)
    rfl

theorem Registry.reads_toJson (r : Registry) : Reads Registry.reader r.toJson r :=
  reads_record
    (.cons (takes_field rfl rfl (reads_map r.participants fun entry _ => entry.2.reads_toJson)) <|
      .cons (takes_field rfl rfl (reads_nameSet r.used)) .nil)
    rfl

namespace Chain

variable {α : Type} [Payload α]

/-- What the record of a chain says. -/
def toRecord (chain : Chain α) : Record α :=
  ⟨chain.id, chain.blocks, chain.registry⟩

theorem reads_toJson [ImportablePayload α] (chain : Chain α) :
    Reads recordReader chain.toJson chain.toRecord :=
  reads_record
    (.cons (takes_field rfl rfl (reads_string chain.id)) <|
      .cons (takes_field rfl rfl (reads_list fun block _ => block.reads_toJson)) <|
      .cons (takes_field rfl rfl chain.registry.reads_toJson) .nil)
    rfl

variable {chain : Chain α}

/-- The record of a chain in whose blocks every identifier is used becomes that chain again, if it is
valid, and is refused otherwise. -/
theorem toChain_toRecord_eq
    (hused : ∀ id ∈ transactionIds chain.blocks, chain.registry.isUsed id = true) :
    chain.toRecord.toChain = chain.validate.map fun _ => chain := by
  refine (ofRecord_blocks chain chain.id chain.registry).trans ?_
  rw [Registry.markUsed_eq_self hused]

/-- **Import changes nothing** about a valid chain in whose blocks every identifier is used. -/
theorem toChain_toRecord (hvalid : chain.validate = .ok ())
    (hused : ∀ id ∈ transactionIds chain.blocks, chain.registry.isUsed id = true) :
    chain.toRecord.toChain = .ok chain := by
  rw [toChain_toRecord_eq hused, hvalid]
  rfl

/-- What is read from a text that a chain was exported to is what becomes of its record. -/
theorem ofText_toText_eq [ImportablePayload α] (chain : Chain α) :
    ofText chain.toText = chain.toRecord.toChain := by
  unfold ofText toText
  rw [(Json.document_eq_ok chain.reads_toJson).2]

/-- A valid chain in whose blocks every identifier is used is read from its text. -/
theorem ofText_toText [ImportablePayload α] (hvalid : chain.validate = .ok ())
    (hused : ∀ id ∈ transactionIds chain.blocks, chain.registry.isUsed id = true) :
    ofText chain.toText = .ok chain := by
  rw [ofText_toText_eq, toChain_toRecord hvalid hused]

/-- Such a chain is read from its text without blanks, among other values. -/
theorem reads_chain [ImportablePayload α] (hvalid : chain.validate = .ok ())
    (hused : ∀ id ∈ transactionIds chain.blocks, chain.registry.isUsed id = true) :
    Reads reader chain.toJson chain where
  opens := chain.reads_toJson.opens
  run layout depth blanks rest hblank hends := by
    have hrecord := chain.reads_toJson.run layout depth blanks rest hblank hends
    unfold reader
    refine (Json.Reader.run_bind_of_ok hrecord _).trans ?_
    rw [toChain_toRecord hvalid hused]
    rfl

/-- **Export and import are inverse.**  A valid chain in whose blocks every identifier is used is
read from its text, indented or not, as it was, and so is every chain that a history leads to.  Any
transaction and any block is read from its text as it was. -/
theorem json_form_restored :
    (∀ chain : Chain String, chain.validate = .ok () →
        (∀ id ∈ transactionIds chain.blocks, chain.registry.isUsed id = true) →
        ofText chain.toText = .ok chain ∧
          Json.Reader.document reader chain.toJson.compact = .ok chain) ∧
      (∀ (chain : Chain String) (ops : List (Operation String)), Founded chain →
        ofText (chain.run ops).toText = .ok (chain.run ops) ∧
          Json.Reader.document reader (chain.run ops).toJson.compact = .ok (chain.run ops)) ∧
      (∀ tx : Transaction String, Transaction.ofText tx.toText = .ok tx) ∧
      ∀ block : Block String, Block.ofText block.toText = .ok block := by
  have hchain (chain : Chain String) (hvalid : chain.validate = .ok ())
      (hused : ∀ id ∈ transactionIds chain.blocks, chain.registry.isUsed id = true) :
      ofText chain.toText = .ok chain ∧
        Json.Reader.document reader chain.toJson.compact = .ok chain :=
    ⟨ofText_toText hvalid hused, (Json.document_eq_ok (reads_chain hvalid hused)).1⟩
  refine ⟨hchain, ?_, Transaction.ofText_toText, Block.ofText_toText⟩
  intro chain ops hfounded
  exact hchain _ (validate_run hfounded.validate_eq_ok ops)
    (transactionIds_used_run hfounded.isUsed ops)

/-- The seedling is read from its text, and so is what it has grown to. -/
theorem json_form_restored_seedling :
    seedling.validate = .ok () ∧
      (∀ id ∈ transactionIds seedling.blocks, seedling.registry.isUsed id = true) ∧
      ofText seedling.toText = .ok seedling ∧
      ofText (seedling.run [.register "ada" "\"joined\"\n" .empty, .grant "ada" "mint"]).toText =
        .ok (seedling.run [.register "ada" "\"joined\"\n" .empty, .grant "ada" "mint"]) := by
  have hvalid := founded_seedling.validate_eq_ok
  have hused := founded_seedling.isUsed
  exact ⟨hvalid, hused, (json_form_restored.1 seedling hvalid hused).1,
    (json_form_restored.2.1 seedling _ founded_seedling).1⟩

end Chain

end AuthorityLedger
