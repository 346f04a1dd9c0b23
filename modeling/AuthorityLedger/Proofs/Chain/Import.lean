import AuthorityLedger.Chain.Json
import AuthorityLedger.Chain.Persistence
import AuthorityLedger.Proofs.Chain.Admission
import AuthorityLedger.Proofs.Outcome

/-!
# Chains that come from outside

A chain is made of foreign data in three ways: from a JSON text of its own, as
one value of a larger JSON text, and from the records of a store.  All three
end in `ofRecord`, which keeps the blocks as they are if they are valid and
marks their identifiers (`ofRecord_eq_ok_iff`).  `Imported` gathers all ways in,
and `Imported.exists_record` says that each of them leads through a record.
-/

namespace AuthorityLedger.Chain

variable {α : Type} [Payload α]

/-- **What a record becomes.**  A record becomes a chain exactly if its blocks are those of a valid
chain; blocks and participants stay as they are, and the used identifiers are the given ones and
those in the blocks. -/
theorem ofRecord_eq_ok_iff {id : String} {blocks : List (Block α)} {registry : Registry}
    {chain : Chain α} :
    ofRecord id blocks registry = .ok chain ↔
      chain.id = id ∧ chain.blocks = blocks ∧ chain.validate = .ok () ∧
        chain.registry = registry.markUsed (transactionIds blocks) := by
  cases blocks with
  | nil =>
      simp only [ofRecord, reduceCtorEq, false_iff]
      rintro ⟨_, hblocks, _⟩
      cases hblocks
  | cons genesis later =>
      unfold ofRecord
      constructor
      · intro h
        cases hvalid : (⟨id, genesis, later, registry⟩ : Chain α).validate with
        | error cause => simp [hvalid] at h
        | ok =>
            simp only [hvalid, Except.ok.injEq] at h
            subst h
            exact ⟨rfl, rfl, hvalid, rfl⟩
      · rintro ⟨rfl, hblocks, hvalid, hregistry⟩
        obtain ⟨rfl, rfl⟩ := List.cons_eq_cons.mp hblocks
        have hraw : (⟨chain.id, chain.genesis, chain.later, registry⟩ : Chain α).validate = .ok () :=
          hvalid
        simp only [hraw, ← hregistry]

/-- What the blocks of a chain become under another name and with another registry. -/
theorem ofRecord_blocks (chain : Chain α) (id : String) (registry : Registry) :
    ofRecord id chain.blocks registry = chain.validate.map fun _ =>
      { chain with id := id, registry := registry.markUsed (transactionIds chain.blocks) } := by
  have hsame : (⟨id, chain.genesis, chain.later, registry⟩ : Chain α).validate = chain.validate :=
    rfl
  simp only [ofRecord, blocks, hsame]
  cases chain.validate <;> rfl

/-- A text that is imported for its own sake holds a record. -/
theorem exists_record_of_ofText {text : String} {chain : Chain α}
    (h : ofText text = .ok chain) :
    ∃ id blocks registry, ofRecord id blocks registry = .ok chain := by
  unfold ofText at h
  cases hread : Json.Reader.document (recordReader (α := α)) text with
  | error fault => simp [hread] at h
  | ok r => exact ⟨r.id, r.blocks, r.registry, by simpa [hread, Record.toChain] using h⟩

/-- A chain that is read among other values comes from a record. -/
theorem exists_record_of_reader {text rest : List Char} {chain : Chain α}
    (h : (reader (α := α)).run text = .ok (chain, rest)) :
    ∃ id blocks registry, ofRecord id blocks registry = .ok chain := by
  unfold reader at h
  rw [StateT.run_bind] at h
  obtain ⟨⟨r, middle⟩, _, hread⟩ := Except.bind_eq_ok_iff.mp h
  cases hchain : r.toChain with
  | error cause =>
      simp only [hchain] at hread
      cases hread
  | ok found =>
      simp only [hchain] at hread
      cases hread
      exact ⟨r.id, r.blocks, r.registry, hchain⟩

/-- A store that is loaded holds blocks of a record without participants. -/
theorem exists_blocks_of_load {σ : Type} [Storage.LedgerStore σ] {id : String} {store : σ}
    {chain : Chain α} (h : load id store = .ok chain) :
    ∃ blocks, ofRecord id blocks Registry.empty = .ok chain := by
  unfold load at h
  obtain ⟨count, _, hload⟩ := Except.bind_eq_ok_iff.mp h
  by_cases hzero : count = 0
  · rw [if_pos hzero] at hload
    cases hload
  · rw [if_neg hzero] at hload
    obtain ⟨blocks, _, hrecord⟩ := Except.bind_eq_ok_iff.mp hload
    exact ⟨blocks, hrecord⟩

/-- The chains that foreign data can become. -/
inductive Imported : Chain α → Prop where
  | text {text : String} {chain : Chain α} : ofText text = .ok chain → Imported chain
  | value {text rest : List Char} {chain : Chain α} :
      (reader (α := α)).run text = .ok (chain, rest) → Imported chain
  /-- From a record that was read in any other form. -/
  | record {id : String} {blocks : List (Block α)} {registry : Registry} {chain : Chain α} :
      ofRecord id blocks registry = .ok chain → Imported chain
  | store {σ : Type} [Storage.LedgerStore σ] {id : String} {store : σ} {chain : Chain α} :
      load id store = .ok chain → Imported chain

namespace Imported

variable {chain : Chain α}

/-- Whatever way a chain comes in, it comes from a record. -/
theorem exists_record (h : Imported chain) :
    ∃ id blocks registry, ofRecord id blocks registry = .ok chain := by
  cases h with
  | text h => exact exists_record_of_ofText h
  | value h => exact exists_record_of_reader h
  | record h => exact ⟨_, _, _, h⟩
  | store h =>
      obtain ⟨blocks, hrecord⟩ := exists_blocks_of_load h
      exact ⟨_, _, _, hrecord⟩

/-- An imported chain is valid. -/
theorem validate_eq_ok (h : Imported chain) : chain.validate = .ok () := by
  obtain ⟨_, _, _, hrecord⟩ := h.exists_record
  exact (ofRecord_eq_ok_iff.mp hrecord).2.2.1

/-- The identifiers in the blocks of an imported chain are used. -/
theorem isUsed (h : Imported chain) {id : String} (hid : id ∈ transactionIds chain.blocks) :
    chain.registry.isUsed id = true := by
  obtain ⟨_, _, registry, hrecord⟩ := h.exists_record
  obtain ⟨_, hblocks, _, hregistry⟩ := ofRecord_eq_ok_iff.mp hrecord
  rw [hregistry, Registry.isUsed_markUsed, ← hblocks]
  simp [hid]

end Imported

end AuthorityLedger.Chain
