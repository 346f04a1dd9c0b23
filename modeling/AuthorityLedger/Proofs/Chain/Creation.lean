import AuthorityLedger.Proofs.Chain.Archive
import AuthorityLedger.Proofs.Chain.Json

/-!
# When a chain that has just been created is valid

Creating a chain asks for a key and for nothing else.  The first block is
stamped and its transaction is signed, so that all but one of the rules hold by
construction; the one that is left is that the payload has a canonical text that
is not empty (`validate_newAt`).

A chain that breaks this rule is created and persisted like any other, but what
is made of it again is validated: the text that it is exported to is not
imported, and the store that it was persisted into is not loaded
(`created_valid_iff`).
-/

namespace AuthorityLedger.Chain

open Storage (Store)

variable {α : Type} [Payload α]

section Created

variable {written built : Timestamp} {id : String} {payload : α} {key : Key} {chain : Chain α}

/-- The only block of a created chain has the index of its place. -/
theorem indexed_of_newAt (h : newAt written built id payload key = .ok chain) : chain.Indexed := by
  obtain ⟨_, _, rfl⟩ := exists_of_newAt h
  constructor
  · intro i block hi
    cases i with
    | zero =>
        obtain rfl := Option.some.inj hi
        rfl
    | succ i => cases hi
  · have hone : 1 ≤ Nat.pow 2 63 := by decide
    exact hone

/-- The transaction of a created chain is refused for its payload or not at all. -/
theorem validate_genesisTransaction (written : Timestamp) (payload : α) {signature : Bytes}
    (hsignature : signature ≠ []) :
    ({ Transaction.new written genesisTransactionId payload 0 with
        signature := signature } : Transaction α).validate =
      if Payload.canonical payload = "" then .error (.emptyPayload genesisTransactionId)
      else .ok () := by
  have hid : genesisTransactionId ≠ "" := by decide
  have hsigned : (!signature.isEmpty) = true := by simpa using hsignature
  have hrange : ¬ ((0 : Int16) < Transaction.minPriority ∨ Transaction.maxPriority < (0 : Int16)) :=
    by decide
  simp only [Transaction.validate, Transaction.isSigned, Transaction.new, hid, hsigned, hrange,
    Bool.not_true, Bool.false_eq_true, if_false]

/-- **The one rule that creation leaves open** is that the payload has a canonical text. -/
theorem validate_newAt (h : newAt written built id payload key = .ok chain) :
    chain.validate = if Payload.canonical payload = "" then
        .error (.invalidBlock (.invalidTransaction 0 0 (.emptyPayload genesisTransactionId)))
      else .ok () := by
  obtain ⟨signature, hsignature, rfl⟩ := exists_of_newAt h
  have htx := validate_genesisTransaction written payload hsignature
  generalize ({ Transaction.new written genesisTransactionId payload 0 with
    signature := signature } : Transaction α) = tx at htx
  have hfirst : (Block.genesis built [tx]).validate = Block.validateTransactions 0 0 [tx] :=
    Block.validate_stamp (by decide) (by decide) (Block.genesis built [tx])
  have hgenesis : (!(Block.genesis built [tx]).isGenesis) = false := rfl
  simp only [validate, hgenesis, hfirst, Block.validateTransactions, htx, validateLinks,
    Bool.false_eq_true, if_false]
  by_cases hpayload : Payload.canonical payload = ""
  · simp only [hpayload, if_true]
  · simp only [hpayload, if_false]

/-- A created chain that was persisted into an empty store fits and is what the store holds. -/
theorem persisted_of_newAt (h : newAt written built id payload key = .ok chain) {count : Nat}
    {t : Store} (hon : (persist chain).on Store.empty = (.ok count, t)) :
    (∀ block ∈ chain.blocks, block.Fits) ∧ count = 1 ∧ Stored t chain.blocks := by
  have hsize : chain.size = 1 := by
    obtain ⟨_, _, rfl⟩ := exists_of_newAt h
    rfl
  rcases stored_empty.persist (indexed_of_newAt h) with ⟨hfits, s, hs, hstored⟩ | ⟨_, cause, hcause⟩
  · obtain ⟨hcount, rfl⟩ := Prod.mk.inj (hs.symm.trans hon)
    exact ⟨hfits, (Except.ok.inj hcount).symm.trans hsize, hstored⟩
  · cases hcause.symm.trans hon

/-- **When a created chain is valid, and what follows from it.**  Whatever the name, the payload,
the key and the time,

* the chain is valid exactly if the canonical text of the payload is not empty; otherwise the only
  transaction is refused for its payload;
* the text that it is exported to is imported as the same chain if the chain is valid, and refused
  for the same reason otherwise, where payloads can be read back;
* it can be persisted into an empty store exactly if its block can be written, valid or not;
* the store that it was persisted into is loaded as the same chain, under any name, if the chain is
  valid, and refused for the same reason otherwise, where payloads can be read back. -/
theorem created_valid_iff (hnew : newAt written built id payload key = .ok chain) :
    (chain.validate = .ok () ↔ Payload.canonical payload ≠ "") ∧
      (Payload.canonical payload = "" → chain.validate =
        .error (.invalidBlock (.invalidTransaction 0 0 (.emptyPayload genesisTransactionId)))) ∧
      (∀ [ImportablePayload α], ofText chain.toText = chain.validate.map fun _ => chain) ∧
      ((∃ count t, (persist chain).on Store.empty = (.ok count, t)) ↔
        ∀ block ∈ chain.blocks, block.Fits) ∧
      ∀ count t, (persist chain).on Store.empty = (.ok count, t) →
        count = 1 ∧ ∀ [ReadablePayload α] (name : String),
          load name t = chain.validate.map fun _ => { chain with id := name } := by
  have hvalidate := validate_newAt hnew
  have hregistry := registry_of_newAt hnew
  refine ⟨?_, ?_, ?_, ?_, ?_⟩
  · rw [hvalidate]
    by_cases hpayload : Payload.canonical payload = ""
    · simp [hpayload]
    · simp [hpayload]
  · intro hpayload
    rw [hvalidate, if_pos hpayload]
  · intro _
    rw [ofText_toText_eq, toChain_toRecord_eq (isUsed_of_newAt hnew)]
  · constructor
    · intro ⟨count, t, hon⟩
      exact (persisted_of_newAt hnew hon).1
    · intro hfits
      rcases stored_empty.persist (indexed_of_newAt hnew) with ⟨_, t, ht, _⟩ | ⟨hlarge, _⟩
      · exact ⟨_, t, ht⟩
      · exact absurd hfits hlarge
  · intro count t hon
    obtain ⟨_, hcount, hstored⟩ := persisted_of_newAt hnew hon
    refine ⟨hcount, ?_⟩
    intro _ name
    rw [load_eq_ofRecord hstored (List.cons_ne_nil _ _), ofRecord_blocks, ← hregistry]

end Created

/-- A first block with one transaction can be written exactly if its transaction can. -/
theorem fits_genesis_iff (built : Timestamp) (tx : Transaction α) :
    (Block.genesis built [tx]).Fits ↔
      tx.Fits ∧ ∀ w, tx.put = .ok w → w.length < Nat.pow 2 32 := by
  have hprevious : genesisPreviousHash.length ≤ 64 := by decide
  have hhash : (Block.genesis built [tx]).hash.length = 64 := length_digestText _
  have hroot : (Block.genesis built [tx]).merkleRoot.length = 64 :=
    Merkle.length_merkleRoot (List.cons_ne_nil _ _)
  have hone : [tx].length < Nat.pow 2 32 := Wire.fits_of_le (n := 1) (by decide)
  rw [Block.fits_iff_of_short hprevious (Nat.le_of_eq hhash) (Nat.le_of_eq hroot)]
  exact (and_iff_right hone).trans List.forall_mem_singleton

/-- The transaction of a chain without a payload, signed by the gardener. -/
def blank : Transaction String :=
  { Transaction.new ⟨0, 0⟩ genesisTransactionId "" 0 with
    signature := Ed25519.sign (List.replicate 32 1) (Bytes.ofText
      (Transaction.new ⟨0, 0⟩ genesisTransactionId "" 0).canonical) }

/-- A chain that was created without a payload. -/
def barren : Chain String where
  id := "barren"
  genesis := Block.genesis ⟨0, 0⟩ [blank]
  later := []
  registry := Registry.empty.markUsed [genesisTransactionId]

theorem newAt_barren :
    newAt ⟨0, 0⟩ ⟨0, 0⟩ "barren" "" Archive.gardener = .ok barren := rfl

theorem fits_barren : ∀ block ∈ barren.blocks, block.Fits := by
  refine List.forall_mem_singleton.mpr ((fits_genesis_iff _ _).mpr ?_)
  have hsignature : blank.signature.length = 64 := Ed25519.length_sign _ _
  refine ⟨⟨Wire.fits_of_le (n := 7) (by decide), ⟨_, rfl, Wire.fits_of_le (n := 0) (by decide)⟩,
    Wire.fits_of_le (by omega)⟩, ?_⟩
  intro w hw
  have hwhole : w.length = 26 + 7 + 0 + blank.signature.length := Transaction.length_of_put hw rfl
  exact Wire.fits_of_le (by omega)

/-- The barren chain is created and persisted, and can neither be imported nor loaded again. -/
theorem created_valid_iff_barren :
    let fault : Error :=
      .invalidBlock (.invalidTransaction 0 0 (.emptyPayload genesisTransactionId))
    newAt ⟨0, 0⟩ ⟨0, 0⟩ "barren" "" Archive.gardener = .ok barren ∧
      barren.validate = .error fault ∧
      (ofText barren.toText : Except Error (Chain String)) = .error fault ∧
      ∃ t, (persist barren).on Store.empty = (.ok 1, t) ∧
        (load "barren" t : Except Error (Chain String)) = .error fault := by
  intro fault
  obtain ⟨_, hfault, htext, hpersist, hload⟩ := created_valid_iff newAt_barren
  have hinvalid : barren.validate = .error fault := hfault rfl
  obtain ⟨count, t, hon⟩ := hpersist.mpr fits_barren
  obtain ⟨rfl, hname⟩ := hload count t hon
  refine ⟨newAt_barren, hinvalid, ?_, t, hon, ?_⟩
  · rw [htext, hinvalid]
    rfl
  · rw [hname, hinvalid]
    rfl

end AuthorityLedger.Chain
