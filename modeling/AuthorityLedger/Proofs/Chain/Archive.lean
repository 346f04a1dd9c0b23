import AuthorityLedger.Proofs.Chain.Persistence

/-!
# Chains that are persisted again and again

An archive is a chain together with the store it is persisted into.  It counts
the blocks that the chain has gained since it was last persisted, all of them if
it never was.  In between, anything may be asked of the chain, and it may refuse.

One step keeps the store in agreement with the first blocks of the chain
(`kept_step`), so every persist of a run finds exactly the unsaved blocks missing
(`persisted_of_kept`).  A chain that was created is therefore restored by loading
after every persist, with its blocks, its transactions and nothing used besides
(`restored_after_run`).
-/

namespace AuthorityLedger

open Storage (Store)

/-- A chain, the store that it is persisted into, and the number of blocks that it has gained since
it was persisted. -/
structure Archive (α : Type) where
  chain : Chain α
  store : Store
  unsaved : Nat

namespace Archive

variable {α : Type}

/-- A chain that was never persisted, and an empty store. -/
def ofChain (chain : Chain α) : Archive α :=
  ⟨chain, Store.empty, chain.size⟩

/-- What can be asked of an archive. -/
inductive Operation (α : Type) where
  | change (op : Chain.Operation α)
  | persist

variable [Payload α]

/-- The outcome of persisting, and the store afterwards. -/
def persisted (a : Archive α) : Except Chain.Error Nat × Store :=
  a.chain.persist.on a.store

/-- The archive after an operation, carried out or refused. -/
def step (a : Archive α) : Operation α → Archive α
  | .change op => { a with
      chain := a.chain.step op
      unsaved := a.unsaved + ((a.chain.step op).size - a.chain.size) }
  | .persist =>
    match a.persisted with
    | (.ok _, store) => { a with store := store, unsaved := 0 }
    | (.error _, store) => { a with store := store }

/-- The archive after a list of operations. -/
def run (a : Archive α) (ops : List (Operation α)) : Archive α :=
  ops.foldl step a

/-- What every archive keeps: a valid chain without repeated identifiers, and a store that holds
all blocks but those that are counted as unsaved. -/
structure Kept (a : Archive α) : Prop where
  valid : a.chain.validate = .ok ()
  used : ∀ id ∈ Chain.transactionIds a.chain.blocks, a.chain.registry.isUsed id = true
  nodup : (Chain.transactionIds a.chain.blocks).Nodup
  saved : ∃ saved more, a.chain.blocks = saved ++ more ∧ more.length = a.unsaved ∧
    Chain.Stored a.store saved

/-- A chain that has just been created is kept. -/
theorem kept_ofChain {written built : Timestamp} {id : String} {payload : α} {key : Key}
    {chain : Chain α} (hnew : Chain.newAt written built id payload key = .ok chain)
    (hvalid : chain.validate = .ok ()) : (ofChain chain).Kept where
  valid := hvalid
  used := (Chain.Founded.created hnew hvalid).isUsed
  nodup := by
    obtain ⟨_, _, rfl⟩ := Chain.exists_of_newAt hnew
    exact List.nodup_singleton _
  saved := ⟨[], chain.blocks, rfl, rfl, Chain.stored_empty⟩

/-- **What persisting answers.**  If all blocks can be written, it answers the number of unsaved
ones, and the store holds the whole chain; otherwise it fails and the store stays as it was. -/
theorem persisted_of_kept {a : Archive α} (h : a.Kept) :
    ((∀ block ∈ a.chain.blocks, block.Fits) ∧
        ∃ t, a.persisted = (.ok a.unsaved, t) ∧ Chain.Stored t a.chain.blocks) ∨
      (¬ (∀ block ∈ a.chain.blocks, block.Fits) ∧
        ∃ cause, a.persisted = (.error cause, a.store)) := by
  obtain ⟨saved, more, hblocks, hcount, hstored⟩ := h.saved
  have hdrop : a.chain.blocks.drop saved.length = more := by
    rw [hblocks, List.drop_left]
  have hunsaved : a.chain.size - saved.length = a.unsaved := by
    rw [← hcount, ← hdrop, List.length_drop]
    rfl
  have hwritten : ∀ block ∈ saved, block.Fits := by
    intro block hblock
    obtain ⟨i, hi⟩ := List.mem_iff_getElem?.mp hblock
    obtain ⟨w, hbytes, _⟩ := hstored.block i block hi
    exact Block.exists_put_iff.mp ⟨w, Block.toBytes_eq_ok_iff.mp hbytes⟩
  have hfits : (∀ block ∈ a.chain.blocks, block.Fits) ↔ ∀ block ∈ more, block.Fits := by
    rw [hblocks, List.forall_mem_append]
    exact and_iff_right hwritten
  have hpersist := Chain.persist_of_stored hstored h.valid
  rwa [hdrop, hunsaved, ← hblocks, ← hfits] at hpersist

/-- One operation keeps an archive. -/
theorem kept_step {a : Archive α} (h : a.Kept) (op : Operation α) : (a.step op).Kept := by
  cases op with
  | change op =>
      obtain ⟨saved, more, hblocks, hcount, hstored⟩ := h.saved
      obtain ⟨gained, hgained⟩ := Chain.blocks_prefix_step a.chain op
      refine ⟨Chain.validate_step h.valid op, Chain.transactionIds_used_step h.used op,
        Chain.nodup_transactionIds_step h.used h.nodup op, saved, more ++ gained, ?_, ?_, hstored⟩
      · rw [← List.append_assoc, ← hblocks]
        exact hgained.symm
      · have hsize : (a.chain.step op).size = a.chain.size + gained.length := by
          unfold Chain.size
          rw [← hgained, List.length_append]
        simp only [step, hsize, List.length_append, hcount]
        omega
  | persist =>
      unfold step
      rcases persisted_of_kept h with ⟨_, t, ht, hstored⟩ | ⟨_, cause, hcause⟩
      · rw [ht]
        exact ⟨h.valid, h.used, h.nodup, a.chain.blocks, [], (List.append_nil _).symm, rfl, hstored⟩
      · rw [hcause]
        exact h

/-- A run keeps an archive. -/
theorem kept_run {a : Archive α} (h : a.Kept) (ops : List (Operation α)) : (a.run ops).Kept := by
  induction ops generalizing a with
  | nil => exact h
  | cons op rest ih => exact ih (kept_step h op)

/-- **Persisting can be undone by loading, at any time.**  Whatever has been asked of a chain since
it was created, and however often it was persisted into a store that began empty: if its blocks
can be written, persisting answers the number of blocks gained since it last succeeded, and from
then on the store has no open transaction, the height of the last block, and every transaction
under its identifier; loading gives the same blocks, with exactly their identifiers used.  If a
block cannot be written, persisting fails and the store stays as it was. -/
theorem restored_after_run [ReadablePayload α] {written built : Timestamp} {id : String}
    {payload : α} {key : Key} {chain : Chain α}
    (hnew : Chain.newAt written built id payload key = .ok chain)
    (hvalid : chain.validate = .ok ()) (ops : List (Operation α)) :
    let a := (ofChain chain).run ops
    ((∀ block ∈ a.chain.blocks, block.Fits) →
      ∃ t : Store, a.persisted = (.ok a.unsaved, t) ∧ t.inTransaction = false ∧
        (∃ height, t.height? = .ok (some height) ∧ height.toNat = a.chain.size - 1) ∧
        (∀ name, ∃ loaded : Chain α, Chain.load name t = .ok loaded ∧
          loaded.blocks = a.chain.blocks ∧
          ∀ id, loaded.registry.isUsed id = true ↔ id ∈ Chain.transactionIds a.chain.blocks) ∧
        ∀ block ∈ a.chain.blocks, ∀ tx ∈ block.transactions,
          ∃ w, tx.toBytes = .ok w ∧ t.transaction? tx.id = some w) ∧
    ((∃ block ∈ a.chain.blocks, ¬ block.Fits) →
      ∃ cause, a.persisted = (.error cause, a.store)) := by
  intro a
  have hkept : a.Kept := kept_run (kept_ofChain hnew hvalid) ops
  rcases persisted_of_kept hkept with ⟨hfits, t, ht, hstored⟩ | ⟨hlarge, hfailed⟩
  · constructor
    · intro _
      refine ⟨t, ht, ?_, ?_, ?_, ?_⟩
      · rw [Store.inTransaction, hstored.closed]
        rfl
      · exact hstored.exists_height (List.cons_ne_nil _ _)
      · exact Chain.exists_load_of_stored hstored hkept.valid
      · intro block hblock tx htx
        exact hstored.transaction hkept.nodup tx (List.mem_flatMap.mpr ⟨block, hblock, htx⟩)
    · intro hsome
      obtain ⟨block, hmem, hlarge⟩ := hsome
      exact absurd (hfits block hmem) hlarge
  · exact ⟨fun hfits => absurd hfits hlarge, fun _ => hfailed⟩

/-- The key whose private half is all ones. -/
def gardener : Key := Key.ofSeed (List.replicate 32 1)

/-- A chain that was created with this key. -/
def sprout : Chain String where
  id := "sprout"
  genesis := Block.genesis ⟨0, 0⟩
    [{ Transaction.new ⟨0, 0⟩ genesisTransactionId "init" 0 with
        signature := Ed25519.sign (List.replicate 32 1) (Bytes.ofText
          (Transaction.new ⟨0, 0⟩ genesisTransactionId "init" 0).canonical) }]
  later := []
  registry := Registry.empty.markUsed [genesisTransactionId]

theorem newAt_sprout :
    Chain.newAt ⟨0, 0⟩ ⟨0, 0⟩ "sprout" "init" gardener = .ok sprout := rfl

theorem validate_sprout : sprout.validate = .ok () := by
  have hsigned : (Transaction.new ⟨0, 0⟩ genesisTransactionId "init" 0).sign gardener =
      .ok (sprout.genesis.transactions.head (List.cons_ne_nil _ _)) := rfl
  have htx : ∀ tx ∈ sprout.genesis.transactions, tx.validate = .ok () := by
    refine List.forall_mem_singleton.mpr ((Transaction.validate_eq_ok_iff _).mpr ?_)
    exact ⟨by decide, by decide, (Transaction.eq_of_sign hsigned).2, by decide, by decide⟩
  have hfirst : sprout.genesis.validate = .ok () :=
    (Block.validate_genesis_iff _ _).mpr ⟨List.cons_ne_nil _ _, htx⟩
  exact (Chain.validate_eq_ok_iff sprout).mpr ⟨by decide, hfirst, trivial⟩

theorem fits_sprout : ∀ block ∈ sprout.blocks, block.Fits := by
  refine List.forall_mem_singleton.mpr ?_
  have hsignature : ∀ tx ∈ sprout.genesis.transactions, tx.signature.length = 64 :=
    List.forall_mem_singleton.mpr (Ed25519.length_sign _ _)
  rw [Chain.fits_iff_of_validate validate_sprout List.mem_cons_self]
  refine ⟨Wire.fits_of_le (n := 1) (by decide), ?_⟩
  intro tx htx
  have hlength := hsignature tx htx
  obtain rfl := List.mem_singleton.mp htx
  refine ⟨⟨Wire.fits_of_le (n := 7) (by decide),
    ⟨_, rfl, Wire.fits_of_le (n := 4) (by decide)⟩, Wire.fits_of_le (by omega)⟩, ?_⟩
  intro w hw
  have hwhole : w.length = 26 + 7 + 4 + _ := Transaction.length_of_put hw rfl
  exact Wire.fits_of_le (by omega)

/-- The sprout with one more block. -/
def branched : Chain String :=
  sprout.append (sprout.prepare (Block.new ⟨0, 0⟩ [Chain.note "b"]))

theorem step_sprout :
    sprout.step (.addBlock (Block.new ⟨0, 0⟩ [Chain.note "b"])) = branched := by
  have hcheck : sprout.check (sprout.prepare (Block.new ⟨0, 0⟩ [Chain.note "b"])) = .ok () := by
    refine (Chain.check_eq_ok_iff _ _).mpr ⟨⟨rfl, rfl⟩, ?_, ?_⟩
    · exact (Registry.fresh_singleton _ _).mpr (by decide)
    · exact (Block.validate_stamp_iff _ _ _).mpr
        ⟨by decide, Block.digestText_ne_empty _, Chain.holds_note "b" (by decide)⟩
  rw [Chain.step_addBlock, hcheck]
  rfl

theorem fits_branched : ∀ block ∈ branched.blocks, block.Fits := by
  have hvalid : branched.validate = .ok () := step_sprout ▸ Chain.validate_step validate_sprout _
  have hlast : branched.blocks = sprout.blocks ++ branched.later := rfl
  rw [hlast, List.forall_mem_append]
  refine ⟨fits_sprout, List.forall_mem_singleton.mpr ?_⟩
  exact Chain.fits_of_note hvalid (List.mem_cons_of_mem _ List.mem_cons_self) rfl (by decide)

/-- A chain that was persisted and has then gained a block is persisted again: one block is
added. -/
theorem restored_after_run_branched :
    let ops : List (Operation String) :=
      [.persist, .change (.addBlock (Block.new ⟨0, 0⟩ [Chain.note "b"]))]
    Chain.newAt ⟨0, 0⟩ ⟨0, 0⟩ "sprout" "init" gardener = .ok sprout ∧
      sprout.validate = .ok () ∧ ((ofChain sprout).run ops).chain = branched ∧
      ∃ t, ((ofChain sprout).run ops).persisted = (.ok 1, t) := by
  intro ops
  rcases persisted_of_kept (kept_ofChain newAt_sprout validate_sprout) with
    ⟨_, s, hs, _⟩ | ⟨hlarge, _⟩
  · have hfirst : (ofChain sprout).step .persist = ⟨sprout, s, 0⟩ := by
      simp only [step, hs]
      rfl
    have hsize : branched.size - sprout.size = 1 := by
      rw [branched, Chain.size, Chain.blocks_append, List.length_append]
      exact Nat.add_sub_cancel_left _ _
    have hrun : (ofChain sprout).run ops = ⟨branched, s, 1⟩ := by
      simp only [run, ops, List.foldl_cons, List.foldl_nil, hfirst]
      simp only [step, step_sprout, hsize, Nat.zero_add]
    have hrestored := (restored_after_run newAt_sprout validate_sprout ops).1
    rw [hrun] at hrestored ⊢
    obtain ⟨t, ht, _⟩ := hrestored fits_branched
    exact ⟨newAt_sprout, validate_sprout, rfl, t, ht⟩
  · exact absurd fits_sprout hlarge

end Archive

end AuthorityLedger
