import AuthorityLedger.Proofs.Block
import AuthorityLedger.Proofs.Chain.Import
import AuthorityLedger.Proofs.Chain.Run

/-!
# What every history of a chain keeps

A chain begins by being created or imported (`Founded`).  From then on the six
operations lead from one chain to the next, and what the lemmas about runs say
one by one is put together here: a chain stays valid and only ever grows, all
identifiers in its blocks are used, and no identifier is used up twice, whether
by a block or by an action.
-/

namespace AuthorityLedger.Chain

variable {α : Type} [Payload α]

/-- The chains that a history begins with: a created one that is valid, or an imported one. -/
inductive Founded : Chain α → Prop where
  | created {written built : Timestamp} {id : String} {payload : α} {key : Key} {chain : Chain α} :
      newAt written built id payload key = .ok chain → chain.validate = .ok () → Founded chain
  | imported {chain : Chain α} : Imported chain → Founded chain

/-- What a created chain consists of. -/
theorem exists_of_newAt {written built : Timestamp} {id : String} {payload : α} {key : Key}
    {chain : Chain α} (h : newAt written built id payload key = .ok chain) :
    ∃ signature : Bytes, signature ≠ [] ∧
      chain = {
        id := id
        genesis := Block.genesis built
          [{ Transaction.new written genesisTransactionId payload 0 with signature := signature }]
        later := []
        registry := Registry.empty.markUsed [genesisTransactionId] } := by
  unfold newAt at h
  cases hsign : (Transaction.new written genesisTransactionId payload 0).sign key with
  | error cause => simp [hsign] at h
  | ok tx =>
      simp only [hsign, Except.ok.injEq] at h
      obtain ⟨htx, hsigned⟩ := Transaction.eq_of_sign hsign
      refine ⟨tx.signature, ?_, ?_⟩
      · intro hnone
        simp [Transaction.isSigned, hnone] at hsigned
      · rw [← htx, h]

/-- The only identifier in the blocks of a created chain is used, and no other. -/
theorem registry_of_newAt {written built : Timestamp} {id : String} {payload : α} {key : Key}
    {chain : Chain α} (h : newAt written built id payload key = .ok chain) :
    chain.registry = Registry.empty.markUsed (transactionIds chain.blocks) := by
  obtain ⟨_, _, rfl⟩ := exists_of_newAt h
  rfl

theorem isUsed_of_newAt {written built : Timestamp} {id : String} {payload : α} {key : Key}
    {chain : Chain α} (h : newAt written built id payload key = .ok chain) :
    ∀ id ∈ transactionIds chain.blocks, chain.registry.isUsed id = true := by
  intro id hid
  rw [registry_of_newAt h, Registry.isUsed_markUsed]
  simp [hid]

namespace Founded

variable {chain : Chain α}

theorem validate_eq_ok (h : Founded chain) : chain.validate = .ok () := by
  cases h with
  | created _ hvalid => exact hvalid
  | imported h => exact h.validate_eq_ok

theorem isUsed (h : Founded chain) :
    ∀ id ∈ transactionIds chain.blocks, chain.registry.isUsed id = true := by
  cases h with
  | created hnew _ => exact isUsed_of_newAt hnew
  | imported h => exact fun id hid => h.isUsed hid

end Founded

/-- A transaction with a signature of one byte. -/
def note (id : String) : Transaction String :=
  { timestamp := ⟨0, 0⟩, priority := 0, id := id, payload := "note", signature := [0] }

theorem holds_notes {ids : List String} (hsome : ids ≠ []) (hids : ∀ id ∈ ids, id ≠ "") :
    Block.Holds (ids.map note) := by
  refine ⟨by simpa using hsome, ?_⟩
  intro tx htx
  obtain ⟨id, hid, rfl⟩ := List.mem_map.mp htx
  have hpayload : "note" ≠ "" := by decide
  have hlow : Transaction.minPriority ≤ 0 := by decide
  have hhigh : 0 ≤ Transaction.maxPriority := by decide
  exact (Transaction.validate_eq_ok_iff _).mpr ⟨hids id hid, hpayload, rfl, hlow, hhigh⟩

theorem holds_note (id : String) (h : id ≠ "") : Block.Holds [note id] :=
  holds_notes (List.cons_ne_nil id []) (List.forall_mem_singleton.mpr h)

/-- A chain of one block. -/
def seedling : Chain String where
  id := "seedling"
  genesis := Block.genesis ⟨0, 0⟩ [note genesisTransactionId]
  later := []
  registry := Registry.empty.markUsed [genesisTransactionId]

theorem founded_seedling : Founded seedling := by
  have hfirst : seedling.genesis.validate = .ok () :=
    (Block.validate_genesis_iff _ _).mpr (holds_note genesisTransactionId (by decide))
  have hvalid : seedling.validate = .ok () :=
    (validate_eq_ok_iff seedling).mpr ⟨by decide, hfirst, trivial⟩
  have hrecord : ofRecord "seedling" seedling.blocks Registry.empty = .ok seedling :=
    ofRecord_eq_ok_iff.mpr ⟨rfl, rfl, hvalid, rfl⟩
  exact .imported (.record hrecord)

/-- The seedling admits a block of notes that are new to it. -/
theorem check_seedling {candidate : Block String} {ids : List String}
    (hnotes : candidate.transactions = ids.map note) (hsome : ids ≠ [])
    (hids : ∀ id ∈ ids, id ≠ "") (hfresh : seedling.registry.Fresh ids) :
    seedling.check (seedling.prepare candidate) = .ok () := by
  have hsame : candidate.transactions.map Transaction.id = ids := by
    rw [hnotes, List.map_map]
    exact List.map_id ids
  have hholds : Block.Holds candidate.transactions := hnotes ▸ holds_notes hsome hids
  refine (check_eq_ok_iff _ _).mpr ⟨⟨rfl, rfl⟩, ?_, (Block.validate_stamp_iff _ _ _).mpr ?_⟩
  · rw [transactions_prepare, hsame]
    exact hfresh
  · exact ⟨by decide, Block.digestText_ne_empty _, hholds⟩

/-- The seedling behind which a block of three notes has been admitted. -/
def sapling : Chain String :=
  seedling.append (seedling.prepare (Block.new ⟨0, 0⟩ [note "a", note "b", note "c"]))

theorem validate_sapling : sapling.validate = .ok () := by
  have hfresh : seedling.registry.Fresh ["a", "b", "c"] :=
    (firstDuplicate?_empty_iff _ _).mp (by decide)
  exact validate_append founded_seedling.validate_eq_ok
    (check_seedling rfl (List.cons_ne_nil _ _) (by decide) hfresh)

/-- **The run invariant of a chain.**  Whatever is asked of a chain that was created or imported,

* it stays valid, and the identifiers in its blocks are all used;
* the blocks of every earlier chain are its first blocks, and what was used then is still used;
* an identifier is used if it was used at the start or has been used up since, and what is used up
  is used up once, by a block or by an action, and was not used at the start;
* a block that is admitted is appended as it was linked, with identifiers that differ from each
  other and were all unused;
* an operation that is refused leaves the chain as it was. -/
theorem history_invariant {chain : Chain α} (h : Founded chain) (ops : List (Operation α)) :
    (chain.run ops).validate = .ok () ∧
      (∀ id ∈ transactionIds (chain.run ops).blocks, (chain.run ops).registry.isUsed id = true) ∧
      (∀ front back, ops = front ++ back →
        (chain.run front).blocks <+: (chain.run ops).blocks ∧
          ∀ id, (chain.run front).registry.isUsed id = true →
            (chain.run ops).registry.isUsed id = true) ∧
      (∀ id, (chain.run ops).registry.isUsed id = true ↔
        chain.registry.isUsed id = true ∨ id ∈ chain.consumed ops) ∧
      (chain.consumed ops).Nodup ∧
      (∀ id ∈ chain.consumed ops, chain.registry.isUsed id = false) ∧
      (∀ candidate, (chain.run ops).accepts (.addBlock candidate) = true →
        ((chain.run ops).step (.addBlock candidate)).blocks =
            (chain.run ops).blocks ++ [(chain.run ops).prepare candidate] ∧
          (candidate.transactions.map Transaction.id).Nodup ∧
          ∀ id ∈ candidate.transactions.map Transaction.id,
            (chain.run ops).registry.isUsed id = false) ∧
      (∀ op, (chain.run ops).accepts op = false → (chain.run ops).step op = chain.run ops) := by
  obtain ⟨hnd, hnew⟩ := fresh_consumed chain ops
  refine ⟨validate_run h.validate_eq_ok ops, transactionIds_used_run h.isUsed ops, ?_, ?_, hnd,
    hnew, ?_, ?_⟩
  · rintro front back rfl
    rw [run_append]
    constructor
    · exact blocks_prefix_run _ back
    · intro id hid
      rw [run_isUsed, hid, Bool.or_true]
  · intro id
    rw [run_isUsed]
    simp [or_comm]
  · intro candidate hyes
    exact step_addBlock_of_accepted hyes
  · intro op hno
    exact step_eq_self_of_refused hno

/-- An action and a block each use up an identifier that the other is then refused. -/
theorem history_invariant_seedling :
    let ops : List (Operation String) := [
      .register "ada" "" SortedMap.empty,
      .recordAction "ada" "a" "",
      .addBlock (Block.new ⟨0, 0⟩ [note "a"]),
      .addBlock (Block.new ⟨0, 0⟩ [note "b"]),
      .recordAction "ada" "b" ""]
    Founded seedling ∧ seedling.consumed ops = ["a", "b"] ∧ (seedling.consumed ops).Nodup ∧
      (seedling.run ops).validate = .ok () := by
  intro ops
  obtain ⟨hvalid, _, _, _, hnodup, _⟩ := history_invariant founded_seedling ops
  exact ⟨founded_seedling, by decide +kernel, hnodup, hvalid⟩

end AuthorityLedger.Chain
