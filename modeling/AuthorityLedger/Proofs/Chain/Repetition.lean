import AuthorityLedger.Proofs.Chain.History
import AuthorityLedger.Proofs.Merkle

/-!
# Repeated identifiers in imported chains

Admission refuses a block whose identifiers are used or come twice.  Import
asks for the same of everything else, but it never compares identifiers: it
marks whatever the blocks hold.  So an imported chain may hold a transaction
identifier twice, and it does unless its blocks could also have been admitted
one by one (`nodup_transactionIds_iff`).

No hash stands in the way.  Repeating the last of an odd number of transactions
keeps the Merkle root of a block and with it the hash, so that a chain with such
a block can be imported with and without the copy (`ofRecord_repeatLast`).
-/

namespace AuthorityLedger.Chain

variable {α : Type} [Payload α]

/-! ## Admission after the fact -/

/-- **Linked blocks are admitted exactly if their identifiers are fresh together.** -/
theorem blocks_run_addBlock_iff {chain : Chain α} {later : List (Block α)}
    (hvalid : chain.validate = .ok ()) (hlinked : LinkedFrom chain.size chain.tip later) :
    (chain.run (later.map .addBlock)).blocks = chain.blocks ++ later ↔
      chain.registry.Fresh (transactionIds later) := by
  induction later generalizing chain with
  | nil => simp [transactionIds]
  | cons block rest ih =>
      obtain ⟨hprevious, hindex, hblock, hrest⟩ := hlinked
      have hplace : block.index = chain.tip.index + 1 := by rw [hindex, index_tip hvalid]
      have hsame := prepare_eq_self hplace hprevious hblock
      have hids : transactionIds (block :: rest) =
          block.transactions.map Transaction.id ++ transactionIds rest := rfl
      have hstep := step_addBlock chain block
      rw [hsame] at hstep
      have hadmissible := check_eq_ok_iff chain block
      rw [List.map_cons, run_cons, hids, Registry.fresh_append_iff]
      cases hcheck : chain.check block with
      | ok =>
          have hnew := (hadmissible.mp hcheck).2.1
          have hsize : (chain.append block).size = chain.size + 1 := by simp [size]
          have hbehind : LinkedFrom (chain.append block).size (chain.append block).tip rest := by
            rw [hsize, tip_append]
            exact hrest
          have hmore := ih (validate_append hvalid hcheck) hbehind
          rw [blocks_append, List.append_assoc, List.singleton_append] at hmore
          simp only [hcheck] at hstep
          rw [hstep, hmore, registry_append]
          exact ⟨fun h => ⟨hnew, h⟩, fun h => h.2⟩
      | error cause =>
          simp only [hcheck] at hstep
          rw [hstep]
          constructor
          · intro h
            -- A refused block is missing: what is left cannot make up for its place.
            have hlength := congrArg List.length h
            have hbound := length_blocks_run chain (rest.map .addBlock)
            rw [List.length_append, List.length_cons] at hlength
            rw [List.length_map] at hbound
            omega
          · rintro ⟨hnew, _⟩
            have hok := hadmissible.mpr ⟨⟨hplace, hprevious⟩, hnew, hblock⟩
            rw [hok] at hcheck
            cases hcheck

/-- The chain of the first block alone, in which only its identifiers are used. -/
def alone (chain : Chain α) : Chain α where
  id := chain.id
  genesis := chain.genesis
  later := []
  registry := Registry.empty.markUsed (transactionIds [chain.genesis])

/-- The chain that comes of offering the blocks behind the first, one after the other, to the chain
of the first alone. -/
def readmitted (chain : Chain α) : Chain α :=
  chain.alone.run (chain.later.map .addBlock)

/-- A chain whose second block repeats the identifier of the first. -/
def echo : Chain String where
  id := "echo"
  genesis := Block.genesis ⟨0, 0⟩ [note genesisTransactionId]
  later := [(Block.new ⟨0, 0⟩ [note genesisTransactionId]).stamp 1
    (Block.genesis ⟨0, 0⟩ [note genesisTransactionId]).hash]
  registry := Registry.empty.markUsed [genesisTransactionId, genesisTransactionId]

theorem imported_echo : Imported echo := by
  have hfirst : echo.genesis.validate = .ok () :=
    (Block.validate_genesis_iff _ _).mpr (holds_note genesisTransactionId (by decide))
  have hsecond : LinkedFrom 1 echo.genesis echo.later := by
    refine ⟨rfl, rfl, ?_, trivial⟩
    exact (Block.validate_stamp_iff _ _ _).mpr
      ⟨by decide, Block.digestText_ne_empty _, holds_note genesisTransactionId (by decide)⟩
  have hvalid : echo.validate = .ok () := (validate_eq_ok_iff echo).mpr ⟨by decide, hfirst, hsecond⟩
  have hrecord : ofRecord "echo" echo.blocks Registry.empty = .ok echo :=
    ofRecord_eq_ok_iff.mpr ⟨rfl, rfl, hvalid, rfl⟩
  exact .record hrecord

/-- **When an imported chain holds no identifier twice.**  It is so exactly if the first block holds
none twice and all later blocks, offered one by one, are admitted as they are. -/
theorem nodup_transactionIds_iff {chain : Chain α} (h : Imported chain) :
    (transactionIds chain.blocks).Nodup ↔
      (transactionIds [chain.genesis]).Nodup ∧ chain.readmitted.blocks = chain.blocks := by
  obtain ⟨hgenesis, hfirst, hlinked⟩ := (validate_eq_ok_iff chain).mp h.validate_eq_ok
  have halone : chain.alone.validate = .ok () :=
    (validate_eq_ok_iff _).mpr ⟨hgenesis, hfirst, trivial⟩
  have hreadmitted : chain.readmitted.blocks = chain.blocks ↔
      chain.alone.registry.Fresh (transactionIds chain.later) :=
    blocks_run_addBlock_iff halone hlinked
  have hfresh := Registry.fresh_append_iff Registry.empty (transactionIds [chain.genesis])
    (transactionIds chain.later)
  have hempty (ids : List String) : Registry.empty.Fresh ids ↔ ids.Nodup := by
    simp [Registry.Fresh]
  rw [← transactionIds_append, hempty, hempty] at hfresh
  rw [hreadmitted]
  exact hfresh

/-- A chain whose second block repeats the identifier of the first is imported, and its second
block could not have been admitted. -/
theorem nodup_transactionIds_iff_echo :
    Imported echo ∧ ¬ (transactionIds echo.blocks).Nodup ∧
      echo.readmitted.blocks ≠ echo.blocks := by
  have hiff := nodup_transactionIds_iff imported_echo
  have htwice : ¬ (transactionIds echo.blocks).Nodup := by decide
  refine ⟨imported_echo, htwice, ?_⟩
  intro hsame
  exact htwice (hiff.mpr ⟨by decide, hsame⟩)

/-! ## Repeated transactions that no hash sees -/

/-- What is linked behind a block asks for nothing of it but its hash. -/
theorem linkedFrom_congr {index : Nat} {p q : Block α} (h : p.hash = q.hash)
    (blocks : List (Block α)) : LinkedFrom index p blocks ↔ LinkedFrom index q blocks := by
  cases blocks with
  | nil => rfl
  | cons block rest => rw [LinkedFrom, LinkedFrom, h]

/-- A block among linked ones may be replaced by a valid one with the same place and hash. -/
theorem linkedFrom_replace {index : Nat} {previous b c : Block α} {front back : List (Block α)}
    (hindex : c.index = b.index) (hprevious : c.previousHash = b.previousHash)
    (hhash : c.hash = b.hash) (hvalid : b.validate = .ok () → c.validate = .ok ())
    (h : LinkedFrom index previous (front ++ b :: back)) :
    LinkedFrom index previous (front ++ c :: back) := by
  induction front generalizing index previous with
  | nil =>
      obtain ⟨hlink, hplace, hblock, hback⟩ := h
      exact ⟨hprevious.trans hlink, hindex.trans hplace, hvalid hblock,
        (linkedFrom_congr hhash back).mpr hback⟩
  | cons first rest ih =>
      obtain ⟨hlink, hplace, hblock, hrest⟩ := h
      exact ⟨hlink, hplace, hblock, ih hrest⟩

/-- **An import with a repeated transaction.**  Where a record is imported that has a block with an
odd number of transactions, more than one, the same record with the last of them repeated is
imported as well, hashes unchanged, and holds its identifier twice. -/
theorem ofRecord_repeatLast {id : String} {front back : List (Block α)} {block : Block α}
    {registry : Registry} {chain : Chain α} (hodd : block.transactions.length % 2 = 1)
    (hmore : 1 < block.transactions.length)
    (h : ofRecord id (front ++ block :: back) registry = .ok chain) :
    ∃ repeated, ofRecord id (front ++ block.repeatLast :: back) registry = .ok repeated ∧
      repeated.blocks.map Block.hash = chain.blocks.map Block.hash ∧
      ¬ (transactionIds repeated.blocks).Nodup := by
  obtain ⟨_, hblocks, hvalid, _⟩ := ofRecord_eq_ok_iff.mp h
  obtain ⟨hgenesis, hfirst, hlinked⟩ := (validate_eq_ok_iff chain).mp hvalid
  have hkept := Block.validate_repeatLast hodd hmore
  have htwice : ¬ (transactionIds (front ++ block.repeatLast :: back)).Nodup := by
    have hids : transactionIds [block.repeatLast] =
        Merkle.repeatLast (block.transactions.map Transaction.id) := by
      rw [transactionIds_singleton, Block.repeatLast, Merkle.map_repeatLast]
    have hsome : block.transactions.map Transaction.id ≠ [] :=
      List.ne_nil_of_length_pos (by rw [List.length_map]; omega)
    rw [← List.singleton_append, transactionIds_append, transactionIds_append, hids]
    intro hnd
    have htail := (List.nodup_append.mp hnd).2.1
    exact Merkle.not_nodup_repeatLast hsome (List.nodup_append.mp htail).1
  obtain ⟨repeated, hrepeated, hrevalid⟩ : ∃ repeated : Chain α,
      repeated.blocks = front ++ block.repeatLast :: back ∧ repeated.validate = .ok () := by
    cases front with
    | nil =>
        obtain ⟨rfl, rfl⟩ := List.cons_eq_cons.mp hblocks
        have hhash : chain.genesis.hash = chain.genesis.repeatLast.hash := rfl
        refine ⟨{ chain with genesis := chain.genesis.repeatLast }, rfl, ?_⟩
        exact (validate_eq_ok_iff _).mpr
          ⟨hgenesis, hkept hfirst, (linkedFrom_congr hhash chain.later).mp hlinked⟩
    | cons first rest =>
        obtain ⟨rfl, hlater⟩ := List.cons_eq_cons.mp hblocks
        rw [hlater] at hlinked
        have hreplaced : LinkedFrom 1 chain.genesis (rest ++ block.repeatLast :: back) := by
          refine linkedFrom_replace ?_ ?_ ?_ hkept hlinked
          · rfl
          · rfl
          · rfl
        refine ⟨{ chain with later := rest ++ block.repeatLast :: back }, rfl, ?_⟩
        exact (validate_eq_ok_iff _).mpr ⟨hgenesis, hfirst, hreplaced⟩
  refine ⟨{ repeated with
    id := id
    registry := registry.markUsed (transactionIds (front ++ block.repeatLast :: back)) }, ?_, ?_, ?_⟩
  · exact ofRecord_eq_ok_iff.mpr ⟨rfl, hrepeated, hrevalid, rfl⟩
  · change repeated.blocks.map Block.hash = chain.blocks.map Block.hash
    rw [hrepeated, hblocks]
    simp [Block.repeatLast]
  · change ¬ (transactionIds repeated.blocks).Nodup
    rw [hrepeated]
    exact htwice

end AuthorityLedger.Chain
