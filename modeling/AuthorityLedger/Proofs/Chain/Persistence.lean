import AuthorityLedger.Proofs.Chain.Commitment
import AuthorityLedger.Proofs.Chain.Records

/-!
# What a store holds of a chain

`Stored` says that the records of a store are those of a list of blocks.  A chain
that is persisted, valid or not, adds those of its blocks that are further up
than the store reaches (`Stored.persist`), and what is loaded is a chain of the
blocks of which the records tell (`load_eq_ofRecord`).

Persisting never looks at the blocks that are there already.  The store holds the
chain afterwards exactly if what was there agrees with the chain wherever
both have a block (`kept_iff_of_persist`); otherwise the outcome is the same, and
the store holds the blocks of two histories.
-/

namespace AuthorityLedger.Chain

open Storage (Database RecordKey Store)

variable {α : Type} [Payload α]

/-- A store without an open transaction whose records are those of the given blocks, by height.  A
transaction can be looked up if its identifier is not repeated. -/
structure Stored (s : Store) (blocks : List (Block α)) : Prop where
  closed : s.pending = none
  count : storedCount s = .ok blocks.length
  block : ∀ (i : Nat) (block : Block α), blocks[i]? = some block →
    ∃ w, block.toBytes = .ok w ∧ s.block? (UInt64.ofNat i) = some w
  transaction : (transactionIds blocks).Nodup → ∀ tx ∈ blocks.flatMap Block.transactions,
    ∃ w, tx.toBytes = .ok w ∧ s.transaction? tx.id = some w

theorem stored_empty : Stored Store.empty ([] : List (Block α)) where
  closed := rfl
  count := rfl
  block i block h := by cases h
  transaction _ tx h := by cases h

omit [Payload α] in
theorem transactionIds_eq_map (blocks : List (Block α)) :
    transactionIds blocks = (blocks.flatMap Block.transactions).map Transaction.id := by
  rw [transactionIds, List.map_flatMap]

namespace Stored

variable {s : Store} {stored : List (Block α)}

/-- A store holds no more blocks than there are heights. -/
theorem length_le (h : Stored s stored) : stored.length ≤ UInt64.size := by
  rcases height?_of_storedCount h.count with ⟨hzero, _⟩ | ⟨height, _, hheight⟩
  · omega
  · have hlt := height.toNat_lt_size
    omega

/-- The height of a store is that of the last block in it. -/
theorem exists_height (h : Stored s stored) (hsome : stored ≠ []) :
    ∃ height, s.height? = .ok (some height) ∧ height.toNat = stored.length - 1 := by
  have hpos := List.length_pos_iff.mpr hsome
  rcases height?_of_storedCount h.count with ⟨hzero, _⟩ | ⟨height, hheight, hlast⟩
  · omega
  · exact ⟨height, hheight, by omega⟩

variable {chain : Chain α} {records : List (RecordKey × Bytes)}

/-- The blocks that a chain adds are found behind those that were stored. -/
theorem block_withRecords (h : Stored s stored) (hindexed : chain.Indexed)
    (hrecords : blockRecords (chain.blocks.drop stored.length) = .ok records) {top : UInt64}
    {i : Nat} {block : Block α}
    (hi : (stored ++ chain.blocks.drop stored.length)[i]? = some block) :
    ∃ w, block.toBytes = .ok w ∧
      (s.withRecords (added records top)).block? (UInt64.ofNat i) = some w := by
  -- No two heights are the same number, whether stored or added.
  have hplace (other : Block α) (hother : other ∈ chain.blocks.drop stored.length)
      (hin : i < UInt64.size) (hsame : other.index.toUInt64 = UInt64.ofNat i) :
      stored.length ≤ i ∧ chain.blocks[i]? = some other := by
    obtain ⟨j, hj⟩ := List.mem_iff_getElem?.mp hother
    rw [List.getElem?_drop] at hj
    have hjn := hindexed.lt_size (List.getElem?_eq_some_iff.mp hj).1
    rw [hindexed.height hj] at hsame
    have hvalue := congrArg UInt64.toNat hsame
    rw [UInt64.toNat_ofNat_of_lt' hjn, UInt64.toNat_ofNat_of_lt' hin] at hvalue
    rw [← hvalue]
    exact ⟨Nat.le_add_right _ _, hj⟩
  by_cases hold : i < stored.length
  · rw [List.getElem?_append_left hold] at hi
    obtain ⟨w, hbytes, hfound⟩ := h.block i block hi
    have hin := Nat.lt_of_lt_of_le hold h.length_le
    refine ⟨w, hbytes, ?_⟩
    rw [block?_withRecords_of_forall_ne hrecords, hfound]
    intro other hother hsame
    have hbehind := (hplace other hother hin hsame).1
    omega
  · have hbehind := Nat.not_lt.mp hold
    rw [List.getElem?_append_right hbehind] at hi
    have hmem : block ∈ chain.blocks.drop stored.length := List.mem_of_getElem? hi
    rw [List.getElem?_drop, Nat.add_sub_cancel' hbehind] at hi
    have hin := hindexed.lt_size (List.getElem?_eq_some_iff.mp hi).1
    obtain ⟨w, hbytes⟩ := exists_blockRecords_iff.mp ⟨records, hrecords⟩ block hmem
    refine ⟨w, hbytes, ?_⟩
    rw [← hindexed.height hi]
    refine block?_withRecords_of_mem hrecords hmem hbytes ?_
    intro other hother hsame
    rw [hindexed.height hi] at hsame
    have hthere := (hplace other hother hin hsame).2
    exact Option.some.inj (hthere.symm.trans hi)

/-- The transactions that are added are found besides those that were stored, unless an identifier
is repeated. -/
theorem transaction_withRecords (h : Stored s stored) {blocks : List (Block α)}
    (hrecords : blockRecords blocks = .ok records) {top : UInt64}
    (hnodup : (transactionIds (stored ++ blocks)).Nodup) :
    ∀ tx ∈ (stored ++ blocks).flatMap Block.transactions, ∃ w, tx.toBytes = .ok w ∧
      (s.withRecords (added records top)).transaction? tx.id = some w := by
  intro tx htx
  have hunique := hnodup
  rw [transactionIds_eq_map] at hunique
  have honly := List.inj_on_of_nodup_map hunique
  rw [transactionIds_append] at hnodup
  obtain ⟨hfront, _, hdisjoint⟩ := List.nodup_append.mp hnodup
  rw [List.flatMap_append] at htx honly
  rcases List.mem_append.mp htx with hold | hnew
  · obtain ⟨w, hbytes, hfound⟩ := h.transaction hfront tx hold
    refine ⟨w, hbytes, ?_⟩
    rw [transaction?_withRecords_of_forall_ne hrecords, hfound]
    intro other hother hsame
    rw [transactionIds_eq_map, transactionIds_eq_map] at hdisjoint
    exact hdisjoint _ (List.mem_map_of_mem hold) _ (List.mem_map_of_mem hother) hsame.symm
  · obtain ⟨w, hbytes⟩ := exists_toBytes_of_blockRecords hrecords hnew
    refine ⟨w, hbytes, transaction?_withRecords_of_mem hrecords hnew hbytes ?_⟩
    intro other hother hsame
    exact honly (List.mem_append_right _ hother) (List.mem_append_right _ hnew) hsame

/-- **The records that a chain adds** make a store hold its further blocks behind those that it
held. -/
theorem withRecords (h : Stored s stored) (hindexed : chain.Indexed)
    (hmore : stored.length < chain.size)
    (hrecords : blockRecords (chain.blocks.drop stored.length) = .ok records) :
    Stored (s.withRecords (added records (UInt64.ofNat (chain.size - 1))))
      (stored ++ chain.blocks.drop stored.length) where
  closed := h.closed
  count := by
    have hlength : (stored ++ chain.blocks.drop stored.length).length = chain.size := by
      rw [List.length_append, List.length_drop]
      exact Nat.add_sub_of_le (Nat.le_of_lt hmore)
    rw [hlength]
    exact storedCount_withRecords hindexed hrecords
  block _ _ hi := h.block_withRecords hindexed hrecords hi
  transaction hnodup := h.transaction_withRecords hrecords hnodup

end Stored

variable {s t : Store} {stored : List (Block α)} {chain : Chain α}

/-! ## Persisting -/

/-- **Persisting into a store with known blocks.**  The further blocks of a chain are all added and
counted if they have wire forms; otherwise the store stays as it was. -/
theorem Stored.persist (h : Stored s stored) (hindexed : chain.Indexed) :
    ((∀ block ∈ chain.blocks.drop stored.length, block.Fits) ∧
        ∃ t, (persist chain).on s = (.ok (chain.size - stored.length), t) ∧
          Stored t (stored ++ chain.blocks.drop stored.length)) ∨
      (¬ (∀ block ∈ chain.blocks.drop stored.length, block.Fits) ∧
        ∃ cause, (persist chain).on s = (.error cause, s)) := by
  have hfits : (∀ block ∈ chain.blocks.drop stored.length, block.Fits) ↔
      ∃ records, blockRecords (chain.blocks.drop stored.length) = .ok records := by
    simp only [exists_blockRecords_iff, Block.toBytes_eq_ok_iff, Block.exists_put_iff]
  rw [hfits]
  rcases persist_cases hindexed h.closed h.count with
    ⟨hfull, hon⟩ | ⟨_, cause, hcause, hon⟩ | ⟨hmore, records, hrecords, hon⟩
  · have hnone : chain.blocks.drop stored.length = [] := List.drop_eq_nil_of_le hfull
    rw [hnone, List.append_nil, Nat.sub_eq_zero_of_le hfull]
    exact Or.inl ⟨⟨[], rfl⟩, s, hon, h⟩
  · refine Or.inr ⟨?_, cause, hon⟩
    intro hrecords
    obtain ⟨records, hok⟩ := hrecords
    cases hcause.symm.trans hok
  · exact Or.inl ⟨⟨records, hrecords⟩, _, hon, h.withRecords hindexed hmore hrecords⟩

/-- A valid chain can be persisted into such a store. -/
theorem persist_of_stored (h : Stored s stored) (hvalid : chain.validate = .ok ()) :
    ((∀ block ∈ chain.blocks.drop stored.length, block.Fits) ∧
        ∃ t, (persist chain).on s = (.ok (chain.size - stored.length), t) ∧
          Stored t (stored ++ chain.blocks.drop stored.length)) ∨
      (¬ (∀ block ∈ chain.blocks.drop stored.length, block.Fits) ∧
        ∃ cause, (persist chain).on s = (.error cause, s)) :=
  h.persist (indexed_of_validate hvalid)

/-- What is known of a successful persist. -/
theorem stored_of_persist (h : Stored s stored) (hvalid : chain.validate = .ok ()) {count : Nat}
    (hon : (persist chain).on s = (.ok count, t)) :
    count = chain.size - stored.length ∧ Stored t (stored ++ chain.blocks.drop stored.length) := by
  rcases persist_of_stored h hvalid with ⟨_, next, hnext, hstored⟩ | ⟨_, cause, hcause⟩
  · obtain ⟨hcount, rfl⟩ := Prod.mk.inj (hnext.symm.trans hon)
    exact ⟨(Except.ok.inj hcount).symm, hstored⟩
  · cases hcause.symm.trans hon

/-! ## Loading -/

/-- The blocks of a store are read in order, from any height on. -/
theorem readBlocks_of_stored [ReadablePayload α] {front back : List (Block α)}
    (h : Stored s (front ++ back)) : readBlocks s back.length front.length = .ok back := by
  induction back generalizing front with
  | nil => rfl
  | cons block back ih =>
      obtain ⟨w, hbytes, hfound⟩ := h.block front.length block (by simp)
      have hfirst : Storage.LedgerStore.block? s (UInt64.ofNat front.length) = .ok (some w) :=
        congrArg Except.ok hfound
      have hdecoded : Block.ofBytes w = .ok block := Block.ofBytes_of_toBytes hbytes
      have hrest : readBlocks s back.length (front.length + 1) = .ok back := by
        have hmoved : Stored s ((front ++ [block]) ++ back) := by simpa using h
        have hread := ih hmoved
        rwa [List.length_append, List.length_singleton] at hread
      rw [List.length_cons, readBlocks, Except.bind_eq_ok_iff]
      refine ⟨some w, Except.mapError_eq_ok_iff.mpr hfirst, Except.bind_eq_ok_iff.mpr ?_⟩
      refine ⟨block, Except.mapError_eq_ok_iff.mpr hdecoded, Except.bind_eq_ok_iff.mpr ?_⟩
      exact ⟨back, hrest, rfl⟩

/-- **What is loaded** is a chain of the blocks that are stored, if there are some. -/
theorem load_eq_ofRecord [ReadablePayload α] (h : Stored s stored) (hsome : stored ≠ [])
    (id : String) : load id s = ofRecord id stored Registry.empty := by
  have hcount : stored.length ≠ 0 := fun hzero => hsome (List.length_eq_zero_iff.mp hzero)
  have hbehind : Stored s ([] ++ stored) := h
  have hread : readBlocks s stored.length 0 = .ok stored := readBlocks_of_stored hbehind
  unfold load
  rw [h.count]
  change (if stored.length = 0 then throw .emptyStore
    else do ofRecord id (← readBlocks s stored.length 0) Registry.empty) = _
  rw [if_neg hcount, hread]
  rfl

/-- A valid chain that is stored is loaded under any name, with the identifiers in its blocks used
and no others. -/
theorem exists_load_of_stored [ReadablePayload α] (h : Stored s chain.blocks)
    (hvalid : chain.validate = .ok ()) (name : String) :
    ∃ loaded : Chain α, load name s = .ok loaded ∧ loaded.blocks = chain.blocks ∧
      ∀ id, loaded.registry.isUsed id = true ↔ id ∈ transactionIds chain.blocks := by
  refine ⟨{ chain with
    id := name
    registry := Registry.empty.markUsed (transactionIds chain.blocks) }, ?_, rfl, ?_⟩
  · rw [load_eq_ofRecord h (List.cons_ne_nil _ _)]
    exact ofRecord_eq_ok_iff.mpr ⟨rfl, rfl, hvalid, rfl⟩
  · intro id
    simp

/-! ## What can be too large -/

/-- Behind a valid block, the previous hash of each linked block is a digest. -/
theorem length_previousHash_of_linkedFrom {index : Nat} {previous block : Block α}
    {blocks : List (Block α)} (hprevious : previous.validate = .ok ())
    (h : LinkedFrom index previous blocks) (hmem : block ∈ blocks) :
    block.previousHash.length = 64 := by
  induction blocks generalizing index previous with
  | nil => cases hmem
  | cons first rest ih =>
      obtain ⟨hlink, _, hvalid, hrest⟩ := h
      rcases List.mem_cons.mp hmem with hfirst | hlater
      · rw [hfirst, hlink]
        exact Block.length_hash_of_validate hprevious
      · exact ih hvalid hrest hlater

/-- **In a valid chain only transactions can be too large to be written**: their fields, their wire
forms or their number. -/
theorem fits_iff_of_validate (hvalid : chain.validate = .ok ()) {block : Block α}
    (hmem : block ∈ chain.blocks) :
    block.Fits ↔ block.transactions.length < Nat.pow 2 32 ∧
      ∀ tx ∈ block.transactions, tx.Fits ∧ ∀ w, tx.put = .ok w → w.length < Nat.pow 2 32 := by
  obtain ⟨i, hi⟩ := List.mem_iff_getElem?.mp hmem
  have hblock := (place_of_validate hvalid hi).2
  have hprevious : block.previousHash.length ≤ 64 := by
    obtain ⟨hgenesis, hfirst, hlinked⟩ := (validate_eq_ok_iff chain).mp hvalid
    rcases List.mem_cons.mp hmem with heq | hlater
    · rw [heq, (Block.isGenesis_iff.mp hgenesis).2]
      decide
    · exact Nat.le_of_eq (length_previousHash_of_linkedFrom hfirst hlinked hlater)
  have hhash := Nat.le_of_eq (Block.length_hash_of_validate hblock)
  have hroot := Nat.le_of_eq (Block.length_merkleRoot_of_validate hblock)
  exact Block.fits_iff_of_short hprevious hhash hroot

/-! ## Several chains in one store -/

/-- The stores that persisting valid chains makes of an empty one, with the blocks in them. -/
inductive Persisted : Store → List (Block α) → Prop where
  | empty : Persisted Store.empty []
  | persist {s t : Store} {stored : List (Block α)} {chain : Chain α} {count : Nat} :
      Persisted s stored → chain.validate = .ok () → (persist chain).on s = (.ok count, t) →
        Persisted t (stored ++ chain.blocks.drop stored.length)

theorem stored_of_persisted (h : Persisted s stored) : Stored s stored := by
  induction h with
  | empty => exact stored_empty
  | persist _ hvalid hon ih => exact (stored_of_persist ih hvalid hon).2

/-- The record at a height decodes to a block. -/
def Keeps (s : Store) (i : Nat) (block : Block α) : Prop :=
  ∃ w, s.block? (UInt64.ofNat i) = some w ∧ Block.ofBytes w = .ok block

/-- What a store keeps are the blocks that are stored. -/
theorem Stored.keeps_iff [ReadablePayload α] (h : Stored s stored) {i : Nat}
    (hi : i < stored.length) {block : Block α} : Keeps s i block ↔ stored[i]? = some block := by
  have hsome : stored[i]? = some stored[i] := List.getElem?_eq_getElem hi
  obtain ⟨w, hbytes, hfound⟩ := h.block i stored[i] hsome
  have hdecoded := Block.ofBytes_of_toBytes hbytes
  rw [hsome, Option.some.injEq]
  constructor
  · intro hkeeps
    obtain ⟨v, hv, hblock⟩ := hkeeps
    obtain rfl : w = v := Option.some.inj (hfound.symm.trans hv)
    exact Except.ok.inj (hdecoded.symm.trans hblock)
  · intro hblock
    exact ⟨w, hfound, hblock ▸ hdecoded⟩

/-- A store keeps all of some blocks exactly if it begins with them. -/
theorem Stored.keeps_all_iff [ReadablePayload α] (h : Stored s stored) {blocks : List (Block α)}
    (hlength : blocks.length ≤ stored.length) :
    (∀ (i : Nat) (block : Block α), blocks[i]? = some block → Keeps s i block) ↔
      blocks <+: stored := by
  rw [List.prefix_iff_getElem?]
  constructor
  · intro hall i hi
    exact (h.keeps_iff (Nat.lt_of_lt_of_le hi hlength)).mp (hall i _ (List.getElem?_eq_getElem hi))
  · intro hall i block hi
    obtain ⟨hin, rfl⟩ := List.getElem?_eq_some_iff.mp hi
    exact (h.keeps_iff (Nat.lt_of_lt_of_le hin hlength)).mpr (hall i hin)

/-- A list that is filled up behind another begins the whole exactly if one of the two begins the
other. -/
theorem prefix_append_drop_iff {β : Type} {front whole : List β} :
    whole <+: front ++ whole.drop front.length ↔ front <+: whole ∨ whole <+: front := by
  constructor
  · intro h
    exact List.prefix_or_prefix_of_prefix (List.prefix_append _ _) h
  · intro h
    rcases h with h | h
    · rw [List.prefix_iff_eq_append.mp h]
    · exact h.trans (List.prefix_append _ _)

/-- **When persisting stores the chain.**  A successful persist adds the blocks that are further up
than the store reaches and keeps all others as they were.  So the store holds the chain afterwards
exactly if the chain begins with the blocks that were stored, or they with it; for other stores the
outcome is the same, and the blocks of both histories are what is loaded. -/
theorem kept_iff_of_persist [ReadablePayload α] {count : Nat} (hstore : Persisted s stored)
    (hvalid : chain.validate = .ok ()) (hon : (persist chain).on s = (.ok count, t)) :
    count = chain.size - stored.length ∧
      (∀ (i : Nat) (block : Block α),
        (stored ++ chain.blocks.drop stored.length)[i]? = some block → Keeps t i block) ∧
      ((∀ (i : Nat) (block : Block α), chain.blocks[i]? = some block → Keeps t i block) ↔
        stored <+: chain.blocks ∨ chain.blocks <+: stored) ∧
      ∀ id, load id t =
        ofRecord id (stored ++ chain.blocks.drop stored.length) Registry.empty := by
  obtain ⟨hcount, hstored⟩ := stored_of_persist (stored_of_persisted hstore) hvalid hon
  have hlength : chain.blocks.length ≤ (stored ++ chain.blocks.drop stored.length).length := by
    rw [List.length_append, List.length_drop]
    omega
  have hsome : stored ++ chain.blocks.drop stored.length ≠ [] := by
    have hpos : 0 < chain.blocks.length := Nat.succ_pos _
    exact List.ne_nil_of_length_pos (by omega)
  refine ⟨hcount, (hstored.keeps_all_iff (Nat.le_refl _)).mpr (List.prefix_refl _), ?_, ?_⟩
  · rw [hstored.keeps_all_iff hlength, prefix_append_drop_iff]
  · exact load_eq_ofRecord hstored hsome

/-- A chain of two blocks that does not begin as the seedling does. -/
def rival : Chain String where
  id := "rival"
  genesis := Block.genesis ⟨1, 0⟩ [note genesisTransactionId]
  later := [(Block.new ⟨1, 0⟩ [note "b"]).stamp 1
    (Block.genesis ⟨1, 0⟩ [note genesisTransactionId]).hash]
  registry := Registry.empty.markUsed [genesisTransactionId, "b"]

theorem validate_rival : rival.validate = .ok () := by
  have hfirst : rival.genesis.validate = .ok () :=
    (Block.validate_genesis_iff _ _).mpr (holds_note genesisTransactionId (by decide))
  have hsecond : LinkedFrom 1 rival.genesis rival.later := by
    refine ⟨rfl, rfl, ?_, trivial⟩
    exact (Block.validate_stamp_iff _ _ _).mpr
      ⟨by decide, Block.digestText_ne_empty _, holds_note "b" (by decide)⟩
  exact (validate_eq_ok_iff rival).mpr ⟨by decide, hfirst, hsecond⟩

/-- A block of a valid chain that holds one note fits, unless its identifier is long. -/
theorem fits_of_note {chain : Chain String} (hvalid : chain.validate = .ok ())
    {block : Block String} (hmem : block ∈ chain.blocks) {id : String}
    (htxs : block.transactions = [note id]) (hid : (Bytes.ofText id).length < 64) : block.Fits := by
  have hnote : (note id).Fits :=
    ⟨Wire.fits_of_le (Nat.le_of_lt (Nat.lt_trans hid (by decide))),
      ⟨_, rfl, Wire.fits_of_le (n := 4) (by decide)⟩, Wire.fits_of_le (n := 1) (by decide)⟩
  rw [fits_iff_of_validate hvalid hmem, htxs]
  refine ⟨Wire.fits_of_le (n := 1) (by decide), List.forall_mem_singleton.mpr ⟨hnote, ?_⟩⟩
  intro w hw
  have hlength : w.length = 26 + (Bytes.ofText id).length + 4 + 1 :=
    Transaction.length_of_put hw rfl
  exact Wire.fits_of_le (by omega)

/-- A store into which the seedling was persisted takes the second block of the rival, and keeps
the first block of the seedling below it. -/
theorem kept_iff_of_persist_rival : ∃ s t : Store, Persisted s seedling.blocks ∧
    (persist rival).on s = (.ok 1, t) ∧
      ¬ ∀ (i : Nat) (block : Block String), rival.blocks[i]? = some block → Keeps t i block := by
  have hseedling := founded_seedling.validate_eq_ok
  have hfits : ∀ block ∈ seedling.blocks.drop 0, block.Fits :=
    List.forall_mem_singleton.mpr (fits_of_note hseedling List.mem_cons_self rfl (by decide))
  have hfits' : ∀ block ∈ rival.blocks.drop 1, block.Fits :=
    List.forall_mem_singleton.mpr
      (fits_of_note validate_rival (List.mem_cons_of_mem _ List.mem_cons_self) rfl (by decide))
  rcases persist_of_stored stored_empty hseedling with ⟨_, s, hs, _⟩ | ⟨hlarge, _⟩
  · have hstore : Persisted s seedling.blocks := .persist .empty hseedling hs
    rcases persist_of_stored (stored_of_persisted hstore) validate_rival with
      ⟨_, t, ht, _⟩ | ⟨hlarge, _⟩
    · refine ⟨s, t, hstore, ht, ?_⟩
      rw [(kept_iff_of_persist hstore validate_rival ht).2.2.1]
      intro h
      have hfirst : seedling.genesis = rival.genesis := by
        rcases h with h | h
        · exact (List.cons_prefix_cons.mp h).1
        · exact (List.cons_prefix_cons.mp h).1.symm
      have htime := congrArg Block.timestamp hfirst
      exact absurd htime (by decide)
    · exact absurd hfits' hlarge
  · exact absurd hfits hlarge

end AuthorityLedger.Chain
