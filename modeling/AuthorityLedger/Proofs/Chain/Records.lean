import AuthorityLedger.Chain.Persistence
import AuthorityLedger.Proofs.Block.Wire
import AuthorityLedger.Proofs.Chain.Admission
import AuthorityLedger.Proofs.Storage.Records
import Mathlib.Data.List.Induction

/-!
# The records of a chain

To persist blocks is to queue one record for each block and one for each of its
transactions, and to commit them together with the new height.  Here the queue
is computed without a store, as a list of records or the first failure to write
one (`blockRecords`), and what an action does to an open transaction is said by
the queue that it leaves (`Queues`).  So persisting becomes one of three things,
which `persist_cases` tells apart: nothing is missing, a record cannot be written
and the store stays as it was, or the missing records are added as one batch.
-/

namespace AuthorityLedger.Chain

open Storage (Database Pending RecordKey Store)

variable {α : Type} [Payload α]

/-! ## Records of blocks -/

/-- The records of some transactions. -/
def transactionRecords : List (Transaction α) → Except Error (List (RecordKey × Bytes))
  | [] => .ok []
  | tx :: rest => do
    let bytes ← tx.toBytes.mapError .transaction
    let more ← transactionRecords rest
    return (.transaction tx.id, bytes) :: more

/-- The records of some blocks and of the transactions in them. -/
def blockRecords : List (Block α) → Except Error (List (RecordKey × Bytes))
  | [] => .ok []
  | block :: rest => do
    let bytes ← block.toBytes.mapError .invalidBlock
    let own ← transactionRecords block.transactions
    let more ← blockRecords rest
    return (.block block.index.toUInt64, bytes) :: (own ++ more)

theorem transactionRecords_cons_eq_ok_iff {tx : Transaction α} {txs : List (Transaction α)}
    {records : List (RecordKey × Bytes)} :
    transactionRecords (tx :: txs) = .ok records ↔
      ∃ bytes more, tx.toBytes = .ok bytes ∧ transactionRecords txs = .ok more ∧
        (.transaction tx.id, bytes) :: more = records := by
  simp only [transactionRecords, Except.bind_eq_ok_iff, Except.mapError_eq_ok_iff]
  constructor
  · intro h
    obtain ⟨bytes, hbytes, more, hmore, hrecords⟩ := h
    exact ⟨bytes, more, hbytes, hmore, Except.ok.inj hrecords⟩
  · intro h
    obtain ⟨bytes, more, hbytes, hmore, rfl⟩ := h
    exact ⟨bytes, hbytes, more, hmore, rfl⟩

theorem blockRecords_cons_eq_ok_iff {block : Block α} {blocks : List (Block α)}
    {records : List (RecordKey × Bytes)} :
    blockRecords (block :: blocks) = .ok records ↔
      ∃ bytes own more, block.toBytes = .ok bytes ∧
        transactionRecords block.transactions = .ok own ∧ blockRecords blocks = .ok more ∧
        (.block block.index.toUInt64, bytes) :: (own ++ more) = records := by
  simp only [blockRecords, Except.bind_eq_ok_iff, Except.mapError_eq_ok_iff]
  constructor
  · intro h
    obtain ⟨bytes, hbytes, own, hown, more, hmore, hrecords⟩ := h
    exact ⟨bytes, own, more, hbytes, hown, hmore, Except.ok.inj hrecords⟩
  · intro h
    obtain ⟨bytes, own, more, hbytes, hown, hmore, rfl⟩ := h
    exact ⟨bytes, hbytes, own, hown, more, hmore, rfl⟩

/-- The records of transactions are their wire forms under their identifiers. -/
theorem mem_transactionRecords_iff {txs : List (Transaction α)}
    {records : List (RecordKey × Bytes)} (h : transactionRecords txs = .ok records)
    {entry : RecordKey × Bytes} :
    entry ∈ records ↔ ∃ tx ∈ txs, entry.1 = .transaction tx.id ∧ tx.toBytes = .ok entry.2 := by
  induction txs generalizing records with
  | nil =>
      obtain rfl : [] = records := Except.ok.inj h
      simp
  | cons tx txs ih =>
      obtain ⟨bytes, more, hbytes, hmore, rfl⟩ := transactionRecords_cons_eq_ok_iff.mp h
      rw [List.mem_cons, ih hmore]
      simp only [List.exists_mem_cons_iff, hbytes, Except.ok.injEq, Prod.ext_iff, eq_comm]

/-- The records of blocks are their wire forms under their indexes, and those of the transactions in
them. -/
theorem mem_blockRecords_iff {blocks : List (Block α)} {records : List (RecordKey × Bytes)}
    (h : blockRecords blocks = .ok records) {entry : RecordKey × Bytes} :
    entry ∈ records ↔
      (∃ block ∈ blocks, entry.1 = .block block.index.toUInt64 ∧ block.toBytes = .ok entry.2) ∨
        ∃ tx ∈ blocks.flatMap Block.transactions,
          entry.1 = .transaction tx.id ∧ tx.toBytes = .ok entry.2 := by
  induction blocks generalizing records with
  | nil =>
      obtain rfl : [] = records := Except.ok.inj h
      simp
  | cons block blocks ih =>
      obtain ⟨bytes, own, more, hbytes, hown, hmore, rfl⟩ := blockRecords_cons_eq_ok_iff.mp h
      rw [List.mem_cons, List.mem_append, mem_transactionRecords_iff hown, ih hmore]
      simp only [List.exists_mem_cons_iff, hbytes, Except.ok.injEq, Prod.ext_iff,
        List.flatMap_cons, List.mem_append, or_and_right, exists_or]
      constructor
      · intro h
        rcases h with hhere | htx | hblock | hlater
        · exact Or.inl (Or.inl ⟨hhere.1, hhere.2.symm⟩)
        · exact Or.inr (Or.inl htx)
        · exact Or.inl (Or.inr hblock)
        · exact Or.inr (Or.inr hlater)
      · intro h
        rcases h with (hhere | hblock) | htx | hlater
        · exact Or.inl ⟨hhere.1, hhere.2.symm⟩
        · exact Or.inr (Or.inr (Or.inl hblock))
        · exact Or.inr (Or.inl htx)
        · exact Or.inr (Or.inr (Or.inr hlater))

/-- The transactions of a block that has a wire form have records. -/
theorem exists_transactionRecords {txs : List (Transaction α)}
    (h : ∀ tx ∈ txs, ∃ w, tx.put = .ok w) : ∃ records, transactionRecords txs = .ok records := by
  induction txs with
  | nil => exact ⟨[], rfl⟩
  | cons tx txs ih =>
      obtain ⟨⟨w, hw⟩, hrest⟩ := List.forall_mem_cons.mp h
      obtain ⟨more, hmore⟩ := ih hrest
      have hbytes := Transaction.toBytes_eq_ok_iff.mpr hw
      exact ⟨_, transactionRecords_cons_eq_ok_iff.mpr ⟨w, more, hbytes, hmore, rfl⟩⟩

/-- **Blocks have records exactly if each of them has a wire form.** -/
theorem exists_blockRecords_iff {blocks : List (Block α)} :
    (∃ records, blockRecords blocks = .ok records) ↔
      ∀ block ∈ blocks, ∃ w, block.toBytes = .ok w := by
  induction blocks with
  | nil =>
      constructor
      · intro _ block hblock
        cases hblock
      · intro _
        exact ⟨[], rfl⟩
  | cons block blocks ih =>
      rw [List.forall_mem_cons, ← ih]
      constructor
      · intro h
        obtain ⟨_, hrecords⟩ := h
        obtain ⟨bytes, _, more, hbytes, _, hmore, _⟩ := blockRecords_cons_eq_ok_iff.mp hrecords
        exact ⟨⟨bytes, hbytes⟩, more, hmore⟩
      · intro h
        obtain ⟨⟨bytes, hbytes⟩, more, hmore⟩ := h
        have hput := Block.toBytes_eq_ok_iff.mp hbytes
        obtain ⟨own, hown⟩ := exists_transactionRecords fun tx htx => Block.exists_put_of_mem hput htx
        exact ⟨_, blockRecords_cons_eq_ok_iff.mpr ⟨bytes, own, more, hbytes, hown, hmore, rfl⟩⟩

/-- The transactions of blocks that have records have wire forms. -/
theorem exists_toBytes_of_blockRecords {blocks : List (Block α)}
    {records : List (RecordKey × Bytes)} (h : blockRecords blocks = .ok records)
    {tx : Transaction α} (htx : tx ∈ blocks.flatMap Block.transactions) :
    ∃ w, tx.toBytes = .ok w := by
  obtain ⟨block, hblock, hmem⟩ := List.mem_flatMap.mp htx
  obtain ⟨w, hbytes⟩ := exists_blockRecords_iff.mp ⟨records, h⟩ block hblock
  obtain ⟨body, hbody⟩ := Block.exists_put_of_mem (Block.toBytes_eq_ok_iff.mp hbytes) hmem
  exact ⟨body, Transaction.toBytes_eq_ok_iff.mpr hbody⟩

/-! ## Looking records up -/

/-- The records of blocks and behind them a height: what a chain adds to a store. -/
def added (records : List (RecordKey × Bytes)) (top : UInt64) : List (RecordKey × Bytes) :=
  records ++ [(.topHeight, Wire.putUInt64 top)]

section Lookup

variable {s : Store} {blocks : List (Block α)} {records : List (RecordKey × Bytes)} {top : UInt64}

/-- Each record that a chain adds is that of a block, that of a transaction, or the height. -/
theorem mem_added (h : blockRecords blocks = .ok records) {entry : RecordKey × Bytes}
    (hentry : entry ∈ added records top) :
    (∃ block ∈ blocks, entry.1 = .block block.index.toUInt64 ∧ block.toBytes = .ok entry.2) ∨
      (∃ tx ∈ blocks.flatMap Block.transactions,
        entry.1 = .transaction tx.id ∧ tx.toBytes = .ok entry.2) ∨
      entry = (.topHeight, Wire.putUInt64 top) := by
  rcases List.mem_append.mp hentry with hrecord | hlast
  · rcases (mem_blockRecords_iff h).mp hrecord with hblock | htx
    · exact Or.inl hblock
    · exact Or.inr (Or.inl htx)
  · exact Or.inr (Or.inr (List.mem_singleton.mp hlast))

/-- A record under a height is that of a block with this index. -/
theorem exists_block_of_added (h : blockRecords blocks = .ok records)
    {entry : RecordKey × Bytes} (hentry : entry ∈ added records top) {height : UInt64}
    (hkey : entry.1 = .block height) :
    ∃ block ∈ blocks, block.index.toUInt64 = height ∧ block.toBytes = .ok entry.2 := by
  rcases mem_added h hentry with ⟨block, hmem, hblock, hbytes⟩ | ⟨_, _, htx, _⟩ | hlast
  · exact ⟨block, hmem, RecordKey.block.inj (hblock.symm.trans hkey), hbytes⟩
  · cases htx.symm.trans hkey
  · rw [hlast] at hkey
    cases hkey

/-- A record under an identifier is that of a transaction with this identifier. -/
theorem exists_transaction_of_added (h : blockRecords blocks = .ok records)
    {entry : RecordKey × Bytes} (hentry : entry ∈ added records top) {id : String}
    (hkey : entry.1 = .transaction id) :
    ∃ tx ∈ blocks.flatMap Block.transactions, tx.id = id ∧ tx.toBytes = .ok entry.2 := by
  rcases mem_added h hentry with ⟨_, _, hblock, _⟩ | ⟨tx, hmem, htx, hbytes⟩ | hlast
  · cases hblock.symm.trans hkey
  · exact ⟨tx, hmem, RecordKey.transaction.inj (htx.symm.trans hkey), hbytes⟩
  · rw [hlast] at hkey
    cases hkey

/-- The height that was added is the height of the store. -/
theorem height?_withRecords (h : blockRecords blocks = .ok records) :
    (s.withRecords (added records top)).height? = .ok (some top) := by
  refine Database.number?_of_fetch (Database.fetch_batch_of_mem ?_ ?_)
  · exact List.mem_append_right _ List.mem_cons_self
  · intro entry hentry hkey
    rcases mem_added h hentry with ⟨_, _, hblock, _⟩ | ⟨_, _, htx, _⟩ | hlast
    · cases hkey.symm.trans hblock
    · cases hkey.symm.trans htx
    · rw [hlast]

/-- A block that was added is found under its index, if no other of them has that index. -/
theorem block?_withRecords_of_mem (h : blockRecords blocks = .ok records) {block : Block α}
    {w : Bytes} (hmem : block ∈ blocks) (hbytes : block.toBytes = .ok w)
    (honly : ∀ other ∈ blocks, other.index.toUInt64 = block.index.toUInt64 → other = block) :
    (s.withRecords (added records top)).block? block.index.toUInt64 = some w := by
  refine Database.fetch_batch_of_mem ?_ ?_
  · exact List.mem_append_left _ ((mem_blockRecords_iff h).mpr (Or.inl ⟨block, hmem, rfl, hbytes⟩))
  · intro entry hentry hkey
    obtain ⟨other, hother, hindex, hvalue⟩ := exists_block_of_added h hentry hkey
    rw [honly other hother hindex, hbytes] at hvalue
    exact (Except.ok.inj hvalue).symm

/-- Where no block was added, the block of the store is still found. -/
theorem block?_withRecords_of_forall_ne (h : blockRecords blocks = .ok records) {height : UInt64}
    (hnone : ∀ block ∈ blocks, block.index.toUInt64 ≠ height) :
    (s.withRecords (added records top)).block? height = s.block? height := by
  refine Database.fetch_batch_of_forall_ne ?_
  intro entry hentry hkey
  obtain ⟨block, hmem, hindex, _⟩ := exists_block_of_added h hentry hkey
  exact hnone block hmem hindex

/-- A transaction that was added is found under its identifier, if no other of them has it. -/
theorem transaction?_withRecords_of_mem (h : blockRecords blocks = .ok records)
    {tx : Transaction α} {w : Bytes} (hmem : tx ∈ blocks.flatMap Block.transactions)
    (hbytes : tx.toBytes = .ok w)
    (honly : ∀ other ∈ blocks.flatMap Block.transactions, other.id = tx.id → other = tx) :
    (s.withRecords (added records top)).transaction? tx.id = some w := by
  refine Database.fetch_batch_of_mem ?_ ?_
  · exact List.mem_append_left _ ((mem_blockRecords_iff h).mpr (Or.inr ⟨tx, hmem, rfl, hbytes⟩))
  · intro entry hentry hkey
    obtain ⟨other, hother, hid, hvalue⟩ := exists_transaction_of_added h hentry hkey
    rw [honly other hother hid, hbytes] at hvalue
    exact (Except.ok.inj hvalue).symm

/-- Where no transaction was added, the transaction of the store is still found. -/
theorem transaction?_withRecords_of_forall_ne (h : blockRecords blocks = .ok records) {id : String}
    (hnone : ∀ tx ∈ blocks.flatMap Block.transactions, tx.id ≠ id) :
    (s.withRecords (added records top)).transaction? id = s.transaction? id := by
  refine Database.fetch_batch_of_forall_ne ?_
  intro entry hentry hkey
  obtain ⟨tx, hmem, hid, _⟩ := exists_transaction_of_added h hentry hkey
  exact hnone tx hmem hid

end Lookup

/-! ## Queueing records -/

/-- The greatest of a height and the indexes of blocks. -/
def raised (top : Option UInt64) (blocks : List (Block α)) : Option UInt64 :=
  blocks.foldl (fun top block => some (Store.raise block.index.toUInt64 top)) top

/-- An action that queues: in an open transaction of a store it changes nothing but the queue, and if
it succeeds the queue is the one that the outcome tells. -/
def Queues (action : Action Store Error Unit) (db : Database) (queue : Pending)
    (outcome : Except Error Pending) : Prop :=
  ∃ left : Pending, action.on ⟨db, some queue⟩ = (outcome.map fun _ => (), ⟨db, some left⟩) ∧
    ∀ next, outcome = .ok next → left = next

namespace Queues

variable {db : Database} {queue : Pending}

/-- What is computed on the way may fail without touching the queue. -/
theorem ofExcept_bind {β : Type} {value : Except Error β} {action : β → Action Store Error Unit}
    {outcome : β → Except Error Pending}
    (h : ∀ b, value = .ok b → Queues (action b) db queue (outcome b)) :
    Queues (do action (← Action.ofExcept value)) db queue (value >>= outcome) := by
  cases value with
  | error cause =>
      refine ⟨queue, rfl, ?_⟩
      intro next hnext
      cases hnext
  | ok b => exact h b rfl

/-- An action that queues goes on from the queue that another one leaves. -/
theorem bind {first second : Action Store Error Unit} {middle : Except Error Pending}
    {outcome : Pending → Except Error Pending} (hfirst : Queues first db queue middle)
    (hsecond : ∀ next, Queues second db next (outcome next)) :
    Queues (do first; second) db queue (middle >>= outcome) := by
  obtain ⟨left, hon, hleft⟩ := hfirst
  cases middle with
  | error cause =>
      refine ⟨left, ?_, ?_⟩
      · rw [Action.on_bind, hon]
        rfl
      · intro next hnext
        cases hnext
  | ok next =>
      obtain rfl := hleft next rfl
      obtain ⟨final, hlast, hfinal⟩ := hsecond left
      refine ⟨final, ?_, hfinal⟩
      rw [Action.on_bind, hon]
      exact hlast

end Queues

/-- Putting transactions into an open store transaction queues their records. -/
theorem queues_putTransactions (db : Database) (queue : Pending) (txs : List (Transaction α)) :
    Queues (putTransactions txs) db queue ((transactionRecords txs).map fun records =>
      ⟨queue.writes ++ Database.puts records, queue.maxHeight⟩) := by
  induction txs generalizing queue with
  | nil =>
      refine ⟨queue, rfl, ?_⟩
      intro next hnext
      obtain rfl := Except.ok.inj hnext
      simp [Database.puts]
  | cons tx txs ih =>
      have hput (bytes : Bytes) :
          Queues (Action.wrapping .storage (Storage.LedgerStore.putTransaction tx.id bytes)) db queue
            (.ok ⟨queue.writes ++ [.put (.transaction tx.id) bytes], queue.maxHeight⟩) := by
        refine ⟨_, rfl, ?_⟩
        intro next hnext
        exact Except.ok.inj hnext
      have hall : Queues (putTransactions (tx :: txs)) db queue _ :=
        Queues.ofExcept_bind fun bytes _ => (hput bytes).bind ih
      convert hall using 1
      simp only [transactionRecords]
      cases Except.mapError Error.transaction tx.toBytes with
      | error cause => rfl
      | ok bytes =>
          cases transactionRecords txs with
          | error cause => rfl
          | ok more => simp [Except.map, bind, Except.bind, pure, Except.pure, Database.puts]

/-- Putting blocks into an open store transaction queues their records and raises its height. -/
theorem queues_putBlocks (db : Database) (queue : Pending) (blocks : List (Block α)) :
    Queues (putBlocks blocks) db queue ((blockRecords blocks).map fun records =>
      ⟨queue.writes ++ Database.puts records, raised queue.maxHeight blocks⟩) := by
  induction blocks generalizing queue with
  | nil =>
      refine ⟨queue, rfl, ?_⟩
      intro next hnext
      obtain rfl := Except.ok.inj hnext
      simp [Database.puts, raised]
  | cons block blocks ih =>
      have hput (bytes : Bytes) :
          Queues (Action.wrapping .storage
              (Storage.LedgerStore.putBlock block.index.toUInt64 bytes)) db queue
            (.ok ⟨queue.writes ++ [.put (.block block.index.toUInt64) bytes],
              some (Store.raise block.index.toUInt64 queue.maxHeight)⟩) := by
        refine ⟨_, rfl, ?_⟩
        intro next hnext
        exact Except.ok.inj hnext
      have hall : Queues (putBlocks (block :: blocks)) db queue _ :=
        Queues.ofExcept_bind fun bytes _ => (hput bytes).bind fun next =>
          (queues_putTransactions db next block.transactions).bind ih
      convert hall using 1
      simp only [blockRecords]
      cases Except.mapError Error.invalidBlock block.toBytes with
      | error cause => rfl
      | ok bytes =>
          cases transactionRecords block.transactions with
          | error cause => rfl
          | ok own =>
              cases blockRecords blocks with
              | error cause => rfl
              | ok more =>
                  simp [Except.map, bind, Except.bind, pure, Except.pure, Database.puts, raised]

omit [Payload α] in
/-- The height of consecutive blocks is the index of the last one. -/
theorem raised_of_consecutive {first : Nat} {blocks : List (Block α)} (hsome : blocks ≠ [])
    (hbound : first + blocks.length ≤ Nat.pow 2 63)
    (hplace : ∀ (i : Nat) (block : Block α), blocks[i]? = some block →
      block.index.toUInt64 = UInt64.ofNat (first + i)) :
    raised none blocks = some (UInt64.ofNat (first + blocks.length - 1)) := by
  induction blocks using List.reverseRecOn with
  | nil => exact absurd rfl hsome
  | append_singleton front last ih =>
      have hlast : last.index.toUInt64 = UInt64.ofNat (first + front.length) :=
        hplace front.length last (by simp)
      have hstep : raised none (front ++ [last]) =
          some (Store.raise last.index.toUInt64 (raised none front)) := by
        simp [raised]
      have hlength : first + (front ++ [last]).length - 1 = first + front.length := by
        simp
      rw [hstep, hlast, hlength]
      by_cases hnone : front = []
      · rw [hnone]
        rfl
      · rw [List.length_append, List.length_singleton] at hbound
        have hwords : Nat.pow 2 63 < UInt64.size := by decide
        have hbelow : first + front.length < UInt64.size := by omega
        have hfront := ih hnone (by omega) (by
          intro i block hi
          have hin : i < front.length := (List.getElem?_eq_some_iff.mp hi).1
          exact hplace i block (by rw [List.getElem?_append_left hin, hi]))
        have hle : UInt64.ofNat (first + front.length - 1) ≤ UInt64.ofNat (first + front.length) := by
          rw [UInt64.le_iff_toNat_le, UInt64.toNat_ofNat_of_lt' hbelow,
            UInt64.toNat_ofNat_of_lt' (by omega)]
          omega
        rw [hfront]
        exact congrArg some (if_pos hle)

/-! ## Persisting -/

/-- The height of a store from which a number of blocks is told. -/
theorem height?_of_storedCount {s : Store} {count : Nat} (h : storedCount s = .ok count) :
    (count = 0 ∧ s.height? = .ok none) ∨
      ∃ height, s.height? = .ok (some height) ∧ height.toNat + 1 = count := by
  have hport : Storage.LedgerStore.height? s = s.height? := rfl
  rw [storedCount, hport] at h
  cases hheight : s.height? with
  | error cause =>
      rw [hheight] at h
      cases h
  | ok found =>
      rw [hheight] at h
      cases found with
      | none => exact Or.inl ⟨(Except.ok.inj h).symm, rfl⟩
      | some height => exact Or.inr ⟨height, rfl, Except.ok.inj h⟩

/-- Each block of a chain has the index of its place, and there is an index for each place.  That is
all that persisting asks of a chain. -/
structure Indexed (chain : Chain α) : Prop where
  index_eq : ∀ (i : Nat) (block : Block α), chain.blocks[i]? = some block →
    block.index = Int64.ofNat i
  size_le : chain.size ≤ Nat.pow 2 63

theorem indexed_of_validate {chain : Chain α} (hvalid : chain.validate = .ok ()) :
    chain.Indexed where
  index_eq _ _ hi := (place_of_validate hvalid hi).1
  size_le := size_le_of_validate hvalid

namespace Indexed

variable {chain : Chain α}

omit [Payload α] in
/-- Each block is stored under the height of its place. -/
theorem height (h : chain.Indexed) {i : Nat} {block : Block α}
    (hi : chain.blocks[i]? = some block) : block.index.toUInt64 = UInt64.ofNat i := by
  rw [h.index_eq i block hi]
  rfl

omit [Payload α] in
/-- The places are heights. -/
theorem lt_size (h : chain.Indexed) {i : Nat} (hi : i < chain.size) : i < UInt64.size := by
  have hbound := h.size_le
  have hwords : Nat.pow 2 63 < UInt64.size := by decide
  omega

end Indexed

/-- A store to which the last height of a chain was added counts the blocks of the chain. -/
theorem storedCount_withRecords {chain : Chain α} {s : Store} {blocks : List (Block α)}
    {records : List (RecordKey × Bytes)} (hindexed : chain.Indexed)
    (hrecords : blockRecords blocks = .ok records) :
    storedCount (s.withRecords (added records (UInt64.ofNat (chain.size - 1)))) =
      .ok chain.size := by
  have hpos : 0 < chain.size := Nat.succ_pos _
  have htop : (UInt64.ofNat (chain.size - 1)).toNat = chain.size - 1 :=
    UInt64.toNat_ofNat_of_lt' (hindexed.lt_size (by omega))
  have hheight : Storage.LedgerStore.height?
      (s.withRecords (added records (UInt64.ofNat (chain.size - 1)))) =
        .ok (some (UInt64.ofNat (chain.size - 1))) := height?_withRecords hrecords
  rw [storedCount, hheight]
  simp only [htop, Nat.sub_add_cancel hpos]

omit [Payload α] in
/-- The blocks of a chain from some place on raise the height to that of the last block. -/
theorem raised_of_drop {chain : Chain α} {count : Nat} (hindexed : chain.Indexed)
    (hmore : count < chain.size) :
    raised none (chain.blocks.drop count) = some (UInt64.ofNat (chain.size - 1)) := by
  have hlength : count + (chain.blocks.drop count).length = chain.size := by
    rw [List.length_drop]
    exact Nat.add_sub_of_le (Nat.le_of_lt hmore)
  have hbound := hindexed.size_le
  have hsome : chain.blocks.drop count ≠ [] :=
    List.ne_nil_of_length_pos (by omega)
  have hraised := raised_of_consecutive hsome (hlength ▸ hbound) (by
    intro i block hi
    rw [List.getElem?_drop] at hi
    exact hindexed.height hi)
  rwa [hlength] at hraised

omit [Payload α] in
/-- The last block of a chain is higher than every block of a store that has fewer. -/
theorem exceedsHeight_of_storedCount {chain : Chain α} {s : Store} {count : Nat}
    (hindexed : chain.Indexed) (hmore : count < chain.size)
    (hcount : storedCount s = .ok count) :
    s.exceedsHeight (UInt64.ofNat (chain.size - 1)) = .ok true := by
  have htop : (UInt64.ofNat (chain.size - 1)).toNat = chain.size - 1 :=
    UInt64.toNat_ofNat_of_lt' (hindexed.lt_size (by omega))
  unfold Store.exceedsHeight
  rcases height?_of_storedCount hcount with ⟨_, hnone⟩ | ⟨height, hsome, hheight⟩
  · rw [hnone]
    rfl
  · have hlt : height < UInt64.ofNat (chain.size - 1) := by
      rw [UInt64.lt_iff_toNat_lt, htop]
      omega
    rw [hsome]
    exact congrArg Except.ok (decide_eq_true hlt)

/-- The part of persisting that writes the blocks from some place on. -/
def writeFrom {σ : Type} [Storage.LedgerStore σ] (chain : Chain α) (count : Nat) :
    Action σ Error Nat := do
  Action.wrapping .storage Storage.LedgerStore.start
  Action.undoing (Storage.LedgerStore.rollback (σ := σ)) (putBlocks (chain.blocks.drop count))
  Action.wrapping .storage Storage.LedgerStore.commit
  return chain.size - count

/-- Persisting writes if it can tell what is missing and finds something missing. -/
theorem on_persist {σ : Type} [Storage.LedgerStore σ] (chain : Chain α) (store : σ) :
    (persist chain).on store =
      match storedCount store with
      | .error cause => (.error cause, store)
      | .ok count =>
          if chain.size ≤ count then (.ok 0, store) else (chain.writeFrom count).on store := by
  unfold persist
  rw [Action.on_bind, Action.on_get]
  simp only [Action.on_bind, Action.on_ofExcept]
  cases storedCount store with
  | error cause => rfl
  | ok count =>
      simp only
      by_cases hfull : chain.size ≤ count
      · rw [if_pos hfull, if_pos hfull]
        rfl
      · rw [if_neg hfull, if_neg hfull]
        rfl

/-- **What persisting can do.**  A chain finds nothing missing in a store without an open
transaction, or it cannot write a missing record and leaves the store alone, or it adds the missing
records and the new height. -/
theorem persist_cases {chain : Chain α} {s : Store} {count : Nat} (hindexed : chain.Indexed)
    (hclosed : s.pending = none) (hcount : storedCount s = .ok count) :
    (chain.size ≤ count ∧ (persist chain).on s = (.ok 0, s)) ∨
      (count < chain.size ∧ ∃ cause, blockRecords (chain.blocks.drop count) = .error cause ∧
        (persist chain).on s = (.error cause, s)) ∨
      (count < chain.size ∧ ∃ records, blockRecords (chain.blocks.drop count) = .ok records ∧
        (persist chain).on s = (.ok (chain.size - count),
          s.withRecords (added records (UInt64.ofNat (chain.size - 1))))) := by
  obtain ⟨db, pending⟩ := s
  obtain rfl : pending = none := hclosed
  rw [on_persist, hcount]
  by_cases hfull : chain.size ≤ count
  · exact Or.inl ⟨hfull, if_pos hfull⟩
  · have hmore : count < chain.size := Nat.not_le.mp hfull
    obtain ⟨left, hon, hleft⟩ := queues_putBlocks db ⟨[], none⟩ (chain.blocks.drop count)
    have hstart : (chain.writeFrom count).on (⟨db, none⟩ : Store) =
        (do Action.undoing (Storage.LedgerStore.rollback (σ := Store))
              (putBlocks (chain.blocks.drop count))
            Action.wrapping .storage Storage.LedgerStore.commit
            return chain.size - count : Action Store Error Nat).on ⟨db, some ⟨[], none⟩⟩ :=
      Action.on_bind _ _ _
    simp only [if_neg hfull]
    rw [hstart, Action.on_bind, Action.on_undoing, hon]
    cases hrecords : blockRecords (chain.blocks.drop count) with
    | error cause => exact Or.inr (Or.inl ⟨hmore, cause, rfl, rfl⟩)
    | ok records =>
        refine Or.inr (Or.inr ⟨hmore, records, rfl, ?_⟩)
        have hraised := raised_of_drop hindexed hmore
        have hexceeds := exceedsHeight_of_storedCount hindexed hmore hcount
        have hcommit : (Storage.LedgerStore.commit (σ := Store)).on
            ⟨db, some ⟨[] ++ Database.puts records, some (UInt64.ofNat (chain.size - 1))⟩⟩ =
              (.ok (), Store.withRecords ⟨db, none⟩
                (added records (UInt64.ofNat (chain.size - 1)))) := by
          rw [Store.withRecords, added, Database.puts_append]
          exact Store.on_commit_of_exceeds hexceeds
        rw [hleft _ (congrArg _ hrecords), hraised]
        simp only [Except.map, Action.on_bind, Action.on_wrapping, hcommit]
        rfl

end AuthorityLedger.Chain
