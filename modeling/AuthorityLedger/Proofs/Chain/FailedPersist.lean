import AuthorityLedger.Proofs.Chain.Records
import AuthorityLedger.Storage.FailingStore

/-!
# Persisting into a store that fails

One operation of a store fails after a number of good calls.  To persist some
missing blocks, a chain opens and commits one transaction and puts each block and
each of their transactions once (`calls`).  If there are as many good calls as
that, the blocks are written as if nothing were wrong, and if there are fewer,
the failure is reported and nothing is written (`persist_failing`).  What is
queued before the failure is rolled back, unless it is the commit that fails: then
the transaction of the store stays open.

Whatever else may go wrong on the way, a persist that fails has not changed the
database (`database_of_persist_error`).
-/

namespace AuthorityLedger

namespace Storage.FailingStore

/-- A guarded operation fails if it is its turn and no good call is left. -/
theorem on_guarded {α : Type} (operation : Operation) (action : Action Store Error α)
    (t : FailingStore) :
    (guarded operation action).on t =
      if t.operation = operation ∧ t.goodCalls = 0 then (.error .noTransaction, t)
      else ((action.on t.store).1, {
        store := (action.on t.store).2
        operation := t.operation
        goodCalls := if t.operation = operation then t.goodCalls - 1 else t.goodCalls }) := by
  unfold guarded
  rw [Action.on_bind, Action.on_get]
  by_cases hturn : t.operation = operation
  · by_cases hspent : t.goodCalls = 0
    · simp [hturn, hspent]
    · simp [hturn, hspent, Action.on_bind]
  · simp [hturn]

end Storage.FailingStore

namespace Chain

open Storage (Database FailingStore Pending RecordKey Store)

variable {α : Type} [Payload α]

/-! ## What is kept on the way -/

/-- An action in an open transaction does not change the database, and ends in an open transaction
unless it fails. -/
def KeepsDatabase {β : Type} (action : Action FailingStore Error β) : Prop :=
  ∀ t : FailingStore, t.store.inTransaction = true →
    (action.on t).2.store.database = t.store.database ∧
      ∀ b, (action.on t).1 = .ok b → (action.on t).2.store.inTransaction = true

namespace KeepsDatabase

theorem ofExcept {β : Type} (value : Except Error β) : KeepsDatabase (Action.ofExcept value) :=
  fun _ hopen => ⟨rfl, fun _ _ => hopen⟩

theorem bind {β γ : Type} {first : Action FailingStore Error β}
    {second : β → Action FailingStore Error γ} (hfirst : KeepsDatabase first)
    (hsecond : ∀ b, KeepsDatabase (second b)) : KeepsDatabase (first >>= second) := by
  intro t hopen
  rw [Action.on_bind]
  obtain ⟨hdatabase, hstill⟩ := hfirst t hopen
  cases hon : first.on t with
  | mk answer middle =>
      rw [hon] at hdatabase hstill
      cases answer with
      | error cause =>
          refine ⟨hdatabase, ?_⟩
          intro b hb
          cases hb
      | ok b =>
          obtain ⟨hlater, hlast⟩ := hsecond b middle (hstill b rfl)
          exact ⟨hlater.trans hdatabase, hlast⟩

/-- A put into an open transaction is queued, if it does not fail. -/
theorem guarded {operation : Storage.Operation} {put : Action Store Storage.Error Unit}
    (hput : ∀ s : Store, s.inTransaction = true →
      (put.on s).2.database = s.database ∧ (put.on s).2.inTransaction = true) :
    KeepsDatabase (Action.wrapping .storage (FailingStore.guarded operation put)) := by
  intro t hopen
  rw [Action.on_wrapping, FailingStore.on_guarded]
  split
  · exact ⟨rfl, fun _ _ => hopen⟩
  · obtain ⟨hdatabase, hstill⟩ := hput t.store hopen
    exact ⟨hdatabase, fun _ _ => hstill⟩

/-- To roll back leaves the database alone. -/
theorem undoing {β : Type} {action : Action FailingStore Error β} (h : KeepsDatabase action) :
    KeepsDatabase
      (Action.undoing (Storage.LedgerStore.rollback (σ := FailingStore)) action) := by
  intro t hopen
  rw [Action.on_undoing]
  obtain ⟨hdatabase, hstill⟩ := h t hopen
  cases hon : action.on t with
  | mk answer after =>
      rw [hon] at hdatabase hstill
      cases answer with
      | error cause =>
          have hrollback : ((Storage.LedgerStore.rollback (σ := FailingStore)).on
              after).2.store.database = after.store.database := by
            obtain ⟨⟨database, pending⟩, operation, good⟩ := after
            cases pending <;> rfl
          refine ⟨hrollback.trans hdatabase, ?_⟩
          intro b hb
          cases hb
      | ok b => exact ⟨hdatabase, hstill⟩

end KeepsDatabase

theorem keepsDatabase_putTransactions (txs : List (Transaction α)) :
    KeepsDatabase (putTransactions txs) := by
  induction txs with
  | nil => exact .ofExcept (.ok ())
  | cons tx txs ih =>
      refine (KeepsDatabase.ofExcept _).bind fun bytes =>
        KeepsDatabase.bind (.guarded ?_) fun _ => ih
      intro ⟨database, pending⟩ hopen
      obtain ⟨queue, rfl⟩ := Option.isSome_iff_exists.mp hopen
      exact ⟨rfl, rfl⟩

theorem keepsDatabase_putBlocks (blocks : List (Block α)) : KeepsDatabase (putBlocks blocks) := by
  induction blocks with
  | nil => exact .ofExcept (.ok ())
  | cons block blocks ih =>
      refine (KeepsDatabase.ofExcept _).bind fun bytes => KeepsDatabase.bind (.guarded ?_) fun _ =>
        (keepsDatabase_putTransactions block.transactions).bind fun _ => ih
      intro ⟨database, pending⟩ hopen
      obtain ⟨queue, rfl⟩ := Option.isSome_iff_exists.mp hopen
      exact ⟨rfl, rfl⟩

/-! ## How many calls there are -/

/-- An action calls the failing operation a number of times.  With as many good calls it leads from
one store to another, and with fewer it fails and leaves a store of some kind. -/
structure Spends {β : Type} (action : Action FailingStore Error β) (operation : Storage.Operation)
    (cost : Nat) (before : Store) (value : β) (after : Store) (failed : Store → Prop) : Prop where
  enough : ∀ good, cost ≤ good →
    action.on ⟨before, operation, good⟩ = (.ok value, ⟨after, operation, good - cost⟩)
  short : ∀ good, good < cost → ∃ left, failed left ∧
    action.on ⟨before, operation, good⟩ =
      (.error (.storage .noTransaction), ⟨left, operation, 0⟩)

namespace Spends

variable {operation : Storage.Operation} {before middle after : Store} {failed : Store → Prop}

/-- What is computed on the way is no call. -/
theorem ofExcept {β : Type} {outcome : Except Error β} {value : β} (h : outcome = .ok value) :
    Spends (Action.ofExcept outcome) operation 0 before value before failed where
  enough good _ := by
    rw [h]
    rfl
  short _ hless := absurd hless (Nat.not_lt_zero _)

/-- The calls of a sequence are those of its parts. -/
theorem bind {β γ : Type} {first : Action FailingStore Error β}
    {second : β → Action FailingStore Error γ} {cost more : Nat} {b : β} {c : γ}
    (hfirst : Spends first operation cost before b middle failed)
    (hsecond : Spends (second b) operation more middle c after failed) :
    Spends (first >>= second) operation (cost + more) before c after failed where
  enough good hgood := by
    rw [Action.on_bind, hfirst.enough good (by omega)]
    have hlater := hsecond.enough (good - cost) (by omega)
    rwa [Nat.sub_sub] at hlater
  short good hless := by
    by_cases hreached : cost ≤ good
    · obtain ⟨left, hleft, hlater⟩ := hsecond.short (good - cost) (by omega)
      refine ⟨left, hleft, ?_⟩
      rw [Action.on_bind, hfirst.enough good hreached]
      exact hlater
    · obtain ⟨left, hleft, hfailed⟩ := hfirst.short good (Nat.not_le.mp hreached)
      refine ⟨left, hleft, ?_⟩
      rw [Action.on_bind, hfailed]

/-- An operation of the store that works is one call if it is its turn. -/
theorem guarded {target : Storage.Operation} {action : Action Store Storage.Error Unit}
    (hon : action.on before = (.ok (), after)) (hleft : operation = target → failed before) :
    Spends (Action.wrapping .storage (FailingStore.guarded target action)) operation
      (if operation = target then 1 else 0) before () after failed where
  enough good hgood := by
    rw [Action.on_wrapping, FailingStore.on_guarded, hon]
    by_cases hturn : operation = target
    · simp only [hturn, if_true] at hgood ⊢
      rw [if_neg (by omega)]
      rfl
    · simp [hturn, Except.mapError]
  short good hless := by
    by_cases hturn : operation = target
    · simp only [hturn, if_true] at hless
      obtain rfl : good = 0 := by omega
      refine ⟨before, hleft hturn, ?_⟩
      rw [Action.on_wrapping, FailingStore.on_guarded, if_pos ⟨hturn, rfl⟩]
      rfl
    · simp [hturn] at hless

/-- After a failure the transaction of the store is closed again. -/
theorem undoing {β : Type} {action : Action FailingStore Error β} {cost : Nat} {value : β}
    {database : Database}
    (h : Spends action operation cost before value after fun left =>
      ∃ queue, left = ⟨database, some queue⟩)
    (hleft : 0 < cost → failed ⟨database, none⟩) :
    Spends (Action.undoing (Storage.LedgerStore.rollback (σ := FailingStore)) action) operation
      cost before value after failed where
  enough good hgood := by
    rw [Action.on_undoing, h.enough good hgood]
  short good hless := by
    obtain ⟨left, ⟨queue, rfl⟩, hon⟩ := h.short good hless
    refine ⟨⟨database, none⟩, hleft (Nat.zero_lt_of_lt hless), ?_⟩
    rw [Action.on_undoing, hon]
    rfl

end Spends

/-- How often an operation is called to put some blocks. -/
def puts (operation : Storage.Operation) (blocks : List (Block α)) : Nat :=
  match operation with
  | .putBlock => blocks.length
  | .putTransaction => (blocks.flatMap Block.transactions).length
  | _ => 0

/-- How often an operation is called to persist some blocks. -/
def calls (operation : Storage.Operation) (blocks : List (Block α)) : Nat :=
  match operation with
  | .start => 1
  | .commit => 1
  | operation => puts operation blocks

omit [Payload α] in
theorem puts_cons (operation : Storage.Operation) (block : Block α) (blocks : List (Block α)) :
    puts operation (block :: blocks) =
      (if operation = .putBlock then 1 else 0) +
        ((if operation = .putTransaction then block.transactions.length else 0) +
          puts operation blocks) := by
  cases operation <;> simp [puts, Nat.add_comm]

omit [Payload α] in
theorem calls_eq (operation : Storage.Operation) (blocks : List (Block α)) :
    calls operation blocks =
      (if operation = .start then 1 else 0) +
        (puts operation blocks + if operation = .commit then 1 else 0) := by
  cases operation <;> simp [calls, puts]

section Puts

variable {database : Database} {operation : Storage.Operation} {failed : Store → Prop}

theorem spends_putTransactions {txs : List (Transaction α)} {records : List (RecordKey × Bytes)}
    (h : transactionRecords txs = .ok records) (queue : Pending)
    (hfailed : ∀ left, failed ⟨database, some left⟩) :
    Spends (putTransactions txs) operation
      (if operation = .putTransaction then txs.length else 0) ⟨database, some queue⟩ ()
      ⟨database, some ⟨queue.writes ++ Database.puts records, queue.maxHeight⟩⟩ failed := by
  induction txs generalizing queue records with
  | nil =>
      obtain rfl := Except.ok.inj h
      have hnothing : Spends (putTransactions ([] : List (Transaction α))) operation 0
          ⟨database, some queue⟩ () ⟨database, some queue⟩ failed := .ofExcept rfl
      convert hnothing using 1
      · simp
      · simp [Database.puts]
  | cons tx txs ih =>
      obtain ⟨bytes, more, hbytes, hmore, rfl⟩ := transactionRecords_cons_eq_ok_iff.mp h
      have hput : Spends (Action.wrapping .storage
          (Storage.LedgerStore.putTransaction tx.id bytes)) operation _ ⟨database, some queue⟩ ()
            ⟨database, some ⟨queue.writes ++ [.put (.transaction tx.id) bytes],
              queue.maxHeight⟩⟩ failed :=
        .guarded rfl fun _ => hfailed queue
      have hall : Spends (putTransactions (tx :: txs)) operation _ _ () _ failed :=
        Spends.bind (.ofExcept (Except.mapError_eq_ok_iff.mpr hbytes)) (hput.bind (ih hmore _))
      convert hall using 1
      · split <;> simp [Nat.add_comm]
      · simp [Database.puts]

theorem spends_putBlocks {blocks : List (Block α)} {records : List (RecordKey × Bytes)}
    (h : blockRecords blocks = .ok records) (queue : Pending)
    (hfailed : ∀ left, failed ⟨database, some left⟩) :
    Spends (putBlocks blocks) operation (puts operation blocks) ⟨database, some queue⟩ ()
      ⟨database, some ⟨queue.writes ++ Database.puts records, raised queue.maxHeight blocks⟩⟩
      failed := by
  induction blocks generalizing queue records with
  | nil =>
      obtain rfl := Except.ok.inj h
      have hnothing : Spends (putBlocks ([] : List (Block α))) operation 0
          ⟨database, some queue⟩ () ⟨database, some queue⟩ failed := .ofExcept rfl
      convert hnothing using 1
      · cases operation <;> rfl
      · simp [Database.puts, raised]
  | cons block blocks ih =>
      obtain ⟨bytes, own, more, hbytes, hown, hmore, rfl⟩ := blockRecords_cons_eq_ok_iff.mp h
      have hput : Spends (Action.wrapping .storage
          (Storage.LedgerStore.putBlock block.index.toUInt64 bytes)) operation _
            ⟨database, some queue⟩ ()
            ⟨database, some ⟨queue.writes ++ [.put (.block block.index.toUInt64) bytes],
              some (Store.raise block.index.toUInt64 queue.maxHeight)⟩⟩ failed :=
        .guarded rfl fun _ => hfailed queue
      have hall : Spends (putBlocks (block :: blocks)) operation _ _ () _ failed :=
        Spends.bind (.ofExcept (Except.mapError_eq_ok_iff.mpr hbytes))
          (hput.bind ((spends_putTransactions hown _ hfailed).bind (ih hmore _)))
      convert hall using 1
      · rw [puts_cons, Nat.zero_add]
      · simp [Database.puts, raised]

end Puts

/-! ## Persisting -/

/-- What a store without an open transaction becomes when writing to it is broken off: if it was the
commit that failed, what was queued stays queued. -/
def brokenOff (operation : Storage.Operation) (s : Store) (queue : Pending) : Store :=
  if operation = .commit then { s with pending := some queue } else s

/-- Writing blocks that have records calls each operation of the store as often as it takes, and
leads to the store with the records. -/
theorem spends_writeFrom {chain : Chain α} {s : Store} {count : Nat}
    {records : List (RecordKey × Bytes)} (hindexed : chain.Indexed) (hclosed : s.pending = none)
    (hcount : storedCount s = .ok count) (hmore : count < chain.size)
    (hrecords : blockRecords (chain.blocks.drop count) = .ok records)
    (operation : Storage.Operation) :
    Spends (chain.writeFrom count) operation (calls operation (chain.blocks.drop count)) s
      (chain.size - count) (s.withRecords (added records (UInt64.ofNat (chain.size - 1))))
      fun left => left = brokenOff operation s
        ⟨Database.puts records, some (UInt64.ofNat (chain.size - 1))⟩ := by
  obtain ⟨database, pending⟩ := s
  obtain rfl : pending = none := hclosed
  let queue : Pending := ⟨Database.puts records, some (UInt64.ofNat (chain.size - 1))⟩
  let failed : Store → Prop := fun left => left = brokenOff operation ⟨database, none⟩ queue
  have hfailed (hother : operation ≠ .commit) : failed ⟨database, none⟩ := (if_neg hother).symm
  have hstart : Spends (Action.wrapping Error.storage
      (Storage.LedgerStore.start (σ := FailingStore))) operation _ ⟨database, none⟩ ()
        ⟨database, some ⟨[], none⟩⟩ failed :=
    .guarded rfl fun hturn => hfailed (by rw [hturn]; decide)
  have hputs : Spends (Action.undoing (Storage.LedgerStore.rollback (σ := FailingStore))
      (putBlocks (chain.blocks.drop count))) operation (puts operation (chain.blocks.drop count))
        ⟨database, some ⟨[], none⟩⟩ () ⟨database, some queue⟩ failed := by
    have hblocks : Spends (putBlocks (chain.blocks.drop count)) operation _
        ⟨database, some ⟨[], none⟩⟩ () _ fun left => ∃ queue, left = ⟨database, some queue⟩ :=
      spends_putBlocks hrecords ⟨[], none⟩ fun left => ⟨left, rfl⟩
    rw [raised_of_drop hindexed hmore] at hblocks
    refine hblocks.undoing fun hpos => hfailed ?_
    intro hturn
    rw [hturn] at hpos
    exact absurd hpos (Nat.lt_irrefl 0)
  have hcommit : Spends (Action.wrapping Error.storage
      (Storage.LedgerStore.commit (σ := FailingStore))) operation
        (if operation = .commit then 1 else 0) ⟨database, some queue⟩ () (Store.withRecords
          ⟨database, none⟩ (added records (UInt64.ofNat (chain.size - 1)))) failed := by
    refine .guarded ?_ fun hturn => (if_pos hturn).symm
    rw [Store.withRecords, added, Database.puts_append]
    exact Store.on_commit_of_exceeds (exceedsHeight_of_storedCount hindexed hmore hcount)
  rw [calls_eq]
  show Spends _ _ (_ + (_ + (_ + 0))) _ _ _ _
  exact hstart.bind (hputs.bind (hcommit.bind (.ofExcept rfl)))

/-- **A store that fails at any point.**  With as many good calls as it takes, a chain adds all
missing records and the new height.  With fewer it reports the failure, and the store is as before,
but for a commit that failed: what was queued for it stays queued. -/
theorem persist_failing {chain : Chain α} {t : FailingStore} {count : Nat}
    {records : List (RecordKey × Bytes)} (hindexed : chain.Indexed)
    (hclosed : t.store.pending = none) (hcount : storedCount t.store = .ok count)
    (hmore : count < chain.size)
    (hrecords : blockRecords (chain.blocks.drop count) = .ok records) :
    (persist chain).on t =
      if calls t.operation (chain.blocks.drop count) ≤ t.goodCalls then
        (.ok (chain.size - count), {
          store := t.store.withRecords (added records (UInt64.ofNat (chain.size - 1)))
          operation := t.operation
          goodCalls := t.goodCalls - calls t.operation (chain.blocks.drop count) })
      else
        (.error (.storage .noTransaction), {
          store := brokenOff t.operation t.store
            ⟨Database.puts records, some (UInt64.ofNat (chain.size - 1))⟩
          operation := t.operation
          goodCalls := 0 }) := by
  have hspends := spends_writeFrom hindexed hclosed hcount hmore hrecords t.operation
  have hstored : storedCount t = .ok count := hcount
  rw [on_persist, hstored]
  simp only [if_neg (Nat.not_le.mpr hmore)]
  by_cases henough : calls t.operation (chain.blocks.drop count) ≤ t.goodCalls
  · rw [if_pos henough]
    exact hspends.enough t.goodCalls henough
  · obtain ⟨left, hleft, hon⟩ := hspends.short t.goodCalls (Nat.not_le.mp henough)
    rw [if_neg henough, ← hleft]
    exact hon

/-- To open a transaction does not change the database. -/
theorem database_of_start {t after : FailingStore} {outcome : Except Error Unit}
    (h : (Action.wrapping .storage Storage.LedgerStore.start).on t = (outcome, after)) :
    after.store.database = t.store.database ∧
      (outcome = .ok () → after.store.inTransaction = true) := by
  obtain ⟨rfl, rfl⟩ := Prod.mk.inj ((Action.on_wrapping _ _ t).symm.trans h)
  obtain ⟨⟨database, pending⟩, operation, good⟩ := t
  have hon := FailingStore.on_guarded .start Store.start ⟨⟨database, pending⟩, operation, good⟩
  have hstart : (Storage.LedgerStore.start (σ := FailingStore)) =
      FailingStore.guarded .start Store.start := rfl
  rw [hstart, hon]
  split
  · exact ⟨rfl, nofun⟩
  · cases pending with
    | none => exact ⟨rfl, fun _ => rfl⟩
    | some queue => exact ⟨rfl, nofun⟩

/-- A commit that fails has not changed the database. -/
theorem database_of_failing_commit {t after : FailingStore} {cause : Error}
    (h : (Action.wrapping .storage Storage.LedgerStore.commit).on t = (.error cause, after)) :
    after.store.database = t.store.database := by
  obtain ⟨houtcome, rfl⟩ := Prod.mk.inj ((Action.on_wrapping _ _ t).symm.trans h)
  have hcommit : (Storage.LedgerStore.commit (σ := FailingStore)) =
      FailingStore.guarded .commit Store.commit := rfl
  rw [hcommit, FailingStore.on_guarded] at houtcome ⊢
  by_cases hturn : t.operation = .commit ∧ t.goodCalls = 0
  · rw [if_pos hturn]
  · rw [if_neg hturn] at houtcome ⊢
    cases hon : Store.commit.on t.store with
    | mk answer after =>
        rw [hon] at houtcome
        cases answer with
        | ok done => cases houtcome
        | error fault => exact Store.database_of_commit_error hon

/-- Writing that fails has not changed the database: its transaction is closed again, or it was the
commit that failed. -/
theorem database_of_writeFrom_error {chain : Chain α} {t after : FailingStore} {count : Nat}
    {cause : Error} (h : (chain.writeFrom count).on t = (.error cause, after)) :
    after.store.database = t.store.database := by
  rcases Action.on_bind_eq_error_iff.mp h with hstart | ⟨_, opened, hstart, hwrite⟩
  · exact (database_of_start hstart).1
  · obtain ⟨hsame, hopen⟩ := database_of_start hstart
    have hputs := (keepsDatabase_putBlocks (chain.blocks.drop count)).undoing opened (hopen rfl)
    rcases Action.on_bind_eq_error_iff.mp hwrite with hfailed | ⟨_, filled, hon, hcommit⟩
    · rw [hfailed] at hputs
      exact hputs.1.trans hsame
    · rw [hon] at hputs
      have hfilled := hputs.1.trans hsame
      rcases Action.on_bind_eq_error_iff.mp hcommit with hfailed | ⟨_, _, _, hdone⟩
      · exact (database_of_failing_commit hfailed).trans hfilled
      · cases hdone

/-- **A persist that fails has not changed the database**, whatever it was that failed. -/
theorem database_of_persist_error {chain : Chain α} {t after : FailingStore} {cause : Error}
    (h : (persist chain).on t = (.error cause, after)) :
    after.store.database = t.store.database := by
  rw [on_persist] at h
  cases hstored : storedCount t with
  | error other =>
      rw [hstored] at h
      obtain ⟨_, rfl⟩ := Prod.mk.inj h
      rfl
  | ok count =>
      simp only [hstored] at h
      by_cases hfull : chain.size ≤ count
      · rw [if_pos hfull] at h
        cases h
      · rw [if_neg hfull] at h
        exact database_of_writeFrom_error h

end Chain

end AuthorityLedger
