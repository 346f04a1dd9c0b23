import AuthorityLedger.Proofs.Storage.Run

/-!
# Failed operations of the store

An operation that is refused because a transaction is open, or because none is,
leaves the store as it was.  The other failure is a height record that cannot be
read, and it is noticed only after something has been done: a block that was put
outside a transaction stays in the database, and a commit has lost the queue.
So a failure changes the store in these two cases and in no other
(`step_eq_self_iff_of_failed`), and never if the height record can be read.
When operations fail is told without running them (`Fails`).
-/

namespace AuthorityLedger.Storage

/-- Storing a record changes a database unless it is there already. -/
theorem Database.store_eq_self_iff {db : Database} {key : RecordKey} {value : Bytes} :
    db.store key value = db ↔ db.fetch key = some value := by
  constructor
  · intro h
    have hstored := Database.fetch_store db key key value
    rwa [if_pos rfl, h] at hstored
  · exact SortedMap.insert_eq_self

namespace Store

/-- A height record that cannot be read is malformed. -/
theorem eq_serialization_of_height? {s : Store} {cause : Error} (h : s.height? = .error cause) :
    cause = .serialization := by
  unfold height? Database.number? Database.record? at h
  split at h
  · cases h
  · split at h
    · cases h
    · exact (Except.error.inj h).symm

/-- The operations that fail on a store, and why. -/
inductive Fails (s : Store) : Operation → Error → Prop
  | alreadyOpen {queue : Pending} (hopen : s.pending = some queue) :
      Fails s .start .transactionOpen
  | noneOpen {op : Operation} (hop : op = .commit ∨ op = .rollback) (hclosed : s.pending = none) :
      Fails s op .noTransaction
  | unreadableAtPut {height : UInt64} {bytes : Bytes} (hclosed : s.pending = none)
      (hfault : s.height? = .error .serialization) :
      Fails s (.putBlock height bytes) .serialization
  | unreadableAtCommit {queue : Pending} {height : UInt64} (hopen : s.pending = some queue)
      (hheight : queue.maxHeight = some height) (hfault : s.height? = .error .serialization) :
      Fails s .commit .serialization

theorem outcome_eq_error_iff {s : Store} {op : Operation} {cause : Error} :
    s.outcome op = .error cause ↔ Fails s op cause := by
  constructor
  · intro h
    have htransition := transition s op
    rw [h] at htransition
    generalize s.step op = next at htransition
    cases htransition with
    | alreadyOpen hopen => exact .alreadyOpen hopen
    | noneOpen hop hclosed => exact .noneOpen hop hclosed
    | stranded hclosed hfault =>
        obtain rfl := eq_serialization_of_height? hfault
        exact .unreadableAtPut hclosed hfault
    | lost hopen hheight hfault =>
        obtain rfl := eq_serialization_of_height? hfault
        exact .unreadableAtCommit hopen hheight hfault
  · intro h
    obtain ⟨db, pending⟩ := s
    cases h with
    | @alreadyOpen queue hopen =>
        obtain rfl : pending = some queue := hopen
        rfl
    | noneOpen hop hclosed =>
        obtain rfl : pending = none := hclosed
        rcases hop with rfl | rfl
        · rfl
        · rfl
    | @unreadableAtPut height bytes hclosed hfault =>
        obtain rfl : pending = none := hclosed
        have hexceeds : (ofDatabase db).exceedsHeight height = .error .serialization :=
          exceedsHeight_eq_error_iff.mpr hfault
        rw [outcome, Operation.action, ← ofDatabase, on_putBlock_of_closed, hexceeds]
    | @unreadableAtCommit queue height hopen hheight hfault =>
        obtain rfl : pending = some queue := hopen
        have hmore : (ofDatabase db).heightWrites queue = .error .serialization :=
          heightWrites_eq_error_iff.mpr ⟨⟨height, hheight⟩, hfault⟩
        rw [outcome, Operation.action, on_commit_of_open, hmore]

/-- **What a failure leaves behind.**  An operation fails if it opens a second transaction or ends
one that is not open, and otherwise only if the height record is malformed and has to be read.  A
failed operation leaves the store as it was, unless the height record is malformed and either a block
is put outside a transaction, which is stored all the same, or a transaction with a block in it is
committed, whose queue is lost. -/
theorem step_eq_self_iff_of_failed (s : Store) (op : Operation) (cause : Error) :
    (s.outcome op = .error cause ↔ Fails s op cause) ∧
      (s.outcome op = .error cause →
        (s.step op = s ↔
          cause ≠ .serialization ∨
            ∃ height bytes, op = .putBlock height bytes ∧ s.block? height = some bytes) ∧
        (cause = .serialization →
          (∃ height bytes, op = .putBlock height bytes ∧
              s.step op = ofDatabase (s.database.store (.block height) bytes)) ∨
            op = .commit ∧ s.step op = ofDatabase s.database)) := by
  refine ⟨outcome_eq_error_iff, fun h => ?_⟩
  have htransition := transition s op
  rw [h] at htransition
  generalize s.step op = next at htransition ⊢
  cases htransition with
  | alreadyOpen hopen => simp
  | noneOpen hop hclosed => simp
  | @stranded height bytes _ hclosed hfault =>
      obtain rfl := eq_serialization_of_height? hfault
      have hself : ofDatabase (s.database.store (.block height) bytes) = s ↔
          s.block? height = some bytes := by
        obtain ⟨db, pending⟩ := s
        obtain rfl : pending = none := hclosed
        simp [ofDatabase, block?, Database.store_eq_self_iff]
      refine ⟨?_, fun _ => Or.inl ⟨height, bytes, rfl, rfl⟩⟩
      rw [hself]
      simp
  | @lost queue height _ hopen hheight hfault =>
      obtain rfl := eq_serialization_of_height? hfault
      have hchanged : ofDatabase s.database ≠ s := by
        intro heq
        have hpending := congrArg Store.pending heq
        rw [hopen] at hpending
        cases hpending
      refine ⟨?_, fun _ => Or.inr ⟨rfl, rfl⟩⟩
      simp [hchanged]

/-- A store whose height record has lost its bytes. -/
def damaged : Store :=
  ofDatabase (SortedMap.empty.insert RecordKey.topHeight.encode [])

/-- A transaction with a block in it over the same records. -/
def damagedOpen : Store :=
  damaged.run [.start, .putBlock 1 [170]]

/-- Both failures of a damaged store change it. -/
theorem step_eq_self_iff_of_failed_damaged :
    damaged.outcome (.putBlock 1 [170]) = .error .serialization ∧
      damaged.step (.putBlock 1 [170]) ≠ damaged ∧
      damagedOpen.outcome .commit = .error .serialization ∧
      damagedOpen.step .commit ≠ damagedOpen := by
  have hput : damaged.outcome (.putBlock 1 [170]) = .error .serialization := by rfl
  have hcommit : damagedOpen.outcome .commit = .error .serialization := by rfl
  refine ⟨hput, ?_, hcommit, ?_⟩
  · intro heq
    rcases ((step_eq_self_iff_of_failed _ _ _).2 hput).1.mp heq with hcause | ⟨height, bytes, hop, hthere⟩
    · exact hcause rfl
    · cases hop
      cases hthere
  · intro heq
    rcases ((step_eq_self_iff_of_failed _ _ _).2 hcommit).1.mp heq with hcause | ⟨height, bytes, hop, _⟩
    · exact hcause rfl
    · cases hop

end Store

end AuthorityLedger.Storage
