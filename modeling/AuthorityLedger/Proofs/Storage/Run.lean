import AuthorityLedger.Proofs.Storage.Records

/-!
# Runs of the store

What can be asked of a store, and what each operation can do: one `Transition`
for each kind of change and of refusal.  A write outside a transaction and a
commit are the same change, since both put some records and then the height that
these ask for (`written`, `committed`); a queue is described by the records in it
(`Pending.ofRecords`).

Two of the failures leave a trace.  The height is read after a block was written
outside a transaction (`stranded`) and after the queue was taken out of the store
(`lost`), so a height record that cannot be read is noticed too late.
-/

namespace AuthorityLedger.Storage

/-- The height that a record is for, if it is that of a block. -/
def RecordKey.height? : RecordKey → Option UInt64
  | .block height => some height
  | _ => none

namespace Pending

/-- A queue with one more record. -/
def push (queue : Pending) (record : RecordKey × Bytes) : Pending where
  writes := queue.writes ++ [.put record.1 record.2]
  maxHeight := match record.1.height? with
    | some height => some (Store.raise height queue.maxHeight)
    | none => queue.maxHeight

/-- The queue of some records. -/
def ofRecords (records : List (RecordKey × Bytes)) : Pending :=
  records.foldl push ⟨[], none⟩

theorem ofRecords_concat (records : List (RecordKey × Bytes)) (record : RecordKey × Bytes) :
    ofRecords (records ++ [record]) = (ofRecords records).push record := by
  simp [ofRecords]

theorem writes_ofRecords (records : List (RecordKey × Bytes)) :
    (ofRecords records).writes = Database.puts records := by
  induction records using List.reverseRecOn with
  | nil => rfl
  | append_singleton records record ih =>
      rw [ofRecords_concat, push, ih, Database.puts_append]
      rfl

end Pending

namespace Store

/-- What can be asked of a store that may change it. -/
inductive Operation where
  | start
  | putBlock (height : UInt64) (bytes : Bytes)
  | putTransaction (id : String) (bytes : Bytes)
  | commit
  | rollback
  deriving DecidableEq

/-- The action behind an operation. -/
def Operation.action : Operation → Action Store Error Unit
  | .start => Store.start
  | .putBlock height bytes => Store.putBlock height bytes
  | .putTransaction id bytes => Store.putTransaction id bytes
  | .commit => Store.commit
  | .rollback => Store.rollback

/-- The record that an operation puts. -/
def Operation.record? : Operation → Option (RecordKey × Bytes)
  | .putBlock height bytes => some (.block height, bytes)
  | .putTransaction id bytes => some (.transaction id, bytes)
  | _ => none

/-- What an operation answers. -/
def outcome (s : Store) (op : Operation) : Except Error Unit :=
  (op.action.on s).1

/-- The store after an operation, carried out or refused. -/
def step (s : Store) (op : Operation) : Store :=
  (op.action.on s).2

/-- The store after a list of operations. -/
def run (s : Store) (ops : List Operation) : Store :=
  ops.foldl step s

@[simp] theorem run_nil (s : Store) : s.run [] = s := rfl

@[simp] theorem run_cons (s : Store) (op : Operation) (rest : List Operation) :
    s.run (op :: rest) = (s.step op).run rest := rfl

/-! ## What one operation can do -/

/-- How an operation leads from a store to an outcome and the next store. -/
inductive Transition (s : Store) : Operation → Except Error Unit → Store → Prop
  | opened (hclosed : s.pending = none) :
      Transition s .start (.ok ()) { s with pending := some (Pending.ofRecords []) }
  | alreadyOpen {queue : Pending} (hopen : s.pending = some queue) :
      Transition s .start (.error .transactionOpen) s
  | queued {op : Operation} {record : RecordKey × Bytes} {queue : Pending}
      (hput : op.record? = some record) (hopen : s.pending = some queue) :
      Transition s op (.ok ()) { s with pending := some (queue.push record) }
  | written {op : Operation} {record : RecordKey × Bytes} {more : List Write}
      (hput : op.record? = some record) (hclosed : s.pending = none)
      (hmore : s.heightWrites (Pending.ofRecords [record]) = .ok more) :
      Transition s op (.ok ())
        (ofDatabase (s.database.batch ((Pending.ofRecords [record]).writes ++ more)))
  | stranded {height : UInt64} {bytes : Bytes} {cause : Error} (hclosed : s.pending = none)
      (hfault : s.height? = .error cause) :
      Transition s (.putBlock height bytes) (.error cause)
        (ofDatabase (s.database.store (.block height) bytes))
  | committed {queue : Pending} {more : List Write} (hopen : s.pending = some queue)
      (hmore : s.heightWrites queue = .ok more) :
      Transition s .commit (.ok ()) (ofDatabase (s.database.batch (queue.writes ++ more)))
  | lost {queue : Pending} {height : UInt64} {cause : Error} (hopen : s.pending = some queue)
      (hheight : queue.maxHeight = some height) (hfault : s.height? = .error cause) :
      Transition s .commit (.error cause) (ofDatabase s.database)
  | dropped {queue : Pending} (hopen : s.pending = some queue) :
      Transition s .rollback (.ok ()) (ofDatabase s.database)
  | noneOpen {op : Operation} (hop : op = .commit ∨ op = .rollback) (hclosed : s.pending = none) :
      Transition s op (.error .noTransaction) s

/-- Writing a block does not touch the height record. -/
theorem height?_store_block (db : Database) (height : UInt64) (bytes : Bytes) :
    (ofDatabase (db.store (.block height) bytes)).height? = (ofDatabase db).height? := by
  have hfetch : (db.store (.block height) bytes).fetch .topHeight = db.fetch .topHeight := by
    rw [Database.fetch_store, if_neg (by simp)]
  simp only [height?, ofDatabase, Database.number?, Database.record?, hfetch]

theorem on_putBlock_of_closed (db : Database) (height : UInt64) (bytes : Bytes) :
    (putBlock height bytes).on (ofDatabase db) =
      match (ofDatabase db).exceedsHeight height with
      | .error cause => (.error cause, ofDatabase (db.store (.block height) bytes))
      | .ok true =>
        (.ok (), ofDatabase ((db.store (.block height) bytes).storeNumber .topHeight height))
      | .ok false => (.ok (), ofDatabase (db.store (.block height) bytes)) := by
  have hexceeds : (ofDatabase (db.store (.block height) bytes)).exceedsHeight height =
      (ofDatabase db).exceedsHeight height := by
    simp only [exceedsHeight, height?_store_block]
  have hbump : (putBlock height bytes).on (ofDatabase db) =
      (bumpHeight height).on (ofDatabase (db.store (.block height) bytes)) := rfl
  rw [hbump]
  simp only [bumpHeight, Action.on_bind, Action.on_get, Action.on_ofExcept, hexceeds]
  cases (ofDatabase db).exceedsHeight height with
  | error cause => rfl
  | ok exceeds => cases exceeds <;> rfl

/-- Whether a height exceeds the stored one cannot be told if the height record cannot be read. -/
theorem exceedsHeight_eq_error_iff {s : Store} {height : UInt64} {cause : Error} :
    s.exceedsHeight height = .error cause ↔ s.height? = .error cause := by
  unfold exceedsHeight
  cases s.height? with
  | error other => simp [bind, Except.bind]
  | ok found => cases found <;> simp [bind, Except.bind, pure, Except.pure]

/-- The queue asks for a height record that cannot be compared with the stored one. -/
theorem heightWrites_eq_error_iff {s : Store} {queue : Pending} {cause : Error} :
    s.heightWrites queue = .error cause ↔
      (∃ height, queue.maxHeight = some height) ∧ s.height? = .error cause := by
  unfold heightWrites
  cases queue.maxHeight with
  | none => simp
  | some height =>
      simp only [Option.some.injEq, exists_eq', true_and]
      rw [← @exceedsHeight_eq_error_iff s height]
      cases s.exceedsHeight height with
      | error other => simp [bind, Except.bind]
      | ok exceeds => cases exceeds <;> simp [bind, Except.bind, pure, Except.pure]

/-- **What one operation can do.** -/
theorem transition (s : Store) (op : Operation) : Transition s op (s.outcome op) (s.step op) := by
  have hblock (height : UInt64) (bytes : Bytes) :
      (Operation.putBlock height bytes).record? = some (.block height, bytes) := rfl
  have htransaction (id : String) (bytes : Bytes) :
      (Operation.putTransaction id bytes).record? = some (.transaction id, bytes) := rfl
  obtain ⟨db, pending⟩ := s
  unfold outcome step
  cases pending with
  | none =>
      cases op with
      | start => exact .opened rfl
      | putBlock height bytes =>
          have hmore : (ofDatabase db).heightWrites (Pending.ofRecords [(.block height, bytes)]) =
              (do if ← (ofDatabase db).exceedsHeight height then
                    return [.put .topHeight (Wire.putUInt64 height)]
                  else return []) := rfl
          rw [Operation.action, ← ofDatabase, on_putBlock_of_closed]
          cases hexceeds : (ofDatabase db).exceedsHeight height with
          | error cause => exact .stranded rfl (exceedsHeight_eq_error_iff.mp hexceeds)
          | ok exceeds =>
              rw [hexceeds] at hmore
              cases exceeds with
              | true => exact .written (hblock height bytes) rfl hmore
              | false => exact .written (hblock height bytes) rfl hmore
      | putTransaction id bytes =>
          have hmore : (ofDatabase db).heightWrites (Pending.ofRecords [(.transaction id, bytes)]) =
              .ok [] := rfl
          exact .written (htransaction id bytes) rfl hmore
      | commit => exact .noneOpen (Or.inl rfl) rfl
      | rollback => exact .noneOpen (Or.inr rfl) rfl
  | some queue =>
      have hopen : (⟨db, some queue⟩ : Store).pending = some queue := rfl
      cases op with
      | start => exact .alreadyOpen hopen
      | putBlock height bytes => exact .queued (hblock height bytes) hopen
      | putTransaction id bytes => exact .queued (htransaction id bytes) hopen
      | commit =>
          rw [Operation.action, on_commit_of_open]
          cases hmore : (ofDatabase db).heightWrites queue with
          | error cause =>
              obtain ⟨⟨height, hheight⟩, hfault⟩ := heightWrites_eq_error_iff.mp hmore
              exact .lost hopen hheight hfault
          | ok more => exact .committed hopen hmore
      | rollback => exact .dropped hopen

end Store

end AuthorityLedger.Storage
