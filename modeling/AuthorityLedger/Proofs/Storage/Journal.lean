import AuthorityLedger.Proofs.Storage.Run

/-!
# What a store remembers

Which puts of a run take effect can be told without a store: those that are made
while no transaction is open, and those whose transaction is committed later on
(`effective`).  A store reads as if exactly these puts had been made, in the
order of the run: the last one under a key is found, and the stored height is
the greatest height among them (`reads_eq_effective`).

The argument goes through a journal, which keeps the records that have taken
effect apart from those that still wait.  One operation keeps a store in
agreement with its journal (`Holding.step`); so does a run, and looking ahead
tells the same records as the journal collects (`Journal.done_foldl_note`).  A
write outside a transaction and a commit are one and the same change, a batch
(`Mirrors.batch`): it is there that the height record, which is kept apart from
the blocks, is shown to follow them.
-/

namespace AuthorityLedger.Storage

/-! ## The greatest height -/

instance lawfulOrderMax_uint64 : Std.LawfulOrderMax UInt64 where
  max_eq_or a b := by
    by_cases h : a ≤ b
    · exact Or.inr (if_pos h)
    · exact Or.inl (if_neg h)
  max_le_iff a b c := by
    by_cases h : a ≤ b
    · have hmax : max a b = b := if_pos h
      rw [hmax]
      exact ⟨fun hb => ⟨Std.le_trans h hb, hb⟩, And.right⟩
    · have hmax : max a b = a := if_neg h
      rw [hmax]
      exact ⟨fun ha => ⟨ha, Std.le_trans (Std.le_of_not_ge h) ha⟩, And.left⟩

section Greatest

variable {front back : List UInt64} {stored top : UInt64}

theorem max?_append (hstored : front.max? = some stored) (htop : back.max? = some top) :
    (front ++ back).max? = some (max stored top) := by
  obtain ⟨hstoredmem, hfront⟩ := List.max?_eq_some_iff.mp hstored
  obtain ⟨htopmem, hback⟩ := List.max?_eq_some_iff.mp htop
  refine List.max?_eq_some_iff.mpr ⟨?_, ?_⟩
  · rcases @Std.max_eq_or _ _ _ stored top with hmax | hmax
    · rw [hmax]
      exact List.mem_append_left _ hstoredmem
    · rw [hmax]
      exact List.mem_append_right _ htopmem
  · intro height hheight
    rcases List.mem_append.mp hheight with hfirst | hlater
    · exact Std.le_trans (hfront height hfirst) Std.left_le_max
    · exact Std.le_trans (hback height hlater) Std.right_le_max

/-- More elements do not lower the greatest one. -/
theorem exists_max?_append (back : List UInt64) (hstored : front.max? = some stored) :
    ∃ top, (front ++ back).max? = some top ∧ stored ≤ top := by
  cases htop : back.max? with
  | none =>
      rw [List.max?_eq_none_iff.mp htop, List.append_nil]
      exact ⟨stored, hstored, Std.le_refl _⟩
  | some top => exact ⟨max stored top, max?_append hstored htop, Std.left_le_max⟩

end Greatest

/-- The heights of the blocks among some records. -/
def heights (records : List (RecordKey × Bytes)) : List UInt64 :=
  records.filterMap fun record => record.1.height?

theorem heights_append (front back : List (RecordKey × Bytes)) :
    heights (front ++ back) = heights front ++ heights back :=
  List.filterMap_append

/-- The height of a block that is among some records has a last record. -/
theorem isSome_latest?_of_mem_heights {records : List (RecordKey × Bytes)} {height : UInt64}
    (h : height ∈ heights records) : (latest? (.block height) records).isSome = true := by
  obtain ⟨⟨key, value⟩, hmem, hkey⟩ := List.mem_filterMap.mp h
  have hblock : key = .block height := by
    cases key <;> simp [RecordKey.height?] at hkey
    rw [hkey]
  rw [Option.isSome_iff_ne_none, ne_eq, latest?_eq_none_iff]
  intro hnone
  exact hnone _ hmem hblock

/-- The height that a queue asks for is the greatest one in it. -/
theorem Pending.maxHeight_ofRecords (records : List (RecordKey × Bytes)) :
    (ofRecords records).maxHeight = (heights records).max? := by
  have hconcat (front : List UInt64) (height : UInt64) :
      (front ++ [height]).max? = some (Store.raise height front.max?) := by
    cases front with
    | nil => rfl
    | cons first rest =>
        rw [List.cons_append, List.max?_cons', List.max?_cons', List.foldl_append]
        rfl
  induction records using List.reverseRecOn with
  | nil => rfl
  | append_singleton records record ih =>
      rw [ofRecords_concat, heights_append]
      cases hheight : record.1.height? with
      | none => simpa [push, heights, hheight] using ih
      | some height =>
          have hlast : heights [record] = [height] := List.filterMap_cons_some hheight
          rw [hlast, hconcat, ← ih]
          simp [push, hheight]

namespace Store

/-! ## Databases -/

/-- A database holds some records, and the greatest of their heights in the record for it. -/
structure Mirrors (db : Database) (records : List (RecordKey × Bytes)) : Prop where
  fetch_eq : ∀ key, key ≠ .topHeight → db.fetch key = latest? key records
  top_eq : db.fetch .topHeight = (heights records).max?.map Wire.putUInt64

theorem mirrors_empty : Mirrors SortedMap.empty [] where
  fetch_eq _ _ := rfl
  top_eq := rfl

theorem Mirrors.height?_eq {db : Database} {records : List (RecordKey × Bytes)}
    (h : Mirrors db records) : (ofDatabase db).height? = .ok (heights records).max? := by
  have htop := h.top_eq
  cases hmax : (heights records).max? with
  | none =>
      rw [hmax] at htop
      simp only [height?, ofDatabase, Database.number?, Database.record?, htop, Option.map_none]
  | some height =>
      rw [hmax] at htop
      exact Database.number?_of_fetch htop

section Batch

variable {db : Database} {done records : List (RecordKey × Bytes)} {top : UInt64}

/-- Records that do not ask for a greater height are written alone. -/
theorem Mirrors.batch_puts (h : Mirrors db done)
    (hproper : ∀ record ∈ records, record.1 ≠ .topHeight)
    (hmax : (heights (done ++ records)).max? = (heights done).max?) :
    Mirrors (db.batch (Database.puts records)) (done ++ records) := by
  constructor
  · intro key hkey
    rw [Database.fetch_batch, latest?_append, h.fetch_eq key hkey]
  · rw [Database.fetch_batch, latest?_eq_none_iff.mpr hproper, hmax]
    exact h.top_eq

/-- Records that ask for a greater height are written with it. -/
theorem Mirrors.batch_puts_top (h : Mirrors db done)
    (hmax : (heights (done ++ records)).max? = some top) :
    Mirrors (db.batch (Database.puts records ++ [.put .topHeight (Wire.putUInt64 top)]))
      (done ++ records) := by
  have hputs : Database.puts records ++ [.put .topHeight (Wire.putUInt64 top)] =
      Database.puts (records ++ [(.topHeight, Wire.putUInt64 top)]) :=
    (Database.puts_append records [(.topHeight, Wire.putUInt64 top)]).symm
  rw [hputs]
  constructor
  · intro key hkey
    rw [Database.fetch_batch, latest?_concat, if_neg hkey, latest?_append, h.fetch_eq key hkey]
  · rw [Database.fetch_batch, latest?_concat, if_pos rfl, hmax]
    rfl

/-- **One batch.**  The records of a queue and the height that it asks for can always be written,
and then the database holds the records of the queue after those that it held. -/
theorem Mirrors.batch (h : Mirrors db done) (hproper : ∀ record ∈ records, record.1 ≠ .topHeight) :
    ∃ more, (ofDatabase db).heightWrites (Pending.ofRecords records) = .ok more ∧
      Mirrors (db.batch ((Pending.ofRecords records).writes ++ more)) (done ++ records) := by
  have hnone (hmax : (heights (done ++ records)).max? = (heights done).max?) :
      Mirrors (db.batch (Database.puts records ++ [])) (done ++ records) := by
    rw [List.append_nil]
    exact h.batch_puts hproper hmax
  rw [heightWrites, Pending.maxHeight_ofRecords, Pending.writes_ofRecords]
  cases hasked : (heights records).max? with
  | none =>
      refine ⟨[], rfl, hnone ?_⟩
      rw [heights_append, List.max?_eq_none_iff.mp hasked, List.append_nil]
  | some top =>
      have hexceeds : (ofDatabase db).exceedsHeight top =
          .ok ((heights done).max?.all fun stored => decide (stored < top)) := by
        rw [exceedsHeight, h.height?_eq]
        cases (heights done).max? <;> rfl
      simp only [hexceeds]
      cases hstored : (heights done).max? with
      | none =>
          refine ⟨_, rfl, h.batch_puts_top ?_⟩
          rw [heights_append, List.max?_eq_none_iff.mp hstored, List.nil_append, hasked]
      | some stored =>
          by_cases hlt : stored < top
          · simp only [Option.all_some, hlt, decide_true]
            refine ⟨_, rfl, h.batch_puts_top ?_⟩
            have hmax : max stored top = top := if_pos (Std.le_of_lt hlt)
            rw [heights_append, max?_append hstored hasked, hmax]
          · simp only [Option.all_some, hlt, decide_false]
            refine ⟨_, rfl, hnone ?_⟩
            have hle : max stored top ≤ stored :=
              (Std.LawfulOrderSup.max_le_iff _ _ _).mpr ⟨Std.le_refl _, Std.not_lt.mp hlt⟩
            rw [heights_append, max?_append hstored hasked, hstored,
              Std.le_antisymm hle Std.left_le_max]

end Batch

/-! ## Which puts take effect -/

/-- Whether a transaction is open after an operation, by whether one was open before. -/
def Operation.leavesOpen : Operation → Bool → Bool
  | .start, _ => true
  | .commit, _ => false
  | .rollback, _ => false
  | _, inside => inside

/-- What an operation answers, by whether a transaction is open. -/
def Operation.answer : Operation → Bool → Except Error Unit
  | .start, true => .error .transactionOpen
  | .commit, false => .error .noTransaction
  | .rollback, false => .error .noTransaction
  | _, _ => .ok ()

/-- Whether a transaction is open after some operations, by whether one was open before. -/
def isOpen (inside : Bool) (ops : List Operation) : Bool :=
  ops.foldl (fun inside op => op.leavesOpen inside) inside

/-- Whether some operations commit the transaction that is open before them. -/
def isCommitted : List Operation → Bool
  | [] => false
  | .commit :: _ => true
  | .rollback :: _ => false
  | _ :: rest => isCommitted rest

/-- The records that some operations put and that take effect, in order: those that are put outside
a transaction, and those whose transaction is committed by the operations that follow. -/
def effective : Bool → List Operation → List (RecordKey × Bytes)
  | _, [] => []
  | inside, op :: rest =>
    let later := effective (op.leavesOpen inside) rest
    match op.record? with
    | some record => if inside && !isCommitted rest then later else record :: later
    | none => later

/-! ## The journal of a run -/

/-- The records that have taken effect, and those that wait in an open transaction. -/
structure Journal where
  done : List (RecordKey × Bytes)
  waiting : Option (List (RecordKey × Bytes))

namespace Journal

/-- Enter a record that is put. -/
def enter (j : Journal) (record : RecordKey × Bytes) : Journal :=
  match j.waiting with
  | some queued => { j with waiting := some (queued ++ [record]) }
  | none => { j with done := j.done ++ [record] }

/-- Note an operation. -/
def note (j : Journal) : Operation → Journal
  | .start => { j with waiting := some (j.waiting.getD []) }
  | .putBlock height bytes => j.enter (.block height, bytes)
  | .putTransaction id bytes => j.enter (.transaction id, bytes)
  | .commit => ⟨j.done ++ j.waiting.getD [], none⟩
  | .rollback => { j with waiting := none }

theorem note_of_record {op : Operation} {record : RecordKey × Bytes}
    (h : op.record? = some record) (j : Journal) : j.note op = j.enter record := by
  cases op with
  | putBlock height bytes => cases h; rfl
  | putTransaction id bytes => cases h; rfl
  | _ => cases h

theorem isSome_waiting_note (j : Journal) (op : Operation) :
    (j.note op).waiting.isSome = op.leavesOpen j.waiting.isSome := by
  obtain ⟨done, waiting⟩ := j
  cases waiting <;> cases op <;> rfl

/-- A transaction is open in the journal if the operations say so. -/
theorem isSome_waiting_foldl_note (j : Journal) (ops : List Operation) :
    (ops.foldl note j).waiting.isSome = isOpen j.waiting.isSome ops := by
  induction ops generalizing j with
  | nil => rfl
  | cons op rest ih =>
      rw [List.foldl_cons, ih, isSome_waiting_note]
      rfl

/-- **The journal collects what looking ahead tells.**  After some operations, the records of before
are followed by those that waited, if their transaction is committed, and by those that take
effect. -/
theorem done_foldl_note (j : Journal) (ops : List Operation) :
    (ops.foldl note j).done =
      j.done ++ (if isCommitted ops then j.waiting.getD [] else []) ++
        effective j.waiting.isSome ops := by
  induction ops generalizing j with
  | nil => simp [isCommitted, effective]
  | cons op rest ih =>
      rw [List.foldl_cons, ih]
      obtain ⟨done, waiting⟩ := j
      -- only a put inside a transaction depends on what the rest does with the transaction
      cases hcommitted : isCommitted rest <;> cases waiting <;> cases op <;>
        simp [note, enter, isCommitted, effective, Operation.leavesOpen, Operation.record?,
          hcommitted]

/-- What has taken effect stays. -/
theorem prefix_done_foldl_note (j : Journal) (ops : List Operation) :
    j.done <+: (ops.foldl note j).done := by
  rw [done_foldl_note, List.append_assoc]
  exact List.prefix_append _ _

end Journal

/-! ## Stores and their journals -/

/-- A store holds what a journal says: the records that have taken effect in its database, and
those that wait in its queue. -/
structure Holding (s : Store) (j : Journal) : Prop where
  mirrors : Mirrors s.database j.done
  pending_eq : s.pending = j.waiting.map Pending.ofRecords
  proper : ∀ queued, j.waiting = some queued → ∀ record ∈ queued, record.1 ≠ .topHeight

theorem holding_empty : Holding empty ⟨[], none⟩ where
  mirrors := mirrors_empty
  pending_eq := rfl
  proper := by
    intro queued h
    cases h

theorem Operation.key_ne_of_record {op : Operation} {record : RecordKey × Bytes}
    (h : op.record? = some record) : record.1 ≠ .topHeight := by
  cases op <;> cases h <;> simp

section Holding

variable {s : Store} {j : Journal}

theorem Holding.height?_eq (h : Holding s j) : s.height? = .ok (heights j.done).max? :=
  h.mirrors.height?_eq

/-- A journal without a transaction is that of a store without one. -/
theorem Holding.waiting_eq_none (h : Holding s j) (hclosed : s.pending = none) :
    j.waiting = none := by
  rw [h.pending_eq] at hclosed
  exact Option.map_eq_none_iff.mp hclosed

theorem Holding.exists_waiting (h : Holding s j) {queue : Pending} (hopen : s.pending = some queue) :
    ∃ queued, j.waiting = some queued ∧ queue = Pending.ofRecords queued := by
  rw [h.pending_eq] at hopen
  obtain ⟨queued, hwaiting, hqueue⟩ := Option.map_eq_some_iff.mp hopen
  exact ⟨queued, hwaiting, hqueue.symm⟩

/-- **One operation.**  A store goes on holding what its journal says, and answers by whether a
transaction is open. -/
theorem Holding.step (h : Holding s j) (op : Operation) :
    s.outcome op = op.answer j.waiting.isSome ∧ Holding (s.step op) (j.note op) := by
  obtain ⟨done, waiting⟩ := j
  have htransition := transition s op
  generalize s.outcome op = answer at htransition ⊢
  generalize s.step op = next at htransition ⊢
  cases htransition with
  | opened hclosed =>
      obtain rfl := h.waiting_eq_none hclosed
      exact ⟨rfl, h.mirrors, rfl, by simp [Journal.note]⟩
  | alreadyOpen hopen =>
      obtain ⟨queued, hwaiting, _⟩ := h.exists_waiting hopen
      obtain rfl : waiting = some queued := hwaiting
      exact ⟨rfl, h⟩
  | @queued _ record queue hput hopen =>
      obtain ⟨queued, hwaiting, rfl⟩ := h.exists_waiting hopen
      obtain rfl : waiting = some queued := hwaiting
      have hanswer : op.answer true = .ok () := by cases op <;> cases hput <;> rfl
      rw [Journal.note_of_record hput]
      refine ⟨hanswer.symm, h.mirrors, ?_, ?_⟩
      · simp [Journal.enter, Pending.ofRecords_concat]
      · intro all hall entry hentry
        obtain rfl : queued ++ [record] = all := Option.some.inj hall
        rcases List.mem_append.mp hentry with hold | hnew
        · exact h.proper queued rfl entry hold
        · rw [List.mem_singleton.mp hnew]
          exact Operation.key_ne_of_record hput
  | @written _ record more hput hclosed hmore =>
      obtain rfl := h.waiting_eq_none hclosed
      have hanswer : op.answer false = .ok () := by cases op <;> cases hput <;> rfl
      have hproper : ∀ entry ∈ [record], entry.1 ≠ .topHeight :=
        List.forall_mem_singleton.mpr (Operation.key_ne_of_record hput)
      obtain ⟨same, hsame, hmirrors⟩ := h.mirrors.batch hproper
      obtain rfl : more = same := Except.ok.inj (hmore.symm.trans hsame)
      rw [Journal.note_of_record hput]
      exact ⟨hanswer.symm, hmirrors, rfl, by simp [Journal.enter]⟩
  | stranded hclosed hfault =>
      rw [h.height?_eq] at hfault
      cases hfault
  | @committed queue more hopen hmore =>
      obtain ⟨queued, hwaiting, rfl⟩ := h.exists_waiting hopen
      obtain rfl : waiting = some queued := hwaiting
      obtain ⟨same, hsame, hmirrors⟩ := h.mirrors.batch (h.proper queued rfl)
      obtain rfl : more = same := Except.ok.inj (hmore.symm.trans hsame)
      exact ⟨rfl, hmirrors, rfl, by simp [Journal.note]⟩
  | lost hopen hheight hfault =>
      rw [h.height?_eq] at hfault
      cases hfault
  | dropped hopen =>
      obtain ⟨queued, hwaiting, _⟩ := h.exists_waiting hopen
      obtain rfl : waiting = some queued := hwaiting
      exact ⟨rfl, h.mirrors, rfl, by simp [Journal.note]⟩
  | noneOpen hop hclosed =>
      obtain rfl := h.waiting_eq_none hclosed
      rcases hop with rfl | rfl
      · exact ⟨rfl, by simpa [Journal.note] using h⟩
      · exact ⟨rfl, h⟩

theorem Holding.run (h : Holding s j) (ops : List Operation) :
    Holding (s.run ops) (ops.foldl Journal.note j) := by
  induction ops generalizing s j with
  | nil => exact h
  | cons op rest ih => exact ih (h.step op).2

end Holding

/-! ## Reading -/

/-- **A store reads as the puts that take effect.**  After any operations on an empty store, at
every point of a run,

* an operation is refused exactly if it opens a second transaction or ends one that is not open, and
  nothing else is refused;
* a block or a transaction is found as it was last put by the puts that take effect, and is not
  found if none of them puts it;
* the stored height is the greatest height of those puts, so that a block is found there, and it
  never decreases. -/
theorem reads_eq_effective (ops : List Operation) :
    (∀ op, (empty.run ops).outcome op = op.answer (isOpen false ops)) ∧
      (empty.run ops).inTransaction = isOpen false ops ∧
      (∀ height, (empty.run ops).block? height = latest? (.block height) (effective false ops)) ∧
      (∀ id, (empty.run ops).transaction? id = latest? (.transaction id) (effective false ops)) ∧
      (empty.run ops).height? = .ok (heights (effective false ops)).max? ∧
      (∀ height, (empty.run ops).height? = .ok (some height) →
        ((empty.run ops).block? height).isSome = true) ∧
      ∀ more height, (empty.run ops).height? = .ok (some height) →
        ∃ later, (empty.run (ops ++ more)).height? = .ok (some later) ∧ height ≤ later := by
  have hholding (ops : List Operation) : Holding (empty.run ops) (ops.foldl Journal.note ⟨[], none⟩) :=
    holding_empty.run ops
  have hdone (ops : List Operation) :
      (ops.foldl Journal.note ⟨[], none⟩).done = effective false ops := by
    rw [Journal.done_foldl_note]
    simp
  have hopen : (ops.foldl Journal.note ⟨[], none⟩).waiting.isSome = isOpen false ops :=
    Journal.isSome_waiting_foldl_note _ ops
  have hheight : (empty.run ops).height? = .ok (heights (effective false ops)).max? := by
    rw [(hholding ops).height?_eq, hdone]
  have hblock (height : UInt64) :
      (empty.run ops).block? height = latest? (.block height) (effective false ops) := by
    rw [← hdone]
    exact (hholding ops).mirrors.fetch_eq _ (by simp)
  refine ⟨?_, ?_, hblock, ?_, hheight, ?_, ?_⟩
  · intro op
    rw [((hholding ops).step op).1, hopen]
  · rw [inTransaction, (hholding ops).pending_eq, Option.isSome_map, hopen]
  · intro id
    rw [← hdone]
    exact (hholding ops).mirrors.fetch_eq _ (by simp)
  · intro height htop
    rw [hheight, Except.ok.injEq] at htop
    rw [hblock]
    exact isSome_latest?_of_mem_heights (List.max?_eq_some_iff.mp htop).1
  · intro more height htop
    rw [hheight, Except.ok.injEq] at htop
    obtain ⟨extra, hextra⟩ : effective false ops <+: effective false (ops ++ more) := by
      rw [← hdone, ← hdone, List.foldl_append]
      exact Journal.prefix_done_foldl_note _ more
    obtain ⟨later, hlater, hle⟩ := exists_max?_append (heights extra) htop
    refine ⟨later, ?_, hle⟩
    rw [(hholding (ops ++ more)).height?_eq, hdone, ← hextra, heights_append, hlater]

/-- A block is written, a transaction is rolled back, one is committed and one is left open. -/
def bookkeeping : List Operation := [
  .putBlock 7 [1], .start, .putBlock 9 [2], .putTransaction "tx" [3], .rollback,
  .start, .putBlock 3 [4], .putTransaction "tx" [5], .commit, .start, .putBlock 11 [6]]

/-- A rolled back block leaves no trace, and an open one is seen once it is committed. -/
theorem reads_eq_effective_bookkeeping :
    (empty.run bookkeeping).outcome .start = .error .transactionOpen ∧
      (empty.run bookkeeping).block? 9 = none ∧ (empty.run bookkeeping).block? 11 = none ∧
      (empty.run bookkeeping).transaction? "tx" = some [5] ∧
      (empty.run bookkeeping).height? = .ok (some 7) ∧
      ((empty.run bookkeeping).block? 7).isSome = true ∧
      ∃ later, (empty.run (bookkeeping ++ [.commit])).height? = .ok (some later) ∧ 7 ≤ later := by
  obtain ⟨hanswer, _, hblock, htransaction, hheight, hpresent, hgrows⟩ :=
    reads_eq_effective bookkeeping
  have hmax : (heights (effective false bookkeeping)).max? = some 7 := by decide
  rw [hmax] at hheight
  refine ⟨hanswer .start, ?_, ?_, ?_, hheight, hpresent 7 hheight, hgrows [.commit] 7 hheight⟩
  · rw [hblock]
    decide
  · rw [hblock]
    decide
  · rw [htransaction]
    decide

end Store

end AuthorityLedger.Storage
