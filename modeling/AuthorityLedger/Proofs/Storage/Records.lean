import AuthorityLedger.Proofs.Lookup
import AuthorityLedger.Proofs.Wire
import AuthorityLedger.Storage.Store
import Mathlib.Data.List.Induction

/-!
# Records under ledger keys

Different ledger keys have different bytes (`RecordKey.encode_inj`), so the
records of a database do not get into each other's way.  A batch that only puts
records is described by what is found afterwards (`fetch_batch`), which is the
last record under the key.  In particular, a key that is not among the records
keeps its value (`fetch_batch_of_forall_ne`), and a key whose records all say the
same has that value (`fetch_batch_of_mem`).
-/

namespace AuthorityLedger.Storage

/-! ## Keys -/

/-- Numbers that fit a word are told apart by its bytes, whichever of them comes first. -/
theorem ofNatBE_inj {width m n : Nat} (hm : m < Nat.pow 256 width) (hn : n < Nat.pow 256 width)
    (h : Bytes.ofNatBE width m = Bytes.ofNatBE width n) : m = n := by
  have hword : Bytes.ofNatLE width m = Bytes.ofNatLE width n := List.reverse_injective h
  have hvalue := congrArg Bytes.toNatLE hword
  rwa [Bytes.toNatLE_ofNatLE, Bytes.toNatLE_ofNatLE, Nat.mod_eq_of_lt hm, Nat.mod_eq_of_lt hn]
    at hvalue

namespace RecordKey

/-- The first byte of a key, which tells its kind. -/
def tag : RecordKey → UInt8
  | .block _ => 98
  | .transaction _ => 116
  | .topHeight => 99

theorem head?_encode (key : RecordKey) : key.encode.head? = some key.tag := by
  cases key <;> rfl

/-- **Different keys have different bytes.** -/
theorem encode_inj {a b : RecordKey} : a.encode = b.encode ↔ a = b := by
  constructor
  · intro h
    have htag : a.tag = b.tag := by
      have hhead := congrArg List.head? h
      rw [head?_encode, head?_encode] at hhead
      exact Option.some.inj hhead
    cases a with
    | block m =>
        cases b with
        | block n =>
            have hword := ofNatBE_inj m.toNat_lt n.toNat_lt (List.append_cancel_left h)
            rw [UInt64.toNat_inj.mp hword]
        | transaction id => simp [tag] at htag
        | topHeight => simp [tag] at htag
    | transaction id =>
        cases b with
        | block n => simp [tag] at htag
        | transaction other =>
            have htext := Bytes.ofText_inj.mp (List.append_cancel_left h)
            rw [htext]
        | topHeight => simp [tag] at htag
    | topHeight =>
        cases b with
        | block n => simp [tag] at htag
        | transaction id => simp [tag] at htag
        | topHeight => rfl
  · intro h
    rw [h]

end RecordKey

/-! ## The last record under a key -/

/-- The value of the last record under a key. -/
def latest? (key : RecordKey) (records : List (RecordKey × Bytes)) : Option Bytes :=
  (records.reverse.find? fun record => record.1 = key).map (·.2)

theorem latest?_concat (key : RecordKey) (records : List (RecordKey × Bytes))
    (record : RecordKey × Bytes) :
    latest? key (records ++ [record]) =
      if key = record.1 then some record.2 else latest? key records := by
  unfold latest?
  by_cases h : key = record.1
  · simp [h]
  · simp [h, Ne.symm h]

theorem latest?_append (key : RecordKey) (front back : List (RecordKey × Bytes)) :
    latest? key (front ++ back) = (latest? key back).or (latest? key front) := by
  induction back using List.reverseRecOn with
  | nil => simp [latest?]
  | append_singleton back record ih =>
      rw [← List.append_assoc, latest?_concat, latest?_concat, ih]
      by_cases h : key = record.1
      · simp [h]
      · simp [h]

theorem latest?_eq_none_iff {key : RecordKey} {records : List (RecordKey × Bytes)} :
    latest? key records = none ↔ ∀ record ∈ records, record.1 ≠ key := by
  simp [latest?]

/-- The last record under a key is one of them. -/
theorem mem_of_latest? {key : RecordKey} {value : Bytes} {records : List (RecordKey × Bytes)}
    (h : latest? key records = some value) : (key, value) ∈ records := by
  obtain ⟨record, hfound, rfl⟩ := Option.map_eq_some_iff.mp h
  have hkey : record.1 = key := by simpa using List.find?_some hfound
  rw [← hkey]
  exact List.mem_reverse.mp (List.mem_of_find?_eq_some hfound)

namespace Database

/-! ## Batches of records -/

/-- Looking up after storing one record. -/
theorem fetch_store (db : Database) (key other : RecordKey) (value : Bytes) :
    (db.store key value).fetch other = if other = key then some value else db.fetch other := by
  have h := SortedMap.get?_insert_eq db key.encode other.encode value
  simp only [RecordKey.encode_inj] at h
  exact h

/-- The writes that put records, in order. -/
def puts (records : List (RecordKey × Bytes)) : List Write :=
  records.map fun entry => .put entry.1 entry.2

theorem puts_append (front back : List (RecordKey × Bytes)) :
    puts (front ++ back) = puts front ++ puts back :=
  List.map_append

/-- What is found after a batch of records is the last one of them, or else what was there. -/
theorem fetch_batch (db : Database) (records : List (RecordKey × Bytes)) (key : RecordKey) :
    (db.batch (puts records)).fetch key = (latest? key records).or (db.fetch key) := by
  induction records using List.reverseRecOn with
  | nil => rfl
  | append_singleton records record ih =>
      have hlast : db.batch (puts (records ++ [record])) =
          (db.batch (puts records)).store record.1 record.2 := by
        rw [puts_append]
        exact List.foldl_append
      rw [hlast, fetch_store, latest?_concat, ih]
      by_cases h : key = record.1
      · simp [h]
      · simp [h]

/-- A key that no record has keeps its value. -/
theorem fetch_batch_of_forall_ne {db : Database} {records : List (RecordKey × Bytes)}
    {key : RecordKey} (h : ∀ entry ∈ records, entry.1 ≠ key) :
    (db.batch (puts records)).fetch key = db.fetch key := by
  rw [fetch_batch, latest?_eq_none_iff.mpr h, Option.none_or]

/-- A key whose records all say the same has the value they say. -/
theorem fetch_batch_of_mem {db : Database} {records : List (RecordKey × Bytes)} {key : RecordKey}
    {value : Bytes} (hmem : (key, value) ∈ records)
    (hsame : ∀ entry ∈ records, entry.1 = key → entry.2 = value) :
    (db.batch (puts records)).fetch key = some value := by
  have hlatest : latest? key records = some value := by
    cases hlast : latest? key records with
    | none => exact absurd rfl (latest?_eq_none_iff.mp hlast _ hmem)
    | some last => exact congrArg some (hsame _ (mem_of_latest? hlast) rfl)
  rw [fetch_batch, hlatest, Option.some_or]

/-! ## Numbers -/

/-- A number is read from its record. -/
theorem number?_of_fetch {db : Database} {key : RecordKey} {value : UInt64}
    (h : db.fetch key = some (Wire.putUInt64 value)) : db.number? key = .ok (some value) := by
  have hread : Wire.Reader.uint64.on (Wire.putUInt64 value) = (.ok value, []) :=
    Wire.Reader.on_uint64.mpr (List.append_nil _).symm
  have hfront : Wire.Reader.uint64.front? (Wire.putUInt64 value) = some value := by
    unfold Wire.Reader.front?
    rw [hread]
    rfl
  simp [number?, record?, h, hfront]

end Database

/-- A store after a batch of records. -/
def Store.withRecords (s : Store) (records : List (RecordKey × Bytes)) : Store :=
  { s with database := s.database.batch (Database.puts records) }

/-- Committing takes the queue away, and then writes it if the stored height can be read. -/
theorem Store.on_commit_of_open (db : Database) (queue : Pending) :
    Store.commit.on ⟨db, some queue⟩ =
      match (Store.ofDatabase db).heightWrites queue with
      | .error cause => (.error cause, Store.ofDatabase db)
      | .ok more => (.ok (), Store.ofDatabase (db.batch (queue.writes ++ more))) := by
  have htaken : Store.takePending.on ⟨db, some queue⟩ = (.ok queue, Store.ofDatabase db) := rfl
  simp only [Store.commit, Action.on_bind, htaken, Action.on_get, Action.on_ofExcept]
  cases (Store.ofDatabase db).heightWrites queue <;> rfl

/-- A commit that fails has not changed the database. -/
theorem Store.database_of_commit_error {s after : Store} {cause : Error}
    (h : commit.on s = (.error cause, after)) : after.database = s.database := by
  obtain ⟨db, pending⟩ := s
  cases pending with
  | none =>
      obtain ⟨_, rfl⟩ := Prod.mk.inj h
      rfl
  | some queue =>
      rw [on_commit_of_open] at h
      cases hmore : (ofDatabase db).heightWrites queue with
      | error other =>
          rw [hmore] at h
          obtain ⟨_, rfl⟩ := Prod.mk.inj h
          rfl
      | ok more =>
          rw [hmore] at h
          cases h

/-- Committing a greater height applies the queued writes and then stores the height. -/
theorem Store.on_commit_of_exceeds {db : Database} {writes : List Write} {height : UInt64}
    (h : (ofDatabase db).exceedsHeight height = .ok true) :
    commit.on ⟨db, some ⟨writes, some height⟩⟩ =
      (.ok (), ofDatabase (db.batch (writes ++ [.put .topHeight (Wire.putUInt64 height)]))) := by
  have hmore : (ofDatabase db).heightWrites ⟨writes, some height⟩ =
      .ok [.put .topHeight (Wire.putUInt64 height)] := by
    simp only [heightWrites, h]
    rfl
  rw [on_commit_of_open, hmore]

end AuthorityLedger.Storage
