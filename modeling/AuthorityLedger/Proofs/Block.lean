import AuthorityLedger.Block
import AuthorityLedger.Proofs.Merkle

/-!
# When a transaction or a block is valid

`validate` reports the first fault; its success means that no fault applies at
all.  For a block that has just been stamped the header faults cannot arise,
so only its place and its transactions decide (`Block.validate_stamp_iff`).

Validity is not the same as being unchanged: some blocks stay valid when their
last transaction is repeated (`Block.validate_repeatLast`).
-/

namespace AuthorityLedger

namespace Transaction

variable {α : Type} [Payload α]

/-- Signing changes nothing but the signature, which is never empty. -/
theorem eq_of_sign {tx signed : Transaction α} {key : Key} (h : tx.sign key = .ok signed) :
    signed = { tx with signature := signed.signature } ∧ signed.isSigned = true := by
  unfold sign at h
  by_cases hsigned : tx.isSigned = true
  · simp [hsigned] at h
  · rw [if_neg hsigned] at h
    cases hkey : key.sign (Bytes.ofText tx.canonical) with
    | error cause => simp [hkey] at h
    | ok signature =>
        simp only [hkey, Except.ok.injEq] at h
        subst h
        refine ⟨rfl, ?_⟩
        have hlength := Key.length_of_sign hkey
        cases signature with
        | nil => cases hlength
        | cons b rest => rfl

/-- A key with a private half signs whatever is not signed yet. -/
theorem exists_sign {tx : Transaction α} {key : Key} (hkey : key.canSign = true)
    (hnew : tx.isSigned = false) : ∃ signed, tx.sign key = .ok signed := by
  obtain ⟨seed, hseed⟩ := Option.isSome_iff_exists.mp hkey
  unfold sign Key.sign
  rw [hnew, hseed]
  exact ⟨_, rfl⟩

/-- A transaction is valid if it has an identifier, a payload, a signature and a priority in
range. -/
theorem validate_eq_ok_iff (tx : Transaction α) :
    tx.validate = .ok () ↔
      tx.id ≠ "" ∧ Payload.canonical tx.payload ≠ "" ∧ tx.isSigned = true ∧
        minPriority ≤ tx.priority ∧ tx.priority ≤ maxPriority := by
  unfold validate
  by_cases hid : tx.id = ""
  · simp [hid]
  · by_cases hpayload : Payload.canonical tx.payload = ""
    · simp [hid, hpayload]
    · by_cases hsigned : tx.isSigned = true
      · by_cases hrange : tx.priority < minPriority ∨ maxPriority < tx.priority
        · simp only [hid, hpayload, hsigned, hrange]
          simp only [Bool.not_true, Bool.false_eq_true, if_true, if_false, reduceCtorEq, false_iff]
          rintro ⟨_, _, _, hlow, hhigh⟩
          rcases hrange with h | h
          · exact absurd h (Int16.not_lt.mpr hlow)
          · exact absurd h (Int16.not_lt.mpr hhigh)
        · obtain ⟨hlow, hhigh⟩ := not_or.mp hrange
          simp [hid, hpayload, hsigned, hrange, Int16.not_lt.mp hlow, Int16.not_lt.mp hhigh]
      · simp [hid, hpayload, hsigned]

end Transaction

namespace Block

variable {α : Type} [Payload α]

theorem validateTransactions_eq_ok_iff (index : Int64) (position : Nat)
    (transactions : List (Transaction α)) :
    validateTransactions index position transactions = .ok () ↔
      ∀ tx ∈ transactions, tx.validate = .ok () := by
  induction transactions generalizing position with
  | nil => simp [validateTransactions]
  | cons tx rest ih =>
      unfold validateTransactions
      cases hvalid : tx.validate with
      | ok => simp [hvalid, ih]
      | error cause => simp [hvalid]

/-- The transaction that is blamed is the first one that is refused by itself. -/
theorem validateTransactions_eq_error_iff (index : Int64) (position : Nat)
    (transactions : List (Transaction α)) (cause : Error) :
    validateTransactions index position transactions = .error cause ↔
      ∃ front tx back reason, transactions = front ++ tx :: back ∧
        (∀ earlier ∈ front, earlier.validate = .ok ()) ∧ tx.validate = .error reason ∧
          cause = .invalidTransaction index (position + front.length) reason := by
  induction transactions generalizing position with
  | nil => simp [validateTransactions]
  | cons tx rest ih =>
      unfold validateTransactions
      cases hvalid : tx.validate with
      | ok =>
          rw [ih]
          constructor
          · rintro ⟨front, bad, back, reason, rfl, hearlier, hbad, rfl⟩
            refine ⟨tx :: front, bad, back, reason, rfl, ?_, hbad, ?_⟩
            · exact List.forall_mem_cons.mpr ⟨hvalid, hearlier⟩
            · rw [List.length_cons, Nat.add_assoc, Nat.add_comm 1]
          · rintro ⟨front, bad, back, reason, hsplit, hearlier, hbad, rfl⟩
            cases front with
            | nil =>
                obtain ⟨rfl, _⟩ := List.cons_eq_cons.mp hsplit
                rw [hvalid] at hbad
                cases hbad
            | cons first front =>
                obtain ⟨_, rfl⟩ := List.cons_eq_cons.mp hsplit
                refine ⟨front, bad, back, reason, rfl, ?_, hbad, ?_⟩
                · exact (List.forall_mem_cons.mp hearlier).2
                · rw [List.length_cons, Nat.add_assoc, Nat.add_comm 1]
      | error reason =>
          constructor
          · intro h
            obtain rfl := Except.error.inj h
            exact ⟨[], tx, rest, reason, rfl, by simp, hvalid, rfl⟩
          · rintro ⟨front, bad, back, reason', hsplit, hearlier, hbad, rfl⟩
            cases front with
            | nil =>
                obtain ⟨rfl, _⟩ := List.cons_eq_cons.mp hsplit
                obtain rfl := Except.error.inj (hvalid.symm.trans hbad)
                rfl
            | cons first front =>
                obtain ⟨rfl, _⟩ := List.cons_eq_cons.mp hsplit
                rw [(List.forall_mem_cons.mp hearlier).1] at hvalid
                cases hvalid

omit [Payload α] in
theorem isGenesis_iff {block : Block α} :
    block.isGenesis = true ↔ block.index = 0 ∧ block.previousHash = genesisPreviousHash := by
  simp [isGenesis]

/-- What is asked of the transactions of a block: there are some and each is valid. -/
def Holds (transactions : List (Transaction α)) : Prop :=
  transactions ≠ [] ∧ ∀ tx ∈ transactions, tx.validate = .ok ()

/-- A block is valid if its header is complete, its hash and its root are the recomputed ones, and
it holds transactions that are all valid. -/
theorem validate_eq_ok_iff (block : Block α) :
    block.validate = .ok () ↔
      0 ≤ block.index ∧ block.hash ≠ "" ∧ block.previousHash ≠ "" ∧
        block.computedHash = block.hash ∧ block.computedRoot = block.merkleRoot ∧
        Holds block.transactions := by
  unfold validate Holds
  by_cases hindex : block.index < 0
  · simp only [hindex, if_true, reduceCtorEq, false_iff]
    exact fun h => absurd hindex (Int64.not_lt.mpr h.1)
  · have hzero : 0 ≤ block.index := Int64.not_lt.mp hindex
    by_cases hhash : block.hash = ""
    · simp [hindex, hhash]
    · by_cases hprevious : block.previousHash = ""
      · simp [hindex, hhash, hprevious]
      · by_cases hnone : block.transactions = []
        · simp [hindex, hhash, hprevious, hnone]
        · unfold verifyIntegrity
          by_cases hstored : block.computedHash = block.hash
          · by_cases hroot : block.computedRoot = block.merkleRoot
            · simp [hindex, hzero, hhash, hprevious, hnone, hstored, hroot,
                validateTransactions_eq_ok_iff]
            · simp [hindex, hhash, hprevious, hnone, hstored, hroot]
          · simp [hindex, hhash, hprevious, hnone, hstored]

/-- A digest is no empty text. -/
theorem digestText_ne_empty (message : Bytes) : digestText message ≠ "" := by
  intro h
  have hlength := length_digestText message
  rw [h] at hlength
  cases hlength

@[simp] theorem computedHash_rehash (block : Block α) :
    block.rehash.computedHash = block.rehash.hash := rfl

@[simp] theorem computedRoot_rehash (block : Block α) :
    block.rehash.computedRoot = block.rehash.merkleRoot := rfl

/-- The hash of a valid block has the length of a digest. -/
theorem length_hash_of_validate {block : Block α} (h : block.validate = .ok ()) :
    block.hash.length = 64 := by
  obtain ⟨_, _, _, hstored, _, _⟩ := (validate_eq_ok_iff block).mp h
  rw [← hstored]
  exact length_digestText _

/-- A block that is valid has the hash and the root that it would be given. -/
theorem rehash_eq_self {block : Block α} (h : block.validate = .ok ()) : block.rehash = block := by
  obtain ⟨_, _, _, hhash, hroot, _⟩ := (validate_eq_ok_iff block).mp h
  have hrooted : { block with merkleRoot := block.computedRoot } = block := by rw [hroot]
  unfold rehash
  simp only [hrooted, hhash]

/-- **What a stamped block can be refused for.**  Its header is right by construction, so its place
and its transactions decide. -/
theorem validate_stamp_iff (block : Block α) (index : Int64) (previousHash : String) :
    (block.stamp index previousHash).validate = .ok () ↔
      0 ≤ index ∧ previousHash ≠ "" ∧ Holds block.transactions := by
  have hhash : (block.stamp index previousHash).hash ≠ "" := digestText_ne_empty _
  rw [validate_eq_ok_iff]
  constructor
  · rintro ⟨hindex, _, hprevious, _, _, hholds⟩
    exact ⟨hindex, hprevious, hholds⟩
  · rintro ⟨hindex, hprevious, hholds⟩
    exact ⟨hindex, hhash, hprevious, rfl, rfl, hholds⟩

/-- **The first fault of a stamped block** is one of its transactions, where its place has none. -/
theorem validate_stamp {index : Int64} {previousHash : String} (hindex : 0 ≤ index)
    (hprevious : previousHash ≠ "") (block : Block α) :
    (block.stamp index previousHash).validate =
      if block.transactions.isEmpty then .error (.empty index)
      else validateTransactions index 0 block.transactions := by
  have hpositive : ¬ (block.stamp index previousHash).index < 0 := Int64.not_lt.mpr hindex
  have hhash : (block.stamp index previousHash).hash ≠ "" := digestText_ne_empty _
  have hplace : (block.stamp index previousHash).previousHash ≠ "" := hprevious
  have hheader : (block.stamp index previousHash).verifyIntegrity = .ok () := by
    unfold verifyIntegrity stamp
    rw [if_neg (not_not_intro (computedHash_rehash _)),
      if_neg (not_not_intro (computedRoot_rehash _))]
  unfold validate
  rw [if_neg hpositive, if_neg hhash, if_neg hplace, hheader]
  rfl

/-- The recomputed root is the root over the canonical texts. -/
theorem computedRoot_eq (block : Block α) :
    block.computedRoot =
      AuthorityLedger.merkleRoot (block.transactions.map Transaction.canonical) := rfl

/-- A block with its last transaction repeated and nothing else changed. -/
def repeatLast (block : Block α) : Block α :=
  { block with transactions := Merkle.repeatLast block.transactions }

/-- **No check of a block sees a repeated last transaction** if the number of transactions was odd
and there was more than one: root and hash stay the right ones. -/
theorem validate_repeatLast {block : Block α} (hodd : block.transactions.length % 2 = 1)
    (hmore : 1 < block.transactions.length) (h : block.validate = .ok ()) :
    block.repeatLast.validate = .ok () := by
  obtain ⟨hindex, hhash, hprevious, hstored, hroot, _, hvalid⟩ := (validate_eq_ok_iff block).mp h
  have hsame : block.repeatLast.computedRoot = block.computedRoot := by
    rw [computedRoot_eq, computedRoot_eq, repeatLast, Merkle.map_repeatLast]
    exact Merkle.root_repeatLast (by simpa using hodd) (by simpa using hmore)
  have hsome : Merkle.repeatLast block.transactions ≠ [] := by
    have hpos : block.transactions ≠ [] := List.ne_nil_of_length_pos (by omega)
    simp [Merkle.repeatLast, hpos]
  refine (validate_eq_ok_iff _).mpr ⟨hindex, hhash, hprevious, hstored, ?_, hsome, ?_⟩
  · rw [hsame, hroot]
    rfl
  · intro tx htx
    exact hvalid tx (Merkle.mem_repeatLast.mp htx)

/-- A linked block is valid if its place can be validated and it holds transactions that are all
valid. -/
theorem validate_linked_iff (now : Timestamp) (index : Int64) (previousHash : String)
    (transactions : List (Transaction α)) :
    (linked now index previousHash transactions).validate = .ok () ↔
      0 ≤ index ∧ previousHash ≠ "" ∧ Holds transactions :=
  validate_stamp_iff (linked now index previousHash transactions) index previousHash

/-- A first block is valid if it holds transactions that are all valid. -/
theorem validate_genesis_iff (now : Timestamp) (transactions : List (Transaction α)) :
    (genesis now transactions).validate = .ok () ↔ Holds transactions := by
  unfold genesis
  rw [validate_linked_iff]
  constructor
  · exact fun h => h.2.2
  · exact fun h => ⟨by decide, by decide, h⟩

end Block

end AuthorityLedger
