import AuthorityLedger.Block.Wire
import AuthorityLedger.Proofs.Transaction.Wire

/-!
# The wire form of a block

The transactions of a block are written one behind the other, each as a byte
string of its own, and their number is written before them; the reader takes as
many byte strings as the number says, and each must be a transaction and nothing
else.  Both directions go along the list of transactions
(`on_takeTransactions_of_put`, `putTransactions_of_on_take`).

The main result is that writing and reading records are inverse to each other
(`wire_form_restored`): what fits behind the lengths is written and read back, and
what is read is what had been written.
-/

namespace AuthorityLedger.Block

variable {α : Type}

/-! ## The list of transactions -/

section Transactions

variable [Payload α]

theorem putTransactions_cons_eq_ok_iff {tx : Transaction α} {txs : List (Transaction α)}
    {w : Bytes} :
    putTransactions (tx :: txs) = .ok w ↔
      ∃ body front back, tx.put = .ok body ∧ Wire.putBytes body = .ok front ∧
        putTransactions txs = .ok back ∧ front ++ back = w := by
  simp only [putTransactions, Except.bind_eq_ok_iff]
  constructor
  · intro h
    obtain ⟨body, hbody, front, hfront, back, hback, hw⟩ := h
    exact ⟨body, front, back, hbody, hfront, hback, Except.ok.inj hw⟩
  · intro h
    obtain ⟨body, front, back, hbody, hfront, hback, rfl⟩ := h
    exact ⟨body, hbody, front, hfront, back, hback, rfl⟩

/-- What is read as one more transaction and those behind it. -/
theorem on_takeTransactions_succ {count : Nat} {txs : List (Transaction α)} {input rest : Bytes} :
    (takeTransactions (count + 1)).on input = (.ok txs, rest) ↔
      ∃ tx others body front middle, txs = tx :: others ∧ Wire.putBytes body = .ok front ∧
        input = front ++ middle ∧ Transaction.take.on body = (.ok tx, []) ∧
        (takeTransactions count).on middle = (.ok others, rest) := by
  simp only [takeTransactions, Action.on_bind_eq_ok_iff, Wire.Reader.on_bytes,
    Action.on_ofExcept, Action.on_pure, Prod.mk.injEq, Except.ok.injEq,
    Wire.Reader.whole_eq_ok_iff]
  constructor
  · intro h
    obtain ⟨body, middle, ⟨front, hfront, rfl⟩, tx, _, ⟨htx, rfl⟩, others, _, hothers, rfl, rfl⟩ := h
    exact ⟨tx, others, body, front, _, rfl, hfront, rfl, htx, hothers⟩
  · intro h
    obtain ⟨tx, others, body, front, middle, rfl, hfront, rfl, htx, hothers⟩ := h
    exact ⟨body, middle, ⟨front, hfront, rfl⟩, tx, middle, ⟨htx, rfl⟩, others, rest, hothers, rfl, rfl⟩

/-- Written transactions are read back, if the reader is told their number. -/
theorem on_takeTransactions_of_put [ReadablePayload α] {txs : List (Transaction α)} {w rest : Bytes}
    (h : putTransactions txs = .ok w) :
    (takeTransactions txs.length).on (w ++ rest) = (.ok txs, rest) := by
  induction txs generalizing w with
  | nil =>
      obtain rfl : [] = w := Except.ok.inj h
      rfl
  | cons tx txs ih =>
      obtain ⟨body, front, back, hbody, hfront, hback, rfl⟩ := putTransactions_cons_eq_ok_iff.mp h
      have htx : Transaction.take.on (body ++ []) = (.ok tx, []) := Transaction.on_take_of_put hbody
      rw [List.append_nil] at htx
      rw [List.append_assoc]
      exact on_takeTransactions_succ.mpr ⟨tx, txs, body, front, _, rfl, hfront, rfl, htx, ih hback⟩

/-- Only written transactions are read, as many as the reader is told. -/
theorem putTransactions_of_on_take [ExactPayload α] {count : Nat} {txs : List (Transaction α)}
    {input rest : Bytes} (h : (takeTransactions count).on input = (.ok txs, rest)) :
    txs.length = count ∧ ∃ w, putTransactions txs = .ok w ∧ input = w ++ rest := by
  induction count generalizing txs input with
  | zero =>
      cases h
      exact ⟨rfl, [], rfl, rfl⟩
  | succ count ih =>
      obtain ⟨tx, others, body, front, middle, rfl, hfront, rfl, htx, hothers⟩ :=
        on_takeTransactions_succ.mp h
      obtain ⟨hlength, back, hback, rfl⟩ := ih hothers
      obtain ⟨w, hw, rfl⟩ := Transaction.put_of_on_take htx
      rw [List.append_nil] at hfront
      refine ⟨by rw [List.length_cons, hlength], front ++ back, ?_, by rw [List.append_assoc]⟩
      exact putTransactions_cons_eq_ok_iff.mpr ⟨w, front, back, hw, hfront, hback, rfl⟩

end Transactions

/-! ## The whole block -/

/-- The fields of fixed width, and between and behind them what is written for the others. -/
def layout (block : Block α) (previousHash hash merkleRoot count transactions : Bytes) : Bytes :=
  Wire.putInt64 block.index ++ previousHash ++ hash ++ Wire.putInt64 block.nonce ++
    Wire.putInt64 block.timestamp.secs ++ Wire.putUInt32 block.timestamp.nanos ++ merkleRoot ++
    count ++ transactions

variable [Payload α]

/-- What is written for a block. -/
theorem put_eq_ok_iff {block : Block α} {w : Bytes} :
    block.put = .ok w ↔
      ∃ previousHash hash merkleRoot count transactions,
        Wire.putText block.previousHash = .ok previousHash ∧ Wire.putText block.hash = .ok hash ∧
        Wire.putText block.merkleRoot = .ok merkleRoot ∧
        Wire.putSize block.transactions.length = .ok count ∧
        putTransactions block.transactions = .ok transactions ∧
        block.layout previousHash hash merkleRoot count transactions = w := by
  unfold put
  simp only [Except.bind_eq_ok_iff]
  constructor
  · intro h
    obtain ⟨previousHash, hprevious, hash, hhash, root, hroot, count, hcount, txs, htxs, hw⟩ := h
    exact ⟨previousHash, hash, root, count, txs, hprevious, hhash, hroot, hcount, htxs,
      Except.ok.inj hw⟩
  · intro h
    obtain ⟨previousHash, hash, root, count, txs, hprevious, hhash, hroot, hcount, htxs, rfl⟩ := h
    exact ⟨previousHash, hprevious, hash, hhash, root, hroot, count, hcount, txs, htxs, rfl⟩

/-- What is read as a block. -/
theorem on_take {block : Block α} {input rest : Bytes} :
    take.on input = (.ok block, rest) ↔
      ∃ previousHash hash merkleRoot middle, ∃ count : UInt32,
        Wire.putText block.previousHash = .ok previousHash ∧ Wire.putText block.hash = .ok hash ∧
        Wire.putText block.merkleRoot = .ok merkleRoot ∧
        (takeTransactions count.toNat).on middle = (.ok block.transactions, rest) ∧
        input = block.layout previousHash hash merkleRoot (Wire.putUInt32 count) middle := by
  unfold take layout
  simp only [Action.on_bind_eq_ok_iff, Wire.Reader.on_int64, Wire.Reader.on_uint32,
    Wire.Reader.on_text, Action.on_pure, Prod.mk.injEq, Except.ok.injEq, List.append_assoc]
  constructor
  · intro h
    obtain ⟨index, _, rfl, _, _, ⟨previousHash, hprevious, rfl⟩, _, _, ⟨hash, hhash, rfl⟩, nonce, _,
      rfl, secs, _, rfl, nanos, _, rfl, _, _, ⟨root, hroot, rfl⟩, count, middle, rfl, _, _, htxs,
      rfl, rfl⟩ := h
    exact ⟨previousHash, hash, root, middle, count, hprevious, hhash, hroot, htxs, rfl⟩
  · intro h
    obtain ⟨previousHash, hash, root, middle, count, hprevious, hhash, hroot, htxs, rfl⟩ := h
    exact ⟨_, _, rfl, _, _, ⟨previousHash, hprevious, rfl⟩, _, _, ⟨hash, hhash, rfl⟩, _, _, rfl, _,
      _, rfl, _, _, rfl, _, _, ⟨root, hroot, rfl⟩, count, middle, rfl, _, _, htxs, rfl, rfl⟩

/-- A number that fits a 32-bit word is written as that word. -/
theorem exists_putSize_iff {size : Nat} {w : Bytes} :
    Wire.putSize size = .ok w ↔ ∃ count : UInt32, count.toNat = size ∧ Wire.putUInt32 count = w := by
  rw [Wire.putSize_eq_ok_iff]
  constructor
  · intro h
    obtain ⟨hfits, rfl⟩ := h
    have hsame : (UInt32.ofNat size).toNat = size := UInt32.toNat_ofNat_of_lt' hfits
    exact ⟨UInt32.ofNat size, hsame, by rw [Wire.putUInt32, hsame]⟩
  · intro h
    obtain ⟨count, rfl, rfl⟩ := h
    exact ⟨count.toNat_lt, rfl⟩

/-- **A written block is read back**, whatever follows it. -/
theorem on_take_of_put [ReadablePayload α] {block : Block α} {w rest : Bytes}
    (h : block.put = .ok w) : take.on (w ++ rest) = (.ok block, rest) := by
  obtain ⟨previousHash, hash, root, _, txs, hprevious, hhash, hroot, hcount, htxs, rfl⟩ :=
    put_eq_ok_iff.mp h
  obtain ⟨count, hsame, rfl⟩ := exists_putSize_iff.mp hcount
  have hread : (takeTransactions count.toNat).on (txs ++ rest) = (.ok block.transactions, rest) := by
    rw [hsame]
    exact on_takeTransactions_of_put htxs
  refine on_take.mpr ⟨previousHash, hash, root, txs ++ rest, count, hprevious, hhash, hroot, hread,
    ?_⟩
  simp only [layout, List.append_assoc]

/-- **Only a written block is read**, if the payload type is exact. -/
theorem put_of_on_take [ExactPayload α] {block : Block α} {input rest : Bytes}
    (h : take.on input = (.ok block, rest)) : ∃ w, block.put = .ok w ∧ input = w ++ rest := by
  obtain ⟨previousHash, hash, root, middle, count, hprevious, hhash, hroot, hread, rfl⟩ :=
    on_take.mp h
  obtain ⟨hlength, txs, htxs, rfl⟩ := putTransactions_of_on_take hread
  have hcount := exists_putSize_iff.mpr ⟨count, hlength.symm, rfl⟩
  refine ⟨_, put_eq_ok_iff.mpr ⟨previousHash, hash, root, _, txs, hprevious, hhash, hroot, hcount,
    htxs, rfl⟩, ?_⟩
  simp only [layout, List.append_assoc]

/-! ## Whole byte strings -/

theorem toBytes_eq_ok_iff {block : Block α} {w : Bytes} :
    block.toBytes = .ok w ↔ block.put = .ok w :=
  Except.mapError_eq_ok_iff

theorem ofBytes_eq_ok_iff {block : Block α} {w : Bytes} :
    ofBytes w = .ok block ↔ take.on w = (.ok block, []) := by
  unfold ofBytes
  rw [Except.mapError_eq_ok_iff, Wire.Reader.whole_eq_ok_iff]

/-- The wire form of a block decodes to it. -/
theorem ofBytes_of_toBytes [ReadablePayload α] {block : Block α} {w : Bytes}
    (h : block.toBytes = .ok w) : ofBytes w = .ok block := by
  have hread : take.on (w ++ []) = (.ok block, []) := on_take_of_put (toBytes_eq_ok_iff.mp h)
  rw [List.append_nil] at hread
  exact ofBytes_eq_ok_iff.mpr hread

/-- Bytes that decode to a block are its wire form. -/
theorem toBytes_of_ofBytes [ExactPayload α] {block : Block α} {w : Bytes}
    (h : ofBytes w = .ok block) : block.toBytes = .ok w := by
  obtain ⟨v, hput, rfl⟩ := put_of_on_take (ofBytes_eq_ok_iff.mp h)
  rw [List.append_nil]
  exact toBytes_eq_ok_iff.mpr hput

/-! ## What can be written -/

theorem exists_putTransactions_iff {txs : List (Transaction α)} :
    (∃ w, putTransactions txs = .ok w) ↔
      ∀ tx ∈ txs, ∃ w, tx.put = .ok w ∧ w.length < Nat.pow 2 32 := by
  induction txs with
  | nil =>
      constructor
      · intro _ tx htx
        cases htx
      · intro _
        exact ⟨[], rfl⟩
  | cons tx txs ih =>
      rw [List.forall_mem_cons, ← ih]
      simp only [putTransactions_cons_eq_ok_iff, Wire.putBytes_eq_ok_iff]
      constructor
      · intro h
        obtain ⟨_, body, _, back, hbody, ⟨hfits, _⟩, hback, _⟩ := h
        exact ⟨⟨body, hbody, hfits⟩, back, hback⟩
      · intro h
        obtain ⟨⟨body, hbody, hfits⟩, back, hback⟩ := h
        exact ⟨_, body, _, back, hbody, ⟨hfits, rfl⟩, hback, rfl⟩

/-- A block has no wire form unless all its transactions have one. -/
theorem exists_put_of_mem {block : Block α} {w : Bytes} (h : block.put = .ok w)
    {tx : Transaction α} (htx : tx ∈ block.transactions) : ∃ body, tx.put = .ok body := by
  obtain ⟨_, _, _, _, front, _, _, _, _, hfront, _⟩ := put_eq_ok_iff.mp h
  obtain ⟨body, hbody, _⟩ := exists_putTransactions_iff.mp ⟨front, hfront⟩ tx htx
  exact ⟨body, hbody⟩

/-- The texts of a block, the number of its transactions, their fields and their wire forms all fit
behind their lengths. -/
def Fits (block : Block α) : Prop :=
  (Bytes.ofText block.previousHash).length < Nat.pow 2 32 ∧
    (Bytes.ofText block.hash).length < Nat.pow 2 32 ∧
    (Bytes.ofText block.merkleRoot).length < Nat.pow 2 32 ∧
    block.transactions.length < Nat.pow 2 32 ∧
    ∀ tx ∈ block.transactions, tx.Fits ∧ ∀ w, tx.put = .ok w → w.length < Nat.pow 2 32

/-- **A block has a wire form exactly if its fields fit.** -/
theorem exists_put_iff {block : Block α} : (∃ w, block.put = .ok w) ↔ block.Fits := by
  have hwritten (tx : Transaction α) :
      (∃ w, tx.put = .ok w ∧ w.length < Nat.pow 2 32) ↔
        tx.Fits ∧ ∀ w, tx.put = .ok w → w.length < Nat.pow 2 32 := by
    rw [← Transaction.exists_put_iff]
    constructor
    · intro h
      obtain ⟨w, hput, hfits⟩ := h
      refine ⟨⟨w, hput⟩, ?_⟩
      intro v hv
      obtain rfl : w = v := Except.ok.inj (hput.symm.trans hv)
      exact hfits
    · intro h
      obtain ⟨⟨w, hput⟩, hfits⟩ := h
      exact ⟨w, hput, hfits w hput⟩
  simp only [Fits, ← hwritten, ← exists_putTransactions_iff, put_eq_ok_iff,
    Wire.putText_eq_ok_iff, Wire.putSize_eq_ok_iff]
  constructor
  · intro h
    obtain ⟨_, _, _, _, _, txs, ⟨hprevious, _⟩, ⟨hhash, _⟩, ⟨hroot, _⟩, ⟨hcount, _⟩, htxs, _⟩ := h
    exact ⟨hprevious, hhash, hroot, hcount, txs, htxs⟩
  · intro h
    obtain ⟨hprevious, hhash, hroot, hcount, txs, htxs⟩ := h
    exact ⟨_, _, _, _, _, txs, ⟨hprevious, rfl⟩, ⟨hhash, rfl⟩, ⟨hroot, rfl⟩, ⟨hcount, rfl⟩, htxs, rfl⟩

/-- A block whose texts are short fits exactly if its transactions do. -/
theorem fits_iff_of_short {block : Block α} (hprevious : block.previousHash.length ≤ 64)
    (hhash : block.hash.length ≤ 64) (hroot : block.merkleRoot.length ≤ 64) :
    block.Fits ↔ block.transactions.length < Nat.pow 2 32 ∧
      ∀ tx ∈ block.transactions, tx.Fits ∧ ∀ w, tx.put = .ok w → w.length < Nat.pow 2 32 := by
  have hshort {text : String} (h : text.length ≤ 64) :
      (Bytes.ofText text).length < Nat.pow 2 32 := by
    have hbytes := Wire.length_ofText_le text
    exact Wire.fits_of_le (by omega)
  constructor
  · intro h
    exact h.2.2.2
  · intro h
    exact ⟨hshort hprevious, hshort hhash, hshort hroot, h⟩

/-- **Writing and reading are inverse to each other.**  A transaction or a block over texts whose
fields fit behind their lengths, valid or not, is written and read back; bytes that are read as one
are what is written for it.  Records over any other payload type whose binary forms are read back
are read back as well. -/
theorem wire_form_restored :
    (∀ tx : Transaction String, tx.Fits →
      ∃ w, tx.toBytes = .ok w ∧ Transaction.ofBytes w = .ok tx) ∧
    (∀ (tx : Transaction String) (w : Bytes), Transaction.ofBytes w = .ok tx →
      tx.toBytes = .ok w) ∧
    (∀ block : Block String, block.Fits → ∃ w, block.toBytes = .ok w ∧ ofBytes w = .ok block) ∧
    (∀ (block : Block String) (w : Bytes), ofBytes w = .ok block → block.toBytes = .ok w) ∧
    ∀ (β : Type) [Payload β] [ReadablePayload β],
      (∀ tx : Transaction β, tx.Fits →
        ∃ w, tx.toBytes = .ok w ∧ Transaction.ofBytes w = .ok tx) ∧
      ∀ block : Block β, block.Fits → ∃ w, block.toBytes = .ok w ∧ ofBytes w = .ok block := by
  have htransactions (β : Type) [Payload β] [ReadablePayload β] (tx : Transaction β)
      (hfits : tx.Fits) : ∃ w, tx.toBytes = .ok w ∧ Transaction.ofBytes w = .ok tx := by
    obtain ⟨w, hput⟩ := Transaction.exists_put_iff.mpr hfits
    have hw := Transaction.toBytes_eq_ok_iff.mpr hput
    exact ⟨w, hw, Transaction.ofBytes_of_toBytes hw⟩
  have hblocks (β : Type) [Payload β] [ReadablePayload β] (block : Block β)
      (hfits : block.Fits) : ∃ w, block.toBytes = .ok w ∧ ofBytes w = .ok block := by
    obtain ⟨w, hput⟩ := exists_put_iff.mpr hfits
    have hw := toBytes_eq_ok_iff.mpr hput
    exact ⟨w, hw, ofBytes_of_toBytes hw⟩
  refine ⟨htransactions String, ?_, hblocks String, ?_, ?_⟩
  · intro tx w hread
    exact Transaction.toBytes_of_ofBytes hread
  · intro block w hread
    exact toBytes_of_ofBytes hread
  · intro β _ _
    exact ⟨htransactions β, hblocks β⟩

/-- A block with a negative index, without a root and with an unsigned transaction. -/
def draft : Block Reading where
  index := -1
  previousHash := "Ελέα"
  hash := ""
  transactions := [
    { timestamp := ⟨-1, 4294967295⟩
      priority := -32768
      id := ""
      payload := ⟨"θ", 7⟩
      signature := [] }]
  nonce := 0
  timestamp := ⟨0, 0⟩
  merkleRoot := ""

/-- A block of readings is written and read back as it is, whatever is wrong with it. -/
theorem wire_form_restored_draft :
    draft.Fits ∧ ∃ w, draft.toBytes = .ok w ∧ ofBytes w = .ok draft := by
  have hfits : draft.Fits := by
    refine ⟨by decide, by decide, by decide, by decide, List.forall_mem_singleton.mpr ⟨?_, ?_⟩⟩
    · exact ⟨by decide, ⟨_, rfl, by decide⟩, by decide⟩
    · intro w hw
      rw [Transaction.length_of_put hw rfl]
      decide
  obtain ⟨_, _, _, _, hothers⟩ := wire_form_restored
  exact ⟨hfits, (hothers Reading).2 draft hfits⟩

end AuthorityLedger.Block
