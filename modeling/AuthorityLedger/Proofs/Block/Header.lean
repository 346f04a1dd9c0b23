import AuthorityLedger.Proofs.Block
import AuthorityLedger.Proofs.Collision
import AuthorityLedger.Proofs.Concatenation

/-!
# What the header text of a block determines

The header text puts six texts end to end and marks no ends: index, seconds,
nanoseconds, previous hash, nonce and Merkle root (`headerParts`).  Behind a
known predecessor this is enough, since roots and previous hashes have the
length of a digest: the text gives back the place of the block
(`place_eq_of_headerText_eq`), or all but the border between seconds and
nanoseconds (`links_eq_of_headerText_eq`).

For a block on its own it is not enough.  A valid block whose header is changed,
while hash, root and transactions stay, is still valid if the header text is the
same or collides with the old one, and then only
(`validate_eq_ok_iff_of_retouched`).  The text can only stay the same if two
parts of it change their lengths; digits that move from the nanoseconds to the
seconds do that (`header_not_binding`).
-/

namespace AuthorityLedger.Block

variable {α β : Type}

/-! ## Reading a header text -/

/-- The texts that make up the header text, in order. -/
def headerParts (block : Block α) : List String :=
  [toString block.index.toInt, toString block.timestamp.secs.toInt,
    toString block.timestamp.nanos.toNat, block.previousHash, toString block.nonce.toInt,
    block.merkleRoot]

/-- The time of a block as it stands in the header text. -/
def timeText (block : Block α) : String :=
  toString block.timestamp.secs.toInt ++ toString block.timestamp.nanos.toNat

/-- The header text is made of the parts and nothing else. -/
theorem headerText_eq_join (block : Block α) :
    block.headerText = String.join block.headerParts := by
  simp [headerText, headerParts, String.append_assoc]

/-- Seconds and nanoseconds make up one text. -/
theorem headerText_eq_join_timeText (block : Block α) :
    block.headerText = String.join [toString block.index.toInt, block.timeText, block.previousHash,
      toString block.nonce.toInt, block.merkleRoot] := by
  simp [headerText, timeText, String.append_assoc]

@[simp] theorem length_headerParts (block : Block α) : block.headerParts.length = 6 := rfl

/-- The parts of a header are those of another exactly if the fields are. -/
theorem headerParts_eq_iff (b : Block α) (c : Block β) :
    b.headerParts = c.headerParts ↔
      b.index = c.index ∧ b.timestamp.secs = c.timestamp.secs ∧
        b.timestamp.nanos = c.timestamp.nanos ∧ b.previousHash = c.previousHash ∧
        b.nonce = c.nonce ∧ b.merkleRoot = c.merkleRoot := by
  constructor
  · intro h
    simp only [headerParts, List.cons.injEq, and_true] at h
    obtain ⟨hindex, hsecs, hnanos, hprevious, hnonce, hroot⟩ := h
    exact ⟨Int64.toInt_inj.mp (Int.repr_injective hindex),
      Int64.toInt_inj.mp (Int.repr_injective hsecs),
      UInt32.toNat_inj.mp (Nat.repr_injective hnanos), hprevious,
      Int64.toInt_inj.mp (Int.repr_injective hnonce), hroot⟩
  · rintro ⟨hindex, hsecs, hnanos, hprevious, hnonce, hroot⟩
    simp only [headerParts, hindex, hsecs, hnanos, hprevious, hnonce, hroot]

/-- **Where a block stands is read off its header text**, if the rest of the header and the length
of the previous hash are known. -/
theorem place_eq_of_headerText_eq {b : Block α} {c : Block β} (h : b.headerText = c.headerText)
    (htime : b.timestamp = c.timestamp) (hnonce : b.nonce = c.nonce)
    (hroot : b.merkleRoot = c.merkleRoot)
    (hwidth : b.previousHash.length = c.previousHash.length) :
    b.index = c.index ∧ b.previousHash = c.previousHash := by
  rw [headerText_eq_join, headerText_eq_join] at h
  have hparts : b.headerParts = c.headerParts := by
    refine eq_of_join_eq_of_other_lengths_eq (i := 0) h (by simp) ?_
    intro j hj
    match j with
    | 0 => exact absurd rfl hj
    | 1 | 2 => simp [headerParts, htime]
    | 3 => simp [headerParts, hwidth]
    | 4 => simp [headerParts, hnonce]
    | 5 => simp [headerParts, hroot]
    | _ + 6 => simp [headerParts]
  obtain ⟨hindex, _, _, hprevious, _, _⟩ := (headerParts_eq_iff b c).mp hparts
  exact ⟨hindex, hprevious⟩

/-- **What a block links is read off its header text**, if its place, its nonce and the lengths of
previous hash and root are known; of the time only the text is. -/
theorem links_eq_of_headerText_eq {b : Block α} {c : Block β} (h : b.headerText = c.headerText)
    (hindex : b.index = c.index) (hnonce : b.nonce = c.nonce)
    (hprevious : b.previousHash.length = c.previousHash.length)
    (hroot : b.merkleRoot.length = c.merkleRoot.length) :
    b.timeText = c.timeText ∧ b.previousHash = c.previousHash ∧ b.merkleRoot = c.merkleRoot := by
  rw [headerText_eq_join_timeText, headerText_eq_join_timeText] at h
  have hparts := eq_of_join_eq_of_other_lengths_eq (i := 1) h (by simp) ?_
  · simp only [List.cons.injEq] at hparts
    exact ⟨hparts.2.1, hparts.2.2.1, hparts.2.2.2.2.1⟩
  · intro j hj
    match j with
    | 0 => simp [hindex]
    | 1 => exact absurd rfl hj
    | 2 => simp [hprevious]
    | 3 => simp [hnonce]
    | 4 => simp [hroot]
    | _ + 5 => simp

/-- Two headers have one hash exactly if they are one text or collide. -/
theorem computedHash_eq_iff (b : Block α) (c : Block β) :
    b.computedHash = c.computedHash ↔
      b.headerText = c.headerText ∨
        Collide (Bytes.ofText b.headerText) (Bytes.ofText c.headerText) := by
  unfold computedHash
  rw [digestText_eq_iff, Bytes.ofText_inj]

variable [Payload α]

/-! ## Headers that are changed afterwards -/

/-- A block with the hash, the root and the transactions of a valid block. -/
theorem validate_iff_of_same_contents {b c : Block α} (hb : b.validate = .ok ())
    (hhash : c.hash = b.hash) (hroot : c.merkleRoot = b.merkleRoot)
    (htransactions : c.transactions = b.transactions) :
    c.validate = .ok () ↔
      0 ≤ c.index ∧ c.previousHash ≠ "" ∧
        (b.headerText = c.headerText ∨
          Collide (Bytes.ofText b.headerText) (Bytes.ofText c.headerText)) := by
  obtain ⟨_, hnamed, _, hstored, hcommitted, hholds⟩ := (validate_eq_ok_iff b).mp hb
  have hsame : c.computedRoot = c.merkleRoot := by
    rw [computedRoot_eq, htransactions, ← computedRoot_eq, hcommitted, hroot]
  rw [validate_eq_ok_iff, ← computedHash_eq_iff, hhash, htransactions, ← hstored]
  constructor
  · rintro ⟨hindex, _, hprevious, hkept, _, _⟩
    exact ⟨hindex, hprevious, hkept.symm⟩
  · rintro ⟨hindex, hprevious, hkept⟩
    exact ⟨hindex, hstored ▸ hnamed, hprevious, hkept.symm, hsame, hholds⟩

/-- **When a changed header goes unnoticed.**  A block with the hash, the root and the transactions
of a valid block and another header is valid exactly if its place can be validated and the two header
texts are one text or collide.  They can only be one text if two parts of it differ in length. -/
theorem validate_eq_ok_iff_of_retouched {b c : Block α} (hb : b.validate = .ok ())
    (hhash : c.hash = b.hash) (hroot : c.merkleRoot = b.merkleRoot)
    (htransactions : c.transactions = b.transactions)
    (hchanged : c.index ≠ b.index ∨ c.previousHash ≠ b.previousHash ∨ c.nonce ≠ b.nonce ∨
      c.timestamp.secs ≠ b.timestamp.secs ∨ c.timestamp.nanos ≠ b.timestamp.nanos) :
    (c.validate = .ok () ↔
      0 ≤ c.index ∧ c.previousHash ≠ "" ∧
        (b.headerText = c.headerText ∨
          Collide (Bytes.ofText b.headerText) (Bytes.ofText c.headerText))) ∧
    (b.headerText = c.headerText →
      ∃ i j : Nat, i ≠ j ∧
        b.headerParts[i]?.map String.length ≠ c.headerParts[i]?.map String.length ∧
        b.headerParts[j]?.map String.length ≠ c.headerParts[j]?.map String.length) := by
  have hdiffer : b.headerParts ≠ c.headerParts := by
    intro hsame
    obtain ⟨hindex, hsecs, hnanos, hprevious, hnonce, _⟩ := (headerParts_eq_iff b c).mp hsame
    rcases hchanged with h | h | h | h | h
    · exact h hindex.symm
    · exact h hprevious.symm
    · exact h hnonce.symm
    · exact h hsecs.symm
    · exact h hnanos.symm
  refine ⟨validate_iff_of_same_contents hb hhash hroot htransactions, fun htext => ?_⟩
  rw [headerText_eq_join, headerText_eq_join] at htext
  exact exists_lengths_ne_of_join_eq htext (by simp) hdiffer

/-- A block with its time as it was written. -/
def punctual : Block String :=
  linked ⟨1, 23⟩ 1 "predecessor"
    [{ timestamp := ⟨0, 0⟩, priority := 0, id := "a", payload := "note", signature := [0] }]

/-- The same with one digit of its nanoseconds moved to its seconds. -/
def delayed : Block String :=
  { punctual with timestamp := ⟨12, 3⟩ }

theorem validate_punctual : punctual.validate = .ok () := by
  unfold punctual
  rw [validate_linked_iff]
  exact ⟨by decide, by decide, by decide, List.forall_mem_singleton.mpr rfl⟩

theorem headerText_delayed : punctual.headerText = delayed.headerText := by
  have hdigits : punctual.timeText = delayed.timeText := by decide
  rw [headerText_eq_join_timeText, headerText_eq_join_timeText, hdigits]
  rfl

/-- Moving a digit between seconds and nanoseconds is a change that goes unnoticed. -/
theorem validate_eq_ok_iff_of_retouched_delayed :
    delayed.validate = .ok () ∧
      ∃ i j : Nat, i ≠ j ∧
        punctual.headerParts[i]?.map String.length ≠ delayed.headerParts[i]?.map String.length ∧
        punctual.headerParts[j]?.map String.length ≠ delayed.headerParts[j]?.map String.length := by
  obtain ⟨hvalid, hlengths⟩ := validate_eq_ok_iff_of_retouched (c := delayed) validate_punctual
    rfl rfl rfl (Or.inr (Or.inr (Or.inr (Or.inl (by decide)))))
  exact ⟨hvalid.mpr ⟨by decide, by decide, Or.inl headerText_delayed⟩, hlengths headerText_delayed⟩

/-- A changed header is not always noticed, even where no two texts collide. -/
theorem header_not_binding :
    ¬ ∀ b c : Block String, b.validate = .ok () → c.hash = b.hash →
      c.merkleRoot = b.merkleRoot → c.transactions = b.transactions →
      (c.index ≠ b.index ∨ c.previousHash ≠ b.previousHash ∨ c.nonce ≠ b.nonce ∨
        c.timestamp.secs ≠ b.timestamp.secs ∨ c.timestamp.nanos ≠ b.timestamp.nanos) →
      (∃ cause, c.validate = .error cause) ∨
        Collide (Bytes.ofText b.headerText) (Bytes.ofText c.headerText) := by
  intro hbinding
  have hchanged : delayed.timestamp.secs ≠ punctual.timestamp.secs := by decide
  rcases hbinding punctual delayed validate_punctual rfl rfl rfl
      (Or.inr (Or.inr (Or.inr (Or.inl hchanged)))) with ⟨cause, hcause⟩ | ⟨hdiffer, _⟩
  · have hvalid : delayed.validate = .ok () :=
      (validate_iff_of_same_contents (c := delayed) validate_punctual rfl rfl rfl).mpr
        ⟨by decide, by decide, Or.inl headerText_delayed⟩
    rw [hvalid] at hcause
    cases hcause
  · exact hdiffer (congrArg Bytes.ofText headerText_delayed)

end AuthorityLedger.Block
