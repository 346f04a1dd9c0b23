import AuthorityLedger.Proofs.Merkle.Binding
import AuthorityLedger.Proofs.Transaction

/-!
# Transactions that are put in the place of others

A block whose header, hash and root stay as they are stored while one of its
transactions is replaced is only guarded by its Merkle root.  The root covers
the canonical texts, so the block stays valid exactly if the new transaction is
valid by itself and the root over the changed texts is the stored one
(`validate_replace_iff`).  Equal roots over equally many leaves mean equal
leaves, collisions apart: what has to stay is the canonical text of the one
transaction (`canonical_eq_or_collideAmong`), and nothing else
(`computedRoot_replace_of_canonical_eq`).

The canonical text says nothing of the signature and marks no ends of its parts.
A replacement can therefore go unnoticed in two ways: the signature alone is
another, or characters have moved from one part to another
(`not_always_noticed`).
-/

namespace AuthorityLedger.Block

/-! ## One transaction in the place of another -/

section Replacement

variable {α : Type}

/-- A block with another transaction at a position and all other fields as they are stored. -/
def replace (block : Block α) (position : Nat) (tx : Transaction α) : Block α :=
  { block with transactions := block.transactions.set position tx }

variable [Payload α]

theorem leaves_replace (block : Block α) (position : Nat) (tx : Transaction α) :
    (block.replace position tx).leaves = block.leaves.set position tx.canonical :=
  List.map_set

@[simp] theorem length_leaves (block : Block α) :
    block.leaves.length = block.transactions.length :=
  List.length_map _

theorem getElem?_leaves {block : Block α} {position : Nat} {tx : Transaction α}
    (h : block.transactions[position]? = some tx) :
    block.leaves[position]? = some tx.canonical := by
  simp [leaves, h]

/-- Transactions that are all valid stay so exactly if the new one is. -/
theorem holds_set_iff {transactions : List (Transaction α)} {position : Nat} {tx : Transaction α}
    (hold : Holds transactions) (hposition : position < transactions.length) :
    Holds (transactions.set position tx) ↔ tx.validate = .ok () := by
  obtain ⟨hsome, hvalid⟩ := hold
  constructor
  · rintro ⟨_, hnew⟩
    exact hnew tx (List.mem_set hposition tx)
  · intro htx
    refine ⟨by simpa using hsome, ?_⟩
    intro other hother
    rcases List.mem_or_eq_of_mem_set hother with hkept | rfl
    · exact hvalid other hkept
    · exact htx

/-- **What guards a transaction of a valid block** is its own validity and the Merkle root. -/
theorem validate_replace_iff {block : Block α} {position : Nat} {tx : Transaction α}
    (hb : block.validate = .ok ()) (hposition : position < block.transactions.length) :
    (block.replace position tx).validate = .ok () ↔
      tx.validate = .ok () ∧ (block.replace position tx).computedRoot = block.computedRoot := by
  obtain ⟨hindex, hhash, hprevious, hstored, hroot, hholds⟩ := (validate_eq_ok_iff block).mp hb
  rw [validate_eq_ok_iff, ← holds_set_iff hholds hposition, hroot]
  constructor
  · rintro ⟨_, _, _, _, hcommitted, hnew⟩
    exact ⟨hnew, hcommitted⟩
  · rintro ⟨hnew, hcommitted⟩
    exact ⟨hindex, hhash, hprevious, hstored, hcommitted, hnew⟩

/-- A replacement that keeps the root keeps the canonical text, collisions apart. -/
theorem canonical_eq_or_collideAmong {block : Block α} {position : Nat} {old tx : Transaction α}
    (hold : block.transactions[position]? = some old)
    (hroot : (block.replace position tx).computedRoot = block.computedRoot) :
    tx.canonical = old.canonical ∨
      CollideAmong (Merkle.inputs block.leaves)
        (Merkle.inputs (block.replace position tx).leaves) := by
  obtain ⟨hposition, _⟩ := List.getElem?_eq_some_iff.mp hold
  have hcount : block.leaves.length = (block.replace position tx).leaves.length := by
    rw [leaves_replace, List.length_set]
  rcases Merkle.eq_or_collideAmong_of_merkleRoot_eq hcount hroot.symm with hsame | hcollide
  · left
    have hnew : (block.replace position tx).leaves[position]? = some tx.canonical := by
      rw [leaves_replace, List.getElem?_set_self (by simpa using hposition)]
    rw [← hsame, getElem?_leaves hold] at hnew
    exact (Option.some.inj hnew).symm
  · exact Or.inr hcollide

/-- A replacement that keeps the canonical text keeps the root. -/
theorem computedRoot_replace_of_canonical_eq {block : Block α} {position : Nat}
    {old tx : Transaction α} (hold : block.transactions[position]? = some old)
    (hcanonical : tx.canonical = old.canonical) :
    (block.replace position tx).computedRoot = block.computedRoot := by
  obtain ⟨hposition, hthere⟩ := List.getElem?_eq_some_iff.mp (getElem?_leaves hold)
  have hsame : (block.replace position tx).leaves = block.leaves := by
    rw [leaves_replace, hcanonical, ← hthere, List.set_getElem_self]
  rw [computedRoot, computedRoot, tree, tree, hsame]

end Replacement

/-! ## What a replacement may change unnoticed -/

/-- Different transactions with one canonical text differ in their signatures alone, or in the lengths
of two parts at least. -/
theorem signature_or_lengths_ne_of_canonical_eq {t u : Transaction String} (hne : t ≠ u)
    (h : t.canonical = u.canonical) :
    ((t.timestamp = u.timestamp ∧ t.priority = u.priority ∧ t.id = u.id ∧ t.payload = u.payload) ∧
        t.signature ≠ u.signature) ∨
      ∃ i j : Nat, i ≠ j ∧ t.parts[i]?.map String.length ≠ u.parts[i]?.map String.length ∧
        t.parts[j]?.map String.length ≠ u.parts[j]?.map String.length := by
  by_cases hparts : t.parts = u.parts
  · left
    have hcontent := (Transaction.parts_eq_iff t u).mp hparts
    refine ⟨hcontent, ?_⟩
    intro hsignature
    obtain ⟨htime, hpriority, hid, hpayload⟩ := hcontent
    cases t
    cases u
    simp_all
  · right
    rw [Transaction.canonical_eq_join, Transaction.canonical_eq_join] at h
    exact exists_lengths_ne_of_join_eq h (by simp [Transaction.parts]) hparts

/-- **When a replaced transaction goes unnoticed.**  A valid block with another transaction at a
position is valid only if that one is valid by itself and has the canonical text of the old one, or
there is a collision among what is hashed for the two trees; and then it is valid.  Different
transactions with one canonical text differ in the signature alone, or two parts of the text have
changed their lengths. -/
theorem validate_of_replaced {block : Block String} {position : Nat} {old tx : Transaction String}
    (hb : block.validate = .ok ()) (hold : block.transactions[position]? = some old)
    (hchanged : tx ≠ old) :
    ((block.replace position tx).validate = .ok () →
      tx.validate = .ok () ∧
        (tx.canonical = old.canonical ∨
          CollideAmong (Merkle.inputs block.leaves)
            (Merkle.inputs (block.replace position tx).leaves))) ∧
    (tx.validate = .ok () → tx.canonical = old.canonical →
      (block.replace position tx).validate = .ok ()) ∧
    (tx.canonical = old.canonical →
      ((tx.timestamp = old.timestamp ∧ tx.priority = old.priority ∧ tx.id = old.id ∧
          tx.payload = old.payload) ∧ tx.signature ≠ old.signature) ∨
        ∃ i j : Nat, i ≠ j ∧ tx.parts[i]?.map String.length ≠ old.parts[i]?.map String.length ∧
          tx.parts[j]?.map String.length ≠ old.parts[j]?.map String.length) := by
  obtain ⟨hposition, _⟩ := List.getElem?_eq_some_iff.mp hold
  refine ⟨?_, ?_, signature_or_lengths_ne_of_canonical_eq hchanged⟩
  · intro hvalid
    obtain ⟨htx, hroot⟩ := (validate_replace_iff hb hposition).mp hvalid
    exact ⟨htx, canonical_eq_or_collideAmong hold hroot⟩
  · intro htx hcanonical
    have hroot := computedRoot_replace_of_canonical_eq hold hcanonical
    exact (validate_replace_iff hb hposition).mpr ⟨htx, hroot⟩

/-- A transaction between two others. -/
def flanked : Block String :=
  linked ⟨1, 23⟩ 1 "predecessor" [
    { Transaction.original with id := "first" }, Transaction.original,
    { Transaction.original with id := "last" }]

/-- The transaction with another signature. -/
def countersigned : Transaction String :=
  { Transaction.original with signature := [1] }

/-- In the midst of a block another signature goes unnoticed, and another payload would only do so
with a collision. -/
theorem validate_of_replaced_countersigned :
    let altered : Transaction String := { Transaction.original with payload := "d" }
    flanked.validate = .ok () ∧ flanked.transactions.length = 3 ∧
      flanked.transactions[1]? = some Transaction.original ∧
      countersigned ≠ Transaction.original ∧
      (flanked.replace 1 countersigned).validate = .ok () ∧
      ((flanked.replace 1 altered).validate = .ok () →
        CollideAmong (Merkle.inputs flanked.leaves)
          (Merkle.inputs (flanked.replace 1 altered).leaves)) := by
  intro altered
  have hvalid : flanked.validate = .ok () := by
    unfold flanked
    rw [validate_linked_iff]
    refine ⟨by decide, by decide, List.cons_ne_nil _ _, ?_⟩
    simp only [List.forall_mem_cons]
    exact ⟨rfl, rfl, rfl, List.forall_mem_nil _⟩
  have hthere : flanked.transactions[1]? = some Transaction.original := rfl
  have hchanged : countersigned ≠ Transaction.original := by decide
  have haltered : altered ≠ Transaction.original := by decide
  obtain ⟨_, hkept, _⟩ := validate_of_replaced hvalid hthere hchanged
  obtain ⟨hnoticed, _⟩ := validate_of_replaced hvalid hthere haltered
  refine ⟨hvalid, rfl, hthere, hchanged, hkept rfl rfl, ?_⟩
  intro hunnoticed
  exact (hnoticed hunnoticed).2.resolve_left (by decide)

/-- A block that holds one transaction. -/
def lone : Block String :=
  linked ⟨1, 23⟩ 1 "predecessor" [Transaction.original]

theorem validate_lone : lone.validate = .ok () := by
  unfold lone
  rw [validate_linked_iff]
  exact ⟨by decide, by decide, List.cons_ne_nil _ _, List.forall_mem_singleton.mpr rfl⟩

/-- A replacement of a transaction is noticed by validation, or something that is hashed for one of
the two trees collides. -/
def Noticed (block : Block String) (position : Nat) (tx : Transaction String) : Prop :=
  (∃ cause, (block.replace position tx).validate = .error cause) ∨
    CollideAmong (Merkle.inputs block.leaves ++ Merkle.inputs (block.replace position tx).leaves)
      (Merkle.inputs block.leaves ++ Merkle.inputs (block.replace position tx).leaves)

/-- In a block of one transaction, one with the same canonical text is not noticed. -/
theorem not_noticed_lone {tx : Transaction String} (htx : tx.validate = .ok ())
    (hcanonical : tx.canonical = Transaction.original.canonical) : ¬ lone.Noticed 0 tx := by
  have hleaves : lone.leaves = [Transaction.original.canonical] := rfl
  have hreplaced : (lone.replace 0 tx).leaves = [Transaction.original.canonical] := by
    rw [leaves_replace, hleaves, hcanonical]
    rfl
  have hinputs (text : String) : Merkle.inputs [text] = [Bytes.ofText text] := by
    simp [Merkle.inputs, Merkle.inputsAbove]
  rintro (⟨cause, hcause⟩ | ⟨a, ha, b, hb, hdiffer, _⟩)
  · have hthere : lone.transactions[0]? = some Transaction.original := rfl
    have hroot := computedRoot_replace_of_canonical_eq hthere hcanonical
    have hvalid := (validate_replace_iff validate_lone (by decide)).mpr ⟨htx, hroot⟩
    rw [hvalid] at hcause
    cases hcause
  · rw [hleaves, hreplaced, hinputs] at ha hb
    simp only [List.cons_append, List.nil_append, List.mem_cons, List.not_mem_nil, or_false,
      or_self] at ha hb
    exact hdiffer (ha.trans hb.symm)

/-- A replaced transaction is not always noticed, neither if its signature may change nor if it has
to stay. -/
theorem not_always_noticed :
    (¬ ∀ (block : Block String) (position : Nat) (old tx : Transaction String),
      block.validate = .ok () → block.transactions[position]? = some old → tx ≠ old →
        block.Noticed position tx) ∧
    ¬ ∀ (block : Block String) (position : Nat) (old tx : Transaction String),
      block.validate = .ok () → block.transactions[position]? = some old → tx ≠ old →
        tx.signature = old.signature → block.Noticed position tx := by
  have hthere : lone.transactions[0]? = some Transaction.original := rfl
  constructor
  · intro hnoticed
    have hvalid : countersigned.validate = .ok () := rfl
    have hchanged : countersigned ≠ Transaction.original := by decide
    exact not_noticed_lone hvalid rfl (hnoticed _ _ _ _ validate_lone hthere hchanged)
  · intro hnoticed
    have hvalid : Transaction.shifted.validate = .ok () := rfl
    have hchanged : Transaction.shifted ≠ Transaction.original := by decide
    exact not_noticed_lone hvalid Transaction.canonical_shifted.symm
      (hnoticed _ _ _ _ validate_lone hthere hchanged rfl)

end AuthorityLedger.Block
