import AuthorityLedger.Proofs.Block.Replacement
import AuthorityLedger.Proofs.Chain.History

/-!
# Which transactions a root commits to

To verify a transaction of a block, its tree is built again and the proof of the
transaction is replayed against the stored root.  Since every leaf has a proof
that meets the root of its tree, what decides is whether the stored root is that
root: if it is, all positions of the block verify, and if it is not, none does
(`Block.verifyTransaction_iff`).

In a valid chain every stored root is the recomputed one, so just the positions
that there are verify.  Where a block is altered so that its root and its
transactions disagree, all of its positions fail, and those of no other block
(`Chain.verifies_iff_genuine`).
-/

namespace AuthorityLedger

variable {α : Type} [Payload α]

namespace Block

/-- **A transaction verifies in its block exactly when the stored root is genuine.** -/
theorem verifyTransaction_iff {block : Block α} {position : Nat} :
    block.verifyTransaction position = true ↔
      position < block.transactions.length ∧ block.merkleRoot = block.computedRoot := by
  unfold verifyTransaction
  cases hthere : block.transactions[position]? with
  | none =>
      have hbeyond : ¬ position < block.transactions.length :=
        Nat.not_lt.mpr (List.getElem?_eq_none_iff.mp hthere)
      simp [hbeyond]
  | some tx =>
      have hposition : position < block.transactions.length :=
        (List.getElem?_eq_some_iff.mp hthere).1
      have hleaf := getElem?_leaves hthere
      have hsome : block.leaves ≠ [] := List.ne_nil_of_mem (List.mem_of_getElem? hleaf)
      obtain ⟨path, hpath, _, hroot, _⟩ := Merkle.exists_proof hleaf
      have hproof : block.merkleProof position = some path := hpath
      have hverified : Merkle.verifyProof block.computedRoot tx.canonical position path = true :=
        (Merkle.verifyProof_root_iff hsome).mpr hroot
      rw [hproof]
      dsimp only
      rw [Bool.and_eq_true, beq_iff_eq]
      constructor
      · intro h
        exact ⟨hposition, h.1.symm⟩
      · intro h
        exact ⟨h.2.symm, h.2 ▸ hverified⟩

/-- Under a root that is not genuine, no transaction verifies. -/
theorem verifyTransaction_of_forged {block : Block α}
    (h : block.merkleRoot ≠ block.computedRoot) (position : Nat) :
    block.verifyTransaction position = false := by
  rw [Bool.eq_false_iff]
  intro hverified
  exact h (verifyTransaction_iff.mp hverified).2

end Block

namespace Chain

/-- A position verifies in a chain if it does so in a block that is there. -/
theorem verifyTransaction_iff_exists {chain : Chain α} {index position : Nat} :
    chain.verifyTransaction index position = true ↔
      ∃ block, chain.blocks[index]? = some block ∧ block.verifyTransaction position = true :=
  Option.any_eq_true _ _

/-- **In a valid chain the positions that there are verify**, and no others. -/
theorem verifyTransaction_iff_of_validate {chain : Chain α} (h : chain.validate = .ok ())
    {index position : Nat} :
    chain.verifyTransaction index position = true ↔
      ∃ hindex : index < chain.blocks.length,
        position < chain.blocks[index].transactions.length := by
  rw [verifyTransaction_iff_exists]
  constructor
  · intro hverified
    obtain ⟨block, hblock, hposition⟩ := hverified
    obtain ⟨hindex, rfl⟩ := List.getElem?_eq_some_iff.mp hblock
    exact ⟨hindex, (Block.verifyTransaction_iff.mp hposition).1⟩
  · intro hthere
    obtain ⟨hindex, hposition⟩ := hthere
    have hblock := List.getElem?_eq_getElem hindex
    obtain ⟨_, hvalid⟩ := place_of_validate h hblock
    obtain ⟨_, _, _, _, hroot, _⟩ := (Block.validate_eq_ok_iff _).mp hvalid
    exact ⟨_, hblock, Block.verifyTransaction_iff.mpr ⟨hposition, hroot.symm⟩⟩

/-- **A transaction verifies exactly when the root over it is genuine.**

* In any block, valid or not, a position verifies exactly if it is one of the block and the stored
  root is the one that is recomputed from the transactions.
* In a valid chain, therefore, a position of a block verifies exactly if there is such a block and it
  has the position.
* If a block of such a chain is altered, in its transactions or in its root or in both, so that the
  two disagree, it fails at every position; in all other blocks the same verifies as before. -/
theorem verifies_iff_genuine :
    (∀ (block : Block α) (position : Nat), block.verifyTransaction position = true ↔
      position < block.transactions.length ∧ block.merkleRoot = block.computedRoot) ∧
    ∀ chain : Chain α, chain.validate = .ok () →
      (∀ index position, chain.verifyTransaction index position = true ↔
        ∃ hindex : index < chain.blocks.length,
          position < chain.blocks[index].transactions.length) ∧
      ∀ (changed : Chain α) (index : Nat) (altered : Block α),
        changed.blocks = chain.blocks.set index altered →
        altered.merkleRoot ≠ altered.computedRoot →
          (∀ position, changed.verifyTransaction index position = false) ∧
          ∀ other position, other ≠ index →
            changed.verifyTransaction other position = chain.verifyTransaction other position := by
  refine ⟨fun block position => Block.verifyTransaction_iff, ?_⟩
  intro chain hvalid
  refine ⟨fun index position => verifyTransaction_iff_of_validate hvalid, ?_⟩
  intro changed index altered hblocks hforged
  constructor
  · intro position
    rw [Bool.eq_false_iff]
    intro hverified
    obtain ⟨block, hblock, hposition⟩ := verifyTransaction_iff_exists.mp hverified
    rw [hblocks] at hblock
    obtain ⟨hindex, hsame⟩ := List.getElem?_eq_some_iff.mp hblock
    rw [List.getElem_set_self] at hsame
    rw [← hsame, Block.verifyTransaction_of_forged hforged] at hposition
    cases hposition
  · intro other position hother
    unfold verifyTransaction block?
    rw [hblocks, List.getElem?_set_ne hother.symm]

/-- The sapling with a root in its second block that does not belong to the notes there. -/
def forged : Chain String :=
  { sapling with later := sapling.later.map fun block => { block with merkleRoot := "forged" } }

/-- In the second block of the sapling the second of three positions verifies and the fourth does
not.  Under the forged root none does, and in the first block the same positions as before. -/
theorem verifies_iff_genuine_forged :
    sapling.validate = .ok () ∧ sapling.verifyTransaction 1 1 = true ∧
      sapling.verifyTransaction 1 3 ≠ true ∧
      ∃ altered, forged.blocks = sapling.blocks.set 1 altered ∧
        altered.merkleRoot ≠ altered.computedRoot ∧
        (∀ position, forged.verifyTransaction 1 position = false) ∧
        ∀ position, forged.verifyTransaction 0 position = sapling.verifyTransaction 0 position := by
  obtain ⟨hpositions, haltered⟩ := verifies_iff_genuine.2 sapling validate_sapling
  let altered : Block String := { sapling.blocks[1] with merkleRoot := "forged" }
  have hforged : forged.blocks = sapling.blocks.set 1 altered := rfl
  have hroot : altered.merkleRoot ≠ altered.computedRoot :=
    Merkle.ne_merkleRoot_of_length (List.cons_ne_nil _ _) (by decide)
  obtain ⟨hnone, hothers⟩ := haltered forged 1 altered hforged hroot
  refine ⟨validate_sapling, (hpositions 1 1).mpr ⟨by decide, by decide⟩, ?_, altered, hforged,
    hroot, hnone, fun position => hothers 0 position (by decide)⟩
  intro hbeyond
  obtain ⟨_, hposition⟩ := (hpositions 1 3).mp hbeyond
  have hcount : sapling.blocks[1].transactions.length = 3 := rfl
  rw [hcount] at hposition
  omega

end Chain

end AuthorityLedger
