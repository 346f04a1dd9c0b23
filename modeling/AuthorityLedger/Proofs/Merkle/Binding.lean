import AuthorityLedger.Proofs.Merkle.Paths

/-!
# What a Merkle root commits to

Every leaf of a tree has a proof, which verifies (`MerkleTree.every_leaf_proves`).
Whoever replays it hashes the text of the leaf and then a pair of nodes for each
entry (`openingInputs`), all of which the tree has hashed as well.

Nothing else verifies at the position with as many entries, unless what is
hashed collides (`MerkleTree.proof_binds`).  Trees of equally many leaves are of
the same depth, so that under one root the proofs at any position meet
(`exists_openings`): they prove the same text, or there is a collision on the
two ways up from there.  A change of some leaves therefore shows at each of them
(`MerkleTree.root_pins_leaves`).
-/

namespace AuthorityLedger

namespace MerkleTree

open Merkle

/-- The lowest level holds the digests of the leaves. -/
theorem leafCount_ofLeaves (leaves : List String) : (ofLeaves leaves).leafCount = leaves.length := by
  cases leaves with
  | nil => rfl
  | cons first rest =>
      have hlowest (fuel : Nat) (level : List String) :
          (levelsFrom fuel level).headD [] = level := by
        cases fuel with
        | zero => rfl
        | succ fuel =>
            rw [levelsFrom]
            split <;> rfl
      unfold leafCount ofLeaves
      rw [hlowest, List.length_map]

end MerkleTree

namespace Merkle

open MerkleTree

/-! ## From a level to the root -/

/-- **The siblings of a position lead to the root.** -/
theorem climb_siblings {fuel : Nat} {level : List String} {index : Nat} {own : String}
    (hfuel : level.length ≤ fuel + 1) (hown : level[index]? = some own) :
    ∃ path, siblings (levelsFrom fuel level) index = some path ∧
      climb own index path = (⟨levelsFrom fuel level⟩ : MerkleTree).root := by
  obtain ⟨path, hpath, hup⟩ := exists_leadsTo_of_getElem? hfuel hown
  exact ⟨path, hpath, hup.root⟩

/-- **What meets the root is the siblings of the position**, from the node of the tree, unless what
was hashed on the way collides with what the tree hashed.  The entries of the proof may be any
texts, as long as there is one for each level. -/
theorem eq_siblings_or_collideAmong {fuel : Nat} {level : List String} {index : Nat}
    {node own : String} {proof path : List String} (hfuel : level.length ≤ fuel + 1)
    (hwide : Wide level) (hown : level[index]? = some own) (hnode : node.length = 64)
    (hpath : siblings (levelsFrom fuel level) index = some path)
    (hcount : proof.length = path.length)
    (hroot : climb node index proof = (⟨levelsFrom fuel level⟩ : MerkleTree).root) :
    (node = own ∧ proof = path) ∨
      CollideAmong (inputsAbove fuel level) (climbInputs node index proof) := by
  obtain ⟨path', hpath', hup⟩ := exists_leadsTo_of_getElem? hfuel hown
  obtain rfl : path' = path := Option.some.inj (hpath'.symm.trans hpath)
  have hwidth : own.length = 64 := hwide own (List.mem_of_getElem? hown)
  have hmeet : climb own index path' = climb node index proof := hup.root.trans hroot.symm
  rcases eq_or_collideAmong_of_climb_eq hwidth hnode hcount.symm hmeet with ⟨rfl, rfl⟩ | hcollide
  · exact Or.inl ⟨rfl, rfl⟩
  · exact Or.inr (hcollide.mono hup.inputs (List.Subset.refl _))

/-! ## Between a leaf and the root -/

/-- An index leads to a leaf with a proof, and a replay of the index along the proof meets the root,
hashing what the tree has hashed. -/
theorem exists_opening {leaves : List String} (index : Nat) (hsome : leaves ≠ []) :
    ∃ text path, leaves[place (ofLeaves leaves).depth leaves.length index]? = some text ∧
      (ofLeaves leaves).proof (place (ofLeaves leaves).depth leaves.length index) = some path ∧
      path.length = (ofLeaves leaves).depth ∧
      climb (leaf text) index path = (ofLeaves leaves).root ∧
      openingInputs text index path ⊆ inputs leaves := by
  have htree := ofLeaves_eq hsome
  have hlowest : leaves.map leaf ≠ [] := by simpa using hsome
  have hfuel : (leaves.map leaf).length ≤ leaves.length + 1 := by simp
  obtain ⟨own, path, hup⟩ := exists_leadsTo index hlowest hfuel
  have hnode := hup.node
  rw [← htree, List.length_map, List.getElem?_map, Option.map_eq_some_iff] at hnode
  obtain ⟨text, htext, rfl⟩ := hnode
  have hpath := hup.siblings
  rw [← htree, List.length_map] at hpath
  refine ⟨text, path, htext, ?_, ?_, ?_, ?_⟩
  · rw [proof, leafCount_ofLeaves, if_pos (place_lt _ _ (List.length_pos_iff.mpr hsome)), ← hpath, htree]
  · rw [hup.count, htree]
  · rw [hup.root, htree]
  · refine List.cons_subset.mpr ⟨?_, ?_⟩
    · exact List.mem_append_left _ (List.mem_map_of_mem (List.mem_of_getElem? htext))
    · exact List.subset_append_of_subset_right _ hup.inputs

/-- Every leaf has a proof, whose replay meets the root and hashes what the tree has hashed. -/
theorem exists_proof {leaves : List String} {index : Nat} {text : String}
    (h : leaves[index]? = some text) :
    ∃ path, (ofLeaves leaves).proof index = some path ∧
      path.length = (ofLeaves leaves).depth ∧
      climb (leaf text) index path = (ofLeaves leaves).root ∧
      openingInputs text index path ⊆ inputs leaves := by
  have hindex : index < leaves.length := (List.getElem?_eq_some_iff.mp h).1
  have hsome : leaves ≠ [] := List.ne_nil_of_length_pos (Nat.zero_lt_of_lt hindex)
  have hfuel : (leaves.map leaf).length ≤ leaves.length + 1 := by simp
  have hplace : place (ofLeaves leaves).depth leaves.length index = index := by
    have hown := place_eq_self hfuel (by simpa using hindex : index < (leaves.map leaf).length)
    rwa [← ofLeaves_eq hsome, List.length_map] at hown
  obtain ⟨other, path, hother, hpath, hpathway⟩ := exists_opening index hsome
  rw [hplace] at hother hpath
  obtain rfl : other = text := Option.some.inj (hother.symm.trans h)
  exact ⟨path, hpath, hpathway⟩

/-- A proof verifies exactly if its replay meets the root, for a tree with leaves has a root. -/
theorem verifyProof_root_iff {leaves : List String} {text : String} {index : Nat}
    {proof : List String} (hsome : leaves ≠ []) :
    Merkle.verifyProof (ofLeaves leaves).root text index proof = true ↔
      climb (leaf text) index proof = (ofLeaves leaves).root := by
  have hroot : (ofLeaves leaves).root ≠ "" := (ne_merkleRoot_of_length hsome (by decide)).symm
  simp [Merkle.verifyProof, hroot]

/-- A tree with leaves verifies what verifies against its root. -/
theorem verifyProof_ofLeaves {leaves : List String} (hsome : leaves ≠ []) (text : String)
    (index : Nat) (proof : List String) :
    (ofLeaves leaves).verifyProof text index proof =
      Merkle.verifyProof (ofLeaves leaves).root text index proof := by
  have hroot : (ofLeaves leaves).hasRoot = true := by
    simp [hasRoot, (built_ofLeaves hsome).ne_nil]
  rw [MerkleTree.verifyProof, hroot, Bool.true_and]

/-- **Equally many leaves have proofs of the same length**, and under one root those at a position
prove the same text, unless what is hashed to replay the two collides. -/
theorem exists_openings {leaves others : List String} {index : Nat} {text other : String}
    (hcount : leaves.length = others.length) (htext : leaves[index]? = some text)
    (hother : others[index]? = some other) :
    ∃ path path', (ofLeaves leaves).proof index = some path ∧
      (ofLeaves others).proof index = some path' ∧
      openingInputs text index path ⊆ inputs leaves ∧
      openingInputs other index path' ⊆ inputs others ∧
      (merkleRoot leaves = merkleRoot others → text = other ∨
        CollideAmong (openingInputs text index path) (openingInputs other index path')) := by
  obtain ⟨path, hpath, hlength, hroot, hinputs⟩ := exists_proof htext
  obtain ⟨path', hpath', hlength', hroot', hinputs'⟩ := exists_proof hother
  refine ⟨path, path', hpath, hpath', hinputs, hinputs', ?_⟩
  intro hsame
  have hcounts : path.length = path'.length := by
    rw [hlength, hlength', depth_eq_of_length_eq hcount]
  have hmeet : climb (leaf text) index path = climb (leaf other) index path' :=
    hroot.trans (hsame.trans hroot'.symm)
  rcases eq_or_collideAmong_of_climb_eq (length_digestText _) (length_digestText _) hcounts hmeet with
    ⟨hleaf, _⟩ | hcollide
  · rcases digestText_eq_iff.mp hleaf with htexts | hcollide
    · exact Or.inl (Bytes.ofText_inj.mp htexts)
    · exact Or.inr ⟨_, List.mem_cons_self, _, List.mem_cons_self, hcollide⟩
  · exact Or.inr (hcollide.mono (List.subset_cons_self _ _) (List.subset_cons_self _ _))

/-- **A root commits to the leaves.**  Equally many leaves with one root are the same leaves, unless
there is a collision among what is hashed to build the two trees. -/
theorem eq_or_collideAmong_of_merkleRoot_eq {leaves others : List String}
    (hcount : leaves.length = others.length) (h : merkleRoot leaves = merkleRoot others) :
    leaves = others ∨ CollideAmong (inputs leaves) (inputs others) := by
  by_cases hcollide : CollideAmong (inputs leaves) (inputs others)
  · exact Or.inr hcollide
  · left
    refine List.ext_getElem hcount ?_
    intro index hindex hindex'
    obtain ⟨path, path', _, _, hinputs, hinputs', hsame⟩ := exists_openings hcount
      (List.getElem?_eq_getElem hindex) (List.getElem?_eq_getElem hindex')
    rcases hsame h with htexts | hfound
    · exact htexts
    · exact absurd (hfound.mono hinputs hinputs') hcollide

end Merkle

namespace MerkleTree

open Merkle

/-- **A proof binds the leaf and the path.**  A tree has a proof of each of its leaves, and that one
verifies.  Any other text, and any other texts in the place of the proof, as many as the proof has
entries, verify at the same position only with a collision between what was hashed to build the tree
and what was hashed to verify. -/
theorem proof_binds {leaves : List String} {index : Nat} (h : index < leaves.length) :
    ∃ path, (ofLeaves leaves).proof index = some path ∧
      Merkle.verifyProof (ofLeaves leaves).root leaves[index] index path = true ∧
      ∀ text proof, proof.length = path.length →
        Merkle.verifyProof (ofLeaves leaves).root text index proof = true →
          (text = leaves[index] ∧ proof = path) ∨
            CollideAmong (inputs leaves) (openingInputs text index proof) := by
  have hsome : leaves ≠ [] := List.ne_nil_of_length_pos (Nat.zero_lt_of_lt h)
  have htree : ofLeaves leaves = ⟨levelsFrom leaves.length (leaves.map leaf)⟩ := by
    cases leaves with
    | nil => exact absurd rfl hsome
    | cons first rest => rfl
  have hwide := wide_map_leaf leaves
  have hfuel : (leaves.map leaf).length ≤ leaves.length + 1 := by simp
  have hown : (leaves.map leaf)[index]? = some (leaf leaves[index]) := by simp [h]
  have hroot : (ofLeaves leaves).root ≠ "" := (ne_merkleRoot_of_length hsome (by decide)).symm
  obtain ⟨path, hpath, hclimb⟩ := climb_siblings hfuel hown
  rw [← htree] at hclimb
  refine ⟨path, ?_, ?_, ?_⟩
  · rw [proof, leafCount_ofLeaves, if_pos h, htree]
    exact hpath
  · simp [Merkle.verifyProof, hroot, hclimb]
  · intro text proof hcount hverify
    have hmeets : climb (leaf text) index proof = (ofLeaves leaves).root := by
      simpa [Merkle.verifyProof, hroot] using hverify
    rw [htree] at hmeets
    unfold inputs openingInputs
    rcases eq_siblings_or_collideAmong hfuel hwide hown (length_digestText _) hpath hcount hmeets with
      ⟨hleaf, hsame⟩ | hcollide
    · rcases digestText_eq_iff.mp hleaf with htext | hcollide
      · exact Or.inl ⟨Bytes.ofText_inj.mp htext, hsame⟩
      · right
        refine ⟨Bytes.ofText leaves[index], ?_, _, List.mem_cons_self,
          hcollide.1.symm, hcollide.2.symm⟩
        exact List.mem_append_left _ (List.mem_map_of_mem (List.getElem_mem h))
    · exact Or.inr (hcollide.mono (List.subset_append_right _ _) (List.subset_cons_self _ _))

/-- The last of three leaves is its own sibling.  Two texts of any kind in the place of its proof
verify only if they are the proof, or with a collision. -/
theorem proof_binds_unpaired :
    2 < ["a", "b", "c"].length ∧
      (ofLeaves ["a", "b", "c"]).proof 2 = some [leaf "c", combine (leaf "a") (leaf "b")] ∧
        ∀ text first second,
          Merkle.verifyProof (ofLeaves ["a", "b", "c"]).root text 2 [first, second] = true →
            (text = "c" ∧ [first, second] = [leaf "c", combine (leaf "a") (leaf "b")]) ∨
              CollideAmong (inputs ["a", "b", "c"]) (openingInputs text 2 [first, second]) := by
  have hin : 2 < ["a", "b", "c"].length := by decide
  have hproof : (ofLeaves ["a", "b", "c"]).proof 2 =
      some [leaf "c", combine (leaf "a") (leaf "b")] := rfl
  obtain ⟨path, hpath, _, hbinds⟩ := proof_binds hin
  obtain rfl := Option.some.inj (hproof.symm.trans hpath)
  refine ⟨hin, hproof, ?_⟩
  intro text first second
  exact hbinds text [first, second] (by simp only [List.length_cons])

/-- **Every leaf has a proof that verifies.**  Building a tree comes to an end; there is a proof for
each position among the leaves and for nothing else; it has as many entries as the least power of two
that has room for the leaves; it verifies, against the root and by the tree itself; and while it is
read off, the position, halved once for each level, stays within the level. -/
theorem every_leaf_proves (leaves : List String) :
    (leaves = [] ∧ (ofLeaves leaves).levels = [] ∨
        Built (leaves.map leaf) (ofLeaves leaves).levels) ∧
      (∀ index, ((ofLeaves leaves).proof index).isSome = true ↔ index < leaves.length) ∧
      ∀ index text, leaves[index]? = some text →
        (∀ height level, (ofLeaves leaves).levels[height]? = some level →
          index / 2 ^ height < level.length) ∧
        ∃ path, (ofLeaves leaves).proof index = some path ∧
          IsLeast {d | leaves.length ≤ 2 ^ d} path.length ∧
          Merkle.verifyProof (ofLeaves leaves).root text index path = true ∧
          (ofLeaves leaves).verifyProof text index path = true := by
  refine ⟨?_, ?_, ?_⟩
  · by_cases hnone : leaves = []
    · exact Or.inl ⟨hnone, by rw [hnone]; rfl⟩
    · exact Or.inr (built_ofLeaves hnone)
  · intro index
    constructor
    · intro hthere
      by_contra hbeyond
      rw [proof, leafCount_ofLeaves, if_neg hbeyond] at hthere
      cases hthere
    · intro hindex
      obtain ⟨path, hpath, _⟩ := exists_proof (List.getElem?_eq_getElem hindex)
      rw [hpath]
      rfl
  · intro index text htext
    have hindex : index < leaves.length := (List.getElem?_eq_some_iff.mp htext).1
    have hsome : leaves ≠ [] := List.ne_nil_of_length_pos (Nat.zero_lt_of_lt hindex)
    constructor
    · intro height level hlevel
      exact (built_ofLeaves hsome).div_lt_length (by simpa using hindex) hlevel
    · obtain ⟨path, hpath, hcount, hroot, _⟩ := exists_proof htext
      refine ⟨path, hpath, hcount ▸ isLeast_depth_ofLeaves hsome,
        (verifyProof_root_iff hsome).mpr hroot, ?_⟩
      rw [verifyProof_ofLeaves hsome]
      exact (verifyProof_root_iff hsome).mpr hroot

/-- The last of five leaves has no sibling on two levels. -/
theorem every_leaf_proves_alone :
    let leaves := ["a", "b", "c", "d", "e"]
    leaves[4]? = some "e" ∧ (∀ height level, (ofLeaves leaves).levels[height]? = some level →
        4 / 2 ^ height < level.length) ∧
      ∃ path, (ofLeaves leaves).proof 4 = some path ∧ IsLeast {d | 5 ≤ 2 ^ d} path.length ∧
        (ofLeaves leaves).verifyProof "e" 4 path = true := by
  intro leaves
  obtain ⟨_, _, hproves⟩ := every_leaf_proves leaves
  obtain ⟨hwithin, path, hpath, hcount, _, hverified⟩ := hproves 4 "e" rfl
  exact ⟨rfl, hwithin, path, hpath, hcount, hverified⟩

/-- **A root pins the leaves.**  Equally many leaves with one root are the same leaves, unless what is
hashed to build the two trees collides.  What is more, a change of some leaves shows at each of them:
the roots differ, or what is hashed on the two ways up from there collides. -/
theorem root_pins_leaves {leaves others : List String} (hcount : leaves.length = others.length) :
    (merkleRoot leaves = merkleRoot others →
        leaves = others ∨ CollideAmong (inputs leaves) (inputs others)) ∧
      ∀ (index : Nat) (text other : String), leaves[index]? = some text →
        others[index]? = some other → text ≠ other →
          ∃ path path', (ofLeaves leaves).proof index = some path ∧
            (ofLeaves others).proof index = some path' ∧
            openingInputs text index path ⊆ inputs leaves ∧
            openingInputs other index path' ⊆ inputs others ∧
            (merkleRoot leaves ≠ merkleRoot others ∨
              CollideAmong (openingInputs text index path) (openingInputs other index path')) := by
  refine ⟨eq_or_collideAmong_of_merkleRoot_eq hcount, ?_⟩
  intro index text other htext hother hne
  obtain ⟨path, path', hpath, hpath', hinputs, hinputs', hsame⟩ :=
    exists_openings hcount htext hother
  refine ⟨path, path', hpath, hpath', hinputs, hinputs', ?_⟩
  by_cases hroots : merkleRoot leaves = merkleRoot others
  · exact Or.inr ((hsame hroots).resolve_left hne)
  · exact Or.inl hroots

/-- Two leaves that have changed their places show that they have. -/
theorem root_pins_leaves_swapped :
    ["a", "b", "c"].length = ["a", "c", "b"].length ∧
      ∃ path path', (ofLeaves ["a", "b", "c"]).proof 1 = some path ∧
        (ofLeaves ["a", "c", "b"]).proof 1 = some path' ∧
        (merkleRoot ["a", "b", "c"] ≠ merkleRoot ["a", "c", "b"] ∨
          CollideAmong (openingInputs "b" 1 path) (openingInputs "c" 1 path')) := by
  have hcount : ["a", "b", "c"].length = ["a", "c", "b"].length := rfl
  obtain ⟨path, path', hpath, hpath', _, _, hshown⟩ :=
    (root_pins_leaves hcount).2 1 "b" "c" rfl rfl (by decide)
  exact ⟨hcount, path, path', hpath, hpath', hshown⟩

end MerkleTree

end AuthorityLedger
