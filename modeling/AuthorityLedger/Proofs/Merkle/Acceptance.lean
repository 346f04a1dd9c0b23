import AuthorityLedger.Proofs.Merkle.Binding

/-!
# What verifies

Whoever verifies a proof knows a root, and neither how many leaves are below it
nor how high it stands.  An index that is no position of a leaf still leads to a
leaf, and so the proof of that one verifies for it.  A proof with fewer entries
than the tree has levels verifies for the text of an inner node, which is two
digests put end to end, since leaves and inner nodes are hashed in the same way.
And a proof with more entries verifies if a leaf of the tree happens to be such
a text itself.

`Opens` names these three cases, and nothing else verifies without a collision
(`opens_of_verifyProof`).  Where the texts are too short to be taken for inner
nodes, only the first one is left, so that the proof has one entry for each
level and the text is the leaf to which the index leads.
-/

namespace AuthorityLedger

namespace Merkle

open MerkleTree

/-! ## Replays of any length -/

/-- A replay can be interrupted: it goes on with what is left of the index. -/
theorem climb_append (node : String) (index : Nat) (front back : List String) :
    climb node index (front ++ back) =
      climb (climb node index front) (index / 2 ^ front.length) back := by
  induction front generalizing node index with
  | nil => simp [climb]
  | cons entry front ih =>
      rw [List.cons_append, climb_cons, ih, climb_cons, List.length_cons, Nat.pow_succ',
        Nat.div_div_eq_div_mul]

theorem climbInputs_append (node : String) (index : Nat) (front back : List String) :
    climbInputs node index (front ++ back) =
      climbInputs node index front ++
        climbInputs (climb node index front) (index / 2 ^ front.length) back := by
  induction front generalizing node index with
  | nil => simp [climb, climbInputs]
  | cons entry front ih =>
      rw [List.cons_append, climbInputs, ih, climbInputs, climb_cons, List.length_cons,
        Nat.pow_succ', Nat.div_div_eq_div_mul, List.cons_append]

theorem length_climb {node : String} (hnode : node.length = 64) (index : Nat)
    (proof : List String) : (climb node index proof).length = 64 := by
  induction proof generalizing node index with
  | nil => exact hnode
  | cons entry proof ih =>
      rw [climb_cons]
      exact ih (length_digestText _) _

/-- A message with the digest of one in a list is that one, or the two collide. -/
theorem getElem?_or_collide {messages : List Bytes} {message : Bytes} {position : Nat}
    (h : (messages.map digestText)[position]? = some (digestText message)) :
    messages[position]? = some message ∨ ∃ other ∈ messages, Collide other message := by
  rw [List.getElem?_map, Option.map_eq_some_iff] at h
  obtain ⟨other, hother, hdigest⟩ := h
  rcases digestText_eq_iff.mp hdigest with rfl | hcollide
  · exact Or.inl hother
  · exact Or.inr ⟨other, List.mem_of_getElem? hother, hcollide⟩

/-! ## Levels in the middle of a tree -/

/-- The levels above one of the levels of a tree are those that are built over its parents, under the
same root. -/
structure LevelsAbove (fuel : Nat) (level : List String) (height : Nat) (lower : List String)
    (above : Nat) : Prop where
  some : parents lower ≠ []
  bound : (parents lower).length ≤ above + 1
  drop : (levelsFrom fuel level).drop (height + 1) = levelsFrom above (parents lower)
  depth : (⟨levelsFrom fuel level⟩ : MerkleTree).depth =
    height + 1 + (⟨levelsFrom above (parents lower)⟩ : MerkleTree).depth
  root : (⟨levelsFrom above (parents lower)⟩ : MerkleTree).root =
    (⟨levelsFrom fuel level⟩ : MerkleTree).root
  inputs : parentInputs lower ++ inputsAbove above (parents lower) ⊆ inputsAbove fuel level

theorem exists_levelsAbove {fuel : Nat} {level lower : List String} {height : Nat}
    (hfuel : level.length ≤ fuel + 1) (hlower : (levelsFrom fuel level)[height]? = some lower)
    (hmore : height < (⟨levelsFrom fuel level⟩ : MerkleTree).depth) :
    ∃ above, LevelsAbove fuel level height lower above := by
  induction fuel generalizing level height with
  | zero =>
      rw [depth_levelsFrom_of_length_le hfuel] at hmore
      cases hmore
  | succ fuel ih =>
      by_cases hone : level.length ≤ 1
      · rw [depth_levelsFrom_of_length_le hone] at hmore
        cases hmore
      · have hdepth := depth_levelsFrom_succ fuel hone
        have hbound : (parents level).length ≤ fuel + 1 := by
          rw [length_parents]
          omega
        rw [levelsFrom, if_neg hone] at hlower
        cases height with
        | zero =>
            obtain rfl := Option.some.inj hlower
            refine ⟨fuel, ?_, hbound, ?_, ?_, ?_, ?_⟩
            · exact parents_ne_nil (List.ne_nil_of_length_pos (by omega))
            · rw [levelsFrom, if_neg hone]
              rfl
            · omega
            · rw [root_levelsFrom_succ hone]
            · rw [inputsAbove, if_neg hone]
              exact List.Subset.refl _
        | succ height =>
            rw [List.getElem?_cons_succ] at hlower
            obtain ⟨above, hsome, hfits, hdrop, hlevels, hroot, hinputs⟩ :=
              ih hbound hlower (by omega)
            refine ⟨above, hsome, hfits, ?_, ?_, ?_, ?_⟩
            · rw [levelsFrom, if_neg hone, List.drop_succ_cons, hdrop]
            · omega
            · rw [root_levelsFrom_succ hone, hroot]
            · rw [inputsAbove, if_neg hone]
              exact List.subset_append_of_subset_right _ hinputs

/-- What is hashed above a level is two of its nodes put end to end. -/
theorem exists_pair_of_mem_parentInputs {level : List String} {message : Bytes}
    (h : message ∈ parentInputs level) :
    ∃ left ∈ level, ∃ right ∈ level, message = Bytes.ofText (left ++ right) := by
  induction level using parents.induct with
  | case1 left right rest ih =>
      rcases List.mem_cons.mp h with rfl | hrest
      · exact ⟨left, by simp, right, by simp, (Bytes.ofText_append _ _).symm⟩
      · obtain ⟨left', hleft, right', hright, hmessage⟩ := ih hrest
        exact ⟨left', by simp [hleft], right', by simp [hright], hmessage⟩
  | case2 single =>
      obtain rfl := List.mem_singleton.mp h
      exact ⟨single, by simp, single, by simp, (Bytes.ofText_append _ _).symm⟩
  | case3 => cases h

/-! ## The three cases -/

/-- What a proof that verifies tells of the tree. -/
inductive Opens (leaves : List String) (text : String) (index : Nat) (proof : List String) : Prop
  /-- The text is the leaf to which the index leads, and the proof is the one of that leaf. -/
  | full :
      proof.length = (ofLeaves leaves).depth →
      leaves[place (ofLeaves leaves).depth leaves.length index]? = some text →
      (ofLeaves leaves).proof (place (ofLeaves leaves).depth leaves.length index) = some proof →
      Opens leaves text index proof
  /-- The text is what is hashed for an inner node, and the proof leads on from there. -/
  | short {height : Nat} {lower : List String} :
      height + 1 + proof.length = (ofLeaves leaves).depth →
      (ofLeaves leaves).levels[height]? = some lower →
      (parentInputs lower)[place proof.length (parents lower).length index]? =
        some (Bytes.ofText text) →
      siblings ((ofLeaves leaves).levels.drop (height + 1))
        (place proof.length (parents lower).length index) = some proof →
      Opens leaves text index proof
  /-- A leaf of the tree is what is hashed while the proof is replayed, and what is left of the proof
  is the one of that leaf. -/
  | long {front back : List String} {entry whole : String} :
      proof = front ++ entry :: back →
      back.length = (ofLeaves leaves).depth →
      Bytes.ofText whole =
        pairInput (climb (leaf text) index front) (index / 2 ^ front.length) entry →
      leaves[place (ofLeaves leaves).depth leaves.length (index / 2 ^ front.length / 2)]? =
        some whole →
      (ofLeaves leaves).proof
        (place (ofLeaves leaves).depth leaves.length (index / 2 ^ front.length / 2)) = some back →
      Opens leaves text index proof

section Meeting

variable {leaves : List String} {text : String} {index : Nat} {proof : List String}

/-- A replay from a digest, with an entry for each level, comes from a leaf with that digest. -/
theorem exists_leaf_or_collideAmong {message : Bytes} (hsome : leaves ≠ [])
    (hcount : proof.length = (ofLeaves leaves).depth)
    (hroot : climb (digestText message) index proof = (ofLeaves leaves).root) :
    (∃ whole, Bytes.ofText whole = message ∧
        leaves[place (ofLeaves leaves).depth leaves.length index]? = some whole ∧
        (ofLeaves leaves).proof (place (ofLeaves leaves).depth leaves.length index) =
          some proof) ∨
      CollideAmong (inputs leaves) (message :: climbInputs (digestText message) index proof) := by
  have htree := ofLeaves_eq hsome
  rw [htree] at hcount hroot
  rcases place_or_collideAmong (by simpa using hsome) (by simp) (wide_map_leaf leaves)
      (length_digestText message) hcount hroot with hup | hcollide
  · have hnode := hup.node
    have hpath := hup.siblings
    rw [← htree, List.length_map] at hnode hpath
    rw [map_leaf_eq_map_digestText] at hnode
    rcases getElem?_or_collide hnode with hmessage | ⟨other, hother, hcollide⟩
    · rw [List.getElem?_map, Option.map_eq_some_iff] at hmessage
      obtain ⟨whole, hwhole, hsame⟩ := hmessage
      refine Or.inl ⟨whole, hsame, hwhole, ?_⟩
      have hplace := place_lt (ofLeaves leaves).depth index (List.length_pos_iff.mpr hsome)
      rw [MerkleTree.proof, leafCount_ofLeaves, if_pos hplace, ← hpath, htree]
    · exact Or.inr ⟨other, List.mem_append_left _ hother, message, List.mem_cons_self, hcollide⟩
  · exact Or.inr (hcollide.mono (List.subset_append_right _ _) (List.subset_cons_self _ _))

/-- A replay with fewer entries than there are levels comes from an inner node. -/
theorem opens_short_or_collideAmong (hsome : leaves ≠ [])
    (hcount : proof.length < (ofLeaves leaves).depth)
    (hroot : climb (leaf text) index proof = (ofLeaves leaves).root) :
    Opens leaves text index proof ∨
      CollideAmong (inputs leaves) (openingInputs text index proof) := by
  have htree := ofLeaves_eq hsome
  obtain ⟨height, hheight⟩ : ∃ height, height + 1 + proof.length = (ofLeaves leaves).depth :=
    ⟨(ofLeaves leaves).depth - proof.length - 1, by omega⟩
  have hthere : height < (ofLeaves leaves).levels.length := by
    unfold depth at hheight
    omega
  have hlower := List.getElem?_eq_getElem hthere
  set lower := (ofLeaves leaves).levels[height]
  rw [htree] at hlower hheight hroot
  obtain ⟨above, hlevels⟩ := exists_levelsAbove (by simp) hlower (by omega)
  have hwide : Wide (parents lower) := wide_parents lower
  have hdepth : proof.length = (⟨levelsFrom above (parents lower)⟩ : MerkleTree).depth := by
    have hsum := hlevels.depth
    omega
  rw [← hlevels.root] at hroot
  have hinputs : inputsAbove above (parents lower) ⊆ inputs leaves :=
    List.Subset.trans (List.subset_append_right _ _)
      (List.subset_append_of_subset_right _ hlevels.inputs)
  rcases place_or_collideAmong hlevels.some hlevels.bound hwide (length_digestText _) hdepth hroot with
    hup | hcollide
  · have hnode := hup.node
    have hpath := hup.siblings
    rw [← hdepth] at hnode hpath
    rw [← hlevels.drop] at hpath
    nth_rewrite 1 [parents_eq_map_digestText] at hnode
    rcases getElem?_or_collide hnode with hmessage | ⟨other, hother, hcollide⟩
    · rw [← htree] at hheight hlower
      refine Or.inl (.short hheight hlower hmessage ?_)
      rw [htree, hpath]
    · refine Or.inr ⟨other, ?_, _, List.mem_cons_self, hcollide⟩
      exact List.mem_append_right _ (hlevels.inputs (List.mem_append_left _ hother))
  · exact Or.inr (hcollide.mono hinputs (List.subset_cons_self _ _))

/-- A replay with more entries than there are levels comes by a leaf. -/
theorem opens_long_or_collideAmong (hsome : leaves ≠ [])
    (hcount : (ofLeaves leaves).depth < proof.length)
    (hroot : climb (leaf text) index proof = (ofLeaves leaves).root) :
    Opens leaves text index proof ∨
      CollideAmong (inputs leaves) (openingInputs text index proof) := by
  obtain ⟨front, entry, back, rfl, hback⟩ : ∃ front entry back, proof = front ++ entry :: back ∧
      back.length = (ofLeaves leaves).depth := by
    have hcut : proof.length - (ofLeaves leaves).depth - 1 < proof.length := by omega
    have hsplit := List.take_append_drop (proof.length - (ofLeaves leaves).depth - 1) proof
    rw [List.drop_eq_getElem_cons hcut] at hsplit
    refine ⟨_, _, _, hsplit.symm, ?_⟩
    rw [List.length_drop]
    omega
  rw [climb_append, climb_cons] at hroot
  rcases exists_leaf_or_collideAmong hsome hback hroot with
    ⟨whole, hwhole, hthere, hproof⟩ | hcollide
  · exact Or.inl (.long rfl hback hwhole hthere hproof)
  · refine Or.inr (hcollide.mono (List.Subset.refl _) ?_)
    rw [openingInputs, climbInputs_append, climbInputs]
    exact List.subset_cons_of_subset _ (List.subset_append_right _ _)

/-- What opens a tree leads to its root. -/
theorem Opens.climb_eq_root (h : Opens leaves text index proof) (hsome : leaves ≠ []) :
    climb (leaf text) index proof = (ofLeaves leaves).root := by
  have hreplay {index : Nat} {text : String} {path : List String}
      (htext : leaves[place (ofLeaves leaves).depth leaves.length index]? = some text)
      (hpath : (ofLeaves leaves).proof (place (ofLeaves leaves).depth leaves.length index) =
        some path) : climb (leaf text) index path = (ofLeaves leaves).root := by
    obtain ⟨other, path', hother, hpath', _, hroot, _⟩ := exists_opening index hsome
    obtain rfl : other = text := Option.some.inj (hother.symm.trans htext)
    obtain rfl : path' = path := Option.some.inj (hpath'.symm.trans hpath)
    exact hroot
  cases h with
  | full _ htext hpath => exact hreplay htext hpath
  | @short height lower hheight hlower hmessage hpath =>
      have htree := ofLeaves_eq hsome
      rw [htree] at hheight hlower hpath ⊢
      obtain ⟨above, hlevels⟩ := exists_levelsAbove (by simp) hlower (by omega)
      have hdepth : proof.length = (⟨levelsFrom above (parents lower)⟩ : MerkleTree).depth := by
        have hsum := hlevels.depth
        omega
      obtain ⟨own, path, hup⟩ := exists_leadsTo index hlevels.some hlevels.bound
      have hnode := hup.node
      have hsame := hup.siblings
      rw [← hdepth] at hnode hsame
      rw [← hlevels.drop, hpath] at hsame
      obtain rfl : proof = path := Option.some.inj hsame
      nth_rewrite 1 [parents_eq_map_digestText] at hnode
      rw [List.getElem?_map, hmessage] at hnode
      obtain rfl : leaf text = own := Option.some.inj hnode
      rw [hup.root, hlevels.root]
  | long hproof _ hwhole htext hpath =>
      rw [hproof, climb_append, climb_cons, ← hwhole]
      exact hreplay htext hpath

/-- A short proof verifies only for a text of two digests. -/
theorem Opens.length_text (h : Opens leaves text index proof) (hsome : leaves ≠ [])
    (hshort : proof.length < (ofLeaves leaves).depth) : text.length = 128 := by
  cases h with
  | full hcount => omega
  | short _ hlower hmessage =>
      rw [ofLeaves_eq hsome] at hlower
      have hwide := wide_of_mem_levelsFrom (wide_map_leaf leaves) (List.mem_of_getElem? hlower)
      obtain ⟨left, hleft, right, hright, hpair⟩ :=
        exists_pair_of_mem_parentInputs (List.mem_of_getElem? hmessage)
      rw [Bytes.ofText_inj.mp hpair, String.length_append, hwide left hleft, hwide right hright]
  | long hproof hback =>
      rw [hproof, List.length_append, List.length_cons] at hshort
      omega

/-- A long proof verifies only in a tree with a leaf that is no shorter than a digest. -/
theorem Opens.exists_leaf (h : Opens leaves text index proof)
    (hlong : (ofLeaves leaves).depth < proof.length) : ∃ whole ∈ leaves, 64 ≤ whole.length := by
  cases h with
  | full hcount => omega
  | short hcount => omega
  | @long front back entry whole _ _ hwhole hthere =>
      refine ⟨whole, List.mem_of_getElem? hthere, ?_⟩
      have hnode := length_climb (length_digestText (Bytes.ofText text)) index front
      unfold pairInput at hwhole
      split at hwhole
      · rw [← Bytes.ofText_append, Bytes.ofText_inj] at hwhole
        rw [hwhole, String.length_append, leaf, hnode]
        omega
      · rw [← Bytes.ofText_append, Bytes.ofText_inj] at hwhole
        rw [hwhole, String.length_append, leaf, hnode]
        omega

end Meeting

end Merkle

namespace MerkleTree

open Merkle

/-- A position that is not there, an inner node and a text below a leaf: not every index that verifies
is the position of a leaf, and even for one that is, a proof that verifies may have fewer entries than
there are levels above the leaves, and more. -/
theorem not_only_positions_verify :
    (¬ ∀ leaves text index proof, leaves ≠ [] →
        (ofLeaves leaves).verifyProof text index proof = true →
          index < (ofLeaves leaves).leafCount) ∧
      (¬ ∀ leaves text index proof, leaves ≠ [] →
        (ofLeaves leaves).verifyProof text index proof = true →
          index < (ofLeaves leaves).leafCount → (ofLeaves leaves).depth ≤ proof.length) ∧
      ¬ ∀ leaves text index proof, leaves ≠ [] →
        (ofLeaves leaves).verifyProof text index proof = true →
          index < (ofLeaves leaves).leafCount → proof.length ≤ (ofLeaves leaves).depth := by
  have hverifies {leaves proof : List String} {text : String} {index : Nat} (hsome : leaves ≠ [])
      (hroot : climb (leaf text) index proof = (ofLeaves leaves).root) :
      (ofLeaves leaves).verifyProof text index proof = true := by
    rw [verifyProof_ofLeaves hsome]
    exact (verifyProof_root_iff hsome).mpr hroot
  have hthree : ["a", "b", "c"] ≠ [] := by decide
  have hpair (left right : String) : leaf (left ++ right) = combine left right := by
    rw [leaf, combine, Bytes.ofText_append]
  refine ⟨?_, ?_, ?_⟩
  · intro hall
    have hpadded : (ofLeaves ["a", "b", "c"]).verifyProof "c" 3
        [leaf "c", combine (leaf "a") (leaf "b")] = true := hverifies hthree rfl
    exact absurd (hall _ _ _ _ hthree hpadded) (by decide)
  · intro hall
    have hroot : climb (leaf (leaf "a" ++ leaf "b")) 0 [combine (leaf "c") (leaf "c")] =
        (ofLeaves ["a", "b", "c"]).root := by
      rw [hpair]
      rfl
    exact absurd (hall _ _ _ _ hthree (hverifies hthree hroot) (by decide)) (by decide)
  · intro hall
    have hone : [leaf "a" ++ "b"] ≠ [] := List.cons_ne_nil _ _
    have hroot : climb (leaf "a") 0 ["b"] = (ofLeaves [leaf "a" ++ "b"]).root := (hpair _ _).symm
    exact absurd (hall _ _ _ _ hone (hverifies hone hroot) Nat.zero_lt_one) (by decide)

/-- **What verifies, exactly.**  Collisions apart, a proof verifies for a text at an index only in the
three cases of `Opens`, and in each of them it does.  The place to which the index leads is always
that of a leaf, and it is what the lowest digits of the index say wherever there is such a leaf.  A
proof with fewer entries than there are levels above the leaves needs a text of 128 characters, and
one with more entries a leaf of at least 64. -/
theorem opens_of_verifyProof {leaves : List String} (hsome : leaves ≠ []) (text : String)
    (index : Nat) (proof : List String) :
    let position := place (ofLeaves leaves).depth leaves.length index
    ((ofLeaves leaves).verifyProof text index proof = true →
        Opens leaves text index proof ∨
          CollideAmong (inputs leaves) (openingInputs text index proof)) ∧
      (Opens leaves text index proof →
        (ofLeaves leaves).verifyProof text index proof = true ∧
          (proof.length < (ofLeaves leaves).depth → text.length = 128) ∧
          ((ofLeaves leaves).depth < proof.length → ∃ whole ∈ leaves, 64 ≤ whole.length)) ∧
      position < (ofLeaves leaves).leafCount ∧
      (index % 2 ^ (ofLeaves leaves).depth < (ofLeaves leaves).leafCount →
        position = index % 2 ^ (ofLeaves leaves).depth) := by
  intro position
  rw [verifyProof_ofLeaves hsome, verifyProof_root_iff hsome, leafCount_ofLeaves]
  refine ⟨?_, ?_, place_lt _ _ (List.length_pos_iff.mpr hsome), place_eq_mod⟩
  · intro hroot
    rcases Nat.lt_trichotomy proof.length (ofLeaves leaves).depth with hshort | hfull | hlong
    · exact opens_short_or_collideAmong hsome hshort hroot
    · rcases exists_leaf_or_collideAmong hsome hfull hroot with
        ⟨whole, hwhole, hthere, hproof⟩ | hcollide
      · obtain rfl := Bytes.ofText_inj.mp hwhole
        exact Or.inl (.full hfull hthere hproof)
      · exact Or.inr hcollide
    · exact opens_long_or_collideAmong hsome hlong hroot
  · intro hopens
    exact ⟨hopens.climb_eq_root hsome, hopens.length_text hsome, hopens.exists_leaf⟩

/-- Three leaves are one too few for the index 3, which leads to the last of them. -/
theorem opens_of_verifyProof_beyond :
    ["a", "b", "c"] ≠ [] ∧
      (ofLeaves ["a", "b", "c"]).verifyProof "c" 3 [leaf "c", combine (leaf "a") (leaf "b")] = true ∧
      (Opens ["a", "b", "c"] "c" 3 [leaf "c", combine (leaf "a") (leaf "b")] ∨
        CollideAmong (inputs ["a", "b", "c"])
          (openingInputs "c" 3 [leaf "c", combine (leaf "a") (leaf "b")])) := by
  have hsome : ["a", "b", "c"] ≠ [] := by decide
  obtain ⟨hopens, hverifies, _⟩ :=
    opens_of_verifyProof hsome "c" 3 [leaf "c", combine (leaf "a") (leaf "b")]
  have hverified := (hverifies (.full rfl rfl rfl)).1
  exact ⟨hsome, hverified, hopens hverified⟩

end MerkleTree

end AuthorityLedger
