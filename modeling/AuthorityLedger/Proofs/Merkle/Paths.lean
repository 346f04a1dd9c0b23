import AuthorityLedger.Proofs.Concatenation
import AuthorityLedger.Proofs.Merkle.Inputs
import AuthorityLedger.Proofs.Merkle.Shape

/-!
# Paths through a Merkle tree

Whoever replays a proof hashes a pair of nodes for each of its entries
(`climbInputs`).  The tree hashes pairs of nodes too, and the pair above a
position is the node there with its sibling, in the order that the position
asks for (`getElem?_parentInputs`).

A replay reads an index from its lowest binary digit on.  Read the other way
round, the digits choose a child at every level on the way down from the root,
and since the last node of an odd level stands in for the sibling that it lacks,
no digit leads astray: every index leads to a place in every level (`place`),
whether or not it is a position of the lowest one.

Whoever replays the siblings of that place from the node there meets the root
(`exists_leadsTo`).  And two replays of the same index that meet, of equally
many entries, are the same replay, unless what they hash collides
(`eq_or_collideAmong_of_climb_eq`): a node has sixty-four digits, so that a pair
tells the node from the entry of a proof, which may be any text.
-/

namespace AuthorityLedger

namespace Merkle

open MerkleTree

/-! ## Pairs of nodes -/

/-- What is hashed above a node at a position and a text that is taken for its sibling. -/
def pairInput (node : String) (index : Nat) (sibling : String) : Bytes :=
  if index % 2 = 0 then Bytes.ofText node ++ Bytes.ofText sibling
  else Bytes.ofText sibling ++ Bytes.ofText node

/-- The byte strings that are hashed to replay a proof from a node. -/
def climbInputs (node : String) : Nat → List String → List Bytes
  | _, [] => []
  | index, sibling :: rest =>
    pairInput node index sibling ::
      climbInputs (digestText (pairInput node index sibling)) (index / 2) rest

/-- The byte strings that are hashed to verify a proof of a leaf. -/
def openingInputs (text : String) (index : Nat) (proof : List String) : List Bytes :=
  Bytes.ofText text :: climbInputs (leaf text) index proof

/-- The first entry of a proof leads to the digest of a pair. -/
theorem climb_cons (node : String) (index : Nat) (sibling : String) (rest : List String) :
    climb node index (sibling :: rest) =
      climb (digestText (pairInput node index sibling)) (index / 2) rest := by
  rw [climb]
  by_cases hleft : index % 2 = 0
  · simp only [pairInput, combine, if_pos hleft]
  · simp only [pairInput, combine, if_neg hleft]

/-- On the same side, a node is hashed in the same way. -/
theorem pairInput_congr {node sibling : String} {i j : Nat} (h : i % 2 = j % 2) :
    pairInput node i sibling = pairInput node j sibling := by
  simp [pairInput, h]

/-- A node that is its own sibling is hashed in the same way on either side. -/
theorem pairInput_self (node : String) (i j : Nat) :
    pairInput node i node = pairInput node j node := by
  simp [pairInput]

theorem siblingIndex_add_two (index : Nat) : siblingIndex (index + 2) = siblingIndex index + 2 := by
  unfold siblingIndex
  rw [Nat.add_mod_right]
  split <;> omega

/-- **The pair above a position** is the node there with its sibling. -/
theorem getElem?_parentInputs {level : List String} {index : Nat} {own : String}
    (hown : level[index]? = some own) :
    (parentInputs level)[index / 2]? =
      some (pairInput own index (level.getD (siblingIndex index) own)) := by
  induction level using parents.induct generalizing index with
  | case1 left right rest ih =>
      rcases index with _ | _ | index
      · obtain rfl := Option.some.inj hown
        rfl
      · obtain rfl := Option.some.inj hown
        rfl
      · have hrest : rest[index]? = some own := hown
        have hhalf : (index + 1 + 1) / 2 = index / 2 + 1 := Nat.add_div_right _ two_pos
        rw [pairInput_congr (Nat.add_mod_right index 2), siblingIndex_add_two, parentInputs, hhalf]
        exact ih hrest
  | case2 single =>
      cases index with
      | zero =>
          obtain rfl := Option.some.inj hown
          rfl
      | succ index => cases hown
  | case3 => cases hown

/-- A pair tells a node from what is taken for its sibling. -/
theorem eq_of_pairInput_eq {node own : String} {index : Nat} {entry sibling : String}
    (hnode : node.length = own.length)
    (h : pairInput node index entry = pairInput own index sibling) :
    node = own ∧ entry = sibling := by
  have hjoin {a b c d : String} {i : Nat}
      (hothers : ∀ j, j ≠ i → ([a, b][j]?).map String.length = ([c, d][j]?).map String.length)
      (h : Bytes.ofText a ++ Bytes.ofText b = Bytes.ofText c ++ Bytes.ofText d) :
      [a, b] = [c, d] := by
    rw [← Bytes.ofText_append, ← Bytes.ofText_append, Bytes.ofText_inj] at h
    exact eq_of_join_eq_of_other_lengths_eq (by simpa using h) rfl hothers
  unfold pairInput at h
  by_cases hleft : index % 2 = 0
  · rw [if_pos hleft, if_pos hleft] at h
    have hpair : [node, entry] = [own, sibling] := by
      refine hjoin (i := 1) ?_ h
      intro j hj
      rcases j with _ | _ | j
      · exact congrArg some hnode
      · exact absurd rfl hj
      · rfl
    simpa using hpair
  · rw [if_neg hleft, if_neg hleft] at h
    have hpair : [entry, node] = [sibling, own] := by
      refine hjoin (i := 0) ?_ h
      intro j hj
      rcases j with _ | _ | j
      · exact absurd rfl hj
      · exact congrArg some hnode
      · rfl
    obtain ⟨hentry, hown⟩ : entry = sibling ∧ node = own := by simpa using hpair
    exact ⟨hown, hentry⟩

/-- The siblings from a position in a level up to the root over it: its sibling there, and those
from half the position in the level above. -/
theorem siblings_levelsFrom_succ {fuel : Nat} {level : List String} (hmore : ¬ level.length ≤ 1)
    (index : Nat) :
    siblings (levelsFrom (fuel + 1) level) index =
      (level[index]?).bind fun own =>
        (siblings (levelsFrom fuel (parents level)) (index / 2)).map
          (level.getD (siblingIndex index) own :: ·) := by
  rw [levelsFrom, if_neg hmore]
  cases habove : levelsFrom fuel (parents level) with
  | nil => exact absurd habove (levelsFrom_ne_nil _ _)
  | cons above rest =>
      cases hown : level[index]? with
      | none => simp [siblings, hown]
      | some own =>
          cases hpath : siblings (above :: rest) (index / 2) <;> simp [siblings, hown, hpath]

/-- Over a single node there is nothing to climb. -/
theorem siblings_levelsFrom_of_length_le {fuel : Nat} {level : List String}
    (hone : level.length ≤ 1) (index : Nat) : siblings (levelsFrom fuel level) index = some [] := by
  rw [levelsFrom_of_length_le hone]
  rfl

/-- A single node is the root over itself. -/
theorem root_of_length_le {fuel : Nat} {level : List String} {index : Nat} {own : String}
    (hone : level.length ≤ 1) (hown : level[index]? = some own) :
    (⟨levelsFrom fuel level⟩ : MerkleTree).root = own := by
  rw [levelsFrom_of_length_le hone]
  -- The level has a place, and no second one.
  have hplace : index < level.length := (List.getElem?_eq_some_iff.mp hown).1
  obtain ⟨single, rfl⟩ := List.length_eq_one_iff.mp (by omega : level.length = 1)
  obtain rfl : index = 0 := Nat.lt_one_iff.mp hplace
  exact Option.some.inj hown

/-! ## Where an index leads -/

/-- The place to which an index leads in a level of a width that has so many levels above it.  Where
a right child is missing, the left one is taken. -/
def place : Nat → Nat → Nat → Nat
  | 0, _, _ => 0
  | above + 1, width, index =>
    min (2 * place above ((width + 1) / 2) (index / 2) + index % 2) (width - 1)

theorem place_lt (above index : Nat) {width : Nat} (h : 0 < width) : place above width index < width := by
  cases above with
  | zero => exact h
  | succ above =>
      rw [place]
      omega

/-- The place below a place is one of its children. -/
theorem place_div_two {above width index : Nat} (h : 0 < width) :
    place (above + 1) width index / 2 = place above ((width + 1) / 2) (index / 2) := by
  have habove : place above ((width + 1) / 2) (index / 2) < (width + 1) / 2 :=
    place_lt _ _ (by omega)
  rw [place]
  omega

/-- Only the lowest digits of an index count, and they are the place if there is such a place. -/
theorem place_eq_mod {above width index : Nat} (h : index % 2 ^ above < width) :
    place above width index = index % 2 ^ above := by
  induction above generalizing width index with
  | zero => simp [place, Nat.mod_one]
  | succ above ih =>
      have hhalf : index % 2 ^ (above + 1) / 2 = index / 2 % 2 ^ above := by
        rw [Nat.pow_succ', Nat.mod_mul_right_div_self]
      have hdigit : index % 2 ^ (above + 1) % 2 = index % 2 :=
        Nat.mod_mod_of_dvd _ (dvd_pow_self 2 (Nat.succ_ne_zero above))
      have habove : index / 2 % 2 ^ above < (width + 1) / 2 := by omega
      rw [place, ih habove]
      omega

/-! ## The way up from a place -/

/-- An index leads to a node, the siblings of its place are so many as there are levels above, and a
replay of the index along them meets the root, hashing what the tree has hashed. -/
structure LeadsTo (fuel : Nat) (level : List String) (index : Nat) (own : String)
    (path : List String) : Prop where
  node : level[place (⟨levelsFrom fuel level⟩ : MerkleTree).depth level.length index]? = some own
  siblings : siblings (levelsFrom fuel level)
    (place (⟨levelsFrom fuel level⟩ : MerkleTree).depth level.length index) = some path
  count : path.length = (⟨levelsFrom fuel level⟩ : MerkleTree).depth
  root : climb own index path = (⟨levelsFrom fuel level⟩ : MerkleTree).root
  inputs : climbInputs own index path ⊆ inputsAbove fuel level

/-- A single node is where every index leads. -/
theorem leadsTo_of_length_le {fuel : Nat} {level : List String} {own : String} (index : Nat)
    (hone : level.length ≤ 1) (hown : level[0]? = some own) :
    LeadsTo fuel level index own [] where
  node := by rw [depth_levelsFrom_of_length_le hone, place, hown]
  siblings := siblings_levelsFrom_of_length_le hone _
  count := (depth_levelsFrom_of_length_le hone).symm
  root := (root_of_length_le hone hown).symm
  inputs := List.nil_subset _

/-- **The pair above the place of an index** is the node there with its sibling, on the sides that
the index says.  A place on the other side has no right neighbour, so that it is its own sibling. -/
theorem getElem?_parentInputs_place {above index position : Nat} {level : List String}
    {own : String} (hposition : position = place (above + 1) level.length index)
    (hown : level[position]? = some own) :
    (parentInputs level)[place above (parents level).length (index / 2)]? =
      some (pairInput own index (level.getD (siblingIndex position) own)) := by
  have hpos : 0 < level.length := Nat.zero_lt_of_lt (List.getElem?_eq_some_iff.mp hown).1
  have hhalf : position / 2 = place above (parents level).length (index / 2) := by
    rw [hposition, place_div_two hpos, length_parents]
  rw [← hhalf, getElem?_parentInputs hown, Option.some.injEq]
  by_cases hside : position % 2 = index % 2
  · exact pairInput_congr hside
  · have hbelow : place above ((level.length + 1) / 2) (index / 2) < (level.length + 1) / 2 :=
      place_lt _ _ (by omega)
    have hlast : level.length ≤ siblingIndex position := by
      rw [place] at hposition
      unfold siblingIndex
      split <;> omega
    rw [List.getD_eq_default _ _ hlast]
    exact pairInput_self _ _ _

/-- The way up from a level goes on as the way up from the level above it. -/
theorem LeadsTo.below {fuel index position : Nat} {level path : List String} {above own : String}
    (h : LeadsTo fuel (parents level) (index / 2) above path) (hmore : ¬ level.length ≤ 1)
    (hposition : position =
      place ((⟨levelsFrom fuel (parents level)⟩ : MerkleTree).depth + 1) level.length index)
    (hown : level[position]? = some own) :
    LeadsTo (fuel + 1) level index own (level.getD (siblingIndex position) own :: path) := by
  have hdepth := depth_levelsFrom_succ fuel hmore
  have hpair := getElem?_parentInputs_place hposition hown
  have habove :
      above = digestText (pairInput own index (level.getD (siblingIndex position) own)) := by
    have hnode := h.node
    rw [parents_eq_map_digestText, List.getElem?_map, ← parents_eq_map_digestText, hpair] at hnode
    exact (Option.some.inj hnode).symm
  have hpath := h.siblings
  rw [length_parents, ← place_div_two (by omega), ← hposition] at hpath
  refine ⟨?_, ?_, ?_, ?_, ?_⟩
  · rw [hdepth, ← hposition, hown]
  · rw [hdepth, ← hposition, siblings_levelsFrom_succ hmore, hown, hpath]
    rfl
  · rw [hdepth, List.length_cons, h.count]
  · rw [climb_cons, ← habove, h.root, root_levelsFrom_succ hmore]
  · rw [climbInputs, inputsAbove, if_neg hmore, ← habove]
    refine List.cons_subset.mpr ⟨?_, ?_⟩
    · exact List.mem_append_left _ (List.mem_of_getElem? hpair)
    · exact List.subset_append_of_subset_right _ h.inputs

/-- **Every index leads somewhere**, and from there back to the root. -/
theorem exists_leadsTo {fuel : Nat} {level : List String} (index : Nat) (hsome : level ≠ [])
    (hfuel : level.length ≤ fuel + 1) : ∃ own path, LeadsTo fuel level index own path := by
  induction fuel generalizing level index with
  | zero =>
      have hpos : 0 < level.length := List.length_pos_iff.mpr hsome
      exact ⟨_, _, leadsTo_of_length_le index hfuel (List.getElem?_eq_getElem hpos)⟩
  | succ fuel ih =>
      have hpos : 0 < level.length := List.length_pos_iff.mpr hsome
      by_cases hone : level.length ≤ 1
      · exact ⟨_, _, leadsTo_of_length_le index hone (List.getElem?_eq_getElem hpos)⟩
      · have hfuel' : (parents level).length ≤ fuel + 1 := by
          rw [length_parents]
          omega
        obtain ⟨above, path, hup⟩ := ih (index / 2) (parents_ne_nil hsome) hfuel'
        exact ⟨_, _, hup.below hone rfl (List.getElem?_eq_getElem (place_lt _ _ hpos))⟩

/-- A position in a level is where it leads itself. -/
theorem place_eq_self {fuel index : Nat} {level : List String} (hfuel : level.length ≤ fuel + 1)
    (h : index < level.length) :
    place (⟨levelsFrom fuel level⟩ : MerkleTree).depth level.length index = index := by
  have hroom : level.length ≤ 2 ^ (⟨levelsFrom fuel level⟩ : MerkleTree).depth :=
    (built_levelsFrom hfuel).isLeast_depth.1
  have hmod : index % 2 ^ (⟨levelsFrom fuel level⟩ : MerkleTree).depth = index :=
    Nat.mod_eq_of_lt (by omega)
  rw [place_eq_mod (by rwa [hmod]), hmod]

/-- A position leads to the node there, along its siblings. -/
theorem exists_leadsTo_of_getElem? {fuel index : Nat} {level : List String} {own : String}
    (hfuel : level.length ≤ fuel + 1) (hown : level[index]? = some own) :
    ∃ path, siblings (levelsFrom fuel level) index = some path ∧
      LeadsTo fuel level index own path := by
  have hindex : index < level.length := (List.getElem?_eq_some_iff.mp hown).1
  have hsome : level ≠ [] := List.ne_nil_of_length_pos (Nat.zero_lt_of_lt hindex)
  obtain ⟨node, path, hup⟩ := exists_leadsTo index hsome hfuel
  have hnode := hup.node
  have hpath := hup.siblings
  rw [place_eq_self hfuel hindex] at hnode hpath
  obtain rfl : node = own := Option.some.inj (hnode.symm.trans hown)
  exact ⟨path, hpath, hup⟩

/-! ## Two ways up -/

/-- **Two replays of an index that meet** are the same, unless what they hash collides. -/
theorem eq_or_collideAmong_of_climb_eq {index : Nat} {node other : String}
    {proof path : List String} (hnode : node.length = 64) (hother : other.length = 64)
    (hcount : proof.length = path.length) (h : climb node index proof = climb other index path) :
    (node = other ∧ proof = path) ∨
      CollideAmong (climbInputs node index proof) (climbInputs other index path) := by
  induction proof generalizing node other index path with
  | nil =>
      obtain rfl := List.eq_nil_of_length_eq_zero hcount.symm
      exact Or.inl ⟨h, rfl⟩
  | cons entry proof ih =>
      cases path with
      | nil => cases hcount
      | cons sibling path =>
          rw [climb_cons, climb_cons] at h
          rw [climbInputs, climbInputs]
          rcases ih (length_digestText _) (length_digestText _) (Nat.succ.inj hcount) h with
            ⟨hdigest, hrest⟩ | hcollide
          · rcases digestText_eq_iff.mp hdigest with hsame | hcollide
            · obtain ⟨hstart, hentry⟩ := eq_of_pairInput_eq (hnode.trans hother.symm) hsame
              exact Or.inl ⟨hstart, by rw [hentry, hrest]⟩
            · exact Or.inr ⟨_, List.mem_cons_self, _, List.mem_cons_self, hcollide⟩
          · exact Or.inr (hcollide.mono (List.subset_cons_self _ _) (List.subset_cons_self _ _))

/-- **A replay that meets the root over a level**, with an entry for each level above, comes from the
place of its index along the siblings there, or something collides. -/
theorem place_or_collideAmong {fuel : Nat} {level : List String} {index : Nat} {node : String}
    {proof : List String} (hsome : level ≠ []) (hfuel : level.length ≤ fuel + 1)
    (hwide : Wide level) (hnode : node.length = 64)
    (hcount : proof.length = (⟨levelsFrom fuel level⟩ : MerkleTree).depth)
    (hroot : climb node index proof = (⟨levelsFrom fuel level⟩ : MerkleTree).root) :
    LeadsTo fuel level index node proof ∨
      CollideAmong (inputsAbove fuel level) (climbInputs node index proof) := by
  obtain ⟨own, path, hup⟩ := exists_leadsTo index hsome hfuel
  have hown : own.length = 64 := hwide own (List.mem_of_getElem? hup.node)
  have hmeet : climb own index path = climb node index proof := hup.root.trans hroot.symm
  rcases eq_or_collideAmong_of_climb_eq hown hnode (hup.count.trans hcount.symm) hmeet with
    ⟨rfl, rfl⟩ | hcollide
  · exact Or.inl hup
  · exact Or.inr (hcollide.mono hup.inputs (List.Subset.refl _))

end Merkle

end AuthorityLedger
