import AuthorityLedger.Proofs.Collision
import AuthorityLedger.Proofs.Merkle

/-!
# What is hashed to build a Merkle tree

`inputs` are the byte strings that are hashed to build the tree of some leaves:
the nodes of the tree, level by level, are their digests
(`flatten_levels_ofLeaves`).

Hence every node has sixty-four digits (`Wide`).  So has a root over leaves,
which is one of the nodes (`length_merkleRoot`) and therefore no text of another
length (`ne_merkleRoot_of_length`), such as the empty one that stands for a tree
without leaves.
-/

namespace AuthorityLedger

theorem Bytes.ofText_append (s t : String) :
    Bytes.ofText (s ++ t) = Bytes.ofText s ++ Bytes.ofText t := by
  simp [Bytes.ofText]

namespace Merkle

/-! ## What is hashed -/

/-- The byte strings whose digests are the level above a level. -/
def parentInputs : List String → List Bytes
  | left :: right :: rest => (Bytes.ofText left ++ Bytes.ofText right) :: parentInputs rest
  | [single] => [Bytes.ofText single ++ Bytes.ofText single]
  | [] => []

/-- The byte strings whose digests are all levels above a level. -/
def inputsAbove : Nat → List String → List Bytes
  | 0, _ => []
  | fuel + 1, level =>
    if level.length ≤ 1 then [] else parentInputs level ++ inputsAbove fuel (parents level)

/-- The byte strings that are hashed to build the tree of some leaves. -/
def inputs (leaves : List String) : List Bytes :=
  leaves.map Bytes.ofText ++ inputsAbove leaves.length (leaves.map leaf)

theorem parents_eq_map_digestText (level : List String) :
    parents level = (parentInputs level).map digestText := by
  induction level using parents.induct with
  | case1 left right rest ih => simp [parents, parentInputs, combine, ih]
  | case2 single => rfl
  | case3 => rfl

theorem map_leaf_eq_map_digestText (leaves : List String) :
    leaves.map leaf = (leaves.map Bytes.ofText).map digestText := by
  simp [leaf]

theorem flatten_levelsFrom (fuel : Nat) (level : List String) :
    (levelsFrom fuel level).flatten = level ++ (inputsAbove fuel level).map digestText := by
  induction fuel generalizing level with
  | zero => simp [levelsFrom, inputsAbove]
  | succ fuel ih =>
      by_cases hone : level.length ≤ 1
      · simp [levelsFrom, inputsAbove, hone]
      · rw [levelsFrom, inputsAbove, if_neg hone, if_neg hone, List.flatten_cons, ih,
          List.map_append, ← parents_eq_map_digestText]

/-- The nodes of a tree are the digests of its inputs. -/
theorem flatten_levels_ofLeaves (leaves : List String) :
    (MerkleTree.ofLeaves leaves).levels.flatten = (inputs leaves).map digestText := by
  cases leaves with
  | nil => rfl
  | cons first rest =>
      rw [inputs, List.map_append, ← map_leaf_eq_map_digestText]
      exact flatten_levelsFrom _ _

/-! ## The width of nodes -/

/-- Every node of a level has the length of a digest. -/
def Wide (level : List String) : Prop :=
  ∀ node ∈ level, node.length = 64

theorem wide_map_digestText (messages : List Bytes) : Wide (messages.map digestText) := by
  intro node hnode
  obtain ⟨message, _, rfl⟩ := List.mem_map.mp hnode
  exact length_digestText message

theorem wide_parents (level : List String) : Wide (parents level) := by
  rw [parents_eq_map_digestText]
  exact wide_map_digestText _

theorem wide_map_leaf (leaves : List String) : Wide (leaves.map leaf) := by
  rw [map_leaf_eq_map_digestText]
  exact wide_map_digestText _

/-- All levels over a wide level are wide. -/
theorem wide_of_mem_levelsFrom {fuel : Nat} {level reached : List String} (hwide : Wide level)
    (h : reached ∈ levelsFrom fuel level) : Wide reached := by
  intro node hnode
  have hflat : node ∈ (levelsFrom fuel level).flatten := List.mem_flatten.mpr ⟨reached, h, hnode⟩
  rw [flatten_levelsFrom] at hflat
  rcases List.mem_append.mp hflat with hlowest | habove
  · exact hwide node hlowest
  · exact wide_map_digestText _ node habove

/-! ## The root -/

/-- The root over more than one node is the root over the level above. -/
theorem root_levelsFrom_succ {fuel : Nat} {level : List String} (hmore : ¬ level.length ≤ 1) :
    (⟨levelsFrom (fuel + 1) level⟩ : MerkleTree).root =
      (⟨levelsFrom fuel (parents level)⟩ : MerkleTree).root := by
  simp only [MerkleTree.root, levelsFrom, hmore, if_false]
  rw [List.getLast?_cons_of_ne_nil (levelsFrom_ne_nil _ _)]

/-- The root over some nodes is one of the nodes. -/
theorem root_mem_levelsFrom {fuel : Nat} {level : List String} (hsome : level ≠ []) :
    (⟨levelsFrom fuel level⟩ : MerkleTree).root ∈ (levelsFrom fuel level).flatten := by
  have htop {level : List String} (hsome : level ≠ []) :
      (⟨[level]⟩ : MerkleTree).root ∈ level := by
    cases level with
    | nil => exact absurd rfl hsome
    | cons first rest => exact List.mem_cons_self
  induction fuel generalizing level with
  | zero => simpa [levelsFrom] using htop hsome
  | succ fuel ih =>
      by_cases hone : level.length ≤ 1
      · rw [levelsFrom_of_length_le hone]
        simpa using htop hsome
      · rw [root_levelsFrom_succ hone, levelsFrom, if_neg hone, List.flatten_cons]
        exact List.mem_append_right _ (ih (parents_ne_nil hsome))

/-- A root over leaves has the length of a digest. -/
theorem length_merkleRoot {leaves : List String} (h : leaves ≠ []) :
    (merkleRoot leaves).length = 64 := by
  have hroot : merkleRoot leaves ∈ (MerkleTree.ofLeaves leaves).levels.flatten := by
    cases leaves with
    | nil => exact absurd rfl h
    | cons first rest => exact root_mem_levelsFrom (List.cons_ne_nil _ _)
  rw [flatten_levels_ofLeaves] at hroot
  exact wide_map_digestText _ _ hroot

/-- A text of another length is not a root over leaves. -/
theorem ne_merkleRoot_of_length {leaves : List String} {text : String} (h : leaves ≠ [])
    (hlength : text.length ≠ 64) : text ≠ merkleRoot leaves := by
  intro hroot
  rw [hroot] at hlength
  exact hlength (length_merkleRoot h)

end Merkle

end AuthorityLedger
