import AuthorityLedger.Hash.Digest

/-!
# Merkle trees

A tree commits to an ordered list of texts.  A leaf is the digest of its text
and a parent is the digest of its children's texts, left then right; at a
level of odd width the last node is paired with itself.

A proof for a position lists the sibling at every level from the leaf to just
below the root.  Replaying it from the leaf must meet the root, and the empty
root, which stands for a tree without leaves, is never met.
-/

namespace AuthorityLedger

namespace Merkle

/-- The digest of one leaf. -/
def leaf (text : String) : String :=
  digestText (Bytes.ofText text)

/-- The digest of a parent from its children. -/
def combine (left right : String) : String :=
  digestText (Bytes.ofText left ++ Bytes.ofText right)

/-- The level above a level; an odd last node is paired with itself. -/
def parents : List String → List String
  | left :: right :: rest => combine left right :: parents rest
  | [single] => [combine single single]
  | [] => []

/-- A level and all levels above it; the first argument bounds their number. -/
def levelsFrom : Nat → List String → List (List String)
  | 0, level => [level]
  | fuel + 1, level =>
    if level.length ≤ 1 then [level] else level :: levelsFrom fuel (parents level)

/-- The other child of the parent of a position. -/
def siblingIndex (index : Nat) : Nat :=
  if index % 2 = 0 then index + 1 else index - 1

/-- The siblings on the way up from a position; a node without one is its own sibling. -/
def siblings : List (List String) → Nat → Option (List String)
  | level :: above :: rest, index => do
    let own ← level[index]?
    let path ← siblings (above :: rest) (index / 2)
    return level.getD (siblingIndex index) own :: path
  | _, _ => some []

/-- The digest met by replaying a proof from a node. -/
def climb (node : String) : Nat → List String → String
  | _, [] => node
  | index, sibling :: rest =>
    let above := if index % 2 = 0 then combine node sibling else combine sibling node
    climb above (index / 2) rest

/-- Whether a proof leads from a leaf text at a position to a root. -/
def verifyProof (root text : String) (index : Nat) (proof : List String) : Bool :=
  root != "" && climb (leaf text) index proof == root

end Merkle

/-- All levels of a Merkle tree, leaf digests first; a tree without leaves has no level. -/
structure MerkleTree where
  levels : List (List String)
  deriving DecidableEq, Repr

namespace MerkleTree

/-- The tree of an ordered list of leaf texts. -/
def ofLeaves (leaves : List String) : MerkleTree :=
  match leaves with
  | [] => ⟨[]⟩
  | _ => ⟨Merkle.levelsFrom leaves.length (leaves.map Merkle.leaf)⟩

/-- The root digest, or the empty text for a tree without leaves. -/
def root (tree : MerkleTree) : String :=
  ((tree.levels.getLast?).bind List.head?).getD ""

/-- Whether the tree has a root at all. -/
def hasRoot (tree : MerkleTree) : Bool :=
  !tree.levels.isEmpty

/-- The number of leaves. -/
def leafCount (tree : MerkleTree) : Nat :=
  (tree.levels.headD []).length

/-- The siblings from the leaf at a position up to just below the root. -/
def proof (tree : MerkleTree) (index : Nat) : Option (List String) :=
  if index < tree.leafCount then Merkle.siblings tree.levels index else none

/-- Whether a proof leads from a leaf text at a position to this tree's root. -/
def verifyProof (tree : MerkleTree) (text : String) (index : Nat) (proof : List String) : Bool :=
  tree.hasRoot && Merkle.verifyProof tree.root text index proof

end MerkleTree

/-- The root over a list of leaf texts. -/
def merkleRoot (leaves : List String) : String :=
  (MerkleTree.ofLeaves leaves).root

end AuthorityLedger
