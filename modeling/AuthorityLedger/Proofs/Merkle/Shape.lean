import AuthorityLedger.Proofs.Merkle
import Mathlib.Algebra.Group.Nat.Defs
import Mathlib.Order.Bounds.Basic

/-!
# The shape of a Merkle tree

The levels of a tree are built by going up until a single node is left.  `Built`
describes that as it happens, with no bound on the number of levels: what
`levelsFrom` gives is built in this way whenever its bound is large enough
(`built_levelsFrom`), so that building a tree comes to an end.

How many levels there are, and how wide each of them is, depends on the number
of leaves alone.  The depth is the least one whose power of two has room for
them (`Built.isLeast_depth`), and a position among the leaves, halved once for
each level, stays within every level (`Built.div_lt_length`).
-/

namespace AuthorityLedger

namespace MerkleTree

/-- The number of levels above the lowest one. -/
def depth (tree : MerkleTree) : Nat :=
  tree.levels.length - 1

/-- The tree of some leaves has all levels over their digests. -/
theorem ofLeaves_eq {leaves : List String} (h : leaves ≠ []) :
    ofLeaves leaves = ⟨Merkle.levelsFrom leaves.length (leaves.map Merkle.leaf)⟩ := by
  cases leaves with
  | nil => exact absurd rfl h
  | cons first rest => rfl

end MerkleTree

namespace Merkle

/-- The levels that come of going up from a level until a single node is left. -/
inductive Built : List String → List (List String) → Prop
  | top {level : List String} : level.length ≤ 1 → Built level [level]
  | above {level : List String} {rest : List (List String)} :
      1 < level.length → Built (parents level) rest → Built level (level :: rest)

/-- The levels over a level are built by going up, whenever their number is bounded by the width. -/
theorem built_levelsFrom {fuel : Nat} {level : List String} (h : level.length ≤ fuel + 1) :
    Built level (levelsFrom fuel level) := by
  induction fuel generalizing level with
  | zero => exact .top h
  | succ fuel ih =>
      rw [levelsFrom]
      by_cases hone : level.length ≤ 1
      · rw [if_pos hone]
        exact .top hone
      · rw [if_neg hone]
        refine .above (Nat.not_le.mp hone) (ih ?_)
        rw [length_parents]
        omega

namespace Built

variable {level : List String} {levels : List (List String)}

theorem ne_nil (h : Built level levels) : levels ≠ [] := by
  cases h with
  | top => exact List.cons_ne_nil _ _
  | above => exact List.cons_ne_nil _ _

/-- **The depth of a tree** is the least one whose power of two is no less than the width. -/
theorem isLeast_depth (h : Built level levels) :
    IsLeast {d | level.length ≤ 2 ^ d} (⟨levels⟩ : MerkleTree).depth := by
  induction h with
  | top hone => exact ⟨hone, fun d _ => Nat.zero_le d⟩
  | @above level rest hmore hrest ih =>
      have hsome : 0 < rest.length := List.length_pos_iff.mpr hrest.ne_nil
      have hdepth : (⟨level :: rest⟩ : MerkleTree).depth = (⟨rest⟩ : MerkleTree).depth + 1 := by
        simp only [MerkleTree.depth, List.length_cons]
        omega
      obtain ⟨hroom, hleast⟩ := ih
      rw [hdepth]
      constructor
      · have habove : (level.length + 1) / 2 ≤ 2 ^ (⟨rest⟩ : MerkleTree).depth := by
          simpa using hroom
        have hfits : level.length ≤ 2 ^ ((⟨rest⟩ : MerkleTree).depth + 1) := by
          rw [Nat.pow_succ']
          omega
        exact hfits
      · intro d (hd : level.length ≤ 2 ^ d)
        cases d with
        | zero => exact absurd hd (Nat.not_le.mpr hmore)
        | succ d =>
            rw [Nat.pow_succ'] at hd
            have habove : (parents level).length ≤ 2 ^ d := by
              rw [length_parents]
              omega
            exact Nat.succ_le_succ (hleast habove)

/-- **A position stays within the levels** while it is halved on the way up. -/
theorem div_lt_length (h : Built level levels) {index height : Nat} {reached : List String}
    (hindex : index < level.length) (hreached : levels[height]? = some reached) :
    index / 2 ^ height < reached.length := by
  induction h generalizing index height with
  | top _ =>
      cases height with
      | zero =>
          obtain rfl := Option.some.inj hreached
          simpa using hindex
      | succ height => cases hreached
  | above _ _ ih =>
      cases height with
      | zero =>
          obtain rfl := Option.some.inj hreached
          simpa using hindex
      | succ height =>
          rw [List.getElem?_cons_succ] at hreached
          rw [Nat.pow_succ', ← Nat.div_div_eq_div_mul]
          refine ih ?_ hreached
          rw [length_parents]
          omega

end Built

/-- A tree with leaves is built by going up from their digests. -/
theorem built_ofLeaves {leaves : List String} (h : leaves ≠ []) :
    Built (leaves.map leaf) (MerkleTree.ofLeaves leaves).levels := by
  rw [MerkleTree.ofLeaves_eq h]
  exact built_levelsFrom (by simp)

/-- The depth of a tree with leaves is the least one whose power of two is no less than their
number. -/
theorem isLeast_depth_ofLeaves {leaves : List String} (h : leaves ≠ []) :
    IsLeast {d | leaves.length ≤ 2 ^ d} (MerkleTree.ofLeaves leaves).depth := by
  simpa using (built_ofLeaves h).isLeast_depth

/-- Equally many leaves make equally deep trees. -/
theorem depth_eq_of_length_eq {leaves others : List String}
    (hcount : leaves.length = others.length) :
    (MerkleTree.ofLeaves leaves).depth = (MerkleTree.ofLeaves others).depth := by
  by_cases hnone : leaves = []
  · subst hnone
    rw [List.eq_nil_of_length_eq_zero hcount.symm]
  · have hleast := isLeast_depth_ofLeaves hnone
    rw [hcount] at hleast
    have hnone' : others ≠ [] := by
      rintro rfl
      exact hnone (List.eq_nil_of_length_eq_zero hcount)
    exact hleast.unique (isLeast_depth_ofLeaves hnone')

/-- Over more than one node there is one level more than over the level above. -/
theorem depth_levelsFrom_succ (fuel : Nat) {level : List String} (hmore : ¬ level.length ≤ 1) :
    (⟨levelsFrom (fuel + 1) level⟩ : MerkleTree).depth =
      (⟨levelsFrom fuel (parents level)⟩ : MerkleTree).depth + 1 := by
  have hsome := List.length_pos_iff.mpr (levelsFrom_ne_nil fuel (parents level))
  simp only [MerkleTree.depth, levelsFrom, hmore, if_false, List.length_cons]
  omega

/-- A single node has no level above it. -/
theorem depth_levelsFrom_of_length_le {fuel : Nat} {level : List String} (hone : level.length ≤ 1) :
    (⟨levelsFrom fuel level⟩ : MerkleTree).depth = 0 := by
  rw [levelsFrom_of_length_le hone]
  rfl

end Merkle

end AuthorityLedger
