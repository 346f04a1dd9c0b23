import AuthorityLedger.Merkle

/-!
# The levels of a Merkle tree

The levels of a tree are built with a bound on their number.  Each level has
half the width of the one below, rounded up, so that the width of the lowest
level is bound enough and a larger bound makes no difference
(`levelsFrom_succ`).

Since an odd last node is paired with itself, a copy of it behind the level
makes no difference to the level above: a list of leaves of odd length and the
same list with its last leaf repeated have one root (`root_repeatLast`).
-/

namespace AuthorityLedger.Merkle

/-- The level above has half the width, rounded up. -/
@[simp] theorem length_parents (level : List String) :
    (parents level).length = (level.length + 1) / 2 := by
  induction level using parents.induct with
  | case1 left right rest ih =>
      simp only [parents, List.length_cons, ih]
      omega
  | case2 single => simp [parents]
  | case3 => simp [parents]

/-- Above some nodes there are some. -/
theorem parents_ne_nil {level : List String} (h : level ≠ []) : parents level ≠ [] := by
  match level, h with
  | [_], _ => exact List.cons_ne_nil _ _
  | _ :: _ :: _, _ => exact List.cons_ne_nil _ _

/-- A single node is the only level over itself. -/
theorem levelsFrom_of_length_le {level : List String} (h : level.length ≤ 1) (fuel : Nat) :
    levelsFrom fuel level = [level] := by
  cases fuel with
  | zero => rfl
  | succ fuel => rw [levelsFrom, if_pos h]

/-- A bound on the number of levels that is as large as the width is large enough. -/
theorem levelsFrom_succ {fuel : Nat} {level : List String} (h : level.length ≤ fuel + 1) :
    levelsFrom (fuel + 1) level = levelsFrom fuel level := by
  induction fuel generalizing level with
  | zero => simp [levelsFrom, h]
  | succ fuel ih =>
      by_cases hone : level.length ≤ 1
      · simp [levelsFrom, hone]
      · have habove : (parents level).length ≤ fuel + 1 := by
          rw [length_parents]
          omega
        rw [levelsFrom, if_neg hone, ih habove, levelsFrom, if_neg hone]

/-- There is always a lowest level. -/
theorem levelsFrom_ne_nil (fuel : Nat) (level : List String) : levelsFrom fuel level ≠ [] := by
  cases fuel with
  | zero => simp [levelsFrom]
  | succ fuel =>
      rw [levelsFrom]
      by_cases hone : level.length ≤ 1
      · rw [if_pos hone]
        exact List.cons_ne_nil _ _
      · rw [if_neg hone]
        exact List.cons_ne_nil _ _

/-- The top of the levels over a level is the top of the levels over the one above it. -/
theorem getLast?_levelsFrom {fuel : Nat} {level : List String} (hmore : 1 < level.length)
    (hfuel : level.length ≤ fuel) :
    (levelsFrom fuel level).getLast? = (levelsFrom fuel (parents level)).getLast? := by
  cases fuel with
  | zero => omega
  | succ fuel =>
      have habove : (parents level).length ≤ fuel + 1 := by
        rw [length_parents]
        omega
      rw [levelsFrom_succ habove, levelsFrom, if_neg (Nat.not_le.mpr hmore)]
      exact List.getLast?_cons_of_ne_nil (levelsFrom_ne_nil _ _)

/-- A list with its last entry repeated. -/
def repeatLast {β : Type} (items : List β) : List β :=
  items ++ items.getLast?.toList

/-- A list with a repeated last entry holds nothing else than the list. -/
@[simp] theorem mem_repeatLast {β : Type} {items : List β} {item : β} :
    item ∈ repeatLast items ↔ item ∈ items := by
  unfold repeatLast
  rw [List.mem_append, Option.mem_toList]
  constructor
  · rintro (h | h)
    · exact h
    · exact List.mem_of_getLast? h
  · exact Or.inl

/-- Repeating the last entry and mapping a function over a list can be exchanged. -/
theorem map_repeatLast {β γ : Type} (f : β → γ) (items : List β) :
    (repeatLast items).map f = repeatLast (items.map f) := by
  unfold repeatLast
  rw [List.map_append, List.getLast?_map]
  cases items.getLast? with
  | none => rfl
  | some last => rfl

/-- A repeated last entry comes twice. -/
theorem not_nodup_repeatLast {β : Type} {items : List β} (h : items ≠ []) :
    ¬ (repeatLast items).Nodup := by
  intro hnd
  obtain ⟨_, _, hdisjoint⟩ := List.nodup_append.mp hnd
  have hlast := List.getLast?_eq_some_getLast h
  exact hdisjoint _ (List.getLast_mem h) _ (by simp [hlast]) rfl

/-- Repeating the odd last node of a level does not change the level above. -/
theorem parents_repeatLast {level : List String} (hodd : level.length % 2 = 1) :
    parents (repeatLast level) = parents level := by
  induction level using parents.induct with
  | case1 left right rest ih =>
      have hrest : rest.length % 2 = 1 := by
        simp only [List.length_cons] at hodd
        omega
      cases rest with
      | nil => cases hrest
      | cons next tail =>
          have hlast : (left :: right :: next :: tail).getLast? = (next :: tail).getLast? := rfl
          have hmore := ih hrest
          unfold repeatLast at hmore ⊢
          rw [hlast, List.cons_append, List.cons_append, parents, hmore, parents]
  | case2 single => rfl
  | case3 => cases hodd

/-- The root over leaves is the top of the levels over their digests. -/
theorem merkleRoot_eq {leaves : List String} (h : leaves ≠ []) :
    merkleRoot leaves =
      ((levelsFrom leaves.length (leaves.map leaf)).getLast?.bind List.head?).getD "" := by
  cases leaves with
  | nil => exact absurd rfl h
  | cons first rest => rfl

/-- **A repeated last leaf leaves the root as it is**, if the number of leaves was odd and there was
more than one. -/
theorem root_repeatLast {leaves : List String} (hodd : leaves.length % 2 = 1)
    (hmore : 1 < leaves.length) : merkleRoot (repeatLast leaves) = merkleRoot leaves := by
  have hsome : leaves ≠ [] := List.ne_nil_of_length_pos (by omega)
  have hlength : (repeatLast leaves).length = leaves.length + 1 := by
    simp [repeatLast, List.getLast?_eq_some_getLast hsome]
  have hdigests := map_repeatLast leaf leaves
  have hparents : parents (repeatLast (leaves.map leaf)) = parents (leaves.map leaf) :=
    parents_repeatLast (by simpa using hodd)
  have hwidth : (repeatLast (leaves.map leaf)).length = leaves.length + 1 := by
    rw [← hdigests, List.length_map, hlength]
  have hbound : (parents (leaves.map leaf)).length ≤ leaves.length + 1 := by
    rw [length_parents, List.length_map]
    omega
  rw [merkleRoot_eq hsome, merkleRoot_eq (by simp [repeatLast, hsome]), hlength, hdigests,
    getLast?_levelsFrom (by omega) (by omega), hparents, levelsFrom_succ hbound,
    ← getLast?_levelsFrom (by simpa using hmore) (by simp)]

end AuthorityLedger.Merkle
