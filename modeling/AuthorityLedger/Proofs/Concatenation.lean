import Mathlib

/-!
# Texts put end to end

What is signed and what is hashed is made of several texts put end to end, with
no mark where one stops and the next begins.  The texts can be told apart again
as soon as their lengths are known (`eq_of_join_eq_of_lengths_eq`); and since
the whole tells the sum of the lengths, it is enough to know all lengths but one
(`eq_of_join_eq_of_other_lengths_eq`), or all texts but one
(`eq_of_join_eq_of_others_eq`).  Where the texts differ and the whole does not,
at least two of them have changed their lengths (`exists_lengths_ne_of_join_eq`).
-/

namespace AuthorityLedger

/-- Numbers with a known sum are known if all but one of them are. -/
theorem eq_of_sum_eq_of_others_eq {m n : List Nat} {i : Nat} (hsum : m.sum = n.sum)
    (hlength : m.length = n.length) (hothers : ∀ j, j ≠ i → m[j]? = n[j]?) : m = n := by
  induction m generalizing n i with
  | nil => exact (List.eq_nil_of_length_eq_zero hlength.symm).symm
  | cons x m ih =>
      cases n with
      | nil => cases hlength
      | cons y n =>
          rw [List.sum_cons, List.sum_cons] at hsum
          cases i with
          | zero =>
              have htail : m = n := List.ext_getElem? fun j => by
                have hj := hothers (j + 1) (Nat.succ_ne_zero j)
                rwa [List.getElem?_cons_succ, List.getElem?_cons_succ] at hj
              subst htail
              rw [Nat.add_right_cancel hsum]
          | succ i =>
              have hhead : x = y := Option.some.inj (hothers 0 (Nat.zero_ne_add_one i))
              subst hhead
              have hrest : ∀ j, j ≠ i → m[j]? = n[j]? := by
                intro j hj
                have hlater := hothers (j + 1) (fun h => hj (Nat.succ.inj h))
                rwa [List.getElem?_cons_succ, List.getElem?_cons_succ] at hlater
              rw [ih (Nat.add_left_cancel hsum) (Nat.succ.inj hlength) hrest]

/-- Texts put end to end can be told apart again if their lengths are known. -/
theorem eq_of_join_eq_of_lengths_eq {a b : List String} (hjoin : String.join a = String.join b)
    (hlengths : a.map String.length = b.map String.length) : a = b := by
  induction a generalizing b with
  | nil =>
      cases b with
      | nil => rfl
      | cons y b => cases hlengths
  | cons x a ih =>
      cases b with
      | nil => cases hlengths
      | cons y b =>
          obtain ⟨hlength, hrest⟩ := List.cons_eq_cons.mp hlengths
          rw [String.join_cons, String.join_cons] at hjoin
          have hchars : x.toList ++ (String.join a).toList = y.toList ++ (String.join b).toList := by
            rw [← String.toList_append, ← String.toList_append, hjoin]
          have hwidth : x.toList.length = y.toList.length := by
            rw [String.length_toList, String.length_toList, hlength]
          have hhead : x = y := String.toList_inj.mp (List.append_inj_left hchars hwidth)
          subst hhead
          rw [ih ((String.append_right_inj x).mp hjoin) hrest]

/-- Texts put end to end can be told apart again if all lengths but one are known. -/
theorem eq_of_join_eq_of_other_lengths_eq {a b : List String} {i : Nat}
    (hjoin : String.join a = String.join b) (hcount : a.length = b.length)
    (hothers : ∀ j, j ≠ i → a[j]?.map String.length = b[j]?.map String.length) : a = b := by
  refine eq_of_join_eq_of_lengths_eq hjoin (eq_of_sum_eq_of_others_eq (i := i) ?_ ?_ ?_)
  · rw [← String.length_join, ← String.length_join, hjoin]
  · rw [List.length_map, List.length_map, hcount]
  · intro j hj
    rw [List.getElem?_map, List.getElem?_map, hothers j hj]

/-- Texts put end to end can be told apart again if all but one of them are known. -/
theorem eq_of_join_eq_of_others_eq {a b : List String} {i : Nat}
    (hjoin : String.join a = String.join b) (hcount : a.length = b.length)
    (hothers : ∀ j, j ≠ i → a[j]? = b[j]?) : a = b := by
  refine eq_of_join_eq_of_other_lengths_eq (i := i) hjoin hcount ?_
  intro j hj
  rw [hothers j hj]

/-- A change that the whole does not show changes the lengths of two texts at least. -/
theorem exists_lengths_ne_of_join_eq {a b : List String} (hjoin : String.join a = String.join b)
    (hcount : a.length = b.length) (hne : a ≠ b) :
    ∃ i j : Nat, i ≠ j ∧ a[i]?.map String.length ≠ b[i]?.map String.length ∧
      a[j]?.map String.length ≠ b[j]?.map String.length := by
  have hsome (i : Nat) : ∃ j : Nat, j ≠ i ∧ a[j]?.map String.length ≠ b[j]?.map String.length := by
    by_contra hnone
    refine hne (eq_of_join_eq_of_other_lengths_eq (i := i) hjoin hcount ?_)
    intro j hj
    by_contra hlengths
    exact hnone ⟨j, hj, hlengths⟩
  obtain ⟨i, _, hi⟩ := hsome 0
  obtain ⟨j, hne, hj⟩ := hsome i
  exact ⟨i, j, hne.symm, hi, hj⟩

end AuthorityLedger
