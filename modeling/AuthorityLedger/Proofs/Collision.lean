import AuthorityLedger.Hash.Digest

/-!
# Collisions

Digests are shorter than what they are made from, so that different byte strings
with one digest exist, although none have been found.  What an equality of
digests tells is therefore a choice: the byte strings are equal, or they are a
collision (`digestText_eq_iff`).  A collision is always one of two given byte
strings, or one among the byte strings of two given lists; that there is some
collision somewhere would say nothing.
-/

namespace AuthorityLedger

/-- Two different byte strings have one digest. -/
def Collide (a b : Bytes) : Prop :=
  a ≠ b ∧ sha256 a = sha256 b

/-- A byte string of one list collides with one of the other. -/
def CollideAmong (xs ys : List Bytes) : Prop :=
  ∃ a ∈ xs, ∃ b ∈ ys, Collide a b

/-- **What equal digests tell.** -/
theorem digestText_eq_iff {a b : Bytes} :
    digestText a = digestText b ↔ a = b ∨ Collide a b := by
  constructor
  · intro h
    by_cases hsame : a = b
    · exact Or.inl hsame
    · exact Or.inr ⟨hsame, sha256_eq_of_digestText_eq h⟩
  · rintro (rfl | ⟨_, h⟩)
    · rfl
    · unfold digestText
      rw [h]

/-- A collision among some byte strings is one among more. -/
theorem CollideAmong.mono {xs ys xs' ys' : List Bytes} (h : CollideAmong xs ys) (hx : xs ⊆ xs')
    (hy : ys ⊆ ys') : CollideAmong xs' ys' := by
  obtain ⟨a, ha, b, hb, hcollide⟩ := h
  exact ⟨a, hx ha, b, hy hb, hcollide⟩

end AuthorityLedger
