import AuthorityLedger.Proofs.Ed25519.Group
import AuthorityLedger.Proofs.Ed25519.Prime
import Mathlib.FieldTheory.Finite.Basic

/-!
# The field of coordinates

Coordinates are natural numbers below the prime, and the operations on them are
those of the residues modulo the prime: `cast_add`, `cast_sub`, `cast_mul`,
`cast_power`, `cast_inverse`.  Their square roots are found where there are any
(`exists_sqrtRatio`).

With the constants of the curve, the field is one over which the addition law has
no exceptions (`curve`): a square root of minus one is known, and by Euler's
criterion the constant `d` is not a square.
-/

namespace AuthorityLedger.Ed25519

namespace Coordinate

theorem sub_lt (a b : Nat) : sub a b < prime := Nat.mod_lt _ prime_prime.pos

theorem mul_lt (a b : Nat) : mul a b < prime := Nat.mod_lt _ prime_prime.pos

theorem cast_add (a b : Nat) : (add a b : ZMod prime) = a + b := by
  simp [add]

theorem cast_mul (a b : Nat) : (mul a b : ZMod prime) = a * b := by
  simp [mul]

theorem cast_sub (a : Nat) {b : Nat} (h : b ≤ prime) : (sub a b : ZMod prime) = a - b := by
  simp [sub, Nat.cast_sub h, sub_eq_add_neg]

/-- Reduced coordinates are equal if they are the same residue. -/
theorem eq_of_cast_eq {a b : Nat} (ha : a < prime) (hb : b < prime)
    (h : (a : ZMod prime) = b) : a = b := by
  have hmod := (ZMod.natCast_eq_natCast_iff' a b prime).mp h
  rwa [Nat.mod_eq_of_lt ha, Nat.mod_eq_of_lt hb] at hmod

theorem cast_power (a : Nat) {bits exponent : Nat} (h : exponent < 2 ^ bits) :
    (power a bits exponent : ZMod prime) = (a : ZMod prime) ^ exponent := by
  rw [power_eq, ← Nat.cast_pow, ZMod.natCast_eq_natCast_iff']
  exact powerMod_mod prime a h

/-- Fermat's inverse is the inverse; zero has zero for one. -/
theorem cast_inverse (a : Nat) : (inverse a : ZMod prime) = (a : ZMod prime)⁻¹ := by
  have hbits : prime - 2 < 2 ^ 255 := by decide
  rw [inverse, cast_power a hbits]
  by_cases hzero : (a : ZMod prime) = 0
  · have hexponent : prime - 2 ≠ 0 := by decide
    rw [hzero, zero_pow hexponent, inv_zero]
  · have hfermat := ZMod.pow_card_sub_one_eq_one hzero
    have hexponent : prime - 1 = prime - 2 + 1 := by decide
    rw [hexponent, pow_succ] at hfermat
    exact eq_inv_of_mul_eq_one_left hfermat

end Coordinate

open Coordinate

theorem two_ne_zero : (2 : ZMod prime) ≠ 0 := by
  intro h
  have hcast : ((2 : Nat) : ZMod prime) = (0 : Nat) := by exact_mod_cast h
  exact absurd (eq_of_cast_eq (by decide) (by decide) hcast) (by decide)

theorem cast_imaginary_sq : (imaginary : ZMod prime) * imaginary = -1 := by
  have hcompute : mul imaginary imaginary = prime - 1 := by decide
  have hcast := cast_mul imaginary imaginary
  rw [hcompute, Nat.cast_sub prime_prime.one_le] at hcast
  simpa using hcast.symm

set_option maxRecDepth 8000 in
/-- Euler's criterion for the constant of the curve. -/
theorem sq_ne_curveConstant (a : ZMod prime) : a * a ≠ curveConstant := by
  intro hsquare
  have hcompute : power curveConstant 255 ((prime - 1) / 2) = prime - 1 := by decide
  have hbits : (prime - 1) / 2 < 2 ^ 255 := by decide
  have hdouble : 2 * ((prime - 1) / 2) = prime - 1 := by decide
  have hcast := cast_power curveConstant hbits
  rw [hcompute, Nat.cast_sub prime_prime.one_le, ← hsquare, ← sq, ← pow_mul, hdouble] at hcast
  have hminus : a ^ (prime - 1) = -1 := by simpa using hcast.symm
  by_cases hzero : a = 0
  · rw [hzero, zero_pow (by decide)] at hminus
    exact one_ne_zero (neg_eq_zero.mp hminus.symm)
  · rw [ZMod.pow_card_sub_one_eq_one hzero] at hminus
    exact two_ne_zero (by linear_combination hminus)

/-- The curve of the signature scheme. -/
def curve : Curve (ZMod prime) where
  d := curveConstant
  i := imaginary
  i_sq := cast_imaginary_sq
  two_ne_zero := two_ne_zero
  d_ne_sq := sq_ne_curveConstant

/-! ## Square roots -/

namespace Coordinate

/-- The even one of a root and its negative. -/
def evenRoot (root : Nat) : Nat :=
  if root % 2 = 1 then prime - root else root

theorem evenRoot_spec {root : Nat} (h : root < prime) :
    evenRoot root < prime ∧ evenRoot root % 2 = 0 ∧
      (evenRoot root : ZMod prime) * evenRoot root = (root : ZMod prime) * root := by
  have hodd : prime % 2 = 1 := by decide
  unfold evenRoot
  by_cases hroot : root % 2 = 1
  · rw [if_pos hroot]
    refine ⟨by omega, by omega, ?_⟩
    rw [Nat.cast_sub h.le]
    simp
  · rw [if_neg hroot]
    exact ⟨h, by omega, rfl⟩

/-- Half of the powers of a square meet one and half of them minus one. -/
theorem sq_pow_eq {w : ZMod prime} (h : w ≠ 0) :
    (w * w) ^ ((prime - 1) / 4) = 1 ∨ (w * w) ^ ((prime - 1) / 4) = -1 := by
  have hexponent : 2 * ((prime - 1) / 4) * 2 = prime - 1 := by decide
  have hone : (w ^ (2 * ((prime - 1) / 4))) * (w ^ (2 * ((prime - 1) / 4))) = 1 := by
    rw [← sq, ← pow_mul, hexponent]
    exact ZMod.pow_card_sub_one_eq_one h
  rw [← sq, ← pow_mul]
  exact mul_self_eq_one_iff.mp hone

/-- The candidate for the root of a quotient that has one is right up to the square root of minus
one. -/
theorem candidate_eq {u v x : ZMod prime} (h : u = v * (x * x)) (hv : v ≠ 0) :
    let candidate := u * (v * v * v) * (u * (v * v * v * (v * v * v) * v)) ^ ((prime - 5) / 8)
    v * (candidate * candidate) = u ∨ v * (candidate * candidate) = -u := by
  intro candidate
  have hexponent : 2 * ((prime - 5) / 8) + 1 = (prime - 1) / 4 := by decide
  have hsquare : u * (v * v * v * (v * v * v) * v) = (v ^ 4 * x) * (v ^ 4 * x) := by
    rw [h]
    ring
  have hpower : v * (candidate * candidate) = u * ((v ^ 4 * x) * (v ^ 4 * x)) ^ ((prime - 1) / 4) := by
    rw [← hsquare, ← hexponent, pow_succ, two_mul, pow_add]
    ring
  rw [hpower]
  by_cases hx : x = 0
  · left
    rw [h, hx]
    ring
  · rcases sq_pow_eq (mul_ne_zero (pow_ne_zero 4 hv) hx) with hone | hminus
    · left
      rw [hone, mul_one]
    · right
      rw [hminus, mul_neg_one]

/-- **Square roots are found where there are any**, and the one that is found is even. -/
theorem exists_sqrtRatio {u v : Nat} {x : ZMod prime} (hu : u < prime)
    (h : (u : ZMod prime) = v * (x * x)) (hv : (v : ZMod prime) ≠ 0) :
    ∃ root, sqrtRatio? u v = some root ∧ root < prime ∧ root % 2 = 0 ∧
      (root : ZMod prime) * root = x * x := by
  have hbits : (prime - 5) / 8 < 2 ^ 255 := by decide
  let v3 := mul (mul v v) v
  let v7 := mul (mul v3 v3) v
  let candidate := mul (mul u v3) (power (mul u v7) 255 ((prime - 5) / 8))
  have hcandidate : (candidate : ZMod prime) = u * (v * v * v) *
      (u * (v * v * v * (v * v * v) * v)) ^ ((prime - 5) / 8) := by
    simp only [candidate, v7, v3, cast_mul, cast_power _ hbits]
  have hroot : sqrtRatio? u v =
      if mul v (mul candidate candidate) = u then some (evenRoot candidate)
      else if mul v (mul candidate candidate) = sub 0 u then
        some (evenRoot (mul candidate imaginary))
      else none := rfl
  have hcases := candidate_eq h hv
  rw [← hcandidate] at hcases
  by_cases hcheck : mul v (mul candidate candidate) = u
  · obtain ⟨hlt, heven, hsquare⟩ := evenRoot_spec (mul_lt (mul u v3) _ : candidate < prime)
    refine ⟨evenRoot candidate, by rw [hroot, if_pos hcheck], hlt, heven, ?_⟩
    have hcast := congrArg (Nat.cast (R := ZMod prime)) hcheck
    rw [cast_mul, cast_mul, h] at hcast
    rw [hsquare]
    exact mul_left_cancel₀ hv hcast
  · have hminus : (v : ZMod prime) * (candidate * candidate) = -u := by
      refine hcases.resolve_left ?_
      intro hplus
      apply hcheck
      apply eq_of_cast_eq (mul_lt _ _) hu
      rw [cast_mul, cast_mul, hplus]
    have hsecond : mul v (mul candidate candidate) = sub 0 u := by
      apply eq_of_cast_eq (mul_lt _ _) (sub_lt _ _)
      rw [cast_mul, cast_mul, hminus, cast_sub _ hu.le]
      simp
    obtain ⟨hlt, heven, hsquare⟩ := evenRoot_spec (mul_lt candidate imaginary)
    refine ⟨evenRoot (mul candidate imaginary),
      by rw [hroot, if_neg hcheck, if_pos hsecond], hlt, heven, ?_⟩
    rw [hsquare, cast_mul]
    apply mul_left_cancel₀ hv
    rw [h] at hminus
    linear_combination (v * (candidate * candidate) : ZMod prime) * cast_imaginary_sq - hminus

end Coordinate

end AuthorityLedger.Ed25519
