import AuthorityLedger.Proofs.Ed25519.Field

/-!
# What the points of the program stand for

A point in extended coordinates stands for a point of the curve (`Denotes`), and
the operations of the program on the one are those of the group on the other:
`Denotes.add`, `Denotes.double`, `Denotes.negate` and, since repeated doubling
adds up, `Denotes.scale`.

The bytes of a point depend on the point of the curve alone (`Denotes.encode_eq`)
and are read back to it (`exists_decode_encode`).
-/

namespace AuthorityLedger.Ed25519.Point

open Coordinate Curve.Affine

/-- Extended coordinates that stand for a point of the curve. -/
structure Denotes (p : Point) (P : curve.Affine) : Prop where
  x_lt : p.x < prime
  y_lt : p.y < prime
  t_lt : p.t < prime
  z_ne : (p.z : ZMod prime) ≠ 0
  x_eq : (p.x : ZMod prime) = P.x * p.z
  y_eq : (p.y : ZMod prime) = P.y * p.z
  t_eq : (p.t : ZMod prime) = P.x * P.y * p.z

/-! ## The operations -/

/-- Both addition and doubling end by multiplying four values crosswise. -/
theorem denotes_of_crosswise {e f g h : Nat} {P : curve.Affine} (hf : (f : ZMod prime) ≠ 0)
    (hg : (g : ZMod prime) ≠ 0) (hx : P.x * g = e) (hy : P.y * f = h) :
    (⟨mul e f, mul g h, mul f g, mul e h⟩ : Point).Denotes P where
  x_lt := mul_lt _ _
  y_lt := mul_lt _ _
  t_lt := mul_lt _ _
  z_ne := by
    rw [cast_mul]
    exact mul_ne_zero hf hg
  x_eq := by
    rw [cast_mul, cast_mul, ← hx]
    ring
  y_eq := by
    rw [cast_mul, cast_mul, ← hy]
    ring
  t_eq := by
    rw [cast_mul, cast_mul, ← hx, ← hy]
    ring

theorem denotes_identity : identity.Denotes 0 where
  x_lt := prime_prime.pos
  y_lt := prime_prime.one_lt
  t_lt := prime_prime.pos
  z_ne := by simp [identity]
  x_eq := by simp [identity]
  y_eq := by simp [identity]
  t_eq := by simp [identity]

namespace Denotes

variable {p q : Point} {P Q : curve.Affine}

theorem add (hp : p.Denotes P) (hq : q.Denotes Q) : (p.add q).Denotes (P + Q) := by
  have hscale : (2 : ZMod prime) * (p.z * q.z) ≠ 0 :=
    mul_ne_zero two_ne_zero (mul_ne_zero hp.z_ne hq.z_ne)
  have hslope : slope P Q = curveConstant * (P.x * Q.x) * (P.y * Q.y) := rfl
  let a := mul (sub p.y p.x) (sub q.y q.x)
  let b := mul (Coordinate.add p.y p.x) (Coordinate.add q.y q.x)
  let c := mul (mul p.t (2 * curveConstant)) q.t
  let d := mul p.z (2 * q.z)
  have ha : (a : ZMod prime) = (P.y - P.x) * (Q.y - Q.x) * (p.z * q.z) := by
    simp only [a, cast_mul, cast_sub _ hp.x_lt.le, cast_sub _ hq.x_lt.le, hp.x_eq, hp.y_eq,
      hq.x_eq, hq.y_eq]
    ring
  have hb : (b : ZMod prime) = (P.y + P.x) * (Q.y + Q.x) * (p.z * q.z) := by
    simp only [b, cast_mul, cast_add, hp.x_eq, hp.y_eq, hq.x_eq, hq.y_eq]
    ring
  have hc : (c : ZMod prime) = slope P Q * (2 * (p.z * q.z)) := by
    simp only [c, cast_mul, hp.t_eq, hq.t_eq, Nat.cast_mul, Nat.cast_ofNat, hslope]
    ring
  have hd : (d : ZMod prime) = 2 * (p.z * q.z) := by
    simp only [d, cast_mul, Nat.cast_mul, Nat.cast_ofNat]
    ring
  have hf : (sub d c : ZMod prime) = (1 - slope P Q) * (2 * (p.z * q.z)) := by
    rw [cast_sub _ (mul_lt _ _).le, hc, hd]
    ring
  have hg : (Coordinate.add d c : ZMod prime) = (1 + slope P Q) * (2 * (p.z * q.z)) := by
    rw [cast_add, hc, hd]
    ring
  have hcross : p.add q = ⟨mul (sub b a) (sub d c), mul (Coordinate.add d c) (Coordinate.add b a),
      mul (sub d c) (Coordinate.add d c), mul (sub b a) (Coordinate.add b a)⟩ := rfl
  rw [hcross]
  apply denotes_of_crosswise
  · rw [hf]
    exact mul_ne_zero (one_sub_slope_ne_zero P Q) hscale
  · rw [hg]
    exact mul_ne_zero (one_add_slope_ne_zero P Q) hscale
  · rw [hg, cast_sub _ (mul_lt _ _).le, ha, hb]
    linear_combination (2 * (p.z * q.z) : ZMod prime) * x_add_mul P Q
  · rw [hf, cast_add, ha, hb]
    linear_combination (2 * (p.z * q.z) : ZMod prime) * y_add_mul P Q

theorem double (hp : p.Denotes P) : p.double.Denotes (P + P) := by
  have hscale : (p.z * p.z : ZMod prime) ≠ 0 := mul_ne_zero hp.z_ne hp.z_ne
  have hslope : slope P P = P.y * P.y - P.x * P.x - 1 := by
    have hdef : slope P P = curve.d * (P.x * P.x) * (P.y * P.y) := rfl
    rw [hdef]
    linear_combination -P.on
  let a := mul p.x p.x
  let b := mul p.y p.y
  let c := mul p.z (2 * p.z)
  let s := p.x + p.y
  have ha : (a : ZMod prime) = P.x * P.x * (p.z * p.z) := by
    simp only [a, cast_mul, hp.x_eq]
    ring
  have hb : (b : ZMod prime) = P.y * P.y * (p.z * p.z) := by
    simp only [b, cast_mul, hp.y_eq]
    ring
  have hc : (c : ZMod prime) = 2 * (p.z * p.z) := by
    simp only [c, cast_mul, Nat.cast_mul, Nat.cast_ofNat]
    ring
  have hs : (mul s s : ZMod prime) = (P.x + P.y) * (P.x + P.y) * (p.z * p.z) := by
    simp only [s, cast_mul, Nat.cast_add, hp.x_eq, hp.y_eq]
    ring
  have hg : (sub a b : ZMod prime) = -(1 + slope P P) * (p.z * p.z) := by
    rw [cast_sub _ (mul_lt _ _).le, ha, hb, hslope]
    ring
  have hf : (Coordinate.add c (sub a b) : ZMod prime) = (1 - slope P P) * (p.z * p.z) := by
    rw [cast_add, hc, hg]
    ring
  have hcross : p.double =
      ⟨mul (sub (Coordinate.add a b) (mul s s)) (Coordinate.add c (sub a b)),
        mul (sub a b) (Coordinate.add a b), mul (Coordinate.add c (sub a b)) (sub a b),
        mul (sub (Coordinate.add a b) (mul s s)) (Coordinate.add a b)⟩ := rfl
  rw [hcross]
  apply denotes_of_crosswise
  · rw [hf]
    exact mul_ne_zero (one_sub_slope_ne_zero P P) hscale
  · rw [hg]
    exact mul_ne_zero (neg_ne_zero.mpr (one_add_slope_ne_zero P P)) hscale
  · rw [hg, cast_sub _ (mul_lt _ _).le, cast_add, ha, hb, hs]
    linear_combination (-(p.z * p.z) : ZMod prime) * x_add_mul P P
  · rw [hf, cast_add, ha, hb]
    linear_combination (p.z * p.z : ZMod prime) * y_add_mul P P

theorem negate (hp : p.Denotes P) : p.negate.Denotes (-P) where
  x_lt := sub_lt _ _
  y_lt := hp.y_lt
  t_lt := sub_lt _ _
  z_ne := hp.z_ne
  x_eq := by
    simp [Point.negate, cast_sub _ hp.x_lt.le, hp.x_eq]
  y_eq := hp.y_eq
  t_eq := by
    simp [Point.negate, cast_sub _ hp.t_lt.le, hp.t_eq]

/-- Doubling and adding along the bits of a number adds that many times. -/
theorem multiple (hp : p.Denotes P) {bits k : Nat} (h : k < 2 ^ bits) :
    (Point.multiple bits k p).Denotes (k • P) := by
  induction bits generalizing k with
  | zero =>
      obtain rfl : k = 0 := by omega
      rw [zero_nsmul]
      exact denotes_identity
  | succ bits ih =>
      by_cases hzero : k = 0
      · rw [Point.multiple, if_pos hzero, hzero, zero_nsmul]
        exact denotes_identity
      · have hhalf : k / 2 < 2 ^ bits := by
          rw [pow_succ] at h
          omega
        have htwice := (ih hhalf).double
        rw [← two_nsmul, ← mul_nsmul] at htwice
        rw [Point.multiple, if_neg hzero]
        by_cases hodd : k % 2 = 1
        · have hk : k = k / 2 * 2 + 1 := by omega
          have hsum := htwice.add hp
          rw [← succ_nsmul, ← hk] at hsum
          simpa only [hodd, if_true] using hsum
        · have hk : k = k / 2 * 2 := by omega
          rw [← hk] at htwice
          simpa only [hodd, if_false] using htwice

/-- A multiple of a point stands for the multiple in the group. -/
theorem scale (hp : p.Denotes P) {k : Nat} (h : k < 2 ^ 256) :
    (Point.scale k p).Denotes (k • P) :=
  hp.multiple h

end Denotes

/-! ## Bytes -/

/-- The number that the bytes of a point are: its second coordinate, and above it the parity of the
first. -/
def number (P : curve.Affine) : Nat :=
  P.y.val + Nat.pow 2 255 * (P.x.val % 2)

theorem number_lt (P : curve.Affine) : number P < Nat.pow 256 32 := by
  have hy : P.y.val < prime := ZMod.val_lt P.y
  have hprime : prime < Nat.pow 2 255 := by decide
  have hcapacity : Nat.pow 2 255 * 2 = Nat.pow 256 32 := by decide
  have hparity : P.x.val % 2 ≤ 1 := by omega
  have hproduct : Nat.pow 2 255 * (P.x.val % 2) ≤ Nat.pow 2 255 * 1 :=
    Nat.mul_le_mul_left _ hparity
  unfold number
  omega

/-- The bytes of a point depend on the point of the curve alone. -/
theorem Denotes.encode_eq {p : Point} {P : curve.Affine} (hp : p.Denotes P) :
    p.encode = Bytes.ofNatLE 32 (number P) := by
  have hx : mul p.x (inverse p.z) = P.x.val := by
    apply eq_of_cast_eq (mul_lt _ _) (ZMod.val_lt P.x)
    rw [cast_mul, cast_inverse, hp.x_eq, ZMod.natCast_zmod_val, mul_inv_cancel_right₀ hp.z_ne]
  have hy : mul p.y (inverse p.z) = P.y.val := by
    apply eq_of_cast_eq (mul_lt _ _) (ZMod.val_lt P.y)
    rw [cast_mul, cast_inverse, hp.y_eq, ZMod.natCast_zmod_val, mul_inv_cancel_right₀ hp.z_ne]
  simp only [encode, hx, hy, number]

/-- A point whose coordinates are reduced stands for the point with these coordinates. -/
theorem denotes_ofAffine {x y : Nat} {P : curve.Affine} (hx : x < prime) (hy : y < prime)
    (hPx : (x : ZMod prime) = P.x) (hPy : (y : ZMod prime) = P.y) :
    (ofAffine x y).Denotes P where
  x_lt := hx
  y_lt := hy
  t_lt := mul_lt _ _
  z_ne := by simp [ofAffine]
  x_eq := by simp [ofAffine, hPx]
  y_eq := by simp [ofAffine, hPy]
  t_eq := by simp [ofAffine, cast_mul, hPx, hPy]

/-- The root with the right parity is the first coordinate. -/
theorem choose_root {root : Nat} {x : ZMod prime} (hroot : root < prime) (heven : root % 2 = 0)
    (hsquare : (root : ZMod prime) * root = x * x) :
    (if x.val % 2 = 1 then sub 0 root else root) = x.val := by
  have hodd : prime % 2 = 1 := by decide
  have hx : x.val < prime := ZMod.val_lt x
  have hcases : root = x.val ∨ root + x.val = prime ∨ root + x.val = 0 := by
    rcases mul_self_eq_mul_self_iff.mp hsquare with hsame | hopposite
    · left
      apply eq_of_cast_eq hroot hx
      rw [hsame, ZMod.natCast_zmod_val]
    · right
      have hsum : ((root + x.val : Nat) : ZMod prime) = 0 := by
        rw [Nat.cast_add, hopposite, ZMod.natCast_zmod_val, neg_add_cancel]
      obtain ⟨k, hk⟩ := (ZMod.natCast_eq_zero_iff _ _).mp hsum
      have hk2 : k < 2 := by
        by_contra hge
        have hbig : prime * 2 ≤ prime * k := Nat.mul_le_mul_left _ (Nat.not_lt.mp hge)
        omega
      rcases (by omega : k = 0 ∨ k = 1) with rfl | rfl
      · right
        omega
      · left
        omega
  unfold sub
  by_cases hparity : x.val % 2 = 1
  · rw [if_pos hparity, Nat.zero_add]
    rcases hcases with hsame | hsum | hzero
    · omega
    · rw [Nat.mod_eq_of_lt (by omega)]
      omega
    · omega
  · rw [if_neg hparity]
    omega

/-- **The bytes of a point are read back to it.** -/
theorem exists_decode_encode (P : curve.Affine) :
    ∃ p, decode? (Bytes.ofNatLE 32 (number P)) = some p ∧ p.Denotes P := by
  have hy : P.y.val < prime := ZMod.val_lt P.y
  have hprime : prime < Nat.pow 2 255 := by decide
  have hparity : P.x.val % 2 < 2 := Nat.mod_lt _ Nat.two_pos
  have hnumber : Bytes.toNatLE (Bytes.ofNatLE 32 (number P)) = number P := by
    rw [Bytes.toNatLE_ofNatLE, Nat.mod_eq_of_lt (number_lt P)]
  have hlow : number P % Nat.pow 2 255 % prime = P.y.val := by
    rw [number, Nat.add_mul_mod_self_left, Nat.mod_eq_of_lt (hy.trans hprime),
      Nat.mod_eq_of_lt hy]
  have hhigh : number P / Nat.pow 2 255 = P.x.val % 2 := by
    rw [number, Nat.add_mul_div_left _ _ (by decide), Nat.div_eq_of_lt (hy.trans hprime),
      Nat.zero_add]
  let square := mul P.y.val P.y.val
  have hsquare : (square : ZMod prime) = P.y * P.y := by
    simp only [square, cast_mul, ZMod.natCast_zmod_val]
  have hdenominator : (Coordinate.add (mul square curveConstant) 1 : ZMod prime) =
      1 + curve.d * (P.y * P.y) := by
    rw [cast_add, cast_mul, hsquare, Nat.cast_one]
    change P.y * P.y * curve.d + 1 = _
    ring
  have hne : (1 : ZMod prime) + curve.d * (P.y * P.y) ≠ 0 := by
    intro hzero
    have hy0 := curve.eq_zero_of_sq_eq (a := curve.i) (b := P.y) (by
      linear_combination curve.i_sq - hzero)
    rw [hy0] at hzero
    simp at hzero
  obtain ⟨root, hfound, hroot, heven, hrootsq⟩ := exists_sqrtRatio (u := sub square 1)
    (v := Coordinate.add (mul square curveConstant) 1) (x := P.x) (sub_lt _ _) (by
      rw [cast_sub _ prime_prime.one_le, hdenominator, hsquare, Nat.cast_one]
      linear_combination P.on) (by rw [hdenominator]; exact hne)
  have hchosen := choose_root hroot heven hrootsq
  refine ⟨ofAffine P.x.val P.y.val, ?_, ?_⟩
  · unfold decode?
    rw [if_pos (Bytes.length_ofNatLE _ _)]
    simp only [hnumber, hlow, hhigh]
    change (sqrtRatio? (sub square 1) (Coordinate.add (mul square curveConstant) 1)).bind _ = _
    rw [hfound]
    change some (ofAffine (if P.x.val % 2 = 1 then sub 0 root else root) P.y.val) = _
    rw [hchosen]
  · exact denotes_ofAffine (ZMod.val_lt P.x) hy (ZMod.natCast_zmod_val _) (ZMod.natCast_zmod_val _)

end AuthorityLedger.Ed25519.Point
