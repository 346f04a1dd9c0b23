import AuthorityLedger.Ed25519.Signature
import AuthorityLedger.Proofs.Ed25519.Point

/-!
# A signature verifies

A signature of a message under a seed verifies under the public key of the seed
(`verify_sign`).  The scalar in it is reduced modulo the order of the base point,
so that the argument needs two facts of the group: the multiples of the base
point add, and the multiple by the order is neutral (`order_nsmul_base`).
-/

namespace AuthorityLedger.Ed25519

open Coordinate

/-- The base point of the group. -/
def basePoint : curve.Affine where
  x := Point.base.x
  y := Point.base.y
  on := by
    have hcompute : sub (mul Point.base.y Point.base.y) (mul Point.base.x Point.base.x) =
        Coordinate.add 1 (mul (mul curveConstant (mul Point.base.x Point.base.x))
          (mul Point.base.y Point.base.y)) := by decide
    have hcast := congrArg (Nat.cast (R := ZMod prime)) hcompute
    rw [cast_sub _ (mul_lt _ _).le, cast_add, cast_mul, cast_mul, cast_mul, cast_mul,
      Nat.cast_one] at hcast
    exact hcast

theorem denotes_base : Point.base.Denotes basePoint :=
  Point.denotes_ofAffine (by decide) (by decide) rfl rfl

/-- **The order of the base point.** -/
theorem order_nsmul_base : order • basePoint = 0 := by
  have hdenotes := denotes_base.scale (k := order) (by decide)
  have hx : (Point.base.scale order).x = 0 := by decide +kernel
  have hy : (Point.base.scale order).y = (Point.base.scale order).z := by decide +kernel
  have hxeq := hdenotes.x_eq
  have hyeq := hdenotes.y_eq
  rw [hx, Nat.cast_zero] at hxeq
  rw [hy] at hyeq
  apply Curve.Affine.ext
  · exact (mul_eq_zero.mp hxeq.symm).resolve_right hdenotes.z_ne
  · exact mul_right_cancel₀ hdenotes.z_ne (hyeq.symm.trans (one_mul _).symm)

/-- Multiples of the base point may be reduced modulo the order. -/
theorem mod_order_nsmul_base (k : Nat) : (k % order) • basePoint = k • basePoint := by
  have hsplit : k = k / order * order + k % order := (Nat.div_add_mod' k order).symm
  conv_rhs => rw [hsplit, add_nsmul, mul_nsmul', order_nsmul_base, nsmul_zero, zero_add]

theorem order_lt : order < 2 ^ 256 := by decide

/-- The signing scalar of a seed is short enough to be multiplied by. -/
theorem scalar_lt (seed : Bytes) : (expand seed).1 < 2 ^ 256 := by
  have hlow : Bytes.toNatLE ((sha512 seed).take 32) % Nat.pow 2 254 < Nat.pow 2 254 :=
    Nat.mod_lt _ (by decide)
  have hcapacity : (2 : Nat) ^ 256 = Nat.pow 2 254 * 4 := by decide
  unfold expand
  simp only
  omega

/-- What verification computes in the group is the nonce point. -/
theorem nonce_of_signature (nonce k scalar : Nat) :
    ((nonce + k * scalar) % order) • basePoint + k • -(scalar • basePoint) =
      nonce • basePoint := by
  have hproduct : (k * scalar) • basePoint = k • scalar • basePoint := mul_nsmul' basePoint k scalar
  rw [mod_order_nsmul_base, add_nsmul, hproduct, neg_nsmul, add_neg_cancel_right]

/-- What verification asks for. -/
theorem verify_of_equation {publicKey message signature : Bytes} {key : Point}
    (hdecode : Point.decode? publicKey = some key) (hlength : signature.length = 64)
    (hscalar : Bytes.toNatLE (signature.drop 32) < order)
    (hequation : ((Point.base.scale (Bytes.toNatLE (signature.drop 32))).add
      (key.negate.scale (challenge (signature.take 32) publicKey message))).encode =
        signature.take 32) :
    verify publicKey message signature = true := by
  unfold verify
  simp only [hdecode, hlength, hscalar, and_self, if_true, hequation, beq_self_eq_true]

/-- **A signature verifies** under the public key of the seed that made it. -/
theorem verify_sign (seed message : Bytes) :
    verify (publicKey seed) message (sign seed message) = true := by
  let scalar := (expand seed).1
  let nonce := Bytes.toNatLE (sha512 ((expand seed).2 ++ message)) % order
  let point := (Point.base.scale nonce).encode
  let k := challenge point (publicKey seed) message
  let s := (nonce + k * scalar) % order
  have hsign : sign seed message = point ++ Bytes.ofNatLE 32 s := rfl
  have horder : 0 < order := by decide
  have hnonce : nonce < 2 ^ 256 := (Nat.mod_lt _ horder).trans order_lt
  have hk : k < 2 ^ 256 := (Nat.mod_lt _ horder).trans order_lt
  have hs : s < order := Nat.mod_lt _ horder
  have hpoint : point = Bytes.ofNatLE 32 (Point.number (nonce • basePoint)) :=
    (denotes_base.scale hnonce).encode_eq
  have hkey : publicKey seed = Bytes.ofNatLE 32 (Point.number (scalar • basePoint)) :=
    (denotes_base.scale (scalar_lt seed)).encode_eq
  obtain ⟨key, hdecode, hdenotes⟩ := Point.exists_decode_encode (scalar • basePoint)
  rw [← hkey] at hdecode
  have htake : (sign seed message).take 32 = point := by
    rw [hsign, List.take_left' (Point.length_encode _)]
  have hdrop : Bytes.toNatLE ((sign seed message).drop 32) = s := by
    have hcapacity : order < Nat.pow 256 32 := by decide
    rw [hsign, List.drop_left' (Point.length_encode _), Bytes.toNatLE_ofNatLE,
      Nat.mod_eq_of_lt (hs.trans hcapacity)]
  have hgroup := nonce_of_signature nonce k scalar
  have hequation : ((Point.base.scale s).add (key.negate.scale k)).encode = point := by
    have hsum := (denotes_base.scale (hs.trans order_lt)).add (hdenotes.negate.scale hk)
    rw [hsum.encode_eq, hgroup, hpoint]
  refine verify_of_equation hdecode (length_sign seed message) ?_ ?_
  · rw [hdrop]
    exact hs
  · rw [hdrop, htake]
    exact hequation

end AuthorityLedger.Ed25519
