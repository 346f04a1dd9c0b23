import Mathlib.Algebra.Field.Basic
import Mathlib.Tactic.FieldSimp
import Mathlib.Tactic.LinearCombination
import Mathlib.Tactic.Ring

/-!
# The group of an Edwards curve

Points of `y² - x² = 1 + d x² y²` over a field in which minus one is a square and
`d` is not.  Under these conditions the denominators of the addition law never
vanish (`sq_slope_ne_one`), so that the law has no exceptions: it adds every point
to every other, and to itself.  With it the points are a commutative group.
-/

namespace AuthorityLedger.Ed25519

/-- The constants of an Edwards curve whose addition law has no exceptions. -/
structure Curve (F : Type) [Field F] where
  d : F
  /-- A square root of minus one. -/
  i : F
  i_sq : i * i = -1
  two_ne_zero : (2 : F) ≠ 0
  d_ne_sq : ∀ a : F, a * a ≠ d

variable {F : Type} [Field F]

/-- A square times `d` is no square, zero apart. -/
theorem Curve.eq_zero_of_sq_eq (C : Curve F) {a b : F} (h : a * a = C.d * (b * b)) : b = 0 := by
  by_contra hb
  have hsquare : a / b * (a / b) = C.d := by
    field_simp
    linear_combination h
  exact C.d_ne_sq (a / b) hsquare

/-- A point of a curve. -/
@[ext] structure Curve.Affine (C : Curve F) where
  x : F
  y : F
  on : y * y - x * x = 1 + C.d * (x * x) * (y * y)

namespace Curve.Affine

variable {C : Curve F}

/-- The product that both denominators of a sum are made from. -/
def slope (P Q : C.Affine) : F :=
  C.d * (P.x * Q.x) * (P.y * Q.y)

/-- **The addition law has no exceptions.**  Were a slope one or minus one, then `d` would be a
square. -/
theorem sq_slope_ne_one (P Q : C.Affine) : slope P Q * slope P Q ≠ 1 := by
  intro hone
  have hi := C.i_sq
  have hP := P.on
  have hQ := Q.on
  have hdef : slope P Q = C.d * (P.x * Q.x) * (P.y * Q.y) := rfl
  have hplus := C.eq_zero_of_sq_eq (a := C.i * P.x + slope P Q * P.y)
    (b := P.x * P.y * (C.i * Q.x + Q.y)) (by grind)
  have hminus := C.eq_zero_of_sq_eq (a := C.i * P.x - slope P Q * P.y)
    (b := P.x * P.y * (C.i * Q.x - Q.y)) (by grind)
  have hnonzero : slope P Q ≠ 0 := by
    intro hzero
    rw [hzero, mul_zero] at hone
    exact zero_ne_one hone
  have hxy : P.x * P.y ≠ 0 := by
    intro hzero
    apply hnonzero
    rw [hdef]
    linear_combination C.d * Q.x * Q.y * hzero
  have hy : Q.y ≠ 0 := by
    intro hzero
    apply hnonzero
    rw [hdef, hzero]
    ring
  have hsum : C.i * Q.x + Q.y = 0 := (mul_eq_zero.mp hplus).resolve_left hxy
  have hdifference : C.i * Q.x - Q.y = 0 := (mul_eq_zero.mp hminus).resolve_left hxy
  have hdouble : (2 : F) * Q.y = 0 := by linear_combination hsum - hdifference
  exact hy ((mul_eq_zero.mp hdouble).resolve_left C.two_ne_zero)

theorem one_add_slope_ne_zero (P Q : C.Affine) : 1 + slope P Q ≠ 0 := by
  intro h
  apply sq_slope_ne_one P Q
  linear_combination (slope P Q - 1) * h

theorem one_sub_slope_ne_zero (P Q : C.Affine) : 1 - slope P Q ≠ 0 := by
  intro h
  apply sq_slope_ne_one P Q
  linear_combination (-slope P Q - 1) * h

/-! ## The addition law -/

/-- What the sum of two points has for coordinates satisfies the equation of the curve. -/
theorem on_add (P Q : C.Affine) :
    (P.y * Q.y + P.x * Q.x) / (1 - slope P Q) * ((P.y * Q.y + P.x * Q.x) / (1 - slope P Q)) -
        (P.x * Q.y + P.y * Q.x) / (1 + slope P Q) * ((P.x * Q.y + P.y * Q.x) / (1 + slope P Q)) =
      1 + C.d * ((P.x * Q.y + P.y * Q.x) / (1 + slope P Q) *
          ((P.x * Q.y + P.y * Q.x) / (1 + slope P Q))) *
        ((P.y * Q.y + P.x * Q.x) / (1 - slope P Q) *
          ((P.y * Q.y + P.x * Q.x) / (1 - slope P Q))) := by
  have hplus := one_add_slope_ne_zero P Q
  have hminus := one_sub_slope_ne_zero P Q
  have hP := P.on
  have hQ := Q.on
  have hdef : slope P Q = C.d * (P.x * Q.x) * (P.y * Q.y) := rfl
  field_simp
  grind

instance : Zero C.Affine := ⟨⟨0, 1, by ring⟩⟩

instance : Neg C.Affine := ⟨fun P => ⟨-P.x, P.y, by linear_combination P.on⟩⟩

instance : Add C.Affine := ⟨fun P Q =>
  ⟨(P.x * Q.y + P.y * Q.x) / (1 + slope P Q), (P.y * Q.y + P.x * Q.x) / (1 - slope P Q),
    on_add P Q⟩⟩

@[simp] theorem x_zero : (0 : C.Affine).x = 0 := rfl

@[simp] theorem y_zero : (0 : C.Affine).y = 1 := rfl

@[simp] theorem x_neg (P : C.Affine) : (-P).x = -P.x := rfl

@[simp] theorem y_neg (P : C.Affine) : (-P).y = P.y := rfl

/-- The first coordinate of a sum, without the division. -/
theorem x_add_mul (P Q : C.Affine) : (P + Q).x * (1 + slope P Q) = P.x * Q.y + P.y * Q.x :=
  div_mul_cancel₀ _ (one_add_slope_ne_zero P Q)

/-- The second coordinate of a sum, without the division. -/
theorem y_add_mul (P Q : C.Affine) : (P + Q).y * (1 - slope P Q) = P.y * Q.y + P.x * Q.x :=
  div_mul_cancel₀ _ (one_sub_slope_ne_zero P Q)

/-- The first coordinate of a sum. -/
theorem x_add (P Q : C.Affine) : (P + Q).x = (P.x * Q.y + P.y * Q.x) / (1 + slope P Q) := rfl

/-- The second coordinate of a sum. -/
theorem y_add (P Q : C.Affine) : (P + Q).y = (P.y * Q.y + P.x * Q.x) / (1 - slope P Q) := rfl

/-! ## The group -/

theorem slope_comm (P Q : C.Affine) : slope P Q = slope Q P := by
  unfold slope
  ring

/-- The first coordinates of three points that are added from the left and from the right, each
multiplied by all denominators. -/
theorem assoc_numerator_x {R : Type} [CommRing R] {d x₁ y₁ x₂ y₂ x₃ y₃ s t : R}
    (h₁ : y₁ * y₁ - x₁ * x₁ = 1 + d * (x₁ * x₁) * (y₁ * y₁))
    (h₂ : y₂ * y₂ - x₂ * x₂ = 1 + d * (x₂ * x₂) * (y₂ * y₂))
    (h₃ : y₃ * y₃ - x₃ * x₃ = 1 + d * (x₃ * x₃) * (y₃ * y₃))
    (hs : s = d * (x₁ * x₂) * (y₁ * y₂)) (ht : t = d * (x₂ * x₃) * (y₂ * y₃)) :
    ((x₁ * y₂ + y₁ * x₂) * (1 - s) * y₃ + (y₁ * y₂ + x₁ * x₂) * (1 + s) * x₃) *
        ((1 + t) * (1 - t) + d * (x₁ * y₁) * ((x₂ * y₃ + y₂ * x₃) * (y₂ * y₃ + x₂ * x₃))) =
      (x₁ * ((y₂ * y₃ + x₂ * x₃) * (1 + t)) + y₁ * ((x₂ * y₃ + y₂ * x₃) * (1 - t))) *
        ((1 + s) * (1 - s) + d * ((x₁ * y₂ + y₁ * x₂) * (y₁ * y₂ + x₁ * x₂)) * (x₃ * y₃)) := by
  grind

/-- The same for the second coordinates. -/
theorem assoc_numerator_y {R : Type} [CommRing R] {d x₁ y₁ x₂ y₂ x₃ y₃ s t : R}
    (h₁ : y₁ * y₁ - x₁ * x₁ = 1 + d * (x₁ * x₁) * (y₁ * y₁))
    (h₂ : y₂ * y₂ - x₂ * x₂ = 1 + d * (x₂ * x₂) * (y₂ * y₂))
    (h₃ : y₃ * y₃ - x₃ * x₃ = 1 + d * (x₃ * x₃) * (y₃ * y₃))
    (hs : s = d * (x₁ * x₂) * (y₁ * y₂)) (ht : t = d * (x₂ * x₃) * (y₂ * y₃)) :
    ((y₁ * y₂ + x₁ * x₂) * (1 + s) * y₃ + (x₁ * y₂ + y₁ * x₂) * (1 - s) * x₃) *
        ((1 + t) * (1 - t) - d * (x₁ * y₁) * ((x₂ * y₃ + y₂ * x₃) * (y₂ * y₃ + x₂ * x₃))) =
      (y₁ * ((y₂ * y₃ + x₂ * x₃) * (1 + t)) + x₁ * ((x₂ * y₃ + y₂ * x₃) * (1 - t))) *
        ((1 + s) * (1 - s) - d * ((x₁ * y₂ + y₁ * x₂) * (y₁ * y₂ + x₁ * x₂)) * (x₃ * y₃)) := by
  grind

/-- Adding three points, it does not matter which two are added first. -/
theorem add_assoc' (P Q R : C.Affine) : P + Q + R = P + (Q + R) := by
  have hleftPlus := one_add_slope_ne_zero P Q
  have hleftMinus := one_sub_slope_ne_zero P Q
  have hrightPlus := one_add_slope_ne_zero Q R
  have hrightMinus := one_sub_slope_ne_zero Q R
  have hleft : slope (P + Q) R = C.d * ((P + Q).x * R.x) * ((P + Q).y * R.y) := rfl
  have hright : slope P (Q + R) = C.d * (P.x * (Q + R).x) * (P.y * (Q + R).y) := rfl
  have hx : (P + Q + R).x = (P + (Q + R)).x := by
    rw [x_add (P + Q) R, x_add P (Q + R),
      div_eq_div_iff (one_add_slope_ne_zero _ _) (one_add_slope_ne_zero _ _), hleft, hright,
      x_add P Q, y_add P Q, x_add Q R, y_add Q R]
    field_simp
    linear_combination assoc_numerator_x P.on Q.on R.on (s := slope P Q) rfl (t := slope Q R) rfl
  have hy : (P + Q + R).y = (P + (Q + R)).y := by
    rw [y_add (P + Q) R, y_add P (Q + R),
      div_eq_div_iff (one_sub_slope_ne_zero _ _) (one_sub_slope_ne_zero _ _), hleft, hright,
      x_add P Q, y_add P Q, x_add Q R, y_add Q R]
    field_simp
    linear_combination assoc_numerator_y P.on Q.on R.on (s := slope P Q) rfl (t := slope Q R) rfl
  exact Curve.Affine.ext hx hy

/-- **The points of a curve are a commutative group.** -/
instance : AddCommGroup C.Affine where
  add_assoc := add_assoc'
  zero_add P := by
    apply Curve.Affine.ext
    · simp [x_add, slope]
    · simp [y_add, slope]
  add_zero P := by
    apply Curve.Affine.ext
    · simp [x_add, slope]
    · simp [y_add, slope]
  nsmul := nsmulRec
  zsmul := zsmulRec
  neg_add_cancel P := by
    have hx : (-P + P).x = 0 := by
      rw [x_add, x_neg, y_neg]
      ring
    have hy : (-P + P).y = 1 := by
      have hone : 1 - slope (-P) P = P.y * P.y - P.x * P.x := by
        rw [slope, x_neg, y_neg]
        linear_combination -P.on
      have hne := one_sub_slope_ne_zero (-P) P
      rw [y_add, div_eq_one_iff_eq hne, hone, x_neg, y_neg]
      ring
    exact Curve.Affine.ext hx hy
  add_comm P Q := by
    apply Curve.Affine.ext
    · rw [x_add, x_add, slope_comm]
      ring
    · rw [y_add, y_add, slope_comm]
      ring

end Curve.Affine

end AuthorityLedger.Ed25519
