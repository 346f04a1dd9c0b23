import AuthorityLedger.Bytes

/-!
# The Edwards curve of Ed25519

Points of the curve `-x² + y² = 1 + d x² y²` over the integers modulo
`2^255 - 19`, kept in extended coordinates.  The addition law is complete, so
one formula serves every pair of points, those of small order included.

A point is written as 32 bytes: its `y`, least significant byte first, with
the parity of `x` in the top bit.  Reading is lenient in two ways that the
signature scheme relies on: `y` is reduced modulo the prime, and the parity
bit is accepted when `x` is zero.
-/

namespace AuthorityLedger.Ed25519

/-- The prime of the coordinate field. -/
def prime : Nat := Nat.pow 2 255 - 19

/-- The order of the base point. -/
def order : Nat := Nat.pow 2 252 + 27742317777372353535851937790883648493

namespace Coordinate

/-- Sum of two reduced elements. -/
def add (a b : Nat) : Nat := (a + b) % prime

/-- Difference of two reduced elements. -/
def sub (a b : Nat) : Nat := (a + (prime - b)) % prime

/-- Product of two elements. -/
def mul (a b : Nat) : Nat := a * b % prime

/-- Power by repeated squaring; the first argument bounds the exponent's bits. -/
def power (base : Nat) : Nat → Nat → Nat
  | 0, _ => 1
  | bits + 1, exponent =>
    if exponent = 0 then 1
    else
      let half := power base bits (exponent / 2)
      let square := mul half half
      if exponent % 2 = 1 then mul square base else square

/-- The inverse of a nonzero element. -/
def inverse (a : Nat) : Nat := power a 255 (prime - 2)

/-- A square root of minus one. -/
def imaginary : Nat :=
  19681161376707505956807079304988542015446066515923890162744021073123829784752

/-- The even square root of the quotient `u / v`, if there is one. -/
def sqrtRatio? (u v : Nat) : Option Nat :=
  let v3 := mul (mul v v) v
  let v7 := mul (mul v3 v3) v
  let candidate := mul (mul u v3) (power (mul u v7) 255 ((prime - 5) / 8))
  let check := mul v (mul candidate candidate)
  let even (root : Nat) := if root % 2 = 1 then prime - root else root
  if check = u then some (even candidate)
  else if check = sub 0 u then some (even (mul candidate imaginary))
  else none

end Coordinate

open Coordinate

/-- The constant `d` of the curve equation. -/
def curveConstant : Nat :=
  37095705934669439343138083508754565189542113879843219016388785533085940283555

/-- A point in extended coordinates: `x = X / Z`, `y = Y / Z` and `x y = T / Z`. -/
structure Point where
  x : Nat
  y : Nat
  z : Nat
  t : Nat

namespace Point

/-- The neutral point. -/
def identity : Point := ⟨0, 1, 1, 0⟩

/-- The point with the given coordinates. -/
def ofAffine (x y : Nat) : Point := ⟨x, y, 1, mul x y⟩

/-- The base point. -/
def base : Point :=
  ofAffine
    15112221349535400772501151409588531511454012693041857206046113283949847762202
    46316835694926478169428394003475163141307993866256225615783033603165251855960

/-- The sum of two points. -/
def add (p q : Point) : Point :=
  let a := mul (sub p.y p.x) (sub q.y q.x)
  let b := mul (Coordinate.add p.y p.x) (Coordinate.add q.y q.x)
  let c := mul (mul p.t (2 * curveConstant)) q.t
  let d := mul p.z (2 * q.z)
  let e := sub b a
  let f := sub d c
  let g := Coordinate.add d c
  let h := Coordinate.add b a
  ⟨mul e f, mul g h, mul f g, mul e h⟩

/-- The sum of a point with itself. -/
def double (p : Point) : Point :=
  let a := mul p.x p.x
  let b := mul p.y p.y
  let c := mul p.z (2 * p.z)
  let h := Coordinate.add a b
  let s := p.x + p.y
  let e := sub h (mul s s)
  let g := sub a b
  let f := Coordinate.add c g
  ⟨mul e f, mul g h, mul f g, mul e h⟩

/-- The point with the same `y` and the opposite `x`. -/
def negate (p : Point) : Point :=
  ⟨sub 0 p.x, p.y, p.z, sub 0 p.t⟩

/-- A multiple of a point; the first argument bounds the multiplier's bits. -/
def multiple : Nat → Nat → Point → Point
  | 0, _, _ => identity
  | bits + 1, k, p =>
    if k = 0 then identity
    else
      let twice := double (multiple bits (k / 2) p)
      if k % 2 = 1 then add twice p else twice

/-- The multiple of a point by a scalar below `2^256`. -/
def scale (k : Nat) (p : Point) : Point := multiple 256 k p

/-- The 32 bytes of a point. -/
def encode (p : Point) : Bytes :=
  let inverse := Coordinate.inverse p.z
  let x := mul p.x inverse
  let y := mul p.y inverse
  Bytes.ofNatLE 32 (y + Nat.pow 2 255 * (x % 2))

/-- The point that 32 bytes stand for. -/
def decode? (bytes : Bytes) : Option Point :=
  if bytes.length = 32 then do
    let number := Bytes.toNatLE bytes
    let y := number % Nat.pow 2 255 % prime
    let square := mul y y
    let x ← sqrtRatio? (sub square 1) (Coordinate.add (mul square curveConstant) 1)
    return ofAffine (if number / Nat.pow 2 255 = 1 then sub 0 x else x) y
  else none

@[simp] theorem length_encode (p : Point) : p.encode.length = 32 := by
  simp [encode]

end Point

end AuthorityLedger.Ed25519
