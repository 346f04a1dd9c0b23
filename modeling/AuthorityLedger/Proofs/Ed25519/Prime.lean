import AuthorityLedger.Ed25519.Curve
import Mathlib.Data.Nat.Prime.Basic
import Mathlib.NumberTheory.LucasPrimality
import Mathlib.Tactic.NormNum.Prime

/-!
# The prime of the coordinate field

That `2^255 - 19` is prime rests on Lucas' test: a number is prime if some power
of a base first meets one at the number less one.  The test asks for the prime
factors of that exponent, which are shown to be prime in the same way until they
are small.

Powers are computed by repeated squaring (`powerMod`), with the same recursion as
the powers of coordinates, which are the case of this prime (`power_eq`).
-/

namespace AuthorityLedger.Ed25519

/-! ## Powers by repeated squaring -/

/-- Power modulo `m` by repeated squaring; the second argument bounds the exponent's bits. -/
def powerMod (m base : Nat) : Nat → Nat → Nat
  | 0, _ => 1
  | bits + 1, exponent =>
    if exponent = 0 then 1
    else
      let half := powerMod m base bits (exponent / 2)
      let square := half * half % m
      if exponent % 2 = 1 then square * base % m else square

/-- Repeated squaring computes the power if the bits are enough for the exponent. -/
theorem powerMod_mod (m base : Nat) {bits exponent : Nat} (h : exponent < 2 ^ bits) :
    powerMod m base bits exponent % m = base ^ exponent % m := by
  induction bits generalizing exponent with
  | zero =>
      obtain rfl : exponent = 0 := by omega
      rfl
  | succ bits ih =>
      by_cases hzero : exponent = 0
      · subst hzero
        rfl
      · have hhalf : exponent / 2 < 2 ^ bits := by
          rw [pow_succ] at h
          omega
        have hsquare : powerMod m base bits (exponent / 2) * powerMod m base bits (exponent / 2) % m =
            base ^ (2 * (exponent / 2)) % m := by
          rw [Nat.mul_mod, ih hhalf, ← Nat.mul_mod, two_mul, pow_add]
        rw [powerMod, if_neg hzero]
        by_cases hodd : exponent % 2 = 1
        · have hexponent : exponent = 2 * (exponent / 2) + 1 := by omega
          simp only [hodd, if_true]
          rw [Nat.mod_mod, Nat.mul_mod, hsquare, Nat.mod_mod, ← Nat.mul_mod, ← pow_succ,
            ← hexponent]
        · have hexponent : exponent = 2 * (exponent / 2) := by omega
          simp only [hodd, if_false]
          rw [hsquare, Nat.mod_mod, ← hexponent]

/-- Powers of coordinates are the powers modulo the prime. -/
theorem power_eq (base bits exponent : Nat) :
    Coordinate.power base bits exponent = powerMod prime base bits exponent := by
  induction bits generalizing exponent with
  | zero => rfl
  | succ bits ih =>
      rw [Coordinate.power, powerMod, ih]
      rfl

/-! ## Lucas' test -/

/-- A power is one in the residues modulo `m` if repeated squaring says so. -/
theorem cast_pow_eq_one_iff {m base exponent : Nat} (hm : 1 < m) (h : exponent < 2 ^ 255) :
    (base : ZMod m) ^ exponent = 1 ↔ powerMod m base 255 exponent % m = 1 := by
  rw [powerMod_mod m base h, ← Nat.cast_pow, ← Nat.cast_one, ZMod.natCast_eq_natCast_iff',
    Nat.mod_eq_of_lt hm]

/-- The computations of Lucas' test, given the prime factors of `m - 1`, each as often as it
occurs. -/
def passesLucas (m base : Nat) (factors : List Nat) : Bool :=
  decide (1 < m) && decide (m ≤ Nat.pow 2 255) && factors.prod == m - 1 &&
    powerMod m base 255 (m - 1) % m == 1 &&
    factors.all fun q => powerMod m base 255 ((m - 1) / q) % m != 1

/-- A number that passes Lucas' test is prime if the factors are, small ones and others. -/
theorem prime_of_passesLucas {m : Nat} (base : Nat) {small others : List Nat}
    (hsmall : ∀ q ∈ small, q.Prime) (hothers : ∀ q ∈ others, q.Prime)
    (h : passesLucas m base (small ++ others) = true) : m.Prime := by
  simp only [passesLucas, Bool.and_eq_true, decide_eq_true_eq, beq_iff_eq, List.all_eq_true,
    bne_iff_ne] at h
  obtain ⟨⟨⟨⟨hm, hbound⟩, hproduct⟩, hfull⟩, hpart⟩ := h
  have hfactors : ∀ q ∈ small ++ others, q.Prime := List.forall_mem_append.mpr ⟨hsmall, hothers⟩
  have hbits : m - 1 < 2 ^ 255 := lt_of_lt_of_le (Nat.sub_lt (by omega) Nat.one_pos) hbound
  refine lucas_primality m (base : ZMod m) ((cast_pow_eq_one_iff hm hbits).mpr hfull) ?_
  intro q hq hdvd
  rw [← hproduct] at hdvd
  obtain ⟨r, hr, hqr⟩ := (Prime.dvd_prod_iff hq.prime).mp hdvd
  obtain rfl := (Nat.prime_dvd_prime_iff_eq hq (hfactors r hr)).mp hqr
  rw [Ne, cast_pow_eq_one_iff hm (lt_of_le_of_lt (Nat.div_le_self _ _) hbits)]
  exact hpart q hr

/-! ## The factors, from the small ones up -/

theorem prime_2773320623 : Nat.Prime 2773320623 := by
  have hsmall : ∀ q ∈ [2, 2437, 569003], Nat.Prime q := by norm_num
  exact prime_of_passesLucas 5 hsmall (List.forall_mem_nil _) (by decide)

theorem prime_72106336199 : Nat.Prime 72106336199 := by
  have hsmall : ∀ q ∈ [2, 13], Nat.Prime q := by norm_num
  have hothers : ∀ q ∈ [2773320623], Nat.Prime q := by simp [prime_2773320623]
  exact prime_of_passesLucas 7 hsmall hothers (by decide)

set_option maxRecDepth 4000 in
theorem prime_1919519569386763 : Nat.Prime 1919519569386763 := by
  have hsmall : ∀ q ∈ [2, 3, 7, 19, 47, 47, 127, 8574133], Nat.Prime q := by norm_num
  exact prime_of_passesLucas 2 hsmall (List.forall_mem_nil _) (by decide)

set_option maxRecDepth 4000 in
theorem prime_31757755568855353 : Nat.Prime 31757755568855353 := by
  have hsmall : ∀ q ∈ [2, 2, 2, 3, 31, 107, 223, 4153, 430751], Nat.Prime q := by norm_num
  exact prime_of_passesLucas 10 hsmall (List.forall_mem_nil _) (by decide)

set_option maxRecDepth 4000 in
theorem prime_75445702479781427272750846543864801 :
    Nat.Prime 75445702479781427272750846543864801 := by
  have hsmall : ∀ q ∈ [2, 2, 2, 2, 2, 3, 3, 5, 5, 75707], Nat.Prime q := by norm_num
  have hothers : ∀ q ∈ [72106336199, 1919519569386763], Nat.Prime q := by
    simp [prime_72106336199, prime_1919519569386763]
  exact prime_of_passesLucas 7 hsmall hothers (by decide)

set_option maxRecDepth 4000 in
theorem prime_largestFactor : Nat.Prime
    74058212732561358302231226437062788676166966415465897661863160754340907 := by
  have hsmall : ∀ q ∈ [2, 3, 353, 57467, 132049, 1923133], Nat.Prime q := by norm_num
  have hothers : ∀ q ∈ [31757755568855353, 75445702479781427272750846543864801],
      Nat.Prime q := by
    simp [prime_31757755568855353, prime_75445702479781427272750846543864801]
  exact prime_of_passesLucas 2 hsmall hothers (by decide)

set_option maxRecDepth 4000 in
/-- **The coordinates are the elements of a field.** -/
theorem prime_prime : Nat.Prime prime := by
  have hsmall : ∀ q ∈ [2, 2, 3, 65147], Nat.Prime q := by norm_num
  have hothers : ∀ q ∈ [74058212732561358302231226437062788676166966415465897661863160754340907],
      Nat.Prime q := by
    simp [prime_largestFactor]
  exact prime_of_passesLucas 2 hsmall hothers (by decide)

instance : Fact (Nat.Prime prime) := ⟨prime_prime⟩

end AuthorityLedger.Ed25519
