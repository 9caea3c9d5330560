import Mathlib.NumberTheory.LegendreSymbol.Basic
import Mathlib.Tactic.LinearCombination
import LedgerClient.Curve.Point
import LedgerClient.Proofs.Curve.Primality

/-!
# Points of the curve

The equation `-x² + y² = 1 + d x² y²` says that `x²` is the quotient `(y² - 1) / (d y² + 1)`. Its
denominator is never zero: it would make `d` the quotient of `-1`, a square, and `y²`, a square,
but `d` is none. So the division of the membership test never fails, and by Euler's criterion the
test tells whether an `x` exists.

## Main results

* `Curve.natCast_inverse`, `Curve.natCast_minus`, `Curve.isSquare_iff`: the arithmetic on residues
  is that of the field
* `Curve.denominator_ne_zero`: the denominator is never zero
* `Curve.membership_eq`: the test never fails, and agrees with the plain one
* `Curve.membership_iff`: the test tells whether an `x` belongs to the `y`
-/

namespace LedgerClient.Curve

/-! ## The field -/

section Field

theorem prime_eq : prime = 2 ^ 255 - 19 := by
  rw [prime, Nat.one_shiftLeft]

theorem prime_lt : prime < 2 ^ 255 := by
  rw [prime_eq]
  norm_num

theorem one_lt_prime : 1 < prime :=
  prime_prime.one_lt

theorem two_lt_prime : 2 < prime := by
  rw [prime_eq]
  norm_num

/-- Half of the number before the modulus is even. -/
theorem prime_mod_four : prime % 4 = 1 := by
  rw [prime_eq]
  norm_num

theorem natCast_power {n : Nat} (a : Nat) (h : n < 2 ^ 255) :
    (power a n : ZMod prime) = (a : ZMod prime) ^ n := by
  rw [power_eq a h, ZMod.natCast_mod, Nat.cast_pow]

theorem natCast_minus (a b : Nat) : (minus a b : ZMod prime) = a - b := by
  have hle : b % prime ≤ prime := (Nat.mod_lt _ prime_prime.pos).le
  rw [minus, ZMod.natCast_mod, Nat.cast_add, Nat.cast_sub hle, ZMod.natCast_self, ZMod.natCast_mod,
    zero_sub, sub_eq_add_neg]

theorem natCast_inverse (a : Nat) : (inverse a : ZMod prime) = (a : ZMod prime)⁻¹ := by
  have htwo : 2 < prime := two_lt_prime
  have hlt : prime - 2 < 2 ^ 255 := (Nat.sub_le _ _).trans_lt prime_lt
  rw [inverse, natCast_power a hlt]
  by_cases hzero : (a : ZMod prime) = 0
  · have hpos : prime - 2 ≠ 0 := by omega
    rw [hzero, zero_pow hpos, inv_zero]
  · refine eq_inv_of_mul_eq_one_left ?_
    rw [← pow_succ, show prime - 2 + 1 = prime - 1 by omega]
    exact ZMod.pow_card_sub_one_eq_one hzero

/-- A number has an inverse unless it is zero in the field. -/
theorem inverse?_eq {a : Nat} (h : (a : ZMod prime) ≠ 0) : inverse? a = some (inverse a) := by
  refine if_pos ?_
  rw [Nat.gcd_comm]
  refine (Nat.Prime.coprime_iff_not_dvd prime_prime).mpr fun hdvd => h ?_
  exact (ZMod.natCast_eq_zero_iff a prime).mpr hdvd

theorem mul_inverse {a : Nat} (h : (a : ZMod prime) ≠ 0) : a * inverse a % prime = 1 := by
  rw [← Nat.mod_eq_of_lt one_lt_prime, ← ZMod.natCast_eq_natCast_iff', Nat.cast_mul,
    natCast_inverse, mul_inv_cancel₀ h, Nat.cast_one]

/-- Half of the power that is always one tells the squares. -/
theorem isSquare_iff {a : Nat} (h : a < prime) :
    isSquare a = true ↔ IsSquare (a : ZMod prime) := by
  have hodd := prime_mod_four
  have hhalf : (prime - 1) / 2 = prime / 2 := by omega
  have hlt : (prime - 1) / 2 < 2 ^ 255 :=
    ((Nat.div_le_self _ _).trans (Nat.sub_le _ _)).trans_lt prime_lt
  rw [isSquare, Bool.or_eq_true, beq_iff_eq, beq_iff_eq, power_eq a hlt,
    ← natCast_pow_eq_one one_lt_prime, hhalf]
  by_cases hzero : (a : ZMod prime) = 0
  · have ha : a = 0 := by
      rw [← Nat.mod_eq_of_lt h]
      exact Nat.mod_eq_zero_of_dvd ((ZMod.natCast_eq_zero_iff a prime).mp hzero)
    rw [hzero]
    exact iff_of_true (.inl ha) IsSquare.zero
  · have ha : a ≠ 0 := fun ha => hzero (by rw [ha, Nat.cast_zero])
    rw [ZMod.euler_criterion prime hzero, or_iff_right ha]

end Field

/-! ## The constant -/

section Coefficient

/-- The constant is the quotient that it stands for. -/
theorem natCast_coefficient : (coefficient : ZMod prime) = -121665 / 121666 := by
  have hne : (121666 : ZMod prime) ≠ 0 := by
    intro h
    have hdvd : prime ∣ 121666 := (ZMod.natCast_eq_zero_iff 121666 prime).mp (by exact_mod_cast h)
    have hle := Nat.le_of_dvd (by norm_num) hdvd
    rw [prime_eq] at hle
    norm_num at hle
  have hsum : ((coefficient * 121666 + 121665 : Nat) : ZMod prime) = 0 :=
    (ZMod.natCast_eq_zero_iff _ _).mpr (by norm_num [coefficient, prime_eq])
  push_cast at hsum
  rw [eq_div_iff hne]
  exact eq_neg_of_add_eq_zero_left hsum

/-- The constant is no square. -/
theorem coefficient_pow : (coefficient : ZMod prime) ^ (prime / 2) = -1 := by
  have hlt : prime / 2 < 2 ^ 255 := (Nat.div_le_self _ _).trans_lt prime_lt
  have hpower : power coefficient (prime / 2) = prime - 1 := by decide +kernel
  rw [← natCast_power _ hlt, hpower, Nat.cast_sub one_lt_prime.le, ZMod.natCast_self, Nat.cast_one,
    zero_sub]

/-- **The denominator is never zero.** -/
theorem denominator_ne_zero (y : ZMod prime) : (coefficient : ZMod prime) * y ^ 2 + 1 ≠ 0 := by
  intro h
  have hprod : (coefficient : ZMod prime) * y ^ 2 = -1 := eq_neg_of_add_eq_zero_left h
  have hy : y ≠ 0 := by
    rintro rfl
    rw [zero_pow two_ne_zero, mul_zero, zero_add] at h
    exact one_ne_zero h
  have hmod := prime_mod_four
  have heven : Even (prime / 2) := Nat.even_iff.mpr (by omega)
  have htwice : 2 * (prime / 2) = prime - 1 := by omega
  -- Half of the power that is always one is `-1` on the left and `1` on the right.
  have hleft : ((coefficient : ZMod prime) * y ^ 2) ^ (prime / 2) = -1 := by
    rw [mul_pow, ← pow_mul, htwice, ZMod.pow_card_sub_one_eq_one hy, mul_one, coefficient_pow]
  have hright : ((coefficient : ZMod prime) * y ^ 2) ^ (prime / 2) = 1 := by
    rw [hprod, heven.neg_one_pow]
  have : Fact (2 < prime) := ⟨two_lt_prime⟩
  exact ZMod.neg_one_ne_one (hleft.symm.trans hright)

end Coefficient

/-! ## Membership -/

section Membership

variable {bs : Bytes}

theorem natCast_denominator (y : Nat) :
    ((coefficient * (y * y % prime) + 1) % prime : Nat) =
      (coefficient : ZMod prime) * (y : ZMod prime) ^ 2 + 1 := by
  rw [ZMod.natCast_mod, Nat.cast_add, Nat.cast_mul, ZMod.natCast_mod, Nat.cast_mul, Nat.cast_one,
    sq]

theorem natCast_squareOfX (y : Nat) :
    (squareOfX y : ZMod prime) =
      ((y : ZMod prime) ^ 2 - 1) / ((coefficient : ZMod prime) * (y : ZMod prime) ^ 2 + 1) := by
  rw [squareOfX, ZMod.natCast_mod, Nat.cast_mul, natCast_minus, natCast_inverse,
    natCast_denominator, ZMod.natCast_mod, Nat.cast_mul, Nat.cast_one, ← sq, div_eq_mul_inv]

theorem squareOfX_lt (y : Nat) : squareOfX y < prime :=
  Nat.mod_lt _ prime_prime.pos

/-- The denominator that belongs to a `y` has an inverse. -/
theorem inverse?_denominator (y : Nat) :
    inverse? ((coefficient * (y * y % prime) + 1) % prime) =
      some (inverse ((coefficient * (y * y % prime) + 1) % prime)) := by
  apply inverse?_eq
  rw [natCast_denominator]
  exact denominator_ne_zero y

/-- The quotient that the test needs always exists. -/
theorem squareOfX?_eq (y : Nat) : squareOfX? y = some (squareOfX y) := by
  simp only [squareOfX?, inverse?_denominator, squareOfX, Option.pure_def, Option.bind_eq_bind,
    Option.bind_some]

/-- The test never fails, and agrees with the plain one. -/
theorem membership_eq (bs : Bytes) : membership bs = .ok (isOnCurve bs) := by
  rw [membership, squareOfX?_eq, isOnCurve]
  split
  · next hlength =>
    rw [beq_false_of_ne hlength, Bool.false_and]
    rfl
  · next hlength =>
    rw [Decidable.not_not.mp hlength, beq_self_eq_true, Bool.true_and]
    rfl

/-- The equation of the curve fixes `x²`. -/
theorem exists_x_iff (y : ZMod prime) :
    (∃ x : ZMod prime, -x ^ 2 + y ^ 2 = 1 + coefficient * x ^ 2 * y ^ 2) ↔
      IsSquare ((y ^ 2 - 1) / (coefficient * y ^ 2 + 1)) := by
  rw [isSquare_iff_exists_sq]
  refine exists_congr fun x => ?_
  rw [div_eq_iff (denominator_ne_zero y)]
  constructor
  · intro h
    linear_combination h
  · intro h
    linear_combination h

theorem isOnCurve_iff : isOnCurve bs = true ↔ bs.length = 32 ∧
    ∃ x : ZMod prime, -x ^ 2 + (yOf bs : ZMod prime) ^ 2 =
      1 + coefficient * x ^ 2 * (yOf bs : ZMod prime) ^ 2 := by
  rw [isOnCurve, Bool.and_eq_true, beq_iff_eq, isSquare_iff (squareOfX_lt _), natCast_squareOfX,
    exists_x_iff]

/-- **The test tells whether an `x` belongs to the `y`.** Of 32 bytes the low 255 bits, modulo the
prime, are the `y`. The denominator that belongs to it has an inverse, so the test never fails; it
succeeds just when some `x` solves the equation of the curve. -/
theorem membership_iff (h : bs.length = 32) :
    (∃ member, membership bs = .ok member) ∧ prime = 2 ^ 255 - 19 ∧ Nat.Prime prime ∧
    let y : ZMod prime := (Bytes.toNatLE bs % 2 ^ 255 % prime : Nat)
    let denominator := (coefficient * (yOf bs * yOf bs % prime) + 1) % prime
    (∃ i, inverse? denominator = some i ∧ denominator * i % prime = 1) ∧
    (membership bs = .ok true ↔
      ∃ x : ZMod prime, -x ^ 2 + y ^ 2 = 1 + (-121665 / 121666) * x ^ 2 * y ^ 2) := by
  refine ⟨⟨_, membership_eq bs⟩, prime_eq, prime_prime, ?_⟩
  intro y denominator
  have hy : y = (yOf bs : ZMod prime) := rfl
  have hdenominator : (denominator : ZMod prime) ≠ 0 := by
    rw [natCast_denominator]
    exact denominator_ne_zero _
  refine ⟨⟨_, inverse?_eq hdenominator, mul_inverse hdenominator⟩, ?_⟩
  rw [membership_eq, Except.ok.injEq, isOnCurve_iff, and_iff_right h, ← natCast_coefficient, hy]

/-- The generator is a point. -/
theorem membership_iff_base :
    let bs := Point.base.encode
    bs.length = 32 ∧ membership bs = .ok true ∧
      ∃ x : ZMod prime, -x ^ 2 + ((Bytes.toNatLE bs % 2 ^ 255 % prime : Nat) : ZMod prime) ^ 2 =
        1 + (-121665 / 121666) * x ^ 2 *
          ((Bytes.toNatLE bs % 2 ^ 255 % prime : Nat) : ZMod prime) ^ 2 := by
  intro bs
  have hlength : bs.length = 32 := rfl
  have hmember : membership bs = .ok true := by
    rw [membership_eq]
    exact congrArg Except.ok (by decide +kernel)
  obtain ⟨-, -, -, -, hiff⟩ := membership_iff hlength
  exact ⟨hlength, hmember, hiff.mp hmember⟩

end Membership

end LedgerClient.Curve
