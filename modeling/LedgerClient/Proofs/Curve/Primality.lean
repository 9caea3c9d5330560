import Mathlib.NumberTheory.LucasPrimality
import Mathlib.Tactic.NormNum.Prime
import LedgerClient.Curve.Field

/-!
# The modulus is prime

A number above one is prime if some root has the greatest order that is possible: the power of the
root by the number before is one, and by no proper part of that number. A certificate names such a
root and the primes of the number before. These are certified first, the small ones by division, so
a chain of certificates ends with the modulus.

## Main definitions

* `Curve.Certificate`: a number, its root, and the primes of the number before
* `Curve.Certificate.Holds`: the certificate is valid, given the primes that are known
* `Curve.Certificate.Chain`: each certificate is valid, given those before it
* `Curve.certificates`: the chain that ends with the modulus

## Main results

* `Curve.power_eq`: what the squarings of `power` compute
* `Curve.Certificate.Holds.prime`, `Curve.Certificate.Chain.prime`: what is certified is prime
* `Curve.prime_prime`: the modulus is prime
-/

namespace LedgerClient.Curve

/-! ## Powers -/

section Powers

/-- One squaring for each bit gives the power for every exponent of so many bits. -/
theorem powerMod_eq (m : Nat) {bits n : Nat} (a : Nat) (h : n < 2 ^ bits) :
    powerMod m bits a n = a ^ n % m := by
  induction bits generalizing a n with
  | zero =>
    obtain rfl : n = 0 := by simpa using h
    rfl
  | succ bits ih =>
    have hhalf : n / 2 < 2 ^ bits := by
      rw [pow_succ] at h
      omega
    have hsquare : powerMod m bits (a * a % m) (n / 2) = a ^ (2 * (n / 2)) % m := by
      rw [ih _ hhalf, ← Nat.pow_mod, pow_mul, sq]
    rw [powerMod, hsquare]
    split
    · next hodd =>
      rw [Nat.mod_mul_mod, ← pow_succ, show 2 * (n / 2) + 1 = n by omega]
    · next heven => rw [show 2 * (n / 2) = n by omega]

theorem power_eq {n : Nat} (a : Nat) (h : n < 2 ^ 255) : power a n = a ^ n % prime :=
  powerMod_eq prime a h

/-- A power is one modulo a number just when it is one among the residues. -/
theorem natCast_pow_eq_one {m : Nat} (hm : 1 < m) (a n : Nat) :
    (a : ZMod m) ^ n = 1 ↔ a ^ n % m = 1 := by
  rw [← Nat.cast_pow, ← Nat.cast_one, ZMod.natCast_eq_natCast_iff', Nat.mod_eq_of_lt hm]

end Powers

/-! ## Certificates -/

/-- What shows that a number is prime. -/
structure Certificate where
  /-- The number. -/
  number : Nat
  /-- A number whose powers give all residues but zero. -/
  root : Nat
  /-- The primes of the number before, each with its multiplicity. -/
  factors : List (Nat × Nat)

namespace Certificate

variable {c : Certificate} {cs : List Certificate} {known : List Nat}

/-- The certificate is valid, given the primes that are known. -/
structure Holds (known : List Nat) (c : Certificate) : Prop where
  one_lt : 1 < c.number
  /-- The powers are taken by exponents of 255 bits. -/
  narrow : c.number ≤ 2 ^ 255
  known : ∀ f ∈ c.factors, f.1 ∈ known
  product : (c.factors.map fun f => f.1 ^ f.2).prod = c.number - 1
  order : powerMod c.number 255 c.root (c.number - 1) = 1
  /-- The order is no proper part of the number before. -/
  proper : ∀ f ∈ c.factors, powerMod c.number 255 c.root ((c.number - 1) / f.1) ≠ 1

/-- Each certificate is valid, given the primes that are known and those certified before. -/
def Chain : (known : List Nat) → List Certificate → Prop
  | _, [] => True
  | known, c :: cs => c.Holds known ∧ Chain (c.number :: known) cs

instance : Decidable (c.Holds known) :=
  decidable_of_iff (1 < c.number ∧ c.number ≤ 2 ^ 255 ∧ (∀ f ∈ c.factors, f.1 ∈ known) ∧
      (c.factors.map fun f => f.1 ^ f.2).prod = c.number - 1 ∧
      powerMod c.number 255 c.root (c.number - 1) = 1 ∧
      ∀ f ∈ c.factors, powerMod c.number 255 c.root ((c.number - 1) / f.1) ≠ 1)
    ⟨fun ⟨a, b, c, d, e, f⟩ => ⟨a, b, c, d, e, f⟩, fun ⟨a, b, c, d, e, f⟩ => ⟨a, b, c, d, e, f⟩⟩

instance decidableChain : (known : List Nat) → (cs : List Certificate) →
    Decidable (Chain known cs)
  | _, [] => inferInstanceAs (Decidable True)
  | known, c :: cs =>
    have := decidableChain (c.number :: known) cs
    inferInstanceAs (Decidable (c.Holds known ∧ Chain (c.number :: known) cs))

/-- A number with a valid certificate is prime, if the known primes are. -/
theorem Holds.prime (h : c.Holds known) (hknown : ∀ q ∈ known, q.Prime) : c.number.Prime := by
  have hnarrow {n : Nat} (hn : n ≤ c.number - 1) : n < 2 ^ 255 := by
    have hone := h.one_lt
    have hle := h.narrow
    omega
  refine lucas_primality c.number (c.root : ZMod c.number) ?_ fun q hq hdvd => ?_
  · rw [natCast_pow_eq_one h.one_lt, ← powerMod_eq _ _ (hnarrow le_rfl)]
    exact h.order
  · rw [← h.product] at hdvd
    obtain ⟨_, hmem, hpower⟩ := (Prime.dvd_prod_iff hq.prime).mp hdvd
    obtain ⟨f, hf, rfl⟩ := List.mem_map.mp hmem
    have hfactor : f.1.Prime := hknown f.1 (h.known f hf)
    obtain rfl : q = f.1 := (Nat.prime_dvd_prime_iff_eq hq hfactor).mp (hq.dvd_of_dvd_pow hpower)
    rw [Ne, natCast_pow_eq_one h.one_lt, ← powerMod_eq _ _ (hnarrow (Nat.div_le_self _ _))]
    exact h.proper f hf

/-- All numbers of a valid chain are prime, if the known primes are. -/
theorem Chain.prime (h : Chain known cs) (hknown : ∀ q ∈ known, q.Prime) :
    ∀ c ∈ cs, c.number.Prime := by
  induction cs generalizing known with
  | nil => exact fun _ hc => absurd hc List.not_mem_nil
  | cons c cs ih =>
    obtain ⟨hfirst, hrest⟩ := h
    have hprime := hfirst.prime hknown
    have hlater := ih hrest (List.forall_mem_cons.mpr ⟨hprime, hknown⟩)
    exact List.forall_mem_cons.mpr ⟨hprime, hlater⟩

end Certificate

/-! ## The modulus -/

/-- The primes of the certificates that are small. -/
def smallPrimes : List Nat :=
  [2, 3, 5, 7, 13, 19, 31, 47, 103, 107, 127, 223, 353, 991, 2437, 4153, 57467, 65147, 75707,
    132049, 430751, 569003, 1923133]

/-- The chain that ends with the modulus. -/
def certificates : List Certificate := [
  ⟨31757755568855353, 10, [(2, 3), (3, 1), (31, 1), (107, 1), (223, 1), (4153, 1), (430751, 1)]⟩,
  ⟨2773320623, 5, [(2, 1), (2437, 1), (569003, 1)]⟩,
  ⟨72106336199, 7, [(2, 1), (13, 1), (2773320623, 1)]⟩,
  ⟨8574133, 2, [(2, 2), (3, 1), (7, 1), (103, 1), (991, 1)]⟩,
  ⟨1919519569386763, 2, [(2, 1), (3, 1), (7, 1), (19, 1), (47, 2), (127, 1), (8574133, 1)]⟩,
  ⟨75445702479781427272750846543864801, 7,
    [(2, 5), (3, 2), (5, 2), (75707, 1), (72106336199, 1), (1919519569386763, 1)]⟩,
  ⟨74058212732561358302231226437062788676166966415465897661863160754340907, 2,
    [(2, 1), (3, 1), (353, 1), (57467, 1), (132049, 1), (1923133, 1), (31757755568855353, 1),
      (75445702479781427272750846543864801, 1)]⟩,
  ⟨prime, 2, [(2, 2), (3, 1), (65147, 1),
    (74058212732561358302231226437062788676166966415465897661863160754340907, 1)]⟩]

theorem forall_smallPrimes : ∀ q ∈ smallPrimes, q.Prime := by
  simp only [smallPrimes, List.forall_mem_cons]
  norm_num

theorem chain_certificates : Certificate.Chain smallPrimes certificates := by
  decide +kernel

/-- **The modulus is prime.** -/
theorem prime_prime : Nat.Prime prime :=
  chain_certificates.prime forall_smallPrimes ⟨prime, 2, _⟩ (List.mem_of_getElem? (i := 7) rfl)

instance : Fact (Nat.Prime prime) := ⟨prime_prime⟩

end LedgerClient.Curve
