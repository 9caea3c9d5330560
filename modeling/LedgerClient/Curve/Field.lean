import LedgerClient.Fault

/-!
# The field of the curve

Arithmetic modulo the prime `2 ^ 255 - 19` on whole numbers, and membership of the curve
`-x² + y² = 1 + d x² y²`. A byte string of 32 bytes is on the curve when the `y` of its low 255
bits has an `x`: the quotient `(y² - 1) / (d y² + 1)` is then zero or a square, which Euler's
criterion decides. Not every number has an inverse, so a test that divides may fail; the plain test
takes the power that is the inverse of every number that has one.

## Main definitions

* `Curve.prime`, `Curve.coefficient`: the modulus and the constant `d`
* `Curve.power`, `Curve.inverse`, `Curve.inverse?`: powers and inverses
* `Curve.squareOfX`, `Curve.squareOfX?`: the only possible `x²` for a `y`
* `Curve.isOnCurve`: the byte string is a point
* `Curve.membership`: the same test by a division that may fail
-/

namespace LedgerClient.Curve

/-- The modulus `2 ^ 255 - 19`. -/
def prime : Nat := (1 <<< 255) - 19

/-- `a ^ n` modulo `m`, by squaring over the `bits` low bits of `n`. -/
def powerMod (m : Nat) : (bits : Nat) → (a n : Nat) → Nat
  | 0, _, _ => 1 % m
  | bits + 1, a, n =>
    let r := powerMod m bits (a * a % m) (n / 2)
    if n % 2 = 1 then r * a % m else r

/-- `a ^ n` in the field, for exponents below `2 ^ 255`. -/
def power (a n : Nat) : Nat :=
  powerMod prime 255 a n

/-- The inverse in the field; zero has the inverse zero. -/
def inverse (a : Nat) : Nat :=
  power a (prime - 2)

/-- The inverse in the field of a number that has one. -/
def inverse? (a : Nat) : Option Nat :=
  if Nat.gcd a prime = 1 then some (inverse a) else none

/-- The difference in the field. -/
def minus (a b : Nat) : Nat :=
  (a + (prime - b % prime)) % prime

/-- The constant `d` of the curve, the quotient of `-121665` and `121666`. -/
def coefficient : Nat :=
  37095705934669439343138083508754565189542113879843219016388785533085940283555

/-- The value of `x²` that belongs to a `y`. -/
def squareOfX (y : Nat) : Nat :=
  let y2 := y * y % prime
  minus y2 1 * inverse ((coefficient * y2 + 1) % prime) % prime

/-- The value of `x²` that belongs to a `y`, if the quotient exists. -/
def squareOfX? (y : Nat) : Option Nat := do
  let y2 := y * y % prime
  return minus y2 1 * (← inverse? ((coefficient * y2 + 1) % prime)) % prime

/-- The number is a square in the field. -/
def isSquare (a : Nat) : Bool :=
  a == 0 || power a ((prime - 1) / 2) == 1

/-- The `y` of an encoded point: its low 255 bits in the field. -/
def yOf (bs : Bytes) : Nat :=
  Bytes.toNatLE bs % (1 <<< 255) % prime

/-- The 32 bytes encode a point of the curve. -/
def isOnCurve (bs : Bytes) : Bool :=
  bs.length == 32 && isSquare (squareOfX (yOf bs))

/-- The test whether bytes encode a point of the curve; it fails where the division does. -/
def membership (bs : Bytes) : Except Fault Bool :=
  if bs.length ≠ 32 then return false
  else match squareOfX? (yOf bs) with
    | some x2 => return isSquare x2
    | none => throw (.misuse .value)

end LedgerClient.Curve
