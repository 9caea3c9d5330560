import LedgerClient.Binary64

/-!
# The nearest floating-point number

A decimal is a sign, a whole number and a power of ten. Its nearest number in binary64 is found
in exact arithmetic: the scale is the smallest one on which the value has at most 53 bits, and a
value halfway between two neighbours goes to the even one. What exceeds the range becomes
infinite.

## Main definitions

* `Decimal`: a decimal number with sign
* `Decimal.nearest`: the nearest binary64 number
-/

namespace LedgerClient

/-- The number `± digits · 10 ^ exponent`. -/
structure Decimal where
  /-- The sign is minus; zero keeps its sign. -/
  negative : Bool
  /-- The digits as one whole number. -/
  digits : Nat
  /-- The power of ten. -/
  exponent : Int
  deriving DecidableEq, Repr

namespace Decimal

/-- The whole number nearest to `num / den`, the even one of two. -/
def roundQuotient (num den : Nat) : Nat :=
  let q := num / den
  let twice := 2 * (num % den)
  if twice < den then q
  else if den < twice then q + 1
  else q + q % 2

/-- The quotient `num / den · 2 ^ -scale` as a pair of whole numbers. -/
def scaled (num den : Nat) (scale : Int) : Nat × Nat :=
  if scale < 0 then (num <<< (-scale).toNat, den) else (num, den <<< scale.toNat)

/-- The quotient fits 53 bits on this scale. -/
def fits (num den : Nat) (scale : Int) : Bool :=
  let (n, d) := scaled num den scale
  n < 2 * Binary64.exponentUnit * d

/-- The bits of the positive binary64 number nearest to `num / den`, for positive numbers. -/
def nearestBits (num den : Nat) : UInt64 :=
  let least : Int := max ((num.log2 : Int) - den.log2 - 54) (-1074)
  let scale :=
    if fits num den least then least
    else if fits num den (least + 1) then least + 1
    else least + 2
  let (n, d) := scaled num den scale
  let bits := roundQuotient n d + (scale + 1074).toNat * Binary64.exponentUnit
  UInt64.ofNat (min bits Binary64.infinity)

/-- The bits of a decimal without its sign. -/
def magnitudeBits (digits : Nat) (exponent : Int) : UInt64 :=
  if digits = 0 ∨ exponent < -400 - (digits.log2 : Int) then 0
  else if 400 < exponent then UInt64.ofNat Binary64.infinity
  else nearestBits (digits * Nat.pow 10 exponent.toNat) (Nat.pow 10 (-exponent).toNat)

/-- The binary64 number nearest to a decimal. -/
def nearest (d : Decimal) : Float :=
  let bits := magnitudeBits d.digits d.exponent
  Float.ofBits (if d.negative then bits + UInt64.ofNat Binary64.signBit else bits)

/-- A whole number as a decimal. -/
def ofInt (n : Int) : Decimal :=
  ⟨n < 0, n.natAbs, 0⟩

/-- The finite number nearest to a decimal. -/
def finite? (d : Decimal) : Option Float :=
  if Binary64.isFinite d.nearest then some d.nearest else none

end Decimal

end LedgerClient
