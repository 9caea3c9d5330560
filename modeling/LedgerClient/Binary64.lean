/-!
# Binary64 numbers

A floating-point number is a whole significand times a power of two, with a sign. Its bits are,
from the lowest on, 52 bits of the significand, eleven bits of the exponent, and the sign. The
exponent with all bits set is that of the infinite numbers and of the number that is none.

## Main definitions

* `Binary64.significand`: the whole significand and the exponent
* `Binary64.isFinite`, `Binary64.isNegative`: the kind and the sign
* `Binary64.truncate`, `Binary64.isWhole`: the whole part, and whether it is all
-/

namespace LedgerClient.Binary64

/-- The weight of the lowest bit of the exponent. -/
def exponentUnit : Nat := 1 <<< 52

/-- The weight of the sign. -/
def signBit : Nat := 1 <<< 63

/-- The exponent whose bits are all set. -/
def topExponent : Nat := 2047

/-- The bits of the number with the greatest exponent, which is infinite. -/
def infinity : Nat := topExponent * exponentUnit

/-- The bits of the number that is none. -/
def undefined : Nat := infinity + exponentUnit / 2

/-- The bits of the exponent. -/
def exponentField (x : Float) : Nat :=
  x.toBits.toNat / exponentUnit % (topExponent + 1)

/-- The bits of the significand. -/
def fractionField (x : Float) : Nat :=
  x.toBits.toNat % exponentUnit

/-- The sign is minus. -/
def isNegative (x : Float) : Bool :=
  signBit ≤ x.toBits.toNat

/-- The number is neither infinite nor undefined. -/
def isFinite (x : Float) : Bool :=
  exponentField x != topExponent

/-- The whole significand of a finite number and the power of two that it stands with. -/
def significand (x : Float) : Nat × Int :=
  if exponentField x = 0 then (fractionField x, -1074)
  else (fractionField x + exponentUnit, (exponentField x : Int) - 1075)

/-- The whole part of a finite number. -/
def truncate (x : Float) : Int :=
  let (m, q) := significand x
  let size : Nat := if 0 ≤ q then m <<< q.toNat else m >>> (-q).toNat
  if isNegative x then -(size : Int) else size

/-- A finite number has nothing after its point. -/
def isWhole (x : Float) : Bool :=
  let (m, q) := significand x
  0 ≤ q || m % (1 <<< (-q).toNat) == 0

end LedgerClient.Binary64
