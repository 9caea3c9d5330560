import LedgerClient.Curve.Field

/-!
# Points of the curve

Points in extended coordinates `(X : Y : Z : T)` with `x = X / Z`, `y = Y / Z` and `T = x y Z`.
The addition formula is complete, so it also doubles. A point is encoded by its `y` with the
lowest bit of `x` on top.

## Main definitions

* `Point.add`, `Point.multiple`: the group
* `Point.base`: the generator of the subgroup of order `Curve.order`
* `Point.encode`, `Point.decode?`: the 32 bytes of a point and back
-/

namespace LedgerClient.Curve

/-- The order of the generator. -/
def order : Nat :=
  (1 <<< 252) + 27742317777372353535851937790883648493

/-- A point in extended coordinates. -/
structure Point where
  x : Nat
  y : Nat
  z : Nat
  t : Nat
  deriving DecidableEq, Repr

namespace Point

/-- The neutral point. -/
def neutral : Point := ⟨0, 1, 1, 0⟩

/-- The point with the given affine coordinates. -/
def ofAffine (x y : Nat) : Point :=
  ⟨x, y, 1, x * y % prime⟩

/-- The sum of two points. -/
def add (p q : Point) : Point :=
  let a := minus p.y p.x * minus q.y q.x % prime
  let b := (p.y + p.x) * (q.y + q.x) % prime
  let c := 2 * coefficient * p.t % prime * q.t % prime
  let d := 2 * p.z * q.z % prime
  let e := minus b a
  let f := minus d c
  let g := (d + c) % prime
  let h := (b + a) % prime
  ⟨e * f % prime, g * h % prime, f * g % prime, e * h % prime⟩

/-- The opposite point. -/
def neg (p : Point) : Point :=
  ⟨minus 0 p.x, p.y, p.z, minus 0 p.t⟩

/-- The multiple of a point by the `bits` low bits of `n`. -/
def multiple : (bits : Nat) → (n : Nat) → Point → Point
  | 0, _, _ => neutral
  | bits + 1, n, p =>
    let r := multiple bits (n / 2) (p.add p)
    if n % 2 = 1 then r.add p else r

/-- The generator. -/
def base : Point :=
  ofAffine 15112221349535400772501151409588531511454012693041857206046113283949847762202
    46316835694926478169428394003475163141307993866256225615783033603165251855960

/-- The 32 bytes of a point. -/
def encode (p : Point) : Bytes :=
  let i := inverse p.z
  let x := p.x * i % prime
  let y := p.y * i % prime
  Bytes.ofNatLE 32 (y + (x % 2) <<< 255)

/-- A square root in the field, if there is one. -/
def root? (a : Nat) : Option Nat :=
  let r := power a ((prime + 3) / 8)
  if r * r % prime = a then some r
  else
    let s := r * power 2 ((prime - 1) / 4) % prime
    if s * s % prime = a then some s else none

/-- The point of 32 bytes, if they encode one. -/
def decode? (bs : Bytes) : Option Point := do
  let y := yOf bs
  let x ← root? (squareOfX y)
  let odd := (Bytes.toNatLE bs >>> 255) % 2
  return ofAffine (if x % 2 = odd then x else minus 0 x) y

end Point

end LedgerClient.Curve
