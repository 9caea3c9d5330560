import LedgerClient.Decimal.Nearest

/-!
# The shortest decimal of a floating-point number

A finite binary64 number is written with the fewest digits that read back as it; of two such
decimals the nearer one is taken. The layout of the digits is a record: which positions of the
point are written out, and how the exponent looks otherwise.

## Main definitions

* `Decimal.shortest`: the shortest decimal of a finite number
* `Decimal.Layout`: where plain notation ends, and the look of the exponent
* `Decimal.Layout.render`: the text of a number in a layout
-/

namespace LedgerClient.Decimal

/-- The numbers that read back as one binary64 number, in quarters of its last place: the number
itself, the ends of its interval, and whether the ends belong to it. -/
structure Interval where
  /-- The number. -/
  value : Nat
  /-- The lower end. -/
  lower : Nat
  /-- The upper end. -/
  upper : Nat
  /-- The ends read back as the number, too. -/
  closed : Bool
  deriving DecidableEq, Repr

/-- The interval around the number with significand `m` and binary exponent `q`. -/
def Interval.of (m : Nat) (q : Int) : Interval :=
  let lower := if m = Binary64.exponentUnit ∧ -1074 < q then 4 * m - 1 else 4 * m - 2
  ⟨4 * m, lower, 4 * m + 2, m % 2 == 0⟩

/-- `c · 10 ^ k` as a multiple of `2 ^ p`: a numerator and a denominator. -/
def gridPoint (c : Nat) (k p : Int) : Nat × Nat :=
  ((c * Nat.pow 10 k.toNat) <<< (-p).toNat, Nat.pow 10 (-k).toNat <<< p.toNat)

/-- The grid point `c · 10 ^ k` reads back as the number. -/
def Interval.contains (i : Interval) (p : Int) (c : Nat) (k : Int) : Bool :=
  let (n, d) := gridPoint c k p
  if i.closed then i.lower * d ≤ n && n ≤ i.upper * d else i.lower * d < n && n < i.upper * d

/-- The point of the grid of `10 ^ k` that reads back, the nearer one if both neighbours do. -/
def Interval.onGrid (i : Interval) (p k : Int) : Option Nat :=
  let (n, d) := gridPoint 1 k p
  let c := i.value * d / n
  let twice := 2 * (i.value * d % n)
  let near := if twice < n ∨ (twice = n ∧ c % 2 = 0) then c else c + 1
  let far := if near = c then c + 1 else c
  if i.contains p near k then some near
  else if i.contains p far k then some far
  else none

/-- Tries the grids of `10 ^ k`, `10 ^ (k - 1)`, … for the first point that reads back. -/
def Interval.search (i : Interval) (p : Int) : (fuel : Nat) → (k : Int) → Nat × Int
  | 0, k => (i.value, k)
  | fuel + 1, k => match i.onGrid p k with
    | some c => if c = 0 then i.search p fuel (k - 1) else (c, k)
    | none => i.search p fuel (k - 1)

/-- A whole number without its final zeros, and how many there were, up to `fuel`. -/
def withoutZeros : (fuel : Nat) → Nat → Nat × Nat
  | 0, n => (n, 0)
  | fuel + 1, n =>
    if n % 10 = 0 then
      let (m, k) := withoutZeros fuel (n / 10)
      (m, k + 1)
    else (n, 0)

/-- The shortest decimal that reads back as a finite number. -/
def shortest (x : Float) : Decimal :=
  let negative := Binary64.isNegative x
  let (m, q) := Binary64.significand x
  if m = 0 then ⟨negative, 0, 0⟩
  else
    let start : Int := ((m.log2 : Int) + q) * 30103 / 100000 + 2
    let (c, k) := (Interval.of m q).search (q - 2) 400 start
    let (c, zeros) := withoutZeros 400 c
    ⟨negative, c, k + zeros⟩

/-- How the digits of a number are laid out. -/
structure Layout where
  /-- The least position of the point, counted from the first digit, that is written out. -/
  leastPoint : Int
  /-- The greatest position of the point that is written out. -/
  greatestPoint : Int
  /-- An exponent that is not negative has a plus sign. -/
  plus : Bool
  /-- The least number of digits of an exponent. -/
  exponentWidth : Nat
  deriving DecidableEq, Repr

/-- The text of an exponent. -/
def Layout.exponent (l : Layout) (e : Int) : String :=
  let digits := toString e.natAbs
  let padded := String.ofList (List.replicate (l.exponentWidth - digits.length) '0') ++ digits
  "e" ++ (if e < 0 then "-" else if l.plus then "+" else "") ++ padded

/-- The text of a decimal; a number without fraction keeps a zero after its point. -/
def Layout.decimal (l : Layout) (d : Decimal) : String :=
  let digits := (toString d.digits).toList
  let point : Int := digits.length + d.exponent
  let sign := if d.negative then "-" else ""
  let body :=
    if d.digits = 0 then "0.0"
    else if l.leastPoint ≤ point ∧ point ≤ l.greatestPoint then
      if point ≤ 0 then
        "0." ++ String.ofList (List.replicate (-point).toNat '0' ++ digits)
      else
        let whole := digits ++ List.replicate (point.toNat - digits.length) '0'
        let fraction := whole.drop point.toNat
        String.ofList (whole.take point.toNat) ++ "." ++
          (if fraction.isEmpty then "0" else String.ofList fraction)
    else
      String.ofList (digits.take 1) ++
        (if 1 < digits.length then "." ++ String.ofList (digits.drop 1) else "") ++
        l.exponent (point - 1)
  sign ++ body

/-- The text of a number; the special values are `nan`, `inf` and `-inf`. -/
def Layout.render (l : Layout) (x : Float) : String :=
  if Binary64.isFinite x then l.decimal (shortest x)
  else if Binary64.fractionField x ≠ 0 then "nan"
  else if Binary64.isNegative x then "-inf" else "inf"

end LedgerClient.Decimal
