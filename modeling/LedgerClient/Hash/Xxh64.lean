import LedgerClient.Bytes

/-!
# XXH64

The 64-bit checksum of compressed frames. Four lanes take eight bytes each of every 32 bytes; what
remains is taken in eights, in one four and byte by byte, and the result is mixed.

## Main definitions

* `Xxh64.checksum`: the checksum of a byte string
-/

namespace LedgerClient.Xxh64

/-- The first of the five primes. -/
def prime₁ : UInt64 := 11400714785074694791

/-- The second prime. -/
def prime₂ : UInt64 := 14029467366897019727

/-- The third prime. -/
def prime₃ : UInt64 := 1609587929392839161

/-- The fourth prime. -/
def prime₄ : UInt64 := 9650029242287828579

/-- The fifth prime. -/
def prime₅ : UInt64 := 2870177450012600261

/-- A word rotated left. -/
def rotate (x n : UInt64) : UInt64 :=
  (x <<< n) ||| (x >>> (64 - n))

/-- The little-endian word of some bytes. -/
def word (bs : Bytes) : UInt64 :=
  UInt64.ofNat (Bytes.toNatLE bs)

/-- A lane after one more word. -/
def mix (lane x : UInt64) : UInt64 :=
  rotate (lane + x * prime₂) 31 * prime₁

/-- The four lanes. -/
structure Lanes where
  a : UInt64
  b : UInt64
  c : UInt64
  d : UInt64
  deriving DecidableEq, Repr

/-- The lanes at the beginning. -/
def Lanes.initial : Lanes :=
  ⟨prime₁ + prime₂, prime₂, 0, 0 - prime₁⟩

/-- The lanes after all whole stripes of 32 bytes. -/
def Lanes.absorb (l : Lanes) (bs : Bytes) : Lanes :=
  if 32 ≤ bs.length then
    Lanes.absorb
      ⟨mix l.a (word (bs.take 8)), mix l.b (word ((bs.drop 8).take 8)),
        mix l.c (word ((bs.drop 16).take 8)), mix l.d (word ((bs.drop 24).take 8))⟩
      (bs.drop 32)
  else l
termination_by bs.length
decreasing_by simp; omega

/-- The lanes joined into one word. -/
def Lanes.join (l : Lanes) : UInt64 :=
  [l.a, l.b, l.c, l.d].foldl (fun acc lane => (acc ^^^ mix 0 lane) * prime₁ + prime₄)
    (rotate l.a 1 + rotate l.b 7 + rotate l.c 12 + rotate l.d 18)

/-- The checksum after the bytes that fill no stripe. -/
def tail (acc : UInt64) (bs : Bytes) : UInt64 :=
  if 8 ≤ bs.length then
    tail (rotate (acc ^^^ mix 0 (word (bs.take 8))) 27 * prime₁ + prime₄) (bs.drop 8)
  else if 4 ≤ bs.length then
    tail (rotate (acc ^^^ (word (bs.take 4) * prime₁)) 23 * prime₂ + prime₃) (bs.drop 4)
  else bs.foldl (fun acc b => rotate (acc ^^^ (word [b] * prime₅)) 11 * prime₁) acc
termination_by bs.length
decreasing_by all_goals simp; omega

/-- The final mixing. -/
def finish (acc : UInt64) : UInt64 :=
  let acc := (acc ^^^ (acc >>> 33)) * prime₂
  let acc := (acc ^^^ (acc >>> 29)) * prime₃
  acc ^^^ (acc >>> 32)

/-- The checksum of a byte string. -/
def checksum (bs : Bytes) : UInt64 :=
  let start := if 32 ≤ bs.length then (Lanes.initial.absorb bs).join else prime₅
  finish (tail (start + UInt64.ofNat bs.length) (bs.drop (bs.length / 32 * 32)))

end LedgerClient.Xxh64
