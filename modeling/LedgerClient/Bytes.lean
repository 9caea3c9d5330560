/-!
# Byte strings

A byte string is a list of bytes. Lists compare byte by byte, a proper beginning coming first,
which is the order in which account keys are sorted. Numbers are written in base 256, lowest
byte first (`toNatLE`, `ofNatLE`) or highest byte first (`toNatBE`, `ofNatBE`).

## Main definitions

* `Bytes.toNatLE`, `Bytes.ofNatLE`: little-endian numbers of a fixed width
* `Bytes.toNatBE`, `Bytes.ofNatBE`: big-endian numbers of a fixed width
* `Bytes.zeros`: a run of zero bytes
* `Bytes.ofHex?`: the bytes that a hexadecimal text writes
-/

namespace LedgerClient

/-- A byte string. -/
abbrev Bytes := List UInt8

namespace Bytes

/-- The number whose base-256 digits, lowest first, are the bytes. -/
def toNatLE : Bytes → Nat
  | [] => 0
  | b :: bs => b.toNat + 256 * toNatLE bs

/-- The lowest `width` base-256 digits of a number, lowest first. -/
def ofNatLE : (width : Nat) → Nat → Bytes
  | 0, _ => []
  | width + 1, n => UInt8.ofNat n :: ofNatLE width (n / 256)

/-- The number whose base-256 digits, highest first, are the bytes. -/
def toNatBE (bs : Bytes) : Nat :=
  bs.foldl (fun n b => 256 * n + b.toNat) 0

/-- The lowest `width` base-256 digits of a number, highest first. -/
def ofNatBE (width n : Nat) : Bytes :=
  (ofNatLE width n).reverse

/-- A byte is known by the remainder of its number. -/
theorem ofNat_eq {n : Nat} {b : UInt8} (h : n % 256 = b.toNat) : UInt8.ofNat n = b := by
  apply UInt8.toNat_inj.mp
  rw [UInt8.toNat_ofNat']
  exact h

@[simp] theorem length_ofNatLE (width n : Nat) : (ofNatLE width n).length = width := by
  induction width generalizing n with
  | zero => rfl
  | succ width ih => simp [ofNatLE, ih]

@[simp] theorem length_ofNatBE (width n : Nat) : (ofNatBE width n).length = width := by
  simp [ofNatBE]

/-- `width` zero bytes. -/
def zeros (width : Nat) : Bytes :=
  List.replicate width 0

@[simp] theorem length_zeros (width : Nat) : (zeros width).length = width := by
  simp [zeros]

/-- The value of the hexadecimal digit of an ASCII code. -/
def hexValue? (code : Nat) : Option Nat :=
  if 48 ≤ code ∧ code ≤ 57 then some (code - 48)
  else if 97 ≤ code ∧ code ≤ 102 then some (code - 87)
  else if 65 ≤ code ∧ code ≤ 70 then some (code - 55)
  else none

/-- The bytes that pairs of hexadecimal digits write. -/
def ofHexDigits : List Char → Option Bytes
  | [] => some []
  | [_] => none
  | a :: b :: cs => do
    return UInt8.ofNat (16 * (← hexValue? a.toNat) + (← hexValue? b.toNat)) :: (← ofHexDigits cs)

/-- The bytes that a hexadecimal text writes. -/
def ofHex? (text : String) : Option Bytes :=
  ofHexDigits text.toList

end Bytes

end LedgerClient
