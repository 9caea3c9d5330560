import LedgerClient.Fault
import LedgerClient.Sequence

/-!
# Compact lengths

Lengths up to 65535 are written in groups of seven bits, lowest group first; the top bit of a
byte says that another group follows. Every length has one spelling: a group of zeros never ends
it, and a third group never says that another one follows.

## Main definitions

* `CompactU16.encode`: the bytes of a length
* `CompactU16.decode`: the length at a position and the number of its bytes
-/

namespace LedgerClient.CompactU16

/-- The groups of a number, lowest first. -/
def groups (n : Nat) : Bytes :=
  if n < 128 then [UInt8.ofNat n] else UInt8.ofNat (n % 128 + 128) :: groups (n / 128)

/-- The bytes of a length. -/
def encode (value : Int) : Except Fault Bytes :=
  if 0 ≤ value ∧ value ≤ 0xFFFF then .ok (groups value.toNat)
  else .error (.codec (.compactRange value))

/-- Reads the group number `i` of the length at `offset`, of which at most `left` groups remain
and the groups before it make `value`. -/
def decodeGroup (data : Bytes) (offset : Int) :
    (left i value : Nat) → Except Fault (Nat × Nat)
  | 0, _, _ => .error (.codec (.compactUnending offset))
  | left + 1, i, value =>
    if data.length ≤ offset + i then .error (.codec (.compactShort (offset + i)))
    else match Sequence.at? data (offset + i) with
      | none => .error (.misuse .index)
      | some b =>
        if b = 0 ∧ 0 < i then .error (.codec (.compactPadded offset))
        else
          let value := value + b.toNat % 128 * Nat.pow 128 i
          if 128 ≤ b then decodeGroup data offset left (i + 1) value
          else if 0xFFFF < value then .error (.codec (.compactOverflow offset))
          else .ok (value, i + 1)

/-- The length at a position and the number of its bytes. -/
def decode (data : Bytes) (offset : Int) : Except Fault (Nat × Nat) :=
  decodeGroup data offset 3 0 0

end LedgerClient.CompactU16
