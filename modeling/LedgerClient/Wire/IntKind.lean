import LedgerClient.Bytes

/-!
# Fixed-width integers

The integers of the wire format: eight to sixty-four bits with or without sign, and 128 bits
without. All are written lowest byte first, negative ones in two's complement.

## Main definitions

* `IntKind`: the nine kinds, with their widths and ranges
* `IntKind.encode?`, `IntKind.decode`: the bytes of an integer and back
-/

namespace LedgerClient

/-- A kind of integer of fixed width. -/
inductive IntKind
  | u8 | u16 | u32 | u64
  | i8 | i16 | i32 | i64
  | u128
  deriving DecidableEq, Repr

namespace IntKind

/-- The name of a kind in messages. -/
def label : IntKind → String
  | .u8 => "u8" | .u16 => "u16" | .u32 => "u32" | .u64 => "u64"
  | .i8 => "i8" | .i16 => "i16" | .i32 => "i32" | .i64 => "i64"
  | .u128 => "u128"

/-- The number of bytes of a kind. -/
def width : IntKind → Nat
  | .u8 | .i8 => 1
  | .u16 | .i16 => 2
  | .u32 | .i32 => 4
  | .u64 | .i64 => 8
  | .u128 => 16

/-- The kind has negative members. -/
def signed : IntKind → Bool
  | .i8 | .i16 | .i32 | .i64 => true
  | _ => false

/-- The number of members of a kind. -/
def size (kind : IntKind) : Nat :=
  Nat.pow 256 kind.width

/-- The least member of a kind. -/
def least (kind : IntKind) : Int :=
  if kind.signed then -(kind.size / 2 : Nat) else 0

/-- The integer is a member of the kind. -/
def Holds (kind : IntKind) (n : Int) : Prop :=
  kind.least ≤ n ∧ n < kind.least + kind.size

instance (kind : IntKind) (n : Int) : Decidable (kind.Holds n) :=
  inferInstanceAs (Decidable (_ ∧ _))

/-- The bytes of a member; of another integer its remainder is written. -/
def encode (kind : IntKind) (n : Int) : Bytes :=
  Bytes.ofNatLE kind.width (n % kind.size).toNat

/-- The bytes of an integer, if it is a member. -/
def encode? (kind : IntKind) (n : Int) : Option Bytes :=
  if kind.Holds n then some (kind.encode n) else none

/-- The integer of the first bytes of a byte string. -/
def decode (kind : IntKind) (bs : Bytes) : Int :=
  let n := Bytes.toNatLE (bs.take kind.width)
  if kind.signed && kind.size / 2 ≤ n then (n : Int) - kind.size else n

end IntKind

end LedgerClient
