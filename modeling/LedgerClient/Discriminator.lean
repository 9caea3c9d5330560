import LedgerClient.Hash.Sha256
import LedgerClient.Wire.Field

/-!
# Discriminators

Programs tag the variants of their instructions with a number of one, two, four or eight bytes.
Programs of the Anchor framework use the first eight bytes of the hash of a name instead.

## Main definitions

* `Discriminator`: a number that fits its width
* `Discriminator.bytes`, `Discriminator.write`, `Discriminator.read`, `Discriminator.isAtFront`:
  writing and checking a tag
* `Discriminator.demand`: the check of a tag given as bytes
* `Discriminator.ofName`: the tag of a name
-/

namespace LedgerClient

/-- The order of the bytes of a number. -/
inductive ByteOrder
  | little
  | big
  deriving DecidableEq, Repr

/-- The bytes of a number in an order. -/
def ByteOrder.encode (order : ByteOrder) (width n : Nat) : Bytes :=
  match order with
  | .little => Bytes.ofNatLE width n
  | .big => Bytes.ofNatBE width n

/-- The number of bytes in an order. -/
def ByteOrder.decode (order : ByteOrder) (bs : Bytes) : Nat :=
  match order with
  | .little => Bytes.toNatLE bs
  | .big => Bytes.toNatBE bs

/-- A tag: a number, its width in bytes and the order of the bytes. -/
structure Discriminator where
  /-- The number. -/
  value : Nat
  /-- The number of bytes. -/
  width : Nat
  /-- The order of the bytes. -/
  order : ByteOrder
  /-- The width is one of the four. -/
  width_mem : width ∈ [1, 2, 4, 8]
  /-- The number fits. -/
  value_lt : value < Nat.pow 256 width
  deriving DecidableEq, Repr

namespace Discriminator

/-- The tag of a number, if the width is one of the four and the number fits. -/
def make (value width : Int) (order : ByteOrder) : Except Fault Discriminator :=
  if hw : width.toNat ∈ [1, 2, 4, 8] then
    if hv : 0 ≤ value ∧ value.toNat < Nat.pow 256 width.toNat then
      .ok ⟨value.toNat, width.toNat, order, hw, hv.2⟩
    else .error (.invalid (.tagRange value width.toNat))
  else .error (.invalid (.tagWidth width))

/-- The bytes of a tag. -/
def bytes (d : Discriminator) : Bytes :=
  d.order.encode d.width d.value

/-- Appends a tag. -/
def write (d : Discriminator) : Write :=
  Write.bytes d.bytes

/-- Takes a tag at the cursor; another number fails after it is taken. -/
def read (d : Discriminator) : Read Unit := do
  let bs ← Read.bytes d.width
  let got := d.order.decode bs
  if got ≠ d.value then throw (.codec (.tagValue got d.value))

/-- The data starts with the tag. -/
def isAtFront (d : Discriminator) (data : Bytes) : Bool :=
  data.take d.width == d.bytes

/-- Fails unless the data starts with the expected bytes. -/
def demand (data expected : Bytes) : Except Fault Unit :=
  if data.length < expected.length then
    .error (.codec (.tooShort data.length expected.length))
  else if data.take expected.length ≠ expected then
    .error (.codec (.tagBytes (data.take expected.length) expected))
  else .ok ()

/-- The eight bytes that tag a name. -/
def ofName (space name : String) : Bytes :=
  (Sha256.digest (Utf8.encode (space ++ ":" ++ name))).take 8

/-- A tag of one byte. -/
def byte (value : UInt8) : Discriminator :=
  ⟨value.toNat, 1, .little, by decide, by simpa using value.toNat_lt⟩

/-- A tag of four bytes, lowest first. -/
def word (value : UInt32) : Discriminator :=
  ⟨value.toNat, 4, .little, by decide, by simpa using value.toNat_lt⟩

end Discriminator

end LedgerClient
