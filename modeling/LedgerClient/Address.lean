import LedgerClient.Curve.Field
import LedgerClient.Key.Text

/-!
# Derived addresses

Programs own addresses that no keypair has: the hash of some seeds, the program's id and a
marker, provided that the hash is not a point of the curve. The search for such an address
appends one byte to the seeds, counting down from 255. Another kind of address is the hash of a
base key, a text and an owner; an owner whose bytes end in the marker is refused, so the two
kinds never hash the same bytes.

## Main definitions

* `Address.create`: the address of seeds and a program
* `Address.find`: the address with the greatest last byte
* `Address.withSeed`: the address of a base key, a text and an owner
-/

namespace LedgerClient.Address

/-- The marker `ProgramDerivedAddress` in ASCII. -/
def marker : Bytes :=
  Utf8.encode "ProgramDerivedAddress"

/-- The greatest number of seeds. -/
def maxSeeds : Nat := 16

/-- The greatest number of bytes of a seed. -/
def maxSeedWidth : Nat := 32

/-- The first seed that is too long, with its position counted from `index`. -/
def longSeed? (index : Nat) : List Bytes → Option (Nat × Bytes)
  | [] => none
  | seed :: seeds =>
    if maxSeedWidth < seed.length then some (index, seed) else longSeed? (index + 1) seeds

/-- Refuses too many or too long seeds. -/
def checkSeeds (seeds : List Bytes) (limit : Nat) : Except Fault Unit :=
  if limit < seeds.length then .error (.invalid (.tooManySeeds seeds.length limit))
  else match longSeed? 0 seeds with
    | some (index, seed) => .error (.invalid (.seedWidth index seed.length))
    | none => .ok ()

/-- The bytes whose hash is the address of seeds and a program. -/
def preimage (seeds : List Bytes) (program : PublicKey) : Bytes :=
  seeds.flatten ++ program.bytes ++ marker

variable (hash : Bytes → Hash)

/-- The address of seeds and a program. -/
def create (seeds : List Bytes) (program : PublicKey) : Except Fault PublicKey := do
  checkSeeds seeds maxSeeds
  let digest := hash (preimage seeds program)
  if ← Curve.membership digest.bytes then throw .onCurve
  return ⟨digest.bytes, digest.length_eq⟩

/-- The first address off the curve among those with a last byte below `bumps`, greatest first. -/
def search (seeds : List Bytes) (program : PublicKey) :
    (bumps : Nat) → Except Fault (PublicKey × Nat)
  | 0 => .error (.crypto .noBump)
  | bump + 1 => match create hash (seeds ++ [[UInt8.ofNat bump]]) program with
    | .ok address => .ok (address, bump)
    | .error .onCurve => search seeds program bump
    | .error fault => .error fault

/-- The address off the curve with the greatest last byte, and that byte. -/
def find (seeds : List Bytes) (program : PublicKey) : Except Fault (PublicKey × Nat) := do
  checkSeeds seeds (maxSeeds - 1)
  search hash seeds program 256

/-- The bytes whose hash is the address of a base key, a text and an owner. -/
def seededPreimage (base : PublicKey) (seed : String) (owner : PublicKey) : Bytes :=
  base.bytes ++ Utf8.encode seed ++ owner.bytes

/-- The address of a base key, a text and an owner. -/
def withSeed (base : PublicKey) (seed : String) (owner : PublicKey) : Except Fault PublicKey := do
  let bs := Utf8.encode seed
  if maxSeedWidth < bs.length then throw (.invalid (.seedTextWidth bs.length))
  if marker.isSuffixOf owner.bytes then throw (.invalid .markedOwner)
  let digest := hash (seededPreimage base seed owner)
  return ⟨digest.bytes, digest.length_eq⟩

end LedgerClient.Address
