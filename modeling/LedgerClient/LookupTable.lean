import LedgerClient.Wire.Reader

/-!
# Lookup tables

A lookup table is an account that holds addresses, so that messages can name them by a small
index. Its account data has a header of 56 bytes with a type, two slots, a start index and an
authority, whose place is kept even if there is none; the addresses follow.

## Main definitions

* `LookupTable`: a table's key and addresses, as messages use it
* `LookupTable.State`: the state of a table account
* `LookupTable.State.ofBytes`: the state of account data
-/

namespace LedgerClient

/-- A table's key and the addresses it holds. -/
structure LookupTable where
  /-- The key of the table account. -/
  key : PublicKey
  /-- The addresses in order. -/
  addresses : List PublicKey
  deriving DecidableEq

namespace LookupTable

/-- The first position of an address. -/
def indexOf? (table : LookupTable) (address : PublicKey) : Option Nat :=
  table.addresses.findIdx? (· == address)

/-- The number of bytes before the addresses. -/
def headerSize : Nat := 56

/-- The type number of an initialized table. -/
def typeNumber : Int := 1

/-- The deactivation slot of a table that is in use. -/
def neverDeactivated : Int := ((1 <<< 64 : Nat) : Int) - 1

/-- The state of a table account. -/
structure State where
  /-- The slot in which the table went out of use. -/
  deactivationSlot : Int
  /-- The slot in which the table was last extended. -/
  lastExtendedSlot : Int
  /-- The first index of the last extension. -/
  startIndex : Int
  /-- Who may change the table. -/
  authority : Option PublicKey
  /-- The addresses in order. -/
  addresses : List PublicKey
  deriving DecidableEq

/-- The table is in use. -/
def State.isActive (state : State) : Bool :=
  state.deactivationSlot == neverDeactivated

/-- Reads the state of a table with `area` bytes of addresses. -/
def State.read (area : Nat) : Read State := do
  let number ← Read.integer .u32
  if number ≠ typeNumber then throw (.codec (.tableKind number))
  let deactivationSlot ← Read.integer .u64
  let lastExtendedSlot ← Read.integer .u64
  let startIndex ← Read.integer .u8
  let hasAuthority ← Read.bool
  let authority ← Read.key .publicKey
  let _ ← Read.integer .u16
  if area % 32 ≠ 0 then throw (.codec (.tableArea area))
  let addresses ← Read.times (Read.key .publicKey) (area / 32)
  Read.ending
  return ⟨deactivationSlot, lastExtendedSlot, startIndex,
    if hasAuthority then some authority else none, addresses⟩

/-- The state of account data. -/
def State.ofBytes (data : Bytes) : Except Fault State :=
  if data.length < headerSize then .error (.codec (.tooShort data.length headerSize))
  else (State.read (data.length - headerSize)).run data

/-- The table of account data. -/
def ofBytes (key : PublicKey) (data : Bytes) : Except Fault LookupTable := do
  let state ← State.ofBytes data
  return ⟨key, state.addresses⟩

end LookupTable

end LedgerClient
