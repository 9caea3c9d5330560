import LedgerClient.Key
import LedgerClient.Wire.CompactU16

/-!
# Writing bytes

Writes append to the bytes written so far. A composite write that fails keeps what its earlier
steps have written.

## Main definitions

* `Write`: a computation that appends bytes and may fail
* `Write.integer`, `Write.bytes`, `Write.compact`, …: the primitive writes
* `Write.run`: the bytes of a write
-/

namespace LedgerClient

/-- A computation that appends to a byte string. -/
abbrev Write := ExceptT Fault (StateM Bytes) Unit

namespace Write

/-- Appends bytes. -/
def bytes (bs : Bytes) : Write :=
  modify (· ++ bs)

/-- Appends an integer of fixed width. -/
def integer (kind : IntKind) (value : Int) : Write :=
  match kind.encode? value with
  | some bs => bytes bs
  | none => throw (.codec (.integerRange kind value))

/-- Appends a byte that is one or zero. -/
def bool (b : Bool) : Write :=
  integer .u8 (if b then 1 else 0)

/-- Appends the bytes of a key. -/
def key {kind : KeyKind} (key : Key kind) : Write :=
  bytes key.bytes

/-- Appends a compact length. -/
def compact (value : Int) : Write :=
  match CompactU16.encode value with
  | .ok bs => bytes bs
  | .error fault => throw fault

/-- Appends bytes after their number as a compact length. -/
def compactBytes (bs : Bytes) : Write := do
  compact bs.length
  bytes bs

/-- Appends a text after its length in 64 bits. -/
def string (text : String) : Write := do
  let bs := Utf8.encode text
  integer .u64 bs.length
  bytes bs

/-- Appends a byte that says whether there is an item, and the item. -/
def option {α : Type} (write : α → Write) : Option α → Write
  | none => bool false
  | some x => do
    bool true
    write x

/-- Appends items, one after another. -/
def each {α : Type} (write : α → Write) : List α → Write
  | [] => return
  | x :: xs => do
    write x
    each write xs

/-- Appends items after their number as a compact length. -/
def array {α : Type} (write : α → Write) (xs : List α) : Write := do
  compact xs.length
  each write xs

/-- The bytes of a write. -/
def run (write : Write) : Except Fault Bytes :=
  match ExceptT.run write [] with
  | (.ok _, bs) => .ok bs
  | (.error fault, _) => .error fault

end Write

end LedgerClient
