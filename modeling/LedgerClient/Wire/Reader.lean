import LedgerClient.Key.Text
import LedgerClient.Wire.CompactU16

/-!
# Reading bytes

A cursor stands at an offset of some data. A read takes what it needs and moves the cursor; a read
that fails leaves the cursor where the failing step found it, so a composite read may have moved
on before it fails. The offset is a whole number: raw reads accept any count, also a negative one,
which moves the cursor back.

## Main definitions

* `Cursor`: data and an offset
* `Read`: a computation that reads at the cursor and may fail
* `Read.integer`, `Read.bytes`, `Read.compact`, …: the primitive reads
* `Read.run`: the result of a read at the beginning of some data
-/

namespace LedgerClient

/-- A position in some data. -/
structure Cursor where
  /-- All of the data. -/
  data : Bytes
  /-- Where the next read starts. -/
  offset : Int
  deriving DecidableEq, Repr

/-- The cursor at the beginning. -/
def Cursor.start (data : Bytes) : Cursor := ⟨data, 0⟩

/-- The number of bytes from the offset to the end. -/
def Cursor.remaining (c : Cursor) : Int := c.data.length - c.offset

/-- A computation that reads at a cursor. -/
abbrev Read (α : Type) := ExceptT Fault (StateM Cursor) α

namespace Read

/-- Fails unless `count` bytes lie between the offset and the end. -/
def need (count : Int) (item : ReadItem) : Read Unit := do
  let c ← get
  if c.data.length < c.offset + count then
    throw (.codec (.shortData item c.offset))

/-- Moves the cursor. -/
def advance (count : Int) : Read Unit :=
  modify fun c => { c with offset := c.offset + count }

/-- An integer of fixed width. A cursor before the beginning counts back from the end, and the
integer must then lie inside the data. -/
def integer (kind : IntKind) : Read Int := do
  need kind.width (.integer kind)
  let c ← get
  let size : Int := c.data.length
  let start := if c.offset < 0 then c.offset + size else c.offset
  if c.offset < -9223372036854775808 then throw (.misuse .overflow)
  if c.offset < 0 ∧ (0 < c.offset + kind.width ∨ start < 0) then throw (.misuse .window)
  advance kind.width
  return kind.decode (c.data.drop start.toNat)

/-- One byte as a number. -/
def byte : Read Nat :=
  Int.toNat <$> integer .u8

/-- One byte that is zero or one. -/
def bool : Read Bool := do
  let offset := (← get).offset
  let v ← integer .u8
  if 1 < v then throw (.codec (.boolByte v offset))
  return v == 1

/-- A number of bytes. -/
def bytes (count : Int) : Read Bytes := do
  need count (.bytes count)
  let c ← get
  advance count
  return Sequence.between c.data c.offset (c.offset + count)

/-- A key of a kind. -/
def key (kind : KeyKind) : Read (Key kind) := do
  let bs ← bytes kind.width
  match Key.ofBytes kind bs with
  | .ok key => return key
  | .error fault => throw fault

/-- A compact length. -/
def compact : Read Nat := do
  let c ← get
  match CompactU16.decode c.data c.offset with
  | .ok (value, consumed) => do
    advance consumed
    return value
  | .error fault => throw fault

/-- As many bytes as a compact length says. -/
def compactBytes : Read Bytes := do
  let n ← compact
  bytes n

/-- `count` items, one after another. -/
def times {α : Type} (item : Read α) : (count : Nat) → Read (List α)
  | 0 => return []
  | count + 1 => do
    let x ← item
    let xs ← times item count
    return x :: xs

/-- As many items as a compact length says. -/
def array {α : Type} (item : Read α) : Read (List α) := do
  let n ← compact
  times item n

/-- A text with a length of 64 bits. -/
def string : Read String := do
  let n ← integer .u64
  let bs ← bytes n
  match Utf8.decode bs with
  | .ok text => return text
  | .error _ => throw (.codec (.stringText (← get).offset))

/-- An item after a byte that says whether there is one. -/
def option {α : Type} (item : Read α) : Read (Option α) := do
  if ← bool then some <$> item else return none

/-- Fails unless the cursor stands at the end. -/
def ending : Read Unit := do
  let c ← get
  if c.remaining ≠ 0 then throw (.codec (.trailingData c.remaining c.offset))

/-- The result of a read at the beginning of some data. -/
def run {α : Type} (read : Read α) (data : Bytes) : Except Fault α :=
  (ExceptT.run read (Cursor.start data)).1

/-- The result of a read that must take all of the data. -/
def all {α : Type} (read : Read α) (data : Bytes) : Except Fault α :=
  Read.run (do let x ← read; ending; return x) data

end Read

end LedgerClient
