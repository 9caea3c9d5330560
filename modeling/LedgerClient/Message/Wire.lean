import LedgerClient.Message
import LedgerClient.Wire.Writer

/-!
# Messages as bytes

A legacy message starts with the number of its signers, a later one with its version number and
the top bit set. The counts, the listed accounts, the blockhash and the instructions follow, and
the lookups unless the message is a legacy one. A message that is read must have a fee payer that
signs, counts that fit its accounts, no account twice, at most 256 accounts with the loaded ones,
and positions that exist.

## Main definitions

* `Message.write`, `Message.bytes`: writing a message
* `Message.check`: what a message that is read must fulfil
* `Message.read`, `Message.ofBytes`: reading a message
-/

namespace LedgerClient.Message

/-- The bytes of positions, each of which must be a byte. -/
def positionBytes? (is : List Int) : Option Bytes :=
  is.mapM fun i => if 0 ≤ i ∧ i < 256 then some (UInt8.ofNat i.toNat) else none

/-- The positions of bytes. -/
def positions (bs : Bytes) : List Int :=
  bs.map fun b => (b.toNat : Int)

/-- Appends positions after their number. -/
def writePositions (is : List Int) : Write :=
  match positionBytes? is with
  | some bs => Write.compactBytes bs
  | none => throw (.misuse .value)

/-- Appends an instruction. -/
def writeInstruction (i : CompiledInstruction) : Write := do
  Write.integer .u8 i.program
  writePositions i.accounts
  Write.compactBytes i.data

/-- Appends a lookup. -/
def writeLookup (l : Lookup) : Write := do
  Write.key l.table
  writePositions l.writable
  writePositions l.readonly

/-- Appends a header. -/
def writeHeader (h : Header) : Write := do
  Write.integer .u8 h.signers
  Write.integer .u8 h.readonlySigners
  Write.integer .u8 h.readonlyOthers

/-- Appends a message. -/
def write (m : Message) : Write := do
  match m.version with
  | .legacy => pure ()
  | .v0 => Write.integer .u8 0x80
  writeHeader m.header
  Write.array Write.key m.keys
  Write.key m.blockhash
  Write.array writeInstruction m.instructions
  match m.version with
  | .legacy => pure ()
  | .v0 => Write.array writeLookup m.lookups

/-- The bytes of a message. -/
def bytes (m : Message) : Except Fault Bytes :=
  m.write.run

/-- The greatest number of accounts, loaded ones included. -/
def maxAccounts : Nat := 256

/-- Refuses instructions from number `n` on with positions that do not exist. -/
def checkInstructions (listed total n : Nat) : List CompiledInstruction → Except Fault Unit
  | [] => .ok ()
  | i :: is => do
    if listed ≤ i.program then throw (.codec (.programIndex n i.program))
    match i.accounts.find? fun a => decide ((total : Int) ≤ a) with
    | some a => throw (.codec (.accountIndex n a))
    | none => checkInstructions listed total (n + 1) is

/-- Refuses a message whose counts or positions do not fit its accounts. -/
def check (m : Message) : Except Fault Unit := do
  let listed := m.keys.length
  if m.header.signers = 0 then throw (.codec .noSigners)
  if listed < m.header.signers then throw (.codec (.tooFewKeys m.header.signers listed))
  if m.header.signers < m.header.readonlySigners then throw (.codec .readonlySigners)
  if listed - m.header.signers < m.header.readonlyOthers then throw (.codec .readonlyOthers)
  if ¬m.keys.Nodup then throw (.codec .duplicateKeys)
  let total := listed + m.loadedCount
  if maxAccounts < total then throw (.codec (.tooManyAccounts total))
  checkInstructions listed total 0 m.instructions

/-- Reads an instruction. -/
def readInstruction : Read CompiledInstruction := do
  let program ← Read.integer .u8
  let accounts ← Read.compactBytes
  let data ← Read.compactBytes
  return ⟨program, positions accounts, data⟩

/-- Reads a lookup. -/
def readLookup : Read Lookup := do
  let table ← Read.key .publicKey
  let writable ← Read.compactBytes
  let readonly ← Read.compactBytes
  return ⟨table, positions writable, positions readonly⟩

/-- Reads the version and the number of signers. -/
def readStart : Read (Version × Int) := do
  let first ← Read.byte
  if first < 0x80 then return (.legacy, first)
  if first ≠ 0x80 then throw (.codec (.versionByte (first - 0x80)))
  return (.v0, ← Read.integer .u8)

/-- Reads a message. -/
def read : Read Message := do
  let (version, signers) ← readStart
  let readonlySigners ← Read.integer .u8
  let readonlyOthers ← Read.integer .u8
  let keys ← Read.array (Read.key .publicKey)
  let blockhash ← Read.key .hash
  let instructions ← Read.array readInstruction
  let lookups ← match version with
    | .legacy => pure []
    | .v0 => Read.array readLookup
  let m : Message :=
    ⟨⟨signers, readonlySigners, readonlyOthers⟩, keys, blockhash, instructions, lookups, version⟩
  match m.check with
  | .ok _ => return m
  | .error fault => throw fault

/-- The message of a byte string. -/
def ofBytes (bs : Bytes) : Except Fault Message :=
  Read.all read bs

end LedgerClient.Message
