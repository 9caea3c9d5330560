import LedgerClient.Message
import LedgerClient.Program.Draft

/-!
# Compiling messages

A message is compiled from instructions and the account that pays. An account signs or may be
changed if any mention of it says so, and the payer always does both. Accounts are listed in the
order of their keys within each class. An account that neither signs nor is called as a program
is loaded from the first table that holds it among its first 256 addresses, if there is one. A
message is of version zero if it loads anything or if that version is asked for.

## Main definitions

* `Message.Usage`: how a key is used
* `Message.Plan`: where each key is listed or loaded
* `Message.compile`: the message of instructions
* `Message.assemble`: the message of drafts and instructions
-/

namespace LedgerClient.Message

/-- The keys that instructions and a payer mention. -/
def mentions (ixs : List Instruction) (payer : PublicKey) : List PublicKey :=
  payer :: ixs.flatMap fun i => i.program :: i.accounts.map (·.key)

/-- A key put into an ascending list, unless it is there. -/
def insertKey (key : PublicKey) : List PublicKey → List PublicKey
  | [] => [key]
  | k :: ks =>
    if key < k then key :: k :: ks else if k = key then k :: ks else k :: insertKey key ks

/-- The different keys of a list in ascending order. -/
def ascending (keys : List PublicKey) : List PublicKey :=
  keys.foldr insertKey []

/-- How a key is used. -/
structure Usage where
  /-- The account signs. -/
  isSigner : Bool
  /-- The account may be changed. -/
  isWritable : Bool
  /-- The account is called as a program. -/
  isProgram : Bool
  deriving DecidableEq, Repr

/-- How a key is used by instructions and a payer. -/
def usage (ixs : List Instruction) (payer key : PublicKey) : Usage :=
  let metas := (ixs.flatMap (·.accounts)).filter (·.key == key)
  ⟨key == payer || metas.any (·.isSigner), key == payer || metas.any (·.isWritable),
    ixs.any (·.program == key)⟩

/-- The number of addresses of a table that a message can load. -/
def maxTableIndexes : Nat := 256

/-- The index of a key among the addresses of a table that can be loaded. -/
def tableIndex? (table : LookupTable) (key : PublicKey) : Option Nat :=
  (table.addresses.take maxTableIndexes).findIdx? (· == key)

/-- The first table that holds a key and can load it. -/
def home? (tables : List LookupTable) (key : PublicKey) : Option PublicKey :=
  (tables.find? fun t => (tableIndex? t key).isSome).map (·.key)

/-- Where each key is listed or loaded, by class. -/
structure Plan where
  /-- The payer and the other writable signers. -/
  writableSigners : List PublicKey
  /-- The read-only signers. -/
  readonlySigners : List PublicKey
  /-- The listed writable accounts that do not sign. -/
  writables : List PublicKey
  /-- The listed read-only accounts that do not sign. -/
  readonlys : List PublicKey
  /-- The tables with the keys that are loaded writable from each. -/
  loadedWritable : List (LookupTable × List PublicKey)
  /-- The tables with the keys that are loaded read-only from each. -/
  loadedReadonly : List (LookupTable × List PublicKey)

/-- The plan of instructions, a payer and a mapping of tables. -/
def Plan.of (ixs : List Instruction) (payer : PublicKey) (tables : List LookupTable) : Plan :=
  let others := (ascending (mentions ixs payer)).filter (· != payer)
  let use := usage ixs payer
  let home (key : PublicKey) : Option PublicKey :=
    if (use key).isSigner || (use key).isProgram then none else home? tables key
  let writable (key : PublicKey) : Bool := (use key).isWritable
  let signing := others.filter fun key => (use key).isSigner
  let listed := others.filter fun key => !(use key).isSigner && (home key).isNone
  let loaded (table : LookupTable) : List PublicKey :=
    others.filter fun key => home key == some table.key
  { writableSigners := payer :: signing.filter writable
    readonlySigners := signing.filter (!writable ·)
    writables := listed.filter writable
    readonlys := listed.filter (!writable ·)
    loadedWritable := tables.map fun t => (t, (loaded t).filter writable)
    loadedReadonly := tables.map fun t => (t, (loaded t).filter (!writable ·)) }

namespace Plan

/-- The listed keys in order. -/
def listed (p : Plan) : List PublicKey :=
  p.writableSigners ++ p.readonlySigners ++ p.writables ++ p.readonlys

/-- All keys in order. -/
def all (p : Plan) : List PublicKey :=
  p.listed ++ p.loadedWritable.flatMap (·.2) ++ p.loadedReadonly.flatMap (·.2)

/-- The number of signers. -/
def signerCount (p : Plan) : Nat :=
  p.writableSigners.length + p.readonlySigners.length

/-- The header of the message. -/
def header (p : Plan) : Header :=
  ⟨p.signerCount, p.readonlySigners.length, p.readonlys.length⟩

/-- The indexes of keys in a table. -/
def indexes (table : LookupTable) (keys : List PublicKey) : List Int :=
  keys.map fun key => (((tableIndex? table key).getD 0 : Nat) : Int)

/-- What is loaded from each table that anything is loaded from. -/
def lookups (p : Plan) : List Lookup :=
  (p.loadedWritable.zip p.loadedReadonly).filterMap fun (w, r) =>
    if w.2.isEmpty && r.2.isEmpty then none
    else some ⟨w.1.key, indexes w.1 w.2, indexes r.1 r.2⟩

/-- The position of a key. -/
def position (p : Plan) (key : PublicKey) : Int :=
  (p.all.idxOf key : Nat)

/-- An instruction with positions in the place of keys. -/
def instruction (p : Plan) (i : Instruction) : CompiledInstruction :=
  ⟨p.position i.program, i.accounts.map fun m => p.position m.key, i.data⟩

end Plan

/-- The greatest number of accounts that a header can count. -/
def maxHeaderCount : Nat := 255

/-- The greatest number of accounts of a compiled message. -/
def maxCompiledAccounts : Nat := 256

/-- Refuses tables for a legacy message. -/
def checkTables (tables : List LookupTable) (version : Option Version) : Except Fault Unit :=
  if tables ≠ [] ∧ version = some .legacy then .error (.invalid .legacyTables) else .ok ()

/-- The message of instructions. -/
def compile (ixs : List Instruction) (payer : PublicKey) (blockhash : Hash)
    (tables : List LookupTable) (version : Option Version) : Except Fault Message := do
  checkTables tables version
  let plan := Plan.of ixs payer (LookupTable.mapping tables)
  if maxCompiledAccounts < plan.all.length then throw (.invalid (.accountLimit plan.all.length))
  if maxHeaderCount < plan.signerCount ∨ maxHeaderCount < plan.readonlys.length then
    throw (.invalid .headerLimit)
  return {
    header := plan.header
    keys := plan.listed
    blockhash
    instructions := ixs.map plan.instruction
    lookups := plan.lookups
    version := if plan.lookups ≠ [] ∨ version = some .v0 then .v0 else .legacy }

/-- An instruction, or the draft of one. -/
inductive Source
  | instruction (i : Instruction)
  | draft (d : Draft)

/-- The instruction of a source. -/
def Source.build (hash : Bytes → Hash) : Source → Except Fault Instruction
  | .instruction i => .ok i
  | .draft d => d.build hash

/-- The message of drafts and instructions. -/
def assemble (hash : Bytes → Hash) (sources : List Source) (payer : PublicKey) (blockhash : Hash)
    (tables : List LookupTable) (version : Option Version) : Except Fault Message := do
  checkTables tables version
  let ixs ← sources.mapM (Source.build hash)
  compile ixs payer blockhash tables version

end LedgerClient.Message
