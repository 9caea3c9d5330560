import LedgerClient.Keyed
import LedgerClient.LookupTable
import LedgerClient.Message.Version

/-!
# Messages

A message lists every account it touches once: writable signers first, the fee payer at their
head, then read-only signers, writable others and read-only others. Its header counts the
signers, the read-only signers and the read-only others. A message of version zero also loads
accounts from lookup tables; loaded writable accounts follow the listed ones, and loaded
read-only accounts come last. Instructions name accounts by their position in this order.

Counts and positions are whole numbers, since a message may be put together from any.

## Main definitions

* `Message`: header, listed accounts, blockhash, instructions and lookups
* `Message.isSigner`, `Message.isWritable`: the privileges of a position
* `Message.signers`: the accounts that must sign
* `Message.resolve`: all accounts in order, given the tables
-/

namespace LedgerClient

/-- The counts of a message. -/
structure Header where
  /-- How many accounts sign. -/
  signers : Int
  /-- How many of the signers are read-only. -/
  readonlySigners : Int
  /-- How many of the other listed accounts are read-only. -/
  readonlyOthers : Int
  deriving DecidableEq, Repr

/-- An instruction whose program and accounts are positions. -/
structure CompiledInstruction where
  /-- The position of the program. -/
  program : Int
  /-- The positions of the accounts. -/
  accounts : List Int
  /-- The data. -/
  data : Bytes
  deriving DecidableEq, Repr

/-- What a message loads from a table. -/
structure Lookup where
  /-- The key of the table. -/
  table : PublicKey
  /-- The indexes of writable accounts. -/
  writable : List Int
  /-- The indexes of read-only accounts. -/
  readonly : List Int
  deriving DecidableEq

/-- The indexes of all accounts that a lookup loads. -/
def Lookup.indexes (l : Lookup) : List Int :=
  l.writable ++ l.readonly

/-- A message. -/
structure Message where
  /-- The counts. -/
  header : Header
  /-- The listed accounts. -/
  keys : List PublicKey
  /-- The hash of a recent block. -/
  blockhash : Hash
  /-- The instructions. -/
  instructions : List CompiledInstruction
  /-- What is loaded from tables. -/
  lookups : List Lookup
  /-- The version. -/
  version : Version
  deriving DecidableEq

/-- The mapping of a list of tables: the last table of a key counts, at the first one's place. -/
def LookupTable.mapping (tables : List LookupTable) : List LookupTable :=
  Keyed.putAll LookupTable.key tables []

/-- The addresses of a table in a mapping. -/
def LookupTable.find? (tables : List LookupTable) (key : PublicKey) : Option (List PublicKey) :=
  (Keyed.find? LookupTable.key key tables).map (·.addresses)

namespace Message

/-- The number of loaded accounts. -/
def loadedCount (m : Message) : Nat :=
  (m.lookups.flatMap Lookup.indexes).length

/-- The number of loaded writable accounts. -/
def loadedWritableCount (m : Message) : Nat :=
  (m.lookups.flatMap Lookup.writable).length

/-- The account that pays. -/
def feePayer (m : Message) : Except Fault PublicKey :=
  match m.keys with
  | [] => .error (.misuse .index)
  | key :: _ => .ok key

/-- The account at a position signs. -/
def isSigner (m : Message) (index : Int) : Bool :=
  index < m.header.signers

/-- The account at a position may be changed. -/
def isWritable (m : Message) (index : Int) : Bool :=
  let listed : Int := m.keys.length
  if index < m.header.signers then index < m.header.signers - m.header.readonlySigners
  else if index < listed then index < listed - m.header.readonlyOthers
  else index - listed < m.loadedWritableCount

/-- The accounts that must sign, in order. -/
def signers (m : Message) : List PublicKey :=
  Sequence.between m.keys 0 m.header.signers

/-- The addresses at some indexes of a table. -/
def pick (table : PublicKey) (addresses : List PublicKey) :
    List Int → Except Fault (List PublicKey)
  | [] => .ok []
  | i :: is => do
    if addresses.length ≤ i then throw (.invalid (.tableIndex table i))
    match Sequence.at? addresses i with
    | none => throw (.misuse .index)
    | some key => return key :: (← pick table addresses is)

/-- The accounts that lookups load: writable ones and read-only ones. -/
def load (tables : List LookupTable) :
    List Lookup → Except Fault (List PublicKey × List PublicKey)
  | [] => .ok ([], [])
  | l :: ls => match LookupTable.find? tables l.table with
    | none => .error (.invalid (.tableMissing l.table))
    | some addresses => do
      let writable ← pick l.table addresses l.writable
      let readonly ← pick l.table addresses l.readonly
      let (writables, readonlys) ← load tables ls
      return (writable ++ writables, readonly ++ readonlys)

/-- All accounts in order, given the tables. -/
def resolve (m : Message) (tables : List LookupTable) : Except Fault (List PublicKey) := do
  let (writable, readonly) ← load (LookupTable.mapping tables) m.lookups
  return m.keys ++ writable ++ readonly

/-- The program of an instruction. -/
def program (m : Message) (i : CompiledInstruction) : Except Fault PublicKey :=
  match Sequence.at? m.keys i.program with
  | some key => .ok key
  | none => .error (.misuse .index)

end Message

end LedgerClient
