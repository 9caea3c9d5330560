import LedgerClient.Keypair
import LedgerClient.Message.Compile
import LedgerClient.Message.Wire

/-!
# Transactions

A transaction is a message with one signature slot for each account that must sign. A slot
without signature holds zero bytes. Signing fills all slots at once or none; partial signing
fills the empty slots whose keys are at hand; a signature from elsewhere is checked first.

## Main definitions

* `Transaction`: a message and its signature slots
* `Signers`: the keypairs at hand, by public key
* `Transaction.sign`, `Transaction.partialSign`, `Transaction.addSignature`: filling slots
* `Transaction.isSigned`, `Transaction.verified`: the state of the slots
* `Transaction.bytes`, `Transaction.ofBytes`: a transaction as bytes and back
-/

namespace LedgerClient

/-- A message and its signature slots. -/
structure Transaction where
  /-- The message. -/
  message : Message
  /-- The slots in the order of the signers. -/
  signatures : List Signature
  deriving DecidableEq

/-- The keypairs at hand; of several for one public key the last one counts. -/
abbrev Signers := List (PublicKey × Keypair)

namespace Signers

/-- The signers of some keypairs. -/
def ofKeypairs (S : SignatureScheme) (keypairs : List Keypair) : Signers :=
  keypairs.map fun keypair => (S.publicKey keypair, keypair)

/-- The keypair for a public key. -/
def find? (signers : Signers) (key : PublicKey) : Option Keypair :=
  signers.reverse.lookup key

end Signers

namespace Transaction

/-- A transaction with given slots, as many as the message has signers. -/
def make (message : Message) (signatures : List Signature) : Except Fault Transaction :=
  if (signatures.length : Int) = message.header.signers then .ok ⟨message, signatures⟩
  else .error (.invalid (.signatureCount signatures.length message.header.signers))

/-- A transaction with empty slots. -/
def ofMessage (message : Message) : Except Fault Transaction :=
  make message (List.replicate message.header.signers.toNat (Key.zero .signature))

/-- The first signature, which names the transaction. -/
def signature (t : Transaction) : Except Fault Signature :=
  match t.signatures with
  | [] => .error (.misuse .index)
  | s :: _ => .ok s

/-- No slot is empty. -/
def isSigned (t : Transaction) : Bool :=
  t.signatures.all fun s => !s.isZero

section Signing

variable (S : SignatureScheme)

/-- Each slot's signature belongs to the signer of the slot, as far as there are both. -/
def verified (t : Transaction) : Except Fault Bool := do
  let payload ← t.message.bytes
  return (t.message.signers.zip t.signatures).all fun (key, s) => S.verify key payload s

/-- A change of a transaction that may fail after it has changed it. -/
abbrev Change := ExceptT Fault (StateM Transaction) Unit

/-- Fails with the fault of a computation, if it has one. -/
def Change.given {α : Type} : Except Fault α → ExceptT Fault (StateM Transaction) α
  | .ok x => return x
  | .error fault => throw fault

/-- Fills every slot. A transaction without any slot has no signature to show for it and fails
after its slots are set. -/
def sign (signers : Signers) : Change := do
  let t ← get
  let keys := t.message.signers
  let missing := keys.filter fun key => (signers.find? key).isNone
  if missing ≠ [] then throw (.invalid (.missingSigners missing))
  let payload ← Change.given t.message.bytes
  let signatures := keys.filterMap fun key => (signers.find? key).map (S.sign · payload)
  set { t with signatures }
  if signatures.isEmpty then throw (.misuse .index)

/-- The slots for some keys, empty ones filled by the keypairs at hand; there must be a slot for
every key. -/
def fill (signers : Signers) (payload : Bytes) :
    List PublicKey → List Signature → Except Fault (List Signature)
  | [], slots => .ok slots
  | _ :: _, [] => .error (.misuse .index)
  | key :: keys, slot :: slots => do
    let filled := match signers.find? key with
      | some keypair => if slot.isZero then S.sign keypair payload else slot
      | none => slot
    let others ← fill signers payload keys slots
    return filled :: others

/-- Fills the empty slots whose keys are at hand. -/
def partialSign (signers : Signers) : Change := do
  let t ← get
  let payload ← Change.given t.message.bytes
  let signatures ← Change.given (fill S signers payload t.message.signers t.signatures)
  set { t with signatures }

/-- Puts a signature into the slot of a signer, if it belongs to the message. -/
def addSignature (key : PublicKey) (signature : Signature) : Change := do
  let t ← get
  let keys := t.message.signers
  if !keys.contains key then throw (.invalid (.notRequired key))
  let payload ← Change.given t.message.bytes
  if ¬S.verify key payload signature then throw (.crypto (.unverified key))
  let index := keys.idxOf key
  if t.signatures.length ≤ index then throw (.misuse .index)
  set { t with signatures := t.signatures.set index signature }

end Signing

/-- Appends a transaction; a signature is written as its bytes alone. -/
def write (t : Transaction) : Write := do
  Write.array Write.key t.signatures
  t.message.write

/-- The bytes of a transaction, which must have a slot for each signer. -/
def bytes (t : Transaction) : Except Fault Bytes :=
  if (t.signatures.length : Int) = t.message.header.signers then t.write.run
  else .error (.invalid (.signatureCount t.signatures.length t.message.header.signers))

/-- Reads slots and a message. -/
def read : Read (List Signature × Message) := do
  let signatures ← Read.array (Read.key .signature)
  let message ← Message.read
  return (signatures, message)

/-- The transaction of a byte string. -/
def ofBytes (bs : Bytes) : Except Fault Transaction := do
  let (signatures, message) ← Read.all read bs
  make message signatures

/-- The base64 text of a transaction. -/
def base64 (t : Transaction) : Except Fault String :=
  Base64.encode <$> t.bytes

/-- The base58 text of a transaction. -/
def base58 (t : Transaction) : Except Fault String :=
  Base58.encode <$> t.bytes

/-- The transaction of a base64 text. -/
def ofBase64 (text : String) : Except Fault Transaction :=
  match Base64.decode text with
  | .ok bs => ofBytes bs
  | .error .malformed => .error (.codec .transactionBase64)
  | .error .notAscii => .error (.misuse .value)

/-- The transaction of a base58 text. -/
def ofBase58 (text : String) : Except Fault Transaction :=
  match Base58.decode? text with
  | some bs => ofBytes bs
  | none => .error (.codec .transactionBase58)

/-- A transaction as it is shown. -/
def display (t : Transaction) : String :=
  let signature := t.signatures.head?.elim "None" Key.base58
  s!"Transaction(signature={signature}, version={t.message.version.name}, " ++
    s!"keys={t.message.keys.length})"

end Transaction

end LedgerClient
