import LedgerClient.Rpc.Call

/-!
# Submissions

A transaction, or the bytes of one, is submitted as a text in one of two encodings, to be carried
out or only to be simulated. The settings of the request name the encoding of its text, whatever
they named before. The caller holds its transaction and its settings and may use them again, so the
encoding is set in a copy.

## Main definitions

* `Rpc.Submission`: what is submitted
* `Rpc.Holdings`, `Rpc.Use`: what the caller holds, and a computation on it
* `Rpc.Purpose`: what is to become of a transaction
* `Rpc.submit`: the call that submits what the caller holds
* `Rpc.Call.submitting`: the call that submits a transaction with settings
-/

namespace LedgerClient.Rpc

/-- A transaction to be submitted, or its bytes. -/
inductive Submission
  | transaction (transaction : Transaction)
  | bytes (bytes : Bytes)

/-- The bytes that are submitted. -/
def Submission.toBytes : Submission → Except Fault Bytes
  | .transaction t => t.bytes
  | .bytes bs => return bs

/-- What a caller holds: what it submits, and the settings if it has any. -/
structure Holdings where
  /-- What is submitted. -/
  submission : Submission
  /-- The settings, if there are any. -/
  settings : Option Settings

/-- A computation on what a caller holds. If it fails, what it has changed stays changed. -/
abbrev Use (α : Type) := ExceptT Fault (StateM Holdings) α

/-- What is to become of a transaction. -/
inductive Purpose
  | send
  | simulate
  deriving DecidableEq, Repr

namespace Purpose

/-- The method of the call. -/
def method : Purpose → String
  | .send => "sendTransaction"
  | .simulate => "simulateTransaction"

/-- The form of its settings. -/
def form : Purpose → Form
  | .send => .sendTransaction
  | .simulate => .simulateTransaction

/-- The shape of its result. -/
def shape : Purpose → Shape
  | .send => Shape.signature
  | .simulate => Shape.simulateResult.withContext

end Purpose

/-- The settings of a request that submits what the caller holds; without any, none is set. -/
def Holdings.settingsFor (held : Holdings) (purpose : Purpose) : Settings :=
  held.settings.getD (.empty purpose.form)

/-- Bytes as the text of a transaction; only two encodings are used for them. -/
def wireText (bytes : Bytes) (encoding : String) : Except Fault String :=
  if encoding = Encoding.base64.name then return Base64.encode bytes
  else if encoding = Encoding.base58.name then return Base58.encode bytes
  else throw (.invalid (.wireEncoding (.str encoding)))

/-- The call that submits what the caller holds in the encoding of a name. -/
def submit (purpose : Purpose) (encoding : String) : Use (Call Reply) := do
  let held ← get
  let bytes ← held.submission.toBytes
  let named ← Filter.readEncoding (.str encoding)
  let settings ← (held.settingsFor purpose).replace "encoding" (.encoding named)
  let text ← wireText bytes encoding
  return ⟨purpose.method, [.plain (.str text), .settings settings],
    fun text host => purpose.shape.decode text host⟩

/-- The call that submits a transaction with settings. -/
def Call.submitting (purpose : Purpose) (submission : Submission)
    (settings : Option Settings := none) (encoding : String := Encoding.base64.name) :
    Except Fault (Call Reply) :=
  (ExceptT.run (submit purpose encoding) ⟨submission, settings⟩).1

end LedgerClient.Rpc
