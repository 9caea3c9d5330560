import LedgerClient.Fault

/-!
# Reading keys

Keys are read from base58 or base64 text, which must denote exactly as many bytes as the kind
asks for, and from raw bytes of that number.

## Main definitions

* `Key.ofBase58`, `Key.ofBase64`: the key of a text
* `Key.ofBytes`: the key of a byte string
* `Key.display`: a key as it is shown with its kind
-/

namespace LedgerClient

/-- The bytes of a base58 text that stands for something named `label`. -/
def Base58.decode (label text : String) : Except Fault Bytes :=
  match Base58.decode? text with
  | some bs => .ok bs
  | none => .error (.crypto (.base58 label text))

namespace Key

/-- The key of a base58 text. -/
def ofBase58 (kind : KeyKind) (text : String) : Except Fault (Key kind) := do
  let bs ← Base58.decode kind.label text
  match ofBytes? kind bs with
  | some key => return key
  | none => throw (.crypto (.base58Width kind text bs.length))

/-- The key of a base64 text. -/
def ofBase64 (kind : KeyKind) (text : String) : Except Fault (Key kind) :=
  match Base64.decode text with
  | .error .notAscii => .error (.misuse .value)
  | .error .malformed => .error (.crypto (.base64 kind text))
  | .ok bs => match ofBytes? kind bs with
    | some key => .ok key
    | none => .error (.crypto (.base64Width kind bs.length))

/-- The key of a byte string. -/
def ofBytes (kind : KeyKind) (bs : Bytes) : Except Fault (Key kind) :=
  match ofBytes? kind bs with
  | some key => .ok key
  | none => .error (.invalid (.keyWidth kind bs.length))

/-- A key with the name of its kind. -/
def display {kind : KeyKind} (key : Key kind) : String :=
  s!"{kind.label}({Quoted.quote key.base58})"

end Key

end LedgerClient
