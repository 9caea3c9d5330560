import LedgerClient.Base58
import LedgerClient.Base64

/-!
# Keys, hashes and signatures

Accounts are named by public keys, blocks by hashes, and transactions carry signatures. All three
are byte strings of a fixed width, shown in base58. They compare byte by byte, each kind with
itself only.

## Main definitions

* `KeyKind`: public key, hash or signature, each with its width
* `Key`: a byte string of the width of its kind
* `Key.base58`, `Key.base64`: the texts of a key
-/

namespace LedgerClient

/-- What a byte string of fixed width stands for. -/
inductive KeyKind
  | publicKey
  | hash
  | signature
  deriving DecidableEq, Repr

/-- The number of bytes of a kind. -/
def KeyKind.width : KeyKind → Nat
  | .publicKey => 32
  | .hash => 32
  | .signature => 64

/-- The name of a kind in messages. -/
def KeyKind.label : KeyKind → String
  | .publicKey => "PublicKey"
  | .hash => "Hash"
  | .signature => "Signature"

/-- A byte string of the width of its kind. -/
@[ext]
structure Key (kind : KeyKind) where
  /-- The bytes. -/
  bytes : Bytes
  /-- There are as many as the kind asks for. -/
  length_eq : bytes.length = kind.width
  deriving DecidableEq

/-- The name of an account: an Ed25519 public key or a derived address. -/
abbrev PublicKey := Key .publicKey

/-- A SHA-256 digest, such as the hash of a recent block. -/
abbrev Hash := Key .hash

/-- An Ed25519 signature. -/
abbrev Signature := Key .signature

namespace Key

variable {kind : KeyKind}

/-- Keys are ordered byte by byte. -/
instance : LT (Key kind) := ⟨fun a b => a.bytes < b.bytes⟩

instance (a b : Key kind) : Decidable (a < b) :=
  inferInstanceAs (Decidable (a.bytes < b.bytes))

/-- The key of all zero bytes. -/
def zero (kind : KeyKind) : Key kind :=
  ⟨Bytes.zeros kind.width, by simp⟩

instance : Inhabited (Key kind) := ⟨zero kind⟩

/-- All bytes are zero. -/
def isZero (key : Key kind) : Bool :=
  key.bytes.all (· == 0)

/-- The base58 text of a key. -/
def base58 (key : Key kind) : String :=
  Base58.encode key.bytes

/-- The base64 text of a key. -/
def base64 (key : Key kind) : String :=
  Base64.encode key.bytes

/-- The key with the given bytes, if there are as many as the kind asks for. -/
def ofBytes? (kind : KeyKind) (bs : Bytes) : Option (Key kind) :=
  if h : bs.length = kind.width then some ⟨bs, h⟩ else none

/-- The right-most bytes of a byte string of any length, filled up with zero bytes on the left. -/
def ofRightmost (kind : KeyKind) (bs : Bytes) : Key kind :=
  let kept := bs.drop (bs.length - kind.width)
  ⟨Bytes.zeros (kind.width - kept.length) ++ kept, by
    simp only [kept, List.length_append, Bytes.length_zeros, List.length_drop]; omega⟩

end Key

end LedgerClient
