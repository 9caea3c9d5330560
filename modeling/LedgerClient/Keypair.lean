import LedgerClient.Curve.Signing
import LedgerClient.Json.Printer
import LedgerClient.Json.Reader
import LedgerClient.Key.Text

/-!
# Keypairs

A keypair is a seed; the signature scheme derives its public key. It is stored as its secret, the
seed followed by the public key, in raw bytes, in base58 or as a JSON list of the 64 bytes. A
secret whose second half is not the public key of the first is refused.

## Main definitions

* `Keypair.ofSeed`, `Keypair.ofSecret`, `Keypair.ofBase58`, `Keypair.ofJson`: the keypair of a
  stored form
* `Keypair.secret`, `Keypair.base58`, `Keypair.json`: the stored forms of a keypair
-/

namespace LedgerClient

/-- A keypair, which its seed determines. -/
abbrev Keypair := Seed

namespace Keypair

variable (S : SignatureScheme)

/-- The keypair of a seed. -/
def ofSeed (bs : Bytes) : Except Fault Keypair :=
  if h : bs.length = 32 then .ok ⟨bs, h⟩ else .error (.crypto (.seedWidth bs.length))

/-- The keypair of a secret. -/
def ofSecret (secret : Bytes) : Except Fault Keypair := do
  if secret.length ≠ 64 then throw (.crypto (.secretWidth secret.length))
  let keypair ← ofSeed (secret.take 32)
  if (S.publicKey keypair).bytes ≠ secret.drop 32 then throw (.crypto .secretMismatch)
  return keypair

/-- The keypair of a secret in base58. -/
def ofBase58 (text : String) : Except Fault Keypair := do
  ofSecret S (← Base58.decode "secret key" text)

/-- The whole numbers of a list. -/
def integers : Json.Tree → Except Json.Obstacle (List Int)
  | .arr items => items.mapM fun
    | .number (.whole n digits) =>
      if Numeral.maxDigits < digits then .error .form else .ok n
    | _ => .error .form
  | _ => .error .form

/-- The byte string of whole numbers, if all are bytes. -/
def bytesOf? (ns : List Int) : Option Bytes :=
  ns.mapM fun n => if 0 ≤ n ∧ n < 256 then some (UInt8.ofNat n.toNat) else none

/-- The keypair of a secret as a JSON list of bytes. -/
def ofJson (text : Bytes) : Except Fault Keypair :=
  match (Json.Document.read text).using integers with
  | .error _ => .error (.crypto .keypairText)
  | .ok ns => match bytesOf? ns with
    | none => .error (.crypto .keypairRange)
    | some secret => ofSecret S secret

/-- The seed followed by the public key. -/
def secret (keypair : Keypair) : Bytes :=
  keypair.bytes ++ (S.publicKey keypair).bytes

/-- The secret in base58. -/
def base58 (keypair : Keypair) : String :=
  Base58.encode (secret S keypair)

/-- The secret as a JSON list of bytes. -/
def json (keypair : Keypair) : String :=
  (Json.Value.arr ((secret S keypair).map fun b => .int b.toNat)).render

/-- A keypair as it is shown, without its secret. -/
def display (keypair : Keypair) : String :=
  s!"Keypair(public_key={Quoted.quote (S.publicKey keypair).base58})"

end Keypair

end LedgerClient
