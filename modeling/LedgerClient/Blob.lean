import LedgerClient.Fault
import LedgerClient.Host

/-!
# Blobs

Servers send account data and transactions as blobs: a pair of a payload and the name of its
encoding, a bare payload, which is base58, or an object when the server has parsed the data.
A blob is written as a pair again, in base58 if it came so and in base64 otherwise; parsed data
cannot be written. What opens compressed frames is a parameter, and a blob is read on a host that
has one.

## Main definitions

* `Encoding`: how a payload is written
* `Blob`: the bytes and the encoding they came in
* `Blob.ofJsonWith`, `Blob.ofJson`: the blob of a JSON value, with a way to open frames, and on a
  host
* `Blob.toJson`: the JSON value of a blob
-/

namespace LedgerClient

/-- How the payload of a blob is written. -/
inductive Encoding
  | base58
  | base64
  /-- A compressed frame in base64. -/
  | compressed
  /-- An object in place of a payload. -/
  | parsed
  deriving DecidableEq, Repr

namespace Encoding

/-- The name of an encoding. -/
def name : Encoding → String
  | .base58 => "base58"
  | .base64 => "base64"
  | .compressed => "base64+zstd"
  | .parsed => "jsonParsed"

/-- All encodings. -/
def all : List Encoding := [.base58, .base64, .compressed, .parsed]

/-- The encoding of a name. -/
def ofName? (text : String) : Option Encoding :=
  all.find? (·.name == text)

/-- The bytes of a payload, where compressed frames are opened by `inflate?`. -/
def decodeWith (inflate? : Bytes → Option Bytes) (encoding : Encoding) (payload : String) :
    Except Fault Bytes := do
  let base64 : Except Fault Bytes := match Base64.decode payload with
    | .ok bs => .ok bs
    | .error .malformed => .error (.codec .blobBase64)
    | .error .notAscii => .error (.misuse .value)
  match encoding with
  | .base58 => match Base58.decode? payload with
    | some bs => return bs
    | none => throw (.codec .blobBase58)
  | .base64 => base64
  | .compressed => match inflate? (← base64) with
    | some bs => return bs
    | none => throw (.codec .blobCompressed)
  | .parsed => throw (.codec .blobNotObject)

end Encoding

/-- Bytes with the encoding they came in. -/
structure Blob where
  /-- The bytes; none for parsed data. -/
  data : Bytes
  /-- The encoding. -/
  encoding : Encoding
  /-- The object of parsed data. -/
  parsed : Option Json.Value

namespace Blob

/-- The blob of a JSON value, where compressed frames are opened by `inflate?`. -/
def ofJsonWith (inflate? : Bytes → Option Bytes) (value : Json.Value) : Except Fault Blob :=
  match value with
  | .str payload => do
    let data ← Encoding.base58.decodeWith inflate? payload
    return ⟨data, .base58, none⟩
  | .arr [.str payload, .str name] => match Encoding.ofName? name with
    | none => throw (.codec (.blobEncoding (.str name)))
    | some encoding => do
      let data ← encoding.decodeWith inflate? payload
      return ⟨data, encoding, none⟩
  | .arr _ => throw (.codec (.blobShape value))
  | .obj _ => return ⟨[], .parsed, some value⟩
  | _ => throw (.codec (.blobKind value))

/-- The blob of a JSON value on a host. -/
def ofJson (value : Json.Value) (host : Host := .plain) : Except Fault Blob :=
  ofJsonWith host.inflate? value

/-- The pair of payload and encoding. -/
def toJson (blob : Blob) : Except Fault Json.Value :=
  match blob.encoding with
  | .parsed => throw (.codec .blobParsed)
  | .base58 => return .arr [.str (Base58.encode blob.data), .str Encoding.base58.name]
  | _ => return .arr [.str (Base64.encode blob.data), .str Encoding.base64.name]

/-- A blob as it is shown. -/
def display (blob : Blob) : String :=
  match blob.encoding with
  | .parsed => s!"SolData(parsed={(blob.parsed.getD .null).display})"
  | encoding => s!"SolData({blob.data.length} bytes, encoding={Quoted.quote encoding.name})"

end Blob

end LedgerClient
