import LedgerClient.Json.Tree
import LedgerClient.Json.Value
import LedgerClient.Key
import LedgerClient.Text.Numeral
import LedgerClient.Wire.IntKind

/-!
# Faults

What can go wrong, by cause. Bytes and texts that cannot be read or written give a `CodecFault`,
values that break a precondition an `InvalidFault`, and keys, signatures and addresses that do not
come about a `CryptoFault`. A `MisuseFault` is a value of the wrong type or range where the
program has no wording of its own. The wording of each cause stands in one function.

## Main definitions

* `CodecFault`, `InvalidFault`, `LimitFault`, `CryptoFault`, `MisuseFault`: the causes
* `Fault`: a cause of any kind
* `Fault.message`: the wording
-/

namespace LedgerClient

/-- What a read asked for. -/
inductive ReadItem
  /-- An integer. -/
  | integer (kind : IntKind)
  /-- A number of bytes. -/
  | bytes (count : Int)
  deriving DecidableEq, Repr

/-- The name of what a read asked for. -/
def ReadItem.label : ReadItem → String
  | .integer kind => kind.label
  | .bytes count => s!"{count} bytes"

/-- Why bytes or a text could not be read or written. -/
inductive CodecFault
  | compactRange (value : Int)
  | compactShort (position : Int)
  | compactPadded (offset : Int)
  | compactOverflow (offset : Int)
  | compactUnending (offset : Int)
  | shortData (item : ReadItem) (offset : Int)
  | boolByte (value : Int) (offset : Int)
  | stringText (offset : Int)
  | trailingData (count : Int) (offset : Int)
  | integerRange (kind : IntKind) (value : Int)
  | tooShort (length : Nat) (needed : Nat)
  | tagBytes (got wanted : Bytes)
  | tagValue (got wanted : Int)
  | tableKind (number : Int)
  | tableArea (length : Int)
  | versionValue (value : Json.Value)
  | versionByte (number : Nat)
  | noSigners
  | tooFewKeys (signers : Int) (keys : Nat)
  | readonlySigners
  | readonlyOthers
  | duplicateKeys
  | tooManyAccounts (count : Nat)
  | programIndex (instruction : Nat) (index : Int)
  | accountIndex (instruction : Nat) (index : Int)
  | blobShape (value : Json.Value)
  | blobEncoding (name : Json.Value)
  | blobKind (value : Json.Value)
  | blobParsed
  | blobBase58
  | blobNotObject
  | blobBase64
  | blobCompressed
  | transactionBase64
  | transactionBase58
  | transactionText
  | malformedPayload
  | unexpectedShape
  | singleForBatch
  | batchForSingle
  | replyId (got : Option Int) (wanted : Nat)
  | replyMissing (id : Nat)

/-- Two lower-case hexadecimal digits for each byte. -/
def Bytes.hex (bs : Bytes) : String :=
  String.join (bs.map Utf8.hexByte)

/-- The wording of a codec fault. -/
def CodecFault.message : CodecFault → String
  | .compactRange value => s!"compact-u16 value out of range: {value}"
  | .compactShort position => s!"compact-u16: not enough data at offset {position}"
  | .compactPadded offset => s!"compact-u16: non-canonical encoding at offset {offset}"
  | .compactOverflow offset => s!"compact-u16: value overflows u16 at offset {offset}"
  | .compactUnending offset => s!"compact-u16: continuation bit set on byte 3 at offset {offset}"
  | .shortData item offset => s!"not enough data for {item.label} at offset {offset}"
  | .boolByte value offset => s!"invalid bool byte {value} at offset {offset}"
  | .stringText offset => s!"invalid utf-8 string ending at offset {offset}"
  | .trailingData count offset => s!"{count} trailing bytes at offset {offset}"
  | .integerRange kind value => s!"{kind.label} value out of range: {value}"
  | .tooShort length needed => s!"data too short: {length} bytes, need at least {needed}"
  | .tagBytes got wanted => s!"invalid discriminator: got {got.hex}, want {wanted.hex}"
  | .tagValue got wanted => s!"invalid discriminator: got {got}, want {wanted}"
  | .tableKind number => s!"not an initialized lookup table (type {number})"
  | .tableArea length => s!"lookup table address area is {length} bytes, not a multiple of 32"
  | .versionValue value => s!"unsupported transaction version: {value.display}"
  | .versionByte number => s!"unsupported message version: {number}"
  | .noSigners => "message requires no signatures; the fee payer must sign"
  | .tooFewKeys signers keys =>
    s!"header requires {signers} signatures but message has {keys} keys"
  | .readonlySigners => "more read-only signers than signers"
  | .readonlyOthers => "more read-only non-signers than non-signer keys"
  | .duplicateKeys => "duplicate account keys"
  | .tooManyAccounts count => s!"message references {count} accounts, max 256"
  | .programIndex instruction index =>
    s!"instruction {instruction}: program id index {index} out of range"
  | .accountIndex instruction index =>
    s!"instruction {instruction}: account index {index} out of range"
  | .blobShape value => s!"blob must be [payload, encoding], got {value.display}"
  | .blobEncoding name => s!"unknown blob encoding: {name.display}"
  | .blobKind value => s!"unsupported blob value: {value.typeName}"
  | .blobParsed => "parsed account data cannot be re-encoded"
  | .blobBase58 => "invalid base58 blob"
  | .blobNotObject => "jsonParsed blob must be an object"
  | .blobBase64 => "invalid base64 blob"
  | .blobCompressed => "invalid zstd blob"
  | .transactionBase64 => "invalid base64 transaction"
  | .transactionBase58 => "invalid base58 transaction"
  | .transactionText => "transaction was not fetched in a binary encoding"
  | .malformedPayload => "malformed json-rpc payload"
  | .unexpectedShape => "unexpected result shape"
  | .singleForBatch => "batch answered with a single response"
  | .batchForSingle => "single request answered with a batch"
  | .replyId got wanted =>
    let shown := got.elim "None" toString
    s!"response id {shown} does not match request id {wanted}"
  | .replyMissing id => s!"batch response has no entry for id {id}"

/-- Which precondition a value breaks. -/
inductive InvalidFault
  | keyWidth (kind : KeyKind) (length : Nat)
  | tooManySeeds (count limit : Nat)
  | seedWidth (index length : Nat)
  | seedTextWidth (length : Nat)
  | markedOwner
  | tagWidth (width : Int)
  | tagRange (value : Int) (width : Nat)
  | missingFields (builder : String) (names : List String)
  | accountSeedWidth
  | tooManySigners (count : Nat)
  | duplicateSigner
  | ownSigner (role : String)
  | legacyTables
  | accountLimit (count : Nat)
  | headerLimit
  | tableMissing (table : PublicKey)
  | tableIndex (table : PublicKey) (index : Int)
  | signatureCount (signatures : Nat) (required : Int)
  | missingSigners (keys : List PublicKey)
  | notRequired (key : PublicKey)
  | batchEmpty
  | batchLimitRange
  | responseLimitRange
  | queueSizeRange
  | unknownCluster (name : String)
  | setting (text : String)
  | notLookupTable (table : PublicKey)
  | wireEncoding (value : Json.Value)

/-- The wording of a broken precondition. -/
def InvalidFault.message : InvalidFault → String
  | .keyWidth kind length => s!"{kind.label} must be {kind.width} bytes, got {length}"
  | .tooManySeeds count limit => s!"too many seeds: {count}, max {limit}"
  | .seedWidth index length => s!"seed {index} is {length} bytes, max 32"
  | .seedTextWidth length => s!"seed is {length} bytes, max 32"
  | .markedOwner => "owner may not end with the program address marker"
  | .tagWidth width => s!"unsupported discriminator width: {width}"
  | .tagRange value width => s!"discriminator {value} does not fit in {width} bytes"
  | .missingFields builder names =>
    s!"{builder}: missing required fields: " ++ ", ".intercalate names
  | .accountSeedWidth => "seed longer than 32 bytes"
  | .tooManySigners count => s!"too many multisig signers: {count}, max 11"
  | .duplicateSigner => "duplicate multisig signer"
  | .ownSigner role => s!"{role} cannot also be one of its own multisig signers"
  | .legacyTables => "legacy messages cannot use address lookup tables"
  | .accountLimit count => s!"transaction references {count} accounts, max 256"
  | .headerLimit => "too many accounts of one class for the message header"
  | .tableMissing table => s!"lookup table {table.base58} not supplied"
  | .tableIndex table index => s!"lookup table {table.base58} has no index {index}"
  | .signatureCount signatures required =>
    s!"signature count mismatch: {signatures} signatures, header requires {required}"
  | .missingSigners keys => "missing signers: " ++ ", ".intercalate (keys.map Key.base58)
  | .notRequired key => s!"{key.base58} is not a required signer"
  | .batchEmpty => "batch is empty"
  | .batchLimitRange => "batch_request_limit must be at least 1"
  | .responseLimitRange => "response_max_size must be positive"
  | .queueSizeRange => "subscription_queue_size must be at least 1"
  | .unknownCluster name =>
    s!"unknown cluster {Quoted.quote name}, expected one of mainnet-beta, testnet, devnet, localnet"
  | .setting text => s!"invalid SOLKIT_* setting: {text}"
  | .notLookupTable table => s!"{table.base58} is not an address lookup table account"
  | .wireEncoding value => s!"unsupported transaction encoding: {value.display}"

/-- The names that a broken precondition says are missing. -/
def InvalidFault.missing : InvalidFault → List String
  | .missingFields _ names => names
  | .missingSigners keys => keys.map Key.base58
  | _ => []

/-- Which limit is exceeded. -/
inductive LimitFault
  | items (name : String) (count limit : Nat)
  | batch (count : Nat) (limit : Int)
  | response (limit : Int)
  deriving DecidableEq, Repr

/-- The wording of an exceeded limit. -/
def LimitFault.message : LimitFault → String
  | .items name count limit => s!"{name}: {count} items exceeds limit of {limit}"
  | .batch count limit => s!"batch of {count} requests exceeds limit of {limit}"
  | .response limit => s!"response exceeds {limit} bytes"

/-- Why a key, a signature or an address does not come about. -/
inductive CryptoFault
  | base58 (label : String) (text : String)
  | base58Width (kind : KeyKind) (text : String) (length : Nat)
  | base64 (kind : KeyKind) (text : String)
  | base64Width (kind : KeyKind) (length : Nat)
  | seedWidth (length : Nat)
  | secretWidth (length : Nat)
  | secretMismatch
  | keypairText
  | keypairRange
  | noBump
  | unverified (key : PublicKey)

/-- The wording of a crypto fault. -/
def CryptoFault.message : CryptoFault → String
  | .base58 label text => s!"invalid base58 {label}: {Quoted.quote text}"
  | .base58Width kind text length =>
    s!"invalid {kind.label} {Quoted.quote text}: decodes to {length} bytes, want {kind.width}"
  | .base64 kind text => s!"invalid base64 {kind.label}: {Quoted.quote text}"
  | .base64Width kind length =>
    s!"invalid {kind.label}: decodes to {length} bytes, want {kind.width}"
  | .seedWidth length => s!"seed must be 32 bytes, got {length}"
  | .secretWidth length => s!"secret key must be 64 bytes, got {length}"
  | .secretMismatch => "secret key public half does not match its seed"
  | .keypairText => "invalid keypair json"
  | .keypairRange => "keypair json values must be bytes (0-255)"
  | .noBump => "unable to find a viable program address bump seed"
  | .unverified key => s!"signature does not verify for {key.base58}"

/-- A value of the wrong type or range, without a wording of its own. -/
inductive MisuseFault
  /-- A value of the right type that cannot be used. -/
  | value
  /-- A value of another type than the one asked for. -/
  | type
  /-- A position outside a list. -/
  | index
  /-- A name that is not there. -/
  | key
  /-- A text that cannot be read at all. -/
  | text (flaw : Json.Flaw)
  /-- A fixed-width read before the beginning of the data. -/
  | window
  /-- A number too large for a machine word. -/
  | overflow
  /-- A value that lacks a member. -/
  | member
  deriving DecidableEq, Repr

/-- An error that a server reports. -/
structure ServerFault where
  /-- The number of the error. -/
  code : Int
  /-- The words of the server. -/
  message : String
  /-- What else the server says. -/
  data : Json.Value

/-- Anything that can go wrong. -/
inductive Fault
  | codec (cause : CodecFault)
  | invalid (cause : InvalidFault)
  | limit (cause : LimitFault)
  | crypto (cause : CryptoFault)
  /-- A derived address is a point of the curve. -/
  | onCurve
  /-- The connection failed; an HTTP failure carries its status. -/
  | transport (text : String) (status : Option Int)
  /-- The server answered with an error. -/
  | server (cause : ServerFault)
  /-- The server answered a batch with one error. -/
  | batchRejected (cause : ServerFault)
  /-- The caller gave up before a reply came. -/
  | cancelled
  /-- The deadline passed before a reply came. -/
  | timedOut (text : String)
  /-- A subscriber fell behind. -/
  | lagged (subscription : Int) (capacity : Int)
  /-- The waiting task itself was ended. -/
  | aborted
  | misuse (cause : MisuseFault)

namespace Fault

/-- The wording of a fault; a misuse and an ended task have none. -/
def message : Fault → String
  | .codec cause => cause.message
  | .invalid cause => cause.message
  | .limit cause => cause.message
  | .crypto cause => cause.message
  | .onCurve => "derived address is on the ed25519 curve"
  | .transport text _ => text
  | .server cause => s!"rpc error {cause.code}: {cause.message}"
  | .batchRejected cause => s!"rpc error {cause.code}: {cause.message}"
  | .cancelled => "request cancelled"
  | .timedOut text => text
  | .lagged subscription capacity =>
    s!"subscription {subscription} lagged: more than {capacity} pending events"
  | .aborted => ""
  | .misuse (.text flaw) => flaw.message
  | .misuse _ => ""

end Fault

end LedgerClient
