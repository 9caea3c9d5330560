import LedgerClient.Blob
import LedgerClient.Key.Text

/-!
# Filters

Some requests name the accounts or transactions they are about by a filter: bytes at an offset, a
size, a mint, a program, or keys that a transaction mentions.

## Main definitions

* `Rpc.Filter`: the filters
* `Rpc.Filter.toJson`, `Rpc.Filter.ofJson`: a filter on the wire and back
-/

namespace LedgerClient.Rpc

open Json (Value)

/-- What a request is about. -/
inductive Filter
  /-- Accounts that hold these bytes, given as text, at an offset. -/
  | bytesAt (offset : Value) (text : String) (encoding : Option Encoding)
  /-- Accounts of a size. -/
  | dataSize (size : Value)
  /-- Token accounts of a mint. -/
  | mint (key : PublicKey)
  /-- Accounts of a program. -/
  | program (key : PublicKey)
  /-- Transactions that mention one of these keys. -/
  | mentions (keys : List PublicKey)
  /-- Blocks that mention a key as account or program. -/
  | mentionsAccountOrProgram (key : PublicKey)

namespace Filter

/-- A key on the wire. -/
def keyJson {kind : KeyKind} (key : Key kind) : Value := .str key.base58

/-- A filter on the wire. -/
def toJson : Filter → Value
  | .bytesAt offset text encoding =>
    .obj [("memcmp", .obj ([("offset", offset), ("bytes", .str text)] ++
      match encoding with
      | some e => [("encoding", .str e.name)]
      | none => []))]
  | .dataSize size => .obj [("dataSize", size)]
  | .mint key => .obj [("mint", keyJson key)]
  | .program key => .obj [("programId", keyJson key)]
  | .mentions keys => .obj [("mentions", .arr (keys.map keyJson))]
  | .mentionsAccountOrProgram key => .obj [("mentionsAccountOrProgram", keyJson key)]

/-- The key that a text names. -/
def readKey (kind : KeyKind) : Value → Except Fault (Key kind)
  | .str text => Key.ofBase58 kind text
  | _ => throw (.misuse .type)

/-- The keys that the texts of a list name. -/
def readKeys (kind : KeyKind) : Value → Except Fault (List (Key kind))
  | .arr items => items.mapM (readKey kind)
  | _ => throw (.misuse .type)

/-- The encoding that a text names. -/
def readEncoding : Value → Except Fault Encoding
  | .str name => match Encoding.ofName? name with
    | some encoding => return encoding
    | none => throw (.misuse .value)
  | _ => throw (.misuse .value)

/-- A member that must be there. -/
def readMember (value : Value) (name : String) : Except Fault Value :=
  match value.member? name with
  | some v => return v
  | none => throw (.misuse .key)

/-- The filter of a JSON object. -/
def ofJson (value : Value) : Except Fault Filter := do
  match value with
  | .obj [("memcmp", body)] =>
    let offset ← readMember body "offset"
    let text ← match ← readMember body "bytes" with
      | .str text => pure text
      | other => pure other.display
    match body.member? "encoding" with
    | none | some .null => return .bytesAt offset text none
    | some name => return .bytesAt offset text (some (← readEncoding name))
  | .obj [("dataSize", size)] => return .dataSize size
  | .obj [("mint", key)] => return .mint (← readKey .publicKey key)
  | .obj [("programId", key)] => return .program (← readKey .publicKey key)
  | .obj [("mentions", keys)] => return .mentions (← readKeys .publicKey keys)
  | .obj [("mentionsAccountOrProgram", key)] =>
    return .mentionsAccountOrProgram (← readKey .publicKey key)
  | _ => throw (.misuse .value)

end Filter

end LedgerClient.Rpc
