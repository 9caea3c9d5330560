import LedgerClient.Blob
import LedgerClient.Message.Version
import LedgerClient.Transaction

/-!
# Replies

What a server sends back, once it is decoded: plain JSON values, keys and blobs, lists and maps
of replies, and records of named members. A record holds every member its shape lists, in that
order; one that was not sent holds its default.

## Main definitions

* `Rpc.Reply`: the replies
* `Rpc.Reply.member`: a member of a record
* `Rpc.Reply.transaction`, `Rpc.Reply.messageVersion`: the transaction that a record carries and
  the version the server states for it
* `Rpc.Reply.rawAmount`: the amount of a token record as a number
-/

namespace LedgerClient.Rpc

/-- A decoded reply. -/
inductive Reply
  /-- A JSON value. -/
  | plain (value : Json.Value)
  | key (kind : KeyKind) (value : Key kind)
  | blob (value : Blob)
  | list (items : List Reply)
  | map (entries : List (String × Reply))
  /-- Named members, in the order of the shape. -/
  | record (label : String) (members : List (String × Reply))
  deriving Inhabited

namespace Reply

/-- The absent reply. -/
def null : Reply := .plain .null

/-- A member of a record; nothing if the record has no such member. -/
def member (name : String) : Reply → Reply
  | .record _ members => ((members.find? (·.1 == name)).map (·.2)).getD null
  | _ => null

/-- The JSON value of a plain reply. -/
def value : Reply → Json.Value
  | .plain v => v
  | _ => .null

/-- The transaction that a record carries, if the server sent its bytes. -/
def transaction (reply : Reply) (host : Host := .plain) : Except Fault Transaction :=
  match (reply.member "transaction").value with
  | .arr items => do Transaction.ofBytes (← Blob.ofJson (.arr items) host).data
  | _ => throw (.codec .transactionText)

/-- The message version that the server states for the transaction of a record. -/
def messageVersion (reply : Reply) : Except Fault Version :=
  Version.ofJson (reply.member "version").value

/-- The amount of a token record, which the server writes as text. -/
def rawAmount (reply : Reply) : Except Fault Int :=
  match (reply.member "amount").value with
  | .str text => (Numeral.integer? text).mapError fun _ => .misuse .value
  | _ => throw (.misuse .type)

end Reply

end LedgerClient.Rpc
