import LedgerClient.Fault
import LedgerClient.Text.Utf8

/-!
# HTTP responses

A response has a status and a body, which arrives in chunks. A body beyond the limit is refused
as soon as the chunks exceed it. A status that reports an error is a fault unless the body looks
like JSON, which then carries an error of the service itself.

## Main definitions

* `Http.Response`: a response
* `Http.collect`: the body in chunks, up to a limit
* `Http.Response.body`: the body that a client accepts
-/

namespace LedgerClient.Http

/-- A response. -/
structure Response where
  /-- The status. -/
  status : Int
  /-- The chunks of the body, in order. -/
  chunks : List Bytes

/-- The chunks put together after what has come so far, if they do not exceed the limit. -/
def collectOnto (limit : Option Nat) : (body : Bytes) → List Bytes → Except Fault Bytes
  | body, [] => .ok body
  | body, chunk :: chunks =>
    let body := body ++ chunk
    match limit with
    | some limit =>
      if limit < body.length then .error (.limit (.response limit))
      else collectOnto (some limit) body chunks
    | none => collectOnto none body chunks

/-- The chunks put together, if they do not exceed the limit. A limit is a number of bytes; one
below zero, which nothing but the configuration of a client keeps out, is exceeded by any chunk. -/
def collect (limit : Option Nat) (chunks : List Bytes) : Except Fault Bytes :=
  collectOnto limit [] chunks

/-- The byte is a blank. -/
def isBlankByte (b : UInt8) : Bool :=
  b == 0x20 || (9 ≤ b && b ≤ 13)

/-- The body starts, after blanks, like an object or a list. -/
def looksLikeJson (body : Bytes) : Bool :=
  match body.dropWhile isBlankByte with
  | b :: _ => b == 0x7B || b == 0x5B
  | [] => false

/-- The greatest number of bytes of a body that a fault shows. -/
def shownBytes : Nat := 200

namespace Response

/-- The status reports an error. -/
def isError (response : Response) : Bool :=
  400 ≤ response.status && response.status ≤ 599

/-- The body that a client accepts. -/
def body (limit : Option Nat) (response : Response) : Except Fault Bytes := do
  let body ← collect limit response.chunks
  if response.isError && !looksLikeJson body then
    let shown := Utf8.decodeLossy (body.take shownBytes)
    throw (.transport s!"http {response.status}: {shown}" (some response.status))
  else return body

end Response

end LedgerClient.Http
