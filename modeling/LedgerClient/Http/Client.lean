import LedgerClient.Client.Config
import LedgerClient.Client.Deadline
import LedgerClient.Http.Response
import LedgerClient.Keyed
import LedgerClient.Rpc.Batch
import LedgerClient.Rpc.Call

/-!
# The HTTP client

The client sends each request or batch by itself and waits for its response, until the caller's
signal cancels it or its deadline passes. Requests are numbered in the order in which they are
made; a number is used up even if the request is never sent.

## Main definitions

* `Http.Delivery`, `Http.Circumstances`: what becomes of a request that is sent
* `Http.Exchange`: what was sent and what came of it
* `Http.Client.ask`, `Http.Client.exchange`: a request and the requests of a batch, with the results
  as they come
* `Http.Client.call`, `Http.Client.batch`: a call and a batch, with the results read
* `Http.Client.attempt`: a call that may have failed to be made
-/

namespace LedgerClient.Http

open Rpc (Call BatchCall BatchReply Entry Param Request)

/-- What the other side does with a request. -/
inductive Delivery
  | response (response : Response)
  /-- The connection fails; it may report that its own time has run out. -/
  | failure (timedOut : Bool) (text : String)
  /-- No response ever comes. -/
  | silence

/-- When the caller's signal cancels the request. -/
inductive Cancellation
  | never
  | before
  /-- While the client waits. -/
  | waiting
  deriving DecidableEq, Repr

/-- What becomes of a request. -/
structure Circumstances where
  /-- What the other side does. -/
  delivery : Delivery
  /-- The seconds to wait, in place of those of the client. -/
  timeout : Option Float := none
  /-- When the caller cancels. -/
  cancellation : Cancellation := .never
  /-- The seconds that pass while the client waits. -/
  elapsed : Float := 0

/-- What was sent and what came of it; nothing if the client still waits. -/
structure Exchange (α : Type) where
  /-- The text that was sent. -/
  sent : Option String
  /-- What came of it. -/
  outcome : Option (Except Fault α)

/-- An exchange with its outcome read further. -/
def Exchange.bind {α β : Type} (exchange : Exchange α) (f : α → Except Fault β) : Exchange β :=
  ⟨exchange.sent, exchange.outcome.map (· >>= f)⟩

/-- The deadline passes within a time. -/
def expires (timeout : Option Float) (elapsed : Float) : Option Fault :=
  match timeout with
  | some t => if Deadline.hasPassed t elapsed then some (Deadline.fault t) else none
  | none => none

/-- Waiting in vain: the deadline may have passed at once; then the signal counts before the
deadline does. -/
def wait (timeout : Option Float) (circumstances : Circumstances) : Option Fault :=
  match expires timeout 0 with
  | some fault => some fault
  | none =>
    if circumstances.cancellation = .waiting then some .cancelled
    else expires timeout circumstances.elapsed

/-- A client with its configuration and the number of its next request. -/
structure Client where
  /-- The configuration. -/
  config : Config
  /-- The number of the next request. -/
  nextId : Nat := 1

namespace Client

/-- The headers that every request carries unless the configuration sets others. -/
def jsonHeaders : List (String × String) :=
  [("Content-Type", "application/json"), ("Accept", "application/json")]

/-- The headers of every request. -/
def headers (client : Client) : List (String × String) :=
  Keyed.putAll Prod.fst client.config.headers jsonHeaders

/-- A header by its name in small letters; the last one of a name counts. -/
def header? (client : Client) (name : String) : Option String :=
  (client.headers.reverse.find? fun h => String.ofList (h.1.toList.map Char.toLower) == name).map
    (·.2)

/-- Sends a text and waits for the body of the response. -/
def post (client : Client) (text : String) (circumstances : Circumstances) : Exchange Bytes :=
  if circumstances.cancellation = .before then ⟨none, some (.error .cancelled)⟩
  else match circumstances.delivery with
    | .response response => ⟨some text, some (response.body (some client.config.responseLimit))⟩
    | .failure true reason => ⟨some text, some (.error (.timedOut s!"http timeout: {reason}"))⟩
    | .failure false reason =>
      ⟨some text, some (.error (.transport s!"http request failed: {reason}" none))⟩
    | .silence =>
      ⟨some text, (wait (circumstances.timeout.or client.config.timeout) circumstances).map .error⟩

/-- Sends a request and takes its result as it comes. -/
def ask (client : Client) (method : String) (params : List Param) (circumstances : Circumstances) :
    Exchange Bytes :=
  match Request.render ⟨method, params, client.nextId⟩ with
  | .error fault => ⟨none, some (.error fault)⟩
  | .ok text => (client.post text circumstances).bind fun body => do
    (← Rpc.Payload.read body client.config.host).answer client.nextId

/-- Makes a call. -/
def call {α : Type} (client : Client) (call : Call α) (circumstances : Circumstances) :
    Client × Exchange α :=
  ({ client with nextId := client.nextId + 1 },
    (client.ask call.method call.params circumstances).bind fun text =>
      call.read text client.config.host)

/-- Makes the call that there is, if there is one; nothing is sent for a call that has failed
before. -/
def attempt {α : Type} (client : Client) (made : Except Fault (Call α))
    (circumstances : Circumstances) : Client × Exchange α :=
  match made with
  | .error fault => (client, ⟨none, some (.error fault)⟩)
  | .ok call => client.call call circumstances

/-- Sends the requests of a batch and takes their results as they come, in the order of the
requests. -/
def exchange (client : Client) (calls : List BatchCall) (circumstances : Circumstances) :
    Exchange (List Entry) :=
  match Rpc.demandBatch calls client.config.batchLimit with
  | .error fault => ⟨none, some (.error fault)⟩
  | .ok () => match Request.renderAll (Rpc.requests client.nextId calls) with
    | .error fault => ⟨none, some (.error fault)⟩
    | .ok text => (client.post text circumstances).bind fun body => do
      (← Rpc.Payload.read body client.config.host).answers
        ((List.range calls.length).map (client.nextId + ·))

/-- Makes a batch of calls. One that is refused for its size uses up no number. -/
def batch (client : Client) (calls : List BatchCall) (circumstances : Circumstances) :
    Client × Exchange (List BatchReply) :=
  let used := match Rpc.demandBatch calls client.config.batchLimit with
    | .error _ => 0
    | .ok () => calls.length
  ({ client with nextId := client.nextId + used },
    (client.exchange calls circumstances).bind (Rpc.readBatch client.config.host calls))

end Client

end LedgerClient.Http
