import LedgerClient.Channel.Stream
import LedgerClient.Client.Deadline
import LedgerClient.Rpc.Batch

/-!
# Operations

An operation is a call, a subscription or a batch that a caller waits for. It has made one or
more requests, and each of them is settled at most once: by an answer or by a fault. A call or a
subscription is answered when its request is settled; a batch is answered when all its requests
are, or when one has failed.

The caller goes on when there is an answer, when it gives up, or when sending has failed that was
still under way. An answer counts even if the caller gives up at the same time, unless the caller
itself is ended or its requests were not sent.

## Main definitions

* `Channel.Operation`: an operation that runs
* `Channel.Expected`, `Channel.Settlement`: what a request waits for, and what has come of it
* `Channel.Operation.result`: what an answered operation gives
* `Channel.Operation.verdict?`: what its caller is told
-/

namespace LedgerClient.Channel

open Rpc (Entry Feed Request)

/-- How a subscription is to be kept. -/
structure Options where
  /-- The method that ends it, if another than usual. -/
  ending : Option String := none
  /-- The number of notifications that may wait, if another than usual. -/
  capacity : Option Int := none
  /-- What happens beyond it, if other than usual. -/
  overflow : Option Overflow := none

/-- What the answer to a request is for. -/
inductive Expected
  /-- The result of a call. -/
  | result
  /-- An entry of a batch. -/
  | entry
  /-- The number of a subscription. -/
  | stream (feed : Feed) (options : Options)

/-- What has come of a request. -/
inductive Settlement
  | text (text : Bytes)
  | entry (entry : Entry)
  /-- A stream was registered, under this index. -/
  | stream (index : Nat)
  | fault (fault : Fault)

/-- What is handed to the other side. -/
inductive Outgoing
  | single (request : Request)
  | batch (requests : List Request)

/-- The text that is sent. -/
def Outgoing.render : Outgoing → Except Fault String
  | .single request => request.render
  | .batch requests => Request.renderAll requests

/-- What comes of an operation. -/
inductive Result
  | text (text : Bytes)
  | entries (entries : List Entry)
  | stream (index : Nat)
  | failed (fault : Fault)

/-- Why the caller of an operation goes on. -/
inductive Wake
  /-- There is an answer. -/
  | answer
  /-- The caller's signal was set. -/
  | signal
  /-- The deadline has passed. -/
  | deadline (timeout : Float)
  /-- The caller itself is ended. -/
  | abort
  /-- What was handed over could not be sent after all. -/
  | unsent (reason : String)

/-- An operation that runs. -/
structure Operation where
  /-- The id of its first request, by which it is known. -/
  id : Nat
  /-- The ids of its requests. -/
  ids : List Nat
  /-- It is a batch. -/
  isBatch : Bool
  /-- What has come of its requests so far, in order. -/
  settled : List (Nat × Settlement) := []
  /-- The caller can be told what came of it. -/
  answered : Bool := false

namespace Operation

/-- The first fault among settlements. -/
def firstFault : List (Nat × Settlement) → Option Fault
  | [] => none
  | (_, .fault fault) :: _ => some fault
  | _ :: rest => firstFault rest

/-- Notes what came of a request. A batch is answered later, when its settlements are put
together. -/
def settle (op : Operation) (id : Nat) (settlement : Settlement) : Operation :=
  { op with
    settled := op.settled ++ [(id, settlement)]
    answered := op.answered || !op.isBatch }

/-- A request has failed, or all are settled. -/
def isComplete (op : Operation) : Bool :=
  (firstFault op.settled).isSome || op.ids.all fun id => op.settled.any (·.1 == id)

/-- Puts the settlements together: the operation is answered if it is complete. -/
def gather (op : Operation) : Operation :=
  { op with answered := op.answered || op.isComplete }

/-- The entries of a batch, in the order of its requests. -/
def entries (op : Operation) : List Entry :=
  op.ids.filterMap fun id => match op.settled.lookup id with
    | some (.entry entry) => some entry
    | _ => none

/-- What came of an operation that is answered. -/
def result (op : Operation) : Result :=
  match firstFault op.settled with
  | some fault => .failed fault
  | none =>
    if op.isBatch then .entries op.entries
    else match op.settled with
      | (_, .text text) :: _ => .text text
      | (_, .stream index) :: _ => .stream index
      | _ => .failed (.codec .unexpectedShape)

/-- The stream that was registered for an operation. -/
def stream? (op : Operation) : Option Nat :=
  op.settled.findSome? fun
    | (_, .stream index) => some index
    | _ => none

/-- What the caller is told when it goes on; without an answer it goes on only to give up. -/
def verdict? (op : Operation) : Wake → Option Result
  | .abort => some (.failed .aborted)
  | .unsent reason => some (.failed (.transport reason none))
  | wake =>
    if op.answered then some op.result
    else match wake with
      | .signal => some (.failed .cancelled)
      | .deadline timeout => some (.failed (Deadline.fault timeout))
      | _ => none

end Operation

end LedgerClient.Channel
