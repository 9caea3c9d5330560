import LedgerClient.Channel.Operation
import LedgerClient.Keyed

/-!
# The duplex channel

One channel carries all calls, batches and subscriptions of a client. Every request has an id of
its own and is pending until a frame with that id is read, until the operation that made it ends,
or until the channel closes. Notifications go to the stream registered for their subscription.

An operation begins when its requests are handed over, and ends when its caller goes on. Handing
over may fail at once, or later, while the operation runs. A subscription whose stream no one
holds any more is given up: the client ends it at the service by a request of its own.

## Main definitions

* `Channel`: the state
* `Channel.Turn`: who has a turn when something has changed
* `Channel.begin`, `Channel.beginBatch`, `Channel.finish`: operations
* `Channel.unsubscribe`, `Channel.discard`, `Channel.release`: the ends of a subscription
-/

namespace LedgerClient

open Rpc (BatchCall Feed Frame Param)

namespace Channel

/-- Who has a turn next. -/
inductive Turn
  /-- The caller of an operation, of which a request was settled. -/
  | caller (op : Nat) (isBatch : Bool)
  /-- A consumer that was called. -/
  | consumer (index task : Nat)
  /-- A task that waits for a stream to close. -/
  | watcher (task : Nat)
  /-- The reader, for which there may be room. -/
  | reader
  /-- A new task that ends a subscription at the service. -/
  | release

/-- What the reader does. -/
inductive Reader
  /-- It has not begun. -/
  | fresh
  /-- It waits for a message. -/
  | idle
  /-- It waits for room in the stream of a subscription; these frames come after. -/
  | stalled (id : Int) (index : Nat) (rest : List Frame)
  | ended
  /-- It was stopped before it had begun, and has ended nothing. -/
  | dropped

/-- The reader has begun. -/
def Reader.hasBegun : Reader → Bool
  | .fresh | .dropped => false
  | _ => true

end Channel

/-- The state of the channel. -/
structure Channel where
  /-- The configuration. -/
  config : Config
  /-- The id of the next request. -/
  nextId : Nat := 1
  /-- The requests that wait for an answer. -/
  pending : List (Nat × Channel.Expected) := []
  /-- The ids of each batch that runs, oldest first. -/
  batches : List (List Nat) := []
  /-- The index of the stream of each subscription. -/
  registry : List (Int × Nat) := []
  /-- Every stream there was. -/
  streams : List Channel.Stream := []
  /-- The operations that run. -/
  running : List Channel.Operation := []
  /-- Subscriptions to be ended at the service: the method and the number. -/
  orphans : List (String × Int) := []
  /-- Why the channel is closed, if it is. -/
  closed : Option String := none
  /-- What the reader does. -/
  reader : Channel.Reader := .fresh
  /-- What was sent, in order. -/
  sent : List Channel.Outgoing := []
  /-- Who has a turn next, in order. -/
  turns : List Channel.Turn := []

namespace Channel

/-! ## Streams -/

/-- Who has a turn when a stream changes. -/
def stirred (index : Nat) (before after : Stream) : List Turn :=
  (if before.isClosed || !after.isClosed then [] else after.watchers.map .watcher) ++
  (after.called.filter fun task => !before.called.contains task).map (.consumer index) ++
  (if before.held.isSome && !before.space && after.space then [.reader] else [])

/-- Changes a stream. -/
def setStream (c : Channel) (index : Nat) (stream : Stream) : Channel :=
  match c.streams[index]? with
  | none => c
  | some before =>
    { c with
      streams := c.streams.set index stream
      turns := c.turns ++ stirred index before stream }

/-- Changes a stream by a function. -/
def modifyStream (c : Channel) (index : Nat) (f : Stream → Stream) : Channel :=
  match c.streams[index]? with
  | none => c
  | some stream => c.setStream index (f stream)

/-- The index of the stream that is registered for a subscription. -/
def registered? (c : Channel) (id : Int) : Option Nat :=
  c.registry.lookup id

/-- Takes a subscription from the registry. -/
def deregister (c : Channel) (id : Int) : Channel :=
  { c with registry := Keyed.without Prod.fst id c.registry }

/-- The subscription of a stream is to be ended at the service. -/
def orphan (c : Channel) (index : Nat) : Channel :=
  match c.streams[index]? with
  | none => c
  | some stream =>
    { c with orphans := c.orphans ++ [(stream.ending, stream.id)], turns := c.turns ++ [.release] }

/-! ## Requests -/

/-- The request is pending. -/
def isPending (c : Channel) (id : Nat) : Bool :=
  c.pending.any (·.1 == id)

/-- A request that is pending no more. -/
def forget (c : Channel) (id : Nat) : Channel :=
  { c with pending := Keyed.without Prod.fst id c.pending }

/-- Notes what came of a request with the operation that made it. -/
def settle (c : Channel) (id : Nat) (settlement : Settlement) : Channel :=
  { c with
    running := c.running.map fun op => if op.ids.contains id then op.settle id settlement else op
    turns := c.turns ++ (c.running.filter (·.ids.contains id)).map fun op =>
      .caller op.id op.isBatch }

/-! ## Operations -/

/-- The channel is open and the caller's signal not set. -/
def demandOpen (c : Channel) (signalled : Bool) : Except Fault Unit :=
  match c.closed with
  | some reason => throw (.transport s!"connection is closed: {reason}" none)
  | none => if signalled then throw .cancelled else return

/-- Hands something to the other side, which may fail. -/
def hand (outgoing : Outgoing) (broken : Option String) : Except Fault Unit := do
  let _ ← outgoing.render
  match broken with
  | some reason => throw (.transport reason none)
  | none => return

/-- Begins an operation of one request; its id is used up even if it cannot be sent. -/
def begin (c : Channel) (expected : Expected) (method : String) (params : List Param)
    (signalled : Bool) (broken : Option String) : Channel × Except Fault Nat :=
  match c.demandOpen signalled with
  | .error fault => (c, .error fault)
  | .ok () =>
    let id := c.nextId
    let c := { c with nextId := id + 1 }
    let outgoing := Outgoing.single ⟨method, params, id⟩
    match hand outgoing broken with
    | .error fault => (c, .error fault)
    | .ok () =>
      ({ c with
        pending := c.pending ++ [(id, expected)]
        running := c.running ++ [{ id, ids := [id], isBatch := false }]
        sent := c.sent ++ [outgoing] }, .ok id)

/-- Begins a batch. -/
def beginBatch (c : Channel) (calls : List BatchCall) (signalled : Bool)
    (broken : Option String) : Channel × Except Fault Nat :=
  match Rpc.demandBatch calls c.config.batchLimit, c.demandOpen signalled with
  | .error fault, _ | .ok (), .error fault => (c, .error fault)
  | .ok (), .ok () =>
    let id := c.nextId
    let ids := (List.range calls.length).map (id + ·)
    let outgoing := Outgoing.batch (Rpc.requests id calls)
    let c := { c with nextId := id + calls.length }
    match hand outgoing broken with
    | .error fault => (c, .error fault)
    | .ok () =>
      ({ c with
        pending := c.pending ++ ids.map fun id => (id, .entry)
        batches := c.batches ++ [ids]
        running := c.running ++ [{ id, ids, isBatch := true }]
        sent := c.sent ++ [outgoing] }, .ok id)

/-- An operation that runs. -/
def operation? (c : Channel) (op : Nat) : Option Operation :=
  c.running.find? (·.id == op)

/-- Puts the settlements of an operation together. -/
def gather (c : Channel) (op : Nat) : Channel :=
  { c with running := c.running.map fun o => if o.id == op then o.gather else o }

/-- Gives up a subscription whose stream no one has got. -/
def discard (c : Channel) (index : Nat) : Channel :=
  match c.streams[index]? with
  | none => c
  | some stream =>
    let after := (c.deregister stream.id).modifyStream index (Stream.close none)
    match c.registered? stream.id, c.closed with
    | some other, none => after.orphan other
    | _, _ => after

/-- Takes an operation from those that run; nothing of it stays pending. -/
def retire (c : Channel) (op : Operation) : Channel :=
  { c with
    pending := c.pending.filter fun entry => !op.ids.contains entry.1
    batches := if op.isBatch then c.batches.erase op.ids else c.batches
    running := c.running.filter fun other => other.id != op.id }

/-- Ends an operation, unless its caller has to wait; a stream that the caller does not get is
discarded. -/
def finish (c : Channel) (op : Nat) (wake : Wake) : Channel × Option Result :=
  match c.operation? op with
  | none => (c, none)
  | some op => match op.verdict? wake with
    | none => (c, none)
    | some result =>
      let c := match result, op.stream? with
        | .failed _, some index => c.discard index
        | _, _ => c
      (c.retire op, some result)

/-- Ends a stream for its owner; the service is told if the subscription is still registered. -/
def unsubscribe (c : Channel) (index : Nat) (broken : Option String) :
    Channel × Option (Except Fault Nat) :=
  match c.streams[index]? with
  | none => (c, none)
  | some stream =>
    if stream.isClosed then (c, none)
    else
      let after := (c.deregister stream.id).modifyStream index Stream.silence
      match (c.registered? stream.id).bind (after.streams[·]?), c.closed with
      | some other, none =>
        let (after, begun) :=
          after.begin .result other.ending [.plain (.int stream.id)] false broken
        (after, some begun)
      | _, _ => (after, none)

/-- Begins to end a subscription at the service that the client has given up. -/
def release (c : Channel) (broken : Option String) : Channel × Option (Except Fault Nat) :=
  match c.orphans with
  | [] => (c, none)
  | (method, id) :: orphans =>
    let (c, begun) := { c with orphans }.begin .result method [.plain (.int id)] false broken
    (c, some begun)

/-- The client closes the channel: nothing more is begun. -/
def shut (c : Channel) : Channel :=
  { c with closed := some (c.closed.getD "client closed") }

end Channel

end LedgerClient
