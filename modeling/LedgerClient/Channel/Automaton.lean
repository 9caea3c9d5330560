import LedgerClient.Channel.Routing

/-!
# The channel as an automaton

The events of a channel are what callers begin and give up, what the other side sends, and the
turns of those who wait. An event that is not due changes nothing. An event may wake others,
whose turns come later, in any order.

## Main definitions

* `Channel.Event`, `Channel.Output`: what happens, and what it gives
* `Channel.step`: the step of an event
* `Channel.attempt`: a call that may have failed to be made
* `Channel.after`: the state after a run of events
-/

namespace LedgerClient.Channel

open Rpc (BatchCall Call Feed Param)

/-- An event of the channel. Whether something can be sent is the choice of the other side. -/
inductive Event
  | call (method : String) (params : List Param) (signalled : Bool) (broken : Option String)
  | subscribe (feed : Feed) (options : Options) (signalled : Bool) (broken : Option String)
  | batch (calls : List BatchCall) (signalled : Bool) (broken : Option String)
  /-- A subscription that was given up is ended at the service. -/
  | release (broken : Option String)
  /-- The owner of a stream ends it. -/
  | unsubscribe (index : Nat) (broken : Option String)
  /-- The settlements of a batch are put together. -/
  | gather (op : Nat)
  /-- The caller of an operation goes on. -/
  | finish (op : Nat) (wake : Wake)
  /-- The reader begins. -/
  | start
  /-- A message is read. -/
  | accept (text : Bytes)
  /-- The reader goes on where it stalled. -/
  | proceed
  /-- The connection ends, or the reader is stopped. -/
  | fail (reason : String)
  /-- The reader fails in a way that no one expects. -/
  | crash (reason : String)
  /-- The client closes the channel. -/
  | shut
  /-- A consumer comes. -/
  | receive (index task : Nat)
  /-- A consumer that was called looks again. -/
  | resume (index task : Nat)
  /-- A consumer gives up. -/
  | leave (index task : Nat)
  /-- A task waits for a stream to close. -/
  | watch (index task : Nat)

/-- What an event gives to the one that brings it about. -/
inductive Output
  | nothing
  /-- An operation is begun, or refused. -/
  | begun (begun : Except Fault Nat)
  /-- An operation has ended. -/
  | ended (result : Result)
  | received (received : Received)

/-- What a consumer does to a stream. -/
def consume (c : Channel) (index : Nat) (f : Stream → Stream × Received) : Channel × Output :=
  match c.streams[index]? with
  | none => (c, .nothing)
  | some stream =>
    let (stream, received) := f stream
    (c.setStream index stream, .received received)

/-- The step of an event. -/
def step (c : Channel) : Event → Channel × Output
  | .call method params signalled broken =>
    let (c, begun) := c.begin .result method params signalled broken
    (c, .begun begun)
  | .subscribe feed options signalled broken =>
    let (c, begun) := c.begin (.stream feed options) feed.method feed.params signalled broken
    (c, .begun begun)
  | .batch calls signalled broken =>
    let (c, begun) := c.beginBatch calls signalled broken
    (c, .begun begun)
  | .release broken =>
    let (c, begun) := c.release broken
    (c, begun.elim .nothing .begun)
  | .unsubscribe index broken =>
    let (c, begun) := c.unsubscribe index broken
    (c, begun.elim .nothing .begun)
  | .gather op => (c.gather op, .nothing)
  | .finish op wake =>
    let (c, result) := c.finish op wake
    (c, result.elim .nothing .ended)
  | .start => (c.start, .nothing)
  | .accept text => match c.reader with
    | .idle => (c.accept text, .nothing)
    | _ => (c, .nothing)
  | .proceed => (c.proceed, .nothing)
  | .fail reason => (c.halt reason, .nothing)
  | .crash reason => (if c.reader.hasBegun then c.crash reason else c, .nothing)
  | .shut => (c.shut, .nothing)
  | .receive index task => c.consume index (Stream.receive task)
  | .resume index task => c.consume index (Stream.resume task)
  | .leave index task => (c.modifyStream index (Stream.leave task), .nothing)
  | .watch index task => (c.modifyStream index (Stream.watch task), .nothing)

/-- Begins the call that there is, if there is one; nothing happens for a call that has failed
before. -/
def attempt {α : Type} (c : Channel) (made : Except Fault (Call α)) (signalled : Bool)
    (broken : Option String) : Channel × Output :=
  match made with
  | .error fault => (c, .begun (.error fault))
  | .ok call => c.step (.call call.method call.params signalled broken)

/-- The state after a run of events. -/
def after (events : List Event) (c : Channel) : Channel :=
  events.foldl (fun c event => (c.step event).1) c

end LedgerClient.Channel
