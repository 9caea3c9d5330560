import LedgerClient.Client.Config
import LedgerClient.Rpc.Feed

/-!
# Streams

A stream is the client's side of a subscription: the notifications that have come and that no
consumer has taken yet. It is bounded; what happens beyond the bound is its overflow policy. A
stream closes once, with or without a fault, and then ends with a marker, which stays however
many consumers reach it.

Consumers that find nothing wait in line. An item that is put calls the first of them, and a
consumer that is called looks again when its turn comes.

## Main definitions

* `Channel.Stream`: the state of a subscription
* `Channel.Stream.offer`, `Channel.Stream.proceed`: a notification comes, and one that was held
  back is put
* `Channel.Stream.receive`, `Channel.Stream.resume`, `Channel.Stream.leave`: a consumer comes,
  looks again, or gives up
* `Channel.Stream.close`, `Channel.Stream.silence`: the stream ends, or is ended by its owner
-/

namespace LedgerClient.Channel

open Rpc (Feed Reply)

/-- An item of a queue. -/
inductive Item
  /-- A notification. -/
  | note (reply : Reply)
  /-- The end of the stream. -/
  | ending

/-- What a consumer gets. -/
inductive Received
  | item (reply : Reply)
  /-- The stream has ended. -/
  | ended
  /-- The stream has ended with a fault. -/
  | failed (fault : Fault)
  /-- Nothing yet. -/
  | waits

/-- The state of a subscription. -/
structure Stream where
  /-- The number that the service gave it. -/
  id : Int
  /-- What is subscribed to. -/
  feed : Feed
  /-- The method that ends it at the service. -/
  ending : String
  /-- The number of notifications that may wait. -/
  capacity : Int
  /-- What happens beyond that number. -/
  overflow : Overflow
  /-- What waits to be taken. -/
  queue : List Item := []
  /-- How it was closed, if it was: with a fault or without. -/
  outcome : Option (Option Fault) := none
  /-- Its owner has ended it. -/
  quiet : Bool := false
  /-- The number of notifications dropped. -/
  dropped : Nat := 0
  /-- A notification that waits for room. -/
  held : Option Reply := none
  /-- There may be room since the notification was held back. -/
  space : Bool := false
  /-- The consumers in line. -/
  waiting : List Nat := []
  /-- The consumers that are called. -/
  called : List Nat := []
  /-- Those that wait for the stream to close. -/
  watchers : List Nat := []

namespace Stream

/-- The stream is closed. -/
def isClosed (s : Stream) : Bool := s.outcome.isSome

/-- As many items wait as may. -/
def isFull (s : Stream) : Bool := s.capacity ≤ s.queue.length

/-- Calls the first consumer in line. -/
def wake (s : Stream) : Stream :=
  match s.waiting with
  | [] => s
  | task :: tasks => { s with waiting := tasks, called := s.called ++ [task] }

/-- Puts an item into the queue. -/
def put (item : Item) (s : Stream) : Stream :=
  wake { s with queue := s.queue ++ [item] }

/-- Closes the stream, unless it is closed. -/
def close (outcome : Option Fault) (s : Stream) : Stream :=
  if s.isClosed then s
  else put .ending { s with outcome := some outcome, space := true }

/-- Closes the stream for its owner, who takes nothing more. -/
def silence (s : Stream) : Stream :=
  close none { s with quiet := true }

/-- A decoded notification comes. -/
def accept (reply : Reply) (s : Stream) : Stream :=
  if s.isFull then
    match s.overflow with
    | .drop => { s with dropped := s.dropped + 1 }
    | .lag => s.close (some (.lagged s.id s.capacity))
    | .block => { s with held := some reply, space := false }
  else s.put (.note reply)

/-- A notification comes; one of another shape closes the stream, and one whose text cannot be read
is a fault of the channel. -/
def offer (text : Bytes) (host : Host) (s : Stream) : Except Fault Stream :=
  if s.isClosed then .ok s
  else match s.feed.shape.decode text host with
    | .ok reply => .ok (s.accept reply)
    | .error (.misuse cause) => .error (.misuse cause)
    | .error fault => .ok (s.close (some fault))

/-- Puts the notification that was held back, unless there is no room or the stream is closed. -/
def proceed (s : Stream) : Stream :=
  match s.held with
  | none => s
  | some reply =>
    if s.isClosed then { s with held := none }
    else if s.isFull then { s with space := false }
    else { s with held := none }.put (.note reply)

/-- A consumer looks: it takes the first item, or waits in line. -/
def look (task : Nat) (s : Stream) : Stream × Received :=
  match s.queue with
  | [] => ({ s with waiting := s.waiting ++ [task] }, .waits)
  | .note reply :: queue =>
    ({ s with queue, space := true }, if s.quiet then .ended else .item reply)
  | .ending :: queue =>
    ({ s with queue, space := true }.put .ending, match s.outcome with
      | some (some fault) => .failed fault
      | _ => .ended)

/-- A consumer comes. -/
def receive (task : Nat) (s : Stream) : Stream × Received :=
  if s.quiet then (s, .ended) else s.look task

/-- A consumer looks again if it was called. -/
def resume (task : Nat) (s : Stream) : Stream × Received :=
  if s.called.contains task then { s with called := s.called.erase task }.look task
  else (s, .waits)

/-- A consumer gives up; if it was called and something is there, the next one is called. -/
def leave (task : Nat) (s : Stream) : Stream :=
  if s.called.contains task then
    let s := { s with called := s.called.erase task }
    if s.queue.isEmpty then s else s.wake
  else { s with waiting := s.waiting.erase task }

/-- Someone waits for the stream to close. -/
def watch (task : Nat) (s : Stream) : Stream :=
  if s.isClosed then s else { s with watchers := s.watchers ++ [task] }

/-- A stream as it is shown. -/
def display (s : Stream) : String :=
  let closed := if s.isClosed then "True" else "False"
  s!"Subscription(id={s.id}, method={Quoted.quote s.feed.method}, closed={closed})"

end Stream

end LedgerClient.Channel
