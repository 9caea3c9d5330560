import LedgerClient.Channel.Basic

/-!
# Routing

A reader takes one message after the other and routes its frames. A frame with an id is the
answer to the pending request of that id, whatever else it holds; a notification goes to its
stream; an error without id rejects the oldest batch that waits. Everything else is discarded.
The reader stalls where a stream has no room and its policy is to wait, and the frames that come
after wait with it.

When the reader ends, the channel closes: what is pending fails and every stream ends. A reader that
is stopped before it has begun ends nothing.

## Main definitions

* `Channel.route`: a frame
* `Channel.accept`, `Channel.proceed`: a message, and the frames after a stall
* `Channel.teardown`: the end of the reader
* `Channel.start`, `Channel.halt`: the reader begins, and is stopped
-/

namespace LedgerClient.Channel

open Rpc (Feed Frame)

/-! ## Answers -/

/-- The stream of a new subscription. -/
def newStream (c : Channel) (id : Int) (feed : Feed) (options : Options) : Stream :=
  { id, feed
    ending := match options.ending with
      | some method => if method = "" then feed.ending else method
      | none => feed.ending
    capacity := match options.capacity with
      | some n => if n = 0 then c.config.queueSize else n
      | none => c.config.queueSize
    overflow := options.overflow.getD c.config.overflow }

/-- Registers a new stream under the number of its subscription. -/
def register (c : Channel) (stream : Stream) : Channel :=
  { c with
    streams := c.streams ++ [stream]
    registry := Keyed.put Prod.fst (stream.id, c.streams.length) c.registry }

/-- What a frame says to the request that it answers. A new stream is registered at once, so that
the notifications after the answer find it. -/
def answer (c : Channel) (id : Nat) (expected : Expected) (frame : Frame) : Channel :=
  match expected, frame.error with
  | .entry, _ => c.settle id (.entry frame.entry)
  | _, some error => c.settle id (.fault (.server error))
  | .result, none => c.settle id (.text frame.result)
  | .stream feed options, none => match Rpc.Shape.int.decode frame.result c.config.host with
    | .error fault => c.settle id (.fault fault)
    | .ok reply => match reply.value with
      | .int number =>
        (c.register (c.newStream number feed options)).settle id (.stream c.streams.length)
      | _ => c.settle id (.fault (.codec .unexpectedShape))

/-- A frame with an id answers the pending request of that id; there may be none. -/
def resolve (c : Channel) (id : Int) (frame : Frame) : Channel :=
  match c.pending.find? fun entry => (entry.1 : Int) = id with
  | none => c
  | some (id, expected) => (c.forget id).answer id expected frame

/-! ## Notifications -/

/-- A subscription whose stream has closed is given up. -/
def sweep (c : Channel) (id : Int) (index : Nat) : Channel :=
  if c.streams[index]?.any Stream.isClosed && c.registered? id == some index then
    (c.deregister id).orphan index
  else c

/-- A notification goes to the stream of its subscription, if there is one; the reader stalls if
the stream holds it back. -/
def notify (c : Channel) (id : Int) (text : Bytes) : Except Fault Channel :=
  match c.registered? id with
  | none => .ok c
  | some index => match c.streams[index]? with
    | none => .ok c
    | some stream => do
      let stream ← stream.offer text c.config.host
      let c := c.setStream index stream
      if stream.held.isSome then return { c with reader := .stalled id index [] }
      else return c.sweep id index

/-! ## Rejections -/

/-- Fails a request if it is pending. -/
def fail (fault : Fault) (c : Channel) (id : Nat) : Channel :=
  if c.isPending id then (c.forget id).settle id (.fault fault) else c

/-- The oldest batch of which a request is pending. -/
def waitingBatch? (c : Channel) : Option (List Nat) :=
  c.batches.find? fun ids => ids.any c.isPending

/-- An error without id rejects the oldest batch that waits. -/
def reject (c : Channel) (error : ServerFault) : Channel :=
  match c.waitingBatch? with
  | none => c
  | some ids => ids.foldl (fail (.batchRejected error)) c

/-! ## Frames and messages -/

/-- Routes a frame: an answer, a notification, or an error without id. -/
def route (c : Channel) (frame : Frame) : Except Fault Channel :=
  match frame.id, frame.notice, frame.error with
  | some id, _, _ => .ok (c.resolve id frame)
  | none, some notice, _ => c.notify notice.subscription notice.result
  | none, none, some error => .ok (c.reject error)
  | none, none, none => .ok c

/-- Ends the channel: what is pending fails, and every registered stream is closed. The reason is
the first one there was. -/
def teardown (c : Channel) (reason : String) : Channel :=
  let reason := c.closed.getD reason
  let fault := Fault.transport reason none
  let c := (c.pending.map (·.1)).foldl (fail fault) c
  let c := c.registry.foldl (fun c entry => c.modifyStream entry.2 (Stream.close (some fault))) c
  { c with closed := some reason, registry := [], reader := .ended }

/-- The reader ends for a reason that it does not expect. -/
def crash (c : Channel) (reason : String) : Channel :=
  c.teardown s!"reader failed: {reason}"

/-- The reader begins, unless it was stopped before. -/
def start (c : Channel) : Channel :=
  match c.reader, c.closed with
  | .fresh, none => { c with reader := .idle }
  | _, _ => c

/-- The reader is stopped, and ends if it has begun. One that has not begun does not notice what
becomes of the connection; it is dropped if the client has closed the channel. -/
def halt (c : Channel) (reason : String) : Channel :=
  if c.reader.hasBegun then c.teardown reason
  else if c.closed.isSome then { c with reader := .dropped }
  else c

/-- Routes frames one after the other until the reader stalls or ends. -/
def routeAll : List Frame → Channel → Channel
  | [], c => { c with reader := .idle }
  | frame :: frames, c => match c.route frame with
    | .error fault => c.crash fault.message
    | .ok c => match c.reader with
      | .stalled id index _ => { c with reader := .stalled id index frames }
      | _ => routeAll frames c

/-- Takes a message; one that is no frame and no list of frames is discarded. -/
def accept (c : Channel) (text : Bytes) : Channel :=
  match Rpc.Payload.read text c.config.host with
  | .ok payload => routeAll payload.frames c
  | .error (.misuse cause) => c.crash (Fault.misuse cause).message
  | .error _ => c

/-- The reader goes on where it stalled. -/
def proceed (c : Channel) : Channel :=
  match c.reader with
  | .stalled id index rest =>
    let c := c.modifyStream index Stream.proceed
    if c.streams[index]?.any (·.held.isSome) then c
    else routeAll rest ({ c with reader := .idle }.sweep id index)
  | _ => c

end LedgerClient.Channel
