import LedgerClient.Rpc.Frame

/-!
# Answers

What a payload says to a request or a batch. A request is answered by one frame, which reports an
error or carries the id of the request; a batch is answered by a list of frames, of which the
last one with the id of each request counts, or is rejected by one error.

## Main definitions

* `Rpc.Payload.answer`: the result of a request
* `Rpc.Payload.answers`: the results of a batch, in the order of its requests
-/

namespace LedgerClient.Rpc

/-- The result of one request of a batch: a text, or an error of the service. -/
abbrev Entry := Except ServerFault Bytes

/-- What a frame says to the request of a batch. -/
def Frame.entry (frame : Frame) : Entry :=
  match frame.error with
  | some error => .error error
  | none => .ok frame.result

namespace Payload

/-- The result of the request with an id. -/
def answer (id : Nat) : Payload → Except Fault Bytes
  | .batch _ => throw (.codec .batchForSingle)
  | .single frame => match frame.error with
    | some error => throw (.server error)
    | none =>
      if frame.id = some (id : Int) then return frame.result
      else throw (.codec (.replyId frame.id id))

/-- The last frame with an id. -/
def lastWith (id : Nat) (frames : List Frame) : Option Frame :=
  frames.reverse.find? fun frame => frame.id == some (id : Int)

/-- The results of requests in a list of frames. -/
def entries (frames : List Frame) : List Nat → Except Fault (List Entry)
  | [] => return []
  | id :: ids => match lastWith id frames with
    | none => throw (.codec (.replyMissing id))
    | some frame => do return frame.entry :: (← entries frames ids)

/-- The results of the batch with these ids. -/
def answers (ids : List Nat) : Payload → Except Fault (List Entry)
  | .batch frames => entries frames ids
  | .single frame => match frame.error with
    | some error => throw (.batchRejected error)
    | none => throw (.codec .singleForBatch)

end Payload

end LedgerClient.Rpc
