import LedgerClient.Fault
import LedgerClient.Host
import LedgerClient.Json.Reader

/-!
# Frames

What arrives from the service is a frame or a list of frames. A frame answers a request when it
carries an id, reports an error, or notifies a subscription. Its members are read strictly, the
last one of a name counts, and unknown members are skipped; results stay texts until it is known
what they should be.

## Main definitions

* `Rpc.Notice`: the notification in a frame
* `Rpc.Frame`: a frame
* `Rpc.Payload`: everything that arrives at once
* `Rpc.Payload.read`: the payload in a text
-/

namespace LedgerClient.Rpc

open Json (Tree Obstacle)

/-- The text of a result that was not sent. -/
def absentResult : Bytes := Utf8.encode "null"

/-- The notification in a frame. -/
structure Notice where
  /-- The number of the subscription. -/
  subscription : Int
  /-- The text of what is notified. -/
  result : Bytes

/-- A frame. -/
structure Frame where
  /-- The version of the protocol. -/
  version : String := "2.0"
  /-- The id of the request that the frame answers. -/
  id : Option Int := none
  /-- The text of the result. -/
  result : Bytes := absentResult
  /-- The error that the service reports. -/
  error : Option ServerFault := none
  /-- The name of the notification. -/
  method : Option String := none
  /-- The notification. -/
  notice : Option Notice := none

/-- Everything that arrives at once. -/
inductive Payload
  | single (frame : Frame)
  | batch (frames : List Frame)

/-! ## Reading -/

/-- A whole number without fraction or exponent. -/
def readInt : Tree → Except Obstacle Int
  | .number (.whole n digits) => if Numeral.maxDigits < digits then throw .form else return n
  | tree => throw tree.mismatch

/-- A text. -/
def readText : Tree → Except Obstacle String
  | .str content => Json.text content
  | tree => throw tree.mismatch

/-- Nothing, or what a reader reads. -/
def readOptional {α : Type} (read : Tree → Except Obstacle α) : Tree → Except Obstacle (Option α)
  | .null => return none
  | tree => some <$> read tree

/-- The exact text of a value, whatever it holds. -/
def readRaw (text : Bytes) (tree : Tree) : Except Obstacle Bytes :=
  match tree.mark? with
  | none => return text
  | some why => throw why

/-- The members of an object. -/
def readMembers : Tree → Except Obstacle (List (Bytes × Bytes × Tree))
  | .obj members => return members
  | tree => throw tree.mismatch

/-- The members of an error as far as they are read: number, words and what else is said. -/
structure PartialError where
  /-- The number. -/
  code : Option Int := none
  /-- The words. -/
  message : Option String := none
  /-- What else is said. -/
  data : Json.Value := .null

/-- Reads one member of an error. -/
def PartialError.put (e : PartialError) (member : Bytes × Bytes × Tree) :
    Except Obstacle PartialError := do
  let (name, text, tree) := member
  match (Utf8.decode name).toOption with
  | some "code" => return { e with code := some (← readInt tree) }
  | some "message" => return { e with message := some (← readText tree) }
  | some "data" => return { e with data := ← tree.value }
  | _ =>
    let _ ← readRaw text tree
    return e

/-- An error of the service. -/
def readError (tree : Tree) : Except Obstacle ServerFault := do
  let e ← (← readMembers tree).foldlM PartialError.put {}
  match e.code, e.message with
  | some code, some message => return ⟨code, message, e.data⟩
  | _, _ => throw .form

/-- Reads one member of a notification: its subscription as far as it is known, and its result. -/
def putNotice (n : Option Int × Bytes) (member : Bytes × Bytes × Tree) :
    Except Obstacle (Option Int × Bytes) := do
  let (name, text, tree) := member
  match (Utf8.decode name).toOption with
  | some "subscription" => return (some (← readInt tree), n.2)
  | some "result" => return (n.1, ← readRaw text tree)
  | _ =>
    let _ ← readRaw text tree
    return n

/-- The notification in a frame. -/
def readNotice (tree : Tree) : Except Obstacle Notice := do
  match ← (← readMembers tree).foldlM putNotice (none, absentResult) with
  | (some subscription, result) => return ⟨subscription, result⟩
  | (none, _) => throw .form

/-- Reads one member of a frame. -/
def Frame.put (frame : Frame) (member : Bytes × Bytes × Tree) : Except Obstacle Frame := do
  let (name, text, tree) := member
  match (Utf8.decode name).toOption with
  | some "jsonrpc" => return { frame with version := ← readText tree }
  | some "id" => return { frame with id := ← readOptional readInt tree }
  | some "result" => return { frame with result := ← readRaw text tree }
  | some "error" => return { frame with error := ← readOptional readError tree }
  | some "method" => return { frame with method := ← readOptional readText tree }
  | some "params" => return { frame with notice := ← readOptional readNotice tree }
  | _ =>
    let _ ← readRaw text tree
    return frame

/-- A frame. -/
def Frame.ofTree (tree : Tree) : Except Obstacle Frame := do
  (← readMembers tree).foldlM Frame.put {}

/-- A frame or a list of frames. -/
def Payload.ofTree : Tree → Except Obstacle Payload
  | .arr items => .batch <$> items.mapM Frame.ofTree
  | tree => .single <$> Frame.ofTree tree

/-- The payload in a text that a host reads. -/
def Payload.read (text : Bytes) (host : Host := .plain) : Except Fault Payload :=
  ((Json.Document.read text host.nesting).using Payload.ofTree).mapError fun
    | .form => .codec .malformedPayload
    | .text flaw => .misuse (.text flaw)

/-- The frames of a payload, in order. -/
def Payload.frames : Payload → List Frame
  | .single frame => [frame]
  | .batch frames => frames

end LedgerClient.Rpc
