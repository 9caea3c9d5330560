import LedgerClient.Json.Printer
import LedgerClient.Rpc.Settings

/-!
# Requests

A request is a method with parameters and an id. It is written as one line of JSON with its
members in fixed order; a batch is a list of requests.

## Main definitions

* `Rpc.Param`: the parameters
* `Rpc.Request`: a request
* `Rpc.Request.render`, `Rpc.Request.renderAll`: the text of a request and of a batch
* `Rpc.withSettings`: parameters with settings at their end
-/

namespace LedgerClient.Rpc

open Json (Value)

/-- A parameter. -/
inductive Param
  | plain (value : Value)
  | key (kind : KeyKind) (key : Key kind)
  | blob (blob : Blob)
  | settings (settings : Settings)
  | filter (filter : Filter)
  | list (items : List Param)
  | obj (members : List (String × Param))

mutual

/-- A parameter on the wire. -/
def Param.toJson : Param → Except Fault Value
  | .plain value => return value
  | .key _ key => return Filter.keyJson key
  | .blob blob => blob.toJson
  | .settings settings => return settings.toJson
  | .filter filter => return filter.toJson
  | .list items => .arr <$> paramsJson items
  | .obj members => .obj <$> membersJson members

/-- Parameters on the wire, in order. -/
def paramsJson : List Param → Except Fault (List Value)
  | [] => return []
  | item :: items => do return (← item.toJson) :: (← paramsJson items)

/-- Named parameters on the wire, in order. -/
def membersJson : List (String × Param) → Except Fault (List (String × Value))
  | [] => return []
  | (name, item) :: members => do return (name, ← item.toJson) :: (← membersJson members)

end

/-- A request. -/
structure Request where
  /-- The method. -/
  method : String
  /-- The parameters. -/
  params : List Param
  /-- The id, by which the answer is told. -/
  id : Int

namespace Request

/-- A request on the wire. -/
def toJson (request : Request) : Except Fault Value := do
  return .obj [("method", .str request.method), ("params", .arr (← paramsJson request.params)),
    ("id", .int request.id), ("jsonrpc", .str "2.0")]

/-- The text of a request. -/
def render (request : Request) : Except Fault String := do
  return (← request.toJson).render

/-- The text of a batch. -/
def renderAll (requests : List Request) : Except Fault String := do
  return (Value.arr (← requests.mapM toJson)).render

end Request

/-- Parameters with settings at their end, unless no setting is set. -/
def withSettings (params : List Param) : Option Settings → List Param
  | none => params
  | some settings => if settings.isEmpty then params else params ++ [.settings settings]

end LedgerClient.Rpc
