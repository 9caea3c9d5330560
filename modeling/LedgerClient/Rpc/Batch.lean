import LedgerClient.Rpc.Answer
import LedgerClient.Rpc.Records
import LedgerClient.Rpc.Request

/-!
# Batches

A batch is a list of requests that are sent and answered together. It holds at least one request
and no more than its limit. Errors of the service for single requests are part of its result.

## Main definitions

* `Rpc.BatchCall`: a request of a batch
* `Rpc.demandBatch`: the bounds of a batch
* `Rpc.readBatch`: the replies in the results of a batch
-/

namespace LedgerClient.Rpc

/-- A request of a batch, with what its reply may be. -/
structure BatchCall where
  /-- The method. -/
  method : String
  /-- The parameters. -/
  params : List Param
  /-- What the reply may be. -/
  shape : Shape := Shape.anything

/-- The result of one request of a batch. -/
abbrev BatchReply := Except ServerFault Reply

/-- A batch has a request and no more than the limit. -/
def demandBatch (calls : List BatchCall) (limit : Nat) : Except Fault Unit :=
  if calls.isEmpty then throw (.invalid .batchEmpty)
  else if limit < calls.length then throw (.limit (.batch calls.length limit))
  else return

/-- The requests of a batch with ids from the given one on. -/
def requests : (first : Nat) → List BatchCall → List Request
  | _, [] => []
  | id, call :: calls => ⟨call.method, call.params, id⟩ :: requests (id + 1) calls

/-- The replies in the results of a batch. -/
def readBatch (host : Host) : List BatchCall → List Entry → Except Fault (List BatchReply)
  | call :: calls, entry :: entries => do
    let reply ← match entry with
      | .error error => pure (.error error)
      | .ok text => .ok <$> call.shape.decode text host
    return reply :: (← readBatch host calls entries)
  | _, _ => return []

end LedgerClient.Rpc
