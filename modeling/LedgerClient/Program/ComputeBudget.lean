import LedgerClient.Address.WellKnown
import LedgerClient.Instruction
import LedgerClient.Program.Payload

/-!
# The compute budget program

The compute budget program takes requests for resources of a transaction and mentions no
accounts.

## Main definitions

* `ComputeBudget.Action`: what is requested
* `ComputeBudget.Action.build`: the instruction of a request
-/

namespace LedgerClient.ComputeBudget

/-- What is requested. -/
inductive Action
  | heapFrame (size : Int)
  | unitLimit (units : Int)
  /-- The price of a unit in millionths of a lamport. -/
  | unitPrice (price : Int)
  deriving DecidableEq

namespace Action

/-- The data of a request. -/
def payload : Action → Payload
  | heapFrame size => ⟨.byte 1, [.integer .u32], (size, ())⟩
  | unitLimit units => ⟨.byte 2, [.integer .u32], (units, ())⟩
  | unitPrice price => ⟨.byte 3, [.integer .u64], (price, ())⟩

/-- The instruction of a request. -/
def build (action : Action) : Except Fault Instruction := do
  return ⟨WellKnown.computeBudgetProgram, [], ← action.payload.bytes⟩

end Action

end LedgerClient.ComputeBudget
