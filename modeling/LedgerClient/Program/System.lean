import LedgerClient.Address.WellKnown
import LedgerClient.Instruction
import LedgerClient.Program.Payload

/-!
# The system program

The system program creates accounts, assigns them to programs and moves lamports. A new account
may have an address derived from a base key and a seed; the base then signs, unless it pays
itself.

## Main definitions

* `System.Action`: what the system program is asked to do
* `System.Action.payload`, `System.Action.accounts`: the data and the accounts of an action
* `System.Action.build`: the instruction of an action
-/

namespace LedgerClient.System

/-- What the system program is asked to do. -/
inductive Action
  | createAccount (payer account : PublicKey) (lamports space : Int) (owner : PublicKey)
  | assign (account owner : PublicKey)
  | transfer (source target : PublicKey) (lamports : Int)
  | createAccountWithSeed (payer account base : PublicKey) (seed : String) (lamports space : Int)
      (owner : PublicKey)
  deriving DecidableEq

namespace Action

/-- The data of an action. -/
def payload : Action → Payload
  | createAccount _ _ lamports space owner =>
    ⟨.word 0, [.integer .u64, .integer .u64, .key .publicKey], (lamports, space, owner, ())⟩
  | assign _ owner => ⟨.word 1, [.key .publicKey], (owner, ())⟩
  | transfer _ _ lamports => ⟨.word 2, [.integer .u64], (lamports, ())⟩
  | createAccountWithSeed _ _ base seed lamports space owner =>
    ⟨.word 3, [.key .publicKey, .string, .integer .u64, .integer .u64, .key .publicKey],
      (base, seed, lamports, space, owner, ())⟩

/-- The accounts of an action. -/
def accounts : Action → List AccountMeta
  | createAccount payer account _ _ _ =>
    [(AccountMeta.writable payer).signing, (AccountMeta.writable account).signing]
  | assign account _ => [(AccountMeta.writable account).signing]
  | transfer source target _ => [(AccountMeta.writable source).signing, .writable target]
  | createAccountWithSeed payer account base _ _ _ _ =>
    [(AccountMeta.writable payer).signing, .writable account] ++
      if base = payer then [] else [(AccountMeta.readonly base).signing]

/-- Refuses a seed that is too long. -/
def check : Action → Except Fault Unit
  | createAccountWithSeed _ _ _ seed _ _ _ =>
    if 32 < (Utf8.encode seed).length then .error (.invalid .accountSeedWidth) else .ok ()
  | _ => .ok ()

/-- The instruction of an action. -/
def build (action : Action) : Except Fault Instruction := do
  action.check
  return ⟨WellKnown.systemProgram, action.accounts, ← action.payload.bytes⟩

end Action

end LedgerClient.System
