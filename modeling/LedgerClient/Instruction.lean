import LedgerClient.Fault

/-!
# Instructions

An instruction calls a program with accounts and data. Each account is named with the privileges
that the instruction asks for: whether the account signs, and whether it may be changed. Two
mentions of one account join to one that has the privileges of both.

## Main definitions

* `AccountMeta`: an account with its privileges
* `AccountMeta.join`, `AccountMeta.merge`: two mentions of one account as one
* `Instruction`: a program, its accounts and its data
-/

namespace LedgerClient

/-- An account as an instruction mentions it. -/
structure AccountMeta where
  /-- The account. -/
  key : PublicKey
  /-- The account signs. -/
  isSigner : Bool
  /-- The account may be changed. -/
  isWritable : Bool
  deriving DecidableEq

namespace AccountMeta

/-- An account that may be changed. -/
def writable (key : PublicKey) : AccountMeta := ⟨key, false, true⟩

/-- An account that may only be read. -/
def readonly (key : PublicKey) : AccountMeta := ⟨key, false, false⟩

/-- The mention with a signature. -/
def signing (m : AccountMeta) : AccountMeta := { m with isSigner := true }

/-- The mention with the privileges of another one, whose account is left aside. -/
def join (m other : AccountMeta) : AccountMeta :=
  ⟨m.key, m.isSigner || other.isSigner, m.isWritable || other.isWritable⟩

/-- Two mentions of one account as one; mentions of different accounts do not merge. -/
def merge (m other : AccountMeta) : Except Fault AccountMeta :=
  if m.key = other.key then .ok (m.join other) else .error (.misuse .value)

end AccountMeta

/-- A call of a program. -/
structure Instruction where
  /-- The program. -/
  program : PublicKey
  /-- The accounts in order. -/
  accounts : List AccountMeta
  /-- The data. -/
  data : Bytes
  deriving DecidableEq

end LedgerClient
