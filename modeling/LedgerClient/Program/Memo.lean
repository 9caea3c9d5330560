import LedgerClient.Address.WellKnown
import LedgerClient.Instruction

/-!
# Memos

The memo program records a text; every listed key signs it.

## Main definitions

* `Memo`: a text with its signers
* `Memo.build`: the instruction
-/

namespace LedgerClient

/-- A text with its signers. -/
structure Memo where
  /-- The text. -/
  message : String
  /-- Who signs. -/
  signers : List PublicKey
  deriving DecidableEq

/-- The instruction of a memo. -/
def Memo.build (memo : Memo) : Instruction :=
  ⟨WellKnown.memoProgram, memo.signers.map fun key => (AccountMeta.readonly key).signing,
    Utf8.encode memo.message⟩

end LedgerClient
