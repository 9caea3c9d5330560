import LedgerClient.Address.Derived
import LedgerClient.Instruction

/-!
# Associated token accounts

The associated token program creates the canonical token account of a wallet for a mint.

## Main definitions

* `AssociatedToken.Creation`: which account is created
* `AssociatedToken.Creation.build`: the instruction
-/

namespace LedgerClient.AssociatedToken

/-- The creation of the token account of a wallet for a mint. -/
structure Creation where
  /-- Who pays for the account. -/
  payer : PublicKey
  /-- Whose account it is. -/
  wallet : PublicKey
  /-- The mint. -/
  mint : PublicKey
  /-- The token program. -/
  program : PublicKey
  /-- An account that exists already is no failure. -/
  idempotent : Bool
  deriving DecidableEq

/-- The instruction of a creation. -/
def Creation.build (hash : Bytes → Hash) (c : Creation) : Except Fault Instruction := do
  let (account, _) ← Address.associatedToken hash c.wallet c.mint c.program
  let accounts := [(AccountMeta.writable c.payer).signing, .writable account,
    .readonly c.wallet, .readonly c.mint, .readonly WellKnown.systemProgram,
    .readonly c.program, .readonly WellKnown.sysvarRent]
  return ⟨WellKnown.associatedTokenProgram, accounts, if c.idempotent then [1] else []⟩

end LedgerClient.AssociatedToken
