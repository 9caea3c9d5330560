import LedgerClient.Address.WellKnown
import LedgerClient.Instruction
import LedgerClient.Program.Payload

/-!
# The token program

The token program keeps mints and token accounts. Most actions need an authority. It signs
itself, or it is a multisig account for which up to eleven listed keys sign, none of them twice
and none of them the authority.

## Main definitions

* `Token.AuthorityKind`: which authority of an account is meant
* `Token.Action`: what the token program is asked to do
* `Token.Order`: an action with the token program and the signers of a multisig authority
* `Token.Order.build`: the instruction of an order
-/

namespace LedgerClient.Token

/-- Which authority of a mint or an account is meant. -/
inductive AuthorityKind
  | mintTokens
  | freezeAccount
  | accountOwner
  | closeAccount
  deriving DecidableEq, Repr

/-- The kind of a number. -/
def AuthorityKind.ofNumber? (n : Int) : Option AuthorityKind :=
  if n = 0 then some .mintTokens
  else if n = 1 then some .freezeAccount
  else if n = 2 then some .accountOwner
  else if n = 3 then some .closeAccount
  else none

/-- The name of a kind. -/
def AuthorityKind.name : AuthorityKind → String
  | .mintTokens => "mintTokens"
  | .freezeAccount => "freezeAccount"
  | .accountOwner => "accountOwner"
  | .closeAccount => "closeAccount"

/-- What the token program is asked to do. -/
inductive Action
  | initializeMint (mint : PublicKey) (decimals : Int) (mintAuthority : PublicKey)
      (freezeAuthority : Option PublicKey)
  | initializeAccount (account mint owner : PublicKey)
  | transfer (source destination owner : PublicKey) (amount : Int)
  | transferChecked (source mint destination owner : PublicKey) (amount decimals : Int)
  | mintToChecked (mint destination authority : PublicKey) (amount decimals : Int)
  | burnChecked (account mint owner : PublicKey) (amount decimals : Int)
  | closeAccount (account destination owner : PublicKey)
  | revoke (source owner : PublicKey)
  | thawAccount (account mint freezeAuthority : PublicKey)
  | setAuthority (account currentAuthority : PublicKey) (kind : Int)
      (newAuthority : Option PublicKey)
  deriving DecidableEq

namespace Action

/-- The data of an action. -/
def payload : Action → Payload
  | initializeMint _ decimals mintAuthority freezeAuthority =>
    ⟨.byte 20, [.integer .u8, .key .publicKey, .option (.key .publicKey)],
      (decimals, mintAuthority, freezeAuthority, ())⟩
  | initializeAccount _ _ owner => ⟨.byte 18, [.key .publicKey], (owner, ())⟩
  | transfer _ _ _ amount => ⟨.byte 3, [.integer .u64], (amount, ())⟩
  | transferChecked _ _ _ _ amount decimals =>
    ⟨.byte 12, [.integer .u64, .integer .u8], (amount, decimals, ())⟩
  | mintToChecked _ _ _ amount decimals =>
    ⟨.byte 14, [.integer .u64, .integer .u8], (amount, decimals, ())⟩
  | burnChecked _ _ _ amount decimals =>
    ⟨.byte 15, [.integer .u64, .integer .u8], (amount, decimals, ())⟩
  | closeAccount _ _ _ => ⟨.byte 9, [], ()⟩
  | revoke _ _ => ⟨.byte 5, [], ()⟩
  | thawAccount _ _ _ => ⟨.byte 11, [], ()⟩
  | setAuthority _ _ kind newAuthority =>
    ⟨.byte 6, [.integer .u8, .option (.key .publicKey)], (kind, newAuthority, ())⟩

/-- The authority that an action needs, and its role. -/
def authority? : Action → Option (String × PublicKey)
  | initializeMint .. => none
  | initializeAccount .. => none
  | transfer _ _ owner _ => some ("owner", owner)
  | transferChecked _ _ _ owner _ _ => some ("owner", owner)
  | mintToChecked _ _ authority _ _ => some ("authority", authority)
  | burnChecked _ _ owner _ _ => some ("owner", owner)
  | closeAccount _ _ owner => some ("owner", owner)
  | revoke _ owner => some ("owner", owner)
  | thawAccount _ _ freezeAuthority => some ("freeze_authority", freezeAuthority)
  | setAuthority _ currentAuthority _ _ => some ("current_authority", currentAuthority)

/-- The accounts of an action before its authority. -/
def accounts : Action → List AccountMeta
  | initializeMint mint _ _ _ => [.writable mint]
  | initializeAccount account mint _ => [.writable account, .readonly mint]
  | transfer source destination _ _ => [.writable source, .writable destination]
  | transferChecked source mint destination _ _ _ =>
    [.writable source, .readonly mint, .writable destination]
  | mintToChecked mint destination _ _ _ => [.writable mint, .writable destination]
  | burnChecked account mint _ _ _ => [.writable account, .writable mint]
  | closeAccount account destination _ => [.writable account, .writable destination]
  | revoke source _ => [.writable source]
  | thawAccount account mint _ => [.writable account, .readonly mint]
  | setAuthority account _ _ _ => [.writable account]

end Action

/-- An action with the token program that performs it and the signers of a multisig
authority. -/
structure Order where
  /-- The token program. -/
  program : PublicKey
  /-- Who signs for a multisig authority; nobody if the authority signs itself. -/
  signers : List PublicKey
  /-- What the program is asked to do. -/
  action : Action
  deriving DecidableEq

/-- The greatest number of signers of a multisig authority. -/
def maxSigners : Nat := 11

namespace Order

/-- Refuses signers that a multisig authority cannot have. -/
def check (order : Order) : Except Fault Unit :=
  match order.action.authority? with
  | none => .ok ()
  | some (role, authority) =>
    if maxSigners < order.signers.length then
      .error (.invalid (.tooManySigners order.signers.length))
    else if ¬order.signers.Nodup then .error (.invalid .duplicateSigner)
    else if authority ∈ order.signers then .error (.invalid (.ownSigner role))
    else .ok ()

/-- The authority and its signers as accounts. -/
def authorityMetas (authority : PublicKey) (signers : List PublicKey) : List AccountMeta :=
  if signers.isEmpty then [(AccountMeta.readonly authority).signing]
  else .readonly authority :: signers.map fun key => (AccountMeta.readonly key).signing

/-- The accounts of an order. -/
def accounts (order : Order) : List AccountMeta :=
  order.action.accounts ++ match order.action.authority? with
    | none => []
    | some (_, authority) => authorityMetas authority order.signers

/-- The instruction of an order. -/
def build (order : Order) : Except Fault Instruction := do
  order.check
  return ⟨order.program, order.accounts, ← order.action.payload.bytes⟩

end Order

end LedgerClient.Token
