import LedgerClient.Program.AssociatedToken
import LedgerClient.Program.ComputeBudget
import LedgerClient.Program.Memo
import LedgerClient.Program.System
import LedgerClient.Program.Token

/-!
# Drafts

A draft is an instruction under construction: a template and the fields that are set so far, by
name. It is complete when every required field of its template is set; then it becomes the action
of a program, which builds the instruction. A field may be set again and may be unset.

## Main definitions

* `Template`: the instructions that can be drafted, with their fields
* `Draft`: a template and its fields
* `Draft.missing`: the required fields that are not set
* `Draft.build`: the instruction of a complete draft
-/

namespace LedgerClient

/-- The value of a field. -/
inductive Given
  | key (key : PublicKey)
  | keys (keys : List PublicKey)
  | number (n : Int)
  | text (text : String)
  | flag (b : Bool)
  deriving DecidableEq

/-- An instruction that can be drafted. -/
inductive Template
  | createAccount
  | assign
  | transferLamports
  | createAccountWithSeed
  | requestHeapFrame
  | setComputeUnitLimit
  | setComputeUnitPrice
  | memo
  | createAssociatedTokenAccount
  | initializeMint
  | initializeAccount
  | transferTokens
  | transferChecked
  | mintToChecked
  | burnChecked
  | closeAccount
  | revoke
  | thawAccount
  | setAuthority
  deriving DecidableEq, Repr

namespace Template

/-- The program and the name of a template. -/
def path : Template → String × String
  | createAccount => ("system", "CreateAccount")
  | assign => ("system", "Assign")
  | transferLamports => ("system", "Transfer")
  | createAccountWithSeed => ("system", "CreateAccountWithSeed")
  | requestHeapFrame => ("compute_budget", "RequestHeapFrame")
  | setComputeUnitLimit => ("compute_budget", "SetComputeUnitLimit")
  | setComputeUnitPrice => ("compute_budget", "SetComputeUnitPrice")
  | memo => ("memo", "Memo")
  | createAssociatedTokenAccount => ("associated_token", "CreateAssociatedTokenAccount")
  | initializeMint => ("token", "InitializeMint2")
  | initializeAccount => ("token", "InitializeAccount3")
  | transferTokens => ("token", "Transfer")
  | transferChecked => ("token", "TransferChecked")
  | mintToChecked => ("token", "MintToChecked")
  | burnChecked => ("token", "BurnChecked")
  | closeAccount => ("token", "CloseAccount")
  | revoke => ("token", "Revoke")
  | thawAccount => ("token", "ThawAccount")
  | setAuthority => ("token", "SetAuthority")

/-- All templates. -/
def all : List Template :=
  [createAccount, assign, transferLamports, createAccountWithSeed, requestHeapFrame,
    setComputeUnitLimit, setComputeUnitPrice, memo, createAssociatedTokenAccount, initializeMint,
    initializeAccount, transferTokens, transferChecked, mintToChecked, burnChecked, closeAccount,
    revoke, thawAccount, setAuthority]

/-- The template of a program's name and an instruction's name joined by a point. -/
def ofPath? (text : String) : Option Template :=
  all.find? fun t => t.path.1 ++ "." ++ t.path.2 == text

/-- The fields that must be set, in order. -/
def required : Template → List String
  | createAccount => ["from_pubkey", "new_account", "lamports", "space", "owner"]
  | assign => ["account", "owner"]
  | transferLamports => ["from_pubkey", "to_pubkey", "lamports"]
  | createAccountWithSeed =>
    ["from_pubkey", "new_account", "base", "seed", "lamports", "space", "owner"]
  | requestHeapFrame => ["bytes_"]
  | setComputeUnitLimit => ["units"]
  | setComputeUnitPrice => ["micro_lamports"]
  | memo => ["message"]
  | createAssociatedTokenAccount => ["payer", "wallet", "mint"]
  | initializeMint => ["mint", "decimals", "mint_authority"]
  | initializeAccount => ["account", "mint", "owner"]
  | transferTokens => ["source", "destination", "owner", "amount"]
  | transferChecked => ["source", "mint", "destination", "owner", "amount", "decimals"]
  | mintToChecked => ["mint", "destination", "authority", "amount", "decimals"]
  | burnChecked => ["account", "mint", "owner", "amount", "decimals"]
  | closeAccount => ["account", "destination", "owner"]
  | revoke => ["source", "owner"]
  | thawAccount => ["account", "mint", "freeze_authority"]
  | setAuthority => ["account", "current_authority", "authority_type"]

/-- The fields that may be left out. -/
def optional : Template → List String
  | memo => ["signers"]
  | createAssociatedTokenAccount => ["token_program_id", "idempotent"]
  | initializeMint => ["token_program_id", "freeze_authority"]
  | initializeAccount => ["token_program_id"]
  | setAuthority => ["token_program_id", "multisig_signers", "new_authority"]
  | transferTokens | transferChecked | mintToChecked | burnChecked | closeAccount | revoke
  | thawAccount => ["token_program_id", "multisig_signers"]
  | _ => []

end Template

/-- An instruction under construction. -/
structure Draft where
  /-- The instruction that is drafted. -/
  template : Template
  /-- The fields that are set. -/
  fields : List (String × Given)
  deriving DecidableEq

namespace Draft

/-- The value of a field. -/
def get? (draft : Draft) (name : String) : Option Given :=
  draft.fields.lookup name

/-- The draft with a field set, or unset. -/
def set (draft : Draft) (name : String) (value : Option Given) : Draft :=
  let others := draft.fields.filter (·.1 != name)
  { draft with fields := value.elim others fun v => (name, v) :: others }

/-- The required fields that are not set, in order. -/
def missing (draft : Draft) : List String :=
  draft.template.required.filter fun name => (draft.get? name).isNone

/-- The key in a field. -/
def key? (draft : Draft) (name : String) : Option PublicKey :=
  match draft.get? name with
  | some (.key key) => some key
  | _ => none

/-- The keys in a field. -/
def keys? (draft : Draft) (name : String) : Option (List PublicKey) :=
  match draft.get? name with
  | some (.keys keys) => some keys
  | _ => none

/-- The number in a field. -/
def number? (draft : Draft) (name : String) : Option Int :=
  match draft.get? name with
  | some (.number n) => some n
  | _ => none

/-- The text in a field. -/
def text? (draft : Draft) (name : String) : Option String :=
  match draft.get? name with
  | some (.text text) => some text
  | _ => none

/-- The flag in a field. -/
def flag? (draft : Draft) (name : String) : Option Bool :=
  match draft.get? name with
  | some (.flag b) => some b
  | _ => none

/-- What a program is asked to do. -/
inductive Action
  | system (action : System.Action)
  | computeBudget (action : ComputeBudget.Action)
  | memo (memo : Memo)
  | associatedToken (creation : AssociatedToken.Creation)
  | token (order : Token.Order)

/-- The token program that a draft names, or the usual one. -/
def tokenProgram (draft : Draft) : PublicKey :=
  (draft.key? "token_program_id").getD WellKnown.tokenProgram

/-- The action of the token program that a draft describes. -/
def tokenAction? (draft : Draft) : Option Token.Action :=
  match draft.template with
  | .initializeMint => do
    return .initializeMint (← draft.key? "mint") (← draft.number? "decimals")
      (← draft.key? "mint_authority") (draft.key? "freeze_authority")
  | .initializeAccount => do
    return .initializeAccount (← draft.key? "account")
      (← draft.key? "mint") (← draft.key? "owner")
  | .transferTokens => do
    return .transfer (← draft.key? "source") (← draft.key? "destination")
      (← draft.key? "owner") (← draft.number? "amount")
  | .transferChecked => do
    return .transferChecked (← draft.key? "source") (← draft.key? "mint")
      (← draft.key? "destination") (← draft.key? "owner") (← draft.number? "amount")
      (← draft.number? "decimals")
  | .mintToChecked => do
    return .mintToChecked (← draft.key? "mint") (← draft.key? "destination")
      (← draft.key? "authority") (← draft.number? "amount") (← draft.number? "decimals")
  | .burnChecked => do
    return .burnChecked (← draft.key? "account") (← draft.key? "mint")
      (← draft.key? "owner") (← draft.number? "amount") (← draft.number? "decimals")
  | .closeAccount => do
    return .closeAccount (← draft.key? "account") (← draft.key? "destination")
      (← draft.key? "owner")
  | .revoke => do
    return .revoke (← draft.key? "source") (← draft.key? "owner")
  | .thawAccount => do
    return .thawAccount (← draft.key? "account") (← draft.key? "mint")
      (← draft.key? "freeze_authority")
  | .setAuthority => do
    return .setAuthority (← draft.key? "account")
      (← draft.key? "current_authority") (← draft.number? "authority_type")
      (draft.key? "new_authority")
  | _ => none

/-- The action that a draft describes, if its required fields are set. -/
def action? (draft : Draft) : Option Action :=
  match draft.template with
  | .createAccount => do
    return .system (.createAccount (← draft.key? "from_pubkey")
      (← draft.key? "new_account") (← draft.number? "lamports") (← draft.number? "space")
      (← draft.key? "owner"))
  | .assign => do
    return .system (.assign (← draft.key? "account") (← draft.key? "owner"))
  | .transferLamports => do
    return .system (.transfer (← draft.key? "from_pubkey")
      (← draft.key? "to_pubkey") (← draft.number? "lamports"))
  | .createAccountWithSeed => do
    return .system (.createAccountWithSeed (← draft.key? "from_pubkey")
      (← draft.key? "new_account") (← draft.key? "base") (← draft.text? "seed")
      (← draft.number? "lamports") (← draft.number? "space") (← draft.key? "owner"))
  | .requestHeapFrame => do
    return .computeBudget (.heapFrame (← draft.number? "bytes_"))
  | .setComputeUnitLimit => do
    return .computeBudget (.unitLimit (← draft.number? "units"))
  | .setComputeUnitPrice => do
    return .computeBudget (.unitPrice (← draft.number? "micro_lamports"))
  | .memo => do
    return .memo ⟨← draft.text? "message", (draft.keys? "signers").getD []⟩
  | .createAssociatedTokenAccount => do
    return .associatedToken ⟨← draft.key? "payer",
      ← draft.key? "wallet", ← draft.key? "mint", draft.tokenProgram,
      (draft.flag? "idempotent").getD false⟩
  | _ => do
    return .token ⟨draft.tokenProgram, (draft.keys? "multisig_signers").getD [],
      ← draft.tokenAction?⟩

/-- The instruction of an action. -/
def Action.build (hash : Bytes → Hash) : Action → Except Fault Instruction
  | .system action => action.build
  | .computeBudget action => action.build
  | .memo m => .ok m.build
  | .associatedToken creation => creation.build hash
  | .token order => order.build

/-- The instruction of a draft; one with missing fields is refused. -/
def build (hash : Bytes → Hash) (draft : Draft) : Except Fault Instruction :=
  if draft.missing.isEmpty then
    match draft.action? with
    | some action => action.build hash
    | none => .error (.misuse .type)
  else .error (.invalid (.missingFields draft.template.path.2 draft.missing))

end Draft

end LedgerClient
