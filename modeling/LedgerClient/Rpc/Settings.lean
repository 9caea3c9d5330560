import LedgerClient.Rpc.Filter
import LedgerClient.Text.Camel

/-!
# Request settings

The last parameter of many requests is an object of settings. Each request has its form, which
lists the settings it knows; those that are not set do not appear on the wire, and settings of
which none is set do not appear at all.

## Main definitions

* `Rpc.Setting`: the value of a setting
* `Rpc.SettingKind`, `Rpc.Form`: what a setting holds and the settings of a request
* `Rpc.Settings`: a form and the settings that are set
* `Rpc.Settings.replace`: a copy with one of them set
* `Rpc.Settings.toJson`: settings on the wire
* `Rpc.Settings.ofJson`: settings from named JSON values
-/

namespace LedgerClient.Rpc

open Json (Value)

/-- How far a block must be confirmed. -/
inductive Commitment
  | processed
  | confirmed
  | finalized
  deriving DecidableEq, Repr

namespace Commitment

/-- The name of a commitment. -/
def name : Commitment → String
  | .processed => "processed"
  | .confirmed => "confirmed"
  | .finalized => "finalized"

/-- The commitment of a name. -/
def ofName? (text : String) : Option Commitment :=
  [.processed, .confirmed, .finalized].find? (·.name == text)

end Commitment

/-- How much of the transactions of a block is asked for. -/
inductive Details
  | full
  | accounts
  | signatures
  | nothing
  deriving DecidableEq, Repr

namespace Details

/-- The name of a degree of detail. -/
def name : Details → String
  | .full => "full"
  | .accounts => "accounts"
  | .signatures => "signatures"
  | .nothing => "none"

/-- The degree of detail of a name. -/
def ofName? (text : String) : Option Details :=
  [.full, .accounts, .signatures, .nothing].find? (·.name == text)

end Details

/-- The value of a setting. -/
inductive Setting
  /-- A number, a truth value or a word. -/
  | plain (value : Value)
  | commitment (commitment : Commitment)
  | details (details : Details)
  | encoding (encoding : Encoding)
  | key (key : PublicKey)
  /-- A part of the data of an account. -/
  | slice (offset length : Value)
  | filters (filters : List Filter)
  /-- A range of slots that may be open at its end. -/
  | range (first last : Value)
  /-- Accounts to be returned, and how. -/
  | accounts (addresses : List PublicKey) (encoding : Encoding)

/-- A setting on the wire. -/
def Setting.toJson : Setting → Value
  | .plain value => value
  | .commitment c => .str c.name
  | .details d => .str d.name
  | .encoding e => .str e.name
  | .key k => Filter.keyJson k
  | .slice offset length => .obj [("offset", offset), ("length", length)]
  | .filters fs => .arr (fs.map Filter.toJson)
  | .range first .null => .obj [("firstSlot", first)]
  | .range first last => .obj [("firstSlot", first), ("lastSlot", last)]
  | .accounts keys e =>
    .obj [("addresses", .arr (keys.map Filter.keyJson)), ("encoding", .str e.name)]

/-- What a setting holds. -/
inductive SettingKind
  | plain
  | commitment
  | details
  | encoding
  | key
  | slice
  | filters
  | range
  | accounts
  deriving DecidableEq, Repr

/-- A named member of settings with defaults. -/
def memberOr (value : Value) (name : String) (absent : Value) : Value :=
  (value.member? name).getD absent

/-- The setting of a JSON value. -/
def SettingKind.read (value : Value) : SettingKind → Except Fault Setting
  | .plain => return .plain value
  | .commitment => match value with
    | .str name => match Commitment.ofName? name with
      | some c => return .commitment c
      | none => throw (.misuse .value)
    | _ => throw (.misuse .value)
  | .details => match value with
    | .str name => match Details.ofName? name with
      | some d => return .details d
      | none => throw (.misuse .value)
    | _ => throw (.misuse .value)
  | .encoding => .encoding <$> Filter.readEncoding value
  | .key => .key <$> Filter.readKey .publicKey value
  | .slice => do
    return .slice (← Filter.readMember value "offset") (← Filter.readMember value "length")
  | .filters => match value with
    | .arr items => .filters <$> items.mapM Filter.ofJson
    | _ => throw (.misuse .type)
  | .range => do
    return .range (← Filter.readMember value "first_slot") (memberOr value "last_slot" .null)
  | .accounts => do
    let addresses ← Filter.readKeys .publicKey (← Filter.readMember value "addresses")
    return .accounts addresses (← Filter.readEncoding (memberOr value "encoding" (.str "base64")))

/-- The settings of a request: their names and what they hold, in the order of the wire. -/
structure Form where
  /-- The name of the form. -/
  name : String
  /-- The settings. -/
  fields : List (String × SettingKind)

namespace Form

/-- The commitment setting, which most forms start with. -/
def commitmentField : String × SettingKind := ("commitment", .commitment)

/-- The encoding setting of account data. -/
def encodingField : String × SettingKind := ("encoding", .encoding)

/-- The encoding setting of transactions and blocks, which is any word. -/
def viewField : String × SettingKind := ("encoding", .plain)

/-- A setting that is a number, a truth value or a word. -/
def plainField (name : String) : String × SettingKind := (name, .plain)

/-- The commitment alone. -/
def commitment : Form := ⟨"Commitment", [commitmentField]⟩

/-- The commitment and the least slot. -/
def context : Form := ⟨"Context", [commitmentField, plainField "min_context_slot"]⟩

/-- The settings of account requests. -/
def accountInfo : Form := ⟨"AccountInfo", [commitmentField, encodingField,
  ("data_slice", .slice), plainField "min_context_slot"]⟩

/-- The settings of requests for the accounts of a program. -/
def programAccounts : Form := ⟨"ProgramAccounts", [commitmentField, encodingField,
  ("data_slice", .slice), ("filters", .filters), plainField "min_context_slot",
  plainField "with_context"]⟩

/-- The settings of status requests. -/
def signatureStatuses : Form := ⟨"SignatureStatuses", [plainField "search_transaction_history"]⟩

/-- The settings of requests for the signatures of an address. -/
def signaturesForAddress : Form := ⟨"SignaturesForAddress", [commitmentField,
  plainField "min_context_slot", plainField "limit", plainField "before", plainField "until"]⟩

/-- The settings of block requests. -/
def block : Form := ⟨"Block", [commitmentField, viewField, ("transaction_details", .details),
  plainField "rewards", plainField "max_supported_transaction_version"]⟩

/-- The settings of transaction requests. -/
def transaction : Form := ⟨"Transaction", [commitmentField, viewField,
  plainField "max_supported_transaction_version"]⟩

/-- The settings of sending. -/
def sendTransaction : Form := ⟨"SendTransaction", [encodingField, plainField "skip_preflight",
  ("preflight_commitment", .commitment), plainField "max_retries", plainField "min_context_slot"]⟩

/-- The settings of simulation. -/
def simulateTransaction : Form := ⟨"SimulateTransaction", [encodingField, plainField "sig_verify",
  plainField "replace_recent_blockhash", commitmentField, plainField "min_context_slot",
  plainField "inner_instructions", ("accounts", .accounts)]⟩

/-- The settings of requests for the voting accounts. -/
def voteAccounts : Form := ⟨"VoteAccounts", [commitmentField, ("vote_pubkey", .key),
  plainField "keep_unstaked_delinquents", plainField "delinquent_slot_distance"]⟩

/-- The settings of requests for the largest accounts. -/
def largestAccounts : Form := ⟨"LargestAccounts", [commitmentField, plainField "filter"]⟩

/-- The settings of supply requests. -/
def supply : Form := ⟨"Supply", [commitmentField,
  plainField "exclude_non_circulating_accounts_list"]⟩

/-- The settings of requests for produced blocks. -/
def blockProduction : Form := ⟨"BlockProduction", [commitmentField, ("identity", .key),
  ("range", .range)]⟩

/-- The settings of schedule requests. -/
def leaderSchedule : Form := ⟨"LeaderSchedule", [commitmentField, ("identity", .key)]⟩

/-- The settings of reward requests. -/
def inflationReward : Form := ⟨"InflationReward", [commitmentField, plainField "epoch",
  plainField "min_context_slot"]⟩

/-- The settings of requests for funds. -/
def airdrop : Form := ⟨"Airdrop", [commitmentField]⟩

/-- The settings of account subscriptions. -/
def accountSubscribe : Form := ⟨"AccountSubscribe", [commitmentField, encodingField]⟩

/-- The settings of program subscriptions. -/
def programSubscribe : Form := ⟨"ProgramSubscribe", [commitmentField, encodingField,
  ("filters", .filters)]⟩

/-- The settings of signature subscriptions. -/
def signatureSubscribe : Form := ⟨"SignatureSubscribe", [commitmentField,
  plainField "enable_received_notification"]⟩

/-- The settings of block subscriptions. -/
def blockSubscribe : Form := ⟨"BlockSubscribe", [commitmentField, viewField,
  ("transaction_details", .details), plainField "show_rewards",
  plainField "max_supported_transaction_version"]⟩

/-- All forms. -/
def all : List Form := [commitment, context, accountInfo, programAccounts, signatureStatuses,
  signaturesForAddress, block, transaction, sendTransaction, simulateTransaction, voteAccounts,
  largestAccounts, supply, blockProduction, leaderSchedule, inflationReward, airdrop,
  accountSubscribe, programSubscribe, signatureSubscribe, blockSubscribe]

/-- The form of a name. -/
def ofName? (name : String) : Option Form :=
  all.find? (·.name == name)

end Form

/-- The settings of a request. -/
structure Settings where
  /-- The form. -/
  form : Form
  /-- The value of each setting that is set. -/
  get? : String → Option Setting

namespace Settings

/-- Settings of which none is set. -/
def empty (form : Form) : Settings := ⟨form, fun _ => none⟩

/-- Settings with one of them set or unset. -/
def set (settings : Settings) (name : String) (setting : Option Setting) : Settings :=
  { settings with get? := fun n => if n = name then setting else settings.get? n }

/-- The form knows a setting of this name. -/
def knows (settings : Settings) (name : String) : Bool :=
  settings.form.fields.any (·.1 == name)

/-- A copy of settings with one of them set, which the form must know. -/
def replace (settings : Settings) (name : String) (setting : Setting) : Except Fault Settings :=
  if settings.knows name then return settings.set name (some setting) else throw (.misuse .type)

/-- No setting is set. -/
def isEmpty (settings : Settings) : Bool :=
  settings.form.fields.all fun (name, _) => (settings.get? name).isNone

/-- Settings on the wire: those that are set, in the order of the form. -/
def toJson (settings : Settings) : Value :=
  .obj (settings.form.fields.filterMap fun (name, _) =>
    (settings.get? name).map fun setting => (Camel.ofWords name, setting.toJson))

/-- Sets one setting by its name to a JSON value; `null` unsets it. -/
def put (settings : Settings) (member : String × Value) : Except Fault Settings :=
  match settings.form.fields.lookup member.1, member.2 with
  | none, _ => throw (.misuse .type)
  | some _, .null => return settings.set member.1 none
  | some kind, value => do return settings.set member.1 (some (← kind.read value))

/-- The settings of a form with these named values. -/
def ofJson (form : Form) : Value → Except Fault Settings
  | .obj members => members.foldlM put (empty form)
  | .null => return empty form
  | _ => throw (.misuse .type)

end Settings

end LedgerClient.Rpc
