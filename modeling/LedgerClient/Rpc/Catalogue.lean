import LedgerClient.Rpc.Feed
import LedgerClient.Rpc.Submission

/-!
# The catalogue

Calls and feeds by name, with named arguments. An argument is read by its name alone, so the same
name means the same kind of thing in every call.

## Main definitions

* `Rpc.Argument`, `Rpc.Arguments`: named arguments
* `Rpc.Argument.read`: an argument from a JSON value
* `Rpc.Listing`: a call or a feed of the catalogue
* `Rpc.Listing.ofName?`: the listing of a name
-/

namespace LedgerClient.Rpc

open Json (Value)

/-- An argument of a call. -/
inductive Argument
  | nothing
  | publicKey (key : PublicKey)
  | hash (hash : Hash)
  | signature (signature : Signature)
  | publicKeys (keys : List PublicKey)
  | signatures (signatures : List Signature)
  | number (n : Int)
  | word (text : String)
  | settings (settings : Settings)
  | filter (filter : Filter)
  | submission (submission : Submission)
  /-- The bytes of a message. -/
  | message (bytes : Bytes)

namespace Argument

/-- The bytes that hexadecimal digits write. -/
def bytes : Value → Except Fault Bytes
  | .str text => match Bytes.ofHex? text with
    | some bs => return bs
    | none => throw (.misuse .value)
  | _ => throw (.misuse .type)

/-- A message or a transaction: its bytes as they are, or checked to be one. -/
def encoded (kind : String) (check : Bytes → Except Fault Unit) (value : Value) :
    Except Fault Bytes := do
  match value.member? kind with
  | some data =>
    let bs ← bytes data
    check bs
    return bs
  | none => bytes (← Filter.readMember value "bytes")

/-- A submission: a transaction or bytes. -/
def readSubmission (value : Value) : Except Fault Submission := do
  match value.member? "transaction" with
  | some data => return .transaction (← Transaction.ofBytes (← bytes data))
  | none => return .bytes (← bytes (← Filter.readMember value "bytes"))

/-- An argument from a JSON value, by its name; settings need their form. -/
def read (form : Option Form) (name : String) (value : Value) : Except Fault Argument :=
  match name, value with
  | _, .null => return .nothing
  | "config", _ => match form with
    | some form => .settings <$> Settings.ofJson form value
    | none => throw (.misuse .type)
  | "blockhash", _ => .hash <$> Filter.readKey .hash value
  | "signature", _ => .signature <$> Filter.readKey .signature value
  | "signatures", _ => .signatures <$> Filter.readKeys .signature value
  | "accounts", _ | "addresses", _ => .publicKeys <$> Filter.readKeys .publicKey value
  | "account", _ | "program_id", _ | "table", _ | "owner", _ | "delegate", _ | "mint", _
  | "address", _ => .publicKey <$> Filter.readKey .publicKey value
  | "message", _ =>
    .message <$> encoded "message" (fun bs => (fun _ => ()) <$> Message.ofBytes bs) value
  | "transaction", _ => .submission <$> readSubmission value
  | _, .int n => return .number n
  | _, .str text => return .word text
  | _, .obj _ => .filter <$> Filter.ofJson value
  | _, _ => throw (.misuse .type)

end Argument

/-- Named arguments. -/
abbrev Arguments := List (String × Argument)

namespace Arguments

/-- The argument of a name; nothing if it is not given. -/
def get (args : Arguments) (name : String) : Argument :=
  (args.lookup name).getD .nothing

/-- A public key, which must be given. -/
def publicKey (args : Arguments) (name : String) : Except Fault PublicKey :=
  match args.get name with
  | .publicKey k => return k
  | _ => throw (.misuse .type)

/-- A hash, which must be given. -/
def hash (args : Arguments) (name : String) : Except Fault Hash :=
  match args.get name with
  | .hash h => return h
  | _ => throw (.misuse .type)

/-- A signature, which must be given. -/
def signature (args : Arguments) (name : String) : Except Fault Signature :=
  match args.get name with
  | .signature s => return s
  | _ => throw (.misuse .type)

/-- Public keys, none if they are not given. -/
def publicKeys (args : Arguments) (name : String) : List PublicKey :=
  match args.get name with
  | .publicKeys ks => ks
  | _ => []

/-- Public keys, which must be given. -/
def somePublicKeys (args : Arguments) (name : String) : Except Fault (List PublicKey) :=
  match args.get name with
  | .publicKeys ks => return ks
  | _ => throw (.misuse .type)

/-- Signatures, which must be given. -/
def signatures (args : Arguments) (name : String) : Except Fault (List Signature) :=
  match args.get name with
  | .signatures ss => return ss
  | _ => throw (.misuse .type)

/-- A number, if it is given. -/
def number? (args : Arguments) (name : String) : Option Int :=
  match args.get name with
  | .number n => some n
  | _ => none

/-- A number, which must be given. -/
def number (args : Arguments) (name : String) : Except Fault Int :=
  match args.number? name with
  | some n => return n
  | none => throw (.misuse .type)

/-- The settings, if they are given. -/
def settings (args : Arguments) : Option Settings :=
  match args.get "config" with
  | .settings s => some s
  | _ => none

/-- A filter, which must be given. -/
def filter (args : Arguments) (name : String) : Except Fault Filter :=
  match args.get name with
  | .filter f => return f
  | _ => throw (.misuse .type)

/-- A word or a filter; all if it is not given. -/
def about (args : Arguments) (name : String) : Except Fault Param :=
  match args.get name with
  | .nothing => return .plain (.str "all")
  | .word w => return .plain (.str w)
  | .filter f => return .filter f
  | _ => throw (.misuse .type)

/-- A message, which must be given. -/
def message (args : Arguments) : Except Fault Bytes :=
  match args.get "message" with
  | .message bs => return bs
  | _ => throw (.misuse .type)

/-- A submission, which must be given. -/
def submission (args : Arguments) : Except Fault Submission :=
  match args.get "transaction" with
  | .submission s => return s
  | _ => throw (.misuse .type)

/-- The name of the encoding of a submission, base64 if it is not given. -/
def encoding (args : Arguments) : Except Fault String :=
  match args.get "encoding" with
  | .nothing => return Encoding.base64.name
  | .word name => return name
  | _ => throw (.misuse .value)

end Arguments

/-- What a call of the catalogue gives. -/
inductive Outcome
  | reply (reply : Reply)
  | table (table : Option LookupTable)
  /-- The text of a result. -/
  | raw (text : Bytes)

/-- A call or a feed with the form of its settings, if it takes any. -/
inductive Listing
  | call (form : Option Form) (build : Arguments → Except Fault (Call Outcome))
  | feed (form : Option Form) (build : Arguments → Except Fault Feed)

namespace Listing

/-- The form of the settings. -/
def form : Listing → Option Form
  | .call form _ => form
  | .feed form _ => form

/-- A call without arguments. -/
def bare (call : Call Reply) : Listing :=
  .call none fun _ => return call.map .reply

/-- A call that takes only settings. -/
def tuned (form : Form) (build : Option Settings → Call Reply) : Listing :=
  .call form fun args => return (build args.settings).map .reply

/-- A call that takes arguments and maybe settings. -/
def taking (form : Option Form) (build : Arguments → Except Fault (Call Reply)) : Listing :=
  .call form fun args => do return (← build args).map .reply

/-- The calls of the service by name. -/
def calls : List (String × Listing) := [
  ("get_account_info", taking Form.accountInfo fun a => do
    return .getAccountInfo (← a.publicKey "account") a.settings),
  ("get_balance", taking Form.context fun a => do
    return .getBalance (← a.publicKey "account") a.settings),
  ("get_multiple_accounts", taking Form.accountInfo fun a => do
    Call.getMultipleAccounts (← a.somePublicKeys "accounts") a.settings),
  ("get_program_accounts", taking Form.programAccounts fun a => do
    return .getProgramAccounts (← a.publicKey "program_id") a.settings),
  ("get_largest_accounts", tuned .largestAccounts (.getLargestAccounts ·)),
  ("get_minimum_balance_for_rent_exemption", taking Form.commitment fun a => do
    return .getMinimumBalanceForRentExemption (← a.number "data_size") a.settings),
  ("get_address_lookup_table", .call Form.commitment fun a => do
    return (Call.getAddressLookupTable (← a.publicKey "table") a.settings).map .table),
  ("get_token_account_balance", taking Form.commitment fun a => do
    return .getTokenAccountBalance (← a.publicKey "account") a.settings),
  ("get_token_accounts_by_owner", taking Form.accountInfo fun a => do
    return .getTokenAccountsByOwner (← a.publicKey "owner") (← a.filter "account_filter")
      a.settings),
  ("get_token_accounts_by_delegate", taking Form.accountInfo fun a => do
    return .getTokenAccountsByDelegate (← a.publicKey "delegate") (← a.filter "account_filter")
      a.settings),
  ("get_token_largest_accounts", taking Form.commitment fun a => do
    return .getTokenLargestAccounts (← a.publicKey "mint") a.settings),
  ("get_token_supply", taking Form.commitment fun a => do
    return .getTokenSupply (← a.publicKey "mint") a.settings),
  ("get_latest_blockhash", tuned .context (.getLatestBlockhash ·)),
  ("is_blockhash_valid", taking Form.context fun a => do
    return .isBlockhashValid (← a.hash "blockhash") a.settings),
  ("get_block", taking Form.block fun a => do
    return .getBlock (← a.number "slot") a.settings),
  ("get_block_commitment", taking none fun a => do
    return .getBlockCommitment (← a.number "slot")),
  ("get_block_height", tuned .context (.getBlockHeight ·)),
  ("get_block_production", tuned .blockProduction (.getBlockProduction ·)),
  ("get_block_time", taking none fun a => do return .getBlockTime (← a.number "slot")),
  ("get_blocks", taking Form.commitment fun a => do
    return .getBlocks (← a.number "start_slot") (a.number? "end_slot") a.settings),
  ("get_blocks_with_limit", taking Form.commitment fun a => do
    return .getBlocksWithLimit (← a.number "start_slot") (← a.number "limit") a.settings),
  ("get_first_available_block", bare .getFirstAvailableBlock),
  ("get_slot", tuned .context (.getSlot ·)),
  ("get_slot_leader", tuned .context (.getSlotLeader ·)),
  ("get_slot_leaders", taking none fun a => do
    Call.getSlotLeaders (← a.number "start_slot") (← a.number "limit")),
  ("get_max_retransmit_slot", bare .getMaxRetransmitSlot),
  ("get_max_shred_insert_slot", bare .getMaxShredInsertSlot),
  ("get_highest_snapshot_slot", bare .getHighestSnapshotSlot),
  ("minimum_ledger_slot", bare .minimumLedgerSlot),
  ("get_recent_performance_samples", taking none fun a =>
    Call.getRecentPerformanceSamples (a.number? "limit")),
  ("get_recent_prioritization_fees", taking none fun a =>
    Call.getRecentPrioritizationFees (a.publicKeys "accounts")),
  ("get_epoch_info", tuned .context (.getEpochInfo ·)),
  ("get_epoch_schedule", bare .getEpochSchedule),
  ("get_leader_schedule", taking Form.leaderSchedule fun a =>
    return .getLeaderSchedule (a.number? "slot") a.settings),
  ("get_inflation_governor", tuned .commitment (.getInflationGovernor ·)),
  ("get_inflation_rate", bare .getInflationRate),
  ("get_inflation_reward", taking Form.inflationReward fun a => do
    return .getInflationReward (← a.somePublicKeys "addresses") a.settings),
  ("get_supply", tuned .supply (.getSupply ·)),
  ("get_stake_minimum_delegation", tuned .commitment (.getStakeMinimumDelegation ·)),
  ("get_cluster_nodes", bare .getClusterNodes),
  ("get_vote_accounts", tuned .voteAccounts (.getVoteAccounts ·)),
  ("get_genesis_hash", bare .getGenesisHash),
  ("get_health", bare .getHealth),
  ("get_identity", bare .getIdentity),
  ("get_version", bare .getVersion),
  ("get_transaction_count", tuned .context (.getTransactionCount ·)),
  ("get_fee_for_message", taking Form.context fun a => do
    return .getFeeForMessage (← a.message) a.settings),
  ("get_signature_statuses", taking Form.signatureStatuses fun a => do
    Call.getSignatureStatuses (← a.signatures "signatures") a.settings),
  ("get_signatures_for_address", taking Form.signaturesForAddress fun a => do
    return .getSignaturesForAddress (← a.publicKey "address") a.settings),
  ("get_transaction", taking Form.transaction fun a => do
    return .getTransaction (← a.signature "signature") a.settings),
  ("request_airdrop", taking Form.airdrop fun a => do
    return .requestAirdrop (← a.publicKey "account") (← a.number "lamports") a.settings),
  ("send_transaction", taking Form.sendTransaction fun a => do
    Call.submitting .send (← a.submission) a.settings (← a.encoding)),
  ("simulate_transaction", taking Form.simulateTransaction fun a => do
    Call.submitting .simulate (← a.submission) a.settings (← a.encoding))]

/-- The feeds of the service by name. -/
def feeds : List (String × Listing) := [
  ("account_subscribe", .feed Form.accountSubscribe fun a => do
    return .account (← a.publicKey "account") a.settings),
  ("program_subscribe", .feed Form.programSubscribe fun a => do
    return .program (← a.publicKey "program_id") a.settings),
  ("logs_subscribe", .feed Form.commitment fun a => do
    return .logs (← a.about "log_filter") a.settings),
  ("signature_subscribe", .feed Form.signatureSubscribe fun a => do
    return .signature (← a.signature "signature") a.settings),
  ("block_subscribe", .feed Form.blockSubscribe fun a => do
    return .block (← a.about "block_filter") a.settings),
  ("slot_subscribe", .feed none fun _ => return .slot),
  ("root_subscribe", .feed none fun _ => return .root)]

/-- The call or the feed of a name. -/
def ofName? (name : String) : Option Listing :=
  (calls ++ feeds).lookup name

/-- The arguments that an object names. -/
def arguments (listing : Listing) : Value → Except Fault Arguments
  | .obj members => members.mapM fun (name, value) => do
    return (name, ← Argument.read listing.form name value)
  | .null => return []
  | _ => throw (.misuse .type)

end Listing

end LedgerClient.Rpc
