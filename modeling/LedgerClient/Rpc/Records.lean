import LedgerClient.Rpc.Shape
import LedgerClient.Text.Camel

/-!
# The records of the service

The shapes of everything the service answers or notifies: accounts, tokens, blocks, epochs,
nodes, signatures and transactions. Names on the wire are in camel case, except those of the
version record.

## Main definitions

* `Rpc.Shape.orNull`, `Rpc.Shape.many`, `Rpc.Shape.withContext`: shapes made from shapes
* one shape for each record, such as `Rpc.Shape.accountInfo`
* `Rpc.Shape.named`: every record and notification by name
-/

namespace LedgerClient.Rpc

namespace Shape

/-- The shape, or nothing. -/
def orNull (shape : Shape) : Shape := shape ++ [.null]

/-- A list of items of the shape. -/
def many (shape : Shape) : Shape := [.list shape]

/-- A map to values of the shape. -/
def mapOf (shape : Shape) : Shape := [.map shape]

/-- Any JSON value. -/
def anything : Shape := [.any]

/-- A whole number. -/
def int : Shape := [.int]

/-- A number. -/
def float : Shape := [.float]

/-- A text. -/
def text : Shape := [.text]

/-- A truth value. -/
def bool : Shape := [.bool]

/-- A public key. -/
def publicKey : Shape := [.key .publicKey]

/-- A hash. -/
def hash : Shape := [.key .hash]

/-- A signature. -/
def signature : Shape := [.key .signature]

/-- A blob. -/
def blob : Shape := [.blob]

/-- A member that must be sent. -/
def required (name : String) (shape : Shape) : RecordField Alternative :=
  ⟨name, Camel.ofWords name, shape, none⟩

/-- A member with a default. -/
def defaulting (name : String) (shape : Shape) (absent : Reply) : RecordField Alternative :=
  ⟨name, Camel.ofWords name, shape, some absent⟩

/-- A member that may be missing or nothing. -/
def optional (name : String) (shape : Shape) : RecordField Alternative :=
  defaulting name shape.orNull .null

/-- A list that is empty when it is not sent. -/
def listed (name : String) (shape : Shape) : RecordField Alternative :=
  defaulting name shape.many (.list [])

/-- An error description, which may be any value. -/
def outcome : RecordField Alternative := defaulting "err" anything .null

/-- A record with these members. -/
def record (label : String) (fields : List (RecordField Alternative)) : Shape :=
  [.record label fields]

/-! ## Context -/

/-- The slot at which the service answered. -/
def context : Shape := record "RpcContext" [required "slot" int, optional "api_version" text]

/-- A value with the slot at which it was read. -/
def withContext (value : Shape) : Shape :=
  record "WithContext" [required "context" context, required "value" value]

/-! ## Accounts -/

/-- An account. -/
def accountInfo : Shape := record "AccountInfo" [
  required "lamports" int, required "owner" publicKey, required "data" blob,
  required "executable" bool, defaulting "rent_epoch" int (.plain (.int 0)), optional "space" int]

/-- An account with its key. -/
def keyedAccount : Shape := record "KeyedAccount" [
  required "pubkey" publicKey, required "account" accountInfo]

/-- The members of an amount of tokens. -/
def amountFields : List (RecordField Alternative) := [
  required "amount" text, required "decimals" int, optional "ui_amount" float,
  optional "ui_amount_string" text]

/-- An amount of tokens. -/
def tokenAmount : Shape := record "TokenAmount" amountFields

/-- One of the largest accounts of a token. -/
def tokenLargestAccount : Shape :=
  record "TokenLargestAccount" (required "address" publicKey :: amountFields)

/-- One of the largest accounts. -/
def largestAccount : Shape := record "LargestAccount" [
  required "address" publicKey, required "lamports" int]

/-- The supply. -/
def supply : Shape := record "Supply" [
  required "total" int, required "circulating" int, required "non_circulating" int,
  listed "non_circulating_accounts" publicKey]

/-! ## Blocks and slots -/

/-- The latest blockhash. -/
def latestBlockhash : Shape := record "LatestBlockhash" [
  required "blockhash" hash, required "last_valid_block_height" int]

/-- The stake that has voted on a block. -/
def blockCommitment : Shape := record "BlockCommitment" [
  required "total_stake" int, optional "commitment" int.many]

/-- A range of slots. -/
def blockProductionRange : Shape := record "BlockProductionRange" [
  required "first_slot" int, required "last_slot" int]

/-- The blocks that each node has produced. -/
def blockProduction : Shape := record "BlockProduction" [
  required "by_identity" int.many.mapOf, required "range" blockProductionRange]

/-- The current epoch. -/
def epochInfo : Shape := record "EpochInfo" [
  required "absolute_slot" int, required "block_height" int, required "epoch" int,
  required "slot_index" int, required "slots_in_epoch" int, optional "transaction_count" int]

/-- The schedule of epochs. -/
def epochSchedule : Shape := record "EpochSchedule" [
  required "slots_per_epoch" int, required "leader_schedule_slot_offset" int,
  required "warmup" bool, required "first_normal_epoch" int, required "first_normal_slot" int]

/-- The slots of the highest snapshots. -/
def highestSnapshotSlot : Shape := record "HighestSnapshotSlot" [
  required "full" int, optional "incremental" int]

/-- The identity of the node. -/
def identity : Shape := record "Identity" [required "identity" publicKey]

/-- The performance over some slots. -/
def performanceSample : Shape := record "PerformanceSample" [
  required "slot" int, required "num_transactions" int, required "num_slots" int,
  required "sample_period_secs" int, optional "num_non_vote_transactions" int]

/-- A fee that was paid for priority. -/
def prioritizationFee : Shape := record "PrioritizationFee" [
  required "slot" int, required "prioritization_fee" int]

/-! ## Nodes and inflation -/

/-- A node. -/
def clusterNode : Shape := record "ClusterNode" [
  required "pubkey" publicKey, optional "gossip" text, optional "tpu" text, optional "rpc" text,
  optional "version" text, optional "feature_set" int, optional "shred_version" int]

/-- A voting account. -/
def voteAccount : Shape := record "VoteAccount" [
  required "vote_pubkey" publicKey, required "node_pubkey" publicKey,
  required "activated_stake" int, required "epoch_vote_account" bool, required "commission" int,
  required "last_vote" int, optional "root_slot" int, listed "epoch_credits" int.many]

/-- The voting accounts, current and delinquent. -/
def voteAccounts : Shape := record "VoteAccounts" [
  required "current" voteAccount.many, required "delinquent" voteAccount.many]

/-- The version of the node; its names on the wire are joined by hyphens. -/
def version : Shape := record "Version" [
  ⟨"solana_core", "solana-core", text, none⟩,
  ⟨"feature_set", "feature-set", int.orNull, some .null⟩]

/-- The parameters of inflation. -/
def inflationGovernor : Shape := record "InflationGovernor" [
  required "initial" float, required "terminal" float, required "taper" float,
  required "foundation" float, required "foundation_term" float]

/-- The rates of inflation in an epoch. -/
def inflationRate : Shape := record "InflationRate" [
  required "total" float, required "validator" float, required "foundation" float,
  required "epoch" int]

/-- A reward paid for an epoch. -/
def inflationReward : Shape := record "InflationReward" [
  required "epoch" int, required "effective_slot" int, required "amount" int,
  required "post_balance" int, optional "commission" int]

/-! ## Signatures and transactions -/

/-- How far a transaction is confirmed. -/
def confirmation : RecordField Alternative :=
  optional "confirmation_status" [.word "processed", .word "confirmed", .word "finalized"]

/-- The status of a signature. -/
def signatureStatus : Shape := record "SignatureStatus" [
  required "slot" int, required "confirmations" int.orNull, outcome, confirmation]

/-- A signature of an address. -/
def signatureInfo : Shape := record "SignatureInfo" [
  required "signature" signature, required "slot" int, outcome, optional "memo" text,
  optional "block_time" int, confirmation]

/-- The token balance of an account of a transaction. -/
def tokenBalance : Shape := record "UiTokenBalance" [
  required "account_index" int, required "mint" publicKey, required "ui_token_amount" tokenAmount,
  optional "owner" publicKey, optional "program_id" publicKey]

/-- The addresses that a transaction loads from tables. -/
def loadedAddresses : Shape := record "LoadedAddresses" [
  listed "writable" publicKey, listed "readonly" publicKey]

/-- A reward of a block. -/
def reward : Shape := record "Reward" [
  required "pubkey" publicKey, required "lamports" int, required "post_balance" int,
  optional "reward_type" text, optional "commission" int]

/-- What came of a transaction. -/
def transactionMeta : Shape := record "TransactionMeta" [
  required "fee" int, outcome, listed "pre_balances" int, listed "post_balances" int,
  optional "inner_instructions" anything.many, optional "log_messages" text.many,
  optional "pre_token_balances" tokenBalance.many, optional "post_token_balances" tokenBalance.many,
  optional "rewards" reward.many, optional "loaded_addresses" loadedAddresses,
  optional "compute_units_consumed" int]

/-- The members of a transaction of a block. -/
def encodedTransactionFields : List (RecordField Alternative) := [
  required "transaction" anything, optional "meta" transactionMeta,
  optional "version" [.word "legacy", .int]]

/-- A transaction of a block. -/
def encodedTransaction : Shape := record "EncodedTransactionWithMeta" encodedTransactionFields

/-- A transaction with its slot. -/
def transactionWithMeta : Shape := record "TransactionWithMeta" (encodedTransactionFields ++ [
  defaulting "slot" int (.plain (.int 0)), optional "block_time" int])

/-- A block. -/
def block : Shape := record "Block" [
  required "blockhash" hash, required "previous_blockhash" hash, required "parent_slot" int,
  optional "transactions" encodedTransaction.many, optional "signatures" signature.many,
  optional "rewards" reward.many, optional "block_time" int, optional "block_height" int]

/-- What a simulation gave. -/
def simulateResult : Shape := record "SimulateResult" [
  outcome, optional "logs" text.many, optional "accounts" accountInfo.orNull.many,
  optional "units_consumed" int, defaulting "return_data" anything .null]

/-! ## Notifications -/

/-- A new slot. -/
def slotInfo : Shape := record "SlotInfo" [
  required "slot" int, required "parent" int, required "root" int]

/-- The log of a transaction. -/
def logsResult : Shape := record "LogsResult" [
  required "signature" signature, outcome, listed "logs" text]

/-- What came of a signature. -/
def signatureResult : Shape := record "SignatureResult" [outcome]

/-- A new block. -/
def blockUpdate : Shape := record "BlockUpdate" [
  required "slot" int, optional "block" block, outcome]

/-- A changed account. -/
def accountNotification : Shape := accountInfo.withContext

/-- A changed account of a program. -/
def programNotification : Shape := keyedAccount.withContext

/-- New logs. -/
def logsNotification : Shape := logsResult.withContext

/-- A new block. -/
def blockNotification : Shape := blockUpdate.withContext

/-- A signature that was received or processed. -/
def signatureNotification : Shape :=
  withContext (signatureResult ++ [Alternative.word "receivedSignature"])

/-- Every record and notification by its name. -/
def named : List (String × Shape) := [
  ("RpcContext", context), ("AccountInfo", accountInfo), ("KeyedAccount", keyedAccount),
  ("TokenAmount", tokenAmount), ("TokenLargestAccount", tokenLargestAccount),
  ("LargestAccount", largestAccount), ("Supply", supply), ("LatestBlockhash", latestBlockhash),
  ("BlockCommitment", blockCommitment), ("BlockProductionRange", blockProductionRange),
  ("BlockProduction", blockProduction), ("EpochInfo", epochInfo), ("EpochSchedule", epochSchedule),
  ("HighestSnapshotSlot", highestSnapshotSlot), ("Identity", identity),
  ("PerformanceSample", performanceSample), ("PrioritizationFee", prioritizationFee),
  ("ClusterNode", clusterNode), ("VoteAccount", voteAccount), ("VoteAccounts", voteAccounts),
  ("Version", version), ("InflationGovernor", inflationGovernor),
  ("InflationRate", inflationRate), ("InflationReward", inflationReward),
  ("SignatureStatus", signatureStatus), ("SignatureInfo", signatureInfo),
  ("UiTokenBalance", tokenBalance), ("LoadedAddresses", loadedAddresses), ("Reward", reward),
  ("TransactionMeta", transactionMeta), ("EncodedTransactionWithMeta", encodedTransaction),
  ("TransactionWithMeta", transactionWithMeta), ("Block", block),
  ("SimulateResult", simulateResult), ("SlotInfo", slotInfo), ("LogsResult", logsResult),
  ("SignatureResult", signatureResult), ("BlockUpdate", blockUpdate),
  ("AccountNotification", accountNotification), ("ProgramNotification", programNotification),
  ("LogsNotification", logsNotification), ("BlockNotification", blockNotification),
  ("SignatureNotification", signatureNotification)]

end Shape

end LedgerClient.Rpc
