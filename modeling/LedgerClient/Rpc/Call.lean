import LedgerClient.Address.WellKnown
import LedgerClient.LookupTable
import LedgerClient.Rpc.Records
import LedgerClient.Rpc.Request

/-!
# Calls

A call is a method with parameters and a reader for the text of its result. This module has one
function for each call of the service, named for it; the few that take lists or numbers of items
refuse more than the service does.

## Main definitions

* `Rpc.Call`: a call
* `Rpc.Call.reading`: a call whose result has a shape
* one function for each call, such as `Rpc.Call.getBalance`
* `Rpc.Call.raw`: a call of any method
-/

namespace LedgerClient.Rpc

open Json (Value)

/-- A call: what is sent, and how the text of the result is read on a host. -/
structure Call (α : Type) where
  /-- The method. -/
  method : String
  /-- The parameters. -/
  params : List Param
  /-- The reader of the result. -/
  read : Bytes → Host → Except Fault α

/-- The same call with its result put through a function. -/
def Call.map {α β : Type} (f : α → β) (call : Call α) : Call β :=
  { call with read := fun text host => f <$> call.read text host }

/-- No more items than the service takes. -/
def demandAtMost (name : String) (count limit : Nat) : Except Fault Unit :=
  if limit < count then throw (.limit (.items name count limit)) else return

namespace Call

/-- A call whose result has a shape. -/
def reading (method : String) (params : List Param) (settings : Option Settings) (shape : Shape) :
    Call Reply :=
  ⟨method, withSettings params settings, fun text host => shape.decode text host⟩

/-- A parameter that is a public key. -/
def key (key : PublicKey) : Param := .key .publicKey key

/-- A parameter that is a list of keys. -/
def keys {kind : KeyKind} (keys : List (Key kind)) : Param := .list (keys.map (.key kind))

/-- A parameter that is a number. -/
def number (n : Int) : Param := .plain (.int n)

/-- Settings of a form that ask for base64. -/
def inBase64 (form : Form) : Settings :=
  (Settings.empty form).set "encoding" (some (.encoding .base64))

/-! ## Accounts -/

/-- An account. -/
def getAccountInfo (account : PublicKey) (settings : Option Settings := none) : Call Reply :=
  reading "getAccountInfo" [key account] (settings.getD (inBase64 .accountInfo))
    Shape.accountInfo.orNull.withContext

/-- The balance of an account. -/
def getBalance (account : PublicKey) (settings : Option Settings := none) : Call Reply :=
  reading "getBalance" [key account] settings Shape.int.withContext

/-- The greatest number of accounts asked for at once. -/
def maxAccounts : Nat := 100

/-- Several accounts. -/
def getMultipleAccounts (accounts : List PublicKey) (settings : Option Settings := none) :
    Except Fault (Call Reply) := do
  demandAtMost "getMultipleAccounts" accounts.length maxAccounts
  return reading "getMultipleAccounts" [keys accounts] (settings.getD (inBase64 .accountInfo))
    Shape.accountInfo.orNull.many.withContext

/-- The setting is a value that counts as true. -/
def isSet (settings : Settings) (name : String) : Bool :=
  match settings.get? name with
  | some (.plain (.bool b)) => b
  | some (.plain (.int n)) => n != 0
  | some (.plain .null) | none => false
  | some (.plain (.str text)) => text != ""
  | some _ => true

/-- The accounts of a program, without the context even if the settings ask for it. -/
def getProgramAccounts (program : PublicKey) (settings : Option Settings := none) : Call Reply :=
  let settings := settings.getD (inBase64 .programAccounts)
  let accounts := Shape.keyedAccount.many
  if isSet settings "with_context" then
    (reading "getProgramAccounts" [key program] settings accounts.withContext).map
      (Reply.member "value")
  else reading "getProgramAccounts" [key program] settings accounts

/-- The largest accounts. -/
def getLargestAccounts (settings : Option Settings := none) : Call Reply :=
  reading "getLargestAccounts" [] settings Shape.largestAccount.many.withContext

/-- The balance that exempts an account of a size from rent. -/
def getMinimumBalanceForRentExemption (size : Int) (settings : Option Settings := none) :
    Call Reply :=
  reading "getMinimumBalanceForRentExemption" [number size] settings Shape.int

/-- The lookup table in an account, if there is an account. -/
def tableOf (table : PublicKey) (account : Reply) : Except Fault (Option LookupTable) :=
  match account.member "owner", account.member "data" with
  | .key .publicKey owner, .blob data =>
    if owner ≠ WellKnown.addressLookupTableProgram then throw (.invalid (.notLookupTable table))
    else some <$> LookupTable.ofBytes table data.data
  | _, _ => return none

/-- A lookup table, as messages are compiled with it. -/
def getAddressLookupTable (table : PublicKey) (settings : Option Settings := none) :
    Call (Option LookupTable) :=
  let commitment := settings.bind (·.get? "commitment")
  let call := getAccountInfo table (some ((inBase64 .accountInfo).set "commitment" commitment))
  { method := call.method, params := call.params
    read := fun text host => do tableOf table ((← call.read text host).member "value") }

/-! ## Tokens -/

/-- The balance of a token account. -/
def getTokenAccountBalance (account : PublicKey) (settings : Option Settings := none) :
    Call Reply :=
  reading "getTokenAccountBalance" [key account] settings Shape.tokenAmount.withContext

/-- The token accounts of an owner. -/
def getTokenAccountsByOwner (owner : PublicKey) (filter : Filter)
    (settings : Option Settings := none) : Call Reply :=
  reading "getTokenAccountsByOwner" [key owner, .filter filter]
    (settings.getD (inBase64 .accountInfo)) Shape.keyedAccount.many.withContext

/-- The token accounts of a delegate. -/
def getTokenAccountsByDelegate (delegate : PublicKey) (filter : Filter)
    (settings : Option Settings := none) : Call Reply :=
  reading "getTokenAccountsByDelegate" [key delegate, .filter filter]
    (settings.getD (inBase64 .accountInfo)) Shape.keyedAccount.many.withContext

/-- The largest accounts of a token. -/
def getTokenLargestAccounts (mint : PublicKey) (settings : Option Settings := none) : Call Reply :=
  reading "getTokenLargestAccounts" [key mint] settings Shape.tokenLargestAccount.many.withContext

/-- The supply of a token. -/
def getTokenSupply (mint : PublicKey) (settings : Option Settings := none) : Call Reply :=
  reading "getTokenSupply" [key mint] settings Shape.tokenAmount.withContext

/-! ## Blocks and slots -/

/-- The latest blockhash. -/
def getLatestBlockhash (settings : Option Settings := none) : Call Reply :=
  reading "getLatestBlockhash" [] settings Shape.latestBlockhash.withContext

/-- Whether a blockhash is still valid. -/
def isBlockhashValid (blockhash : Hash) (settings : Option Settings := none) : Call Reply :=
  reading "isBlockhashValid" [.key .hash blockhash] settings Shape.bool.withContext

/-- A block. -/
def getBlock (slot : Int) (settings : Option Settings := none) : Call Reply :=
  reading "getBlock" [number slot] settings Shape.block.orNull

/-- The stake that has voted on a block. -/
def getBlockCommitment (slot : Int) : Call Reply :=
  reading "getBlockCommitment" [number slot] none Shape.blockCommitment

/-- The number of blocks. -/
def getBlockHeight (settings : Option Settings := none) : Call Reply :=
  reading "getBlockHeight" [] settings Shape.int

/-- The blocks that each node has produced. -/
def getBlockProduction (settings : Option Settings := none) : Call Reply :=
  reading "getBlockProduction" [] settings Shape.blockProduction.withContext

/-- The time of a block. -/
def getBlockTime (slot : Int) : Call Reply :=
  reading "getBlockTime" [number slot] none Shape.int.orNull

/-- The slots with blocks from one slot on, up to another if it is given. -/
def getBlocks (first : Int) (last : Option Int := none) (settings : Option Settings := none) :
    Call Reply :=
  reading "getBlocks" (number first :: (last.map number).toList) settings Shape.int.many

/-- A number of slots with blocks from one slot on. -/
def getBlocksWithLimit (first count : Int) (settings : Option Settings := none) : Call Reply :=
  reading "getBlocksWithLimit" [number first, number count] settings Shape.int.many

/-- The first block that is still there. -/
def getFirstAvailableBlock : Call Reply :=
  reading "getFirstAvailableBlock" [] none Shape.int

/-- The current slot. -/
def getSlot (settings : Option Settings := none) : Call Reply :=
  reading "getSlot" [] settings Shape.int

/-- The leader of the current slot. -/
def getSlotLeader (settings : Option Settings := none) : Call Reply :=
  reading "getSlotLeader" [] settings Shape.publicKey

/-- The greatest number of slot leaders asked for. -/
def maxSlotLeaders : Nat := 5000

/-- The leaders of a number of slots. -/
def getSlotLeaders (first count : Int) : Except Fault (Call Reply) := do
  demandAtMost "getSlotLeaders" count.toNat maxSlotLeaders
  return reading "getSlotLeaders" [number first, number count] none Shape.publicKey.many

/-- The greatest slot that was retransmitted. -/
def getMaxRetransmitSlot : Call Reply :=
  reading "getMaxRetransmitSlot" [] none Shape.int

/-- The greatest slot that was inserted. -/
def getMaxShredInsertSlot : Call Reply :=
  reading "getMaxShredInsertSlot" [] none Shape.int

/-- The slots of the highest snapshots. -/
def getHighestSnapshotSlot : Call Reply :=
  reading "getHighestSnapshotSlot" [] none Shape.highestSnapshotSlot

/-- The lowest slot that the node knows. -/
def minimumLedgerSlot : Call Reply :=
  reading "minimumLedgerSlot" [] none Shape.int

/-- The greatest number of performance samples asked for. -/
def maxSamples : Nat := 720

/-- Recent performance samples. -/
def getRecentPerformanceSamples (count : Option Int := none) : Except Fault (Call Reply) := do
  demandAtMost "getRecentPerformanceSamples" (count.getD 0).toNat maxSamples
  return reading "getRecentPerformanceSamples" (count.map number).toList none
    Shape.performanceSample.many

/-- The greatest number of accounts whose fees are asked for. -/
def maxFeeAccounts : Nat := 128

/-- Fees recently paid for priority, to some accounts if there are any. -/
def getRecentPrioritizationFees (accounts : List PublicKey := []) :
    Except Fault (Call Reply) := do
  demandAtMost "getRecentPrioritizationFees" accounts.length maxFeeAccounts
  return reading "getRecentPrioritizationFees" (if accounts.isEmpty then [] else [keys accounts])
    none Shape.prioritizationFee.many

/-! ## Epochs, inflation, nodes -/

/-- The current epoch. -/
def getEpochInfo (settings : Option Settings := none) : Call Reply :=
  reading "getEpochInfo" [] settings Shape.epochInfo

/-- The schedule of epochs. -/
def getEpochSchedule : Call Reply :=
  reading "getEpochSchedule" [] none Shape.epochSchedule

/-- The schedule of leaders; settings keep the place of a slot that is not given. -/
def getLeaderSchedule (slot : Option Int := none) (settings : Option Settings := none) :
    Call Reply :=
  let params := withSettings [(slot.map number).getD (.plain .null)] settings
  let params := if slot.isNone ∧ params.length = 1 then [] else params
  ⟨"getLeaderSchedule", params, fun text host => Shape.int.many.mapOf.orNull.decode text host⟩

/-- The parameters of inflation. -/
def getInflationGovernor (settings : Option Settings := none) : Call Reply :=
  reading "getInflationGovernor" [] settings Shape.inflationGovernor

/-- The rates of inflation. -/
def getInflationRate : Call Reply :=
  reading "getInflationRate" [] none Shape.inflationRate

/-- The rewards of addresses. -/
def getInflationReward (addresses : List PublicKey) (settings : Option Settings := none) :
    Call Reply :=
  reading "getInflationReward" [keys addresses] settings Shape.inflationReward.orNull.many

/-- The supply. -/
def getSupply (settings : Option Settings := none) : Call Reply :=
  reading "getSupply" [] settings Shape.supply.withContext

/-- The least amount that can be delegated. -/
def getStakeMinimumDelegation (settings : Option Settings := none) : Call Reply :=
  reading "getStakeMinimumDelegation" [] settings Shape.int.withContext

/-- The nodes. -/
def getClusterNodes : Call Reply :=
  reading "getClusterNodes" [] none Shape.clusterNode.many

/-- The voting accounts. -/
def getVoteAccounts (settings : Option Settings := none) : Call Reply :=
  reading "getVoteAccounts" [] settings Shape.voteAccounts

/-- The hash of the first block. -/
def getGenesisHash : Call Reply :=
  reading "getGenesisHash" [] none Shape.hash

/-- The health of the node; a node that is not well answers with an error. -/
def getHealth : Call Reply :=
  reading "getHealth" [] none Shape.text

/-- The identity of the node. -/
def getIdentity : Call Reply :=
  reading "getIdentity" [] none Shape.identity

/-- The version of the node. -/
def getVersion : Call Reply :=
  reading "getVersion" [] none Shape.version

/-- The number of transactions. -/
def getTransactionCount (settings : Option Settings := none) : Call Reply :=
  reading "getTransactionCount" [] settings Shape.int

/-! ## Signatures and transactions -/

/-- The fee of a message, given by its bytes. -/
def getFeeForMessage (message : Bytes) (settings : Option Settings := none) : Call Reply :=
  reading "getFeeForMessage" [.plain (.str (Base64.encode message))] settings
    Shape.int.orNull.withContext

/-- The greatest number of signatures whose statuses are asked for. -/
def maxStatuses : Nat := 256

/-- The statuses of signatures. -/
def getSignatureStatuses (signatures : List Signature) (settings : Option Settings := none) :
    Except Fault (Call Reply) := do
  demandAtMost "getSignatureStatuses" signatures.length maxStatuses
  return reading "getSignatureStatuses" [keys signatures] settings
    Shape.signatureStatus.orNull.many.withContext

/-- The signatures of an address. -/
def getSignaturesForAddress (address : PublicKey) (settings : Option Settings := none) :
    Call Reply :=
  reading "getSignaturesForAddress" [key address] settings Shape.signatureInfo.many

/-- Settings that ask for transactions of any version in base64. -/
def plainTransactions : Settings :=
  ((Settings.empty .transaction).set "encoding" (some (.plain (.str Encoding.base64.name)))).set
    "max_supported_transaction_version" (some (.plain (.int 0)))

/-- A transaction. -/
def getTransaction (signature : Signature) (settings : Option Settings := none) : Call Reply :=
  reading "getTransaction" [.key .signature signature] (settings.getD plainTransactions)
    Shape.transactionWithMeta.orNull

/-- Funds for an account. -/
def requestAirdrop (account : PublicKey) (amount : Int) (settings : Option Settings := none) :
    Call Reply :=
  reading "requestAirdrop" [key account, number amount] settings Shape.signature

/-! ## Any method -/

/-- A call of any method; its result stays a text. -/
def raw (method : String) (params : List Param) : Call Bytes :=
  ⟨method, params, fun text _ => return text⟩

end Call

end LedgerClient.Rpc
