import LedgerClient.Fault
import LedgerClient.Host
import LedgerClient.Text.Numeral

/-!
# Client configuration

A client knows where the service is, how long to wait, and how much to send and to hold. The
configuration comes from a cluster's name, from environment variables, or from single settings;
its three limits are positive. The host that the client runs on is kept with it, though it is no
setting.

## Main definitions

* `Cluster`: the clusters and their addresses
* `Overflow`: what happens to a subscriber that falls behind
* `Config`, `Config.Draft`: a configuration, and one whose limits are not checked yet
* `Config.ofCluster`, `Config.ofEnvironment`: configurations by name and from variables
* `Config.channelUrl`: the address of the duplex channel
-/

namespace LedgerClient

/-- A cluster of the service. -/
inductive Cluster
  | mainnetBeta
  | testnet
  | devnet
  | localnet
  deriving DecidableEq, Repr

namespace Cluster

/-- The name of a cluster. -/
def name : Cluster → String
  | .mainnetBeta => "mainnet-beta"
  | .testnet => "testnet"
  | .devnet => "devnet"
  | .localnet => "localnet"

/-- The address for requests. -/
def url : Cluster → String
  | .mainnetBeta => "https://api.mainnet-beta.solana.com"
  | .testnet => "https://api.testnet.solana.com"
  | .devnet => "https://api.devnet.solana.com"
  | .localnet => "http://localhost:8899"

/-- The address of the duplex channel. -/
def channelUrl : Cluster → String
  | .mainnetBeta => "wss://api.mainnet-beta.solana.com"
  | .testnet => "wss://api.testnet.solana.com"
  | .devnet => "wss://api.devnet.solana.com"
  | .localnet => "ws://localhost:8900"

/-- The cluster of a name. -/
def ofName (name : String) : Except Fault Cluster :=
  match [mainnetBeta, testnet, devnet, localnet].find? (·.name == name) with
  | some cluster => return cluster
  | none => throw (.invalid (.unknownCluster name))

end Cluster

/-- What happens when the queue of a subscriber is full. -/
inductive Overflow
  /-- The subscription ends. -/
  | lag
  /-- The channel waits for the subscriber. -/
  | block
  /-- The newest notification is dropped. -/
  | drop
  deriving DecidableEq, Repr

namespace Overflow

/-- The name of a policy. -/
def name : Overflow → String
  | .lag => "lag"
  | .block => "block"
  | .drop => "drop"

/-- The policy of a name. -/
def ofName? (text : String) : Option Overflow :=
  [lag, block, drop].find? (·.name == text)

end Overflow

/-- The configuration of a client. -/
structure Config where
  /-- The address for requests. -/
  url : String := Cluster.mainnetBeta.url
  /-- The address of the duplex channel, if it is given. -/
  channel : Option String := none
  /-- The seconds to wait for a reply, if there is a bound. -/
  timeout : Option Float := some 30
  /-- The greatest number of requests in a batch. -/
  batchLimit : Nat := 100
  /-- The greatest number of bytes in a response. -/
  responseLimit : Nat := 64 * 1024 * 1024
  /-- The greatest number of notifications a subscriber may leave waiting. -/
  queueSize : Nat := 1024
  /-- What happens beyond that number. -/
  overflow : Overflow := .lag
  /-- Headers sent with each request. -/
  headers : List (String × String) := []
  /-- The host that the client runs on. -/
  host : Host := .plain
  batchLimit_pos : 0 < batchLimit := by decide
  responseLimit_pos : 0 < responseLimit := by decide
  queueSize_pos : 0 < queueSize := by decide

/-- A configuration whose limits are not checked yet. -/
structure Config.Draft where
  /-- The address for requests. -/
  url : String := Cluster.mainnetBeta.url
  /-- The address of the duplex channel, if it is given. -/
  channel : Option String := none
  /-- The seconds to wait for a reply, if there is a bound. -/
  timeout : Option Float := some 30
  /-- The greatest number of requests in a batch. -/
  batchLimit : Int := 100
  /-- The greatest number of bytes in a response. -/
  responseLimit : Int := 64 * 1024 * 1024
  /-- The greatest number of notifications a subscriber may leave waiting. -/
  queueSize : Int := 1024
  /-- What happens beyond that number. -/
  overflow : Overflow := .lag
  /-- Headers sent with each request. -/
  headers : List (String × String) := []

namespace Config

/-- A draft of a cluster's configuration. -/
def Draft.ofCluster (cluster : Cluster) : Draft :=
  { url := cluster.url, channel := some cluster.channelUrl }

/-- The configuration of a draft; its limits are checked in turn. -/
def Draft.check (draft : Draft) : Except Fault Config :=
  if batch : draft.batchLimit < 1 then .error (.invalid .batchLimitRange)
  else if response : draft.responseLimit < 1 then .error (.invalid .responseLimitRange)
  else if queue : draft.queueSize < 1 then .error (.invalid .queueSizeRange)
  else .ok
    { url := draft.url, channel := draft.channel, timeout := draft.timeout
      batchLimit := draft.batchLimit.toNat, responseLimit := draft.responseLimit.toNat
      queueSize := draft.queueSize.toNat, overflow := draft.overflow, headers := draft.headers
      batchLimit_pos := by omega
      responseLimit_pos := by omega
      queueSize_pos := by omega }

/-- The configuration of a cluster. -/
def ofCluster (cluster : Cluster) : Except Fault Config :=
  (Draft.ofCluster cluster).check

/-- A text shortened to two hundred characters. -/
def shortened (text : String) : String :=
  String.ofList (text.toList.take 200)

/-- The wording of a setting that is no number. -/
def decimalText (text : String) : String :=
  s!"could not convert string to float: {Quoted.quote text}"

/-- The wording of a setting that is no whole number. -/
def integerText : Numeral.Fault → String
  | .malformed text => s!"invalid literal for int() with base 10: {shortened (Quoted.quote text)}"
  | .tooLong digits =>
    s!"Exceeds the limit ({Numeral.maxDigits} digits) for integer string conversion: " ++
      s!"value has {digits} digits; use sys.set_int_max_str_digits() to increase the limit"

/-- A variable that is set to something. -/
def filled (environment : String → Option String) (name : String) : Option String :=
  (environment name).filter (· ≠ "")

/-- The draft that an environment describes. -/
def Draft.ofEnvironment (environment : String → Option String) (base : Draft) :
    Except Fault Draft := do
  let url := (environment "SOLKIT_RPC_URL").getD base.url
  let channel := (environment "SOLKIT_WS_URL").or base.channel
  let timeout ← match filled environment "SOLKIT_TIMEOUT" with
    | none => pure base.timeout
    | some text => match Numeral.decimal? text with
      | some x => pure (some x)
      | none => throw (.invalid (.setting (decimalText text)))
  let batchLimit ← match filled environment "SOLKIT_BATCH_LIMIT" with
    | none => pure base.batchLimit
    | some text => match Numeral.integer? text with
      | .ok n => pure n
      | .error fault => throw (.invalid (.setting (integerText fault)))
  return { base with url, channel, timeout, batchLimit }

/-- The configuration that an environment describes. -/
def ofEnvironment (environment : String → Option String) : Except Fault Config := do
  let cluster ← Cluster.ofName ((environment "SOLKIT_CLUSTER").getD Cluster.mainnetBeta.name)
  let draft ← Draft.ofEnvironment environment (.ofCluster cluster)
  draft.check.mapError fun fault => .invalid (.setting fault.message)

/-- The text after a lead. -/
def after? (lead text : String) : Option String :=
  if lead.toList.isPrefixOf text.toList then
    some (String.ofList (text.toList.drop lead.toList.length))
  else none

/-- The duplex channel of a local node has the next number after its usual one. -/
def channelHost (host : String) : String :=
  match after? "localhost:8899" host, after? "127.0.0.1:8899" host with
  | some rest, _ => "localhost:8900" ++ rest
  | none, some rest => "127.0.0.1:8900" ++ rest
  | none, none => host

/-- The address of the duplex channel: the one given, or the one that the address for requests
suggests. -/
def channelUrl (config : Config) : String :=
  match config.channel.filter (· ≠ "") with
  | some url => url
  | none => match after? "https://" config.url, after? "http://" config.url with
    | some rest, _ => "wss://" ++ rest
    | none, some host => "ws://" ++ channelHost host
    | none, none => config.url

end Config

end LedgerClient
