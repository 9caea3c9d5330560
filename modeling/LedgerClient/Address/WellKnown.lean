import LedgerClient.Key

/-!
# Well-known accounts

The ids of the native programs and of the token programs, and the addresses of the sysvars.

## Main definitions

* `WellKnown.ofText`: the account of a base58 text of this module
* `WellKnown.all`: every account with its name
-/

namespace LedgerClient.WellKnown

/-- The account of a base58 text. -/
def ofText (text : String) : PublicKey :=
  Key.ofRightmost .publicKey ((Base58.decode? text).getD [])

/-- The account that creates accounts and moves lamports. -/
def systemProgram : PublicKey :=
  ofText "11111111111111111111111111111111"

/-- The account that keeps configuration accounts. -/
def configProgram : PublicKey :=
  ofText "Config1111111111111111111111111111111111111"

/-- The account that keeps stake accounts. -/
def stakeProgram : PublicKey :=
  ofText "Stake11111111111111111111111111111111111111"

/-- The account that keeps vote accounts. -/
def voteProgram : PublicKey :=
  ofText "Vote111111111111111111111111111111111111111"

/-- The account that loaded programs first. -/
def deprecatedLoader : PublicKey :=
  ofText "BPFLoader1111111111111111111111111111111111"

/-- The account that loads programs that cannot be changed. -/
def loader : PublicKey :=
  ofText "BPFLoader2111111111111111111111111111111111"

/-- The account that loads programs that can be changed. -/
def upgradeableLoader : PublicKey :=
  ofText "BPFLoaderUpgradeab1e11111111111111111111111"

/-- The account that checks secp256k1 signatures. -/
def secp256k1Program : PublicKey :=
  ofText "KeccakSecp256k11111111111111111111111111111"

/-- The account that checks Ed25519 signatures. -/
def ed25519Program : PublicKey :=
  ofText "Ed25519SigVerify111111111111111111111111111"

/-- The account that owns feature accounts. -/
def featureProgram : PublicKey :=
  ofText "Feature111111111111111111111111111111111111"

/-- The account that sets the resources of a transaction. -/
def computeBudgetProgram : PublicKey :=
  ofText "ComputeBudget111111111111111111111111111111"

/-- The account that owns address lookup tables. -/
def addressLookupTableProgram : PublicKey :=
  ofText "AddressLookupTab1e1111111111111111111111111"

/-- The account that keeps tokens. -/
def tokenProgram : PublicKey :=
  ofText "TokenkegQfeZyiNwAJbNbGKPFXCWuBvf9Ss623VQ5DA"

/-- The account that keeps tokens with extensions. -/
def token2022Program : PublicKey :=
  ofText "TokenzQdBNbLqP5VEhdkAS6EPFLC1PHnBqCXEpPxuEb"

/-- The account that creates the canonical token accounts. -/
def associatedTokenProgram : PublicKey :=
  ofText "ATokenGPvbdGVxr1b2hvZbsiqW5xWH25efTNsLJA8knL"

/-- The account that records memos. -/
def memoProgram : PublicKey :=
  ofText "MemoSq4gqABAXKb96qnH8TysNcWxMyWCqXgDLGmfcHr"

/-- The account that describes tokens. -/
def tokenMetadataProgram : PublicKey :=
  ofText "metaqbxxUerdq28cj1RbAWkYQm3ybzjb6a8bt518x1s"

/-- The account that mints wrapped lamports. -/
def wrappedSolMint : PublicKey :=
  ofText "So11111111111111111111111111111111111111112"

/-- The account that owns the sysvar accounts. -/
def sysvarProgram : PublicKey :=
  ofText "Sysvar1111111111111111111111111111111111111"

/-- The account that holds the clock. -/
def sysvarClock : PublicKey :=
  ofText "SysvarC1ock11111111111111111111111111111111"

/-- The account that holds recent blockhashes. -/
def sysvarRecentBlockhashes : PublicKey :=
  ofText "SysvarRecentB1ockHashes11111111111111111111"

/-- The account that holds the rent rates. -/
def sysvarRent : PublicKey :=
  ofText "SysvarRent111111111111111111111111111111111"

/-- The account that holds the rewards. -/
def sysvarRewards : PublicKey :=
  ofText "SysvarRewards111111111111111111111111111111"

/-- The account that holds the stake history. -/
def sysvarStakeHistory : PublicKey :=
  ofText "SysvarStakeHistory1111111111111111111111111"

/-- The account that holds the instructions of the running transaction. -/
def sysvarInstructions : PublicKey :=
  ofText "Sysvar1nstructions1111111111111111111111111"

/-- The account that holds the hashes of recent slots. -/
def sysvarSlotHashes : PublicKey :=
  ofText "SysvarS1otHashes111111111111111111111111111"

/-- The account that holds the stake configuration. -/
def stakeConfig : PublicKey :=
  ofText "StakeConfig11111111111111111111111111111111"

/-- Every account with its name. -/
def all : List (String × PublicKey) := [
  ("SYSTEM_PROGRAM_ID", systemProgram),
  ("CONFIG_PROGRAM_ID", configProgram),
  ("STAKE_PROGRAM_ID", stakeProgram),
  ("VOTE_PROGRAM_ID", voteProgram),
  ("BPF_LOADER_DEPRECATED_PROGRAM_ID", deprecatedLoader),
  ("BPF_LOADER_PROGRAM_ID", loader),
  ("BPF_LOADER_UPGRADEABLE_PROGRAM_ID", upgradeableLoader),
  ("SECP256K1_PROGRAM_ID", secp256k1Program),
  ("ED25519_PROGRAM_ID", ed25519Program),
  ("FEATURE_PROGRAM_ID", featureProgram),
  ("COMPUTE_BUDGET_PROGRAM_ID", computeBudgetProgram),
  ("ADDRESS_LOOKUP_TABLE_PROGRAM_ID", addressLookupTableProgram),
  ("TOKEN_PROGRAM_ID", tokenProgram),
  ("TOKEN_2022_PROGRAM_ID", token2022Program),
  ("ASSOCIATED_TOKEN_PROGRAM_ID", associatedTokenProgram),
  ("MEMO_PROGRAM_ID", memoProgram),
  ("TOKEN_METADATA_PROGRAM_ID", tokenMetadataProgram),
  ("WRAPPED_SOL_MINT", wrappedSolMint),
  ("SYSVAR_PROGRAM_ID", sysvarProgram),
  ("SYSVAR_CLOCK", sysvarClock),
  ("SYSVAR_RECENT_BLOCKHASHES", sysvarRecentBlockhashes),
  ("SYSVAR_RENT", sysvarRent),
  ("SYSVAR_REWARDS", sysvarRewards),
  ("SYSVAR_STAKE_HISTORY", sysvarStakeHistory),
  ("SYSVAR_INSTRUCTIONS", sysvarInstructions),
  ("SYSVAR_SLOT_HASHES", sysvarSlotHashes),
  ("STAKE_CONFIG_ID", stakeConfig)]

end LedgerClient.WellKnown
