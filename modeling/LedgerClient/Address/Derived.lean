import LedgerClient.Address
import LedgerClient.Address.WellKnown

/-!
# Addresses of well-known programs

The canonical token account of a wallet for a mint, and the accounts that describe a mint.

## Main definitions

* `Address.associatedToken`: the token account of a wallet
* `Address.metadata`, `Address.masterEdition`: the accounts that describe a mint
-/

namespace LedgerClient.Address

variable (hash : Bytes → Hash)

/-- The token account of a wallet for a mint, under a token program. -/
def associatedToken (wallet mint tokenProgram : PublicKey) : Except Fault (PublicKey × Nat) :=
  find hash [wallet.bytes, tokenProgram.bytes, mint.bytes] WellKnown.associatedTokenProgram

/-- The account that describes a mint. -/
def metadata (mint : PublicKey) : Except Fault (PublicKey × Nat) :=
  find hash [Utf8.encode "metadata", WellKnown.tokenMetadataProgram.bytes, mint.bytes]
    WellKnown.tokenMetadataProgram

/-- The account of the master edition of a mint. -/
def masterEdition (mint : PublicKey) : Except Fault (PublicKey × Nat) :=
  find hash
    [Utf8.encode "metadata", WellKnown.tokenMetadataProgram.bytes, mint.bytes,
      Utf8.encode "edition"]
    WellKnown.tokenMetadataProgram

end LedgerClient.Address
