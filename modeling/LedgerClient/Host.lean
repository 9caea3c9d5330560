import LedgerClient.Blob.Frame

/-!
# Hosts

What a client leaves to the machine it runs on: how compressed frames are opened, and how deep the
values in a text may nest before reading gives up. Nothing in the client depends on either, so both
are parameters. The plain host opens frames of raw blocks and runs.

## Main definitions

* `Host`: the parameters
* `Host.plain`: a host for small texts and frames that are not compressed
-/

namespace LedgerClient

/-- What a client leaves to the machine. -/
structure Host where
  /-- The bytes in a compressed frame, if it can be opened. -/
  inflate? : Bytes → Option Bytes
  /-- The number of lists and objects, one in the other, that are read in a text. -/
  nesting : Nat

/-- The plain host. -/
def Host.plain : Host := ⟨Frame.decode?, 1000⟩

end LedgerClient
