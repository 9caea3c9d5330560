import LedgerClient.Discriminator

/-!
# Instruction payloads

The data of an instruction is a tag that names the variant, followed by the fields of the
variant's layout.

## Main definitions

* `Payload`: a tag and the values of a layout
* `Payload.bytes`: the data
* `Payload.read`: reading the values of a layout behind a tag
-/

namespace LedgerClient

/-- A tag and the values of a layout. -/
structure Payload where
  /-- The tag. -/
  tag : Discriminator
  /-- The layout behind the tag. -/
  layout : Layout
  /-- The values of the layout. -/
  values : layout.Values

namespace Payload

/-- Appends a payload. -/
def write (p : Payload) : Write := do
  p.tag.write
  p.layout.write p.values

/-- The data of a payload. -/
def bytes (p : Payload) : Except Fault Bytes :=
  p.write.run

/-- Takes a tag and the values of a layout. -/
def read (tag : Discriminator) (layout : Layout) : Read layout.Values := do
  tag.read
  layout.read

end Payload

end LedgerClient
