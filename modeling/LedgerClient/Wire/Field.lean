import LedgerClient.Wire.Reader
import LedgerClient.Wire.Writer

/-!
# Fields

A field is one item of a binary layout. Its kind determines the type of its values, how they are
read and how they are written; reading and writing a layout go field by field.

## Main definitions

* `Field`: the kinds of fields
* `Field.Value`: the values of a field
* `Field.read`, `Field.write`: reading and writing a value
* `Layout`, `Layout.read`, `Layout.write`: fields one after another
-/

namespace LedgerClient

/-- One item of a binary layout. -/
inductive Field
  | integer (kind : IntKind)
  | bool
  | bytes (count : Int)
  | key (kind : KeyKind)
  | compact
  | compactBytes
  | string
  | option (item : Field)
  | array (item : Field)
  /-- The end of the data. -/
  | ending
  deriving DecidableEq, Repr

namespace Field

/-- The values of a field. -/
def Value : Field → Type
  | .integer _ => Int
  | .bool => Bool
  | .bytes _ => Bytes
  | .key kind => Key kind
  | .compact => Nat
  | .compactBytes => Bytes
  | .string => String
  | .option item => Option item.Value
  | .array item => List item.Value
  | .ending => Unit

/-- Reads a value of a field. -/
def read : (field : Field) → Read field.Value
  | .integer kind => Read.integer kind
  | .bool => Read.bool
  | .bytes count => Read.bytes count
  | .key kind => Read.key kind
  | .compact => Read.compact
  | .compactBytes => Read.compactBytes
  | .string => Read.string
  | .option item => Read.option item.read
  | .array item => Read.array item.read
  | .ending => Read.ending

/-- Writes a value of a field. -/
def write : (field : Field) → field.Value → Write
  | .integer kind, n => Write.integer kind n
  | .bool, b => Write.bool b
  | .bytes _, bs => Write.bytes bs
  | .key _, k => Write.key k
  | .compact, n => Write.compact (Int.ofNat n)
  | .compactBytes, bs => Write.compactBytes bs
  | .string, text => Write.string text
  | .option item, x => Write.option item.write x
  | .array item, xs => Write.array item.write xs
  | .ending, _ => pure ()

end Field

/-- Fields one after another. -/
abbrev Layout := List Field

namespace Layout

/-- The values of a layout. -/
def Values : Layout → Type
  | [] => Unit
  | field :: fields => field.Value × Values fields

/-- Reads the values of a layout. -/
def read : (layout : Layout) → Read layout.Values
  | [] => return ()
  | field :: fields => do
    let x ← field.read
    let xs ← read fields
    return (x, xs)

/-- Writes the values of a layout. -/
def write : (layout : Layout) → layout.Values → Write
  | [], _ => pure ()
  | field :: fields, (x, xs) => do
    field.write x
    write fields xs

end Layout

end LedgerClient
