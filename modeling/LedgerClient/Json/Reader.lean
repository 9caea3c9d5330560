import LedgerClient.Json.Tree
import LedgerClient.Json.Value
import LedgerClient.Keyed

/-!
# Reading JSON values

A document becomes a value when its structure holds no mark, its strings and names are UTF-8, its
whole numbers are not too long and its other numbers are finite. The first obstacle in the order
of the text is the one reported.

## Main definitions

* `Json.Number.value`: the value of a number
* `Json.Tree.value`: the value of a structure
* `Json.read`: the value of a byte string
-/

namespace LedgerClient.Json

/-- The text of a string. -/
def text (content : Bytes) : Except Obstacle String :=
  (Utf8.decode content).mapError fun flaw => .text (.string flaw)

/-- The value of a number. -/
def Number.value : Number → Except Obstacle Value
  | .whole n digits => if Numeral.maxDigits < digits then .error .form else .ok (.int n)
  | .decimal d => match d.finite? with
    | some x => .ok (.float x)
    | none => .error .form

/-- An object of members set one after another. -/
def ofMembers (members : List (String × Value)) : Value :=
  .obj (Keyed.putAll Prod.fst members [])

mutual

/-- The value of a structure. -/
def Tree.value : Tree → Except Obstacle Value
  | .null => .ok .null
  | .bool b => .ok (.bool b)
  | .number n => n.value
  | .str content => .str <$> text content
  | .arr items => .arr <$> itemValues items
  | .obj members => ofMembers <$> memberValues members
  | .broken why => .error why

/-- The values of items, in order. -/
def itemValues : List Tree → Except Obstacle (List Value)
  | [] => .ok []
  | item :: items => do
    let value ← item.value
    let values ← itemValues items
    return value :: values

/-- The names and values of members, in order. -/
def memberValues : List (Bytes × Bytes × Tree) → Except Obstacle (List (String × Value))
  | [] => .ok []
  | (name, _, tree) :: members => do
    let name ← text name
    let value ← tree.value
    let values ← memberValues members
    return (name, value) :: values

end

/-- Reads a whole document with a reader of its structure. -/
def Document.using {α : Type} (read : Tree → Except Obstacle α) (d : Document) :
    Except Obstacle α := do
  let value ← read d.tree
  if d.complete then return value else throw .form

/-- The value of a byte string, however deep it nests. -/
def read (bs : Bytes) : Except Obstacle Value :=
  (Document.read bs).using Tree.value

end LedgerClient.Json
