import LedgerClient.Fault

/-!
# Message versions

A message is a legacy message or a message of version zero. Servers name the version by the word
`legacy`, by a number or not at all; a text is read as a number, a number with a fraction loses
it, and minus one also stands for a legacy message.

## Main definitions

* `Version`: the two versions
* `Version.ofJson`, `Version.toJson`: the version of a JSON value and back
-/

namespace LedgerClient

/-- The version of a message. -/
inductive Version
  | legacy
  | v0
  deriving DecidableEq, Repr

namespace Version

/-- The name of a version. -/
def name : Version → String
  | .legacy => "legacy"
  | .v0 => "v0"

/-- The JSON value of a version. -/
def toJson : Version → Json.Value
  | .legacy => .str "legacy"
  | .v0 => .int 0

/-- The version of a number. -/
def ofNumber? (n : Int) : Option Version :=
  if n = -1 then some .legacy else if n = 0 then some .v0 else none

/-- The number that a JSON value stands for. -/
def number (value : Json.Value) : Except Fault Int :=
  let unsupported := Fault.codec (.versionValue value)
  match value with
  | .int n => .ok n
  | .bool b => .ok (if b then 1 else 0)
  | .float x =>
    if x.isNaN then .error unsupported
    else if x.isInf then .error (.misuse .overflow)
    else .ok (Binary64.truncate x)
  | .str text => match Numeral.integer? text with
    | .ok n => .ok n
    | .error _ => .error unsupported
  | .null | .arr _ | .obj _ => .error (.misuse .type)

/-- The version of a JSON value. -/
def ofJson (value : Json.Value) : Except Fault Version :=
  match value with
  | .null => .ok .legacy
  | .str "legacy" => .ok .legacy
  | _ => do
    match ofNumber? (← number value) with
    | some version => return version
    | none => throw (.codec (.versionValue value))

end Version

end LedgerClient
