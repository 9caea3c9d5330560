import LedgerClient.Json.Value

/-!
# Writing JSON values

Values are written without blanks. Characters beyond ASCII stand for themselves; quotes,
backslashes and control characters are escaped, the five with a short escape by it. A number
with a fraction is written with the fewest digits that read back, positionally up to sixteen
places, and infinite numbers as `null`.

## Main definitions

* `Json.Value.render`: the text of a value
* `Json.quote`: the text of a string
-/

namespace LedgerClient.Json

/-- A string character between quotes. -/
def escape (c : Char) : List Char :=
  if c = '"' then ['\\', '"']
  else if c = '\\' then ['\\', '\\']
  else if c = '\n' then ['\\', 'n']
  else if c = '\r' then ['\\', 'r']
  else if c = '\t' then ['\\', 't']
  else if c.toNat = 8 then ['\\', 'b']
  else if c.toNat = 12 then ['\\', 'f']
  else if c.toNat < 0x20 then '\\' :: 'u' :: Quoted.hexDigits 4 c.toNat
  else [c]

/-- The text of a string. -/
def quote (text : String) : String :=
  String.ofList ('"' :: text.toList.flatMap escape ++ ['"'])

/-- Numbers are written positionally with up to sixteen digits before the point or four zeros
after it, and exponents without plus sign. -/
def numberLayout : Decimal.Layout := ⟨-4, 16, false, 1⟩

/-- The text of a floating-point number. -/
def renderFloat (x : Float) : String :=
  if Binary64.isFinite x then numberLayout.render x else "null"

mutual

/-- The text of a value. -/
def Value.render : Value → String
  | .null => "null"
  | .bool true => "true"
  | .bool false => "false"
  | .int n => toString n
  | .float x => renderFloat x
  | .str text => quote text
  | .arr items => "[" ++ ",".intercalate (renderItems items) ++ "]"
  | .obj members => "\x7b" ++ ",".intercalate (renderMembers members) ++ "\x7d"

/-- The texts of items. -/
def renderItems : List Value → List String
  | [] => []
  | item :: items => item.render :: renderItems items

/-- The texts of members. -/
def renderMembers : List (String × Value) → List String
  | [] => []
  | (name, value) :: members => (quote name ++ ":" ++ value.render) :: renderMembers members

end

end LedgerClient.Json
