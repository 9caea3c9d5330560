import LedgerClient.Decimal.Shortest
import LedgerClient.Text.Quoted

/-!
# JSON values

A JSON value keeps whole numbers apart from floating-point ones, and its objects keep their
members in order. Messages display a value in a notation of their own: `None`, `True` and `False`
for the constants, quoted texts, and lists and objects with a space after each comma.

## Main definitions

* `Json.Value`: the values
* `Json.Value.display`: a value as messages show it
* `Json.Value.member?`: a member of an object by its name
-/

namespace LedgerClient.Json

/-- A JSON value. -/
inductive Value
  | null
  | bool (b : Bool)
  | int (n : Int)
  | float (x : Float)
  | str (text : String)
  | arr (items : List Value)
  | obj (members : List (String × Value))
  deriving Inhabited

namespace Value

/-- Messages write a point up to sixteen places to the right, and exponents with sign and at
least two digits. -/
def messageLayout : Decimal.Layout := ⟨-3, 16, true, 2⟩

/-- A number with fraction as messages show it. -/
def displayFloat (x : Float) : String :=
  messageLayout.render x

mutual

/-- A value as messages show it. -/
def display : Value → String
  | .null => "None"
  | .bool true => "True"
  | .bool false => "False"
  | .int n => toString n
  | .float x => displayFloat x
  | .str text => Quoted.quote text
  | .arr items => "[" ++ ", ".intercalate (displayItems items) ++ "]"
  | .obj members => "\x7b" ++ ", ".intercalate (displayMembers members) ++ "\x7d"

/-- The items of a list as messages show them. -/
def displayItems : List Value → List String
  | [] => []
  | item :: items => display item :: displayItems items

/-- The members of an object as messages show them. -/
def displayMembers : List (String × Value) → List String
  | [] => []
  | (name, value) :: members =>
    (Quoted.quote name ++ ": " ++ display value) :: displayMembers members

end

/-- The name of a value's type in messages. -/
def typeName : Value → String
  | .null => "NoneType"
  | .bool _ => "bool"
  | .int _ => "int"
  | .float _ => "float"
  | .str _ => "str"
  | .arr _ => "list"
  | .obj _ => "dict"

/-- The value of a member of an object; the last of several members of one name counts. -/
def member? (name : String) : Value → Option Value
  | .obj members => (members.reverse.find? (·.1 == name)).map (·.2)
  | _ => none

end Value

end LedgerClient.Json
