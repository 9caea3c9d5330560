/-!
# Camel case

Names of the library join words with underscores; names on the wire write the first word small
and the others with a capital.

## Main definitions

* `Camel.ofWords`: the wire name of an underscored name
-/

namespace LedgerClient.Camel

/-- The letters of an underscored name in camel case. -/
def letters : List Char → List Char
  | [] => []
  | '_' :: cs => match letters cs with
    | [] => []
    | d :: ds => d.toUpper :: ds
  | c :: cs => c :: letters cs

/-- The wire name of an underscored name. -/
def ofWords (name : String) : String :=
  String.ofList (letters name.toList)

end LedgerClient.Camel
