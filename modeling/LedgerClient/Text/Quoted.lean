import LedgerClient.Text.Printable

/-!
# Quoted texts

Error messages quote the text they complain about. The quotes are single, or double when the text
holds a single quote and no double one. The quote, the backslash and the line and tab characters
are escaped by a backslash; other unprintable characters are written by their number in two, four
or eight hexadecimal digits.

## Main definitions

* `Quoted.quote`: a text in quotes
* `Quoted.escape`: one character between given quotes
-/

namespace LedgerClient.Quoted

/-- The digit of a number below 16, in lower case. -/
def hexDigit (n : Nat) : Char :=
  if n < 10 then Char.ofNat (48 + n) else Char.ofNat (87 + n)

/-- The lowest `width` hexadecimal digits of a number, highest first. -/
def hexDigits : (width : Nat) → Nat → List Char
  | 0, _ => []
  | width + 1, n => hexDigits width (n / 16) ++ [hexDigit (n % 16)]

/-- The numeric escape of a character: two, four or eight digits, whichever suffice. -/
def numericEscape (c : Char) : List Char :=
  if c.toNat < 0x100 then '\\' :: 'x' :: hexDigits 2 c.toNat
  else if c.toNat < 0x10000 then '\\' :: 'u' :: hexDigits 4 c.toNat
  else '\\' :: 'U' :: hexDigits 8 c.toNat

/-- One character as it stands between two marks. -/
def escape (mark : Char) (c : Char) : List Char :=
  if c = mark ∨ c = '\\' then ['\\', c]
  else if c = '\n' then ['\\', 'n']
  else if c = '\r' then ['\\', 'r']
  else if c = '\t' then ['\\', 't']
  else if Printable.isPrintable c then [c]
  else numericEscape c

/-- The mark that encloses a text: double when the text holds a single quote but no double one. -/
def markOf (cs : List Char) : Char :=
  if cs.contains '\'' && !cs.contains '"' then '"' else '\''

/-- A text in quotes, as messages show it. -/
def quote (text : String) : String :=
  let mark := markOf text.toList
  String.ofList ([mark] ++ text.toList.flatMap (escape mark) ++ [mark])

end LedgerClient.Quoted
