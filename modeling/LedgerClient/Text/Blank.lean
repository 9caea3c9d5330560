/-!
# Blank characters

The white space of Unicode, with the four separators `U+001C` to `U+001F`, and the trimming of
texts by it.

## Main definitions

* `Blank.isBlank`: the character is white space
* `Blank.dropEnd`, `Blank.strip`: a list without the blanks at its end, or at both ends
* `Blank.trimEnd`: a text without white space at its end
-/

namespace LedgerClient.Blank

/-- The character is white space or one of the four separators `U+001C` to `U+001F`. -/
def isBlank (c : Char) : Bool :=
  let n := c.toNat
  (9 ≤ n && n ≤ 13) || (0x1C ≤ n && n ≤ 0x20) || n == 0x85 || n == 0xA0 || n == 0x1680 ||
    (0x2000 ≤ n && n ≤ 0x200A) || n == 0x2028 || n == 0x2029 || n == 0x202F || n == 0x205F ||
    n == 0x3000

/-- The character is one of the six blanks of ASCII text: space, tab, line feed, vertical tab,
form feed and carriage return. -/
def isAsciiBlank (c : Char) : Bool :=
  c.toNat == 0x20 || (9 ≤ c.toNat && c.toNat ≤ 13)

/-- A list without the members at its end for which `p` holds. -/
def dropEnd {α : Type} (p : α → Bool) (xs : List α) : List α :=
  (xs.reverse.dropWhile p).reverse

/-- A list without the members at either end for which `p` holds. -/
def strip {α : Type} (p : α → Bool) (xs : List α) : List α :=
  dropEnd p (xs.dropWhile p)

/-- A text without white space at its end. -/
def trimEnd (text : String) : String :=
  String.ofList (dropEnd isBlank text.toList)

end LedgerClient.Blank
