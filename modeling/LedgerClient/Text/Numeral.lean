import LedgerClient.Decimal.Nearest
import LedgerClient.Text.Blank

/-!
# Numbers in settings

Settings hold numbers as people write them: blanks around the number, a sign, digits of any
script, and single underscores between digits. In a text beyond ASCII every blank counts as a
space and every decimal digit as its ASCII digit; an ASCII text is trimmed of its own six blanks
only.

## Main definitions

* `Numeral.integer?`: the whole number that a text denotes
* `Numeral.decimal?`: the floating-point number that a text denotes
-/

namespace LedgerClient.Numeral

/-- The zeros of the decimal digits beyond ASCII; the digits one to nine follow each. -/
def zeros : List Nat := [
    0x660, 0x6F0, 0x7C0, 0x966, 0x9E6, 0xA66, 0xAE6, 0xB66, 0xBE6, 0xC66, 0xCE6, 0xD66, 0xDE6,
    0xE50, 0xED0, 0xF20, 0x1040, 0x1090, 0x17E0, 0x1810, 0x1946, 0x19D0, 0x1A80, 0x1A90, 0x1B50,
    0x1BB0, 0x1C40, 0x1C50, 0xA620, 0xA8D0, 0xA900, 0xA9D0, 0xA9F0, 0xAA50, 0xABF0, 0xFF10,
    0x104A0, 0x10D30, 0x11066, 0x110F0, 0x11136, 0x111D0, 0x112F0, 0x11450, 0x114D0, 0x11650,
    0x116C0, 0x11730, 0x118E0, 0x11950, 0x11C50, 0x11D50, 0x11DA0, 0x16A60, 0x16AC0, 0x16B50,
    0x1D7CE, 0x1D7D8, 0x1D7E2, 0x1D7EC, 0x1D7F6, 0x1E140, 0x1E2F0, 0x1E950, 0x1FBF0]

/-- The value of a decimal digit of any script beyond ASCII. -/
def digitValue? (c : Char) : Option Nat :=
  (zeros.find? fun first => first ≤ c.toNat && c.toNat < first + 10).map (c.toNat - ·)

/-- A character of a number in its ASCII form: blanks become spaces and digits ASCII digits; a
question mark stands for what is neither. -/
def plain (c : Char) : Char :=
  if c.toNat < 127 then c
  else if Blank.isBlank c then ' '
  else match digitValue? c with
    | some d => Char.ofNat (48 + d)
    | none => '?'

/-- The characters of a number, trimmed and in ASCII form. -/
def normal (text : String) : List Char :=
  let cs := text.toList
  Blank.strip Blank.isAsciiBlank (if cs.all (·.toNat < 128) then cs else cs.map plain)

/-- The character is an ASCII digit. -/
def isDigit (c : Char) : Bool :=
  48 ≤ c.toNat && c.toNat ≤ 57

/-- The number written by digits. -/
def ofDigits (cs : List Char) : Nat :=
  cs.foldl (fun n c => 10 * n + (c.toNat - 48)) 0

/-- Removes single underscores between digits, after the character `before`; `none` if an
underscore stands anywhere else. -/
def joinGroups (before : Char) : List Char → Option (List Char)
  | [] => if before = '_' then none else some []
  | c :: cs =>
    if c = '_' then if isDigit before then joinGroups c cs else none
    else if before = '_' ∧ ¬isDigit c then none
    else (c :: ·) <$> joinGroups c cs

/-- A sign, if there is one, and the rest: `true` for minus. -/
def sign : List Char → Bool × List Char
  | '-' :: cs => (true, cs)
  | '+' :: cs => (false, cs)
  | cs => (false, cs)

/-- The greatest number of digits of a whole number. -/
def maxDigits : Nat := 4300

/-- Why a text is no whole number. -/
inductive Fault
  /-- The text has another form. -/
  | malformed (text : String)
  /-- The text has more digits than are read. -/
  | tooLong (digits : Nat)
  deriving DecidableEq, Repr

/-- The whole number that a text denotes. -/
def integer? (text : String) : Except Fault Int :=
  let (negative, body) := sign (normal text)
  match joinGroups ' ' body with
  | some (c :: cs) =>
    if (c :: cs).all isDigit then
      if maxDigits < (c :: cs).length then .error (.tooLong (c :: cs).length)
      else .ok (if negative then -(ofDigits (c :: cs) : Int) else ofDigits (c :: cs))
    else .error (.malformed text)
  | _ => .error (.malformed text)

/-- The exponent of a decimal: nothing, or `e`, a sign and digits. -/
def exponent? : List Char → Option Int
  | [] => some 0
  | e :: cs =>
    let (negative, digits) := sign cs
    if (e = 'e' ∨ e = 'E') ∧ ¬digits.isEmpty ∧ digits.all isDigit then
      some (if negative then -(ofDigits digits : Int) else ofDigits digits)
    else none

/-- A decimal without sign: digits with a point among them, and an exponent. -/
def magnitude? (negative : Bool) (cs : List Char) : Option Decimal :=
  let whole := cs.takeWhile isDigit
  let (fraction, rest) := match cs.dropWhile isDigit with
    | '.' :: cs => (cs.takeWhile isDigit, cs.dropWhile isDigit)
    | cs => ([], cs)
  if whole.isEmpty && fraction.isEmpty then none
  else (exponent? rest).map fun e =>
    ⟨negative, ofDigits (whole ++ fraction), e - fraction.length⟩

/-- An infinite number or the number that is none, by its word and sign. -/
def special? (negative : Bool) (cs : List Char) : Option Float :=
  let word := String.ofList (cs.map Char.toLower)
  let number (bits : Nat) : Float :=
    Float.ofBits (UInt64.ofNat (if negative then Binary64.signBit + bits else bits))
  if word = "inf" ∨ word = "infinity" then some (number Binary64.infinity)
  else if word = "nan" then some (number Binary64.undefined)
  else none

/-- The floating-point number that a text denotes. -/
def decimal? (text : String) : Option Float := do
  let cs ← joinGroups ' ' (normal text)
  let (negative, body) := sign cs
  match special? negative body with
  | some x => some x
  | none => Decimal.nearest <$> magnitude? negative body

end LedgerClient.Numeral
