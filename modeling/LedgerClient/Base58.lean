import LedgerClient.Bytes
import LedgerClient.Radix
import LedgerClient.Text.Blank

/-!
# Base58

A byte string is read as a number in base 256 and written in base 58, with an alphabet that
leaves out `0`, `O`, `I` and `l`. Each zero byte at the front is written as one `1`. White space
at the end of a text does not belong to it.

## Main definitions

* `Base58.encode`: the text of a byte string
* `Base58.decode?`: the byte string of a text in the alphabet
-/

namespace LedgerClient.Base58

/-- The 58 digits in ascending order. -/
def alphabet : List Char :=
  "123456789ABCDEFGHJKLMNPQRSTUVWXYZabcdefghijkmnopqrstuvwxyz".toList

/-- The character of a digit. -/
def charOf (digit : Nat) : Char :=
  alphabet.getD digit '1'

/-- The digit of a character. -/
def digitOf? (c : Char) : Option Nat :=
  alphabet.findIdx? (· == c)

/-- The characters of a byte string. -/
def encodeChars (bs : Bytes) : List Char :=
  List.replicate (bs.takeWhile (· == 0)).length '1' ++
    (Radix.digits 58 (Bytes.toNatBE bs)).map charOf

/-- The text of a byte string. -/
def encode (bs : Bytes) : String :=
  String.ofList (encodeChars bs)

/-- The byte string of characters of the alphabet. -/
def decodeChars? (cs : List Char) : Option Bytes := do
  let ds ← (cs.dropWhile (· == '1')).mapM digitOf?
  return List.replicate (cs.takeWhile (· == '1')).length 0 ++
    (Radix.digits 256 (Radix.ofDigits 58 ds)).map UInt8.ofNat

/-- The byte string of a text, its trailing white space left aside. -/
def decode? (text : String) : Option Bytes :=
  decodeChars? (Blank.trimEnd text).toList

end LedgerClient.Base58
