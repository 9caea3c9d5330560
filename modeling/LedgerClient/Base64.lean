import LedgerClient.Bytes

/-!
# Base64

Three bytes are written as four characters of six bits each; a last group of one or two bytes is
filled up with `=`. Reading demands complete groups and refuses characters outside the alphabet
and anything after the group that is filled up. The bits of the last character that no byte uses
may be set, and more `=` may stand after groups that are complete without them.

## Main definitions

* `Base64.encode`: the text of a byte string
* `Base64.decode`: the byte string of a text, or why there is none
-/

namespace LedgerClient.Base64

/-- The 64 digits in ascending order. -/
def alphabet : List Char :=
  "ABCDEFGHIJKLMNOPQRSTUVWXYZabcdefghijklmnopqrstuvwxyz0123456789+/".toList

/-- The character of the lowest six bits of a number. -/
def charOf (n : Nat) : Char :=
  alphabet.getD (n % 64) 'A'

/-- The digit of a character. -/
def digitOf? (c : Char) : Option Nat :=
  alphabet.findIdx? (· == c)

/-- The characters of a byte string. -/
def encodeChars : Bytes → List Char
  | [] => []
  | [a] => [charOf (a.toNat / 4), charOf (a.toNat * 16), '=', '=']
  | [a, b] =>
    [charOf (a.toNat / 4), charOf (a.toNat * 16 + b.toNat / 16), charOf (b.toNat * 4), '=']
  | a :: b :: c :: rest =>
    charOf (a.toNat / 4) :: charOf (a.toNat * 16 + b.toNat / 16) ::
      charOf (b.toNat * 4 + c.toNat / 64) :: charOf c.toNat :: encodeChars rest

/-- The text of a byte string. -/
def encode (bs : Bytes) : String :=
  String.ofList (encodeChars bs)

/-- The byte string of the groups after a group, or of none. -/
def decodeGroups? : List Char → Option Bytes
  | [] => some []
  | '=' :: cs => if cs.all (· == '=') then some [] else none
  | [a, b, '=', '='] => do
    let a ← digitOf? a
    let b ← digitOf? b
    return [UInt8.ofNat (a * 4 + b / 16)]
  | [a, b, c, '='] => do
    let a ← digitOf? a
    let b ← digitOf? b
    let c ← digitOf? c
    return [UInt8.ofNat (a * 4 + b / 16), UInt8.ofNat (b * 16 + c / 4)]
  | a :: b :: c :: d :: rest => do
    let a ← digitOf? a
    let b ← digitOf? b
    let c ← digitOf? c
    let d ← digitOf? d
    let tail ← decodeGroups? rest
    return UInt8.ofNat (a * 4 + b / 16) :: UInt8.ofNat (b * 16 + c / 4) ::
      UInt8.ofNat (c * 64 + d) :: tail
  | _ => none

/-- The byte string of a text, which does not begin with padding. -/
def decodeChars? : List Char → Option Bytes
  | '=' :: _ => none
  | cs => decodeGroups? cs

/-- Why a text is not read. -/
inductive Flaw
  /-- The text is not made of complete groups of the alphabet. -/
  | malformed
  /-- The text has a character beyond ASCII. -/
  | notAscii
  deriving DecidableEq, Repr

/-- The byte string of a text. -/
def decode (text : String) : Except Flaw Bytes :=
  if text.toList.all (·.toNat < 128) then
    match decodeChars? text.toList with
    | some bs => .ok bs
    | none => .error .malformed
  else .error .notAscii

end LedgerClient.Base64
