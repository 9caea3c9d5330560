import LedgerClient.Bytes

/-!
# UTF-8

Texts are written as UTF-8 and read back strictly: overlong forms, surrogates and numbers above
`U+10FFFF` are refused. A refusal names the ill-formed bytes, which are the longest beginning
that could still have become a character, or one byte if none could. Lossy reading puts one
replacement character in the place of each such run.

## Main definitions

* `Utf8.encode`: the bytes of a text
* `Utf8.decode`: the text of well-formed bytes, or the first `Utf8.Flaw`
* `Utf8.decodeLossy`: the text with replacement characters
-/

namespace LedgerClient.Utf8

/-- The bytes of a text. -/
def encode (text : String) : Bytes :=
  text.toList.flatMap String.utf8EncodeChar

/-- Why bytes do not form a character. -/
inductive Reason
  | invalidStart
  | invalidContinuation
  | unexpectedEnd
  deriving DecidableEq, Repr

/-- The wording of a reason. -/
def Reason.message : Reason → String
  | .invalidStart => "invalid start byte"
  | .invalidContinuation => "invalid continuation byte"
  | .unexpectedEnd => "unexpected end of data"

/-- An ill-formed run of bytes: where it starts, its bytes, and what is wrong. -/
structure Flaw where
  /-- The position of the first ill-formed byte. -/
  position : Nat
  /-- The ill-formed bytes. -/
  run : Bytes
  /-- What is wrong with them. -/
  reason : Reason
  deriving DecidableEq, Repr

/-- What a lead byte announces: how many bytes follow, the range of the first of them, and the
bits that the lead byte itself carries. -/
structure Lead where
  /-- The number of bytes that follow. -/
  following : Nat
  /-- The least value of the first byte that follows. -/
  least : UInt8
  /-- The greatest value of the first byte that follows. -/
  greatest : UInt8
  /-- The value bits of the lead byte. -/
  bits : Nat
  deriving DecidableEq, Repr

/-- The announcement of a lead byte; `none` for a byte that starts no longer character. -/
def Lead.ofByte? (b : UInt8) : Option Lead :=
  if b < 0xC2 then none
  else if b < 0xE0 then some ⟨1, 0x80, 0xBF, b.toNat - 0xC0⟩
  else if b < 0xF0 then
    some ⟨2, if b = 0xE0 then 0xA0 else 0x80, if b = 0xED then 0x9F else 0xBF, b.toNat - 0xE0⟩
  else if b < 0xF5 then
    some ⟨3, if b = 0xF0 then 0x90 else 0x80, if b = 0xF4 then 0x8F else 0xBF, b.toNat - 0xF0⟩
  else none

/-- What stands at the front of a byte string: a character or an ill-formed run, with its width. -/
inductive Head
  | scalar (c : Char) (width : Nat)
  | flaw (reason : Reason) (width : Nat)
  deriving Repr

/-- Reads `following` more bytes of a character of which `width` bytes and the value `bits` are
known. -/
def Head.continue (following : Nat) (least greatest : UInt8) (bits width : Nat) :
    Bytes → Head
  | rest => match following, rest with
    | 0, _ => .scalar (Char.ofNat bits) width
    | _ + 1, [] => .flaw .unexpectedEnd width
    | following + 1, b :: rest =>
      if least ≤ b ∧ b ≤ greatest then
        Head.continue following 0x80 0xBF (bits * 64 + (b.toNat - 0x80)) (width + 1) rest
      else .flaw .invalidContinuation width

/-- What stands at the front of `b :: rest`. -/
def Head.of (b : UInt8) (rest : Bytes) : Head :=
  if b < 0x80 then .scalar (Char.ofNat b.toNat) 1
  else match Lead.ofByte? b with
    | none => .flaw .invalidStart 1
    | some lead => Head.continue lead.following lead.least lead.greatest lead.bits 1 rest

/-- Reads characters from the bytes at `position` on. -/
def decodeFrom (position : Nat) (bs : Bytes) : Except Flaw (List Char) :=
  match bs with
  | [] => .ok []
  | b :: rest =>
    match Head.of b rest with
    | .flaw reason width => .error ⟨position, (b :: rest).take width, reason⟩
    | .scalar c width => (c :: ·) <$> decodeFrom (position + width) (rest.drop (width - 1))
termination_by bs.length
decreasing_by simp only [List.length_drop, List.length_cons]; omega

/-- The text of a well-formed byte string, or its first flaw. -/
def decode (bs : Bytes) : Except Flaw String :=
  String.ofList <$> decodeFrom 0 bs

/-- The characters of a byte string with a replacement character for each ill-formed run. -/
def lossyChars (bs : Bytes) : List Char :=
  match bs with
  | [] => []
  | b :: rest =>
    match Head.of b rest with
    | .flaw _ width => '\uFFFD' :: lossyChars (rest.drop (width - 1))
    | .scalar c width => c :: lossyChars (rest.drop (width - 1))
termination_by bs.length
decreasing_by all_goals simp only [List.length_drop, List.length_cons]; omega

/-- The text of a byte string with a replacement character for each ill-formed run. -/
def decodeLossy (bs : Bytes) : String :=
  String.ofList (lossyChars bs)

/-- The two lower-case hexadecimal digits of a byte. -/
def hexByte (b : UInt8) : String :=
  let digit (n : Nat) : Char := if n < 10 then Char.ofNat (48 + n) else Char.ofNat (87 + n)
  String.ofList [digit (b.toNat / 16), digit (b.toNat % 16)]

/-- The wording of a flaw: the single byte, or the range of positions, and the reason. -/
def Flaw.message (flaw : Flaw) : String :=
  let subject := match flaw.run with
    | [b] => s!"byte 0x{hexByte b} in position {flaw.position}"
    | run => s!"bytes in position {flaw.position}-{flaw.position + run.length - 1}"
  s!"'utf-8' codec can't decode {subject}: {flaw.reason.message}"

end LedgerClient.Utf8
