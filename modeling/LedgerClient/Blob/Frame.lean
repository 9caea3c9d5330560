import LedgerClient.Hash.Xxh64

/-!
# Compressed frames

A Zstandard frame is a header and a sequence of blocks. Blocks are kept raw or stand for a run of
one byte; blocks of the compressed kind are not read. A frame is read as a stream: one that breaks
off gives the bytes of what is there, and nothing after the first frame is looked at. What
contradicts the header is refused.

## Main definitions

* `Frame.Header`: what the header of a frame says
* `Frame.decode?`: the bytes of the first frame
-/

namespace LedgerClient.Frame

/-- What the header of a frame says. -/
structure Header where
  /-- The size of the window, which bounds the blocks. -/
  window : Nat
  /-- The number of bytes of the content, if the header says it. -/
  contentSize : Option Nat
  /-- A checksum follows the last block. -/
  checksum : Bool
  deriving DecidableEq, Repr

/-- What stands at the front of a frame. -/
inductive Start
  /-- The header is not complete yet. -/
  | incomplete
  /-- The bytes do not start a frame that can be read. -/
  | refused
  /-- The frame holds no content. -/
  | skippable
  /-- A header and the bytes after it. -/
  | header (h : Header) (rest : Bytes)
  deriving Repr

/-- The greatest window that is accepted. -/
def maxWindow : Nat := (1 <<< 27) + 1

/-- The size of the window that a descriptor byte says. -/
def windowSize (descriptor : Nat) : Nat :=
  let base := 1 <<< (10 + descriptor / 8)
  base + base / 8 * (descriptor % 8)

/-- Reads the header after the descriptor byte `d`. -/
def Start.ofDescriptor (d : Nat) (bs : Bytes) : Start :=
  let single := d / 32 % 2 == 1
  let windowWidth := if single then 0 else 1
  let dictionaryWidth := [0, 1, 2, 4].getD (d % 4) 0
  let sizeWidth := [if single then 1 else 0, 2, 4, 8].getD (d / 64) 0
  if bs.length < windowWidth + dictionaryWidth + sizeWidth then .incomplete
  else
    let dictionary := Bytes.toNatLE ((bs.drop windowWidth).take dictionaryWidth)
    let written := Bytes.toNatLE ((bs.drop (windowWidth + dictionaryWidth)).take sizeWidth)
    let size :=
      if sizeWidth = 0 then none else some (if sizeWidth = 2 then written + 256 else written)
    let window := if single then size.getD 0 else windowSize (Bytes.toNatLE (bs.take 1))
    if d / 8 % 2 = 1 ∨ dictionary ≠ 0 ∨ maxWindow < max window 1024 then .refused
    else .header ⟨window, size, d / 4 % 2 == 1⟩
      (bs.drop (windowWidth + dictionaryWidth + sizeWidth))

/-- The four bytes that start a frame. -/
def magic : Bytes := [0x28, 0xB5, 0x2F, 0xFD]

/-- The bytes agree with the beginning of a frame, as far as they go. -/
def mayStart (bs : Bytes) : Bool :=
  (bs.take 4).isPrefixOf magic

/-- The bytes agree with the beginning of a skippable frame, as far as they go. -/
def maySkip (bs : Bytes) : Bool :=
  (bs.take 1).all (fun b => b / 16 == 5) && ((bs.drop 1).take 3).isPrefixOf [0x2A, 0x4D, 0x18]

/-- What stands at the front of some bytes. -/
def Start.of (bs : Bytes) : Start :=
  if mayStart bs then
    match bs.drop 4 with
    | [] => .incomplete
    | d :: rest => .ofDescriptor d.toNat rest
  else if maySkip bs then .skippable
  else .refused

/-- The content is complete: it has the size that the header says, and the checksum that follows,
if it is there. -/
def Header.accepts (h : Header) (content rest : Bytes) : Bool :=
  (h.contentSize.all (· == content.length)) &&
    (!h.checksum || rest.length < 4 ||
      Bytes.toNatLE (rest.take 4) == (Xxh64.checksum content).toNat % (1 <<< 32))

/-- The content of a frame from its next block on; `pieces` are the blocks so far, latest
first. -/
def blocks (h : Header) (pieces : List Bytes) (bs : Bytes) : Option Bytes :=
  if bs.length < 3 then some pieces.reverse.flatten
  else
    let head := Bytes.toNatLE (bs.take 3)
    let rest := bs.drop 3
    let size := head / 8
    let finish (pieces : List Bytes) (rest : Bytes) : Option Bytes :=
      let content := pieces.reverse.flatten
      if h.accepts content rest then some content else none
    let limit := min h.window (1 <<< 17)
    if head / 2 % 4 = 0 then
      if limit < size then none
      else if rest.length < size then some (rest :: pieces).reverse.flatten
      else if head % 2 = 1 then finish (rest.take size :: pieces) (rest.drop size)
      else blocks h (rest.take size :: pieces) (rest.drop size)
    else if head / 2 % 4 = 1 then
      if limit < max size 1 then none
      else match _cut : bs.drop 3 with
        | [] => some pieces.reverse.flatten
        | b :: rest =>
          if head % 2 = 1 then finish (List.replicate size b :: pieces) rest
          else blocks h (List.replicate size b :: pieces) rest
    else none
termination_by bs.length
decreasing_by
  · simp only [List.length_drop]; omega
  · have shorter := congrArg List.length _cut
    simp only [List.length_drop, List.length_cons] at shorter
    omega

/-- The bytes of the first frame, or of as much of it as is there. -/
def decode? (bs : Bytes) : Option Bytes :=
  match Start.of bs with
  | .incomplete => some []
  | .refused => none
  | .skippable => some []
  | .header h rest => blocks h [] rest

end LedgerClient.Frame
