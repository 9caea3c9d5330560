import LedgerClient.Key

/-!
# SHA-256

The hash function of FIPS 180-4 with 32-bit words. A message is padded by a one bit, zero bits and
its length to whole blocks of 64 bytes. Each block is expanded to 64 words, and as many rounds
mix them into the eight words of the state.

## Main definitions

* `Sha256.pad`: the padded message
* `Sha256.schedule`: the words of a block, one for each round
* `Sha256.compress`: the state after one more block
* `Sha256.digest`: the 32 bytes of the hash
-/

namespace LedgerClient.Sha256

/-- The eight words of the state. -/
structure State where
  a : UInt32
  b : UInt32
  c : UInt32
  d : UInt32
  e : UInt32
  f : UInt32
  g : UInt32
  h : UInt32
  deriving DecidableEq, Repr

/-- The words of a state in order. -/
def State.words (s : State) : List UInt32 :=
  [s.a, s.b, s.c, s.d, s.e, s.f, s.g, s.h]

/-- The state before the first block. -/
def State.initial : State :=
  ⟨0x6a09e667, 0xbb67ae85, 0x3c6ef372, 0xa54ff53a,
    0x510e527f, 0x9b05688c, 0x1f83d9ab, 0x5be0cd19⟩

/-- The constants of the rounds. -/
def constants : List UInt32 := [
  0x428a2f98, 0x71374491, 0xb5c0fbcf, 0xe9b5dba5, 0x3956c25b, 0x59f111f1,
  0x923f82a4, 0xab1c5ed5, 0xd807aa98, 0x12835b01, 0x243185be, 0x550c7dc3,
  0x72be5d74, 0x80deb1fe, 0x9bdc06a7, 0xc19bf174, 0xe49b69c1, 0xefbe4786,
  0x0fc19dc6, 0x240ca1cc, 0x2de92c6f, 0x4a7484aa, 0x5cb0a9dc, 0x76f988da,
  0x983e5152, 0xa831c66d, 0xb00327c8, 0xbf597fc7, 0xc6e00bf3, 0xd5a79147,
  0x06ca6351, 0x14292967, 0x27b70a85, 0x2e1b2138, 0x4d2c6dfc, 0x53380d13,
  0x650a7354, 0x766a0abb, 0x81c2c92e, 0x92722c85, 0xa2bfe8a1, 0xa81a664b,
  0xc24b8b70, 0xc76c51a3, 0xd192e819, 0xd6990624, 0xf40e3585, 0x106aa070,
  0x19a4c116, 0x1e376c08, 0x2748774c, 0x34b0bcb5, 0x391c0cb3, 0x4ed8aa4a,
  0x5b9cca4f, 0x682e6ff3, 0x748f82ee, 0x78a5636f, 0x84c87814, 0x8cc70208,
  0x90befffa, 0xa4506ceb, 0xbef9a3f7, 0xc67178f2]

/-- A word rotated right. -/
def rotate (x : UInt32) (n : UInt32) : UInt32 :=
  (x >>> n) ||| (x <<< (32 - n))

/-- The words of a byte string, highest byte first. -/
def words : Bytes → List UInt32
  | b0 :: b1 :: b2 :: b3 :: rest =>
    UInt32.ofNat (Bytes.toNatBE [b0, b1, b2, b3]) :: words rest
  | _ => []

/-- A later word of the schedule, from the words before it, latest first. -/
def nextWord (before : List UInt32) : UInt32 :=
  let x := before.getD 1 0
  let y := before.getD 14 0
  (rotate x 17 ^^^ rotate x 19 ^^^ (x >>> 10)) + before.getD 6 0 +
    (rotate y 7 ^^^ rotate y 18 ^^^ (y >>> 3)) + before.getD 15 0

/-- Puts `count` more words before the words of a schedule, latest first. -/
def extend : (count : Nat) → List UInt32 → List UInt32
  | 0, before => before
  | count + 1, before => extend count (nextWord before :: before)

/-- The words of a block, one for each round. -/
def schedule (block : Bytes) : List UInt32 :=
  (extend 48 (words block).reverse).reverse

/-- One round with the sum of its constant and its word. -/
def round (s : State) (x : UInt32) : State :=
  let t₁ := s.h + (rotate s.e 6 ^^^ rotate s.e 11 ^^^ rotate s.e 25) +
    ((s.e &&& s.f) ^^^ (~~~s.e &&& s.g)) + x
  let t₂ := (rotate s.a 2 ^^^ rotate s.a 13 ^^^ rotate s.a 22) +
    ((s.a &&& s.b) ^^^ (s.a &&& s.c) ^^^ (s.b &&& s.c))
  ⟨t₁ + t₂, s.a, s.b, s.c, s.d + t₁, s.e, s.f, s.g⟩

/-- The state after one more block. -/
def compress (s : State) (block : Bytes) : State :=
  let t := (List.zipWith (· + ·) constants (schedule block)).foldl round s
  ⟨s.a + t.a, s.b + t.b, s.c + t.c, s.d + t.d, s.e + t.e, s.f + t.f, s.g + t.g, s.h + t.h⟩

/-- The message with its padding. -/
def pad (message : Bytes) : Bytes :=
  message ++ [0x80] ++ Bytes.zeros ((119 - message.length % 64) % 64) ++
    Bytes.ofNatBE 8 (8 * message.length)

/-- The state after all whole blocks of a byte string. -/
def absorb (s : State) (bs : Bytes) : State :=
  if 64 ≤ bs.length then absorb (compress s (bs.take 64)) (bs.drop 64) else s
termination_by bs.length
decreasing_by simp; omega

/-- The bytes of the hash. -/
def digest (message : Bytes) : Bytes :=
  (absorb .initial (pad message)).words.flatMap fun word => Bytes.ofNatBE 4 word.toNat

@[simp] theorem length_digest (message : Bytes) : (digest message).length = 32 := by
  simp [digest, State.words]

/-- The hash as a key. -/
def hash (message : Bytes) : Hash :=
  ⟨digest message, length_digest message⟩

end LedgerClient.Sha256
