import LedgerClient.Curve.Point
import LedgerClient.Hash.Sha512
import LedgerClient.Key

/-!
# Signatures

A signature scheme derives a public key from a seed, signs messages with the seed and checks
signatures. The library is written for any scheme; `Curve.scheme` is Ed25519 of RFC 8032 with the
strict checks: the number `S` is below the group order, the public key is canonical, and neither
the key nor the point `R` has small order.

## Main definitions

* `SignatureScheme`: key derivation, signing and checking
* `Curve.scheme`: Ed25519
-/

namespace LedgerClient

/-- The seed of a keypair: 32 secret bytes. -/
structure Seed where
  /-- The bytes. -/
  bytes : Bytes
  /-- There are 32 of them. -/
  length_eq : bytes.length = 32
  deriving DecidableEq

/-- A way to derive public keys from seeds, to sign and to check signatures. -/
structure SignatureScheme where
  /-- The public key of a seed. -/
  publicKey : Seed → PublicKey
  /-- The signature of a message by a seed. -/
  sign : Seed → Bytes → Signature
  /-- The signature belongs to the public key and the message. -/
  verify : PublicKey → Bytes → Signature → Bool

namespace Curve

/-- The secret number of a seed's hash: three low bits and the top bit cleared, bit 254 set. -/
def secretNumber (hash : Bytes) : Nat :=
  Bytes.toNatLE (hash.take 32) % (1 <<< 254) / 8 * 8 + (1 <<< 254)

/-- A hash as a number modulo the group order. -/
def reduced (bs : Bytes) : Nat :=
  Bytes.toNatLE (Sha512.digest bs) % order

/-- The 32 bytes of the public key of a seed. -/
def publicBytes (seed : Bytes) : Bytes :=
  (Point.multiple 255 (secretNumber (Sha512.digest seed)) .base).encode

/-- The 64 bytes of the signature of a message. -/
def signBytes (seed message : Bytes) : Bytes :=
  let hash := Sha512.digest seed
  let r := reduced (hash.drop 32 ++ message)
  let point := (Point.multiple 253 r .base).encode
  let k := reduced (point ++ publicBytes seed ++ message)
  point ++ Bytes.ofNatLE 32 ((r + k * secretNumber hash) % order)

/-- The values of `y` of the points of small order, also those not reduced. -/
def smallOrder : List Nat :=
  let ofOrderEight := 2707385501144840649318225287225658788936804267575313519463743609750303402022
  [0, 1, ofOrderEight, prime - ofOrderEight, prime - 1, prime, prime + 1]

/-- The encoded point has small order. -/
def hasSmallOrder (bs : Bytes) : Bool :=
  smallOrder.contains (Bytes.toNatLE bs % (1 <<< 255))

/-- The signature belongs to the public key and the message. -/
def verifyBytes (key message signature : Bytes) : Bool :=
  let point := signature.take 32
  let s := Bytes.toNatLE (signature.drop 32)
  if order ≤ s || hasSmallOrder point || prime ≤ Bytes.toNatLE key % (1 <<< 255) ||
      hasSmallOrder key then false
  else match Point.decode? key with
    | none => false
    | some a =>
      let k := reduced (point ++ key ++ message)
      ((Point.multiple 253 s .base).add (Point.multiple 253 k a.neg)).encode == point

/-- Ed25519. -/
def scheme : SignatureScheme where
  publicKey seed := ⟨publicBytes seed.bytes, by simp [publicBytes, Point.encode, KeyKind.width]⟩
  sign seed message := ⟨signBytes seed.bytes message, by
    simp [signBytes, Point.encode, KeyKind.width]⟩
  verify key message signature := verifyBytes key.bytes message signature.bytes

end Curve

end LedgerClient
