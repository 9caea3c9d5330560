import LedgerClient.Proofs.Base58
import LedgerClient.Proofs.Text.Malformed

/-!
# Blobs keep their bytes

A blob is read from three shapes of JSON and written in one, a pair of a payload and the name of an
encoding. Writing keeps the bytes, whatever the encoding that they came in, but not the encoding:
everything that is not base58 is written in base64, since frames are opened when they are read and
not made again. So a blob is the same after writing and reading if nothing of it was left out.

A bare payload says what a pair with the name of base58 says, also where it is refused.

## Main results

* `Blob.toJson_eq`: the pair that is written for a blob
* `Blob.ofJsonWith_written`: a pair that is written is read back as the same bytes
* `Blob.json_keeps_bytes`: bytes through JSON, and the two shapes of base58
-/

namespace LedgerClient

open Fault (Confined IsCodec)

namespace Encoding

variable (inflate? : Bytes → Option Bytes)

/-- The encoding that bytes are written in, if they came in this one. -/
def written : Encoding → Encoding
  | .base58 => .base58
  | _ => .base64

/-- The payload of bytes that are written. -/
def payload : Encoding → Bytes → String
  | .base58, bs => Base58.encode bs
  | _, bs => Base64.encode bs

/-- What is written is read back, and no frame is opened for it. -/
theorem decodeWith_payload (encoding : Encoding) (bs : Bytes) :
    encoding.written.decodeWith inflate? (encoding.payload bs) = .ok bs := by
  have hbase64 : Encoding.base64.decodeWith inflate? (Base64.encode bs) = .ok bs := by
    rw [decodeWith, Base64.decode_encode]
  cases encoding with
  | base58 =>
    rw [written, payload, decodeWith, Base58.decode?_encode]
    rfl
  | base64 => exact hbase64
  | compressed => exact hbase64
  | parsed => exact hbase64

theorem written_eq_self {encoding : Encoding} :
    encoding.written = encoding ↔ encoding = .base58 ∨ encoding = .base64 := by
  cases encoding <;> decide

end Encoding

namespace Blob

variable (inflate? : Bytes → Option Bytes)

/-- The pair that is written for a blob; there is none for parsed data. -/
theorem toJson_eq (blob : Blob) :
    blob.toJson = if blob.encoding = .parsed then .error (.codec .blobParsed) else
      .ok (.arr [.str (blob.encoding.payload blob.data), .str blob.encoding.written.name]) := by
  rw [toJson]
  cases blob.encoding <;> rfl

/-- A pair is read as its payload is, in the encoding of its name. -/
theorem ofJsonWith_pair (payload : String) (encoding : Encoding) :
    ofJsonWith inflate? (.arr [.str payload, .str encoding.name]) =
      (encoding.decodeWith inflate? payload).map fun data => ⟨data, encoding, none⟩ := by
  rw [ofJsonWith, Encoding.ofName?_eq_some.mpr rfl]
  dsimp only
  cases encoding.decodeWith inflate? payload <;> rfl

/-- **A pair that is written is read back** as the same bytes, in the encoding it was written in. -/
theorem ofJsonWith_written (bs : Bytes) (encoding : Encoding) :
    ofJsonWith inflate? (.arr [.str (encoding.payload bs), .str encoding.written.name]) =
      .ok ⟨bs, encoding.written, none⟩ := by
  rw [ofJsonWith_pair, Encoding.decodeWith_payload]
  rfl

/-- A bare payload is one in base58. -/
theorem ofJsonWith_str (text : String) :
    ofJsonWith inflate? (.str text) =
      ofJsonWith inflate? (.arr [.str text, .str Encoding.base58.name]) := by
  rw [ofJsonWith_pair, ofJsonWith]
  cases Encoding.base58.decodeWith inflate? text <;> rfl

/-- **Bytes are kept through JSON.** A blob that is not parsed is written, and read back with the
same bytes, in base58 if it came so and in base64 otherwise; written again, it is the same pair. So
writing and reading leave just those blobs as they are that came in base58 or base64, with no
parsed object beside the bytes. A bare payload is read as the pair with the name of base58 is, and
both have the same fault of the codec if they are refused. -/
theorem json_keeps_bytes :
    (∀ blob : Blob, blob.encoding ≠ .parsed →
      ∃ value blob', blob.toJson = .ok value ∧ ofJsonWith inflate? value = .ok blob' ∧
        blob'.data = blob.data ∧
        blob'.encoding = (if blob.encoding = .base58 then .base58 else .base64) ∧
        blob'.toJson = .ok value) ∧
    (∀ blob : Blob, blob.toJson >>= ofJsonWith inflate? = .ok blob ↔
      (blob.encoding = .base58 ∨ blob.encoding = .base64) ∧ blob.parsed = none) ∧
    ∀ text : String,
      ofJsonWith inflate? (.str text) = ofJsonWith inflate? (.arr [.str text, .str "base58"]) ∧
      Confined IsCodec (ofJsonWith inflate? (.str text)) := by
  refine ⟨fun blob hparsed => ?_, fun blob => ?_, fun text =>
    ⟨ofJsonWith_str inflate? text, confined_ofJsonWith_str inflate? text⟩⟩
  · have hjson := toJson_eq blob
    rw [if_neg hparsed] at hjson
    refine ⟨_, _, hjson, ofJsonWith_written inflate? blob.data blob.encoding, rfl, ?_, ?_⟩
    · cases blob.encoding <;> rfl
    · rw [toJson_eq]
      cases blob.encoding <;> rfl
  · rw [toJson_eq, ← Encoding.written_eq_self]
    split
    · next hparsed =>
      rw [hparsed]
      exact ⟨nofun, fun h => nomatch h.1⟩
    · change pure _ >>= ofJsonWith inflate? = _ ↔ _
      rw [pure_bind, ofJsonWith_written, Except.ok.injEq]
      obtain ⟨data, encoding, parsed⟩ := blob
      rw [Blob.mk.injEq, eq_comm (a := none)]
      exact and_iff_right rfl

/-- Three bytes that came in a frame are written in base64, without a frame. -/
theorem json_keeps_bytes_compressed :
    ∃ value blob', toJson ⟨[0, 0, 1], .compressed, none⟩ = .ok value ∧
      ofJson value = .ok blob' ∧ blob'.data = [0, 0, 1] ∧ blob'.encoding = .base64 ∧
      toJson ⟨[0, 0, 1], .compressed, none⟩ >>= ofJson ≠ .ok ⟨[0, 0, 1], .compressed, none⟩ := by
  obtain ⟨hkept, hsame, -⟩ := json_keeps_bytes Frame.decode?
  obtain ⟨value, blob', hjson, hread, hdata, hencoding, -⟩ :=
    hkept ⟨[0, 0, 1], .compressed, none⟩ (by decide)
  refine ⟨value, blob', hjson, hread, hdata, hencoding, fun hround => ?_⟩
  obtain ⟨h | h, -⟩ := (hsame ⟨[0, 0, 1], .compressed, none⟩).mp hround
  · cases h
  · cases h

end Blob

end LedgerClient
