import LedgerClient.Blob
import LedgerClient.Proofs.Base64
import LedgerClient.Proofs.Fault
import LedgerClient.Proofs.Transaction.Format

/-!
# Texts that cannot be read

Keys, keypairs, blobs and transactions are read from base58 and base64. Whatever the text, a reader
of base58 has a fault of its own for it. A reader of base64 has one for a text of ASCII only: the
codec beneath it refuses a character beyond ASCII in another way than everything else, and that
refusal passes through as the misuse of a value. It is seen at each reader by itself, and no frame
in a blob makes a difference, however it is opened.

## Main definitions

* `Encoding.UsesBase64`: the payloads of an encoding are written in base64
* `Transaction.IsRefusal`: a fault of the codec or a broken precondition

## Main results

* `Base64.confined_iff`: what lets the refusal of a character pass is confined on ASCII alone
* `Fault.malformed_text`: which readers keep to faults of their own, and on which texts
-/

namespace LedgerClient

open Base64 (IsAscii)
open Fault (Confined IsCodec IsInvalid IsCrypto)

variable {text : String}

/-- A computation that turns the refusal of a character into a misuse, and has faults of some kind
otherwise, has faults of that kind only on texts of ASCII. -/
theorem Base64.confined_iff {α : Type} {kind : Fault → Prop} {x : Except Fault α}
    (hmisuse : ¬kind (.misuse .value))
    (hflaw : decode text = .error .notAscii → x = .error (.misuse .value))
    (hother : decode text ≠ .error .notAscii → Confined kind x) :
    Confined kind x ↔ IsAscii text := by
  constructor
  · intro hconfined
    by_contra hascii
    apply hmisuse
    apply hconfined
    exact hflaw (decode_eq_notAscii.mpr hascii)
  · intro hascii
    apply hother
    intro hdecode
    exact decode_eq_notAscii.mp hdecode hascii

theorem Base58.confined_decode (label text : String) :
    Confined IsCrypto (Base58.decode label text) := by
  rw [Base58.decode]
  split
  · exact Confined.ok _
  · exact Confined.error ⟨_, rfl⟩

/-! ## Keys and keypairs -/

namespace Key

theorem confined_ofBase58 (kind : KeyKind) (text : String) :
    Confined IsCrypto (ofBase58 kind text) := by
  apply Confined.bind (Base58.confined_decode _ _)
  intro bs
  split
  · exact Confined.ok _
  · exact Confined.error ⟨_, rfl⟩

theorem confined_ofBase64_iff (kind : KeyKind) :
    Confined IsCrypto (ofBase64 kind text) ↔ IsAscii text := by
  apply Base64.confined_iff
  · rintro ⟨cause, hcause⟩
    cases hcause
  · intro hdecode
    rw [ofBase64, hdecode]
  · intro hdecode
    rw [ofBase64]
    split
    · next h => exact absurd h hdecode
    · exact Confined.error ⟨_, rfl⟩
    · split
      · exact Confined.ok _
      · exact Confined.error ⟨_, rfl⟩

end Key

namespace Keypair

variable (S : SignatureScheme)

theorem confined_ofSeed (bs : Bytes) : Confined IsCrypto (ofSeed bs) := by
  rw [ofSeed]
  split
  · exact Confined.ok _
  · exact Confined.error ⟨_, rfl⟩

theorem confined_ofSecret (secret : Bytes) : Confined IsCrypto (ofSecret S secret) := by
  rw [ofSecret]
  split
  · exact Confined.error ⟨_, rfl⟩
  · apply Confined.bind (confined_ofSeed _)
    intro keypair
    split
    · exact Confined.error ⟨_, rfl⟩
    · exact Confined.ok _

theorem confined_ofBase58 (text : String) : Confined IsCrypto (ofBase58 S text) := by
  apply Confined.bind (Base58.confined_decode _ _)
  exact confined_ofSecret S

end Keypair

/-! ## Blobs -/

/-- The payloads of an encoding are written in base64. -/
def Encoding.UsesBase64 (encoding : Encoding) : Prop :=
  encoding = .base64 ∨ encoding = .compressed

instance (encoding : Encoding) : Decidable encoding.UsesBase64 :=
  inferInstanceAs (Decidable (encoding = .base64 ∨ encoding = .compressed))

namespace Encoding

/-- An encoding is found by its name, which no other has. -/
theorem ofName?_eq_some {name : String} {encoding : Encoding} :
    ofName? name = some encoding ↔ encoding.name = name := by
  constructor
  · intro h
    have hname := List.find?_some h
    exact eq_of_beq hname
  · rintro rfl
    cases encoding <;> decide

theorem usesBase64_iff {encoding : Encoding} :
    encoding.UsesBase64 ↔ encoding.name = "base64" ∨ encoding.name = "base64+zstd" := by
  cases encoding <;> decide +revert

theorem exists_usesBase64_iff (name : String) :
    (∃ encoding, ofName? name = some encoding ∧ encoding.UsesBase64) ↔
      name = "base64" ∨ name = "base64+zstd" := by
  constructor
  · rintro ⟨encoding, hname, huses⟩
    rw [← ofName?_eq_some.mp hname]
    exact usesBase64_iff.mp huses
  · rintro (rfl | rfl)
    · exact ⟨.base64, ofName?_eq_some.mpr rfl, .inl rfl⟩
    · exact ⟨.compressed, ofName?_eq_some.mpr rfl, .inr rfl⟩

variable (inflate? : Bytes → Option Bytes)

theorem confined_decodeWith_of_not {encoding : Encoding} (h : ¬encoding.UsesBase64)
    (text : String) : Confined IsCodec (encoding.decodeWith inflate? text) := by
  cases encoding with
  | base58 =>
    rw [decodeWith]
    split
    · exact Confined.ok _
    · exact Confined.error ⟨_, rfl⟩
  | base64 => exact absurd (.inl rfl) h
  | compressed => exact absurd (.inr rfl) h
  | parsed => exact Confined.error ⟨_, rfl⟩

theorem confined_decodeWith_iff {encoding : Encoding} (h : encoding.UsesBase64) :
    Confined IsCodec (encoding.decodeWith inflate? text) ↔ IsAscii text := by
  apply Base64.confined_iff
  · rintro ⟨cause, hcause⟩
    cases hcause
  · intro hdecode
    obtain rfl | rfl := h
    · rw [decodeWith, hdecode]
    · rw [decodeWith, hdecode]
      rfl
  · intro hdecode
    cases hbytes : Base64.decode text with
    | ok bs =>
      obtain rfl | rfl := h
      · rw [decodeWith, hbytes]
        exact Confined.ok bs
      · rw [decodeWith, hbytes]
        apply Confined.bind
        · exact Confined.ok bs
        · intro bs
          split
          · exact Confined.ok _
          · exact Confined.error ⟨_, rfl⟩
    | error failure =>
      cases failure with
      | malformed =>
        obtain rfl | rfl := h
        · rw [decodeWith, hbytes]
          exact Confined.error ⟨_, rfl⟩
        · rw [decodeWith, hbytes]
          exact Confined.error ⟨_, rfl⟩
      | notAscii => exact absurd hbytes hdecode

end Encoding

namespace Blob

variable (inflate? : Bytes → Option Bytes)

theorem confined_ofJsonWith_str (text : String) :
    Confined IsCodec (ofJsonWith inflate? (.str text)) := by
  apply Confined.bind
  · apply Encoding.confined_decodeWith_of_not
    rintro (h | h) <;> cases h
  · intro data
    exact Confined.ok _

/-- A pair with the name of an encoding is read as its payload is. -/
theorem confined_ofJsonWith_pair_iff {name : String} :
    Confined IsCodec (ofJsonWith inflate? (.arr [.str text, .str name])) ↔
      ((∃ encoding, Encoding.ofName? name = some encoding ∧ encoding.UsesBase64) →
        IsAscii text) := by
  rw [ofJsonWith]
  cases Encoding.ofName? name with
  | none =>
    apply iff_of_true
    · exact Confined.error ⟨_, rfl⟩
    · rintro ⟨encoding, hname, -⟩
      cases hname
  | some encoding =>
    rw [Confined.bind_pure_iff]
    by_cases huses : encoding.UsesBase64
    · rw [Encoding.confined_decodeWith_iff inflate? huses]
      exact ⟨fun hascii _ => hascii, fun himp => himp ⟨encoding, rfl, huses⟩⟩
    · apply iff_of_true
      · exact Encoding.confined_decodeWith_of_not inflate? huses text
      · rintro ⟨encoding', hname, huses'⟩
        cases hname
        exact absurd huses' huses

end Blob

/-! ## Transactions -/

namespace Transaction

/-- The fault is one that the bytes of a transaction are refused with: they cannot be read, or they
have another number of signatures than they ask for. -/
def IsRefusal (fault : Fault) : Prop :=
  IsCodec fault ∨ IsInvalid fault

theorem confined_ofBytes (bs : Bytes) : Confined IsRefusal (ofBytes bs) := by
  rcases ofBytes_refuses bs with ⟨t, hread⟩ | ⟨cause, hcodec⟩ | ⟨count, signers, hinvalid⟩
  · rw [hread]
    exact Confined.ok t
  · rw [hcodec]
    exact Confined.error (.inl ⟨cause, rfl⟩)
  · rw [hinvalid]
    exact Confined.error (.inr ⟨_, rfl⟩)

theorem confined_ofBase58 (text : String) : Confined IsRefusal (ofBase58 text) := by
  rw [ofBase58]
  split
  · exact confined_ofBytes _
  · exact Confined.error (.inl ⟨_, rfl⟩)

theorem confined_ofBase64_iff : Confined IsRefusal (ofBase64 text) ↔ IsAscii text := by
  apply Base64.confined_iff
  · rintro (⟨cause, hcause⟩ | ⟨cause, hcause⟩) <;> cases hcause
  · intro hdecode
    rw [ofBase64, hdecode]
  · intro hdecode
    rw [ofBase64]
    split
    · exact confined_ofBytes _
    · exact Confined.error (.inl ⟨_, rfl⟩)
    · next h => exact absurd h hdecode

end Transaction

/-! ## All readers -/

namespace Fault

/-- **A text that cannot be read has a fault of its reader, if it is of ASCII.** Readers of base58
have faults of one kind for every text. Readers of base64 have them just for the texts without a
character beyond ASCII, and so do blobs of an encoding that is written in base64, whatever opens
the frames in them. A text that is read has no fault at all. -/
theorem malformed_text (S : SignatureScheme) (inflate? : Bytes → Option Bytes) (text : String) :
    (∀ kind : KeyKind, Confined IsCrypto (Key.ofBase58 kind text)) ∧
    (∀ kind : KeyKind, Confined IsCrypto (Key.ofBase64 kind text) ↔ IsAscii text) ∧
    Confined IsCrypto (Keypair.ofBase58 S text) ∧
    Confined IsCodec (Blob.ofJsonWith inflate? (.str text)) ∧
    (∀ name : String, Confined IsCodec (Blob.ofJsonWith inflate? (.arr [.str text, .str name])) ↔
      (name = "base64" ∨ name = "base64+zstd" → IsAscii text)) ∧
    Confined Transaction.IsRefusal (Transaction.ofBase58 text) ∧
    (Confined Transaction.IsRefusal (Transaction.ofBase64 text) ↔
      IsAscii text) := by
  refine ⟨fun kind => Key.confined_ofBase58 kind text, fun kind => Key.confined_ofBase64_iff kind,
    Keypair.confined_ofBase58 S text, Blob.confined_ofJsonWith_str inflate? text, fun name => ?_,
    Transaction.confined_ofBase58 text, Transaction.confined_ofBase64_iff⟩
  rw [Blob.confined_ofJsonWith_pair_iff]
  exact imp_congr_left (Encoding.exists_usesBase64_iff name)

/-- A letter beyond ASCII is no key, no blob and no transaction, and none of the three readers has
a fault of its own for it. -/
theorem malformed_text_accent :
    Key.ofBase64 .publicKey "é" = .error (.misuse .value) ∧
      Blob.ofJson (.arr [.str "é", .str "base64"]) = .error (.misuse .value) ∧
      Transaction.ofBase64 "é" = .error (.misuse .value) ∧
      ¬Confined IsCrypto (Key.ofBase64 .publicKey "é") ∧
      ¬Confined IsCodec (Blob.ofJson (.arr [.str "é", .str "base64"])) ∧
      ¬Confined Transaction.IsRefusal (Transaction.ofBase64 "é") := by
  have hascii : ¬IsAscii "é" := by
    intro hall
    have hletter := hall 'é' (by simp)
    exact absurd hletter (by decide)
  have hdecode := Base64.decode_eq_notAscii.mpr hascii
  have hencoding : Encoding.ofName? "base64" = some .base64 := Encoding.ofName?_eq_some.mpr rfl
  refine ⟨?_, ?_, ?_, ?_, ?_, ?_⟩
  · rw [Key.ofBase64, hdecode]
  · rw [Blob.ofJson, Blob.ofJsonWith, hencoding]
    dsimp only
    rw [Encoding.decodeWith, hdecode]
    rfl
  · rw [Transaction.ofBase64, hdecode]
  · exact hascii ∘ (Key.confined_ofBase64_iff .publicKey).mp
  · intro hconfined
    apply hascii
    apply (Blob.confined_ofJsonWith_pair_iff _).mp hconfined
    exact ⟨.base64, hencoding, .inl rfl⟩
  · exact hascii ∘ Transaction.confined_ofBase64_iff.mp

end Fault

end LedgerClient
