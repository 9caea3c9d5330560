import LedgerClient.Proofs.Base58
import LedgerClient.Proofs.Base64
import LedgerClient.Proofs.Message.Format
import LedgerClient.Transaction

/-!
# Transactions as bytes and texts

The bytes of a transaction are its signatures after their number, and the message. Reading takes
these bytes back and nothing else: the signatures and the message are read like any other items,
and only when both stand there is their number compared with the signers that the message asks
for. A text of a transaction is a text of its bytes, so it is read back as well.

## Main definitions

* `Transaction.WellFormed`: what makes a transaction readable

## Main results

* `Transaction.ofBytes_eq_ok`: which bytes are read as which transaction
* `Transaction.ofBytes_refuses`: how other bytes are refused
* `Transaction.wire_format_bijection`: both of them, and the texts of a transaction
-/

namespace LedgerClient.Transaction

variable {t : Transaction} {bs : Bytes}

/-- The transaction has a signature slot for each signer of a well-formed message. -/
structure WellFormed (t : Transaction) : Prop where
  slots : (t.signatures.length : Int) = t.message.header.signers
  message : t.message.WellFormed

/-! ## Signatures and message -/

theorem bytes_eq_ok_iff :
    t.bytes = .ok bs ↔ (t.signatures.length : Int) = t.message.header.signers ∧
      ∃ a b, (Write.array Write.key t.signatures).run = .ok a ∧ t.message.bytes = .ok b ∧
        a ++ b = bs := by
  have hmessage : t.message.write.Appends := by
    obtain ⟨-, -, -, -, hparts⟩ := Message.appends_parts t.message
    rw [Message.write_eq]
    refine Write.Appends.seq ?_ hparts
    cases t.message.version
    · exact Write.appends_pure
    · exact Write.appends_integer .u8 0x80
  rw [bytes]
  by_cases hslots : (t.signatures.length : Int) = t.message.header.signers
  · rw [if_pos hslots, and_iff_right hslots, write, Write.run_seq_eq_ok hmessage]
    rfl
  · rw [if_neg hslots]
    exact ⟨fun h => (nomatch h), fun h => absurd h.1 hslots⟩

/-- Reading takes signatures and the bytes of a well-formed message. How many signatures there
should be is not looked at. -/
theorem recognizes_read : Read.Recognizes read fun x bs =>
    x.2.WellFormed ∧ ∃ a b, (Write.array Write.key x.1).run = .ok a ∧ x.2.bytes = .ok b ∧
      a ++ b = bs := by
  have hsignatures := (Read.inverts_key .signature).array fun k => Write.appends_key k
  refine (hsignatures.bind fun signatures _ _ => Message.recognizes_read.bind fun m _ _ =>
    Read.recognizes_pure (signatures, m)).congr fun x bs => ?_
  constructor
  · rintro ⟨signatures, a, -, ha, ⟨m, b, -, ⟨hwell, hb⟩, ⟨rfl, rfl⟩, rfl⟩, rfl⟩
    refine ⟨hwell, a, b, ha, hb, ?_⟩
    rw [List.append_nil]
  · obtain ⟨signatures, m⟩ := x
    rintro ⟨hwell, a, b, ha, hb, rfl⟩
    exact ⟨signatures, a, b, ha, ⟨m, b, [], ⟨hwell, hb⟩, ⟨rfl, rfl⟩, List.append_nil b⟩, rfl⟩

/-! ## Bytes -/

theorem ofBytes_eq_ok : ofBytes bs = .ok t ↔ t.WellFormed ∧ t.bytes = .ok bs := by
  have hmake (m : Message) (signatures : List Signature) : make m signatures = .ok t ↔
      (signatures.length : Int) = m.header.signers ∧ ⟨m, signatures⟩ = t := by
    rw [make]
    split
    · next h => rw [and_iff_right h, Except.ok.injEq]
    · next h => exact ⟨fun hok => (nomatch hok), fun hok => absurd hok.1 h⟩
  rw [bytes_eq_ok_iff]
  constructor
  · intro hread
    rw [ofBytes] at hread
    cases hall : Read.all read bs with
    | error fault =>
      rw [hall] at hread
      cases hread
    | ok x =>
      rw [hall] at hread
      obtain ⟨hslots, rfl⟩ := (hmake x.2 x.1).mp hread
      obtain ⟨hwell, hparts⟩ := recognizes_read.all_eq_ok.mp hall
      exact ⟨⟨hslots, hwell⟩, hslots, hparts⟩
  · rintro ⟨hwell, hslots, hparts⟩
    have hall : Read.all read bs = .ok (t.signatures, t.message) :=
      recognizes_read.all_eq_ok.mpr ⟨hwell.message, hparts⟩
    rw [ofBytes, hall]
    exact (hmake _ _).mpr ⟨hslots, rfl⟩

/-- **Bytes that are not read** are refused: by the format, or because the signatures are too few
or too many. -/
theorem ofBytes_refuses (bs : Bytes) : (∃ t, ofBytes bs = .ok t) ∨
    (∃ cause, ofBytes bs = .error (.codec cause)) ∨
      ∃ count signers, ofBytes bs = .error (.invalid (.signatureCount count signers)) := by
  rw [ofBytes]
  rcases recognizes_read.all_refuses bs with ⟨⟨signatures, m⟩, hall⟩ | ⟨cause, hall⟩
  · rw [hall]
    change (∃ t, make m signatures = .ok t) ∨ (∃ cause, make m signatures = .error (.codec cause)) ∨
      ∃ count signers, make m signatures = .error (.invalid (.signatureCount count signers))
    rw [make]
    split
    · exact .inl ⟨_, rfl⟩
    · exact .inr (.inr ⟨_, _, rfl⟩)
  · rw [hall]
    exact .inr (.inl ⟨cause, rfl⟩)

/-- A well-formed transaction has bytes: its signatures are at most as many as a byte can count. -/
theorem WellFormed.bytes_eq_ok (h : t.WellFormed) : ∃ bs, t.bytes = .ok bs := by
  have hcount : t.signatures.length ≤ 0xFFFF := by
    have hslots := h.slots
    have hbyte := h.message.counts.1
    omega
  obtain ⟨a, ha⟩ := (Write.succeeds_array fun k => Write.appends_key k).mpr
    ⟨hcount, fun k _ => ⟨k.bytes, Write.run_key k⟩⟩
  obtain ⟨b, hb⟩ := h.message.bytes_eq_ok
  exact ⟨a ++ b, bytes_eq_ok_iff.mpr ⟨h.slots, a, b, ha, hb, rfl⟩⟩

/-! ## Texts -/

theorem ofBase64_encode (bs : Bytes) : ofBase64 (Base64.encode bs) = ofBytes bs := by
  rw [ofBase64, Base64.decode_encode]

theorem ofBase58_encode (bs : Bytes) : ofBase58 (Base58.encode bs) = ofBytes bs := by
  rw [ofBase58, Base58.decode?_encode]

/-- **Bytes and well-formed transactions are in bijection.** What is read as a transaction is
exactly what a transaction with a slot for each signer of a well-formed message is written as, and
all other bytes are refused with a codec or a validation fault. Both texts of such a transaction
are read back as the transaction, and the base58 text is the positional code of its bytes. -/
theorem wire_format_bijection :
    (∀ (bs : Bytes) (t : Transaction), ofBytes bs = .ok t ↔
      (t.signatures.length : Int) = t.message.header.signers ∧ t.message.WellFormed ∧
        t.bytes = .ok bs) ∧
    (∀ bs : Bytes, (∃ t, ofBytes bs = .ok t) ∨ (∃ cause, ofBytes bs = .error (.codec cause)) ∨
      ∃ cause, ofBytes bs = .error (.invalid cause)) ∧
    ∀ t : Transaction, (t.signatures.length : Int) = t.message.header.signers →
      t.message.WellFormed → ∃ bs, t.bytes = .ok bs ∧ ofBytes bs = .ok t ∧
        (∃ text, t.base64 = .ok text ∧ ofBase64 text = .ok t) ∧
        ∃ text, t.base58 = .ok text ∧ ofBase58 text = .ok t ∧ Base58.Codes text.toList bs := by
  refine ⟨fun bs t => ?_, fun bs => ?_, fun t hslots hmessage => ?_⟩
  · rw [ofBytes_eq_ok]
    constructor
    · rintro ⟨hwell, hbytes⟩
      exact ⟨hwell.slots, hwell.message, hbytes⟩
    · rintro ⟨hslots, hmessage, hbytes⟩
      exact ⟨⟨hslots, hmessage⟩, hbytes⟩
  · rcases ofBytes_refuses bs with hread | hcodec | ⟨count, signers, hinvalid⟩
    · exact .inl hread
    · exact .inr (.inl hcodec)
    · exact .inr (.inr ⟨_, hinvalid⟩)
  · have hwell : t.WellFormed := ⟨hslots, hmessage⟩
    obtain ⟨bs, hbytes⟩ := hwell.bytes_eq_ok
    have hread : ofBytes bs = .ok t := ofBytes_eq_ok.mpr ⟨hwell, hbytes⟩
    refine ⟨bs, hbytes, hread, ⟨Base64.encode bs, ?_, ?_⟩, Base58.encode bs, ?_, ?_, ?_⟩
    · rw [base64, hbytes]
      rfl
    · rw [ofBase64_encode, hread]
    · rw [base58, hbytes]
      rfl
    · rw [ofBase58_encode, hread]
    · rw [Base58.encode, String.toList_ofList]
      exact Base58.codes_iff.mpr rfl

/-- A transaction with an empty slot and a message that loads two accounts. -/
theorem wire_format_bijection_loading :
    let m : Message := ⟨⟨1, 0, 0⟩, [.zero .publicKey], .zero .hash, [⟨0, [1, 2, 1], [7]⟩],
      [⟨.zero .publicKey, [3], [0]⟩], .v0⟩
    let t : Transaction := ⟨m, [.zero .signature]⟩
    (t.signatures.length : Int) = m.header.signers ∧ m.WellFormed ∧
      ∃ bs, t.bytes = .ok bs ∧ ofBytes bs = .ok t := by
  intro m t
  have hslots : (t.signatures.length : Int) = t.message.header.signers := rfl
  have hmessage : t.message.WellFormed := by constructor <;> decide
  obtain ⟨bs, hbytes, hread, -⟩ := wire_format_bijection.2.2 t hslots hmessage
  exact ⟨hslots, hmessage, bs, hbytes, hread⟩

end LedgerClient.Transaction
