import LedgerClient.Proofs.Message.Format

/-!
# Messages that were read

A message that is read has a fee payer, and the fee payer signs. Whether the fee payer may be
changed is up to the counts: the check lets a message pass whose signers are all read-only, and
the first account of such a message signs but is only read.

## Main results

* `Message.ofBytes_feePayer`: the fee payer of a message that is read signs, and it may be changed
  just when not all signers are read-only
* `Message.not_isWritable_ofBytes`: a message is read whose fee payer may not be changed
-/

namespace LedgerClient.Message

variable {bs : Bytes} {m : Message}

theorem WellFormed.feePayer_eq_ok (h : m.WellFormed) :
    ∃ key, m.feePayer = .ok key ∧ m.keys[0]? = some key := by
  obtain ⟨hone, hlisted⟩ := h.signers
  cases hkeys : m.keys with
  | nil =>
    rw [hkeys, List.length_nil] at hlisted
    omega
  | cons key keys => exact ⟨key, by rw [feePayer, hkeys], rfl⟩

theorem WellFormed.isSigner_zero (h : m.WellFormed) : m.isSigner 0 = true := by
  have hone := h.signers.1
  exact decide_eq_true (by omega)

/-- The first account of a well-formed message may be changed unless all signers are read-only. -/
theorem WellFormed.isWritable_zero (h : m.WellFormed) :
    m.isWritable 0 = true ↔ m.header.readonlySigners ≠ m.header.signers := by
  have hsigner := of_decide_eq_true h.isSigner_zero
  have hle := h.readonlySigners.2
  rw [isWritable, if_pos hsigner, decide_eq_true_eq]
  omega

/-- **The fee payer of a message that is read** is its first account and signs. It may be changed
just when not all signers are read-only; the check does not ask for that. -/
theorem ofBytes_feePayer (h : ofBytes bs = .ok m) :
    (∃ key, m.feePayer = .ok key ∧ m.keys[0]? = some key) ∧ m.isSigner 0 = true ∧
      (m.isWritable 0 = true ↔ m.header.readonlySigners ≠ m.header.signers) := by
  obtain ⟨hwell, -⟩ := ofBytes_eq_ok.mp h
  exact ⟨hwell.feePayer_eq_ok, hwell.isSigner_zero, hwell.isWritable_zero⟩

/-- One of two signers may be changed, so it is the first one that may. -/
theorem ofBytes_feePayer_two_signers :
    let payer : PublicKey := .ofRightmost .publicKey [7]
    let m : Message := ⟨⟨2, 1, 0⟩, [payer, .zero .publicKey], .zero .hash, [], [], .v0⟩
    ∃ bs, m.bytes = .ok bs ∧ ofBytes bs = .ok m ∧ m.feePayer = .ok payer ∧
      m.isSigner 0 = true ∧ m.isWritable 0 = true := by
  intro payer m
  have hwell : m.WellFormed := by constructor <;> decide
  obtain ⟨bs, hbytes⟩ := hwell.bytes_eq_ok
  have hread : ofBytes bs = .ok m := ofBytes_eq_ok.mpr ⟨hwell, hbytes⟩
  obtain ⟨⟨key, hpayer, hfirst⟩, hsigner, hwritable⟩ := ofBytes_feePayer hread
  cases hfirst
  exact ⟨bs, hbytes, hread, hpayer, hsigner, hwritable.mpr (by decide)⟩

/-- A legacy message is read whose only signer, the fee payer, is read-only. -/
theorem not_isWritable_ofBytes :
    let payer : PublicKey := .ofRightmost .publicKey [7]
    let m : Message := ⟨⟨1, 1, 0⟩, [payer], .zero .hash, [], [], .legacy⟩
    ofBytes ([1, 1, 0, 1] ++ payer.bytes ++ Bytes.zeros 32 ++ [0]) = .ok m ∧
      m.isSigner 0 = true ∧ m.isWritable 0 = false := by
  intro payer m
  have hwell : m.WellFormed := by constructor <;> decide
  have hkeys : (Write.array Write.key m.keys).run = .ok (1 :: payer.bytes) :=
    (Write.run_array_eq_ok fun k => Write.appends_key k).mpr
      ⟨[1], payer.bytes, CompactU16.encode_of_lt (by decide), rfl, rfl⟩
  have hinstructions : (Write.array writeInstruction m.instructions).run = .ok [0] :=
    (Write.run_array_eq_ok appends_writeInstruction).mpr
      ⟨[0], [], CompactU16.encode_of_lt (by decide), rfl, rfl⟩
  have hbytes := bytes_eq_ok.mpr ⟨[], [1], [1], [0], _, _, [], rfl, rfl, rfl, rfl, hkeys,
    hinstructions, rfl, rfl⟩
  exact ⟨ofBytes_eq_ok.mpr ⟨hwell, hbytes⟩, by decide, by decide⟩

end LedgerClient.Message
