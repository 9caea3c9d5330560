import LedgerClient.Program.Payload
import LedgerClient.Proofs.Discriminator
import LedgerClient.Proofs.Wire.Layout

/-!
# Payloads are read as they are written

A payload is its tag and what its layout writes. Reading it takes these bytes and nothing else, so
for one tag and one layout the values are known from the data.

## Main results

* `Payload.bytes_eq_ok`: the bytes of a payload
* `Payload.recognizes_read`: a payload is read just where its bytes stand
* `Payload.exists_codec_iff`: a payload without bytes is refused by the codec
-/

namespace LedgerClient.Payload

variable {p : Payload} {bs : Bytes}

theorem bytes_eq_ok (h : p.layout.IsSchema) :
    p.bytes = .ok bs ↔
      ∃ rest, (p.layout.write p.values).run = .ok rest ∧ p.tag.bytes ++ rest = bs := by
  have happends := h.appends_write p.values
  rw [bytes, write, Write.run_seq_eq_ok happends]
  constructor
  · rintro ⟨_, rest, ⟨rfl⟩, hrest, rfl⟩
    exact ⟨rest, hrest, rfl⟩
  · rintro ⟨rest, hrest, rfl⟩
    exact ⟨p.tag.bytes, rest, rfl, hrest, rfl⟩

/-- A payload has bytes just when its values have. -/
theorem succeeds_iff (h : p.layout.IsSchema) :
    (∃ bs, p.bytes = .ok bs) ↔ (p.layout.write p.values).Succeeds := by
  simp only [bytes_eq_ok h]
  constructor
  · rintro ⟨-, rest, hrest, -⟩
    exact ⟨rest, hrest⟩
  · rintro ⟨rest, hrest⟩
    exact ⟨_, rest, hrest, rfl⟩

/-- **A payload without bytes is refused by the codec**, and only then. -/
theorem exists_codec_iff (h : p.layout.IsSchema) :
    (∃ cause, p.bytes = .error (.codec cause)) ↔ ¬(p.layout.write p.values).Succeeds := by
  have hrefuses : Write.Refuses p.write :=
    Write.Refuses.seq (h.appends_write p.values) (Write.refuses_bytes _)
      (h.refuses_write p.values)
  rw [← succeeds_iff h]
  exact hrefuses.exists_codec_iff

/-- **A payload is read just where its bytes stand.** -/
theorem recognizes_read (tag : Discriminator) {layout : Layout} (h : layout.IsSchema) :
    Read.Recognizes (read tag layout) fun xs bs =>
      layout.Fits xs ∧ bytes ⟨tag, layout, xs⟩ = .ok bs := by
  refine (tag.recognizes_read.bind fun _ _ _ => h.recognizes_read).congr fun xs bs => ?_
  rw [bytes_eq_ok (p := ⟨tag, layout, xs⟩) h]
  constructor
  · rintro ⟨-, _, rest, rfl, ⟨hfits, hrest⟩, rfl⟩
    exact ⟨hfits, rest, hrest, rfl⟩
  · rintro ⟨hfits, rest, hrest, rfl⟩
    exact ⟨(), _, rest, rfl, ⟨hfits, hrest⟩, rfl⟩

end LedgerClient.Payload
