import Mathlib.Data.List.TakeWhile
import LedgerClient.Http.Response

/-!
# Bodies as a whole

A body is put together chunk by chunk, and refused at the first chunk that makes it too long; what
comes behind this chunk is never looked at. That the outcome depends on the whole body alone needs
an invariant: what has come so far fits the limit, so that a body which is too long becomes so at
some chunk, and one which is not never does. The status is looked at only when all of the body has
come, and then together with its first byte that is not blank, wherever it is cut.

## Main definitions

* `Http.Exceeds`: more bytes than a limit allows
* `Http.OpensJson`: a body that begins, behind blanks, like an object or a list
* `Http.Response.IsRefused`: a body that is refused for its status

## Main results

* `Http.collectOnto_some`: the chunks behind a part that fits
* `Http.looksLikeJson_iff`: the look at the beginning of a body
* `Http.Response.body_exact`: what comes of a response, by its whole body
-/

namespace LedgerClient.Http

variable {limit : Option Nat} {most : Nat} {bs : Bytes} {chunks chunks' : List Bytes}

/-- There are more bytes than the limit allows, if there is one. -/
def Exceeds (limit : Option Nat) (size : Nat) : Prop :=
  ∃ most, limit = some most ∧ most < size

/-- The body begins, behind blanks, like an object or a list. -/
def OpensJson (bs : Bytes) : Prop :=
  ∃ (blanks rest : Bytes) (b : UInt8), bs = blanks ++ b :: rest ∧
    (∀ c ∈ blanks, c ∈ ([0x20, 0x09, 0x0A, 0x0B, 0x0C, 0x0D] : Bytes)) ∧ (b = 0x7B ∨ b = 0x5B)

/-! ## Chunks -/

theorem collectOnto_none (bs : Bytes) (chunks : List Bytes) :
    collectOnto none bs chunks = .ok (bs ++ chunks.flatten) := by
  induction chunks generalizing bs with
  | nil => rw [collectOnto, List.flatten_nil, List.append_nil]
  | cons chunk chunks ih => rw [collectOnto, ih, List.flatten_cons, List.append_assoc]

/-- **The chunks behind a part that fits** are refused if they make it too long together. -/
theorem collectOnto_some (h : bs.length ≤ most) :
    collectOnto (some most) bs chunks =
      if most < (bs ++ chunks.flatten).length then .error (.limit (.response most))
      else .ok (bs ++ chunks.flatten) := by
  -- Induction on the chunks to come; the part that has come fits before each of them.
  induction chunks generalizing bs with
  | nil =>
    rw [List.flatten_nil, List.append_nil, if_neg (Nat.not_lt.mpr h)]
    rfl
  | cons chunk chunks ih =>
    rw [collectOnto, List.flatten_cons, ← List.append_assoc]
    split
    · next hlong =>
      rw [if_pos]
      rw [List.length_append]
      exact Nat.lt_add_right _ hlong
    · next hfits => exact ih (Nat.not_lt.mp hfits)

/-- Chunks are refused if they exceed the limit, and are put together otherwise. -/
theorem collect_of_exceeds (h : Exceeds limit chunks.flatten.length) :
    ∃ most, collect limit chunks = .error (.limit (.response most)) := by
  obtain ⟨most, rfl, hmost⟩ := h
  refine ⟨most, ?_⟩
  rw [collect, collectOnto_some (Nat.zero_le most), List.nil_append, if_pos hmost]

theorem collect_of_not_exceeds (h : ¬Exceeds limit chunks.flatten.length) :
    collect limit chunks = .ok chunks.flatten := by
  cases limit with
  | none => rw [collect, collectOnto_none, List.nil_append]
  | some most =>
    have hmost : ¬most < chunks.flatten.length := fun hmost => h ⟨most, rfl, hmost⟩
    rw [collect, collectOnto_some (Nat.zero_le most), List.nil_append, if_neg hmost]

/-- Chunks of one body have one outcome. -/
theorem collect_congr (h : chunks.flatten = chunks'.flatten) :
    collect limit chunks = collect limit chunks' := by
  cases limit with
  | none => rw [collect, collect, collectOnto_none, collectOnto_none, h]
  | some most =>
    rw [collect, collect, collectOnto_some (Nat.zero_le most), collectOnto_some (Nat.zero_le most),
      h]

/-! ## The beginning of a body -/

theorem isBlankByte_iff {b : UInt8} :
    isBlankByte b = true ↔ b ∈ ([0x20, 0x09, 0x0A, 0x0B, 0x0C, 0x0D] : Bytes) := by
  simp only [isBlankByte, Bool.or_eq_true, Bool.and_eq_true, beq_iff_eq, decide_eq_true_eq,
    List.mem_cons, List.not_mem_nil, or_false, UInt8.le_iff_toNat_le, ← UInt8.toNat_inj]
  change b.toNat = 32 ∨ 9 ≤ b.toNat ∧ b.toNat ≤ 13 ↔ b.toNat = 32 ∨ b.toNat = 9 ∨ b.toNat = 10 ∨
    b.toNat = 11 ∨ b.toNat = 12 ∨ b.toNat = 13
  omega

/-- **The look at the beginning of a body** goes behind all of its blanks. -/
theorem looksLikeJson_iff : looksLikeJson bs = true ↔ OpensJson bs := by
  unfold looksLikeJson
  constructor
  · intro h
    split at h
    · next b rest hdrop =>
      refine ⟨bs.takeWhile isBlankByte, rest, b, ?_, ?_, ?_⟩
      · rw [← hdrop, List.takeWhile_append_dropWhile]
      · intro c hc
        exact isBlankByte_iff.mp (List.mem_takeWhile_imp hc)
      · rwa [Bool.or_eq_true, beq_iff_eq, beq_iff_eq] at h
    · cases h
  · rintro ⟨blanks, rest, b, rfl, hblanks, hb⟩
    have hnot : ¬isBlankByte b = true := by
      rcases hb with rfl | rfl <;> decide
    rw [List.dropWhile_append_of_pos fun c hc => isBlankByte_iff.mpr (hblanks c hc),
      List.dropWhile_cons_of_neg hnot, Bool.or_eq_true, beq_iff_eq, beq_iff_eq]
    exact hb

/-! ## Responses -/

namespace Response

variable {status : Int}

/-- A body is refused for its status: the status reports an error, which the body does not
explain. -/
def IsRefused (status : Int) (bs : Bytes) : Prop :=
  (400 ≤ status ∧ status ≤ 599) ∧ ¬OpensJson bs

theorem isRefused_iff :
    (isError ⟨status, chunks⟩ && !looksLikeJson bs) = true ↔ IsRefused status bs := by
  rw [Bool.and_eq_true, Bool.not_eq_true', ← Bool.not_eq_true, looksLikeJson_iff, isError,
    Bool.and_eq_true, decide_eq_true_iff, decide_eq_true_iff, IsRefused]

theorem body_of_exceeds (status : Int) (h : Exceeds limit chunks.flatten.length) :
    ∃ cause, body limit ⟨status, chunks⟩ = .error (.limit cause) := by
  obtain ⟨most, hcollect⟩ := collect_of_exceeds h
  refine ⟨.response most, ?_⟩
  rw [body, hcollect]
  rfl

/-- A body that fits is looked at as a whole. -/
theorem body_of_not_exceeds (h : ¬Exceeds limit chunks.flatten.length) :
    body limit ⟨status, chunks⟩ =
      if isError ⟨status, chunks⟩ && !looksLikeJson chunks.flatten then
        let shown := Utf8.decodeLossy (chunks.flatten.take shownBytes)
        .error (.transport s!"http {status}: {shown}" (some status))
      else .ok chunks.flatten := by
  rw [body, collect_of_not_exceeds h]
  rfl

theorem body_of_isRefused (h : ¬Exceeds limit chunks.flatten.length)
    (hrefused : IsRefused status chunks.flatten) :
    ∃ text, body limit ⟨status, chunks⟩ = .error (.transport text (some status)) := by
  rw [body_of_not_exceeds h, if_pos (isRefused_iff.mpr hrefused)]
  exact ⟨_, rfl⟩

theorem body_of_accepted (h : ¬Exceeds limit chunks.flatten.length)
    (haccepted : ¬IsRefused status chunks.flatten) :
    body limit ⟨status, chunks⟩ = .ok chunks.flatten := by
  rw [body_of_not_exceeds h, if_neg fun hrefused => haccepted (isRefused_iff.mp hrefused)]

/-- **What comes of a response depends on its whole body alone.** It is refused for its size just
when the body exceeds the limit. Otherwise it is refused for its status, which the fault tells, just
when the status reports an error and the body does not begin like an object or a list; and if it is
not, the chunks are accepted, put together as they came. So a body has one outcome, however it is
cut. -/
theorem body_exact (limit : Option Nat) (status : Int) (chunks : List Bytes) :
    ((∃ cause, body limit ⟨status, chunks⟩ = .error (.limit cause)) ↔
      Exceeds limit chunks.flatten.length) ∧
    ((∃ text, body limit ⟨status, chunks⟩ = .error (.transport text (some status))) ↔
      ¬Exceeds limit chunks.flatten.length ∧ IsRefused status chunks.flatten) ∧
    (¬Exceeds limit chunks.flatten.length → ¬IsRefused status chunks.flatten →
      body limit ⟨status, chunks⟩ = .ok chunks.flatten) ∧
    ∀ chunks' : List Bytes, chunks'.flatten = chunks.flatten →
      body limit ⟨status, chunks'⟩ = body limit ⟨status, chunks⟩ := by
  refine ⟨⟨?_, body_of_exceeds status⟩, ⟨?_, ?_⟩, body_of_accepted, ?_⟩
  · rintro ⟨cause, hbody⟩
    by_contra hfits
    by_cases hrefused : IsRefused status chunks.flatten
    · obtain ⟨text, htransport⟩ := body_of_isRefused hfits hrefused
      cases hbody.symm.trans htransport
    · cases hbody.symm.trans (body_of_accepted hfits hrefused)
  · rintro ⟨text, hbody⟩
    by_cases hexceeds : Exceeds limit chunks.flatten.length
    · obtain ⟨cause, hlimit⟩ := body_of_exceeds status hexceeds
      cases hbody.symm.trans hlimit
    · refine ⟨hexceeds, ?_⟩
      by_contra haccepted
      cases hbody.symm.trans (body_of_accepted hexceeds haccepted)
  · rintro ⟨hfits, hrefused⟩
    exact body_of_isRefused hfits hrefused
  · intro chunks' hflatten
    rw [body, body, collect_congr hflatten]
    rfl

end Response

end LedgerClient.Http
