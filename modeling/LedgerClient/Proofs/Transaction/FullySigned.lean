import LedgerClient.Proofs.Transaction.Slots

/-!
# Fully signed transactions

A transaction is fully signed when it has as many signatures as its message asks for, each of
which belongs to the account at its place. Verification holds signers and signatures together as
far as both go, so it says the same only where there are as many of one as of the other: a
signature too few or too many is not seen.

## Main definitions

* `Transaction.FullySigned`: every signature is there, and belongs to its account

## Main results

* `Transaction.fullySigned_iff`: what verification leaves to be asked
* `Transaction.verified_without_signatures`: a transaction without signatures is verified
-/

namespace LedgerClient.Transaction

variable {S : SignatureScheme} {t : Transaction} {payload : Bytes}

/-- There are as many signatures as the message asks for, and each belongs to the account at its
place. -/
def FullySigned (S : SignatureScheme) (t : Transaction) : Prop :=
  (t.signatures.length : Int) = t.message.header.signers ∧
  ∃ payload, t.message.bytes = .ok payload ∧
    ∀ i : Nat, (i : Int) < t.message.header.signers → ∃ key s, t.message.keys[i]? = some key ∧
      t.signatures[i]? = some s ∧ S.verify key payload s = true

/-- A message that cannot be written has nothing to verify. -/
theorem verified_eq_ok_true_iff : t.verified S = .ok true ↔
    ∃ payload, t.message.bytes = .ok payload ∧
      ∀ (i : Nat) (key : PublicKey) (s : Signature), t.message.signers[i]? = some key →
        t.signatures[i]? = some s → S.verify key payload s = true := by
  cases hbytes : t.message.bytes with
  | ok payload =>
    rw [verified_eq_ok_true hbytes]
    refine ⟨fun hall => ⟨payload, rfl, hall⟩, ?_⟩
    rintro ⟨_, heq, hall⟩
    cases heq
    exact hall
  | error fault =>
    have hfails : t.verified S = .error fault := by
      rw [verified, hbytes]
      rfl
    rw [hfails]
    constructor
    · intro heq
      cases heq
    · rintro ⟨_, heq, -⟩
      cases heq

/-- Each account that has to sign is listed. -/
theorem FullySigned.listed (h : t.FullySigned S) :
    t.message.header.signers ≤ t.message.keys.length := by
  obtain ⟨hlength, payload, -, hsigned⟩ := h
  rcases Nat.eq_zero_or_pos t.signatures.length with hzero | hpos
  · omega
  · obtain ⟨key, -, hkey, -⟩ := hsigned (t.signatures.length - 1) (by omega)
    have hlast := (List.getElem?_eq_some_iff.mp hkey).1
    omega

theorem FullySigned.isSigned (h : t.FullySigned S)
    (hempty : ∀ payload key, S.verify key payload (Key.zero .signature) = false) :
    t.isSigned = true := by
  obtain ⟨hlength, payload, -, hsigned⟩ := h
  rw [Transaction.isSigned, List.all_eq_true]
  intro s hs
  obtain ⟨i, hi⟩ := List.getElem?_of_mem hs
  have hlt := (List.getElem?_eq_some_iff.mp hi).1
  obtain ⟨key, s', -, hs', hverify⟩ := hsigned i (by omega)
  cases hi.symm.trans hs'
  rw [Bool.not_eq_true', Bool.eq_false_iff, Ne, Key.isZero_iff]
  rintro rfl
  cases hverify.symm.trans (hempty payload key)

/-- **What verification leaves to be asked.** Verification succeeds just when every signer that has
a slot has a signature of the message there. So a transaction is fully signed just when it is
verified and there is a slot for each signature that the message asks for, and for each of these an
account; with another number of slots a transaction may be verified, but has no bytes. -/
theorem fullySigned_iff (S : SignatureScheme) (t : Transaction) :
    (t.verified S = .ok true ↔ ∃ payload, t.message.bytes = .ok payload ∧
      ∀ (i : Nat) (key : PublicKey) (s : Signature), t.message.signers[i]? = some key →
        t.signatures[i]? = some s → S.verify key payload s = true) ∧
    (t.FullySigned S ↔ t.verified S = .ok true ∧
      (t.signatures.length : Int) = t.message.header.signers ∧
      t.message.header.signers ≤ t.message.keys.length) ∧
    ((t.signatures.length : Int) ≠ t.message.header.signers →
      t.bytes = .error (.invalid (.signatureCount t.signatures.length t.message.header.signers))) ∧
    (t.FullySigned S → (∀ payload key, S.verify key payload (Key.zero .signature) = false) →
      t.isSigned = true) := by
  refine ⟨verified_eq_ok_true_iff, ⟨fun h => ⟨?_, h.1, h.listed⟩, ?_⟩, fun hcount => if_neg hcount,
    FullySigned.isSigned⟩
  · obtain ⟨hlength, payload, hbytes, hsigned⟩ := id h
    refine verified_eq_ok_true_iff.mpr ⟨payload, hbytes, fun i key s hkey hs => ?_⟩
    have hslot := (List.getElem?_eq_some_iff.mp hs).1
    rw [Message.signers_eq_take (by omega) h.listed, List.getElem?_take_of_lt (by omega)] at hkey
    obtain ⟨_, _, hkey', hs', hverify⟩ := hsigned i (by omega)
    cases hkey.symm.trans hkey'
    cases hs.symm.trans hs'
    exact hverify
  · rintro ⟨hverified, hlength, hlisted⟩
    obtain ⟨payload, hbytes, hall⟩ := verified_eq_ok_true_iff.mp hverified
    have htake := Message.signers_eq_take (m := t.message) (by omega) hlisted
    refine ⟨hlength, payload, hbytes, fun i hi => ?_⟩
    have hkeys : i < t.message.keys.length := by omega
    have hslots : i < t.signatures.length := by omega
    refine ⟨_, _, List.getElem?_eq_getElem hkeys, List.getElem?_eq_getElem hslots, ?_⟩
    refine hall i _ _ ?_ (List.getElem?_eq_getElem hslots)
    rw [htake, List.getElem?_take_of_lt (by omega), List.getElem?_eq_getElem hkeys]

/-- Two signers have signed. -/
theorem fullySigned_iff_two_signers :
    let first : Keypair := ⟨List.replicate 32 1, rfl⟩
    let second : Keypair := ⟨List.replicate 32 2, rfl⟩
    let a := Curve.scheme.publicKey first
    let b := Curve.scheme.publicKey second
    let payload : Bytes := [2, 0, 0, 2] ++ a.bytes ++ b.bytes ++ Bytes.zeros 32 ++ [0]
    let t : Transaction := ⟨⟨⟨2, 0, 0⟩, [a, b], .zero .hash, [], [], .legacy⟩,
      [Curve.scheme.sign first payload, Curve.scheme.sign second payload]⟩
    t.FullySigned Curve.scheme ∧ t.verified Curve.scheme = .ok true := by
  intro first second a b payload t
  have hfirst : Curve.scheme.verify a payload (Curve.scheme.sign first payload) = true := by
    decide +kernel
  have hsecond : Curve.scheme.verify b payload (Curve.scheme.sign second payload) = true := by
    decide +kernel
  have hsigned : t.FullySigned Curve.scheme := by
    refine ⟨rfl, payload, bytes_two_signers a b, fun i hi => ?_⟩
    match i, hi with
    | 0, _ => exact ⟨a, _, rfl, rfl, hfirst⟩
    | 1, _ => exact ⟨b, _, rfl, rfl, hsecond⟩
    | i + 2, hi => exact absurd hi (by change ¬ ((i + 2 : Nat) : Int) < 2; omega)
  exact ⟨hsigned, ((fullySigned_iff Curve.scheme t).2.1.mp hsigned).1⟩

/-- Without signatures a transaction of one signer is verified, though it has no bytes. -/
theorem verified_without_signatures :
    let m : Message := ⟨⟨1, 0, 0⟩, [.zero .publicKey], .zero .hash, [], [], .legacy⟩
    let t : Transaction := ⟨m, []⟩
    m.Issued ∧ t.verified Curve.scheme = .ok true ∧ ¬ t.FullySigned Curve.scheme ∧
      t.bytes = .error (.invalid (.signatureCount 0 1)) := by
  intro m t
  obtain ⟨payload, hbytes⟩ : ∃ payload, m.bytes = .ok payload := ⟨_, rfl⟩
  have hwell : m.WellFormed := by constructor <;> decide +kernel
  refine ⟨.inl ⟨payload, Message.ofBytes_eq_ok.mpr ⟨hwell, hbytes⟩⟩, ?_, ?_, if_neg (by decide)⟩
  · exact verified_eq_ok_true_iff.mpr ⟨payload, hbytes, fun _ _ _ _ hs => nomatch hs⟩
  · rintro ⟨hcount, -⟩
    exact absurd hcount (by decide)

end LedgerClient.Transaction
