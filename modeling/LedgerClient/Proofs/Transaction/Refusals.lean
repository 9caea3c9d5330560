import LedgerClient.Proofs.Transaction.Slots

/-!
# Steps that are refused

Each step looks at everything that may refuse it before it changes a slot. Only a message without
any signer is an exception: signing it empties the slots, and then there is no signature to show
for it.

## Main definitions

* `Signers.signature?`: what the keypairs at hand sign for a key
* `Transaction.absent`: the signers for whom no keypair is at hand
* `Transaction.fillSlot`: a slot after partial signing

## Main results

* `Transaction.outcome_sign_of_absent`, `Transaction.outcome_sign_of_present`,
  `Transaction.outcome_partialSign_eq`, `Transaction.outcome_addSignature_cases`: what each step
  gives, and the transaction after it
* `Transaction.refused_unchanged_iff`: when a refused step leaves the transaction as it was
-/

namespace LedgerClient

/-! ## The keypairs at hand -/

namespace Signers

variable {S : SignatureScheme} {payload : Bytes} {signers : Signers} {key : PublicKey}

theorem find?_eq_none : signers.find? key = none ↔ key ∉ signers.map Prod.fst := by
  rw [find?, List.lookup_eq_none_iff]
  simp only [List.mem_reverse, List.mem_map, bne_iff_ne, not_exists, not_and]
  exact forall₂_congr fun entry _ => ne_comm

/-- What the keypairs at hand sign for a key. -/
def signature? (S : SignatureScheme) (payload : Bytes) (signers : Signers) (key : PublicKey) :
    Option Signature :=
  (signers.find? key).map (S.sign · payload)

theorem signature?_eq_none : signers.signature? S payload key = none ↔
    key ∉ signers.map Prod.fst :=
  Option.map_eq_none_iff.trans find?_eq_none

end Signers

namespace Transaction

variable {S : SignatureScheme} {t : Transaction} {signers : Signers} {payload : Bytes}
  {fault : Fault}

/-- The signers of a message for whom no keypair is at hand, in order. -/
def absent (signers : Signers) (m : Message) : List PublicKey :=
  m.signers.filter fun key => !(signers.map Prod.fst).contains key

theorem filter_isNone_find? (signers : Signers) (m : Message) :
    m.signers.filter (fun key => (signers.find? key).isNone) = absent signers m := by
  refine List.filter_congr fun key _ => ?_
  rw [Bool.eq_iff_iff, Option.isNone_iff_eq_none, Signers.find?_eq_none]
  simp

theorem absent_eq_nil {m : Message} :
    absent signers m = [] ↔ ∀ key ∈ m.signers, key ∈ signers.map Prod.fst := by
  simp [absent, List.filter_eq_nil_iff]

/-! ## What each step gives -/

section Outcomes

/-- Signing without a keypair for each signer names those that are missing. -/
theorem outcome_sign_of_absent (h : absent signers t.message ≠ []) :
    outcome (sign S signers) t =
      (.error (.invalid (.missingSigners (absent signers t.message))), t) := by
  unfold sign
  simp only [outcome_bind, outcome_get, outcome_ite, outcome_throw, filter_isNone_find?]
  rw [if_pos h]

/-- Signing with a keypair for each signer fails with the message, or after the slots of a message
without any signer are set. -/
theorem outcome_sign_of_present (h : absent signers t.message = []) :
    outcome (sign S signers) t = match t.message.bytes with
      | .error fault => (.error fault, t)
      | .ok payload =>
        (if t.message.signers = [] then .error (.misuse .index) else .ok (),
          { t with signatures := t.message.signers.filterMap (signers.signature? S payload) }) := by
  unfold sign
  simp only [outcome_bind, outcome_get, outcome_ite, outcome_throw, outcome_given, outcome_set,
    filter_isNone_find?]
  rw [if_neg (not_not_intro h)]
  cases t.message.bytes with
  | error fault => rfl
  | ok payload =>
    have hempty : (t.message.signers.filterMap (signers.signature? S payload)).isEmpty = true ↔
        t.message.signers = [] := by
      rw [List.isEmpty_iff, List.filterMap_eq_nil_iff, List.eq_nil_iff_forall_not_mem]
      refine forall₂_congr fun key hkey => ?_
      rw [Signers.signature?_eq_none]
      exact iff_of_false (not_not_intro (absent_eq_nil.mp h key hkey)) id
    by_cases hnone : t.message.signers = []
    · refine (if_pos (hempty.mpr hnone)).trans ?_
      rw [if_pos hnone]
      rfl
    · refine (if_neg (hnone ∘ hempty.mp)).trans ?_
      rw [if_neg hnone]
      rfl

/-- A slot after partial signing: an empty one is filled if a keypair for its key is at hand. -/
def fillSlot (S : SignatureScheme) (signers : Signers) (payload : Bytes) (key? : Option PublicKey)
    (slot : Signature) : Signature :=
  if slot.isZero then (key?.bind (signers.signature? S payload)).getD slot else slot

/-- The slots after partial signing: each is filled by itself. -/
def filled (S : SignatureScheme) (signers : Signers) (payload : Bytes) (keys : List PublicKey)
    (slots : List Signature) : List Signature :=
  slots.mapIdx fun i => fillSlot S signers payload keys[i]?

theorem fillSlot_none (slot : Signature) : fillSlot S signers payload none slot = slot :=
  ite_self slot

@[simp] theorem length_filled (keys : List PublicKey) (slots : List Signature) :
    (filled S signers payload keys slots).length = slots.length :=
  List.length_mapIdx

theorem getElem?_filled (keys : List PublicKey) (slots : List Signature) (i : Nat) :
    (filled S signers payload keys slots)[i]? =
      slots[i]?.map (fillSlot S signers payload keys[i]?) :=
  List.getElem?_mapIdx

theorem filled_nil (slots : List Signature) : filled S signers payload [] slots = slots := by
  refine List.ext_getElem? fun i => ?_
  rw [getElem?_filled, List.getElem?_nil]
  exact (congrArg (slots[i]?.map ·) (funext fillSlot_none)).trans Option.map_id'

theorem filled_cons (key : PublicKey) (keys : List PublicKey) (slot : Signature)
    (slots : List Signature) : filled S signers payload (key :: keys) (slot :: slots) =
      fillSlot S signers payload (some key) slot :: filled S signers payload keys slots :=
  List.mapIdx_cons

theorem fill_eq (keys : List PublicKey) (slots : List Signature) :
    fill S signers payload keys slots =
      if keys.length ≤ slots.length then .ok (filled S signers payload keys slots)
      else .error (.misuse .index) := by
  induction keys generalizing slots with
  | nil =>
    rw [filled_nil]
    rfl
  | cons key keys ih =>
    cases slots with
    | nil => rfl
    | cons slot slots =>
      rw [fill, ih, filled_cons, fillSlot, Option.bind_some, Signers.signature?]
      by_cases hlength : keys.length ≤ slots.length
      · have hslots : (key :: keys).length ≤ (slot :: slots).length := Nat.succ_le_succ hlength
        rw [if_pos hlength, if_pos hslots]
        cases signers.find? key with
        | some keypair => rfl
        | none =>
          rw [Option.map_none, Option.getD_none, ite_self]
          rfl
      · rw [if_neg hlength]
        exact (if_neg (hlength ∘ Nat.le_of_succ_le_succ)).symm

theorem outcome_partialSign_eq : outcome (partialSign S signers) t = match t.message.bytes with
    | .error fault => (.error fault, t)
    | .ok payload =>
      if t.message.signers.length ≤ t.signatures.length then
        (.ok (), { t with
          signatures := filled S signers payload t.message.signers t.signatures })
      else (.error (.misuse .index), t) := by
  unfold partialSign
  simp only [outcome_bind, outcome_get, outcome_given, outcome_set]
  cases t.message.bytes with
  | error fault => rfl
  | ok payload =>
    dsimp only
    rw [fill_eq]
    by_cases hlength : t.message.signers.length ≤ t.signatures.length
    · rw [if_pos hlength, if_pos hlength]
    · rw [if_neg hlength, if_neg hlength]

theorem outcome_addSignature_cases (S : SignatureScheme) (key : PublicKey) (signature : Signature)
    (t : Transaction) :
    (∃ fault, outcome (addSignature S key signature) t = (.error fault, t)) ∨
    key ∈ t.message.signers ∧ Belongs S t.message key signature ∧
      t.message.signers.idxOf key < t.signatures.length ∧
      outcome (addSignature S key signature) t = (.ok (), { t with
        signatures := t.signatures.set (t.message.signers.idxOf key) signature }) := by
  unfold addSignature
  simp only [outcome_bind, outcome_get, outcome_ite, outcome_throw, outcome_given, outcome_set]
  by_cases hmem : key ∈ t.message.signers
  · cases hbytes : t.message.bytes with
    | error fault => simp [hmem]
    | ok payload =>
      by_cases hverify : S.verify key payload signature = true
      · have hbelongs : Belongs S t.message key signature := ⟨payload, hbytes, hverify⟩
        by_cases hslot : t.signatures.length ≤ t.message.signers.idxOf key
        · simp [hmem, hverify, hslot]
        · simp [hmem, hverify, hslot, hbelongs, Nat.lt_of_not_le hslot]
      · simp [hmem, hverify]
  · simp [hmem]

end Outcomes

/-! ## What a refused step leaves -/

section Refused

/-- A step that is refused leaves the transaction as it was, unless a message without any signer
is signed. -/
theorem apply_of_refused {step : Signing}
    (hrefused : (outcome (step.change S) t).1 = .error fault) :
    step.apply S t = t ∨
      ∃ signers payload, step = .sign signers ∧ t.message.signers = [] ∧
        t.message.bytes = .ok payload ∧ step.apply S t = { t with signatures := [] } := by
  cases step with
  | sign signers =>
    change (outcome (sign S signers) t).1 = _ at hrefused
    change (outcome (sign S signers) t).2 = _ ∨ _
    by_cases habsent : absent signers t.message = []
    · rw [outcome_sign_of_present habsent] at hrefused ⊢
      cases hbytes : t.message.bytes with
      | error fault => exact .inl rfl
      | ok payload =>
        rw [hbytes] at hrefused
        dsimp only at hrefused
        by_cases hnone : t.message.signers = []
        · refine .inr ⟨signers, payload, rfl, hnone, rfl, ?_⟩
          rw [Signing.apply, Signing.change, outcome_sign_of_present habsent, hbytes, hnone]
          rfl
        · rw [if_neg hnone] at hrefused
          cases hrefused
    · rw [outcome_sign_of_absent habsent]
      exact .inl rfl
  | partialSign signers =>
    left
    change (outcome (partialSign S signers) t).1 = _ at hrefused
    change (outcome (partialSign S signers) t).2 = t
    rw [outcome_partialSign_eq] at hrefused ⊢
    cases hbytes : t.message.bytes with
    | error fault => rfl
    | ok payload =>
      rw [hbytes] at hrefused
      dsimp only at hrefused ⊢
      by_cases hlength : t.message.signers.length ≤ t.signatures.length
      · rw [if_pos hlength] at hrefused
        cases hrefused
      · rw [if_neg hlength]
  | add key signature =>
    left
    change (outcome (addSignature S key signature) t).1 = _ at hrefused
    change (outcome (addSignature S key signature) t).2 = t
    rcases outcome_addSignature_cases S key signature t with ⟨_, heq⟩ | ⟨-, -, -, heq⟩
    · rw [heq]
    · rw [heq] at hrefused
      cases hrefused

/-- **A refused step changes nothing, but for a message without any signer.** Whatever refuses a
step leaves every transaction as it was just when the message has a signer, there is no slot to
lose, or nothing can be signed at all. Signing without a keypair for each signer is refused with
the signers that are missing, in the order of their accounts. -/
theorem refused_unchanged_iff (S : SignatureScheme) (t : Transaction) :
    ((∀ (step : Signing) (fault : Fault), (outcome (step.change S) t).1 = .error fault →
        step.apply S t = t) ↔
      t.message.signers ≠ [] ∨ t.signatures = [] ∨ ∀ payload, t.message.bytes ≠ .ok payload) ∧
    ∀ signers, absent signers t.message ≠ [] →
      outcome (sign S signers) t =
        (.error (.invalid (.missingSigners (absent signers t.message))), t) ∧
      InvalidFault.missing (.missingSigners (absent signers t.message)) =
        (absent signers t.message).map Key.base58 := by
  refine ⟨⟨fun hkept => ?_, fun hcases step fault hrefused => ?_⟩,
    fun signers habsent => ⟨outcome_sign_of_absent habsent, rfl⟩⟩
  · by_contra hnone
    simp only [not_or, not_not, not_forall] at hnone
    obtain ⟨hsigners, hslots, payload, hbytes⟩ := hnone
    have hpresent : absent [] t.message = [] := by rw [absent, hsigners, List.filter_nil]
    have hsign := outcome_sign_of_present (S := S) hpresent
    rw [hbytes] at hsign
    have hsame := hkept (.sign []) (.misuse .index) (by
      rw [Signing.change, hsign, hsigners]
      rfl)
    rw [Signing.apply, Signing.change, hsign, hsigners] at hsame
    exact hslots (congrArg signatures hsame).symm
  · rcases apply_of_refused hrefused with
      hsame | ⟨signers, payload, -, hnone, hbytes, happly⟩
    · exact hsame
    · rcases hcases with hsome | hempty | hfails
      · exact absurd hnone hsome
      · rw [happly]
        exact congrArg (Transaction.mk t.message) hempty.symm
      · exact absurd hbytes (hfails payload)

/-- One of two signers is missing. -/
theorem refused_unchanged_iff_missing_one :
    let key : PublicKey := ⟨List.replicate 32 1, rfl⟩
    let m : Message := ⟨⟨2, 0, 0⟩, [key, .zero .publicKey], .zero .hash, [], [], .legacy⟩
    let t : Transaction := ⟨m, [.zero .signature, .zero .signature]⟩
    let signers : Signers := [(key, ⟨List.replicate 32 1, rfl⟩)]
    absent signers m ≠ [] ∧ outcome (sign Curve.scheme signers) t =
      (.error (.invalid (.missingSigners [.zero .publicKey])), t) := by
  intro key m t signers
  have habsent : absent signers m = [.zero .publicKey] := by decide +kernel
  have hne : absent signers m ≠ [] := by
    rw [habsent]
    exact List.cons_ne_nil _ _
  have hrefused := ((refused_unchanged_iff Curve.scheme t).2 signers hne).1
  refine ⟨hne, hrefused.trans ?_⟩
  rw [habsent]

/-- A new transaction of a message that asks for a signature and lists no account has a slot, and
loses it when it is signed in vain. -/
theorem sign_refused_changes :
    let m : Message := ⟨⟨1, 0, 0⟩, [], .zero .hash, [], [], .legacy⟩
    let t : Transaction := ⟨m, [.zero .signature]⟩
    ofMessage m = .ok t ∧
      outcome (sign Curve.scheme []) t =
        (.error (.misuse .index), { t with signatures := [] }) := by
  intro m t
  obtain ⟨payload, hbytes⟩ : ∃ payload, m.bytes = .ok payload := ⟨_, rfl⟩
  have hpresent : absent [] t.message = [] := by decide
  have hsign := outcome_sign_of_present (S := Curve.scheme) hpresent
  rw [hbytes] at hsign
  exact ⟨by rw [ofMessage, make]; exact if_pos rfl, hsign⟩

end Refused

end Transaction

end LedgerClient
