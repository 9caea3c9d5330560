import LedgerClient.Proofs.Transaction.Refusals

/-!
# Signing together

Several signers sign one transaction in part, each with the keypairs at hand. A slot takes what the
first of them signs for its key, and the others leave it; so where keypairs for one key sign alike,
neither their order nor how the keypairs are shared out matters. Where every signer has an empty
slot and a keypair is at hand for each, the transaction is the one that is signed at once.

The slots need not be one for each signer: a transaction with fewer refuses to be signed in part,
and one with more keeps them, which signing at once does not.

## Main definitions

* `Signers.Concordant`: keypairs for one key sign alike, and nothing is signed by zero bytes
* `Transaction.Fillable`: the message can be written, and every signer has a slot

## Main results

* `Transaction.apply_partialSign_append`: one after the other is as good as both at once
* `Transaction.apply_sign_eq_partialSign`: signing at once is signing in part
* `Transaction.partialSign_confluent`: in any order, and shared out in any way
-/

namespace LedgerClient

/-! ## Keypairs that agree -/

namespace Signers

variable {S : SignatureScheme} {payload : Bytes} {signers others : Signers} {key : PublicKey}
  {s : Signature}

/-- Keypairs that are at hand for one key sign alike, and none signs with zero bytes. -/
structure Concordant (S : SignatureScheme) (payload : Bytes) (signers : Signers) : Prop where
  agree : ∀ (key : PublicKey) (a b : Keypair), (key, a) ∈ signers → (key, b) ∈ signers →
    S.sign a payload = S.sign b payload
  filled : ∀ entry ∈ signers, S.sign entry.2 payload ≠ Key.zero .signature

theorem Concordant.mono (h : others.Concordant S payload) (hsubset : signers ⊆ others) :
    signers.Concordant S payload :=
  ⟨fun key a b ha hb => h.agree key a b (hsubset ha) (hsubset hb),
    fun entry hmem => h.filled entry (hsubset hmem)⟩

theorem exists_signature? (S : SignatureScheme) (payload : Bytes) (h : key ∈ signers.map Prod.fst) :
    ∃ s, signers.signature? S payload key = some s := by
  rw [← Option.ne_none_iff_exists', Ne, signature?_eq_none]
  exact not_not_intro h

theorem exists_of_signature? (h : signers.signature? S payload key = some s) :
    ∃ keypair, (key, keypair) ∈ signers ∧ S.sign keypair payload = s := by
  obtain ⟨keypair, hfound, hsigned⟩ := Option.map_eq_some_iff.mp h
  exact ⟨keypair, mem_of_find? hfound, hsigned⟩

/-- Any keypair for a key gives its signature. -/
theorem Concordant.signature?_eq_some (h : signers.Concordant S payload) :
    signers.signature? S payload key = some s ↔
      ∃ keypair, (key, keypair) ∈ signers ∧ S.sign keypair payload = s := by
  refine ⟨exists_of_signature?, ?_⟩
  rintro ⟨keypair, hmem, rfl⟩
  obtain ⟨s, hs⟩ := exists_signature? S payload (List.mem_map_of_mem hmem)
  obtain ⟨other, hother, rfl⟩ := exists_of_signature? hs
  rw [hs, h.agree key other keypair hother hmem]

/-- Only which keypairs are at hand matters, not their order. -/
theorem Concordant.signature?_congr (h : signers.Concordant S payload)
    (hsame : ∀ entry, entry ∈ signers ↔ entry ∈ others) :
    signers.signature? S payload key = others.signature? S payload key := by
  have hothers : others.Concordant S payload := h.mono fun entry hmem => (hsame entry).mpr hmem
  refine Option.ext fun s => ?_
  rw [h.signature?_eq_some, hothers.signature?_eq_some]
  simp only [hsame]

theorem Concordant.signature?_append (h : (signers ++ others).Concordant S payload) :
    (signers ++ others).signature? S payload key =
      (signers.signature? S payload key).or (others.signature? S payload key) := by
  have hsigners : signers.Concordant S payload := h.mono (List.subset_append_left _ _)
  have hothers : others.Concordant S payload := h.mono (List.subset_append_right _ _)
  cases hs : signers.signature? S payload key with
  | some s =>
    obtain ⟨keypair, hmem, hsigned⟩ := hsigners.signature?_eq_some.mp hs
    exact h.signature?_eq_some.mpr ⟨keypair, List.mem_append_left _ hmem, hsigned⟩
  | none =>
    rw [Option.none_or]
    refine Option.ext fun s => ?_
    rw [h.signature?_eq_some, hothers.signature?_eq_some]
    have hnone : ∀ keypair, (key, keypair) ∉ signers := fun keypair hmem =>
      signature?_eq_none.mp hs (List.mem_map_of_mem hmem)
    simp only [List.mem_append, hnone, false_or]

end Signers

namespace Transaction

variable {S : SignatureScheme} {t : Transaction} {signers others : Signers} {payload : Bytes}

/-! ## A slot -/

section Slot

variable {key? : Option PublicKey} {slot : Signature}

theorem fillSlot_of_ne (h : slot ≠ Key.zero .signature) :
    fillSlot S signers payload key? slot = slot :=
  if_neg fun hzero => h (Key.isZero_iff.mp hzero)

theorem fillSlot_zero : fillSlot S signers payload key? (Key.zero .signature) =
    (key?.bind (signers.signature? S payload)).getD (Key.zero .signature) :=
  if_pos (Key.isZero_iff.mpr rfl)

/-- Filling a slot again changes nothing. -/
theorem fillSlot_fillSlot : fillSlot S signers payload key? (fillSlot S signers payload key? slot) =
    fillSlot S signers payload key? slot := by
  by_cases hslot : slot = Key.zero .signature
  · subst hslot
    cases hs : key?.bind (signers.signature? S payload) with
    | none =>
      have hkept : fillSlot S signers payload key? (Key.zero .signature) = Key.zero .signature := by
        rw [fillSlot_zero, hs, Option.getD_none]
      rw [hkept, hkept]
    | some s =>
      rw [fillSlot_zero, hs, Option.getD_some]
      unfold fillSlot
      rw [hs, Option.getD_some, ite_self]
  · rw [fillSlot_of_ne hslot, fillSlot_of_ne hslot]

/-- A slot takes what is signed first. -/
theorem fillSlot_append (h : (signers ++ others).Concordant S payload) :
    fillSlot S (signers ++ others) payload key? slot =
      fillSlot S others payload key? (fillSlot S signers payload key? slot) := by
  by_cases hslot : slot = Key.zero .signature
  · subst hslot
    have hsplit : key?.bind ((signers ++ others).signature? S payload) =
        (key?.bind (signers.signature? S payload)).or
          (key?.bind (others.signature? S payload)) := by
      cases key? with
      | none => rfl
      | some key => exact h.signature?_append
    cases hs : key?.bind (signers.signature? S payload) with
    | none => rw [fillSlot_zero, fillSlot_zero, hsplit, hs, Option.none_or, Option.getD_none,
        fillSlot_zero]
    | some s =>
      obtain ⟨key, -, hsigned⟩ := Option.bind_eq_some_iff.mp hs
      obtain ⟨keypair, hmem, rfl⟩ := Signers.exists_of_signature? hsigned
      have hfilled := h.filled _ (List.mem_append_left _ hmem)
      rw [fillSlot_zero, fillSlot_zero, hsplit, hs, Option.some_or, Option.getD_some,
        fillSlot_of_ne hfilled]
  · rw [fillSlot_of_ne hslot, fillSlot_of_ne hslot, fillSlot_of_ne hslot]

theorem fillSlot_nil : fillSlot S [] payload key? slot = slot := by
  have hnone : key?.bind (Signers.signature? S payload []) = none := by
    cases key? <;> rfl
  rw [fillSlot, hnone, Option.getD_none, ite_self]

theorem fillSlot_congr (h : signers.Concordant S payload)
    (hsame : ∀ entry, entry ∈ signers ↔ entry ∈ others) :
    fillSlot S signers payload key? slot = fillSlot S others payload key? slot := by
  have hsigned : signers.signature? S payload = others.signature? S payload :=
    funext fun key => h.signature?_congr hsame
  rw [fillSlot, fillSlot, hsigned]

/-- A slot stays as it is, or it is empty and takes what a keypair for its key signs. -/
theorem fillSlot_cases (h : signers.Concordant S payload) (key? : Option PublicKey)
    (slot : Signature) :
    fillSlot S signers payload key? slot = slot ∧
      ¬ (slot = Key.zero .signature ∧ ∃ key ∈ signers.map Prod.fst, key? = some key) ∨
    slot = Key.zero .signature ∧ ∃ key keypair, key? = some key ∧ (key, keypair) ∈ signers ∧
      fillSlot S signers payload key? slot = S.sign keypair payload ∧
      S.sign keypair payload ≠ Key.zero .signature := by
  by_cases hslot : slot = Key.zero .signature
  · subst hslot
    rw [fillSlot_zero]
    cases hs : key?.bind (signers.signature? S payload) with
    | none =>
      refine .inl ⟨rfl, ?_⟩
      rintro ⟨-, key, hmem, rfl⟩
      exact Signers.signature?_eq_none.mp hs hmem
    | some s =>
      obtain ⟨key, hkey, hsigned⟩ := Option.bind_eq_some_iff.mp hs
      obtain ⟨keypair, hmem, rfl⟩ := Signers.exists_of_signature? hsigned
      exact .inr ⟨rfl, key, keypair, hkey, hmem, rfl, h.filled _ hmem⟩
  · exact .inl ⟨fillSlot_of_ne hslot, fun hempty => hslot hempty.1⟩

end Slot

/-! ## All slots -/

section Slots

variable {keys : List PublicKey} {slots : List Signature}

theorem filled_append (h : (signers ++ others).Concordant S payload) :
    filled S (signers ++ others) payload keys slots =
      filled S others payload keys (filled S signers payload keys slots) := by
  refine List.ext_getElem? fun i => ?_
  rw [getElem?_filled, getElem?_filled, getElem?_filled, Option.map_map]
  exact congrArg (slots[i]?.map ·) (funext fun slot => fillSlot_append h)

theorem filled_filled : filled S signers payload keys (filled S signers payload keys slots) =
    filled S signers payload keys slots := by
  refine List.ext_getElem? fun i => ?_
  rw [getElem?_filled, getElem?_filled, Option.map_map]
  exact congrArg (slots[i]?.map ·) (funext fun slot => fillSlot_fillSlot)

theorem filled_of_nil : filled S [] payload keys slots = slots := by
  refine List.ext_getElem? fun i => ?_
  rw [getElem?_filled]
  exact (congrArg (slots[i]?.map ·) (funext fun slot => fillSlot_nil)).trans Option.map_id'

theorem filled_congr (h : signers.Concordant S payload)
    (hsame : ∀ entry, entry ∈ signers ↔ entry ∈ others) :
    filled S signers payload keys slots = filled S others payload keys slots := by
  refine List.ext_getElem? fun i => ?_
  rw [getElem?_filled, getElem?_filled]
  exact congrArg (slots[i]?.map ·) (funext fun slot => fillSlot_congr h hsame)

/-- Empty slots take what is signed for their keys. -/
theorem filled_replicate (h : ∀ key ∈ keys, key ∈ signers.map Prod.fst) :
    filled S signers payload keys (List.replicate keys.length (Key.zero .signature)) =
      keys.filterMap (signers.signature? S payload) := by
  induction keys with
  | nil => rfl
  | cons key keys ih =>
    obtain ⟨s, hs⟩ := Signers.exists_signature? S payload (h key List.mem_cons_self)
    rw [List.length_cons, List.replicate_succ, filled_cons, fillSlot_zero, Option.bind_some, hs,
      List.filterMap_cons_some hs, ih fun other hmem => h other (List.mem_cons_of_mem _ hmem)]
    rfl

end Slots

/-! ## Steps -/

section Steps

variable {collections : List Signers}

/-- The message can be written, and there is a slot for each signer. -/
def Fillable (t : Transaction) (payload : Bytes) : Prop :=
  t.message.bytes = .ok payload ∧ t.message.signers.length ≤ t.signatures.length

theorem outcome_partialSign_of_fillable (h : t.Fillable payload) :
    outcome (partialSign S signers) t = (.ok (), { t with
      signatures := filled S signers payload t.message.signers t.signatures }) := by
  rw [outcome_partialSign_eq, h.1]
  exact if_pos h.2

theorem apply_partialSign_of_fillable (h : t.Fillable payload) :
    (Signing.partialSign signers).apply S t = { t with
      signatures := filled S signers payload t.message.signers t.signatures } :=
  congrArg Prod.snd (outcome_partialSign_of_fillable h)

theorem refused_partialSign (S : SignatureScheme) (signers : Signers)
    (h : ∀ payload, ¬ t.Fillable payload) :
    ∃ fault, outcome (partialSign S signers) t = (.error fault, t) := by
  rw [outcome_partialSign_eq]
  cases hbytes : t.message.bytes with
  | error fault => exact ⟨fault, rfl⟩
  | ok payload => exact ⟨_, if_neg fun hlength => h payload ⟨hbytes, hlength⟩⟩

theorem apply_partialSign_of_not (h : ∀ payload, ¬ t.Fillable payload) :
    (Signing.partialSign signers).apply S t = t := by
  obtain ⟨fault, hrefused⟩ := refused_partialSign S signers h
  exact congrArg Prod.snd hrefused

theorem Fillable.filled (h : t.Fillable payload) : Fillable { t with
    signatures := filled S signers payload t.message.signers t.signatures } payload :=
  ⟨h.1, Nat.le_trans h.2 (Nat.le_of_eq (length_filled _ _).symm)⟩

/-- Signing one after the other is as good as signing with all keypairs at once. -/
theorem apply_partialSign_append
    (h : ∀ payload, t.message.bytes = .ok payload → (signers ++ others).Concordant S payload) :
    (Signing.partialSign (signers ++ others)).apply S t =
      (Signing.partialSign others).apply S ((Signing.partialSign signers).apply S t) := by
  by_cases hfillable : ∃ payload, t.Fillable payload
  · obtain ⟨payload, ht⟩ := hfillable
    rw [apply_partialSign_of_fillable ht, apply_partialSign_of_fillable ht,
      apply_partialSign_of_fillable ht.filled, filled_append (h payload ht.1)]
  · rw [not_exists] at hfillable
    rw [apply_partialSign_of_not hfillable, apply_partialSign_of_not hfillable,
      apply_partialSign_of_not hfillable]

theorem apply_partialSign_congr
    (h : ∀ payload, t.message.bytes = .ok payload → signers.Concordant S payload)
    (hsame : ∀ entry, entry ∈ signers ↔ entry ∈ others) :
    (Signing.partialSign signers).apply S t = (Signing.partialSign others).apply S t := by
  by_cases hfillable : ∃ payload, t.Fillable payload
  · obtain ⟨payload, ht⟩ := hfillable
    rw [apply_partialSign_of_fillable ht, apply_partialSign_of_fillable ht,
      filled_congr (h payload ht.1) hsame]
  · rw [not_exists] at hfillable
    rw [apply_partialSign_of_not hfillable, apply_partialSign_of_not hfillable]

theorem message_apply_partialSign :
    ((Signing.partialSign signers).apply S t).message = t.message := by
  by_cases hfillable : ∃ payload, t.Fillable payload
  · obtain ⟨payload, ht⟩ := hfillable
    rw [apply_partialSign_of_fillable ht]
  · rw [apply_partialSign_of_not (not_exists.mp hfillable)]

/-- Signing in part with one collection after the other is signing in part with all of them. -/
theorem following_partialSign
    (h : ∀ payload, t.message.bytes = .ok payload →
      Signers.Concordant S payload collections.flatten) :
    following S (collections.map .partialSign) t =
      (Signing.partialSign collections.flatten).apply S t := by
  induction collections generalizing t with
  | nil =>
    by_cases hfillable : ∃ payload, t.Fillable payload
    · obtain ⟨payload, ht⟩ := hfillable
      exact ((apply_partialSign_of_fillable ht).trans
        (congrArg (Transaction.mk t.message) filled_of_nil)).symm
    · exact (apply_partialSign_of_not (not_exists.mp hfillable)).symm
  | cons signers collections ih =>
    rw [List.flatten_cons, apply_partialSign_append h]
    refine ih fun payload hbytes => (h payload ?_).mono (List.subset_append_right _ _)
    rwa [message_apply_partialSign] at hbytes

/-- Signing at once sets all slots, however many there were. -/
theorem apply_sign_of_present (hpresent : absent signers t.message = [])
    (hbytes : t.message.bytes = .ok payload) :
    (Signing.sign signers).apply S t = { t with
      signatures := t.message.signers.filterMap (signers.signature? S payload) } := by
  rw [Signing.apply, Signing.change, outcome_sign_of_present hpresent, hbytes]

/-- Where every signer has an empty slot and a keypair is at hand for each, signing at once is
signing in part. -/
theorem apply_sign_eq_partialSign
    (hslots : t.signatures = List.replicate t.message.signers.length (Key.zero .signature))
    (hpresent : absent signers t.message = []) :
    (Signing.sign signers).apply S t = (Signing.partialSign signers).apply S t := by
  have hlength : t.message.signers.length ≤ t.signatures.length :=
    Nat.le_of_eq (by rw [hslots, List.length_replicate])
  cases hbytes : t.message.bytes with
  | error fault =>
    rw [Signing.apply, Signing.change, outcome_sign_of_present hpresent, hbytes]
    refine (apply_partialSign_of_not ?_).symm
    intro payload hfillable
    cases hbytes.symm.trans hfillable.1
  | ok payload =>
    rw [apply_sign_of_present hpresent hbytes, apply_partialSign_of_fillable ⟨hbytes, hlength⟩,
      hslots, filled_replicate (absent_eq_nil.mp hpresent)]

/-- A slot changes just when it is empty and a keypair for its key is at hand, and then it takes
what such a keypair signs. -/
theorem getElem?_filled_ne_iff {keys : List PublicKey} {slots : List Signature}
    (h : signers.Concordant S payload) (i : Nat) :
    ((filled S signers payload keys slots)[i]? ≠ slots[i]? ↔
      slots[i]? = some (Key.zero .signature) ∧ ∃ key ∈ signers.map Prod.fst, keys[i]? = some key) ∧
    ((filled S signers payload keys slots)[i]? ≠ slots[i]? → ∃ key keypair,
      keys[i]? = some key ∧ (key, keypair) ∈ signers ∧
        (filled S signers payload keys slots)[i]? = some (S.sign keypair payload)) := by
  rw [getElem?_filled]
  cases hslot : slots[i]? with
  | none => exact ⟨iff_of_false (fun hne => hne rfl) nofun, fun hne => absurd rfl hne⟩
  | some slot =>
    rw [Option.map_some, Ne, Option.some.injEq, Option.some.injEq]
    rcases fillSlot_cases h keys[i]? slot with
      ⟨hkept, hnot⟩ | ⟨rfl, key, keypair, hkey, hmem, hfilled, hne⟩
    · exact ⟨iff_of_false (not_not_intro hkept) hnot, fun hne => absurd hkept hne⟩
    · rw [hfilled]
      exact ⟨iff_of_true hne ⟨rfl, key, List.mem_map_of_mem hmem, hkey⟩,
        fun _ => ⟨key, keypair, hkey, hmem, rfl⟩⟩

/-- Signing in part twice is signing in part once. -/
theorem apply_partialSign_twice :
    (Signing.partialSign signers).apply S ((Signing.partialSign signers).apply S t) =
      (Signing.partialSign signers).apply S t := by
  by_cases hfillable : ∃ payload, t.Fillable payload
  · obtain ⟨payload, ht⟩ := hfillable
    rw [apply_partialSign_of_fillable ht, apply_partialSign_of_fillable ht.filled]
    exact congrArg (Transaction.mk t.message) filled_filled
  · have hkept : (Signing.partialSign signers).apply S t = t :=
      apply_partialSign_of_not (not_exists.mp hfillable)
    rw [hkept, hkept]

/-- **Signing in part comes to the same in any order and however the keypairs are shared out.**
Where keypairs for one key sign alike, signing in part with some collections one after the other
gives what it gives in any other order and with all keypairs at once, and what signing at once gives
if every signer has an empty slot and a keypair. Signing in part twice is signing in part once. It
is refused just when the message cannot be written or a signer has no slot; otherwise it fills
exactly the empty slots for whose keys a keypair is at hand, and no other slot changes. -/
theorem partialSign_confluent (S : SignatureScheme) (t : Transaction) (collections : List Signers)
    (h : ∀ payload, t.message.bytes = .ok payload →
      Signers.Concordant S payload collections.flatten) :
    let cosigned := following S (collections.map .partialSign) t
    (∀ others : List Signers, others.Perm collections →
      following S (others.map .partialSign) t = cosigned) ∧
    (∀ union : Signers, (∀ entry, entry ∈ union ↔ ∃ signers ∈ collections, entry ∈ signers) →
      (Signing.partialSign union).apply S t = cosigned ∧
      (t.signatures = List.replicate t.message.signers.length (Key.zero .signature) →
        (∀ key ∈ t.message.signers, key ∈ union.map Prod.fst) →
        (Signing.sign union).apply S t = cosigned)) ∧
    ∀ signers ∈ collections,
      let after := (Signing.partialSign signers).apply S t
      (Signing.partialSign signers).apply S after = after ∧
      ((∀ payload, ¬ t.Fillable payload) ∧
          (∃ fault, outcome (partialSign S signers) t = (.error fault, t)) ∨
        ∃ payload, t.Fillable payload ∧ outcome (partialSign S signers) t = (.ok (), after) ∧
          after.message = t.message ∧ after.signatures.length = t.signatures.length ∧
          ∀ i : Nat, (after.signatures[i]? ≠ t.signatures[i]? ↔
              t.signatures[i]? = some (Key.zero .signature) ∧
                ∃ key ∈ signers.map Prod.fst, t.message.signers[i]? = some key) ∧
            (after.signatures[i]? ≠ t.signatures[i]? → ∃ key keypair,
              t.message.signers[i]? = some key ∧ (key, keypair) ∈ signers ∧
                after.signatures[i]? = some (S.sign keypair payload))) := by
  intro cosigned
  have hunion (union : Signers)
      (hsame : ∀ entry, entry ∈ union ↔ ∃ signers ∈ collections, entry ∈ signers) :
      (Signing.partialSign union).apply S t = cosigned := by
    change _ = following S (collections.map .partialSign) t
    rw [following_partialSign h]
    refine (apply_partialSign_congr h fun entry => ?_).symm
    rw [hsame, List.mem_flatten]
  refine ⟨fun others hperm => ?_, fun union hsame => ⟨hunion union hsame, fun hslots hkeys => ?_⟩,
    fun signers hmem => ⟨apply_partialSign_twice, ?_⟩⟩
  · have hothers : ∀ payload, t.message.bytes = .ok payload →
        Signers.Concordant S payload others.flatten := fun payload hbytes =>
      (h payload hbytes).mono hperm.flatten.subset
    rw [following_partialSign hothers]
    refine hunion _ fun entry => ?_
    simp only [List.mem_flatten, hperm.mem_iff]
  · rw [apply_sign_eq_partialSign hslots (absent_eq_nil.mpr hkeys), hunion union hsame]
  · by_cases hfillable : ∃ payload, t.Fillable payload
    · obtain ⟨payload, ht⟩ := hfillable
      have hconcordant : signers.Concordant S payload :=
        (h payload ht.1).mono fun entry hentry => List.mem_flatten.mpr ⟨signers, hmem, hentry⟩
      rw [apply_partialSign_of_fillable ht]
      exact .inr ⟨payload, ht, outcome_partialSign_of_fillable ht, rfl, length_filled _ _,
        getElem?_filled_ne_iff hconcordant⟩
    · have hnot := not_exists.mp hfillable
      exact .inl ⟨hnot, refused_partialSign S signers hnot⟩

/-- Two signers sign one after the other, the first of them twice. -/
theorem partialSign_confluent_overlapping :
    let first : Keypair := ⟨List.replicate 32 1, rfl⟩
    let second : Keypair := ⟨List.replicate 32 2, rfl⟩
    let own : Signers := Signers.ofKeypairs Curve.scheme [first]
    let both : Signers := Signers.ofKeypairs Curve.scheme [second, first]
    let m : Message := ⟨⟨2, 0, 0⟩, [Curve.scheme.publicKey first, Curve.scheme.publicKey second],
      .zero .hash, [], [], .legacy⟩
    let t : Transaction := ⟨m, [.zero .signature, .zero .signature]⟩
    let cosigned := following Curve.scheme [.partialSign own, .partialSign both] t
    (∀ payload, m.bytes = .ok payload →
        Signers.Concordant Curve.scheme payload [own, both].flatten) ∧
      following Curve.scheme [.partialSign both, .partialSign own] t = cosigned ∧
      (Signing.sign both).apply Curve.scheme t = cosigned := by
  intro first second own both m t cosigned
  have hdistinct : Curve.scheme.publicKey first ≠ Curve.scheme.publicKey second := by
    decide +kernel
  have hconcordant : ∀ payload, m.bytes = .ok payload →
      Signers.Concordant Curve.scheme payload [own, both].flatten := by
    intro payload hbytes
    cases (bytes_two_signers _ _).symm.trans hbytes
    have hentries : ∀ entry ∈ [own, both].flatten,
        entry = (Curve.scheme.publicKey first, first) ∨
          entry = (Curve.scheme.publicKey second, second) := by
      simp [own, both, Signers.ofKeypairs]
    refine ⟨fun key a b ha hb => ?_, fun entry hmem => ?_⟩
    · grind
    · rcases hentries entry hmem with rfl | rfl <;> decide +kernel
  have hcosigned := partialSign_confluent Curve.scheme t [own, both] hconcordant
  refine ⟨hconcordant, hcosigned.1 [both, own] (List.Perm.swap _ _ _), ?_⟩
  refine (hcosigned.2.1 both fun entry => ?_).2 rfl fun key hkey => ?_
  · simpa [own, both, Signers.ofKeypairs] using Or.inr
  · have hsigners : key ∈ [Curve.scheme.publicKey first, Curve.scheme.publicKey second] := hkey
    simpa [both, Signers.ofKeypairs, or_comm] using hsigners

/-- A slot stays empty though a keypair for its key is at hand, if another signer has no slot; and
a slot too many is kept by signing in part, but not by signing at once. -/
theorem partialSign_uneven_slots :
    let seed : Keypair := ⟨List.replicate 32 1, rfl⟩
    let key := Curve.scheme.publicKey seed
    let signers := Signers.ofKeypairs Curve.scheme [seed]
    let one : Message := ⟨⟨1, 0, 0⟩, [key], .zero .hash, [], [], .legacy⟩
    let two : Message := ⟨⟨2, 0, 0⟩, [key, .zero .publicKey], .zero .hash, [], [], .legacy⟩
    let short : Transaction := ⟨two, [.zero .signature]⟩
    let long : Transaction := ⟨one, [.zero .signature, .zero .signature]⟩
    (two.signers[0]? = some key ∧ key ∈ signers.map Prod.fst ∧
      ((Signing.partialSign signers).apply Curve.scheme short).signatures = [.zero .signature]) ∧
    (∀ other ∈ one.signers, other ∈ signers.map Prod.fst) ∧
      (Signing.partialSign signers).apply Curve.scheme long ≠
        (Signing.sign signers).apply Curve.scheme long := by
  intro seed key signers one two short long
  have hshort : ∀ payload, ¬ short.Fillable payload := fun payload hfillable =>
    absurd hfillable.2 (by decide)
  have hkey : key ∈ signers.map Prod.fst := List.mem_singleton_self key
  have hpresent : absent signers long.message = [] := absent_eq_nil.mpr fun other hother => by
    rwa [List.mem_singleton.mp hother]
  refine ⟨⟨rfl, hkey, ?_⟩, absent_eq_nil.mp hpresent, fun hsame => ?_⟩
  -- Which key it is does not matter from here on.
  all_goals clear_value key
  · rw [apply_partialSign_of_not hshort]
  · obtain ⟨payload, hpayload⟩ : ∃ payload, long.message.bytes = .ok payload := ⟨_, rfl⟩
    have hpartial :
        ((Signing.partialSign signers).apply Curve.scheme long).signatures.length = 2 := by
      rw [apply_partialSign_of_fillable ⟨hpayload, Nat.le_succ 1⟩]
      exact length_filled _ _
    have hsign : ((Signing.sign signers).apply Curve.scheme long).signatures.length ≤ 1 := by
      rw [apply_sign_of_present hpresent hpayload]
      exact List.length_filterMap_le _ _
    rw [hsame] at hpartial
    omega

end Steps

end Transaction

end LedgerClient
