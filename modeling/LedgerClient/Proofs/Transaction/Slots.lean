import LedgerClient.Proofs.Message.AccountTable
import LedgerClient.Proofs.Message.Parsed
import LedgerClient.Transaction
import Mathlib.Data.List.Basic

/-!
# The slots of a transaction

Whatever is done to a transaction, a slot stays as it is or takes a signature that belongs to the
signer of the slot. What the slots hold after any number of steps follows from that and from the
two things that are asked of the signature scheme: the keypairs at hand sign validly, and zero
bytes are no one's signature.

## Main definitions

* `SignatureScheme.Reliable`: what is asked of the signature scheme
* `Transaction.Signing`, `Transaction.following`: a step, and the transaction after a run of steps
* `Transaction.Fills`: what a step may do to slots

## Main results

* `Transaction.Slotted.apply`: what a step does to slots
* `Transaction.Slotted.following`: what the slots hold after any run of steps
* `Transaction.slots_following`: the same for every message that is compiled or read
-/

namespace LedgerClient

/-- What signing a payload relies on: these keypairs sign it validly, and an empty slot is no one's
signature. -/
structure SignatureScheme.Reliable (S : SignatureScheme) (keypairs : List Keypair)
    (payload : Bytes) : Prop where
  signed : ∀ keypair ∈ keypairs,
    S.verify (S.publicKey keypair) payload (S.sign keypair payload) = true
  empty : ∀ key, S.verify key payload (Key.zero .signature) = false

theorem SignatureScheme.Reliable.mono {S : SignatureScheme} {keypairs others : List Keypair}
    {payload : Bytes} (h : S.Reliable others payload) (hsubset : keypairs ⊆ others) :
    S.Reliable keypairs payload :=
  ⟨fun keypair hmem => h.signed keypair (hsubset hmem), h.empty⟩

theorem Key.isZero_iff {kind : KeyKind} {key : Key kind} :
    key.isZero = true ↔ key = .zero kind := by
  obtain ⟨bs, hlength⟩ := key
  have hzeros : bs = Bytes.zeros kind.width ↔ ∀ b ∈ bs, b = 0 := by
    rw [Bytes.zeros, List.eq_replicate_iff, and_iff_right hlength]
  rw [Key.isZero, List.all_eq_true, Key.zero, Key.mk.injEq, hzeros]
  simp only [beq_iff_eq]

theorem Curve.verify_zero {key : PublicKey} {payload : Bytes} :
    scheme.verify key payload (.zero .signature) = false := by
  have hpoint : hasSmallOrder ((Key.zero .signature).bytes.take 32) = true := by decide +kernel
  change verifyBytes key.bytes payload (Key.zero .signature).bytes = false
  simp [verifyBytes, hpoint]

theorem Signers.mem_of_find? {signers : Signers} {key : PublicKey} {keypair : Keypair}
    (h : signers.find? key = some keypair) : (key, keypair) ∈ signers := by
  rw [find?, List.lookup_eq_some_iff] at h
  obtain ⟨before, behind, hsplit, -⟩ := h
  rw [← List.mem_reverse, hsplit]
  exact List.mem_append_right _ List.mem_cons_self

@[simp] theorem Signers.mem_ofKeypairs {S : SignatureScheme} {keypairs : List Keypair}
    {key : PublicKey} {keypair : Keypair} :
    (key, keypair) ∈ ofKeypairs S keypairs ↔ keypair ∈ keypairs ∧ S.publicKey keypair = key := by
  simp only [ofKeypairs, List.mem_map, Prod.mk.injEq]
  constructor
  · rintro ⟨_, hmem, hkey, rfl⟩
    exact ⟨hmem, hkey⟩
  · rintro ⟨hmem, hkey⟩
    exact ⟨keypair, hmem, hkey, rfl⟩

/-! ## The signers of a message -/

namespace Message

variable {m : Message}

/-- A message comes from bytes or from instructions. -/
def Issued (m : Message) : Prop :=
  (∃ bs, ofBytes bs = .ok m) ∨
  ∃ ixs payer blockhash tables version, compile ixs payer blockhash tables version = .ok m

/-- There is a signer, and every signer is listed. -/
theorem Issued.signers_bounds (h : m.Issued) :
    1 ≤ m.header.signers ∧ m.header.signers ≤ m.keys.length := by
  rcases h with ⟨bs, hread⟩ | ⟨ixs, payer, blockhash, tables, version, hcompiled⟩
  · exact (ofBytes_eq_ok.mp hread).1.signers
  · obtain ⟨-, -, -, rfl⟩ := compile_eq_ok.mp hcompiled
    have hpayer : 1 ≤ (Plan.of ixs payer (LookupTable.mapping tables)).writableSigners.length :=
      Plan.one_le_length_writableSigners
    have hcount := Plan.signerCount_eq (Plan.of ixs payer (LookupTable.mapping tables))
    have hlisted := Plan.length_listed (Plan.of ixs payer (LookupTable.mapping tables))
    rw [Plan.signers_message, Plan.keys_message]
    omega

/-- The signers are the first of the listed accounts. -/
theorem signers_eq_take (hsigners : 0 ≤ m.header.signers)
    (hlisted : m.header.signers ≤ m.keys.length) :
    m.signers = m.keys.take m.header.signers.toNat := by
  refine Sequence.between_eq [] _ (m.keys.drop m.header.signers.toNat) ?_ rfl ?_
  · rw [List.take_append_drop, List.nil_append]
  · rw [List.length_nil, List.length_take]
    omega

theorem Issued.signers_eq (h : m.Issued) : m.signers = m.keys.take m.header.signers.toNat :=
  signers_eq_take (Int.le_trans (by decide) h.signers_bounds.1) h.signers_bounds.2

theorem Issued.length_signers (h : m.Issued) : (m.signers.length : Int) = m.header.signers := by
  obtain ⟨hone, hlisted⟩ := h.signers_bounds
  rw [h.signers_eq, List.length_take]
  omega

end Message

namespace Transaction

variable {S : SignatureScheme} {m : Message} {t : Transaction} {key : PublicKey}
  {before after : List Signature} {payload : Bytes}

/-! ## Steps -/

/-- What a computation on a transaction gives, and the transaction after it. -/
def outcome {α : Type} (x : ExceptT Fault (StateM Transaction) α) (t : Transaction) :
    Except Fault α × Transaction :=
  x.run.run t

section Outcome

variable {α β : Type}

theorem outcome_bind (x : ExceptT Fault (StateM Transaction) α)
    (f : α → ExceptT Fault (StateM Transaction) β) (t : Transaction) :
    outcome (x >>= f) t = match outcome x t with
      | (.ok a, after) => outcome (f a) after
      | (.error fault, after) => (.error fault, after) := by
  change (ExceptT.bindCont f (outcome x t).1).run (outcome x t).2 = _
  rcases outcome x t with ⟨_ | _, after⟩ <;> rfl

@[simp] theorem outcome_get : outcome get t = (.ok t, t) := rfl

@[simp] theorem outcome_set (after : Transaction) : outcome (set after) t = (.ok (), after) := rfl

@[simp] theorem outcome_throw (fault : Fault) :
    outcome (throw fault : ExceptT Fault (StateM Transaction) α) t = (.error fault, t) := rfl

@[simp] theorem outcome_ite (p : Prop) [Decidable p] (x y : ExceptT Fault (StateM Transaction) α) :
    outcome (if p then x else y) t = if p then outcome x t else outcome y t :=
  apply_ite (outcome · t) p x y

@[simp] theorem outcome_given (x : Except Fault α) : outcome (Change.given x) t = (x, t) := by
  cases x <;> rfl

end Outcome

/-- What is done to the slots of a transaction. -/
inductive Signing
  | sign (signers : Signers)
  | partialSign (signers : Signers)
  | add (key : PublicKey) (signature : Signature)

namespace Signing

/-- The keypairs at hand, by public key. -/
def signers : Signing → Signers
  | .sign signers | .partialSign signers => signers
  | .add _ _ => []

/-- The keypairs at hand. -/
def keypairs (step : Signing) : List Keypair :=
  step.signers.map Prod.snd

/-- The change of a step. -/
def change (S : SignatureScheme) : Signing → Change
  | .sign signers => Transaction.sign S signers
  | .partialSign signers => Transaction.partialSign S signers
  | .add key signature => addSignature S key signature

/-- Every keypair at hand has the public key that it stands for. -/
def Paired (S : SignatureScheme) (step : Signing) : Prop :=
  ∀ entry ∈ step.signers, S.publicKey entry.2 = entry.1

/-- The transaction after a step, which may have failed. -/
def apply (S : SignatureScheme) (step : Signing) (t : Transaction) : Transaction :=
  (outcome (step.change S) t).2

end Signing

/-- The transaction after a run of steps. -/
def following (S : SignatureScheme) (steps : List Signing) (t : Transaction) : Transaction :=
  steps.foldl (fun t step => step.apply S t) t

/-- A signature of the message that belongs to a key. -/
def Belongs (S : SignatureScheme) (m : Message) (key : PublicKey) (s : Signature) : Prop :=
  ∃ payload, m.bytes = .ok payload ∧ S.verify key payload s = true

/-- Each slot stays as it is, or takes a signature that belongs to its signer. -/
structure Fills (S : SignatureScheme) (m : Message) (before after : List Signature) : Prop where
  length : after.length = before.length
  slots : ∀ (i : Nat) (key : PublicKey), m.signers[i]? = some key →
    after[i]? = before[i]? ∨ ∃ s, after[i]? = some s ∧ Belongs S m key s

theorem fills_refl : Fills S m before before :=
  ⟨rfl, fun _ _ _ => .inl rfl⟩

theorem Fills.trans {later : List Signature} (h : Fills S m before after)
    (hlater : Fills S m after later) : Fills S m before later := by
  refine ⟨hlater.length.trans h.length, fun i key hkey => ?_⟩
  rcases hlater.slots i key hkey with hsame | hfilled
  · rw [hsame]
    exact h.slots i key hkey
  · exact .inr hfilled

/-! ## What each step does -/

section Steps

variable {signers : Signers}

/-- What a keypair at hand signs belongs to the key that it stands for. -/
theorem belongs_sign {keypair : Keypair} (hfound : signers.find? key = some keypair)
    (hpaired : ∀ entry ∈ signers, S.publicKey entry.2 = entry.1) (hbytes : m.bytes = .ok payload)
    (hS : S.Reliable (signers.map Prod.snd) payload) :
    Belongs S m key (S.sign keypair payload) := by
  have hmem := Signers.mem_of_find? hfound
  have hsigned := hS.signed keypair (List.mem_map_of_mem hmem)
  rw [hpaired _ hmem] at hsigned
  exact ⟨payload, hbytes, hsigned⟩

/-- Signing changes nothing, or it finds a keypair for every signer. -/
theorem outcome_sign (S : SignatureScheme) (signers : Signers) (t : Transaction) :
    (outcome (sign S signers) t).2 = t ∨
    ∃ payload, t.message.bytes = .ok payload ∧
      (∀ key ∈ t.message.signers, ∃ keypair, signers.find? key = some keypair) ∧
      (outcome (sign S signers) t).2 = { t with
        signatures := t.message.signers.filterMap fun key =>
          (signers.find? key).map (S.sign · payload) } := by
  unfold sign
  simp only [outcome_bind, outcome_get, outcome_ite, outcome_throw, outcome_given, outcome_set]
  by_cases hmissing : t.message.signers.filter (fun key => (signers.find? key).isNone) = []
  · have hfound : ∀ key ∈ t.message.signers, ∃ keypair, signers.find? key = some keypair := by
      simpa [List.filter_eq_nil_iff, ← Option.ne_none_iff_exists'] using hmissing
    cases hbytes : t.message.bytes with
    | error fault => simp [hmissing]
    | ok payload =>
      refine .inr ⟨payload, rfl, hfound, ?_⟩
      rw [if_neg (fun hne => hne hmissing)]
      dsimp only
      split <;> rfl
  · simp [hmissing]

theorem outcome_partialSign (S : SignatureScheme) (signers : Signers) (t : Transaction) :
    (outcome (partialSign S signers) t).2 = t ∨
    ∃ payload signatures, t.message.bytes = .ok payload ∧
      fill S signers payload t.message.signers t.signatures = .ok signatures ∧
      (outcome (partialSign S signers) t).2 = { t with signatures } := by
  unfold partialSign
  simp only [outcome_bind, outcome_get, outcome_given, outcome_set]
  cases hbytes : t.message.bytes with
  | error fault => simp
  | ok payload =>
    cases hfill : fill S signers payload t.message.signers t.signatures with
    | error fault => simp [hfill]
    | ok signatures => exact .inr ⟨payload, signatures, rfl, hfill, by simp [hfill]⟩

/-- A signature is put into the first slot of its signer, if it belongs to it. -/
theorem outcome_addSignature (S : SignatureScheme) (key : PublicKey) (signature : Signature)
    (t : Transaction) :
    (outcome (addSignature S key signature) t).2 = t ∨
    key ∈ t.message.signers ∧ Belongs S t.message key signature ∧
      (outcome (addSignature S key signature) t).2 = { t with
        signatures := t.signatures.set (t.message.signers.idxOf key) signature } := by
  unfold addSignature
  simp only [outcome_bind, outcome_get, outcome_ite, outcome_throw, outcome_given, outcome_set]
  by_cases hmem : key ∈ t.message.signers
  · cases hbytes : t.message.bytes with
    | error fault => simp [hmem]
    | ok payload =>
      by_cases hverify : S.verify key payload signature = true
      · have hbelongs : Belongs S t.message key signature := ⟨payload, hbytes, hverify⟩
        by_cases hslot : t.signatures.length ≤ t.message.signers.idxOf key
        · simp [hmem, hverify, hslot]
        · simp [hmem, hverify, hslot, hbelongs]
      · simp [hmem, hverify]
  · simp [hmem]

/-- Partial signing leaves a slot as it is or fills it for its key. -/
theorem fill_eq_ok {keys : List PublicKey} {slots filled : List Signature}
    (hsigned : ∀ key keypair, signers.find? key = some keypair →
      Belongs S m key (S.sign keypair payload))
    (h : fill S signers payload keys slots = .ok filled) : filled.length = slots.length ∧
      ∀ (i : Nat) (key : PublicKey), keys[i]? = some key →
        filled[i]? = slots[i]? ∨ ∃ s, filled[i]? = some s ∧ Belongs S m key s := by
  induction keys generalizing slots filled with
  | nil =>
    cases h
    exact ⟨rfl, nofun⟩
  | cons first keys ih =>
    cases slots with
    | nil => cases h
    | cons slot slots =>
      rw [fill] at h
      cases hothers : fill S signers payload keys slots with
      | error fault =>
        rw [hothers] at h
        cases h
      | ok others =>
        rw [hothers] at h
        cases h
        obtain ⟨hlength, hslots⟩ := ih hothers
        refine ⟨congrArg (· + 1) hlength, fun i key hkey => ?_⟩
        cases i with
        | succ i => exact hslots i key hkey
        | zero =>
          cases hkey
          simp only [List.getElem?_cons_zero]
          split
          · next keypair hfound =>
            split
            · exact .inr ⟨_, rfl, hsigned _ _ hfound⟩
            · exact .inl rfl
          · exact .inl rfl

end Steps

/-! ## What slots hold -/

/-- A transaction of a message: there is a slot for every signer, and it is empty or holds a
signature that belongs to the signer. -/
structure Slotted (S : SignatureScheme) (m : Message) (t : Transaction) : Prop where
  message : t.message = m
  length : t.signatures.length = m.signers.length
  slots : ∀ (i : Nat) (s : Signature), t.signatures[i]? = some s →
    s = Key.zero .signature ∨ ∃ key, m.signers[i]? = some key ∧ Belongs S m key s

section Slots

/-- A filled slot stays filled. -/
theorem Fills.filled {i : Nat} {s : Signature} (h : Fills S m before after)
    (hlength : before.length = m.signers.length)
    (hempty : ∀ payload, m.bytes = .ok payload → ∀ key,
      S.verify key payload (Key.zero .signature) = false)
    (hs : before[i]? = some s) (hfilled : s ≠ Key.zero .signature) :
    ∃ s', after[i]? = some s' ∧ s' ≠ Key.zero .signature := by
  have hi : i < m.signers.length := by
    rw [← hlength]
    exact (List.getElem?_eq_some_iff.mp hs).1
  rcases h.slots i _ (List.getElem?_eq_getElem hi) with hsame | ⟨s', hs', payload, hbytes, hverify⟩
  · exact ⟨s, hsame.trans hs, hfilled⟩
  · refine ⟨s', hs', ?_⟩
    rintro rfl
    exact nomatch hverify.symm.trans (hempty payload hbytes _)

theorem Slotted.fills (h : Slotted S m t) (hfills : Fills S m t.signatures after) :
    Slotted S m { t with signatures := after } := by
  refine ⟨h.message, hfills.length.trans h.length, fun i s hs => ?_⟩
  have hi : i < m.signers.length := by
    rw [← h.length, ← hfills.length]
    exact (List.getElem?_eq_some_iff.mp hs).1
  have hkey := List.getElem?_eq_getElem hi
  rcases hfills.slots i _ hkey with hsame | ⟨s', hs', hbelongs⟩
  · exact h.slots i s (hsame.symm.trans hs)
  · cases hs'.symm.trans hs
    exact .inr ⟨_, hkey, hbelongs⟩

/-- **A step leaves a slot as it is or fills it for its signer.** -/
theorem Slotted.fills_apply {step : Signing} (h : Slotted S m t)
    (hS : ∀ payload, m.bytes = .ok payload → S.Reliable step.keypairs payload)
    (hpaired : step.Paired S) :
    ∃ after, step.apply S t = { t with signatures := after } ∧ Fills S m t.signatures after := by
  obtain ⟨hmessage, hlength, -⟩ := h
  subst hmessage
  cases step with
  | sign signers =>
    rcases outcome_sign S signers t with hsame | ⟨payload, hbytes, hfound, hsigned⟩
    · exact ⟨_, hsame, fills_refl⟩
    · refine ⟨_, hsigned, ?_⟩
      have hall : t.message.signers.filterMap (fun key =>
          (signers.find? key).map (S.sign · payload)) = t.message.signers.map fun key =>
            ((signers.find? key).map (S.sign · payload)).getD (Key.zero .signature) := by
        refine List.filterMap_eq_map_iff_forall_eq_some.mpr fun key hkey => ?_
        obtain ⟨keypair, hkeypair⟩ := hfound key hkey
        rw [hkeypair]
        rfl
      rw [hall]
      refine ⟨(List.length_map _).trans hlength.symm, fun i key hkey => .inr ?_⟩
      obtain ⟨keypair, hkeypair⟩ := hfound key (List.mem_of_getElem? hkey)
      refine ⟨S.sign keypair payload, ?_, ?_⟩
      · rw [List.getElem?_map, hkey, Option.map_some, hkeypair]
        rfl
      · exact belongs_sign hkeypair hpaired hbytes (hS payload hbytes)
  | partialSign signers =>
    rcases outcome_partialSign S signers t with hsame | ⟨payload, after, hbytes, hfill, hsigned⟩
    · exact ⟨_, hsame, fills_refl⟩
    · have hslots := fill_eq_ok (m := t.message) (fun key keypair hkeypair =>
        belongs_sign hkeypair hpaired hbytes (hS payload hbytes)) hfill
      exact ⟨after, hsigned, hslots.1, hslots.2⟩
  | add key signature =>
    rcases outcome_addSignature S key signature t with hsame | ⟨hmem, hbelongs, hadded⟩
    · exact ⟨_, hsame, fills_refl⟩
    · refine ⟨_, hadded, List.length_set, fun i other hother => ?_⟩
      rw [List.getElem?_set]
      split
      · next hindex =>
        right
        subst hindex
        have hi : t.message.signers.idxOf key < t.signatures.length := by
          rw [hlength]
          exact List.idxOf_lt_length_of_mem hmem
        rw [List.getElem?_idxOf hmem] at hother
        cases hother
        exact ⟨signature, if_pos hi, hbelongs⟩
      · exact .inl rfl

/-- **A run of steps leaves a slot as it is or fills it for its signer.** -/
theorem Slotted.fills_following {steps : List Signing} (h : Slotted S m t)
    (hS : ∀ payload, m.bytes = .ok payload →
      S.Reliable (steps.flatMap Signing.keypairs) payload)
    (hpaired : ∀ step ∈ steps, step.Paired S) :
    ∃ after, following S steps t = { t with signatures := after } ∧
      Fills S m t.signatures after := by
  induction steps generalizing t with
  | nil => exact ⟨_, rfl, fills_refl⟩
  | cons step steps ih =>
    obtain ⟨first, happly, hfirst⟩ := h.fills_apply
      (fun payload hbytes => (hS payload hbytes).mono (List.subset_append_left _ _))
      (hpaired step List.mem_cons_self)
    obtain ⟨after, hfollowing, hafter⟩ := ih (h.fills hfirst)
      (fun payload hbytes => (hS payload hbytes).mono (List.subset_append_right _ _))
      (fun other hother => hpaired other (List.mem_cons_of_mem _ hother))
    refine ⟨after, ?_, hfirst.trans hafter⟩
    change following S steps (step.apply S t) = _
    rw [happly, hfollowing]

theorem verified_eq_ok_true (hbytes : t.message.bytes = .ok payload) :
    t.verified S = .ok true ↔
      ∀ (i : Nat) (key : PublicKey) (s : Signature), t.message.signers[i]? = some key →
        t.signatures[i]? = some s → S.verify key payload s = true := by
  have hverified : t.verified S = .ok ((t.message.signers.zip t.signatures).all
      fun entry => S.verify entry.1 payload entry.2) := by
    rw [verified, hbytes]
    rfl
  rw [hverified, Except.ok.injEq, List.all_eq_true]
  constructor
  · intro hall i key s hkey hs
    exact hall (key, s) (List.mem_of_getElem? (List.getElem?_zip_eq_some.mpr ⟨hkey, hs⟩))
  · rintro hall ⟨key, s⟩ hmem
    obtain ⟨i, hi⟩ := List.getElem?_of_mem hmem
    obtain ⟨hkey, hs⟩ := List.getElem?_zip_eq_some.mp hi
    exact hall i key s hkey hs

/-- A transaction is signed when its signatures are those of its signers. -/
theorem Slotted.isSigned_iff (h : Slotted S m t) (hsigner : m.signers ≠ [])
    (hempty : ∀ payload, m.bytes = .ok payload → ∀ key,
      S.verify key payload (Key.zero .signature) = false) :
    t.isSigned = true ↔ t.verified S = .ok true := by
  have hsigned : t.isSigned = true ↔ ∀ s ∈ t.signatures, s ≠ Key.zero .signature := by
    simp [isSigned, ← Key.isZero_iff]
  rw [hsigned]
  obtain ⟨rfl, hlength, hslots⟩ := h
  cases hbytes : t.message.bytes with
  | error fault =>
    constructor
    · intro hall
      have hslot : t.signatures ≠ [] := fun hnil =>
        hsigner (List.length_eq_zero_iff.mp (by rw [← hlength, hnil, List.length_nil]))
      obtain ⟨s, hs⟩ := List.exists_mem_of_ne_nil _ hslot
      obtain ⟨i, hi⟩ := List.getElem?_of_mem hs
      rcases hslots i s hi with hzero | ⟨key, -, payload, hpayload, -⟩
      · exact absurd hzero (hall s hs)
      · exact nomatch hbytes.symm.trans hpayload
    · intro hverified
      rw [verified, hbytes] at hverified
      cases hverified
  | ok payload =>
    rw [verified_eq_ok_true hbytes]
    constructor
    · intro hall i key s hkey hs
      rcases hslots i s hs with hzero | ⟨_, hsame, _, hpayload, hverify⟩
      · exact absurd hzero (hall s (List.mem_of_getElem? hs))
      · cases hsame.symm.trans hkey
        cases hpayload.symm.trans hbytes
        exact hverify
    · rintro hall s hs rfl
      obtain ⟨i, hi⟩ := List.getElem?_of_mem hs
      have hlt : i < t.message.signers.length := hlength ▸ (List.getElem?_eq_some_iff.mp hi).1
      have hverify := hall i _ _ (List.getElem?_eq_getElem hlt) hi
      rw [hempty payload hbytes] at hverify
      cases hverify

/-- A new transaction has an empty slot for every signer. -/
theorem slotted_ofMessage (S : SignatureScheme) (hm : m.Issued) :
    ∃ t, ofMessage m = .ok t ∧ Slotted S m t := by
  obtain ⟨hone, -⟩ := hm.signers_bounds
  have hlength := hm.length_signers
  refine ⟨_, if_pos ?_, rfl, ?_, fun i s hs => .inl ?_⟩
  · rw [List.length_replicate]
    omega
  · rw [List.length_replicate]
    omega
  · exact List.eq_of_mem_replicate (List.mem_of_getElem? hs)

end Slots

/-- **The slots of a transaction in a run of steps.** Start from a transaction of a message that
was read or compiled and take any steps, successful or not, with keypairs that sign validly. At
any moment there is a slot for every signer, and slot `i` is empty or holds a signature of the
message that belongs to account `i`. A filled slot stays filled, and the transaction is signed
exactly when its signatures are those of its signers. -/
theorem slots_following (hm : m.Issued) (steps : List Signing)
    (hpaired : ∀ step ∈ steps, step.Paired S)
    (hS : ∀ payload, m.bytes = .ok payload →
      S.Reliable (steps.flatMap Signing.keypairs) payload) :
    ∃ start, ofMessage m = .ok start ∧
      ∀ taken left, steps = taken ++ left →
        let t := following S taken start
        t.message = m ∧ (t.signatures.length : Int) = m.header.signers ∧
          (∀ (i : Nat) (s : Signature), t.signatures[i]? = some s →
            s = Key.zero .signature ∨ ∃ key, m.keys[i]? = some key ∧ Belongs S m key s) ∧
          (∀ (i : Nat) (s : Signature), t.signatures[i]? = some s → s ≠ Key.zero .signature →
            ∃ s', (following S left t).signatures[i]? = some s' ∧ s' ≠ Key.zero .signature) ∧
          (t.isSigned = true ↔ t.verified S = .ok true) := by
  obtain ⟨start, hstart, hslotted⟩ := slotted_ofMessage S hm
  refine ⟨start, hstart, ?_⟩
  rintro taken left rfl t
  rw [List.flatMap_append] at hS
  have hempty : ∀ payload, m.bytes = .ok payload → ∀ key,
      S.verify key payload (Key.zero .signature) = false :=
    fun payload hbytes => (hS payload hbytes).empty
  obtain ⟨_, hnow, hfills⟩ := hslotted.fills_following
    (fun payload hbytes => (hS payload hbytes).mono (List.subset_append_left _ _))
    (fun step hmem => hpaired step (List.mem_append_left _ hmem))
  have ht : Slotted S m t := by
    change Slotted S m (following S taken start)
    rw [hnow]
    exact hslotted.fills hfills
  obtain ⟨after, hlater, hkept⟩ := ht.fills_following
    (fun payload hbytes => (hS payload hbytes).mono (List.subset_append_right _ _))
    (fun step hmem => hpaired step (List.mem_append_right _ hmem))
  refine ⟨ht.message, ?_, fun i s hs => ?_, fun i s hs hfilled => ?_, ht.isSigned_iff ?_ hempty⟩
  · rw [ht.length, hm.length_signers]
  · refine (ht.slots i s hs).imp_right fun ⟨key, hkey, hbelongs⟩ => ⟨key, ?_, hbelongs⟩
    rw [hm.signers_eq] at hkey
    rw [List.getElem?_take] at hkey
    split at hkey
    · exact hkey
    · cases hkey
  · rw [hlater]
    exact hkept.filled ht.length hempty hs hfilled
  · have hone := hm.signers_bounds.1
    rw [← hm.length_signers] at hone
    exact List.ne_nil_of_length_pos (by omega)

/-- The bytes of a message of two signers and nothing else. -/
theorem bytes_two_signers (a b : PublicKey) :
    (⟨⟨2, 0, 0⟩, [a, b], .zero .hash, [], [], .legacy⟩ : Message).bytes =
      .ok ([2, 0, 0, 2] ++ a.bytes ++ b.bytes ++ Bytes.zeros 32 ++ [0]) := by
  have hkeys : (Write.array Write.key [a, b]).run = .ok (2 :: (a.bytes ++ b.bytes)) :=
    (Write.run_array_eq_ok fun k => Write.appends_key k).mpr
      ⟨[2], a.bytes ++ b.bytes, CompactU16.encode_of_lt (n := 2) (by decide), rfl, rfl⟩
  have hinstructions : (Write.array Message.writeInstruction []).run = .ok [0] :=
    (Write.run_array_eq_ok Message.appends_writeInstruction).mpr
      ⟨[0], [], CompactU16.encode_of_lt (by decide), rfl, rfl⟩
  refine Message.bytes_eq_ok.mpr ⟨[], [2], [0], [0], _, _, [], rfl, rfl, rfl, rfl, hkeys,
    hinstructions, rfl, ?_⟩
  have hzeros : (Key.zero .hash).bytes = Bytes.zeros 32 := rfl
  simp [hzeros]

/-- One of two signers signs in part, then alone and in vain, and the other slot is refused zero
bytes. -/
theorem slots_following_one_of_two :
    let seed : Keypair := ⟨List.replicate 32 1, rfl⟩
    let signers := Signers.ofKeypairs Curve.scheme [seed]
    let m : Message := ⟨⟨2, 0, 0⟩, [Curve.scheme.publicKey seed, .zero .publicKey], .zero .hash, [],
      [], .legacy⟩
    let steps : List Signing :=
      [.partialSign signers, .sign signers, .add (.zero .publicKey) (.zero .signature)]
    m.Issued ∧ ∃ start, ofMessage m = .ok start ∧
      let t := following Curve.scheme steps start
      (t.signatures.length : Int) = 2 ∧
        (t.isSigned = true ↔ t.verified Curve.scheme = .ok true) := by
  intro seed signers m steps
  have hpayload : ∀ key : PublicKey,
      (⟨⟨2, 0, 0⟩, [key, .zero .publicKey], .zero .hash, [], [], .legacy⟩ : Message).bytes =
        .ok ([2, 0, 0, 2] ++ key.bytes ++ Bytes.zeros 64 ++ [0]) := by
    intro key
    have hkeys : (Write.array Write.key [key, .zero .publicKey]).run =
        .ok (2 :: (key.bytes ++ Bytes.zeros 32)) :=
      (Write.run_array_eq_ok fun k => Write.appends_key k).mpr
        ⟨[2], key.bytes ++ Bytes.zeros 32, CompactU16.encode_of_lt (n := 2) (by decide), rfl, rfl⟩
    have hinstructions : (Write.array Message.writeInstruction []).run = .ok [0] :=
      (Write.run_array_eq_ok Message.appends_writeInstruction).mpr
        ⟨[0], [], CompactU16.encode_of_lt (by decide), rfl, rfl⟩
    refine Message.bytes_eq_ok.mpr ⟨[], [2], [0], [0], _, _, [], rfl, rfl, rfl, rfl, hkeys,
      hinstructions, rfl, ?_⟩
    have hzeros : Bytes.zeros 64 = Bytes.zeros 32 ++ (Key.zero .hash).bytes := by decide
    simp [hzeros]
  have hwell : m.WellFormed := by constructor <;> decide +kernel
  have hissued : m.Issued := .inl ⟨_, Message.ofBytes_eq_ok.mpr ⟨hwell, hpayload _⟩⟩
  have hreliable : ∀ payload, m.bytes = .ok payload →
      Curve.scheme.Reliable (steps.flatMap Signing.keypairs) payload := by
    intro payload hbytes
    cases (hpayload _).symm.trans hbytes
    refine ⟨fun keypair hmem => ?_, fun key => Curve.verify_zero⟩
    obtain rfl : keypair = seed := by
      simpa [steps, signers, Signing.keypairs, Signing.signers, Signers.ofKeypairs] using hmem
    decide +kernel
  have hpaired : ∀ step ∈ steps, step.Paired Curve.scheme := by
    simp [steps, signers, Signing.Paired, Signing.signers]
  obtain ⟨start, hstart, hrun⟩ := slots_following hissued steps hpaired hreliable
  obtain ⟨-, hlength, -, -, hsigned⟩ := hrun steps [] (List.append_nil _).symm
  exact ⟨hissued, start, hstart, hlength, hsigned⟩

end Transaction

end LedgerClient
