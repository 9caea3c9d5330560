import LedgerClient.Proofs.Message.Request

/-!
# The account table of a compiled message

The counts of a header cut the listed accounts of a message into four stretches, one for each
class: the writable signers, the read-only signers, the writable others and the read-only others.
In a compiled message the stretches are the listed classes of the plan. So they hold exactly the
accounts of their class, and in each of them the keys ascend, the payer excepted, which comes
first whatever its key is.

## Main definitions

* `Message.stretch`: the listed accounts of a class, by the counts of the header
* `Message.Plan.listedAs`: the listed class of a plan

## Main results

* `Message.stretch_message`: the stretches of a compiled message are the classes of its plan
* `Message.Plan.mem_listedAs`: a listed class holds the listed keys of this usage
* `Message.compile_table_canonical`: the account table of a compiled message is canonical
-/

namespace LedgerClient

theorem Sequence.between_eq {α : Type} {xs : List α} {i j : Int} (before part after : List α)
    (hxs : xs = before ++ (part ++ after)) (hi : i = before.length)
    (hj : j = before.length + part.length) : Sequence.between xs i j = part := by
  subst hxs hi hj
  exact Sequence.between_append_append before part after

namespace Message

/-- The listed accounts of a class, by the counts of the header: those that sign or do not, and
that may be changed or may not. -/
def stretch (m : Message) (signer writable : Bool) : List PublicKey :=
  let signers := m.header.signers
  let writableSigners := signers - m.header.readonlySigners
  let listed : Int := m.keys.length
  let writables := listed - m.header.readonlyOthers
  match signer, writable with
  | true, true => Sequence.between m.keys 0 writableSigners
  | true, false => Sequence.between m.keys writableSigners signers
  | false, true => Sequence.between m.keys signers writables
  | false, false => Sequence.between m.keys writables listed

/-- The listed class of a plan. -/
def Plan.listedAs (p : Plan) (signer writable : Bool) : List PublicKey :=
  match signer, writable with
  | true, true => p.writableSigners
  | true, false => p.readonlySigners
  | false, true => p.writables
  | false, false => p.readonlys

variable {ixs : List Instruction} {payer key : PublicKey} {blockhash : Hash}
  {tables : List LookupTable} {version : Option Version} {m : Message} {signer writable : Bool}

/-! ## The stretches of a compiled message -/

section Stretches

/-- **The stretches of a compiled message** are the listed classes of its plan: the counts of the
header are the lengths of classes. -/
theorem stretch_message (p : Plan) (signer writable : Bool) :
    (p.message ixs blockhash version).stretch signer writable = p.listedAs signer writable := by
  have hcount := p.signerCount_eq
  have hlength := p.length_listed
  unfold stretch
  -- Each stretch is given with what is listed before and behind it; the counts are its ends.
  simp only [Plan.signers_message, Plan.readonlySigners_message, Plan.readonlyOthers_message,
    Plan.keys_message]
  cases signer with
  | true =>
    cases writable with
    | true =>
      refine Sequence.between_eq [] p.writableSigners
        (p.readonlySigners ++ (p.writables ++ p.readonlys)) ?_ rfl ?_
      · simp [Plan.listed]
      · rw [List.length_nil]
        omega
    | false =>
      refine Sequence.between_eq p.writableSigners p.readonlySigners
        (p.writables ++ p.readonlys) ?_ ?_ ?_
      · simp [Plan.listed]
      · omega
      · omega
  | false =>
    cases writable with
    | true =>
      refine Sequence.between_eq (p.writableSigners ++ p.readonlySigners) p.writables
        p.readonlys ?_ ?_ ?_
      · simp [Plan.listed]
      · rw [List.length_append, hcount]
      · rw [List.length_append]
        omega
    | false =>
      refine Sequence.between_eq (p.writableSigners ++ p.readonlySigners ++ p.writables)
        p.readonlys [] ?_ ?_ ?_
      · simp [Plan.listed]
      · rw [List.length_append, List.length_append]
        omega
      · rw [List.length_append, List.length_append]
        omega

end Stretches

/-! ## The listed classes of a plan -/

section Classes

/-- **A listed class** holds the listed keys of this usage. -/
theorem Plan.mem_listedAs : key ∈ (Plan.of ixs payer tables).listedAs signer writable ↔
    key ∈ (Plan.of ixs payer tables).listed ∧ (usage ixs payer key).isSigner = signer ∧
      (usage ixs payer key).isWritable = writable := by
  have hsigner : (usage ixs payer key).isSigner = true →
      loadedFrom? ixs payer tables key = none := loadedFrom?_of_isSigner
  rw [mem_listed, and_assoc]
  cases signer with
  | true =>
    have hlisted : ∀ {p : Prop}, (usage ixs payer key).isSigner = true ∧ p ↔
        loadedFrom? ixs payer tables key = none ∧ (usage ixs payer key).isSigner = true ∧ p :=
      (and_iff_right_of_imp fun h => hsigner h.1).symm
    cases writable with
    | true => exact mem_writableSigners.trans (and_congr_right fun _ => hlisted)
    | false => exact mem_readonlySigners.trans (and_congr_right fun _ => hlisted)
  | false =>
    cases writable with
    | true => exact mem_writables.trans (and_congr_right fun _ => and_left_comm)
    | false => exact mem_readonlys.trans (and_congr_right fun _ => and_left_comm)

theorem mem_mentions_of_isSigner (h : (usage ixs payer key).isSigner = true) :
    key ∈ mentions ixs payer := by
  refine mem_mentions.mpr ((usage_isSigner.mp h).imp_right ?_)
  rintro ⟨i, hi, a, ha, hkey, -⟩
  exact ⟨i, hi, .inr ⟨a, ha, hkey⟩⟩

theorem Plan.pairwise_filter_others (p q : PublicKey → Bool) :
    (((others ixs payer).filter p).filter q).Pairwise (· < ·) :=
  (((pairwise_ascending _).filter _).filter p).filter q

theorem Plan.pairwise_writableSigners_tail :
    (Plan.of ixs payer tables).writableSigners.tail.Pairwise (· < ·) :=
  Plan.pairwise_filter_others _ _

/-- The keys of a class ascend if the payer is not in it. -/
theorem Plan.pairwise_listedAs (h : (signer && writable) = false) :
    ((Plan.of ixs payer tables).listedAs signer writable).Pairwise (· < ·) := by
  cases signer with
  | true =>
    cases writable with
    | true => cases h
    | false => exact Plan.pairwise_filter_others _ _
  | false =>
    cases writable with
    | true => exact Plan.pairwise_filter_others _ _
    | false => exact Plan.pairwise_filter_others _ _

end Classes

/-! ## The canonical table -/

/-- **The account table of a compiled message is canonical.** The payer comes first and no account
is listed twice. The counts are in bounds, all signers are listed, and each stretch holds exactly
the listed accounts of its class. In each stretch the keys ascend strictly, the payer excepted. -/
theorem compile_table_canonical (h : compile ixs payer blockhash tables version = .ok m) :
    m.keys.head? = some payer ∧ m.keys.Nodup ∧
      (0 ≤ m.header.readonlySigners ∧ m.header.readonlySigners < m.header.signers ∧
        0 ≤ m.header.readonlyOthers ∧
        m.header.signers + m.header.readonlyOthers ≤ m.keys.length) ∧
      (∀ key, key = payer ∨ WantsSigner ixs key → key ∈ m.keys) ∧
      (∀ signer writable key, key ∈ m.stretch signer writable ↔ key ∈ m.keys ∧
        (key = payer ∨ WantsSigner ixs key ↔ signer = true) ∧
        (key = payer ∨ WantsWritable ixs key ↔ writable = true)) ∧
      (m.stretch true true).tail.Pairwise (· < ·) ∧
      ∀ signer writable, (signer && writable) = false →
        (m.stretch signer writable).Pairwise (· < ·) := by
  obtain ⟨-, -, -, rfl⟩ := compile_eq_ok.mp h
  refine ⟨rfl, Plan.nodup_listed, counts_message ixs payer _ blockhash version, fun key hkey => ?_,
    fun signer writable key => ?_, ?_, fun signer writable hclass => ?_⟩
  · have hsigner : (usage ixs payer key).isSigner = true := usage_isSigner.mpr hkey
    exact Plan.mem_listed.mpr ⟨mem_mentions_of_isSigner hsigner,
      Plan.loadedFrom?_of_isSigner hsigner⟩
  · rw [stretch_message, Plan.mem_listedAs, usage_isSigner_eq, usage_isWritable_eq]
    rfl
  · rw [stretch_message]
    exact Plan.pairwise_writableSigners_tail
  · rw [stretch_message]
    exact Plan.pairwise_listedAs hclass

/-- The payer comes before a signer of a lower key, and a program that is only called is listed
with the read-only others. -/
theorem compile_table_canonical_mixing :
    let payer : PublicKey := .ofRightmost .publicKey [6]
    let key (n : UInt8) : PublicKey := .ofRightmost .publicKey [n]
    let i : Instruction := ⟨key 9, [.signing (.writable (key 7)), .writable (key 8),
      .signing (.readonly (key 3)), .signing (.writable (key 5)), .writable (key 4)], []⟩
    let m : Message := ⟨⟨4, 1, 1⟩, [payer, key 5, key 7, key 3, key 4, key 8, key 9], .zero .hash,
      [⟨6, [2, 5, 3, 1, 4], []⟩], [], .legacy⟩
    compile [i] payer (.zero .hash) [] none = .ok m ∧ m.keys.head? = some payer ∧
      (m.stretch true true).tail.Pairwise (· < ·) ∧ key 3 ∈ m.stretch true false ∧
      (m.stretch false true).Pairwise (· < ·) ∧ key 9 ∈ m.stretch false false := by
  intro payer key i m
  have hcompile : compile [i] payer (.zero .hash) [] none = .ok m :=
    compile_eq_ok.mpr ⟨by simp, by decide, ⟨by decide, by decide⟩, by decide⟩
  obtain ⟨hpayer, -, -, -, hmem, hfirst, hrest⟩ := compile_table_canonical hcompile
  have hprogram : key 9 ∈ m.stretch false false :=
    (hmem false false (key 9)).mpr ⟨by decide, by decide, by decide⟩
  have hsigner : key 3 ∈ m.stretch true false :=
    (hmem true false (key 3)).mpr ⟨by decide, by decide, by decide⟩
  exact ⟨hcompile, hpayer, hfirst, hsigner, hrest false true rfl, hprogram⟩

end Message

end LedgerClient
