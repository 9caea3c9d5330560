import LedgerClient.Proofs.Message.Compile

/-!
# Privileges of compiled messages

A message says which accounts sign and which may be changed by the places of the accounts alone:
the counts of its header cut the listed ones into four classes, and of the loaded ones the
writable come first. Compiling places every key in the class that was asked for, so each account
has exactly the privileges that its mentions ask for together, and the payer has both.

## Main results

* `Message.isSigner_message`, `Message.isWritable_message`: the privileges of a position are those
  of the key at this position
* `AccountMeta.foldlM_merge`: mentions of one account merge to one with the privileges of all
* `Message.compile_grants_privileges`: exactly the requested privileges are granted
-/

namespace LedgerClient

/-- Mentions of one account merge to one that has the privileges of all of them. -/
theorem AccountMeta.foldlM_merge (first : AccountMeta) {metas : List AccountMeta}
    (h : ∀ a ∈ metas, a.key = first.key) :
    metas.foldlM AccountMeta.merge first = .ok ⟨first.key,
      first.isSigner || metas.any (·.isSigner), first.isWritable || metas.any (·.isWritable)⟩ := by
  induction metas generalizing first with
  | nil =>
    rw [List.any_nil, List.any_nil, Bool.or_false, Bool.or_false]
    rfl
  | cons a metas ih =>
    obtain ⟨ha, hmetas⟩ := List.forall_mem_cons.mp h
    rw [List.foldlM_cons, merge, if_pos ha.symm]
    change metas.foldlM merge (first.join a) = _
    rw [ih (first.join a) hmetas, List.any_cons, List.any_cons, ← Bool.or_assoc, ← Bool.or_assoc]
    rfl

namespace Message

variable {ixs : List Instruction} {payer key : PublicKey} {blockhash : Hash}
  {tables : List LookupTable} {version : Option Version} {m : Message} {n : Nat}

/-! ## Places and classes

The keys of a plan stand class by class, so the end of a class splits the positions into those of
the keys up to this class and those of the other keys. -/

section Places

theorem loadedWritable_prefix_all (p : Plan) :
    p.listed ++ p.loadedWritable.flatMap (·.2) <+: p.all :=
  List.prefix_append _ _

theorem writables_prefix_all (p : Plan) :
    p.writableSigners ++ p.readonlySigners ++ p.writables <+: p.all :=
  (List.prefix_append _ _).trans (Plan.listed_prefix_all p)

theorem signers_prefix_all (p : Plan) : p.writableSigners ++ p.readonlySigners <+: p.all :=
  (List.prefix_append _ _).trans (writables_prefix_all p)

theorem writableSigners_prefix_all (p : Plan) : p.writableSigners <+: p.all :=
  (List.prefix_append _ _).trans (signers_prefix_all p)

variable (hnodup : (tables.map LookupTable.key).Nodup)
  (hkey : (Plan.of ixs payer tables).all[n]? = some key)
include hnodup hkey

theorem lt_writableSigners_iff : n < (Plan.of ixs payer tables).writableSigners.length ↔
    (usage ixs payer key).isSigner = true ∧ (usage ixs payer key).isWritable = true := by
  rw [Plan.lt_length_iff_mem (Plan.nodup_all hnodup) (writableSigners_prefix_all _) hkey,
    Plan.mem_writableSigners]
  exact and_iff_right (Plan.mem_all.mp (List.mem_of_getElem? hkey))

theorem lt_signerCount_iff : n < (Plan.of ixs payer tables).signerCount ↔
    (usage ixs payer key).isSigner = true := by
  rw [Plan.signerCount, ← List.length_append,
    Plan.lt_length_iff_mem (Plan.nodup_all hnodup) (signers_prefix_all _) hkey, Plan.mem_signers]
  exact and_iff_right (Plan.mem_all.mp (List.mem_of_getElem? hkey))

theorem lt_writables_iff :
    n < (Plan.of ixs payer tables).signerCount + (Plan.of ixs payer tables).writables.length ↔
      (usage ixs payer key).isSigner = true ∨ (usage ixs payer key).isSigner = false ∧
        loadedFrom? ixs payer tables key = none ∧ (usage ixs payer key).isWritable = true := by
  have hmention := Plan.mem_all.mp (List.mem_of_getElem? hkey)
  rw [Plan.signerCount, ← List.length_append, ← List.length_append,
    Plan.lt_length_iff_mem (Plan.nodup_all hnodup) (writables_prefix_all _) hkey,
    List.mem_append, Plan.mem_signers, Plan.mem_writables, and_iff_right hmention,
    and_iff_right hmention]

theorem lt_listed_iff : n < (Plan.of ixs payer tables).listed.length ↔
    loadedFrom? ixs payer tables key = none := by
  rw [Plan.lt_length_iff_mem (Plan.nodup_all hnodup) (Plan.listed_prefix_all _) hkey,
    Plan.mem_listed]
  exact and_iff_right (Plan.mem_all.mp (List.mem_of_getElem? hkey))

theorem lt_loadedWritable_iff : n < (Plan.of ixs payer tables).listed.length +
      (tables.flatMap (loadedKeys ixs payer tables true)).length ↔
    loadedFrom? ixs payer tables key = none ∨ (usage ixs payer key).isWritable = true := by
  have hmention := Plan.mem_all.mp (List.mem_of_getElem? hkey)
  have hprefix := loadedWritable_prefix_all (Plan.of ixs payer tables)
  rw [Plan.loadedWritable_eq, List.flatMap_map] at hprefix
  rw [← List.length_append, Plan.lt_length_iff_mem (Plan.nodup_all hnodup) hprefix hkey,
    List.mem_append, Plan.mem_listed, Plan.mem_flatMap_loadedKeys, and_iff_right hmention,
    and_iff_right hmention]
  constructor
  · exact Or.imp_right And.right
  · intro h
    by_cases hnone : loadedFrom? ixs payer tables key = none
    · exact .inl hnone
    · exact .inr ⟨hnone, h.resolve_left hnone⟩

end Places

/-! ## The privileges of a position -/

theorem loadedWritableCount_message : ((Plan.of ixs payer tables).message ixs blockhash
    version).loadedWritableCount = (tables.flatMap (loadedKeys ixs payer tables true)).length := by
  rw [loadedWritableCount, Plan.message, lookups_eq]
  exact (length_lookups tables).1

/-- A position signs just when the key at it does. -/
theorem isSigner_message (hnodup : (tables.map LookupTable.key).Nodup)
    (hkey : (Plan.of ixs payer tables).all[n]? = some key) :
    ((Plan.of ixs payer tables).message ixs blockhash version).isSigner n =
      (usage ixs payer key).isSigner := by
  rw [Bool.eq_iff_iff, ← lt_signerCount_iff hnodup hkey, isSigner, decide_eq_true_eq]
  exact Int.ofNat_lt

/-- The counts of a compiled message mark the ends of the writable classes. -/
theorem isWritable_plan (p : Plan) : (p.message ixs blockhash version).isWritable n =
    if n < p.signerCount then decide (n < p.writableSigners.length)
    else if n < p.listed.length then decide (n < p.signerCount + p.writables.length)
    else decide (n < p.listed.length + (p.message ixs blockhash version).loadedWritableCount) := by
  have hcount := p.signerCount_eq
  have hlength := p.length_listed
  rw [isWritable, Plan.signers_message, Plan.readonlySigners_message, Plan.readonlyOthers_message,
    Plan.keys_message]
  simp only [Int.ofNat_lt]
  -- The ends of the classes are differences of the counts, taken from the right.
  congr 1
  · exact decide_eq_decide.mpr (by omega)
  · congr 1
    · exact decide_eq_decide.mpr (by omega)
    · exact decide_eq_decide.mpr (by omega)

/-- A position may be changed just when the key at it may. -/
theorem isWritable_message (hnodup : (tables.map LookupTable.key).Nodup)
    (hkey : (Plan.of ixs payer tables).all[n]? = some key) :
    ((Plan.of ixs payer tables).message ixs blockhash version).isWritable n =
      (usage ixs payer key).isWritable := by
  rw [isWritable_plan, loadedWritableCount_message, Bool.eq_iff_iff]
  split
  · next hlt =>
    rw [decide_eq_true_eq, lt_writableSigners_iff hnodup hkey]
    exact and_iff_right ((lt_signerCount_iff hnodup hkey).mp hlt)
  · next hnot =>
    rw [lt_signerCount_iff hnodup hkey, Bool.not_eq_true] at hnot
    split
    · next hlt =>
      rw [decide_eq_true_eq, lt_writables_iff hnodup hkey, hnot,
        (lt_listed_iff hnodup hkey).mp hlt]
      simp
    · next hfar =>
      rw [lt_listed_iff hnodup hkey] at hfar
      rw [decide_eq_true_eq, lt_loadedWritable_iff hnodup hkey]
      exact or_iff_right hfar

/-! ## What is asked for -/

theorem mem_mentions : key ∈ mentions ixs payer ↔
    key = payer ∨ ∃ i ∈ ixs, key = i.program ∨ ∃ a ∈ i.accounts, a.key = key := by
  simp only [mentions, List.mem_cons, List.mem_flatMap, List.mem_map]

theorem usage_isSigner : (usage ixs payer key).isSigner = true ↔
    key = payer ∨ ∃ i ∈ ixs, ∃ a ∈ i.accounts, a.key = key ∧ a.isSigner = true := by
  simp only [usage, List.any_filter, List.any_flatMap, Bool.or_eq_true, beq_iff_eq,
    List.any_eq_true, Bool.and_eq_true]

theorem usage_isWritable : (usage ixs payer key).isWritable = true ↔
    key = payer ∨ ∃ i ∈ ixs, ∃ a ∈ i.accounts, a.key = key ∧ a.isWritable = true := by
  simp only [usage, List.any_filter, List.any_flatMap, Bool.or_eq_true, beq_iff_eq,
    List.any_eq_true, Bool.and_eq_true]

/-- The privileges of a key are those of all its mentions together, and the payer has both. -/
theorem foldlM_merge_mentions :
    ((ixs.flatMap (·.accounts)).filter (·.key == key)).foldlM AccountMeta.merge
        ⟨key, key == payer, key == payer⟩ =
      .ok ⟨key, (usage ixs payer key).isSigner, (usage ixs payer key).isWritable⟩ := by
  refine AccountMeta.foldlM_merge _ fun a ha => ?_
  exact beq_iff_eq.mp (List.mem_filter.mp ha).2

/-- **Exactly the requested privileges are granted.** A compiled message resolves to its listed
keys and then loaded ones; these are the payer, the programs and the mentioned accounts, each of
them once. A key signs, or may be changed, if it is the payer or if any mention of it says so: its
privileges are those of its mentions merged to one, with both for the payer. -/
theorem compile_grants_privileges (h : compile ixs payer blockhash tables version = .ok m) :
    ∃ loaded, m.resolve tables = .ok (m.keys ++ loaded) ∧ (m.keys ++ loaded).Nodup ∧
      (∀ key, key ∈ m.keys ++ loaded ↔
        key = payer ∨ ∃ i ∈ ixs, key = i.program ∨ ∃ a ∈ i.accounts, a.key = key) ∧
      ∀ (n : Nat) (key : PublicKey), (m.keys ++ loaded)[n]? = some key →
        (m.isSigner n = true ↔
          key = payer ∨ ∃ i ∈ ixs, ∃ a ∈ i.accounts, a.key = key ∧ a.isSigner = true) ∧
        (m.isWritable n = true ↔
          key = payer ∨ ∃ i ∈ ixs, ∃ a ∈ i.accounts, a.key = key ∧ a.isWritable = true) ∧
        ((ixs.flatMap (·.accounts)).filter (·.key == key)).foldlM AccountMeta.merge
          ⟨key, key == payer, key == payer⟩ = .ok ⟨key, m.isSigner n, m.isWritable n⟩ := by
  obtain ⟨-, -, -, rfl⟩ := compile_eq_ok.mp h
  have htables := LookupTable.nodup_mapping tables
  obtain ⟨loaded, hall⟩ :=
    Plan.listed_prefix_all (Plan.of ixs payer (LookupTable.mapping tables))
  refine ⟨loaded, resolve_message.trans (congrArg Except.ok hall.symm), ?_, fun key => ?_,
    fun n key hkey => ?_⟩
  · exact hall ▸ Plan.nodup_all htables
  · change key ∈ (Plan.of ixs payer (LookupTable.mapping tables)).listed ++ loaded ↔ _
    rw [hall, Plan.mem_all, mem_mentions]
  · have hkey : (Plan.of ixs payer (LookupTable.mapping tables)).all[n]? = some key := hall ▸ hkey
    rw [isSigner_message htables hkey, isWritable_message htables hkey]
    exact ⟨usage_isSigner, usage_isWritable, foldlM_merge_mentions⟩

/-- An account that one instruction wants to sign and another one changes does both, and an
account that is only read, and loaded, does neither. -/
theorem compile_grants_privileges_merging :
    let payer : PublicKey := .zero .publicKey
    let owner : PublicKey := .ofRightmost .publicKey [7]
    let price : PublicKey := .ofRightmost .publicKey [5]
    let table : LookupTable := ⟨.ofRightmost .publicKey [8], [price, owner]⟩
    let ixs : List Instruction := [
      ⟨.ofRightmost .publicKey [9], [.signing (.readonly owner), .readonly price], []⟩,
      ⟨.ofRightmost .publicKey [9], [.writable owner], []⟩]
    let m : Message := ⟨⟨2, 0, 1⟩, [payer, owner, .ofRightmost .publicKey [9]], .zero .hash,
      [⟨2, [1, 3], []⟩, ⟨2, [1], []⟩], [⟨table.key, [], [0]⟩], .v0⟩
    compile ixs payer (.zero .hash) [table] none = .ok m ∧
      ∃ keys, m.resolve [table] = .ok keys ∧ keys.Nodup ∧ ∀ n : Nat,
        (keys[n]? = some owner → m.isSigner n = true ∧ m.isWritable n = true) ∧
        (keys[n]? = some price → m.isSigner n = false ∧ m.isWritable n = false) := by
  intro payer owner price table ixs m
  have hcompile : compile ixs payer (.zero .hash) [table] none = .ok m :=
    compile_eq_ok.mpr ⟨by simp, by decide, ⟨by decide, by decide⟩, by decide⟩
  obtain ⟨loaded, hresolve, hnodup, -, hgrants⟩ := compile_grants_privileges hcompile
  refine ⟨hcompile, _, hresolve, hnodup, fun n => ⟨fun howner => ?_, fun hprice => ?_⟩⟩
  · obtain ⟨hsigner, hwritable, -⟩ := hgrants n owner howner
    exact ⟨hsigner.mpr (by decide), hwritable.mpr (by decide)⟩
  · obtain ⟨hsigner, hwritable, -⟩ := hgrants n price hprice
    exact ⟨Bool.eq_false_iff.mpr (mt hsigner.mp (by decide)),
      Bool.eq_false_iff.mpr (mt hwritable.mp (by decide))⟩

end Message

end LedgerClient
