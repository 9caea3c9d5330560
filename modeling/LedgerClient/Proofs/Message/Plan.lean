import LedgerClient.Message.Compile
import LedgerClient.Proofs.Fault
import LedgerClient.Proofs.Keyed

/-!
# Plans

A plan puts every mentioned key into one of six classes: the listed ones by whether they sign and
may be changed, the loaded ones by whether they may be changed. The classes have no key in common
and none twice, so a key has one position among all keys, and its position tells its class.

## Main definitions

* `Message.loadedFrom?`: the table that a key is loaded from

## Main results

* `Message.pairwise_ascending`: the ascending list of keys is strictly ascending
* `Message.Plan.mem_all`: the keys of a plan are the mentioned ones
* `Message.Plan.nodup_all`: no key is planned twice
* `Message.Plan.lt_length_iff_mem`: a position is in a class just when its key is
-/

namespace LedgerClient

/-! ## Keys in order -/

section Key

variable {kind : KeyKind} {a b c : Key kind}

theorem Key.lt_irrefl (a : Key kind) : ¬a < a :=
  List.lt_irrefl a.bytes

theorem Key.lt_trans (hab : a < b) (hbc : b < c) : a < c :=
  List.lt_trans hab hbc

theorem Key.lt_of_not_lt (h : ¬a < b) (hne : b ≠ a) : b < a := by
  refine Classical.byContradiction fun hnot => hne ?_
  have hbytes : b.bytes = a.bytes := List.le_antisymm (List.not_lt.mp h) (List.not_lt.mp hnot)
  cases a
  cases b
  simp_all

end Key

/-- No key stands twice in a mapping of tables. -/
theorem LookupTable.nodup_mapping (tables : List LookupTable) :
    ((LookupTable.mapping tables).map LookupTable.key).Nodup :=
  Keyed.nodup_putAll List.nodup_nil

/-- In a mapping each table is the one of its key. -/
theorem LookupTable.find?_of_mem {tables : List LookupTable} {t : LookupTable}
    (hnodup : (tables.map LookupTable.key).Nodup) (ht : t ∈ tables) :
    LookupTable.find? tables t.key = some t.addresses := by
  induction tables with
  | nil => cases ht
  | cons u us ih =>
    rw [List.map_cons, List.nodup_cons] at hnodup
    rw [find?, Keyed.find?, List.find?_cons]
    rcases List.mem_cons.mp ht with rfl | ht
    · simp
    · have hne : u.key ≠ t.key := fun heq => hnodup.1 (heq ▸ List.mem_map_of_mem ht)
      rw [decide_eq_false hne]
      exact ih hnodup.2 ht

namespace Message

section Ascending

variable {key k : PublicKey} {ks : List PublicKey}

theorem mem_insertKey : k ∈ insertKey key ks ↔ k = key ∨ k ∈ ks := by
  induction ks with
  | nil => simp [insertKey]
  | cons x xs ih =>
    rw [insertKey]
    split
    · exact List.mem_cons
    · split
      · next heq => simp [heq]
      · rw [List.mem_cons, List.mem_cons, ih]
        exact or_left_comm

theorem pairwise_insertKey (h : ks.Pairwise (· < ·)) : (insertKey key ks).Pairwise (· < ·) := by
  induction ks with
  | nil => exact List.pairwise_singleton _ _
  | cons x xs ih =>
    obtain ⟨hx, hxs⟩ := List.pairwise_cons.mp h
    rw [insertKey]
    split
    · next hlt =>
      refine List.pairwise_cons.mpr ⟨fun y hy => ?_, h⟩
      rcases List.mem_cons.mp hy with rfl | hy
      · exact hlt
      · exact Key.lt_trans hlt (hx y hy)
    · next hnot =>
      split
      · exact h
      · next hne =>
        refine List.pairwise_cons.mpr ⟨fun y hy => ?_, ih hxs⟩
        rcases mem_insertKey.mp hy with rfl | hy
        · exact Key.lt_of_not_lt hnot hne
        · exact hx y hy

theorem mem_ascending : k ∈ ascending ks ↔ k ∈ ks := by
  induction ks with
  | nil => exact Iff.rfl
  | cons x xs ih =>
    rw [ascending, List.foldr_cons, mem_insertKey, List.mem_cons]
    exact or_congr_right ih

theorem pairwise_ascending (ks : List PublicKey) : (ascending ks).Pairwise (· < ·) := by
  induction ks with
  | nil => exact List.Pairwise.nil
  | cons x xs ih => exact pairwise_insertKey ih

theorem nodup_ascending (ks : List PublicKey) : (ascending ks).Nodup := by
  refine (pairwise_ascending ks).imp fun {a b} hlt heq => ?_
  rw [heq] at hlt
  exact Key.lt_irrefl b hlt

end Ascending

/-! ## Homes

The home of a key is the first table that holds it among the addresses that a byte can index. -/

section Homes

variable {tables : List LookupTable} {t : LookupTable} {key home : PublicKey} {i : Nat}

/-- The index of a key in a table is one at which the table holds it. -/
theorem getElem?_of_tableIndex? (h : tableIndex? t key = some i) :
    t.addresses[i]? = some key := by
  obtain ⟨hlt, heq, -⟩ := List.findIdx?_eq_some_iff_getElem.mp h
  rw [List.getElem_take, beq_iff_eq] at heq
  rw [List.length_take] at hlt
  rw [List.getElem?_eq_getElem (by omega), heq]

/-- A key is at home in a table that can load it. -/
theorem exists_of_home? (h : home? tables key = some home) :
    ∃ t ∈ tables, t.key = home ∧ ∃ i, tableIndex? t key = some i := by
  obtain ⟨t, hfind, rfl⟩ := Option.map_eq_some_iff.mp h
  have hsome : (tableIndex? t key).isSome :=
    List.find?_some (p := fun t => (tableIndex? t key).isSome) hfind
  exact ⟨t, List.mem_of_find?_eq_some hfind, rfl, Option.isSome_iff_exists.mp hsome⟩

end Homes

/-- The table that a key is loaded from, unless it is listed. -/
def loadedFrom? (ixs : List Instruction) (payer : PublicKey) (tables : List LookupTable)
    (key : PublicKey) : Option PublicKey :=
  if (usage ixs payer key).isSigner || (usage ixs payer key).isProgram then none
  else home? tables key

/-- The mentioned keys in order, the payer left out. -/
def others (ixs : List Instruction) (payer : PublicKey) : List PublicKey :=
  (ascending (mentions ixs payer)).filter (· != payer)

/-- The keys that are loaded from a table, either writable or read-only. -/
def loadedKeys (ixs : List Instruction) (payer : PublicKey) (tables : List LookupTable)
    (writable : Bool) (t : LookupTable) : List PublicKey :=
  ((others ixs payer).filter fun key => loadedFrom? ixs payer tables key == some t.key).filter
    fun key => (usage ixs payer key).isWritable == writable

namespace Plan

/-! ## The classes of a plan

Membership in a class is a condition on the mentions of a key alone: whether one of them signs or
changes it, and whether it has a home. The payer signs and is changed by its usage, so it needs no
condition of its own, although the plan puts it first and leaves it out of the other classes. -/

section Classes

variable {ixs : List Instruction} {payer : PublicKey} {tables : List LookupTable}
  {key home : PublicKey} {t : LookupTable} {writable : Bool}

theorem usage_payer :
    (usage ixs payer payer).isSigner = true ∧ (usage ixs payer payer).isWritable = true := by
  simp [usage]

theorem not_isSigner_of_loadedFrom? (h : loadedFrom? ixs payer tables key = some home) :
    (usage ixs payer key).isSigner = false := by
  unfold loadedFrom? at h
  split at h
  · cases h
  · next hnot => simp_all

theorem loadedFrom?_of_isSigner (h : (usage ixs payer key).isSigner = true) :
    loadedFrom? ixs payer tables key = none := by
  rw [loadedFrom?, h, Bool.true_or, if_pos rfl]

theorem home?_of_loadedFrom? (h : loadedFrom? ixs payer tables key = some home) :
    home? tables key = some home := by
  unfold loadedFrom? at h
  split at h
  · cases h
  · exact h

theorem exists_of_loadedFrom? (h : loadedFrom? ixs payer tables key = some home) :
    ∃ t ∈ tables, t.key = home ∧ ∃ i, tableIndex? t key = some i :=
  exists_of_home? (home?_of_loadedFrom? h)

theorem mem_others : key ∈ others ixs payer ↔ key ∈ mentions ixs payer ∧ key ≠ payer := by
  rw [others, List.mem_filter, mem_ascending, bne_iff_ne]

theorem nodup_others : (others ixs payer).Nodup :=
  (nodup_ascending _).sublist List.filter_sublist

theorem nodup_filter_others (p q : PublicKey → Bool) :
    (((others ixs payer).filter p).filter q).Nodup :=
  nodup_others.sublist (List.filter_sublist.trans List.filter_sublist)

theorem mem_writableSigners : key ∈ (Plan.of ixs payer tables).writableSigners ↔
    key ∈ mentions ixs payer ∧ (usage ixs payer key).isSigner = true ∧
      (usage ixs payer key).isWritable = true := by
  change key ∈ payer :: ((others ixs payer).filter _).filter _ ↔ _
  rw [List.mem_cons, List.mem_filter, List.mem_filter, mem_others]
  constructor
  · rintro (rfl | ⟨⟨⟨hmention, -⟩, hsigner⟩, hwritable⟩)
    · exact ⟨List.mem_cons_self, usage_payer⟩
    · exact ⟨hmention, hsigner, hwritable⟩
  · rintro ⟨hmention, hsigner, hwritable⟩
    by_cases heq : key = payer
    · exact .inl heq
    · exact .inr ⟨⟨⟨hmention, heq⟩, hsigner⟩, hwritable⟩

theorem mem_others_of_not_forced (h : (usage ixs payer key).isSigner = false ∨
    (usage ixs payer key).isWritable = false) :
    key ∈ others ixs payer ↔ key ∈ mentions ixs payer := by
  rw [mem_others, and_iff_left]
  rintro rfl
  rcases h with h | h
  · exact Bool.false_ne_true (h.symm.trans usage_payer.1)
  · exact Bool.false_ne_true (h.symm.trans usage_payer.2)

theorem mem_readonlySigners : key ∈ (Plan.of ixs payer tables).readonlySigners ↔
    key ∈ mentions ixs payer ∧ (usage ixs payer key).isSigner = true ∧
      (usage ixs payer key).isWritable = false := by
  change key ∈ ((others ixs payer).filter _).filter _ ↔ _
  rw [List.mem_filter, List.mem_filter, Bool.not_eq_true', and_assoc]
  exact and_congr_left fun h => mem_others_of_not_forced (.inr h.2)

/-- The signers are listed first. -/
theorem mem_signers : key ∈ (Plan.of ixs payer tables).writableSigners ++
      (Plan.of ixs payer tables).readonlySigners ↔
    key ∈ mentions ixs payer ∧ (usage ixs payer key).isSigner = true := by
  rw [List.mem_append, mem_writableSigners, mem_readonlySigners, ← and_or_left, ← and_or_left]
  cases (usage ixs payer key).isWritable <;> simp

/-- The keys that are listed and do not sign. -/
theorem mem_listed_others : key ∈ (others ixs payer).filter (fun key =>
      !(usage ixs payer key).isSigner && (loadedFrom? ixs payer tables key).isNone) ↔
    key ∈ mentions ixs payer ∧ (usage ixs payer key).isSigner = false ∧
      loadedFrom? ixs payer tables key = none := by
  rw [List.mem_filter, Bool.and_eq_true, Bool.not_eq_true', Option.isNone_iff_eq_none]
  exact and_congr_left fun h => mem_others_of_not_forced (.inl h.1)

theorem mem_writables : key ∈ (Plan.of ixs payer tables).writables ↔
    key ∈ mentions ixs payer ∧ (usage ixs payer key).isSigner = false ∧
      loadedFrom? ixs payer tables key = none ∧ (usage ixs payer key).isWritable = true := by
  refine (List.mem_filter.trans (and_congr_left fun _ => mem_listed_others)).trans ?_
  rw [and_assoc, and_assoc]

theorem mem_readonlys : key ∈ (Plan.of ixs payer tables).readonlys ↔
    key ∈ mentions ixs payer ∧ (usage ixs payer key).isSigner = false ∧
      loadedFrom? ixs payer tables key = none ∧ (usage ixs payer key).isWritable = false := by
  refine (List.mem_filter.trans (and_congr_left fun _ => mem_listed_others)).trans ?_
  rw [Bool.not_eq_true', and_assoc, and_assoc]

theorem mem_loadedKeys : key ∈ loadedKeys ixs payer tables writable t ↔
    key ∈ mentions ixs payer ∧ loadedFrom? ixs payer tables key = some t.key ∧
      (usage ixs payer key).isWritable = writable := by
  rw [loadedKeys, List.mem_filter, List.mem_filter, beq_iff_eq, beq_iff_eq, and_assoc]
  exact and_congr_left fun h => mem_others_of_not_forced (.inl (not_isSigner_of_loadedFrom? h.1))

theorem loadedWritable_eq : (Plan.of ixs payer tables).loadedWritable =
    tables.map fun t => (t, loadedKeys ixs payer tables true t) := by
  simp only [loadedKeys, beq_true]
  rfl

theorem loadedReadonly_eq : (Plan.of ixs payer tables).loadedReadonly =
    tables.map fun t => (t, loadedKeys ixs payer tables false t) := by
  simp only [loadedKeys, beq_false]
  rfl

theorem all_eq : (Plan.of ixs payer tables).all = (Plan.of ixs payer tables).listed ++
    tables.flatMap (loadedKeys ixs payer tables true) ++
      tables.flatMap (loadedKeys ixs payer tables false) := by
  rw [all, loadedWritable_eq, loadedReadonly_eq, List.flatMap_map, List.flatMap_map]

/-- A key is loaded if it has a home to be loaded from. -/
theorem mem_flatMap_loadedKeys : key ∈ tables.flatMap (loadedKeys ixs payer tables writable) ↔
    key ∈ mentions ixs payer ∧ loadedFrom? ixs payer tables key ≠ none ∧
      (usage ixs payer key).isWritable = writable := by
  simp only [List.mem_flatMap, mem_loadedKeys, Option.ne_none_iff_exists']
  constructor
  · rintro ⟨t, -, hmention, hfrom, hwritable⟩
    exact ⟨hmention, ⟨t.key, hfrom⟩, hwritable⟩
  · rintro ⟨hmention, ⟨home, hfrom⟩, hwritable⟩
    obtain ⟨t, ht, rfl, -⟩ := exists_of_loadedFrom? hfrom
    exact ⟨t, ht, hmention, hfrom, hwritable⟩

theorem nodup_flatMap_loadedKeys (hnodup : (tables.map LookupTable.key).Nodup) :
    (tables.flatMap (loadedKeys ixs payer tables writable)).Nodup := by
  refine List.pairwise_flatMap.mpr ⟨fun t _ => ?_, ?_⟩
  · exact nodup_filter_others _ _
  · -- A key has one home, so tables of different keys load different keys.
    refine (List.pairwise_map.mp hnodup).imp fun {t u} hne x hx y hy heq => hne ?_
    have hxt := (mem_loadedKeys.mp hx).2.1
    have hyu := (mem_loadedKeys.mp hy).2.1
    rw [heq, hyu] at hxt
    exact (Option.some.inj hxt).symm

end Classes

/-! ## All keys of a plan

Of two neighbouring classes, or parts, one flag tells the keys apart, so nothing stands in both. -/

section All

variable {ixs : List Instruction} {payer : PublicKey} {tables : List LookupTable}
  {key : PublicKey}

/-- A key is listed just when it is loaded from no table. -/
theorem mem_listed : key ∈ (Plan.of ixs payer tables).listed ↔
    key ∈ mentions ixs payer ∧ loadedFrom? ixs payer tables key = none := by
  rw [listed, List.mem_append, List.mem_append, mem_signers, mem_writables, mem_readonlys]
  constructor
  · rintro ((h | h) | h)
    · exact ⟨h.1, loadedFrom?_of_isSigner h.2⟩
    · exact ⟨h.1, h.2.2.1⟩
    · exact ⟨h.1, h.2.2.1⟩
  · rintro ⟨hmention, hnone⟩
    cases hsigner : (usage ixs payer key).isSigner with
    | true => exact .inl (.inl ⟨hmention, rfl⟩)
    | false =>
      cases hwritable : (usage ixs payer key).isWritable with
      | true => exact .inl (.inr ⟨hmention, rfl, hnone, rfl⟩)
      | false => exact .inr ⟨hmention, rfl, hnone, rfl⟩

/-- **The keys of a plan** are the mentioned ones. -/
theorem mem_all : key ∈ (Plan.of ixs payer tables).all ↔ key ∈ mentions ixs payer := by
  rw [all_eq, List.mem_append, List.mem_append, mem_listed, mem_flatMap_loadedKeys,
    mem_flatMap_loadedKeys]
  constructor
  · rintro ((h | h) | h)
    · exact h.1
    · exact h.1
    · exact h.1
  · intro hmention
    by_cases hnone : loadedFrom? ixs payer tables key = none
    · exact .inl (.inl ⟨hmention, hnone⟩)
    · cases hwritable : (usage ixs payer key).isWritable with
      | true => exact .inl (.inr ⟨hmention, hnone, rfl⟩)
      | false => exact .inr ⟨hmention, hnone, rfl⟩

/-- Lists whose members differ in a flag have no member in common. -/
theorem nodup_append_of_flag {xs ys : List PublicKey} (flag : PublicKey → Bool) (hxs : xs.Nodup)
    (hys : ys.Nodup) (hx : ∀ k ∈ xs, flag k = true) (hy : ∀ k ∈ ys, flag k = false) :
    (xs ++ ys).Nodup := by
  refine List.nodup_append.mpr ⟨hxs, hys, fun a ha b hb heq => ?_⟩
  rw [heq] at ha
  exact Bool.false_ne_true ((hy b hb).symm.trans (hx b ha))

theorem nodup_writableSigners : (Plan.of ixs payer tables).writableSigners.Nodup := by
  refine List.nodup_cons.mpr ⟨fun hmem => ?_, ?_⟩
  · exact (mem_others.mp (List.mem_filter.mp (List.mem_filter.mp hmem).1).1).2 rfl
  · exact nodup_filter_others _ _

theorem nodup_signers : ((Plan.of ixs payer tables).writableSigners ++
    (Plan.of ixs payer tables).readonlySigners).Nodup :=
  nodup_append_of_flag (fun k => (usage ixs payer k).isWritable) nodup_writableSigners
    (nodup_filter_others _ _)
    (fun _ hk => (mem_writableSigners.mp hk).2.2) fun _ hk => (mem_readonlySigners.mp hk).2.2

theorem nodup_listed : (Plan.of ixs payer tables).listed.Nodup := by
  have hwritables : (Plan.of ixs payer tables).writables.Nodup := nodup_filter_others _ _
  have hreadonlys : (Plan.of ixs payer tables).readonlys.Nodup := nodup_filter_others _ _
  refine nodup_append_of_flag
    (fun k => (usage ixs payer k).isSigner || (usage ixs payer k).isWritable) ?_ hreadonlys
    (List.forall_mem_append.mpr ⟨fun k hk => ?_, fun k hk => ?_⟩) fun k hk => ?_
  · exact nodup_append_of_flag (fun k => (usage ixs payer k).isSigner) nodup_signers hwritables
      (fun k hk => (mem_signers.mp hk).2) fun k hk => (mem_writables.mp hk).2.1
  · rw [(mem_signers.mp hk).2, Bool.true_or]
  · rw [(mem_writables.mp hk).2.2.2, Bool.or_true]
  · rw [(mem_readonlys.mp hk).2.1, (mem_readonlys.mp hk).2.2.2, Bool.or_false]

/-- **No key is planned twice.** -/
theorem nodup_all (hnodup : (tables.map LookupTable.key).Nodup) :
    (Plan.of ixs payer tables).all.Nodup := by
  have hlisted : ∀ k ∈ (Plan.of ixs payer tables).listed,
      (loadedFrom? ixs payer tables k).isNone = true := fun k hk =>
    Option.isNone_iff_eq_none.mpr (mem_listed.mp hk).2
  have hloaded : ∀ {writable : Bool} k, k ∈ tables.flatMap (loadedKeys ixs payer tables writable) →
      (loadedFrom? ixs payer tables k).isNone = false := by
    intro writable k hk
    have hhome := (mem_flatMap_loadedKeys.mp hk).2.1
    exact Option.isNone_eq_false_iff.mpr (Option.isSome_iff_ne_none.mpr hhome)
  rw [all_eq]
  -- Loaded keys have a home and listed keys have none; of the loaded ones the writable come first.
  refine nodup_append_of_flag
    (fun k => (loadedFrom? ixs payer tables k).isNone || (usage ixs payer k).isWritable) ?_
    (nodup_flatMap_loadedKeys hnodup)
    (List.forall_mem_append.mpr ⟨fun k hk => ?_, fun k hk => ?_⟩) fun k hk => ?_
  · exact nodup_append_of_flag (fun k => (loadedFrom? ixs payer tables k).isNone) nodup_listed
      (nodup_flatMap_loadedKeys hnodup) hlisted hloaded
  · rw [hlisted k hk, Bool.true_or]
  · rw [(mem_flatMap_loadedKeys.mp hk).2.2, Bool.or_true]
  · rw [hloaded k hk, (mem_flatMap_loadedKeys.mp hk).2.2, Bool.or_false]

theorem signerCount_eq (p : Plan) :
    p.signerCount = p.writableSigners.length + p.readonlySigners.length := rfl

/-- The payer is a writable signer. -/
theorem one_le_length_writableSigners :
    1 ≤ (Plan.of ixs payer tables).writableSigners.length :=
  Nat.succ_le_succ (Nat.zero_le _)

theorem length_listed (p : Plan) :
    p.listed.length = p.signerCount + p.writables.length + p.readonlys.length := by
  rw [listed, List.length_append, List.length_append, List.length_append, signerCount]

theorem listed_prefix_all (p : Plan) : p.listed <+: p.all := by
  rw [all, List.append_assoc]
  exact List.prefix_append _ _

/-- **A position is in a class** just when its key is: among different keys, a position lies in
a first part of the list just when the key at this position is in this part. -/
theorem lt_length_iff_mem {part keys : List PublicKey} {n : Nat} (hnodup : keys.Nodup)
    (hpart : part <+: keys) (hkey : keys[n]? = some key) : n < part.length ↔ key ∈ part := by
  obtain ⟨rest, rfl⟩ := hpart
  constructor
  · intro hlt
    rw [List.getElem?_append_left hlt] at hkey
    exact List.mem_of_getElem? hkey
  · intro hmem
    refine Nat.lt_of_not_le fun hle => ?_
    rw [List.getElem?_append_right hle] at hkey
    exact (List.nodup_append.mp hnodup).2.2 key hmem key (List.mem_of_getElem? hkey) rfl

end All

end Plan

end Message

end LedgerClient
