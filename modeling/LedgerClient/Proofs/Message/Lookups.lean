import LedgerClient.Proofs.Message.Request

/-!
# What a compiled message loads

A compiled message loads an account just when it can and need not list it: the account neither
pays nor signs, no instruction calls it, and a table holds it among the addresses that a byte can
index. It is then loaded once, from the first such table and by its first index there, as a
writable or as a read-only account, whichever is asked for. Tables that nothing is loaded from
leave no trace in the message.

## Main definitions

* `Message.loads`: what a message loads, one load for each account
* `Message.Load.key?`: the key that is loaded, given the tables
* `Message.Loads`: a message loads an account
* `LookupTable.FirstHolds`: the first table that can load a key

## Main results

* `Message.mem_lookups`: a compiled message has a lookup for each table that is loaded from
* `Message.map_key?_loads`: a compiled message loads the loaded keys of its plan
* `Message.compile_loads_exactly`: exactly the right accounts are loaded, each from its place
-/

namespace LedgerClient

/-- A mapping of tables has their keys, in the order in which they first come. -/
theorem LookupTable.map_key_mapping (tables : List LookupTable) :
    (LookupTable.mapping tables).map LookupTable.key = (tables.map LookupTable.key).eraseDups := by
  rw [mapping, Keyed.map_putAll, List.map_nil, List.nil_append, List.removeAll_nil]

/-- A mapping of tables has the last table of each key. -/
theorem LookupTable.mem_mapping {tables : List LookupTable} {t : LookupTable} :
    t ∈ LookupTable.mapping tables ↔
      ∃ before after, tables = before ++ t :: after ∧ ∀ u ∈ after, u.key ≠ t.key := by
  have hnil : (([] : List LookupTable).map LookupTable.key).Nodup := List.nodup_nil
  rw [mapping, Keyed.mem_putAll hnil]
  exact or_iff_left fun h => nomatch h.1

/-- A table is the first one that holds a key where a message can load it. -/
def LookupTable.FirstHolds (tables : List LookupTable) (t : LookupTable) (key : PublicKey) : Prop :=
  ∃ before after, tables = before ++ t :: after ∧ key ∈ t.addresses.take 256 ∧
    ∀ u ∈ before, key ∉ u.addresses.take 256

section FirstHolds

variable {tables : List LookupTable} {t : LookupTable} {key : PublicKey}

theorem LookupTable.FirstHolds.mem (h : LookupTable.FirstHolds tables t key) : t ∈ tables := by
  obtain ⟨before, after, rfl, -⟩ := h
  exact List.mem_append_right before List.mem_cons_self

theorem LookupTable.FirstHolds.mem_take (h : LookupTable.FirstHolds tables t key) :
    key ∈ t.addresses.take 256 := by
  obtain ⟨before, after, -, hmem, -⟩ := h
  exact hmem

end FirstHolds

namespace Message

/-- An account that a message loads: an index into a table, writable or read-only. -/
structure Load where
  /-- The key of the table. -/
  table : PublicKey
  /-- The index in the table. -/
  index : Int
  /-- The account may be changed. -/
  writable : Bool
  deriving DecidableEq

/-- The key that is loaded, given the tables. -/
def Load.key? (tables : List LookupTable) (load : Load) : Option PublicKey :=
  (LookupTable.find? tables load.table).bind fun addresses => Sequence.at? addresses load.index

/-- What a message loads, in the order of the positions. -/
def loads (m : Message) : List Load :=
  (m.lookups.flatMap fun l => l.writable.map fun i => ⟨l.table, i, true⟩) ++
    m.lookups.flatMap fun l => l.readonly.map fun i => ⟨l.table, i, false⟩

/-- A message loads an account from the tables. -/
def Loads (m : Message) (tables : List LookupTable) (key : PublicKey) : Prop :=
  ∃ load ∈ m.loads, load.key? tables = some key

variable {ixs : List Instruction} {payer key : PublicKey} {blockhash : Hash}
  {tables : List LookupTable} {version : Option Version} {m : Message} {t : LookupTable}
  {writable : Bool} {i : Nat}

/-! ## Homes

A key is loaded from its home, the first table that holds it among the addresses that a byte can
index, and by its first index there, which is its first index in the whole table. -/

section Homes

/-- A key can be loaded by its first index in a table if that is a byte. -/
theorem tableIndex?_eq_some :
    tableIndex? t key = some i ↔ t.indexOf? key = some i ∧ i < 256 := by
  rw [tableIndex?, LookupTable.indexOf?, List.findIdx?_take, Option.bind_eq_some_iff]
  simp only [Option.guard_eq_some_iff, maxTableIndexes]
  constructor
  · rintro ⟨j, hj, rfl, hlt⟩
    exact ⟨hj, of_decide_eq_true hlt⟩
  · rintro ⟨hi, hlt⟩
    exact ⟨i, hi, rfl, decide_eq_true hlt⟩

theorem isSome_tableIndex? : (tableIndex? t key).isSome = true ↔ key ∈ t.addresses.take 256 := by
  simp only [tableIndex?, List.findIdx?_isSome, List.any_eq_true, beq_iff_eq, exists_eq_right,
    maxTableIndexes]

theorem home?_ne_none : home? tables key ≠ none ↔ ∃ t ∈ tables, key ∈ t.addresses.take 256 := by
  rw [home?, Option.ne_none_iff_isSome, Option.isSome_map, List.find?_isSome]
  simp only [isSome_tableIndex?]

/-- The home of a key is the first table that holds it where a message can load it. -/
theorem exists_firstHolds {home : PublicKey} (h : home? tables key = some home) :
    ∃ t, t.key = home ∧ LookupTable.FirstHolds tables t key := by
  obtain ⟨t, hfind, rfl⟩ := Option.map_eq_some_iff.mp h
  obtain ⟨hsome, before, after, htables, hbefore⟩ := List.find?_eq_some_iff_append.mp hfind
  refine ⟨t, rfl, before, after, htables, isSome_tableIndex?.mp hsome, fun u hu hmem => ?_⟩
  have hnone := hbefore u hu
  rw [isSome_tableIndex?.mpr hmem] at hnone
  cases hnone

/-- A key is loaded if it neither pays nor signs nor is called and some table can load it. -/
theorem loadedFrom?_ne_none : loadedFrom? ixs payer tables key ≠ none ↔
    key ≠ payer ∧ ¬WantsSigner ixs key ∧ ¬Calls ixs key ∧
      ∃ t ∈ tables, key ∈ t.addresses.take 256 := by
  rw [loadedFrom?]
  split
  · next h =>
    rw [Bool.or_eq_true, usage_isSigner, usage_isProgram] at h
    refine iff_of_false (fun hne => hne rfl) fun hother => ?_
    obtain ⟨hpayer, hsigner, hcall, -⟩ := hother
    rcases h with (h | h) | h
    · exact hpayer h
    · exact hsigner h
    · exact hcall h
  · next h =>
    rw [Bool.or_eq_true, usage_isSigner, usage_isProgram, not_or, not_or] at h
    rw [home?_ne_none, ← and_assoc, ← and_assoc]
    exact (and_iff_right ⟨h.1, h.2⟩).symm

end Homes

/-! ## The lookups of a compiled message -/

section Lookups

variable {l : Lookup} {ls : List Lookup}

theorem mem_indexes_bounds {t : LookupTable} {keys : List PublicKey} :
    ∀ n ∈ Plan.indexes t keys, 0 ≤ n ∧ n < 256 := by
  intro n hn
  obtain ⟨key, -, rfl⟩ := List.mem_map.mp hn
  refine ⟨Int.natCast_nonneg _, ?_⟩
  cases hindex : tableIndex? t key with
  | none => decide
  | some i => exact Int.ofNat_lt.mpr (tableIndex?_eq_some.mp hindex).2

/-- A lookup is that of a table that something is loaded from. -/
theorem mem_lookups : l ∈ (Plan.of ixs payer tables).lookups ↔
    ∃ t ∈ tables, (loadedKeys ixs payer tables true t ≠ [] ∨
        loadedKeys ixs payer tables false t ≠ []) ∧
      l = ⟨t.key, Plan.indexes t (loadedKeys ixs payer tables true t),
        Plan.indexes t (loadedKeys ixs payer tables false t)⟩ := by
  rw [lookups_eq, List.mem_filterMap]
  refine exists_congr fun t => and_congr_right fun _ => ?_
  rw [lookupFrom?]
  split
  · next hempty =>
    rw [Bool.and_eq_true, List.isEmpty_iff, List.isEmpty_iff] at hempty
    simp [hempty]
  · next hloaded =>
    rw [Bool.and_eq_true, List.isEmpty_iff, List.isEmpty_iff,
      Classical.not_and_iff_not_or_not] at hloaded
    rw [and_iff_right hloaded, Option.some.injEq, eq_comm]

theorem indexes_bounds (hl : l ∈ (Plan.of ixs payer tables).lookups) :
    ∀ n ∈ l.indexes, 0 ≤ n ∧ n < 256 := by
  obtain ⟨t, -, -, rfl⟩ := mem_lookups.mp hl
  exact List.forall_mem_append.mpr ⟨mem_indexes_bounds, mem_indexes_bounds⟩

/-- No lookup loads more accounts than all lookups. -/
theorem length_indexes_le (hl : l ∈ ls) :
    l.indexes.length ≤ (ls.flatMap Lookup.indexes).length := by
  obtain ⟨xs, ys, rfl⟩ := List.append_of_mem hl
  simp only [List.flatMap_append, List.flatMap_cons, List.length_append]
  omega

/-- There are at most as many lookups as loaded accounts if each loads an account. -/
theorem length_le_of_indexes (h : ∀ l ∈ ls, 1 ≤ l.indexes.length) :
    ls.length ≤ (ls.flatMap Lookup.indexes).length := by
  induction ls with
  | nil => exact Nat.le_refl 0
  | cons l ls ih =>
    obtain ⟨hl, hls⟩ := List.forall_mem_cons.mp h
    have hle := ih hls
    rw [List.flatMap_cons, List.length_append, List.length_cons]
    omega

theorem one_le_length_indexes (hl : l ∈ (Plan.of ixs payer tables).lookups) :
    1 ≤ l.indexes.length := by
  obtain ⟨t, -, hloaded, rfl⟩ := mem_lookups.mp hl
  rw [Lookup.indexes, List.length_append, Plan.indexes, Plan.indexes, List.length_map,
    List.length_map]
  rcases hloaded with h | h
  · have := List.length_pos_iff.mpr h
    omega
  · have := List.length_pos_iff.mpr h
    omega

/-- All keys of a plan are listed or loaded. -/
theorem length_all : (Plan.of ixs payer tables).all.length =
    (Plan.of ixs payer tables).listed.length +
      ((Plan.of ixs payer tables).lookups.flatMap Lookup.indexes).length := by
  rw [lookups_eq, (length_lookups tables).2, Plan.all_eq, List.length_append, List.length_append,
    Nat.add_assoc]

end Lookups

/-! ## Loads

The lookups of a compiled message are made table by table from the keys of the plan, so its loads
are those keys at their indexes, and every load stands for the key that it was made from. -/

section Loads

/-- The load of a key from a table. -/
def Load.of (t : LookupTable) (writable : Bool) (key : PublicKey) : Load :=
  ⟨t.key, (((tableIndex? t key).getD 0 : Nat) : Int), writable⟩

theorem loads_message : ((Plan.of ixs payer tables).message ixs blockhash version).loads =
    (tables.flatMap fun t => (loadedKeys ixs payer tables true t).map (Load.of t true)) ++
      tables.flatMap fun t => (loadedKeys ixs payer tables false t).map (Load.of t false) := by
  rw [loads, Plan.lookups_message, lookups_eq, flatMap_lookups fun _ => rfl,
    flatMap_lookups fun _ => rfl]
  simp only [Plan.indexes, List.map_map]
  rfl

theorem key?_of (hnodup : (tables.map LookupTable.key).Nodup) (ht : t ∈ tables)
    (hkey : key ∈ loadedKeys ixs payer tables writable t) :
    (Load.of t writable key).key? tables = some key := by
  obtain ⟨i, hi⟩ := exists_tableIndex? hnodup ht hkey
  rw [Load.key?, Load.of, LookupTable.find?_of_mem hnodup ht, Option.bind_some, hi,
    Option.getD_some, Sequence.at?_natCast, getElem?_of_tableIndex? hi]

/-- What is loaded from some tables, by keys. -/
theorem map_key?_of (hnodup : (tables.map LookupTable.key).Nodup) (writable : Bool) :
    (tables.flatMap fun t => (loadedKeys ixs payer tables writable t).map
        (Load.of t writable)).map (Load.key? tables) =
      (tables.flatMap (loadedKeys ixs payer tables writable)).map some := by
  rw [List.map_flatMap, List.map_flatMap, List.flatMap_def, List.flatMap_def]
  -- The loads of each table stand for its loaded keys, one for one.
  refine congrArg List.flatten (List.map_congr_left fun t ht => ?_)
  rw [List.map_map]
  exact List.map_congr_left fun key hkey => key?_of hnodup ht hkey

/-- **A compiled message loads the loaded keys of its plan**, in their order. -/
theorem map_key?_loads (hnodup : (tables.map LookupTable.key).Nodup) :
    ((Plan.of ixs payer tables).message ixs blockhash version).loads.map (Load.key? tables) =
      (tables.flatMap (loadedKeys ixs payer tables true) ++
        tables.flatMap (loadedKeys ixs payer tables false)).map some := by
  rw [loads_message, List.map_append, map_key?_of hnodup, map_key?_of hnodup, List.map_append]

/-- Every load stands for a key. -/
theorem exists_key?_loads (hnodup : (tables.map LookupTable.key).Nodup) {load : Load}
    (h : load ∈ ((Plan.of ixs payer tables).message ixs blockhash version).loads) :
    ∃ key, load.key? tables = some key := by
  have hmem := List.mem_map_of_mem (f := Load.key? tables) h
  rw [map_key?_loads hnodup] at hmem
  obtain ⟨key, -, hkey⟩ := List.mem_map.mp hmem
  exact ⟨key, hkey.symm⟩

theorem nodup_map_key?_loads (hnodup : (tables.map LookupTable.key).Nodup) :
    (((Plan.of ixs payer tables).message ixs blockhash version).loads.map
      (Load.key? tables)).Nodup := by
  rw [map_key?_loads hnodup]
  have hall : (Plan.of ixs payer tables).all.Nodup := Plan.nodup_all hnodup
  rw [Plan.all_eq, List.append_assoc] at hall
  exact List.Pairwise.map some (fun a b hne heq => hne (Option.some.inj heq))
    (List.nodup_append.mp hall).2.1

/-- A compiled message loads a key just when its plan has a table to load it from. -/
theorem loads_iff (hnodup : (tables.map LookupTable.key).Nodup) :
    ((Plan.of ixs payer tables).message ixs blockhash version).Loads tables key ↔
      key ∈ mentions ixs payer ∧ loadedFrom? ixs payer tables key ≠ none := by
  rw [Loads, ← List.mem_map, map_key?_loads hnodup, List.mem_map]
  simp only [Option.some.injEq, exists_eq_right]
  rw [List.mem_append, Plan.mem_flatMap_loadedKeys, Plan.mem_flatMap_loadedKeys, ← and_or_left,
    ← and_or_left]
  -- Whether the key may be changed decides where it is loaded, not whether.
  cases (usage ixs payer key).isWritable <;> simp

/-- In a list without two members of one image, a member is the only one of its image. -/
theorem filter_eq_singleton {α β : Type} [DecidableEq β] {f : α → β} {x : α} {xs : List α}
    (hnodup : (xs.map f).Nodup) (hx : x ∈ xs) : (xs.filter fun y => f y = f x) = [x] := by
  induction xs with
  | nil => cases hx
  | cons y ys ih =>
    obtain ⟨hy, hys⟩ := List.nodup_cons.mp (List.map_cons ▸ hnodup)
    rcases List.mem_cons.mp hx with rfl | hx
    · rw [List.filter_cons, if_pos (decide_eq_true rfl), List.filter_eq_nil_iff.mpr]
      intro z hz heq
      exact hy (of_decide_eq_true heq ▸ List.mem_map_of_mem hz)
    · have hne : ¬decide (f y = f x) = true := fun heq =>
        hy (of_decide_eq_true heq ▸ List.mem_map_of_mem hx)
      rw [List.filter_cons, if_neg hne, ih hys hx]

theorem mem_loads_of (ht : t ∈ tables) (hkey : key ∈ loadedKeys ixs payer tables writable t) :
    Load.of t writable key ∈ ((Plan.of ixs payer tables).message ixs blockhash version).loads := by
  have hmem : Load.of t writable key ∈ tables.flatMap fun t =>
      (loadedKeys ixs payer tables writable t).map (Load.of t writable) :=
    List.mem_flatMap.mpr ⟨t, ht, List.mem_map_of_mem hkey⟩
  rw [loads_message, List.mem_append]
  cases writable with
  | true => exact .inl hmem
  | false => exact .inr hmem

/-- **A key is loaded once**, by one load from the table of its class. -/
theorem filter_loads_message (hnodup : (tables.map LookupTable.key).Nodup) (ht : t ∈ tables)
    (hkey : key ∈ loadedKeys ixs payer tables writable t) :
    (((Plan.of ixs payer tables).message ixs blockhash version).loads.filter fun load =>
      load.key? tables = some key) = [Load.of t writable key] := by
  rw [← key?_of hnodup ht hkey]
  exact filter_eq_singleton (nodup_map_key?_loads hnodup) (mem_loads_of ht hkey)

/-- The lookups of some tables are in the order of the tables. -/
theorem map_table_lookups_sublist (ts : List LookupTable) :
    ((ts.filterMap (lookupFrom? ixs payer tables)).map Lookup.table).Sublist
      (ts.map LookupTable.key) := by
  induction ts with
  | nil => exact .refl _
  | cons t ts ih =>
    rw [List.filterMap_cons, lookupFrom?, List.map_cons]
    by_cases hempty : (loadedKeys ixs payer tables true t).isEmpty &&
        (loadedKeys ixs payer tables false t).isEmpty
    · rw [if_pos hempty]
      exact ih.cons t.key
    · rw [if_neg hempty]
      exact ih.cons_cons t.key

end Loads

/-! ## Exact use of tables -/

section Exact

/-- A compiled message loads the keys that are loaded from some table, each once: from its home, by
its first index there, and in the class of its usage. -/
theorem exists_filter_loads_message (hnodup : (tables.map LookupTable.key).Nodup)
    (hmention : key ∈ mentions ixs payer) (hfrom : loadedFrom? ixs payer tables key ≠ none) :
    ∃ (t : LookupTable) (index : Nat), LookupTable.FirstHolds tables t key ∧
      t.indexOf? key = some index ∧
      (((Plan.of ixs payer tables).message ixs blockhash version).loads.filter fun load =>
        load.key? tables = some key) = [⟨t.key, index, (usage ixs payer key).isWritable⟩] := by
  obtain ⟨home, hhome⟩ := Option.ne_none_iff_exists'.mp hfrom
  obtain ⟨t, rfl, hfirst⟩ := exists_firstHolds (Plan.home?_of_loadedFrom? hhome)
  obtain ⟨index, hindex⟩ := Option.isSome_iff_exists.mp (isSome_tableIndex?.mpr hfirst.mem_take)
  have hkey : key ∈ loadedKeys ixs payer tables (usage ixs payer key).isWritable t :=
    Plan.mem_loadedKeys.mpr ⟨hmention, hhome, rfl⟩
  refine ⟨t, index, hfirst, (tableIndex?_eq_some.mp hindex).1, ?_⟩
  rw [filter_loads_message hnodup hfirst.mem hkey, Load.of, hindex, Option.getD_some]

/-- **Lookup tables are used exactly.** Of the tables of one key the last counts, at the place of
the first. A message loads just the accounts that are referred to, neither pay nor sign nor are
called, and stand among the first 256 addresses of a table. Such an account is not listed, and it
is loaded once: from the first table that can load it, by its first index there, and as writable
just when a mention wants to change it. The lookups follow the tables, no two of them are for one
table and none is empty, and the message is of version zero just when there is one or that version
was asked for. -/
theorem compile_loads_exactly (h : compile ixs payer blockhash tables version = .ok m) :
    let supplied := LookupTable.mapping tables
    (supplied.map (·.key) = (tables.map (·.key)).eraseDups ∧ ∀ t, t ∈ supplied ↔
      ∃ before after, tables = before ++ t :: after ∧ ∀ u ∈ after, u.key ≠ t.key) ∧
    (∀ load ∈ m.loads, ∃ key, load.key? supplied = some key) ∧
    (∀ key, m.Loads supplied key ↔ Refers ixs key ∧ key ≠ payer ∧ ¬WantsSigner ixs key ∧
      ¬Calls ixs key ∧ ∃ t ∈ supplied, key ∈ t.addresses.take 256) ∧
    (∀ key, m.Loads supplied key → key ∉ m.keys ∧ ∃ (t : LookupTable) (index : Nat),
      LookupTable.FirstHolds supplied t key ∧ t.indexOf? key = some index ∧
      (m.loads.filter fun load => load.key? supplied = some key) =
        [⟨t.key, index, decide (WantsWritable ixs key)⟩]) ∧
    (m.lookups.map (·.table)).Sublist (supplied.map (·.key)) ∧
    (m.lookups.map (·.table)).Nodup ∧
    (∀ l ∈ m.lookups, l.writable ≠ [] ∨ l.readonly ≠ []) ∧
    (m.version = .v0 ↔ m.lookups ≠ [] ∨ version = some .v0) := by
  intro supplied
  obtain ⟨-, -, -, rfl⟩ := compile_eq_ok.mp h
  have hnodup : (supplied.map LookupTable.key).Nodup := LookupTable.nodup_mapping tables
  have horder : (((Plan.of ixs payer supplied).message ixs blockhash version).lookups.map
      Lookup.table).Sublist (supplied.map LookupTable.key) := by
    rw [Plan.lookups_message, lookups_eq]
    exact map_table_lookups_sublist supplied
  refine ⟨⟨LookupTable.map_key_mapping tables, fun t => LookupTable.mem_mapping⟩,
    fun load hload => exists_key?_loads hnodup hload, fun key => ?_, fun key hloads => ?_, horder,
    hnodup.sublist horder, fun l hl => ?_, Plan.version_message_eq_v0 _⟩
  · -- The payer is mentioned without being referred to, but it is never loaded.
    rw [loads_iff hnodup, loadedFrom?_ne_none, mem_mentions]
    exact and_congr_left fun hother => or_iff_right hother.1
  · obtain ⟨hmention, hfrom⟩ := (loads_iff hnodup).mp hloads
    obtain ⟨hpayer, -⟩ := loadedFrom?_ne_none.mp hfrom
    have hwritable : (usage ixs payer key).isWritable = decide (WantsWritable ixs key) := by
      rw [usage_isWritable_eq, or_iff_right hpayer, decide_eq_true_iff]
    refine ⟨fun hlisted => hfrom (Plan.mem_listed.mp hlisted).2, ?_⟩
    rw [← hwritable]
    exact exists_filter_loads_message hnodup hmention hfrom
  · obtain ⟨t, -, hloaded, rfl⟩ := mem_lookups.mp hl
    simpa only [ne_eq, Plan.indexes, List.map_eq_nil_iff] using hloaded

/-- Of two tables of one key the second counts, at the place of the first; an account that stands
twice in a table and in both tables is loaded by its first index in the first one. -/
theorem compile_loads_exactly_overlapping :
    let payer : PublicKey := .zero .publicKey
    let a : PublicKey := .ofRightmost .publicKey [6]
    let b : PublicKey := .ofRightmost .publicKey [7]
    let replaced : LookupTable := ⟨.ofRightmost .publicKey [8], [a, b]⟩
    let first : LookupTable := ⟨.ofRightmost .publicKey [8], [payer, b, b]⟩
    let second : LookupTable := ⟨.ofRightmost .publicKey [9], [a, b, a]⟩
    let tables := [replaced, second, first]
    let i : Instruction := ⟨.ofRightmost .publicKey [10], [.writable a, .readonly b], []⟩
    let m : Message := ⟨⟨1, 0, 1⟩, [payer, i.program], .zero .hash, [⟨1, [2, 3], []⟩],
      [⟨first.key, [], [1]⟩, ⟨second.key, [0], []⟩], .v0⟩
    let supplied := LookupTable.mapping tables
    compile [i] payer (.zero .hash) tables none = .ok m ∧
    (supplied.map (·.key) = (tables.map (·.key)).eraseDups ∧ ∀ t, t ∈ supplied ↔
      ∃ before after, tables = before ++ t :: after ∧ ∀ u ∈ after, u.key ≠ t.key) ∧
    (∀ load ∈ m.loads, ∃ key, load.key? supplied = some key) ∧
    (∀ key, m.Loads supplied key ↔ Refers [i] key ∧ key ≠ payer ∧ ¬WantsSigner [i] key ∧
      ¬Calls [i] key ∧ ∃ t ∈ supplied, key ∈ t.addresses.take 256) ∧
    (∀ key, m.Loads supplied key → key ∉ m.keys ∧ ∃ (t : LookupTable) (index : Nat),
      LookupTable.FirstHolds supplied t key ∧ t.indexOf? key = some index ∧
      (m.loads.filter fun load => load.key? supplied = some key) =
        [⟨t.key, index, decide (WantsWritable [i] key)⟩]) ∧
    (m.lookups.map (·.table)).Sublist (supplied.map (·.key)) ∧
    (m.lookups.map (·.table)).Nodup ∧
    (∀ l ∈ m.lookups, l.writable ≠ [] ∨ l.readonly ≠ []) ∧
    (m.version = .v0 ↔ m.lookups ≠ [] ∨ (none : Option Version) = some .v0) := by
  intro payer a b replaced first second tables i m supplied
  have hcompile : compile [i] payer (.zero .hash) tables none = .ok m :=
    compile_eq_ok.mpr ⟨by simp, by decide, ⟨by decide, by decide⟩, by decide⟩
  exact ⟨hcompile, compile_loads_exactly hcompile⟩

end Exact

end Message

end LedgerClient
