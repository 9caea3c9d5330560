import LedgerClient.Proofs.Message.Format
import LedgerClient.Proofs.Message.Lookups

/-!
# Resolving a message that was read

The accounts of a message are its listed keys and, behind them, what its lookups load. Three
computations go over them: the check of a message bounds the positions by the number of the lookups'
indexes, resolving walks the lookups table by table, and whether an account may be changed is told
from its position by the counts. They speak of the same list, for any lookups, repeated tables and
lookups without indexes included: the loads of the message in the order of their positions.

The check cannot know the tables, so resolving is refused when a table is missing or too short, and
for no other reason.

## Main definitions

* `Lookup.loads`: what a lookup loads
* `Lookup.Misses`: a lookup asks for what the tables do not have

## Main results

* `Message.load_cases`: lookups load all that they ask for, or one of them misses something
* `Message.WellFormed.isWritable_loaded`: what may be changed among the loaded accounts
* `Message.ofBytes_resolve`: when a message that was read resolves, and to which accounts
-/

namespace LedgerClient

section Tables

variable {tables : List LookupTable} {key : PublicKey} {addresses : List PublicKey}

theorem LookupTable.find?_eq_none :
    LookupTable.find? tables key = none ↔ ∀ t ∈ tables, t.key ≠ key := by
  rw [find?, Option.map_eq_none_iff, Keyed.find?, List.find?_eq_none]
  simp only [decide_eq_true_eq]

theorem LookupTable.exists_of_find? (h : LookupTable.find? tables key = some addresses) :
    ∃ t ∈ tables, t.key = key ∧ t.addresses = addresses := by
  obtain ⟨t, hfind, rfl⟩ := Option.map_eq_some_iff.mp h
  have hkey := List.find?_some (p := fun t : LookupTable => t.key = key) hfind
  exact ⟨t, List.mem_of_find?_eq_some hfind, of_decide_eq_true hkey, rfl⟩

/-- A mapping of tables has a table of a key just when one was given. -/
theorem LookupTable.find?_mapping_eq_none :
    LookupTable.find? (LookupTable.mapping tables) key = none ↔ ∀ t ∈ tables, t.key ≠ key := by
  have hkeys : key ∈ (LookupTable.mapping tables).map LookupTable.key ↔
      key ∈ tables.map LookupTable.key := by
    rw [map_key_mapping, List.mem_eraseDups]
  rw [List.mem_map, List.mem_map] at hkeys
  rw [find?_eq_none]
  constructor
  · rintro h t ht rfl
    obtain ⟨u, hu, heq⟩ := hkeys.mpr ⟨t, ht, rfl⟩
    exact h u hu heq
  · rintro h t ht rfl
    obtain ⟨u, hu, heq⟩ := hkeys.mp ⟨t, ht, rfl⟩
    exact h u hu heq

end Tables

/-- A lookup asks for what the tables do not have; the fault names the first thing missing. -/
inductive Lookup.Misses (tables : List LookupTable) (l : Lookup) : Fault → Prop
  /-- No table of its key was given. -/
  | table : (∀ t ∈ tables, t.key ≠ l.table) → Misses tables l (.invalid (.tableMissing l.table))
  /-- The table is too short for an index. -/
  | index {t : LookupTable} {i : Int} : t ∈ LookupTable.mapping tables → t.key = l.table →
    i ∈ l.indexes → t.addresses.length ≤ i → Misses tables l (.invalid (.tableIndex l.table i))

/-- What a lookup loads, either writable or read-only. -/
def Lookup.loads (writable : Bool) (l : Lookup) : List Message.Load :=
  (if writable then l.writable else l.readonly).map fun i => ⟨l.table, i, writable⟩

namespace Message

variable {bs : Bytes} {m : Message} {tables : List LookupTable} {ls : List Lookup}
  {table : PublicKey} {addresses : List PublicKey} {is : List Int} {load : Load} {n : Nat}

/-! ## The loads of a message

What is loaded writable comes first, whichever lookup it is of, so the position of a load tells
whether it is writable. -/

section Loads

theorem loads_eq (m : Message) : m.loads =
    m.lookups.flatMap (Lookup.loads true) ++ m.lookups.flatMap (Lookup.loads false) := rfl

theorem mem_flatMap_loads {writable : Bool} : load ∈ ls.flatMap (Lookup.loads writable) ↔
    load.writable = writable ∧ ∃ l ∈ ls, l.table = load.table ∧
      load.index ∈ if writable then l.writable else l.readonly := by
  rw [List.mem_flatMap]
  constructor
  · rintro ⟨l, hl, hload⟩
    obtain ⟨i, hi, rfl⟩ := List.mem_map.mp hload
    exact ⟨rfl, l, hl, rfl, hi⟩
  · rintro ⟨rfl, l, hl, htable, hindex⟩
    refine ⟨l, hl, List.mem_map.mpr ⟨load.index, hindex, ?_⟩⟩
    rw [htable]

/-- Each load is of a lookup that has its index, among the writable or the read-only ones. -/
theorem exists_of_mem_loads (h : load ∈ m.loads) : ∃ l ∈ m.lookups, l.table = load.table ∧
    load.index ∈ if load.writable then l.writable else l.readonly := by
  rw [loads_eq, List.mem_append, mem_flatMap_loads, mem_flatMap_loads] at h
  rcases h with ⟨hwritable, h⟩ | ⟨hreadonly, h⟩
  · rwa [hwritable]
  · rwa [hreadonly]

theorem length_flatMap_loads (ls : List Lookup) :
    (ls.flatMap (Lookup.loads true)).length = (ls.flatMap Lookup.writable).length ∧
      (ls.flatMap (Lookup.loads true)).length + (ls.flatMap (Lookup.loads false)).length =
        (ls.flatMap Lookup.indexes).length := by
  induction ls with
  | nil => exact ⟨rfl, rfl⟩
  | cons l ls ih =>
    obtain ⟨hwritable, hindexes⟩ := ih
    simp only [List.flatMap_cons, List.length_append, Lookup.loads, Lookup.indexes,
      List.length_map, if_pos, Bool.false_eq_true, if_false] at hwritable hindexes ⊢
    omega

/-- A message loads as many accounts as its lookups have indexes. -/
theorem length_loads : m.loads.length = m.loadedCount := by
  rw [loads_eq, List.length_append, (length_flatMap_loads m.lookups).2, loadedCount]

/-- The writable loads come first. -/
theorem writable_loads (h : m.loads[n]? = some load) :
    load.writable = decide (n < m.loadedWritableCount) := by
  rw [loadedWritableCount, ← (length_flatMap_loads m.lookups).1]
  rw [loads_eq, List.getElem?_append] at h
  split at h
  · next hlt => rw [(mem_flatMap_loads.mp (List.mem_of_getElem? h)).1, decide_eq_true hlt]
  · next hnot => rw [(mem_flatMap_loads.mp (List.mem_of_getElem? h)).1, decide_eq_false hnot]

/-- **What may be changed among the loaded accounts** are the first ones, as many as the lookups
have writable indexes. -/
theorem WellFormed.isWritable_loaded (h : m.WellFormed) (hn : m.keys.length ≤ n) :
    m.isWritable n = decide (n - m.keys.length < m.loadedWritableCount) := by
  have hlisted := h.signers.2
  rw [isWritable, if_neg (by omega), if_neg (by omega)]
  exact decide_eq_decide.mpr (by omega)

end Loads

/-! ## Loading -/

section Loading

/-- Indexes pick the addresses at them, or one of them is beyond the end of the table. -/
theorem pick_cases (table : PublicKey) (addresses : List PublicKey) (his : ∀ i ∈ is, 0 ≤ i) :
    (∃ i ∈ is, addresses.length ≤ i ∧
      pick table addresses is = .error (.invalid (.tableIndex table i))) ∨
    (∀ i ∈ is, i < addresses.length) ∧ ∃ keys, pick table addresses is = .ok keys ∧
      keys.map some = is.map (Sequence.at? addresses) := by
  induction is with
  | nil => exact .inr ⟨nofun, [], rfl, rfl⟩
  | cons i is ih =>
    obtain ⟨hi, his⟩ := List.forall_mem_cons.mp his
    by_cases hlong : (addresses.length : Int) ≤ i
    · refine .inl ⟨i, List.mem_cons_self, hlong, ?_⟩
      rw [pick, if_pos hlong]
      rfl
    · obtain ⟨key, hkey⟩ : ∃ key, Sequence.at? addresses i = some key := by
        rw [Sequence.at?, if_pos hi]
        exact ⟨_, List.getElem?_eq_getElem (by omega)⟩
      have hpick : pick table addresses (i :: is) = (key :: ·) <$> pick table addresses is := by
        rw [pick, if_neg hlong, hkey]
        cases pick table addresses is <;> rfl
      rcases ih his with ⟨j, hj, hbeyond, herror⟩ | ⟨hshort, keys, hkeys, hpicked⟩
      · refine .inl ⟨j, List.mem_cons_of_mem _ hj, hbeyond, ?_⟩
        rw [hpick, herror]
        rfl
      · refine .inr ⟨List.forall_mem_cons.mpr ⟨Int.lt_of_not_ge hlong, hshort⟩, key :: keys, ?_, ?_⟩
        · rw [hpick, hkeys]
          rfl
        · rw [List.map_cons, List.map_cons, hpicked, hkey]

/-- A lookup of a table picks its loads. -/
theorem map_key?_loads_lookup {l : Lookup} (writable : Bool)
    (htable : LookupTable.find? tables l.table = some addresses) :
    (l.loads writable).map (Load.key? tables) =
      (if writable then l.writable else l.readonly).map (Sequence.at? addresses) := by
  rw [Lookup.loads, List.map_map]
  refine List.map_congr_left fun i _ => ?_
  rw [Function.comp, Load.key?, htable]
  rfl

/-- A lookup misses something, or what it asks for is put before what the lookups behind it
load. -/
theorem load_cons_cases {l : Lookup} (hl : ∀ i ∈ l.indexes, 0 ≤ i) :
    (∃ fault, l.Misses tables fault ∧
      ∀ ls, Message.load (LookupTable.mapping tables) (l :: ls) = .error fault) ∨
    (∀ fault, ¬l.Misses tables fault) ∧ ∃ writable readonly,
      (∀ ls, Message.load (LookupTable.mapping tables) (l :: ls) =
        (fun rest => (writable ++ rest.1, readonly ++ rest.2)) <$>
          Message.load (LookupTable.mapping tables) ls) ∧
      writable.map some = (l.loads true).map (Load.key? (LookupTable.mapping tables)) ∧
      readonly.map some = (l.loads false).map (Load.key? (LookupTable.mapping tables)) := by
  obtain ⟨hwritable, hreadonly⟩ := List.forall_mem_append.mp hl
  cases hfind : LookupTable.find? (LookupTable.mapping tables) l.table with
  | none =>
    refine .inl ⟨_, .table (LookupTable.find?_mapping_eq_none.mp hfind), fun ls => ?_⟩
    rw [Message.load, hfind]
  | some addresses =>
    obtain ⟨t, ht, hkey, rfl⟩ := LookupTable.exists_of_find? hfind
    rcases pick_cases l.table t.addresses hwritable with
      ⟨i, hi, hbeyond, herror⟩ | ⟨hshort, w, hw, hpicked⟩
    · refine .inl ⟨_, .index ht hkey (List.mem_append_left _ hi) hbeyond, fun ls => ?_⟩
      rw [Message.load, hfind]
      dsimp only
      rw [herror]
      rfl
    rcases pick_cases l.table t.addresses hreadonly with
      ⟨i, hi, hbeyond, herror⟩ | ⟨hshort', r, hr, hpicked'⟩
    · refine .inl ⟨_, .index ht hkey (List.mem_append_right _ hi) hbeyond, fun ls => ?_⟩
      rw [Message.load, hfind]
      dsimp only
      rw [hw, herror]
      rfl
    refine .inr ⟨fun fault hmisses => ?_, w, r, fun ls => ?_, ?_, ?_⟩
    · cases hmisses with
      | table hnone =>
        cases hfind.symm.trans (LookupTable.find?_mapping_eq_none.mpr hnone)
      | index hu hsame hi hbeyond =>
        have hfound := LookupTable.find?_of_mem (LookupTable.nodup_mapping tables) hu
        rw [hsame, hfind, Option.some.injEq] at hfound
        rw [← hfound] at hbeyond
        have hbelow := List.forall_mem_append.mpr ⟨hshort, hshort'⟩ _ hi
        omega
    · rw [Message.load, hfind]
      dsimp only
      rw [hw, hr]
      cases Message.load (LookupTable.mapping tables) ls <;> rfl
    · rw [hpicked, map_key?_loads_lookup true hfind, if_pos rfl]
    · rw [hpicked', map_key?_loads_lookup false hfind, if_neg Bool.false_ne_true]

/-- **Lookups load all that they ask for**, in order, or one of them misses something and they are
refused for it. -/
theorem load_cases (tables : List LookupTable) (hls : ∀ l ∈ ls, ∀ i ∈ l.indexes, 0 ≤ i) :
    (∃ l ∈ ls, ∃ fault, l.Misses tables fault ∧
      Message.load (LookupTable.mapping tables) ls = .error fault) ∨
    (∀ l ∈ ls, ∀ fault, ¬l.Misses tables fault) ∧ ∃ writable readonly,
      Message.load (LookupTable.mapping tables) ls = .ok (writable, readonly) ∧
      writable.map some =
        (ls.flatMap (Lookup.loads true)).map (Load.key? (LookupTable.mapping tables)) ∧
      readonly.map some =
        (ls.flatMap (Lookup.loads false)).map (Load.key? (LookupTable.mapping tables)) := by
  induction ls with
  | nil => exact .inr ⟨nofun, [], [], rfl, rfl, rfl⟩
  | cons l ls ih =>
    obtain ⟨hl, hls⟩ := List.forall_mem_cons.mp hls
    rcases load_cons_cases hl with ⟨fault, hmisses, herror⟩ | ⟨hfits, w, r, hload, hw, hr⟩
    · exact .inl ⟨l, List.mem_cons_self, fault, hmisses, herror ls⟩
    · rcases ih hls with
        ⟨l', hl', fault, hmisses, herror⟩ | ⟨hall, writables, readonlys, hok, hws, hrs⟩
      · refine .inl ⟨l', List.mem_cons_of_mem _ hl', fault, hmisses, ?_⟩
        rw [hload, herror]
        rfl
      · refine .inr ⟨List.forall_mem_cons.mpr ⟨hfits, hall⟩, w ++ writables, r ++ readonlys, ?_,
          ?_, ?_⟩
        · rw [hload, hok]
          rfl
        · rw [List.flatMap_cons, List.map_append, List.map_append, hw, hws]
        · rw [List.flatMap_cons, List.map_append, List.map_append, hr, hrs]

/-- A message resolves to its listed keys and those of its loads, or one of its lookups misses
something. -/
theorem WellFormed.resolve_cases (h : m.WellFormed) (tables : List LookupTable) :
    (∃ l ∈ m.lookups, ∃ fault, l.Misses tables fault ∧ m.resolve tables = .error fault) ∨
    (∀ l ∈ m.lookups, ∀ fault, ¬l.Misses tables fault) ∧ ∃ loaded,
      m.resolve tables = .ok (m.keys ++ loaded) ∧
      loaded.map some = m.loads.map (Load.key? (LookupTable.mapping tables)) := by
  have hindexes : ∀ l ∈ m.lookups, ∀ i ∈ l.indexes, 0 ≤ i := fun l hl i hi =>
    (h.indexes l hl i hi).1
  rcases load_cases tables hindexes with
    ⟨l, hl, fault, hmisses, herror⟩ | ⟨hall, writable, readonly, hok, hw, hr⟩
  · refine .inl ⟨l, hl, fault, hmisses, ?_⟩
    rw [resolve, herror]
    rfl
  · refine .inr ⟨hall, writable ++ readonly, ?_, ?_⟩
    · rw [resolve, hok]
      exact congrArg Except.ok (List.append_assoc _ _ _)
    · rw [List.map_append, hw, hr, ← List.map_append, ← loads_eq]

end Loading

/-! ## Messages that were read -/

section Resolving

/-- A lookup misses something if its table was not given or is too short for an index of it. -/
theorem exists_misses_iff {l : Lookup} : (∃ fault, l.Misses tables fault) ↔
    (∀ t ∈ tables, t.key ≠ l.table) ∨ ∃ t ∈ LookupTable.mapping tables, t.key = l.table ∧
      ∃ i ∈ l.indexes, t.addresses.length ≤ i := by
  constructor
  · rintro ⟨fault, hmisses⟩
    cases hmisses with
    | table hnone => exact .inl hnone
    | index ht hkey hi hbeyond => exact .inr ⟨_, ht, hkey, _, hi, hbeyond⟩
  · rintro (hnone | ⟨t, ht, hkey, i, hi, hbeyond⟩)
    · exact ⟨_, .table hnone⟩
    · exact ⟨_, .index ht hkey hi hbeyond⟩

/-- **The positions of a message that was read always resolve.** Resolving is refused if and only if
the table of a lookup was not given, or is too short for one of its indexes; of the tables of one
key the last one counts. Otherwise it gives the listed keys and, behind them, one key for each index
of the lookups: programs are positions of the listed keys, accounts are positions of all of them,
and a position behind the listed ones is that of a load, which comes from a writable index of a
lookup if the position may be changed and from a read-only one if not. -/
theorem ofBytes_resolve (h : ofBytes bs = .ok m) (tables : List LookupTable) :
    let refused := ∃ l ∈ m.lookups, (∀ t ∈ tables, t.key ≠ l.table) ∨
      ∃ t ∈ LookupTable.mapping tables, t.key = l.table ∧ ∃ i ∈ l.indexes, t.addresses.length ≤ i
    ((∃ cause, m.resolve tables = .error (.invalid cause)) ↔ refused) ∧
    (¬refused → ∃ keys, m.resolve tables = .ok keys ∧
      keys.length = m.keys.length + m.loadedCount ∧ m.keys <+: keys ∧
      (∀ i ∈ m.instructions, (0 ≤ i.program ∧ i.program < m.keys.length) ∧
        ∀ a ∈ i.accounts, 0 ≤ a ∧ a < keys.length) ∧
      ∀ n, m.keys.length ≤ n → n < keys.length → ∃ load key,
        m.loads[n - m.keys.length]? = some load ∧ keys[n]? = some key ∧
        load.key? (LookupTable.mapping tables) = some key ∧ load.writable = m.isWritable n ∧
        ∃ l ∈ m.lookups, l.table = load.table ∧
          load.index ∈ if m.isWritable n then l.writable else l.readonly) := by
  intro refused
  obtain ⟨hwell, -⟩ := ofBytes_eq_ok.mp h
  have hrefused : refused ↔ ∃ l ∈ m.lookups, ∃ fault, l.Misses tables fault :=
    exists_congr fun l => and_congr_right fun _ => exists_misses_iff.symm
  rw [hrefused]
  rcases hwell.resolve_cases tables with
    ⟨l, hl, fault, hmisses, herror⟩ | ⟨hfits, loaded, hok, hloads⟩
  · refine ⟨⟨fun _ => ⟨l, hl, fault, hmisses⟩, fun _ => ?_⟩,
      fun hnone => absurd ⟨l, hl, fault, hmisses⟩ hnone⟩
    rw [herror]
    cases hmisses with
    | table => exact ⟨_, rfl⟩
    | index => exact ⟨_, rfl⟩
  · have hlength : loaded.length = m.loadedCount := by
      rw [← length_loads, ← List.length_map some, hloads, List.length_map]
    refine ⟨⟨?_, ?_⟩, fun _ => ⟨m.keys ++ loaded, hok, ?_, List.prefix_append _ _, ?_, ?_⟩⟩
    · rintro ⟨cause, herror⟩
      cases hok.symm.trans herror
    · rintro ⟨l, hl, fault, hmisses⟩
      exact absurd hmisses (hfits l hl fault)
    · rw [List.length_append, hlength]
    · intro i hi
      rw [List.length_append, hlength]
      exact ⟨hwell.programs i hi, hwell.positions i hi⟩
    · intro n hn hlt
      rw [List.length_append] at hlt
      have hload := congrArg (·[n - m.keys.length]?) hloads
      simp only [List.getElem?_map] at hload
      have hkey : loaded[n - m.keys.length]? = some loaded[n - m.keys.length] :=
        List.getElem?_eq_getElem (by omega)
      rw [hkey, Option.map_some] at hload
      obtain ⟨load, hat, hfound⟩ := Option.map_eq_some_iff.mp hload.symm
      have hwritable : load.writable = m.isWritable n :=
        (writable_loads hat).trans (hwell.isWritable_loaded hn).symm
      refine ⟨load, _, hat, (List.getElem?_append_right hn).trans hkey, hfound, hwritable, ?_⟩
      rw [← hwritable]
      exact exists_of_mem_loads (List.mem_of_getElem? hat)

/-- A message with two lookups of one table, of which one has no writable index and the other no
read-only one, resolves to three accounts: the last two are loaded, first the writable one. -/
theorem ofBytes_resolve_repeated_table :
    let payer : PublicKey := .zero .publicKey
    let key (b : UInt8) : PublicKey := .ofRightmost .publicKey [b]
    let m : Message := ⟨⟨1, 0, 0⟩, [payer], .zero .hash, [⟨0, [1, 2], []⟩],
      [⟨key 8, [], [0]⟩, ⟨key 8, [1], []⟩], .v0⟩
    let tables : List LookupTable := [⟨key 8, [key 5, key 6]⟩]
    ∃ bs, ofBytes bs = .ok m ∧ ∃ keys, m.resolve tables = .ok keys ∧ keys.length = 3 ∧
      keys[1]? = some (key 6) ∧ m.isWritable 1 = true ∧
      keys[2]? = some (key 5) ∧ m.isWritable 2 = false := by
  intro payer key m tables
  have hwell : m.WellFormed := by constructor <;> decide
  obtain ⟨bs, hbytes⟩ := hwell.bytes_eq_ok
  have hread : ofBytes bs = .ok m := ofBytes_eq_ok.mpr ⟨hwell, hbytes⟩
  obtain ⟨-, hresolves⟩ := ofBytes_resolve hread tables
  obtain ⟨keys, hkeys, hlength, -, -, hloads⟩ := hresolves (by decide)
  obtain ⟨load, first, hload, hfirst, hfound, -⟩ := hloads 1 (by decide) (by rw [hlength]; decide)
  obtain ⟨load', second, hload', hsecond, hfound', -⟩ :=
    hloads 2 (by decide) (by rw [hlength]; decide)
  cases hload
  cases hload'
  have hsix : Load.key? (LookupTable.mapping tables) ⟨key 8, 1, true⟩ = some (key 6) := by decide
  have hfive : Load.key? (LookupTable.mapping tables) ⟨key 8, 0, false⟩ = some (key 5) := by decide
  refine ⟨bs, hread, keys, hkeys, hlength, ?_, by decide, ?_, by decide⟩
  · exact hfirst.trans (hfound.symm.trans hsix)
  · exact hsecond.trans (hfound'.symm.trans hfive)

end Resolving

end Message

end LedgerClient
