import LedgerClient.Proofs.Message.Plan

/-!
# Compiled messages

A compiled message names the accounts of its instructions by positions in the keys that it
resolves to. The plan assigns the positions once, in the order of the six classes; resolving finds
the loaded keys again by walking the lookups, which leave out the tables that nothing is loaded
from. Both orders agree, so every position resolves to the key that it was assigned to.

## Main definitions

* `CompiledInstruction.Names`: an instruction with positions names the keys of an instruction
* `Message.Plan.message`: the message of a plan
* `Message.lookupFrom?`: what is loaded from a table

## Main results

* `Message.compile_eq_ok`: when instructions compile, and to which message
* `Message.flatMap_lookups`: the lookups of a compiled message, table by table
* `Message.resolve_message`: a compiled message resolves to the keys of its plan
* `Message.compile_preserves_instructions`: every instruction is preserved
-/

namespace LedgerClient

theorem Sequence.at?_natCast {α : Type} (xs : List α) (n : Nat) : Sequence.at? xs n = xs[n]? := by
  rw [at?, if_pos (by omega), Int.toNat_natCast]

/-- An instruction with positions names the keys of an instruction, its program among the first
`listed` ones. -/
structure CompiledInstruction.Names (c : CompiledInstruction) (keys : List PublicKey)
    (listed : Nat) (i : Instruction) : Prop where
  /-- The program is listed. -/
  program_listed : 0 ≤ c.program ∧ c.program < listed
  /-- The program is at its position. -/
  program_eq : Sequence.at? keys c.program = some i.program
  /-- There are as many accounts. -/
  length_eq : c.accounts.length = i.accounts.length
  /-- Each account is at its position. -/
  account_eq : ∀ (j : Nat) (a : AccountMeta), i.accounts[j]? = some a → ∃ position,
    c.accounts[j]? = some position ∧ 0 ≤ position ∧ Sequence.at? keys position = some a.key
  /-- The data is the same. -/
  data_eq : c.data = i.data

namespace Message

variable {ixs : List Instruction} {payer : PublicKey} {blockhash : Hash}
  {tables : List LookupTable} {version : Option Version} {m : Message}

/-! ## The message of a plan -/

/-- The message of a plan. -/
def Plan.message (p : Plan) (ixs : List Instruction) (blockhash : Hash)
    (version : Option Version) : Message where
  header := p.header
  keys := p.listed
  blockhash := blockhash
  instructions := ixs.map p.instruction
  lookups := p.lookups
  version := if p.lookups ≠ [] ∨ version = some .v0 then .v0 else .legacy

namespace Plan

@[simp] theorem signers_message (p : Plan) :
    (p.message ixs blockhash version).header.signers = p.signerCount := rfl

@[simp] theorem readonlySigners_message (p : Plan) :
    (p.message ixs blockhash version).header.readonlySigners = p.readonlySigners.length := rfl

@[simp] theorem readonlyOthers_message (p : Plan) :
    (p.message ixs blockhash version).header.readonlyOthers = p.readonlys.length := rfl

@[simp] theorem keys_message (p : Plan) :
    (p.message ixs blockhash version).keys = p.listed := rfl

@[simp] theorem lookups_message (p : Plan) :
    (p.message ixs blockhash version).lookups = p.lookups := rfl

theorem version_message_eq_v0 (p : Plan) : (p.message ixs blockhash version).version = .v0 ↔
    p.lookups ≠ [] ∨ version = some .v0 := by
  rw [message]
  split
  · next h => exact iff_of_true rfl h
  · next h => exact iff_of_false (fun hv0 => nomatch hv0) h

end Plan

/-- The counts of a compiled message are in bounds, with a writable signer at least. -/
theorem counts_message (ixs : List Instruction) (payer : PublicKey) (tables : List LookupTable)
    (blockhash : Hash) (version : Option Version) :
    0 ≤ ((Plan.of ixs payer tables).message ixs blockhash version).header.readonlySigners ∧
      ((Plan.of ixs payer tables).message ixs blockhash version).header.readonlySigners <
        ((Plan.of ixs payer tables).message ixs blockhash version).header.signers ∧
      0 ≤ ((Plan.of ixs payer tables).message ixs blockhash version).header.readonlyOthers ∧
      ((Plan.of ixs payer tables).message ixs blockhash version).header.signers +
          ((Plan.of ixs payer tables).message ixs blockhash version).header.readonlyOthers ≤
        ((Plan.of ixs payer tables).message ixs blockhash version).keys.length := by
  have hpayer : 1 ≤ (Plan.of ixs payer tables).writableSigners.length :=
    Plan.one_le_length_writableSigners
  have hcount := Plan.signerCount_eq (Plan.of ixs payer tables)
  have hlength := Plan.length_listed (Plan.of ixs payer tables)
  simp only [Plan.signers_message, Plan.readonlySigners_message, Plan.readonlyOthers_message,
    Plan.keys_message]
  omega

/-- **Instructions compile** to the message of their plan if no tables are given for a legacy
message and the plan keeps to the limits. -/
theorem compile_eq_ok : compile ixs payer blockhash tables version = .ok m ↔
    ¬(tables ≠ [] ∧ version = some .legacy) ∧
      (Plan.of ixs payer (LookupTable.mapping tables)).all.length ≤ 256 ∧
      ((Plan.of ixs payer (LookupTable.mapping tables)).signerCount ≤ 255 ∧
        (Plan.of ixs payer (LookupTable.mapping tables)).readonlys.length ≤ 255) ∧
      (Plan.of ixs payer (LookupTable.mapping tables)).message ixs blockhash version = m := by
  rw [compile, checkTables]
  by_cases hrefused : tables ≠ [] ∧ version = some .legacy
  · rw [if_pos hrefused]
    exact ⟨fun h => (nomatch h), fun h => absurd hrefused h.1⟩
  · rw [if_neg hrefused, and_iff_right hrefused]
    change (pure () >>= _) = _ ↔ _
    simp only [pure_bind, Fault.guard_eq_ok, not_or, Nat.not_lt]
    exact and_congr_right fun _ => and_congr_right fun _ => Iff.of_eq (Except.ok.injEq _ _)

/-! ## Loading

The plan keeps a pair of lists of keys for every table; the message has a lookup only for the
tables with a key in one of them. Walking the lookups is therefore walking the tables and passing
over those that add nothing, which is the induction below. -/

section Loading

variable {t : LookupTable} {ts : List LookupTable} {keys : List PublicKey}

/-- What is loaded from a table, if anything is. -/
def lookupFrom? (ixs : List Instruction) (payer : PublicKey) (tables : List LookupTable)
    (t : LookupTable) : Option Lookup :=
  if (loadedKeys ixs payer tables true t).isEmpty && (loadedKeys ixs payer tables false t).isEmpty
  then none
  else some ⟨t.key, Plan.indexes t (loadedKeys ixs payer tables true t),
    Plan.indexes t (loadedKeys ixs payer tables false t)⟩

theorem lookups_eq :
    (Plan.of ixs payer tables).lookups = tables.filterMap (lookupFrom? ixs payer tables) := by
  rw [Plan.lookups, Plan.loadedWritable_eq, Plan.loadedReadonly_eq, List.zip_map',
    List.filterMap_map]
  rfl

/-- The addresses of a table at the indexes of some keys are these keys. -/
theorem pick_indexes (h : ∀ key ∈ keys, ∃ i, tableIndex? t key = some i) :
    pick t.key t.addresses (Plan.indexes t keys) = .ok keys := by
  induction keys with
  | nil => rfl
  | cons key keys ih =>
    obtain ⟨⟨i, hi⟩, hkeys⟩ := List.forall_mem_cons.mp h
    have haddress := getElem?_of_tableIndex? hi
    obtain ⟨hlt, -⟩ := List.getElem?_eq_some_iff.mp haddress
    rw [Plan.indexes, List.map_cons, hi, Option.getD_some, ← Plan.indexes, pick]
    refine Fault.guard_eq_ok.mpr ⟨by omega, ?_⟩
    rw [Sequence.at?_natCast, haddress, ih hkeys]
    rfl

/-- A key that is loaded from a table is one that the table can load. -/
theorem exists_tableIndex? (hnodup : (tables.map LookupTable.key).Nodup) (ht : t ∈ tables)
    {key : PublicKey} {writable : Bool} (hkey : key ∈ loadedKeys ixs payer tables writable t) :
    ∃ i, tableIndex? t key = some i := by
  obtain ⟨u, hu, heq, i, hi⟩ := Plan.exists_of_loadedFrom? (Plan.mem_loadedKeys.mp hkey).2.1
  have haddresses := LookupTable.find?_of_mem hnodup hu
  rw [heq, LookupTable.find?_of_mem hnodup ht, Option.some.injEq] at haddresses
  have hsame : t = u := by
    cases t
    cases u
    simp_all
  exact ⟨i, hsame ▸ hi⟩

/-- The lookups of some tables load what the plan loads from these tables. -/
theorem load_lookups (hnodup : (tables.map LookupTable.key).Nodup) (hts : ∀ t ∈ ts, t ∈ tables) :
    load tables (ts.filterMap (lookupFrom? ixs payer tables)) =
      .ok (ts.flatMap (loadedKeys ixs payer tables true),
        ts.flatMap (loadedKeys ixs payer tables false)) := by
  induction ts with
  | nil => rfl
  | cons t ts ih =>
    obtain ⟨ht, hts⟩ := List.forall_mem_cons.mp hts
    rw [List.filterMap_cons, lookupFrom?, List.flatMap_cons, List.flatMap_cons]
    by_cases hempty : (loadedKeys ixs payer tables true t).isEmpty &&
        (loadedKeys ixs payer tables false t).isEmpty
    · rw [if_pos hempty]
      rw [Bool.and_eq_true, List.isEmpty_iff, List.isEmpty_iff] at hempty
      rw [hempty.1, hempty.2]
      exact ih hts
    · rw [if_neg hempty]
      simp only [load]
      rw [LookupTable.find?_of_mem hnodup ht]
      simp only
      rw [pick_indexes fun key hkey => exists_tableIndex? hnodup ht hkey,
        pick_indexes fun key hkey => exists_tableIndex? hnodup ht hkey, ih hts]
      rfl

/-- **A compiled message resolves** to the keys of its plan. -/
theorem resolve_message : ((Plan.of ixs payer (LookupTable.mapping tables)).message ixs blockhash
    version).resolve tables = .ok (Plan.of ixs payer (LookupTable.mapping tables)).all := by
  rw [resolve, Plan.message, lookups_eq,
    load_lookups (LookupTable.nodup_mapping tables) fun t ht => ht, Plan.all_eq]
  rfl

/-- What is made of the lookups of some tables is made table by table, if nothing is made of a
lookup without indexes. -/
theorem flatMap_lookups {α : Type} {f : Lookup → List α} (hf : ∀ table, f ⟨table, [], []⟩ = [])
    (ts : List LookupTable) : (ts.filterMap (lookupFrom? ixs payer tables)).flatMap f =
      ts.flatMap fun t => f ⟨t.key, Plan.indexes t (loadedKeys ixs payer tables true t),
        Plan.indexes t (loadedKeys ixs payer tables false t)⟩ := by
  induction ts with
  | nil => rfl
  | cons t ts ih =>
    rw [List.filterMap_cons, lookupFrom?, List.flatMap_cons]
    by_cases hempty : (loadedKeys ixs payer tables true t).isEmpty &&
        (loadedKeys ixs payer tables false t).isEmpty
    · rw [if_pos hempty]
      rw [Bool.and_eq_true, List.isEmpty_iff, List.isEmpty_iff] at hempty
      rw [hempty.1, hempty.2, Plan.indexes, List.map_nil, hf]
      exact ih
    · rw [if_neg hempty]
      exact congrArg (_ ++ ·) ih

/-- The indexes in the lookups of some tables are as many as the keys that are loaded. -/
theorem length_lookups (ts : List LookupTable) :
    ((ts.filterMap (lookupFrom? ixs payer tables)).flatMap Lookup.writable).length =
        (ts.flatMap (loadedKeys ixs payer tables true)).length ∧
      ((ts.filterMap (lookupFrom? ixs payer tables)).flatMap Lookup.indexes).length =
        (ts.flatMap (loadedKeys ixs payer tables true)).length +
          (ts.flatMap (loadedKeys ixs payer tables false)).length := by
  rw [flatMap_lookups fun _ => rfl, flatMap_lookups fun _ => rfl]
  induction ts with
  | nil => exact ⟨rfl, rfl⟩
  | cons t ts ih =>
    obtain ⟨hwritable, hindexes⟩ := ih
    simp only [List.flatMap_cons, List.length_append, Lookup.indexes, Plan.indexes,
      List.length_map] at hwritable hindexes ⊢
    omega

end Loading

/-! ## Instructions -/

section Instructions

variable {key : PublicKey} {i : Instruction}

theorem program_mem_mentions (hi : i ∈ ixs) : i.program ∈ mentions ixs payer :=
  List.mem_cons_of_mem _ (List.mem_flatMap.mpr ⟨i, hi, List.mem_cons_self⟩)

theorem key_mem_mentions {a : AccountMeta} (hi : i ∈ ixs) (ha : a ∈ i.accounts) :
    a.key ∈ mentions ixs payer :=
  List.mem_cons_of_mem _ (List.mem_flatMap.mpr
    ⟨i, hi, List.mem_cons_of_mem _ (List.mem_map_of_mem ha)⟩)

/-- A program is listed, even if a table holds it. -/
theorem program_mem_listed (hi : i ∈ ixs) : i.program ∈ (Plan.of ixs payer tables).listed := by
  refine Plan.mem_listed.mpr ⟨program_mem_mentions hi, ?_⟩
  have hprogram : (usage ixs payer i.program).isProgram = true :=
    List.any_eq_true.mpr ⟨i, hi, beq_self_eq_true _⟩
  rw [loadedFrom?, hprogram, Bool.or_true, if_pos rfl]

theorem getElem?_position {p : Plan} (h : key ∈ p.all) : p.all[p.all.idxOf key]? = some key := by
  have hlt := List.idxOf_lt_length_of_mem h
  rw [List.getElem?_eq_getElem hlt, List.getElem_idxOf]

theorem at?_position {p : Plan} (h : key ∈ p.all) :
    Sequence.at? p.all (p.position key) = some key := by
  rw [Plan.position, Sequence.at?_natCast, getElem?_position h]

theorem names_instruction (hnodup : (tables.map LookupTable.key).Nodup) (hi : i ∈ ixs) :
    ((Plan.of ixs payer tables).instruction i).Names (Plan.of ixs payer tables).all
      (Plan.of ixs payer tables).listed.length i where
  program_listed := by
    have hlt := (Plan.lt_length_iff_mem (Plan.nodup_all hnodup)
      (Plan.listed_prefix_all (Plan.of ixs payer tables)) (getElem?_position
        (Plan.mem_all.mpr (program_mem_mentions hi)))).mpr (program_mem_listed hi)
    exact ⟨Int.natCast_nonneg _, Int.ofNat_lt.mpr hlt⟩
  program_eq := at?_position (Plan.mem_all.mpr (program_mem_mentions hi))
  length_eq := List.length_map _
  account_eq j a ha := by
    refine ⟨_, ?_, Int.natCast_nonneg _, at?_position (Plan.mem_all.mpr (key_mem_mentions hi
      (List.mem_of_getElem? ha)))⟩
    rw [Plan.instruction, List.getElem?_map, ha]
    rfl
  data_eq := rfl

/-- **Every instruction is preserved.** The instructions of a compiled message are those it was
compiled from, in order: among the keys that it resolves to, each has its program, listed, its
accounts in order and as often, and its data. -/
theorem compile_preserves_instructions
    (h : compile ixs payer blockhash tables version = .ok m) :
    ∃ keys, m.resolve tables = .ok keys ∧ m.instructions.length = ixs.length ∧
      ∀ (n : Nat) (i : Instruction), ixs[n]? = some i →
        ∃ c, m.instructions[n]? = some c ∧ c.Names keys m.keys.length i := by
  obtain ⟨-, -, -, rfl⟩ := compile_eq_ok.mp h
  refine ⟨_, resolve_message, List.length_map _, fun n i hi => ?_⟩
  refine ⟨_, ?_, names_instruction (LookupTable.nodup_mapping tables) (List.mem_of_getElem? hi)⟩
  rw [Plan.message, List.getElem?_map, hi]
  rfl

/-- An account that is mentioned twice and loaded from a table is named both times. -/
theorem compile_preserves_instructions_loading :
    let payer : PublicKey := .zero .publicKey
    let account : PublicKey := .ofRightmost .publicKey [7]
    let table : LookupTable := ⟨.ofRightmost .publicKey [8], [payer, account]⟩
    let i : Instruction := ⟨.ofRightmost .publicKey [9],
      [.writable account, .signing (.readonly payer), .readonly account], [1, 2]⟩
    let m : Message := ⟨⟨1, 0, 1⟩, [payer, i.program], .zero .hash, [⟨1, [2, 0, 2], [1, 2]⟩],
      [⟨table.key, [1], []⟩], .v0⟩
    compile [i] payer (.zero .hash) [table] none = .ok m ∧
      ∃ keys, m.resolve [table] = .ok keys ∧ m.instructions.length = [i].length ∧
        ∀ (n : Nat) (i' : Instruction), [i][n]? = some i' →
          ∃ c, m.instructions[n]? = some c ∧ c.Names keys m.keys.length i' := by
  intro payer account table i m
  have hcompile : compile [i] payer (.zero .hash) [table] none = .ok m :=
    compile_eq_ok.mpr ⟨by simp, by decide, ⟨by decide, by decide⟩, by decide⟩
  exact ⟨hcompile, compile_preserves_instructions hcompile⟩

end Instructions

end Message

end LedgerClient
