import LedgerClient.Proofs.Message.Format
import LedgerClient.Proofs.Message.Lookups

/-!
# Compiled messages as bytes

A compiled message passes the check of messages, and all its numbers fit their places; only its
instructions and their lists may be too long to be written. Its bytes are read back unless it is
a legacy message with more than 127 signers. The first byte of a legacy message is the number of
its signers, and from 128 on this byte announces a version; the limit of compiling is 255 signers
whatever the version.

## Main results

* `Message.check_message`: a compiled message passes the check
* `Message.succeeds_write_message`: when a compiled message can be written
* `Message.compile_ofBytes_bytes`: when a compiled message is read back from its bytes
-/

namespace LedgerClient.Message

variable {ixs : List Instruction} {payer : PublicKey} {blockhash : Hash}
  {tables : List LookupTable} {version : Option Version} {m : Message}

/-! ## The check of a compiled message -/

section Check

theorem position_bounds {p : Plan} {key : PublicKey} (h : key ∈ p.all) :
    0 ≤ p.position key ∧ p.position key < p.all.length :=
  ⟨Int.natCast_nonneg _, Int.ofNat_lt.mpr (List.idxOf_lt_length_of_mem h)⟩

/-- The positions in the instructions of a plan are those of its keys. -/
theorem instruction_bounds {c : CompiledInstruction}
    (hc : c ∈ ixs.map (Plan.of ixs payer tables).instruction) :
    (0 ≤ c.program ∧ c.program < (Plan.of ixs payer tables).all.length) ∧
      ∀ a ∈ c.accounts, 0 ≤ a ∧ a < (Plan.of ixs payer tables).all.length := by
  obtain ⟨i, hi, rfl⟩ := List.mem_map.mp hc
  refine ⟨position_bounds (Plan.mem_all.mpr (program_mem_mentions hi)), fun a ha => ?_⟩
  obtain ⟨account, haccount, rfl⟩ := List.mem_map.mp ha
  exact position_bounds (Plan.mem_all.mpr (key_mem_mentions hi haccount))

variable (hall : (Plan.of ixs payer tables).all.length ≤ 256)
include hall

/-- A compiled message passes the check. -/
theorem check_message (hnodup : (tables.map LookupTable.key).Nodup) :
    ((Plan.of ixs payer tables).message ixs blockhash version).check = .ok () := by
  obtain ⟨hreadonly, hwritable, hothers, hlisted⟩ :=
    counts_message ixs payer tables blockhash version
  have htotal : (Plan.of ixs payer tables).all.length =
      ((Plan.of ixs payer tables).message ixs blockhash version).keys.length +
        ((Plan.of ixs payer tables).message ixs blockhash version).loadedCount := length_all
  refine check_eq_ok.mpr ⟨by omega, by omega, by omega, by omega, Plan.nodup_listed, by omega,
    fun c hc => ?_⟩
  · rw [← htotal]
    obtain ⟨i, hi, rfl⟩ := List.mem_map.mp hc
    exact ⟨(names_instruction hnodup hi).program_listed.2, fun a ha =>
      ((instruction_bounds hc).2 a ha).2⟩

/-- Few enough accounts are loaded that every lookup can be written. -/
theorem succeeds_writeLookup_message {l : Lookup} (hl : l ∈ (Plan.of ixs payer tables).lookups) :
    (writeLookup l).Succeeds := by
  obtain ⟨hwritable, hreadonly⟩ := List.forall_mem_append.mp (indexes_bounds hl)
  have hle : l.indexes.length ≤ (Plan.of ixs payer tables).all.length := by
    rw [length_all]
    exact Nat.le_add_left_of_le (length_indexes_le hl)
  rw [Lookup.indexes, List.length_append] at hle
  exact succeeds_writeLookup.mpr ⟨⟨hwritable, by omega⟩, hreadonly, by omega⟩

/-- **A compiled message can be written** if there are not too many instructions and none of them
has too many accounts or too much data. -/
theorem succeeds_write_message (hsigners : (Plan.of ixs payer tables).signerCount ≤ 255)
    (hreadonlys : (Plan.of ixs payer tables).readonlys.length ≤ 255) :
    ((Plan.of ixs payer tables).message ixs blockhash version).write.Succeeds ↔
      ixs.length ≤ 0xFFFF ∧ ∀ i ∈ ixs, i.accounts.length ≤ 0xFFFF ∧ i.data.length ≤ 0xFFFF := by
  have hcount := Plan.signerCount_eq (Plan.of ixs payer tables)
  have hlisted : (Plan.of ixs payer tables).listed.length ≤ (Plan.of ixs payer tables).all.length :=
    (Plan.listed_prefix_all _).length_le
  have hlookups : (Plan.of ixs payer tables).lookups.length ≤
      (Plan.of ixs payer tables).all.length := by
    rw [length_all]
    exact Nat.le_add_left_of_le (length_le_of_indexes fun l hl => one_le_length_indexes hl)
  -- Positions, indexes and counts are bytes by the limits; what is left are the given lengths.
  have hfits : ∀ n : Nat, n ≤ 255 → 0 ≤ (n : Int) ∧ (n : Int) < 256 := fun n hn => by omega
  rw [succeeds_write]
  constructor
  · rintro ⟨-, -, ⟨hinstructions, hinstruction⟩, -⟩
    rw [Plan.message, List.length_map] at hinstructions
    refine ⟨hinstructions, fun i hi => ?_⟩
    obtain ⟨-, ⟨-, haccounts⟩, hdata⟩ :=
      succeeds_writeInstruction.mp (hinstruction _ (List.mem_map_of_mem hi))
    rw [Plan.instruction, List.length_map] at haccounts
    exact ⟨haccounts, hdata⟩
  · rintro ⟨hinstructions, hinstruction⟩
    refine ⟨⟨hfits _ hsigners, hfits _ (by omega), hfits _ hreadonlys⟩, ?_, ⟨?_, fun c hc => ?_⟩,
      fun _ => ⟨?_, fun l hl => ?_⟩⟩
    · change (Plan.of ixs payer tables).listed.length ≤ _
      omega
    · rwa [Plan.message, List.length_map]
    · obtain ⟨hprogram, haccounts⟩ := instruction_bounds hc
      obtain ⟨i, hi, rfl⟩ := List.mem_map.mp hc
      refine succeeds_writeInstruction.mpr ⟨⟨hprogram.1, by omega⟩, ⟨fun a ha => ?_, ?_⟩,
        (hinstruction i hi).2⟩
      · have hposition := haccounts a ha
        omega
      · rw [Plan.instruction, List.length_map]
        exact (hinstruction i hi).1
    · change (Plan.of ixs payer tables).lookups.length ≤ _
      omega
    · exact succeeds_writeLookup_message hall hl

theorem refuses_write_message :
    ((Plan.of ixs payer tables).message ixs blockhash version).write.Refuses := by
  refine refuses_write (fun c hc a ha => ?_) fun l hl => indexes_bounds hl
  have hposition := (instruction_bounds hc).2 a ha
  omega

end Check

/-! ## Reading a compiled message back -/

theorem version_message_eq_legacy {p : Plan}
    (h : (p.message ixs blockhash version).version = .legacy) : p.lookups = [] := by
  refine Classical.byContradiction fun hne => ?_
  rw [p.version_message_eq_v0.mpr (.inl hne)] at h
  cases h

/-- **A compiled message is read back from its bytes** unless it is a legacy message with more
than 127 signers. It has bytes unless there are too many instructions or one of them has too many
accounts or too much data; then it is refused with a codec fault. -/
theorem compile_ofBytes_bytes (h : compile ixs payer blockhash tables version = .ok m) :
    ((∃ cause, m.bytes = .error (.codec cause)) ↔ 0xFFFF < ixs.length ∨
      ∃ i ∈ ixs, 0xFFFF < i.accounts.length ∨ 0xFFFF < i.data.length) ∧
    (ixs.length ≤ 0xFFFF → (∀ i ∈ ixs, i.accounts.length ≤ 0xFFFF ∧ i.data.length ≤ 0xFFFF) →
      ∃ bs, m.bytes = .ok bs ∧
        (ofBytes bs = .ok m ↔ m.version = .v0 ∨ m.header.signers ≤ 127)) := by
  obtain ⟨-, hall, ⟨hsigners, hreadonlys⟩, rfl⟩ := compile_eq_ok.mp h
  have htables := LookupTable.nodup_mapping tables
  constructor
  · rw [bytes, Write.Refuses.exists_codec_iff (refuses_write_message hall),
      succeeds_write_message hall hsigners hreadonlys]
    simp only [Classical.not_and_iff_not_or_not, Nat.not_le, Classical.not_forall, exists_prop]
  · intro hinstructions hinstruction
    obtain ⟨bs, hbytes⟩ :=
      (succeeds_write_message hall hsigners hreadonlys).mpr ⟨hinstructions, hinstruction⟩
    refine ⟨bs, hbytes, ?_⟩
    rw [ofBytes_eq_ok, wellFormed_iff]
    constructor
    · rintro ⟨⟨-, -, hlegacy⟩, -⟩
      cases hversion : (Plan.message _ ixs blockhash version).version with
      | legacy => exact .inr (hlegacy hversion).1
      | v0 => exact .inl rfl
    · intro hread
      refine ⟨⟨⟨bs, hbytes⟩, check_message hall htables, fun hlegacy => ⟨?_, ?_⟩⟩, hbytes⟩
      · refine hread.resolve_left fun hv0 => ?_
        rw [hlegacy] at hv0
        cases hv0
      · exact version_message_eq_legacy hlegacy

/-- A message with a loaded account is read back. -/
theorem compile_ofBytes_bytes_loading :
    let payer : PublicKey := .zero .publicKey
    let account : PublicKey := .ofRightmost .publicKey [7]
    let table : LookupTable := ⟨.ofRightmost .publicKey [8], [payer, account]⟩
    let i : Instruction := ⟨.ofRightmost .publicKey [9], [.writable account, .readonly payer], [1]⟩
    let m : Message := ⟨⟨1, 0, 1⟩, [payer, i.program], .zero .hash, [⟨1, [2, 0], [1]⟩],
      [⟨table.key, [1], []⟩], .v0⟩
    compile [i] payer (.zero .hash) [table] none = .ok m ∧
      ∃ bs, m.bytes = .ok bs ∧ ofBytes bs = .ok m := by
  intro payer account table i m
  have hcompile : compile [i] payer (.zero .hash) [table] none = .ok m :=
    compile_eq_ok.mpr ⟨by simp, by decide, ⟨by decide, by decide⟩, by decide⟩
  obtain ⟨bs, hbytes, hread⟩ := (compile_ofBytes_bytes hcompile).2 (by decide) (by decide)
  exact ⟨hcompile, bs, hbytes, hread.mpr (.inl rfl)⟩

/-- The key of a byte and zeros. -/
def keyOf (b : UInt8) : PublicKey :=
  ⟨b :: Bytes.zeros 31, rfl⟩

/-- An instruction that `count` accounts sign. -/
def signedBy (count : Nat) : Instruction :=
  ⟨keyOf 255, (List.range count).map fun n => ⟨keyOf (UInt8.ofNat (n + 1)), true, true⟩, []⟩

/-- A legacy message with 128 signers is compiled and written but not read back. -/
theorem compile_not_ofBytes_bytes : ∃ m bs,
    compile [signedBy 127] (keyOf 0) (.zero .hash) [] none = .ok m ∧ m.bytes = .ok bs ∧
      ofBytes bs ≠ .ok m := by
  obtain ⟨hall, hsigners⟩ : (Plan.of [signedBy 127] (keyOf 0) []).all.length ≤ 256 ∧
      (Plan.of [signedBy 127] (keyOf 0) []).signerCount = 128 := by decide +kernel
  have hreadonlys : (Plan.of [signedBy 127] (keyOf 0) []).readonlys.length ≤ 255 := by
    have hlength := Plan.length_listed (Plan.of [signedBy 127] (keyOf 0) [])
    have hle := (Plan.listed_prefix_all (Plan.of [signedBy 127] (keyOf 0) [])).length_le
    omega
  have hcompile : compile [signedBy 127] (keyOf 0) (.zero .hash) [] none =
      .ok ((Plan.of [signedBy 127] (keyOf 0) []).message [signedBy 127] (.zero .hash) none) :=
    compile_eq_ok.mpr ⟨by simp, hall, ⟨Nat.le_trans (Nat.le_of_eq hsigners) (by decide),
      hreadonlys⟩, rfl⟩
  obtain ⟨bs, hbytes⟩ := (succeeds_write_message hall (by omega) hreadonlys).mpr
    ⟨by simp, by simp [signedBy]⟩
  refine ⟨_, bs, hcompile, hbytes, fun hread => ?_⟩
  have hlegacy := (ofBytes_eq_ok.mp hread).1.legacy rfl
  have hle : ((Plan.of [signedBy 127] (keyOf 0) []).signerCount : Int) ≤ 127 := hlegacy.1
  omega

end LedgerClient.Message
