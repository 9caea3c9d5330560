import LedgerClient.Proofs.Message.RoundTrip
import LedgerClient.Proofs.Message.Request
import Mathlib.Data.Finset.Card

/-!
# The limits of compiling

Compiling counts accounts four times over: all keys of the plan, its signers, its read-only others,
and, behind the message, the positions and indexes that have to be bytes. All of them come down to
two counts of what is asked for: the accounts that are mentioned and those of them that sign. A plan
has every mentioned account once and every signer once, whatever the tables are. Its read-only
others leave out the payer, so they cannot be too many while all accounts are few enough.

## Main definitions

* `Message.mentioned`, `Message.signing`: the accounts that are mentioned, and those that sign
* `Message.FitsBytes`: the counts, positions and indexes of a message are bytes
* `Fault.TooLong`: a list is too long for a compact length

## Main results

* `Message.card_mentioned`, `Message.card_signing`: what is mentioned is what is planned
* `Message.compile_eq_error`: when compiling fails, and with which fault
* `Message.FitsBytes.tooLong`: such a message can only be too long to be written
* `Message.compile_limits`: compiling fails just beyond the limits, and else its message fits
-/

namespace LedgerClient

/-- A list is too long for a compact length. -/
def Fault.TooLong (fault : Fault) : Prop :=
  ∃ n : Nat, 0xFFFF < n ∧ fault = .codec (.compactRange n)

/-! ## Writing what may be too long -/

section Writing

theorem Write.failsWith_compact (n : Nat) : Write.FailsWith Fault.TooLong (Write.compact n) := by
  intro fault hfault
  rw [Write.run_compact, CompactU16.encode] at hfault
  split at hfault
  · cases hfault
  · cases hfault
    exact ⟨n, by omega, rfl⟩

theorem Write.failsWith_compactBytes (bs : Bytes) :
    Write.FailsWith Fault.TooLong (Write.compactBytes bs) :=
  (failsWith_compact bs.length).seq (appends_bytes bs) (Succeeds.failsWith ⟨bs, rfl⟩)

namespace Message

/-- The counts, positions and indexes of a message are bytes. -/
structure FitsBytes (m : Message) : Prop where
  signers : 0 ≤ m.header.signers ∧ m.header.signers ≤ 255
  readonlySigners : 0 ≤ m.header.readonlySigners ∧ m.header.readonlySigners ≤ 255
  readonlyOthers : 0 ≤ m.header.readonlyOthers ∧ m.header.readonlyOthers ≤ 255
  programs : ∀ i ∈ m.instructions, 0 ≤ i.program ∧ i.program ≤ 255
  accounts : ∀ i ∈ m.instructions, ∀ a ∈ i.accounts, 0 ≤ a ∧ a ≤ 255
  indexes : ∀ l ∈ m.lookups, ∀ n ∈ l.indexes, 0 ≤ n ∧ n ≤ 255

theorem failsWith_writePositions {is : List Int} (h : ∀ i ∈ is, 0 ≤ i ∧ i ≤ 255) :
    (writePositions is).FailsWith Fault.TooLong := by
  obtain ⟨bs, rfl⟩ := exists_positions.mpr fun i hi => ⟨(h i hi).1, Int.lt_add_one_of_le (h i hi).2⟩
  rw [writePositions_positions]
  exact Write.failsWith_compactBytes bs

theorem succeeds_integer_u8 {n : Int} (h : 0 ≤ n ∧ n ≤ 255) : (Write.integer .u8 n).Succeeds :=
  Write.succeeds_integer.mpr (holds_u8.mpr ⟨h.1, Int.lt_add_one_of_le h.2⟩)

theorem succeeds_key {kind : KeyKind} (key : Key kind) : (Write.key key).Succeeds :=
  ⟨key.bytes, rfl⟩

namespace FitsBytes

variable {m : Message}

theorem writeHeader (h : m.FitsBytes) : (writeHeader m.header).Succeeds := by
  rw [Message.writeHeader,
    Write.succeeds_seq ((Write.appends_integer _ _).seq (Write.appends_integer _ _)),
    Write.succeeds_seq (Write.appends_integer _ _)]
  exact ⟨succeeds_integer_u8 h.signers, succeeds_integer_u8 h.readonlySigners,
    succeeds_integer_u8 h.readonlyOthers⟩

theorem writeInstruction (h : m.FitsBytes) {i : CompiledInstruction} (hi : i ∈ m.instructions) :
    (writeInstruction i).FailsWith Fault.TooLong := by
  refine Write.FailsWith.seq ((appends_writePositions _).seq (Write.appends_compactBytes _))
    (succeeds_integer_u8 (h.programs i hi)).failsWith ?_
  exact (failsWith_writePositions (h.accounts i hi)).seq (Write.appends_compactBytes _)
    (Write.failsWith_compactBytes _)

theorem writeLookup (h : m.FitsBytes) {l : Lookup} (hl : l ∈ m.lookups) :
    (writeLookup l).FailsWith Fault.TooLong := by
  obtain ⟨hwritable, hreadonly⟩ := List.forall_mem_append.mp (h.indexes l hl)
  refine Write.FailsWith.seq ((appends_writePositions _).seq (appends_writePositions _))
    (succeeds_key _).failsWith ?_
  exact (failsWith_writePositions hwritable).seq (appends_writePositions _)
    (failsWith_writePositions hreadonly)

theorem writeLookups (h : m.FitsBytes) :
    (writeLookups m.version m.lookups).FailsWith Fault.TooLong := by
  cases m.version with
  | legacy => exact Write.Succeeds.failsWith ⟨[], rfl⟩
  | v0 =>
    exact Write.failsWith_array appends_writeLookup (Write.failsWith_compact _)
      fun l hl => h.writeLookup hl

/-- **A message whose numbers are bytes can only be too long to be written.** -/
theorem tooLong (h : m.FitsBytes) {fault : Fault} (hfault : m.bytes = .error fault) :
    fault.TooLong := by
  obtain ⟨hlookups, hinstructions, hhash, hkeys, hheader⟩ := appends_parts m
  suffices hwrite : m.write.FailsWith Fault.TooLong from hwrite fault hfault
  rw [write_eq]
  refine (succeeds_writeVersion _).failsWith.seq hheader (h.writeHeader.failsWith.seq hkeys ?_)
  refine Write.FailsWith.seq hhash (Write.failsWith_array (fun k => Write.appends_key k)
    (Write.failsWith_compact _) fun k _ => (succeeds_key k).failsWith) ?_
  refine (succeeds_key _).failsWith.seq hinstructions (Write.FailsWith.seq hlookups ?_
    h.writeLookups)
  exact Write.failsWith_array appends_writeInstruction (Write.failsWith_compact _)
    fun i hi => h.writeInstruction hi

end FitsBytes

end Message

end Writing

namespace Message

variable {ixs : List Instruction} {payer : PublicKey} {blockhash : Hash}
  {tables : List LookupTable} {version : Option Version} {fault : Fault} {key : PublicKey}

/-! ## What is mentioned -/

section Counts

/-- The accounts that instructions and a payer mention: the payer, the programs that are called,
and the accounts of the instructions. -/
def mentioned (ixs : List Instruction) (payer : PublicKey) : Finset PublicKey :=
  (mentions ixs payer).toFinset

/-- The mentioned accounts that sign: the payer, and those of which a mention wants it. -/
def signing (ixs : List Instruction) (payer : PublicKey) : Finset PublicKey :=
  (mentioned ixs payer).filter fun key => key = payer ∨ WantsSigner ixs key

theorem mem_mentioned : key ∈ mentioned ixs payer ↔ key = payer ∨ Refers ixs key :=
  List.mem_toFinset.trans mem_mentions

theorem mem_signing : key ∈ signing ixs payer ↔ key = payer ∨ WantsSigner ixs key := by
  rw [signing, Finset.mem_filter, mem_mentioned]
  refine and_iff_right_of_imp (Or.imp_right ?_)
  rintro ⟨i, hi, a, ha, hkey, -⟩
  exact ⟨i, hi, .inr ⟨a, ha, hkey⟩⟩

/-- **What is mentioned is planned**, each account once. -/
theorem card_mentioned (hnodup : (tables.map LookupTable.key).Nodup) :
    (mentioned ixs payer).card = (Plan.of ixs payer tables).all.length := by
  rw [← List.toFinset_card_of_nodup (Plan.nodup_all hnodup)]
  refine congrArg Finset.card (Finset.ext fun key => ?_)
  rw [mentioned, List.mem_toFinset, List.mem_toFinset, Plan.mem_all]

/-- **Who signs is planned as a signer**, each account once. -/
theorem card_signing (tables : List LookupTable) :
    (signing ixs payer).card = (Plan.of ixs payer tables).signerCount := by
  rw [Plan.signerCount, ← List.length_append, ← List.toFinset_card_of_nodup Plan.nodup_signers]
  refine congrArg Finset.card (Finset.ext fun key => ?_)
  rw [mem_signing, List.mem_toFinset, Plan.mem_signers, ← List.mem_toFinset, ← mentioned,
    usage_isSigner]
  exact ⟨fun h => ⟨(Finset.mem_filter.mp (mem_signing.mpr h)).1, h⟩, fun h => h.2⟩

/-- The read-only accounts that do not sign are too few for a limit of their own: the payer is
not among them. -/
theorem length_readonlys_le (hall : (Plan.of ixs payer tables).all.length ≤ 256) :
    (Plan.of ixs payer tables).readonlys.length ≤ 255 := by
  have hpayer : 1 ≤ (Plan.of ixs payer tables).writableSigners.length :=
    Plan.one_le_length_writableSigners
  have hcount := Plan.signerCount_eq (Plan.of ixs payer tables)
  have hlength := Plan.length_listed (Plan.of ixs payer tables)
  have hlisted := (Plan.listed_prefix_all (Plan.of ixs payer tables)).length_le
  omega

end Counts

/-! ## Beyond the limits -/

section Limits

/-- **When compiling fails, and with which fault.** The tables of a legacy message are refused
first, then too many accounts, then too many signers. -/
theorem compile_eq_error : compile ixs payer blockhash tables version = .error fault ↔
    (tables ≠ [] ∧ version = some .legacy) ∧ fault = .invalid .legacyTables ∨
    ¬(tables ≠ [] ∧ version = some .legacy) ∧
      (256 < (mentioned ixs payer).card ∧
          fault = .invalid (.accountLimit (mentioned ixs payer).card) ∨
        (mentioned ixs payer).card ≤ 256 ∧ 255 < (signing ixs payer).card ∧
          fault = .invalid .headerLimit) := by
  rw [card_mentioned (LookupTable.nodup_mapping tables),
    card_signing (LookupTable.mapping tables), compile, checkTables]
  by_cases hlegacy : tables ≠ [] ∧ version = some .legacy
  · rw [if_pos hlegacy, and_iff_right hlegacy, or_iff_left fun h => h.1 hlegacy]
    exact ⟨fun h => (Except.error.inj h).symm, fun h => congrArg Except.error h.symm⟩
  · rw [if_neg hlegacy, and_iff_right hlegacy, or_iff_right fun h => hlegacy h.1]
    change (pure () >>= _) = _ ↔ _
    simp only [pure_bind, Fault.guard_eq_error, Nat.not_lt]
    refine or_congr (and_congr_right fun _ => eq_comm) (and_congr_right fun hall => ?_)
    -- Of the two counts of the header, the second one never exceeds its limit.
    have hreadonlys : ¬maxHeaderCount <
        (Plan.of ixs payer (LookupTable.mapping tables)).readonlys.length :=
      Nat.not_lt.mpr (length_readonlys_le hall)
    rw [or_iff_left hreadonlys]
    constructor
    · rintro (⟨hmany, rfl⟩ | ⟨-, hok⟩)
      · exact ⟨hmany, rfl⟩
      · cases hok
    · rintro ⟨hmany, rfl⟩
      exact .inl ⟨hmany, rfl⟩

/-- The numbers of a compiled message are bytes. -/
theorem fitsBytes_message (blockhash : Hash) (version : Option Version)
    (hall : (Plan.of ixs payer tables).all.length ≤ 256)
    (hsigners : (Plan.of ixs payer tables).signerCount ≤ 255) :
    ((Plan.of ixs payer tables).message ixs blockhash version).FitsBytes := by
  have hcount := Plan.signerCount_eq (Plan.of ixs payer tables)
  have hreadonlys := length_readonlys_le hall
  refine ⟨?_, ?_, ?_, fun i hi => ?_, fun i hi a ha => ?_, fun l hl n hn => ?_⟩
  · rw [Plan.signers_message]
    omega
  · rw [Plan.readonlySigners_message]
    omega
  · rw [Plan.readonlyOthers_message]
    omega
  · have hprogram := (instruction_bounds hi).1
    omega
  · have haccount := (instruction_bounds hi).2 a ha
    omega
  · have hindex := indexes_bounds hl n hn
    omega

/-- **Compiling fails just beyond the limits, and else its message fits.** It is refused if and only
if tables are given for a legacy message, more than 256 accounts are mentioned, or more than 255 of
them sign. The limit of the header is never exceeded by the read-only accounts that do not sign,
only by the signers. What is compiled passes the check of messages, its counts, positions and
indexes are bytes, and only a list that is too long keeps it from being written. -/
theorem compile_limits (ixs : List Instruction) (payer : PublicKey) (blockhash : Hash)
    (tables : List LookupTable) (version : Option Version) :
    let refused := (tables ≠ [] ∧ version = some .legacy) ∨ 256 < (mentioned ixs payer).card ∨
      255 < (signing ixs payer).card
    ((∃ cause, compile ixs payer blockhash tables version = .error (.invalid cause)) ↔ refused) ∧
    (compile ixs payer blockhash tables version = .error (.invalid .headerLimit) →
      (Plan.of ixs payer (LookupTable.mapping tables)).readonlys.length ≤ 255 ∧
        255 < (signing ixs payer).card) ∧
    (¬refused → ∃ m, compile ixs payer blockhash tables version = .ok m ∧ m.check = .ok () ∧
      m.FitsBytes ∧ ∀ fault, m.bytes = .error fault → fault.TooLong) := by
  intro refused
  have hnodup := LookupTable.nodup_mapping tables
  refine ⟨⟨?_, fun hrefused => ?_⟩, fun hheader => ?_, fun hfits => ?_⟩
  · rintro ⟨cause, hcause⟩
    rcases compile_eq_error.mp hcause with
      ⟨hlegacy, -⟩ | ⟨-, ⟨hmany, -⟩ | ⟨-, hmany, -⟩⟩
    · exact .inl hlegacy
    · exact .inr (.inl hmany)
    · exact .inr (.inr hmany)
  · by_cases hlegacy : tables ≠ [] ∧ version = some .legacy
    · exact ⟨_, compile_eq_error.mpr (.inl ⟨hlegacy, rfl⟩)⟩
    · by_cases hmany : 256 < (mentioned ixs payer).card
      · exact ⟨_, compile_eq_error.mpr (.inr ⟨hlegacy, .inl ⟨hmany, rfl⟩⟩)⟩
      · have hsigners := (hrefused.resolve_left hlegacy).resolve_left hmany
        exact ⟨_, compile_eq_error.mpr
          (.inr ⟨hlegacy, .inr ⟨Nat.le_of_not_lt hmany, hsigners, rfl⟩⟩)⟩
  · rcases compile_eq_error.mp hheader with
      ⟨-, hfault⟩ | ⟨-, ⟨-, hfault⟩ | ⟨hfew, hmany, -⟩⟩
    · cases hfault
    · cases hfault
    · rw [card_mentioned hnodup] at hfew
      exact ⟨length_readonlys_le hfew, hmany⟩
  · obtain ⟨hlegacy, hlimits⟩ := not_or.mp hfits
    rw [not_or, Nat.not_lt, Nat.not_lt, card_mentioned hnodup,
      card_signing (LookupTable.mapping tables)] at hlimits
    obtain ⟨hall, hsigners⟩ := hlimits
    have hfits := fitsBytes_message blockhash version hall hsigners
    exact ⟨_, compile_eq_ok.mpr ⟨hlegacy, hall, ⟨hsigners, length_readonlys_le hall⟩, rfl⟩,
      check_message hall hnodup, hfits, fun fault hfault => hfits.tooLong hfault⟩

/-- The signers of `signedBy` are different keys, as long as these can be numbered by a byte. -/
theorem card_signing_signedBy (count : Nat) (hcount : count ≤ 255) :
    (signing [signedBy count] (keyOf 0)).card = count + 1 := by
  have hsigners : signing [signedBy count] (keyOf 0) =
      (Finset.range (count + 1)).image fun n => keyOf (UInt8.ofNat n) := by
    refine Finset.ext fun key => ?_
    rw [mem_signing, Finset.mem_image]
    simp only [WantsSigner, signedBy, List.mem_singleton, exists_eq_left, List.mem_map,
      List.mem_range, exists_exists_and_eq_and, and_true, Finset.mem_range]
    constructor
    · rintro (rfl | ⟨n, hn, rfl⟩)
      · exact ⟨0, Nat.succ_pos _, rfl⟩
      · exact ⟨n + 1, Nat.succ_lt_succ hn, rfl⟩
    · rintro ⟨_ | n, hn, rfl⟩
      · exact .inl rfl
      · exact .inr ⟨n, Nat.lt_of_succ_lt_succ hn, rfl⟩
  rw [hsigners, Finset.card_image_of_injOn, Finset.card_range]
  intro i hi j hj hkeys
  rw [Finset.coe_range, Set.mem_Iio] at hi hj
  have hbytes : UInt8.ofNat i = UInt8.ofNat j := (List.cons.inj (congrArg Key.bytes hkeys)).1
  have hvalues := congrArg UInt8.toNat hbytes
  rw [UInt8.toNat_ofNat', UInt8.toNat_ofNat'] at hvalues
  omega

/-- A payer and 254 signers of an instruction are accepted with its program, the 256th account. One
signer more is refused, although no account is added. -/
theorem compile_limits_signers :
    (∃ m, compile [signedBy 254] (keyOf 0) (.zero .hash) [] none = .ok m ∧ m.check = .ok ()) ∧
      ∃ cause, compile [signedBy 255] (keyOf 0) (.zero .hash) [] none =
        .error (.invalid cause) := by
  have hsigners := card_signing_signedBy 254 (by decide)
  have hmany := card_signing_signedBy 255 (by decide)
  have hall : (mentioned [signedBy 254] (keyOf 0)).card ≤ 256 := by
    refine Nat.le_trans (List.toFinset_card_le _) (Nat.le_of_eq ?_)
    simp [mentions, signedBy]
  obtain ⟨-, -, haccepted⟩ := compile_limits [signedBy 254] (keyOf 0) (.zero .hash) [] none
  obtain ⟨hrefused, -⟩ := compile_limits [signedBy 255] (keyOf 0) (.zero .hash) [] none
  obtain ⟨m, hm, hcheck, -⟩ := haccepted (by simp [hsigners, hall])
  exact ⟨⟨m, hm, hcheck⟩, hrefused.mpr (.inr (.inr (by rw [hmany]; decide)))⟩

end Limits

end Message

end LedgerClient
