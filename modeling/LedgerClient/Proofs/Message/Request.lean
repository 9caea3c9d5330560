import LedgerClient.Proofs.Message.Privilege

/-!
# What instructions ask for

Instructions refer to an account by calling it as a program or by mentioning it, and a mention may
want the account to sign or to be changed. The accounts of a compiled message depend on nothing
else of the instructions: neither on their order, nor on the order and the number of mentions, nor
on the data.

## Main definitions

* `Message.Refers`, `Message.Calls`, `Message.WantsSigner`, `Message.WantsWritable`: what
  instructions ask for an account
* `Message.SameRequests`: two lists of instructions ask for the same
* `Message.SameMentions`: two instructions have the same mentions
* `Message.SameAccounts`: two outcomes of compiling have the same accounts

## Main results

* `Message.ascending_congr`: keys in order are determined by their set
* `Message.SameRequests.plan_eq`: the same requests have the same plan
* `Message.compile_order_independent`: the accounts of a message do not depend on order or
  repetition
-/

namespace LedgerClient

namespace Message

/-- An instruction calls the account as a program or mentions it. -/
def Refers (ixs : List Instruction) (key : PublicKey) : Prop :=
  ∃ i ∈ ixs, key = i.program ∨ ∃ a ∈ i.accounts, a.key = key

/-- An instruction calls the account as a program. -/
def Calls (ixs : List Instruction) (key : PublicKey) : Prop :=
  ∃ i ∈ ixs, i.program = key

/-- A mention wants the account to sign. -/
def WantsSigner (ixs : List Instruction) (key : PublicKey) : Prop :=
  ∃ i ∈ ixs, ∃ a ∈ i.accounts, a.key = key ∧ a.isSigner = true

/-- A mention wants to change the account. -/
def WantsWritable (ixs : List Instruction) (key : PublicKey) : Prop :=
  ∃ i ∈ ixs, ∃ a ∈ i.accounts, a.key = key ∧ a.isWritable = true

instance (ixs : List Instruction) (key : PublicKey) : Decidable (Refers ixs key) :=
  inferInstanceAs (Decidable (∃ i ∈ ixs, key = i.program ∨ ∃ a ∈ i.accounts, a.key = key))

instance (ixs : List Instruction) (key : PublicKey) : Decidable (Calls ixs key) :=
  inferInstanceAs (Decidable (∃ i ∈ ixs, i.program = key))

instance (ixs : List Instruction) (key : PublicKey) : Decidable (WantsSigner ixs key) :=
  inferInstanceAs (Decidable (∃ i ∈ ixs, ∃ a ∈ i.accounts, a.key = key ∧ a.isSigner = true))

instance (ixs : List Instruction) (key : PublicKey) : Decidable (WantsWritable ixs key) :=
  inferInstanceAs (Decidable (∃ i ∈ ixs, ∃ a ∈ i.accounts, a.key = key ∧ a.isWritable = true))

/-- Two lists of instructions ask for the same: they refer to the same accounts, call the same
programs, and want the same accounts to sign and to be changed. -/
structure SameRequests (ixs ixs' : List Instruction) : Prop where
  /-- They refer to the same accounts. -/
  refers : ∀ key, Refers ixs key ↔ Refers ixs' key
  /-- They call the same programs. -/
  calls : ∀ key, Calls ixs key ↔ Calls ixs' key
  /-- They want the same accounts to sign. -/
  wantsSigner : ∀ key, WantsSigner ixs key ↔ WantsSigner ixs' key
  /-- They want to change the same accounts. -/
  wantsWritable : ∀ key, WantsWritable ixs key ↔ WantsWritable ixs' key

/-- Two instructions call the same program with the same mentions, in any order and number. -/
def SameMentions (i i' : Instruction) : Prop :=
  i.program = i'.program ∧ ∀ a, a ∈ i.accounts ↔ a ∈ i'.accounts

/-- Two outcomes of compiling have the same accounts. -/
inductive SameAccounts : Except Fault Message → Except Fault Message → Prop
  /-- Both are refused with the same fault. -/
  | refused (fault : Fault) : SameAccounts (.error fault) (.error fault)
  /-- Both messages have the same header, listed keys, lookups and version. -/
  | compiled {m m' : Message} (header : m.header = m'.header) (keys : m.keys = m'.keys)
      (lookups : m.lookups = m'.lookups) (version : m.version = m'.version) :
      SameAccounts (.ok m) (.ok m')

variable {ixs ixs' : List Instruction} {payer key : PublicKey} {blockhash blockhash' : Hash}
  {tables : List LookupTable} {version : Option Version}

theorem usage_isProgram : (usage ixs payer key).isProgram = true ↔ Calls ixs key := by
  simp only [usage, Calls, List.any_eq_true, beq_iff_eq]

theorem usage_isSigner_eq {signer : Bool} : (usage ixs payer key).isSigner = signer ↔
    (key = payer ∨ WantsSigner ixs key ↔ signer = true) :=
  Bool.eq_iff_iff.trans (iff_congr usage_isSigner Iff.rfl)

theorem usage_isWritable_eq {writable : Bool} : (usage ixs payer key).isWritable = writable ↔
    (key = payer ∨ WantsWritable ixs key ↔ writable = true) :=
  Bool.eq_iff_iff.trans (iff_congr usage_isWritable Iff.rfl)

/-! ## The same requests

Two lists of instructions ask for the same if they have the same programs and the same mentions,
since what is wanted of an account is wanted by one mention of it. -/

section SameRequests

theorem exists_mention_iff {P : AccountMeta → Prop} :
    (∃ i ∈ ixs, ∃ a ∈ i.accounts, P a) ↔ ∃ a ∈ ixs.flatMap (·.accounts), P a := by
  constructor
  · rintro ⟨i, hi, a, ha, hP⟩
    exact ⟨a, List.mem_flatMap.mpr ⟨i, hi, ha⟩, hP⟩
  · rintro ⟨a, ha, hP⟩
    obtain ⟨i, hi, ha⟩ := List.mem_flatMap.mp ha
    exact ⟨i, hi, a, ha, hP⟩

theorem refers_iff : Refers ixs key ↔
    Calls ixs key ∨ ∃ i ∈ ixs, ∃ a ∈ i.accounts, a.key = key := by
  constructor
  · rintro ⟨i, hi, hprogram | haccount⟩
    · exact .inl ⟨i, hi, hprogram.symm⟩
    · exact .inr ⟨i, hi, haccount⟩
  · rintro (⟨i, hi, hprogram⟩ | ⟨i, hi, haccount⟩)
    · exact ⟨i, hi, .inl hprogram.symm⟩
    · exact ⟨i, hi, .inr haccount⟩

/-- The same programs and the same mentions ask for the same. -/
theorem SameRequests.of_mentions (hcalls : ∀ key, Calls ixs key ↔ Calls ixs' key)
    (hmentions : ∀ a, a ∈ ixs.flatMap (·.accounts) ↔ a ∈ ixs'.flatMap (·.accounts)) :
    SameRequests ixs ixs' := by
  -- Whatever is asked of an account is asked by one mention, and the mentions are the same.
  have hexists : ∀ P : AccountMeta → Prop,
      (∃ i ∈ ixs, ∃ a ∈ i.accounts, P a) ↔ ∃ i ∈ ixs', ∃ a ∈ i.accounts, P a := by
    intro P
    simp only [exists_mention_iff, hmentions]
  exact {
    refers := fun key => by rw [refers_iff, refers_iff, hcalls, hexists]
    calls := hcalls
    wantsSigner := fun key => hexists _
    wantsWritable := fun key => hexists _ }

/-- A permutation of instructions asks for the same. -/
theorem SameRequests.of_perm (h : ixs.Perm ixs') : SameRequests ixs ixs' := by
  refine .of_mentions (fun key => ?_) fun a => ?_
  · exact exists_congr fun i => and_congr_left fun _ => h.mem_iff
  · rw [List.mem_flatMap, List.mem_flatMap]
    exact exists_congr fun i => and_congr_left fun _ => h.mem_iff

/-- Instructions with the same mentions, in any order and number, ask for the same. -/
theorem SameRequests.of_same_mentions
    (h : ∀ i ∈ ixs, ∃ i' ∈ ixs', SameMentions i i')
    (h' : ∀ i' ∈ ixs', ∃ i ∈ ixs, SameMentions i i') : SameRequests ixs ixs' := by
  refine .of_mentions (fun key => ⟨?_, ?_⟩) fun a => ?_
  · rintro ⟨i, hi, rfl⟩
    obtain ⟨i', hi', hprogram, -⟩ := h i hi
    exact ⟨i', hi', hprogram.symm⟩
  · rintro ⟨i', hi', rfl⟩
    obtain ⟨i, hi, hprogram, -⟩ := h' i' hi'
    exact ⟨i, hi, hprogram⟩
  · rw [List.mem_flatMap, List.mem_flatMap]
    constructor
    · rintro ⟨i, hi, ha⟩
      obtain ⟨i', hi', -, haccounts⟩ := h i hi
      exact ⟨i', hi', (haccounts a).mp ha⟩
    · rintro ⟨i', hi', ha⟩
      obtain ⟨i, hi, -, haccounts⟩ := h' i' hi'
      exact ⟨i, hi, (haccounts a).mpr ha⟩

end SameRequests

/-! ## The same plan

A plan sees the mentions of its instructions twice: as the ascending list of the keys, and as the
usage of each key. Neither shows the order of the mentions. -/

section Plan

/-- The ascending list of some keys is determined by their set. -/
theorem ascending_congr {keys keys' : List PublicKey} (h : ∀ key, key ∈ keys ↔ key ∈ keys') :
    ascending keys = ascending keys' := by
  -- Both lists ascend, so neither has a key twice and each is the only order of its keys.
  refine List.Perm.eq_of_pairwise (fun a b _ _ hab hba => ?_) (pairwise_ascending keys)
    (pairwise_ascending keys') ?_
  · exact absurd (Key.lt_trans hab hba) (Key.lt_irrefl a)
  · refine (List.perm_ext_iff_of_nodup (nodup_ascending keys) (nodup_ascending keys')).mpr ?_
    intro key
    rw [mem_ascending, mem_ascending, h]

theorem SameRequests.ascending_eq (h : SameRequests ixs ixs') (payer : PublicKey) :
    ascending (mentions ixs payer) = ascending (mentions ixs' payer) := by
  refine ascending_congr fun key => ?_
  exact mem_mentions.trans ((or_congr_right (h.refers key)).trans mem_mentions.symm)

theorem SameRequests.usage_eq (h : SameRequests ixs ixs') (payer key : PublicKey) :
    usage ixs payer key = usage ixs' payer key := by
  have hsigner : (usage ixs payer key).isSigner = (usage ixs' payer key).isSigner :=
    Bool.eq_iff_iff.mpr
      (usage_isSigner.trans ((or_congr_right (h.wantsSigner key)).trans usage_isSigner.symm))
  have hwritable : (usage ixs payer key).isWritable = (usage ixs' payer key).isWritable :=
    Bool.eq_iff_iff.mpr
      (usage_isWritable.trans ((or_congr_right (h.wantsWritable key)).trans usage_isWritable.symm))
  have hprogram : (usage ixs payer key).isProgram = (usage ixs' payer key).isProgram :=
    Bool.eq_iff_iff.mpr (usage_isProgram.trans ((h.calls key).trans usage_isProgram.symm))
  calc usage ixs payer key
    _ = ⟨(usage ixs payer key).isSigner, (usage ixs payer key).isWritable,
          (usage ixs payer key).isProgram⟩ := rfl
    _ = usage ixs' payer key := by rw [hsigner, hwritable, hprogram]

/-- **The same requests have the same plan.** -/
theorem SameRequests.plan_eq (h : SameRequests ixs ixs') (payer : PublicKey)
    (tables : List LookupTable) : Plan.of ixs payer tables = Plan.of ixs' payer tables := by
  unfold Plan.of
  rw [h.ascending_eq payer, funext (h.usage_eq payer)]

end Plan

/-! ## The same accounts -/

theorem SameAccounts.of_ok {outcome outcome' : Except Fault Message} {m m' : Message}
    (h : SameAccounts outcome outcome') (hm : outcome = .ok m) (hm' : outcome' = .ok m') :
    m.header = m'.header ∧ m.keys = m'.keys ∧ m.lookups = m'.lookups ∧ m.version = m'.version := by
  subst hm hm'
  cases h with
  | compiled header keys lookups version => exact ⟨header, keys, lookups, version⟩

/-- Instructions with the same plan compile to the same accounts or are refused alike. -/
theorem sameAccounts_of_plan_eq (h : Plan.of ixs payer (LookupTable.mapping tables) =
      Plan.of ixs' payer (LookupTable.mapping tables)) :
    SameAccounts (compile ixs payer blockhash tables version)
      (compile ixs' payer blockhash' tables version) := by
  rw [compile, compile, h]
  cases checkTables tables version with
  | error fault => exact .refused fault
  | ok _ =>
    simp only [bind, Except.bind]
    split
    · exact .refused _
    · split
      · exact .refused _
      · exact .compiled rfl rfl rfl rfl

/-- **The accounts of a compiled message do not depend on order or repetition.** Instructions that
ask for the same compile to messages with the same header, listed keys, lookups and version, or are
refused alike. Such are the instructions in another order, and instructions with their mentions in
another order and number, whatever the data. -/
theorem compile_order_independent :
    (∀ (ixs ixs' : List Instruction) (payer : PublicKey) (blockhash blockhash' : Hash)
        (tables : List LookupTable) (version : Option Version), SameRequests ixs ixs' →
      SameAccounts (compile ixs payer blockhash tables version)
        (compile ixs' payer blockhash' tables version)) ∧
    (∀ ixs ixs' : List Instruction, ixs.Perm ixs' → SameRequests ixs ixs') ∧
    ∀ ixs ixs' : List Instruction, (∀ i ∈ ixs, ∃ i' ∈ ixs', SameMentions i i') →
      (∀ i' ∈ ixs', ∃ i ∈ ixs, SameMentions i i') → SameRequests ixs ixs' := by
  refine ⟨fun ixs ixs' payer blockhash blockhash' tables version h => ?_,
    fun ixs ixs' h => .of_perm h, fun ixs ixs' h h' => .of_same_mentions h h'⟩
  exact sameAccounts_of_plan_eq (h.plan_eq payer _)

/-- An instruction whose mentions are turned round and repeated compiles to the same accounts. -/
theorem compile_order_independent_repeating :
    let payer : PublicKey := .zero .publicKey
    let owner : PublicKey := .ofRightmost .publicKey [7]
    let price : PublicKey := .ofRightmost .publicKey [5]
    let table : LookupTable := ⟨.ofRightmost .publicKey [8], [price]⟩
    let i : Instruction := ⟨.ofRightmost .publicKey [9], [.signing (.writable owner),
      .readonly price], [1]⟩
    let i' : Instruction := ⟨i.program, [.readonly price, .signing (.writable owner),
      .readonly price], [2]⟩
    let m : Message := ⟨⟨2, 0, 1⟩, [payer, owner, i.program], .zero .hash, [⟨2, [1, 3], [1]⟩],
      [⟨table.key, [], [0]⟩], .v0⟩
    let m' : Message := { m with instructions := [⟨2, [3, 1, 3], [2]⟩] }
    compile [i] payer (.zero .hash) [table] none = .ok m ∧
      compile [i'] payer (.zero .hash) [table] none = .ok m' ∧ m.header = m'.header ∧
        m.keys = m'.keys ∧ m.lookups = m'.lookups ∧ m.version = m'.version := by
  intro payer owner price table i i' m m'
  have hcompile : compile [i] payer (.zero .hash) [table] none = .ok m :=
    compile_eq_ok.mpr ⟨by simp, by decide, ⟨by decide, by decide⟩, by decide⟩
  have hcompile' : compile [i'] payer (.zero .hash) [table] none = .ok m' :=
    compile_eq_ok.mpr ⟨by simp, by decide, ⟨by decide, by decide⟩, by decide⟩
  have hsubset : ∀ a ∈ i.accounts, a ∈ i'.accounts := by decide
  have hsubset' : ∀ a ∈ i'.accounts, a ∈ i.accounts := by decide
  have hmentions : SameMentions i i' := ⟨rfl, fun a => ⟨hsubset a, hsubset' a⟩⟩
  obtain ⟨hindependent, -, hrequests⟩ := compile_order_independent
  have hforth : ∀ j ∈ [i], ∃ j' ∈ [i'], SameMentions j j' :=
    List.forall_mem_singleton.mpr ⟨i', List.mem_singleton_self i', hmentions⟩
  have hback : ∀ j' ∈ [i'], ∃ j ∈ [i], SameMentions j j' :=
    List.forall_mem_singleton.mpr ⟨i, List.mem_singleton_self i, hmentions⟩
  have haccounts := hindependent [i] [i'] payer (.zero .hash) (.zero .hash) [table] none
    (hrequests [i] [i'] hforth hback)
  exact ⟨hcompile, hcompile', haccounts.of_ok hcompile hcompile'⟩

end Message

end LedgerClient
