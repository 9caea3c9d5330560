import LedgerClient.Proofs.Message.Limits
import LedgerClient.Proofs.Program.Draft
import LedgerClient.Proofs.Transaction.Slots

/-!
# Who signs for an authority

Eight templates of the token program need an authority. Without further signers it signs itself;
with them it does not, and they sign in its place. The accounts before the authority never sign, so
the signers of the instruction are known from the draft, whatever accounts coincide. A message joins
the mentions of one account, and signs with an account just when some mention of it does; its
signers are therefore the payer and the signers of the instruction.

## Main definitions

* `Token.Order.signing`: who signs for an authority
* `Template.authorityField?`: the field of the authority that a template needs
* `Draft.signers`: the signers that a draft lists

## Main results

* `Token.Order.check_eq_ok`: which signers an authority can have
* `Token.Order.signing_accounts`: who signs in the instruction of an order
* `Draft.exists_order`: the authority and the signers of a draft are those of its order
* `Message.mem_signers_of_compile`: the signers of a compiled message
* `Draft.authority_signs`: who may sign for an authority, and who does
-/

namespace LedgerClient

open Fault (Confined IsInvalid)

/-! ## Orders -/

namespace Token

variable {order : Order} {role : String} {authority : PublicKey}

/-- The accounts before the authority do not sign. -/
theorem Action.isSigner_accounts (action : Action) : ∀ a ∈ action.accounts, a.isSigner = false := by
  cases action <;> simp [accounts, AccountMeta.writable, AccountMeta.readonly]

theorem Action.length_accounts_le (action : Action) : action.accounts.length ≤ 3 := by
  cases action <;> simp [accounts]

namespace Order

/-- **An authority can have at most eleven signers**, all different, and not itself. -/
theorem check_eq_ok (h : order.action.authority? = some (role, authority)) :
    order.check = .ok () ↔
      ¬(11 < order.signers.length ∨ ¬order.signers.Nodup ∨ authority ∈ order.signers) := by
  rw [check, h]
  dsimp only
  split
  · next hmany =>
    apply iff_of_false
    · intro hok
      cases hok
    · exact not_not_intro (.inl hmany)
  · next hfew =>
    split
    · next hrepeated =>
      apply iff_of_false
      · intro hok
        cases hok
      · exact not_not_intro (.inr (.inl hrepeated))
    · next hdifferent =>
      split
      · next hown =>
        apply iff_of_false
        · intro hok
          cases hok
        · exact not_not_intro (.inr (.inr hown))
      · next hother =>
        apply iff_of_true rfl
        rintro (hmany | hrepeated | hown)
        · exact hfew hmany
        · exact hdifferent hrepeated
        · exact hother hown

/-- What is built has passed the check, and its accounts are those of the order. -/
theorem of_build {i : Instruction} (h : order.build = .ok i) :
    order.check = .ok () ∧ i.accounts = order.accounts := by
  rw [build] at h
  cases hcheck : order.check with
  | error fault =>
    rw [hcheck] at h
    cases h
  | ok =>
    rw [hcheck] at h
    cases hbytes : order.action.payload.bytes with
    | error fault =>
      rw [hbytes] at h
      cases h
    | ok data =>
      rw [hbytes] at h
      cases h
      exact ⟨rfl, rfl⟩

/-- Who signs for an authority: the listed signers, or the authority if none are listed. -/
def signing (authority : PublicKey) (signers : List PublicKey) : List PublicKey :=
  if signers = [] then [authority] else signers

/-- The authority signs as the last account if it has no signers. Else it does not, and all of them
sign behind it. Nobody of them may be changed. -/
theorem authorityMetas_eq (authority : PublicKey) (signers : List PublicKey) :
    authorityMetas authority signers = if signers = [] then [⟨authority, true, false⟩]
      else ⟨authority, false, false⟩ :: signers.map fun key => ⟨key, true, false⟩ := by
  cases signers <;> rfl

theorem accounts_eq (h : order.action.authority? = some (role, authority)) :
    order.accounts = order.action.accounts ++ authorityMetas authority order.signers := by
  rw [accounts, h]

theorem length_accounts_le (h : order.action.authority? = some (role, authority))
    (hcheck : order.check = .ok ()) : order.accounts.length ≤ 15 := by
  have hbefore := order.action.length_accounts_le
  have hfew := not_or.mp ((check_eq_ok h).mp hcheck)
  rw [accounts_eq h, authorityMetas_eq, List.length_append]
  split
  · rw [List.length_singleton]
    omega
  · rw [List.length_cons, List.length_map]
    omega

/-- **Those who sign** are known from the signers that are listed, whatever accounts coincide. -/
theorem signing_accounts (h : order.action.authority? = some (role, authority)) :
    (order.accounts.filter (·.isSigner)).map (·.key) = signing authority order.signers := by
  have hbefore : order.action.accounts.filter (·.isSigner) = [] := by
    rw [List.filter_eq_nil_iff]
    intro a ha
    rw [order.action.isSigner_accounts a ha]
    exact Bool.false_ne_true
  rw [accounts_eq h, List.filter_append, hbefore, List.nil_append, authorityMetas_eq, signing]
  split
  · rfl
  · have hall : (order.signers.map fun key => (⟨key, true, false⟩ : AccountMeta)).filter
        (·.isSigner) = order.signers.map fun key => ⟨key, true, false⟩ := by
      rw [List.filter_map]
      exact congrArg _ (List.filter_eq_self.mpr fun _ _ => rfl)
    rw [List.filter_cons_of_neg Bool.false_ne_true, hall, List.map_map]
    exact List.map_id _

end Order

end Token

/-! ## Drafts -/

/-- The field of the authority that a template needs. -/
def Template.authorityField? : Template → Option String
  | .transferTokens | .transferChecked | .burnChecked | .closeAccount | .revoke => some "owner"
  | .mintToChecked => some "authority"
  | .thawAccount => some "freeze_authority"
  | .setAuthority => some "current_authority"
  | _ => none

namespace Draft

variable {draft : Draft} {action : Action} {role : String} {authority : PublicKey}

/-- The signers that a draft lists for a multisig authority. -/
def signers (draft : Draft) : List PublicKey :=
  (draft.keys? "multisig_signers").getD []

/-- **The authority of a draft** is that of its order, and so are the signers. -/
theorem exists_order (haction : draft.action? = some action)
    (hrole : draft.template.authorityField? = some role) :
    ∃ order authority, action = .token order ∧ order.signers = draft.signers ∧
      order.action.authority? = some (role, authority) ∧
        draft.key? role = some authority := by
  obtain ⟨template, fields⟩ := draft
  cases template <;> cases hrole <;>
    simp only [action?, tokenAction?, Option.bind_eq_bind, Option.bind_eq_some_iff,
      Option.pure_def, Option.some.injEq] at haction
  case transferTokens =>
    obtain ⟨_, ⟨_, -, _, -, owner, howner, _, -, rfl⟩, rfl⟩ := haction
    exact ⟨_, owner, rfl, rfl, rfl, howner⟩
  case transferChecked =>
    obtain ⟨_, ⟨_, -, _, -, _, -, owner, howner, _, -, _, -, rfl⟩, rfl⟩ := haction
    exact ⟨_, owner, rfl, rfl, rfl, howner⟩
  case mintToChecked | burnChecked =>
    obtain ⟨_, ⟨_, -, _, -, owner, howner, _, -, _, -, rfl⟩, rfl⟩ := haction
    exact ⟨_, owner, rfl, rfl, rfl, howner⟩
  case closeAccount | thawAccount =>
    obtain ⟨_, ⟨_, -, _, -, owner, howner, rfl⟩, rfl⟩ := haction
    exact ⟨_, owner, rfl, rfl, rfl, howner⟩
  case revoke =>
    obtain ⟨_, ⟨_, -, owner, howner, rfl⟩, rfl⟩ := haction
    exact ⟨_, owner, rfl, rfl, rfl, howner⟩
  case setAuthority =>
    obtain ⟨_, ⟨_, -, owner, howner, _, -, rfl⟩, rfl⟩ := haction
    exact ⟨_, owner, rfl, rfl, rfl, howner⟩

end Draft

/-! ## Messages -/

namespace Message

variable {ixs : List Instruction} {payer key : PublicKey} {blockhash : Hash}
  {tables : List LookupTable} {version : Option Version} {m : Message} {i : Instruction}

/-- The signers of a compiled message are those of its plan. -/
theorem signers_of_compile (h : compile ixs payer blockhash tables version = .ok m) :
    m.signers = (Plan.of ixs payer (LookupTable.mapping tables)).writableSigners ++
      (Plan.of ixs payer (LookupTable.mapping tables)).readonlySigners := by
  have hissued : m.Issued := .inr ⟨ixs, payer, blockhash, tables, version, h⟩
  obtain ⟨-, -, -, hm⟩ := compile_eq_ok.mp h
  have hcount := Plan.signerCount_eq (Plan.of ixs payer (LookupTable.mapping tables))
  rw [hissued.signers_eq, ← hm, Plan.signers_message, Plan.keys_message, Int.toNat_natCast,
    Plan.listed, List.append_assoc, hcount, ← List.length_append]
  exact List.take_left

/-- **The signers of a compiled message** are the payer and the accounts that some mention wants to
sign, each of them once. -/
theorem mem_signers_of_compile (h : compile ixs payer blockhash tables version = .ok m) :
    m.signers.Nodup ∧ ∀ key, key ∈ m.signers ↔ key = payer ∨ WantsSigner ixs key := by
  rw [signers_of_compile h]
  refine ⟨Plan.nodup_signers, fun key => ?_⟩
  exact (Plan.mem_signers.trans (and_iff_right_of_imp mem_mentions_of_isSigner)).trans
    usage_isSigner

/-- What one instruction wants to sign are the accounts that it flags. -/
theorem wantsSigner_singleton :
    WantsSigner [i] key ↔ key ∈ (i.accounts.filter (·.isSigner)).map (·.key) := by
  simp only [WantsSigner, List.mem_singleton, exists_eq_left, List.mem_map, List.mem_filter]
  refine exists_congr fun a => ?_
  rw [and_right_comm, and_assoc]

/-- One instruction with few accounts compiles, unless tables are given for a legacy message. -/
theorem exists_compile (hlegacy : ¬(tables ≠ [] ∧ version = some .legacy))
    (hfew : i.accounts.length ≤ 253) :
    ∃ m, compile [i] payer blockhash tables version = .ok m := by
  have hmentions : (mentions [i] payer).length = i.accounts.length + 2 := by
    simp [mentions]
  have hmentioned : (mentioned [i] payer).card ≤ 255 := by
    have hcard := List.toFinset_card_le (mentions [i] payer)
    rw [mentioned]
    omega
  have hsigning : (signing [i] payer).card ≤ (mentioned [i] payer).card :=
    Finset.card_filter_le _ _
  obtain ⟨-, -, haccepted⟩ := compile_limits [i] payer blockhash tables version
  obtain ⟨m, hm, -⟩ := haccepted (by
    rintro (hrefused | hmany | hsigners)
    · exact hlegacy hrefused
    · omega
    · omega)
  exact ⟨m, hm⟩

end Message

/-! ## Signing for an authority -/

namespace Draft

variable {draft : Draft} {role : String} {authority : PublicKey} {i : Instruction}

/-- **Who signs for an authority.** A typed draft that needs an authority and has no missing fields
breaks a precondition just when it lists more than eleven signers, one of them twice or the
authority among them. In its instruction the accounts before the authority do not sign. Behind them
stands the authority, which signs if no signers are listed; else it does not, and the listed ones
follow it and sign, all of them read-only. The message of this instruction alone exists, unless
tables are given for a legacy one, and its signers are the payer and those who sign. -/
theorem authority_signs (hash : Bytes → Hash) (draft : Draft) (role : String)
    (hrole : draft.template.authorityField? = some role) (htyped : draft.Typed)
    (hmissing : draft.missing = []) :
    ∃ authority, draft.get? role = some (.key authority) ∧
      ((∃ cause, draft.check = .error (.invalid cause)) ↔
        11 < draft.signers.length ∨ ¬draft.signers.Nodup ∨ authority ∈ draft.signers) ∧
      (draft.check = .ok () ∨ ∃ cause, draft.check = .error (.invalid cause)) ∧
      ∀ i, draft.build hash = .ok i →
        (i.accounts.filter (·.isSigner)).map (·.key) = Token.Order.signing authority draft.signers ∧
        (∃ before, (∀ a ∈ before, a.isSigner = false) ∧
          i.accounts = before ++ if draft.signers = [] then [⟨authority, true, false⟩]
            else ⟨authority, false, false⟩ :: draft.signers.map fun key => ⟨key, true, false⟩) ∧
        ∀ payer blockhash tables version, ¬(tables ≠ [] ∧ version = some .legacy) →
          ∃ m, Message.compile [i] payer blockhash tables version = .ok m ∧ m.signers.Nodup ∧
            ∀ key, key ∈ m.signers ↔
              key = payer ∨ key ∈ Token.Order.signing authority draft.signers := by
  obtain ⟨action, haction⟩ := htyped.exists_action hmissing
  obtain ⟨order, authority, rfl, hsigners, hauthority, hkey⟩ := exists_order haction hrole
  have hcheck : draft.check = order.check := check_of_action hmissing haction
  have hpassed := Token.Order.check_eq_ok hauthority
  rw [hsigners, ← hcheck] at hpassed
  refine ⟨authority, key?_eq_some.mp hkey, ?_, htyped.check_cases, ?_⟩
  · constructor
    · rintro ⟨cause, hcause⟩
      by_contra hnone
      rw [hpassed.mpr hnone] at hcause
      cases hcause
    · intro hbroken
      exact htyped.check_cases.resolve_left fun hok => hpassed.mp hok hbroken
  · intro i hbuild
    have hbuild : order.build = .ok i := (build_of_action hash hmissing haction).symm.trans hbuild
    obtain ⟨hok, haccounts⟩ := Token.Order.of_build hbuild
    have hsigning : (i.accounts.filter (·.isSigner)).map (·.key) =
        Token.Order.signing authority draft.signers := by
      rw [haccounts, Token.Order.signing_accounts hauthority, hsigners]
    refine ⟨hsigning, ⟨order.action.accounts, order.action.isSigner_accounts, ?_⟩, ?_⟩
    · rw [haccounts, Token.Order.accounts_eq hauthority, Token.Order.authorityMetas_eq, hsigners]
    · intro payer blockhash tables version hlegacy
      have hlength := Token.Order.length_accounts_le hauthority hok
      have hfew : i.accounts.length ≤ 253 := by
        rw [haccounts]
        omega
      obtain ⟨m, hm⟩ := Message.exists_compile hlegacy hfew
      obtain ⟨hnodup, hsigner⟩ := Message.mem_signers_of_compile hm
      refine ⟨m, hm, hnodup, fun key => ?_⟩
      rw [hsigner, Message.wantsSigner_singleton, hsigning]

/-- Two listed signers sign for the owner of an account that also pays. -/
theorem authority_signs_two_signers :
    let key (n : UInt8) : PublicKey := ⟨List.replicate 32 n, rfl⟩
    let draft : Draft := ⟨.transferTokens, [("source", .key (key 1)), ("destination", .key (key 2)),
      ("owner", .key (key 3)), ("amount", .number 5), ("multisig_signers", .keys [key 4, key 5])]⟩
    draft.template.authorityField? = some "owner" ∧ draft.Typed ∧ draft.missing = [] ∧
      ∃ i m, draft.build (fun _ => .zero .hash) = .ok i ∧
        Message.compile [i] (key 1) (.zero .hash) [] none = .ok m ∧ m.signers.Nodup ∧
          ∀ k, k ∈ m.signers ↔ k = key 1 ∨ k ∈ [key 4, key 5] := by
  intro key draft
  have hrole : draft.template.authorityField? = some "owner" := rfl
  have htyped : draft.Typed := by decide
  have hmissing : draft.missing = [] := by decide
  obtain ⟨authority, -, -, -, hbuilt⟩ :=
    authority_signs (fun _ => .zero .hash) draft "owner" hrole htyped hmissing
  obtain ⟨i, hbuild⟩ : ∃ i, draft.build (fun _ => .zero .hash) = .ok i := ⟨_, rfl⟩
  obtain ⟨-, -, hcompiled⟩ := hbuilt i hbuild
  obtain ⟨m, hm, hnodup, hsigners⟩ := hcompiled (key 1) (.zero .hash) [] none (by simp)
  exact ⟨hrole, htyped, hmissing, i, m, hbuild, hm, hnodup, hsigners⟩

end Draft

end LedgerClient
