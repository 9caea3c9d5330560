import LedgerClient.Program.Draft
import LedgerClient.Proofs.Fault

/-!
# Complete drafts

A draft is typed when the fields that are set hold what their names say: keys, numbers, texts. A
typed draft without missing fields has an action, so all that can still refuse it is the check of
that action, and then the codec. The check is passed or broken before anything is written.

## Main definitions

* `Given.Kind`, `Given.kind`, `Template.kindOf`: what a field holds, and what it should hold
* `Draft.Typed`: a draft whose fields hold what they should
* `Draft.check`: the check of a draft before it is built

## Main results

* `Draft.Typed.exists_action`: a typed draft without missing fields has an action
* `Draft.Typed.check_cases`: the check passes, or a precondition is broken
-/

namespace LedgerClient

open Fault (Confined IsInvalid)

/-! ## What actions are refused for -/

theorem System.Action.confined_check (action : System.Action) :
    Confined IsInvalid action.check := by
  cases action with
  | createAccountWithSeed payer account base seed lamports space owner =>
    rw [System.Action.check]
    split
    · exact Confined.error ⟨_, rfl⟩
    · exact Confined.ok ()
  | _ => exact Confined.ok ()

theorem Token.Order.confined_check (order : Token.Order) : Confined IsInvalid order.check := by
  rw [Token.Order.check]
  split
  · exact Confined.ok ()
  · split
    · exact Confined.error ⟨_, rfl⟩
    · split
      · exact Confined.error ⟨_, rfl⟩
      · split
        · exact Confined.error ⟨_, rfl⟩
        · exact Confined.ok ()

/-! ## Typed drafts -/

/-- What a field of a draft may hold. -/
inductive Given.Kind
  | key
  | keys
  | number
  | text
  | flag
  deriving DecidableEq

/-- What the value of a field is. -/
def Given.kind : Given → Given.Kind
  | .key _ => .key
  | .keys _ => .keys
  | .number _ => .number
  | .text _ => .text
  | .flag _ => .flag

/-- What a field holds, by its name. -/
def Template.kindOf (name : String) : Given.Kind :=
  if name ∈ ["lamports", "space", "bytes_", "units", "micro_lamports", "decimals", "amount",
    "authority_type"] then .number
  else if name ∈ ["seed", "message"] then .text
  else if name ∈ ["signers", "multisig_signers"] then .keys
  else if name = "idempotent" then .flag
  else .key

namespace Draft

variable {draft : Draft} {action : Action} {name : String}

/-- Every field of the template that is set holds what its name says. -/
def Typed (draft : Draft) : Prop :=
  ∀ name ∈ draft.template.required ++ draft.template.optional,
    ∀ value ∈ draft.get? name, value.kind = Template.kindOf name

instance (draft : Draft) : Decidable draft.Typed :=
  inferInstanceAs (Decidable (∀ name ∈ draft.template.required ++ draft.template.optional,
    ∀ value ∈ draft.get? name, value.kind = Template.kindOf name))

/-! ## Fields -/

theorem key?_eq_some {key : PublicKey} :
    draft.key? name = some key ↔ draft.get? name = some (.key key) := by
  rw [key?]
  split
  · next found h => rw [h, Option.some.injEq, Option.some.injEq, Given.key.injEq]
  · next h =>
    apply iff_of_false
    · exact nofun
    · exact h key

theorem number?_eq_some {n : Int} :
    draft.number? name = some n ↔ draft.get? name = some (.number n) := by
  rw [number?]
  split
  · next found h => rw [h, Option.some.injEq, Option.some.injEq, Given.number.injEq]
  · next h =>
    apply iff_of_false
    · exact nofun
    · exact h n

theorem text?_eq_some {text : String} :
    draft.text? name = some text ↔ draft.get? name = some (.text text) := by
  rw [text?]
  split
  · next found h => rw [h, Option.some.injEq, Option.some.injEq, Given.text.injEq]
  · next h =>
    apply iff_of_false
    · exact nofun
    · exact h text

/-! ## Actions -/

/-- A required field of a typed draft without missing fields holds a value of its kind. -/
theorem Typed.exists_get? (htyped : draft.Typed) (hmissing : draft.missing = [])
    (hname : name ∈ draft.template.required) :
    ∃ value, draft.get? name = some value ∧ value.kind = Template.kindOf name := by
  have hset := List.filter_eq_nil_iff.mp hmissing name hname
  rw [Option.isNone_iff_eq_none] at hset
  obtain ⟨value, hvalue⟩ := Option.ne_none_iff_exists'.mp hset
  exact ⟨value, hvalue, htyped name (List.mem_append_left _ hname) value hvalue⟩

/-- What the required fields of a typed draft without missing fields hold. -/
theorem Typed.exists_values (htyped : draft.Typed) (hmissing : draft.missing = []) :
    ∃ (keyAt : String → PublicKey) (numberAt : String → Int) (textAt : String → String),
      ∀ name ∈ draft.template.required, match Template.kindOf name with
        | .key => draft.key? name = some (keyAt name)
        | .number => draft.number? name = some (numberAt name)
        | .text => draft.text? name = some (textAt name)
        | .keys | .flag => True := by
  refine ⟨fun name => (draft.key? name).getD (.zero _), fun name => (draft.number? name).getD 0,
    fun name => (draft.text? name).getD "", fun name hname => ?_⟩
  obtain ⟨value, hvalue, hkind⟩ := htyped.exists_get? hmissing hname
  rw [← hkind]
  cases value with
  | key key =>
    have hkey := key?_eq_some.mpr hvalue
    simp only [Given.kind, hkey, Option.getD_some]
  | number n =>
    have hnumber := number?_eq_some.mpr hvalue
    simp only [Given.kind, hnumber, Option.getD_some]
  | text text =>
    have htext := text?_eq_some.mpr hvalue
    simp only [Given.kind, htext, Option.getD_some]
  | keys keys => trivial
  | flag b => trivial

/-- **A typed draft without missing fields has an action.** -/
theorem Typed.exists_action (htyped : draft.Typed) (hmissing : draft.missing = []) :
    ∃ action, draft.action? = some action := by
  obtain ⟨keyAt, numberAt, textAt, hset⟩ := htyped.exists_values hmissing
  cases htemplate : draft.template <;>
    simp [htemplate, Template.required, Template.kindOf] at hset <;>
    simp [action?, tokenAction?, htemplate, hset]

/-! ## Checks -/

/-- What an action is refused for before anything is written. -/
def Action.check : Action → Except Fault Unit
  | .system action => action.check
  | .token order => order.check
  | .computeBudget _ | .memo _ | .associatedToken _ => .ok ()

/-- The check of a draft: its required fields are set, and its action is not refused. -/
def check (draft : Draft) : Except Fault Unit :=
  if draft.missing.isEmpty then
    match draft.action? with
    | some action => action.check
    | none => .error (.misuse .type)
  else .error (.invalid (.missingFields draft.template.path.2 draft.missing))

theorem check_of_action (hmissing : draft.missing = []) (haction : draft.action? = some action) :
    draft.check = action.check := by
  rw [check, hmissing, haction]
  rfl

theorem build_of_action (hash : Bytes → Hash) (hmissing : draft.missing = [])
    (haction : draft.action? = some action) : draft.build hash = action.build hash := by
  rw [build, hmissing, haction]
  rfl

theorem check_eq_ok : draft.check = .ok () ↔
    draft.missing = [] ∧ ∃ action, draft.action? = some action ∧ action.check = .ok () := by
  constructor
  · intro h
    have hmissing : draft.missing = [] := by
      rw [check] at h
      split at h
      · next hempty => exact List.isEmpty_iff.mp hempty
      · cases h
    refine ⟨hmissing, ?_⟩
    cases haction : draft.action? with
    | none =>
      rw [check, hmissing, haction] at h
      cases h
    | some action =>
      rw [check_of_action hmissing haction] at h
      exact ⟨action, rfl, h⟩
  · rintro ⟨hmissing, action, haction, hcheck⟩
    rw [check_of_action hmissing haction, hcheck]

/-- An action that is refused breaks a precondition. -/
theorem Action.confined_check (action : Action) : Confined IsInvalid action.check := by
  cases action with
  | system action => exact action.confined_check
  | token order => exact order.confined_check
  | computeBudget action => exact Confined.ok ()
  | memo memo => exact Confined.ok ()
  | associatedToken creation => exact Confined.ok ()

/-- **A typed draft passes its check, or it breaks a precondition.** -/
theorem Typed.check_cases (htyped : draft.Typed) :
    draft.check = .ok () ∨ ∃ cause, draft.check = .error (.invalid cause) := by
  by_cases hmissing : draft.missing = []
  · obtain ⟨action, haction⟩ := htyped.exists_action hmissing
    rw [check_of_action hmissing haction]
    cases hcheck : action.check with
    | ok => exact .inl rfl
    | error fault =>
      obtain ⟨cause, rfl⟩ := action.confined_check fault hcheck
      exact .inr ⟨cause, rfl⟩
  · right
    rw [check, if_neg (hmissing ∘ List.isEmpty_iff.mp)]
    exact ⟨_, rfl⟩

end Draft

end LedgerClient
