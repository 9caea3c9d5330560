import LedgerClient.Fault

/-!
# Guards and kinds of faults

A guard fails with a fault if its condition holds and goes on otherwise. A computation behind
guards succeeds just when every guard lets it pass and what comes after them succeeds, and its
fault is that of a guard or of what comes after them.

A computation of several parts fails with the fault of one of them, so what is known of the faults
of all parts is known of those of the whole.

## Main definitions

* `Fault.IsCodec`, `Fault.IsInvalid`, `Fault.IsCrypto`: the fault is of one of these kinds
* `Fault.Confined`: all faults of a computation are of some kind

## Main results

* `Fault.guard_eq_ok`: when a computation behind a guard succeeds
* `Fault.guard_eq_error`: the faults of a computation behind a guard
* `Fault.bind_eq_ok`: when a computation of two parts succeeds
* `Fault.exceptRun_bind`: a computation of two parts on a state
* `Fault.Confined.bind`, `Fault.Confined.map`: the faults of a computation of several parts
-/

namespace LedgerClient.Fault

variable {α : Type} {c : Prop} [Decidable c] {fault fault' : Fault} {next : Unit → Except Fault α}
  {x : α}

theorem guard_eq_ok :
    (if c then throw fault >>= next else next ()) = .ok x ↔ ¬c ∧ next () = .ok x := by
  split
  · next h => exact ⟨fun hok => (nomatch hok), fun hok => absurd h hok.1⟩
  · next h => exact ⟨fun hok => ⟨h, hok⟩, fun hok => hok.2⟩

theorem guard_eq_error :
    (if c then throw fault >>= next else next ()) = .error fault' ↔
      (c ∧ fault = fault') ∨ (¬c ∧ next () = .error fault') := by
  split
  · next h =>
    constructor
    · intro herr
      cases herr
      exact .inl ⟨h, rfl⟩
    · rintro (⟨-, rfl⟩ | ⟨hno, -⟩)
      · rfl
      · exact absurd h hno
  · next h =>
    constructor
    · exact fun herr => .inr ⟨h, herr⟩
    · rintro (⟨hyes, -⟩ | ⟨-, herr⟩)
      · exact absurd hyes h
      · exact herr

/-- A computation of two parts succeeds just when both do. -/
theorem bind_eq_ok {ε α β : Type} {first : Except ε α} {next : α → Except ε β} {y : β} :
    first >>= next = .ok y ↔ ∃ x, first = .ok x ∧ next x = .ok y := by
  cases first with
  | error fault =>
    constructor
    · intro h
      cases h
    · rintro ⟨x, h, -⟩
      cases h
  | ok x =>
    constructor
    · exact fun h => ⟨x, rfl, h⟩
    · rintro ⟨x', h, hnext⟩
      cases h
      exact hnext

theorem map_eq_ok {ε α β : Type} {first : Except ε α} {f : α → β} {y : β} :
    f <$> first = .ok y ↔ ∃ x, first = .ok x ∧ f x = y := by
  cases first with
  | error fault =>
    constructor
    · intro h
      cases h
    · rintro ⟨x, h, -⟩
      cases h
  | ok x =>
    constructor
    · exact fun h => ⟨x, rfl, Except.ok.inj h⟩
    · rintro ⟨x', h, rfl⟩
      cases h
      rfl

/-- A computation of two parts on a state: what the first has done to it stays done if it fails. -/
theorem exceptRun_bind {ε σ α β : Type} (first : ExceptT ε (StateM σ) α)
    (next : α → ExceptT ε (StateM σ) β) (s : σ) :
    ExceptT.run (first >>= next) s =
      match ExceptT.run first s with
      | (.ok x, s') => ExceptT.run (next x) s'
      | (.error fault, s') => (.error fault, s') := by
  rw [ExceptT.run_bind]
  change StateT.bind (ExceptT.run first) _ s = _
  unfold StateT.bind
  rcases ExceptT.run first s with ⟨_ | _, s'⟩ <;> rfl

/-- The fault is one of the codec. -/
def IsCodec (fault : Fault) : Prop :=
  ∃ cause, fault = .codec cause

/-- The fault is a broken precondition. -/
def IsInvalid (fault : Fault) : Prop :=
  ∃ cause, fault = .invalid cause

/-- The fault is one of keys and signatures. -/
def IsCrypto (fault : Fault) : Prop :=
  ∃ cause, fault = .crypto cause

/-- All faults of a computation are of some kind. -/
def Confined (kind : Fault → Prop) (x : Except Fault α) : Prop :=
  ∀ fault, x = .error fault → kind fault

namespace Confined

variable {β : Type} {kind : Fault → Prop} {x : Except Fault α}

theorem ok (a : α) : Confined kind (.ok a) := by
  intro fault h
  cases h

theorem error (h : kind fault) : Confined kind (.error fault : Except Fault α) := by
  intro fault' h'
  cases h'
  exact h

theorem bind {f : α → Except Fault β} (hx : Confined kind x) (hf : ∀ a, Confined kind (f a)) :
    Confined kind (x >>= f) := by
  intro fault h
  cases x with
  | error first =>
    cases h
    exact hx _ rfl
  | ok a => exact hf a fault h

/-- What is done with a value cannot fail, so it does not matter. -/
theorem bind_pure_iff {f : α → β} :
    Confined kind (x >>= fun a => return f a) ↔ Confined kind x := by
  constructor
  · intro hx fault h
    apply hx
    rw [h]
    rfl
  · intro hx
    apply hx.bind
    intro a
    exact ok (f a)

theorem mono {kind' : Fault → Prop} (hx : Confined kind x) (h : ∀ fault, kind fault → kind' fault) :
    Confined kind' x :=
  fun fault hfault => h fault (hx fault hfault)

theorem map {f : α → β} (hx : Confined kind x) : Confined kind (f <$> x) := by
  intro fault h
  cases x with
  | error first =>
    cases h
    exact hx _ rfl
  | ok a => cases h

end Confined

end LedgerClient.Fault
