import LedgerClient.Proofs.Fault
import LedgerClient.Proofs.Wire.CompactU16
import LedgerClient.Proofs.Wire.IntKind
import LedgerClient.Wire.Writer

/-!
# What writes append

Every write of the wire format only appends, and what it appends does not depend on the bytes
that are there already. The bytes of a sequence of such writes are therefore the bytes of its
parts one after the other, and it succeeds just when all of its parts do.

## Main definitions

* `Write.Appends`: the write appends, whatever is there already
* `Write.Succeeds`: the write has bytes
* `Write.FailsWith`: the write fails with faults of one kind only
* `Write.Refuses`: the write fails with codec faults only

## Main results

* `Write.run_seq`: the bytes of two writes in sequence
* `Write.succeeds_array`: when items can be written after their number
-/

namespace LedgerClient.Write

open Fault (exceptRun_bind)

variable {α : Type} {w w' : Write} {write : α → Write} {kind : IntKind} {bs : Bytes}
  {P : Fault → Prop}

/-- The write appends, and what it appends does not depend on what is there already. -/
def Appends (w : Write) : Prop :=
  ∀ written : Bytes,
    ExceptT.run w written = ((ExceptT.run w []).1, written ++ (ExceptT.run w []).2)

/-- The write has bytes. -/
def Succeeds (w : Write) : Prop :=
  ∃ bs, w.run = .ok bs

/-- The write fails with faults of this kind only. -/
def FailsWith (P : Fault → Prop) (w : Write) : Prop :=
  ∀ fault, w.run = .error fault → P fault

/-- The write fails with codec faults only. -/
def Refuses (w : Write) : Prop :=
  ∀ fault, w.run = .error fault → ∃ cause, fault = .codec cause

/-! ## Sequences -/

theorem Appends.seq (h : Appends w) (h' : Appends w') : Appends (w >>= fun _ => w') := by
  intro written
  -- The first write has the same outcome on `written` as on nothing, and so has the second.
  rw [exceptRun_bind, exceptRun_bind, h written]
  rcases ExceptT.run w [] with ⟨_ | _, first⟩
  · rfl
  · simp only
    rw [h' (written ++ first), h' first, List.append_assoc]

/-- **The bytes of two writes in sequence** are theirs one after the other. -/
theorem run_seq (h' : Appends w') :
    run (w >>= fun _ => w') = do return (← w.run) ++ (← w'.run) := by
  unfold run
  rw [exceptRun_bind]
  rcases ExceptT.run w [] with ⟨_ | _, first⟩
  · rfl
  · simp only
    rw [h' first]
    rcases ExceptT.run w' [] with ⟨_ | _, second⟩ <;> rfl

theorem run_seq_eq_ok (h' : Appends w') :
    run (w >>= fun _ => w') = .ok bs ↔ ∃ a b, w.run = .ok a ∧ w'.run = .ok b ∧ a ++ b = bs := by
  rw [run_seq h']
  rcases w.run with _ | a <;> rcases w'.run with _ | b <;>
    simp [bind, Except.bind, pure, Except.pure]

theorem succeeds_seq (h' : Appends w') :
    Succeeds (w >>= fun _ => w') ↔ Succeeds w ∧ Succeeds w' := by
  simp only [Succeeds, run_seq_eq_ok h']
  constructor
  · rintro ⟨-, a, b, ha, hb, -⟩
    exact ⟨⟨a, ha⟩, b, hb⟩
  · rintro ⟨⟨a, ha⟩, b, hb⟩
    exact ⟨a ++ b, a, b, ha, hb, rfl⟩

theorem Refuses.exists_codec_iff (h : Refuses w) :
    (∃ cause, w.run = .error (.codec cause)) ↔ ¬Succeeds w := by
  constructor
  · rintro ⟨cause, herror⟩ ⟨bs, hok⟩
    rw [herror] at hok
    cases hok
  · intro hnot
    cases hrun : w.run with
    | error fault =>
      obtain ⟨cause, rfl⟩ := h fault hrun
      exact ⟨cause, rfl⟩
    | ok bs => exact absurd ⟨bs, hrun⟩ hnot

theorem Succeeds.failsWith (h : Succeeds w) : FailsWith P w := by
  obtain ⟨bs, hok⟩ := h
  intro fault hfault
  rw [hok] at hfault
  cases hfault

theorem FailsWith.seq (h' : Appends w') (hw : FailsWith P w) (hw' : FailsWith P w') :
    FailsWith P (w >>= fun _ => w') := by
  intro fault hfault
  rw [run_seq h'] at hfault
  cases hfirst : w.run with
  | error first =>
    rw [hfirst] at hfault
    cases hfault
    exact hw _ hfirst
  | ok a =>
    cases hsecond : w'.run with
    | error second =>
      rw [hfirst, hsecond] at hfault
      cases hfault
      exact hw' _ hsecond
    | ok b =>
      rw [hfirst, hsecond] at hfault
      cases hfault

theorem Refuses.seq (h' : Appends w') (hw : Refuses w) (hw' : Refuses w') :
    Refuses (w >>= fun _ => w') :=
  FailsWith.seq h' hw hw'

/-! ## Single writes -/

@[simp] theorem appends_pure : Appends (pure ()) := fun written => by
  change (_, written) = (_, written ++ [])
  rw [List.append_nil]
  rfl

@[simp] theorem appends_throw (fault : Fault) : Appends (throw fault) := fun written => by
  change (_, written) = (_, written ++ [])
  rw [List.append_nil]
  rfl

@[simp] theorem appends_bytes (bs : Bytes) : Appends (bytes bs) := fun _ => rfl

@[simp] theorem run_pure : run (pure ()) = .ok [] := rfl

@[simp] theorem refuses_pure : Refuses (pure ()) := fun _ h => nomatch h

@[simp] theorem run_throw (fault : Fault) : run (throw fault) = .error fault := rfl

@[simp] theorem run_bytes (bs : Bytes) : (bytes bs).run = .ok bs := rfl

@[simp] theorem refuses_bytes (bs : Bytes) : Refuses (bytes bs) :=
  fun _ h => nomatch h

@[simp] theorem appends_integer (kind : IntKind) (n : Int) : Appends (integer kind n) := by
  unfold integer
  split <;> simp

theorem run_integer_eq_ok {n : Int} :
    (integer kind n).run = .ok bs ↔ kind.encode? n = some bs := by
  unfold integer
  split <;> simp_all

@[simp] theorem succeeds_integer {n : Int} : Succeeds (integer kind n) ↔ kind.Holds n := by
  simp [Succeeds, run_integer_eq_ok, IntKind.encode?_eq_some]

@[simp] theorem refuses_integer (kind : IntKind) (n : Int) : Refuses (integer kind n) := by
  unfold integer Refuses
  split <;> simp_all

@[simp] theorem appends_key {kind : KeyKind} (k : Key kind) : Appends (key k) :=
  appends_bytes _

@[simp] theorem run_key {kind : KeyKind} (k : Key kind) : (key k).run = .ok k.bytes := rfl

@[simp] theorem refuses_key {kind : KeyKind} (k : Key kind) : Refuses (key k) :=
  fun _ h => nomatch h

@[simp] theorem appends_compact (n : Int) : Appends (compact n) := by
  unfold compact
  split <;> simp

@[simp] theorem run_compact (n : Int) : (compact n).run = CompactU16.encode n := by
  unfold compact
  split <;> simp_all

@[simp] theorem succeeds_compact {n : Nat} : Succeeds (compact n) ↔ n ≤ 0xFFFF := by
  simp [Succeeds, CompactU16.encode_eq_ok]

@[simp] theorem refuses_compact (n : Int) : Refuses (compact n) := by
  intro fault h
  rw [run_compact, CompactU16.encode] at h
  split at h
  · cases h
  · exact ⟨_, (Except.error.inj h).symm⟩

@[simp] theorem appends_compactBytes (bs : Bytes) : Appends (compactBytes bs) :=
  (appends_compact _).seq (appends_bytes bs)

theorem run_compactBytes_eq_ok {x : Bytes} :
    (compactBytes x).run = .ok bs ↔
      ∃ a, CompactU16.encode x.length = .ok a ∧ a ++ x = bs := by
  simp [compactBytes, run_seq_eq_ok]

@[simp] theorem succeeds_compactBytes : Succeeds (compactBytes bs) ↔ bs.length ≤ 0xFFFF := by
  rw [compactBytes, succeeds_seq (appends_bytes bs), succeeds_compact]
  simp [Succeeds]

@[simp] theorem refuses_compactBytes (bs : Bytes) : Refuses (compactBytes bs) :=
  (refuses_compact _).seq (appends_bytes bs) (refuses_bytes bs)

@[simp] theorem appends_bool (b : Bool) : Appends (bool b) := appends_integer _ _

@[simp] theorem run_bool (b : Bool) : (bool b).run = .ok [if b then 1 else 0] := by
  cases b <;> rfl

@[simp] theorem refuses_bool (b : Bool) : Refuses (bool b) := refuses_integer _ _

@[simp] theorem appends_string (text : String) : Appends (string text) :=
  (appends_integer _ _).seq (appends_bytes _)

theorem run_string_eq_ok {text : String} :
    (string text).run = .ok bs ↔
      ∃ a, (integer .u64 (Utf8.encode text).length).run = .ok a ∧ a ++ Utf8.encode text = bs := by
  simp [string, run_seq_eq_ok]

theorem appends_option (h : ∀ x, Appends (write x)) (x : Option α) :
    Appends (option write x) := by
  cases x with
  | none => exact appends_bool false
  | some x => exact (appends_bool true).seq (h x)

theorem run_option_none : (option write none).run = .ok [0] := rfl

theorem run_option_some_eq_ok (h : ∀ x, Appends (write x)) {x : α} :
    (option write (some x)).run = .ok bs ↔ ∃ a, (write x).run = .ok a ∧ 1 :: a = bs := by
  simp [option, run_seq_eq_ok (h x)]

theorem succeeds_option (h : ∀ x, Appends (write x)) {x : Option α} :
    Succeeds (option write x) ↔ ∀ y ∈ x, Succeeds (write y) := by
  cases x with
  | none => exact iff_of_true ⟨_, run_option_none⟩ nofun
  | some y =>
    have hthere : Succeeds (bool true) := ⟨_, run_bool true⟩
    rw [option, succeeds_seq (h y), and_iff_right hthere]
    simp only [Option.mem_some_iff, forall_eq']

theorem refuses_option (h : ∀ x, Appends (write x)) (hr : ∀ x, Refuses (write x)) (x : Option α) :
    Refuses (option write x) := by
  cases x with
  | none => exact refuses_bool false
  | some x => exact (refuses_bool true).seq (h x) (hr x)

/-! ## Items -/

section Items

variable {xs : List α}

@[simp] theorem run_each_nil : (each write []).run = .ok [] := rfl

theorem appends_each (h : ∀ x, Appends (write x)) (xs : List α) : Appends (each write xs) := by
  induction xs with
  | nil => exact appends_pure
  | cons x xs ih => exact (h x).seq ih

theorem run_each_cons_eq_ok (h : ∀ x, Appends (write x)) {x : α} :
    (each write (x :: xs)).run = .ok bs ↔
      ∃ a b, (write x).run = .ok a ∧ (each write xs).run = .ok b ∧ a ++ b = bs :=
  run_seq_eq_ok (appends_each h xs)

theorem succeeds_each (h : ∀ x, Appends (write x)) :
    Succeeds (each write xs) ↔ ∀ x ∈ xs, Succeeds (write x) := by
  induction xs with
  | nil => simp [Succeeds]
  | cons x xs ih =>
    rw [each, succeeds_seq (appends_each h xs), ih, List.forall_mem_cons]

theorem failsWith_each (h : ∀ x, Appends (write x)) (hr : ∀ x ∈ xs, FailsWith P (write x)) :
    FailsWith P (each write xs) := by
  induction xs with
  | nil => exact Succeeds.failsWith ⟨[], rfl⟩
  | cons x xs ih =>
    rw [List.forall_mem_cons] at hr
    exact hr.1.seq (appends_each h xs) (ih hr.2)

theorem appends_array (h : ∀ x, Appends (write x)) (xs : List α) : Appends (array write xs) :=
  (appends_compact _).seq (appends_each h xs)

theorem run_array_eq_ok (h : ∀ x, Appends (write x)) :
    (array write xs).run = .ok bs ↔
      ∃ a b, CompactU16.encode xs.length = .ok a ∧ (each write xs).run = .ok b ∧ a ++ b = bs := by
  rw [array, run_seq_eq_ok (appends_each h xs), run_compact]

/-- Items can be written after their number just when they are few enough and each of them can
be written. -/
theorem succeeds_array (h : ∀ x, Appends (write x)) :
    Succeeds (array write xs) ↔ xs.length ≤ 0xFFFF ∧ ∀ x ∈ xs, Succeeds (write x) := by
  rw [array, succeeds_seq (appends_each h xs), succeeds_compact, succeeds_each h]

theorem failsWith_array (h : ∀ x, Appends (write x)) (hcompact : FailsWith P (compact xs.length))
    (hr : ∀ x ∈ xs, FailsWith P (write x)) : FailsWith P (array write xs) :=
  hcompact.seq (appends_each h xs) (failsWith_each h hr)

theorem refuses_array (h : ∀ x, Appends (write x)) (hr : ∀ x ∈ xs, Refuses (write x)) :
    Refuses (array write xs) :=
  failsWith_array h (refuses_compact _) hr

end Items

end LedgerClient.Write
