import LedgerClient.Proofs.Fault
import LedgerClient.Proofs.Wire.Layout

/-!
# The cursor moves forward

A read that fails leaves the cursor where its failing part found it, so a composite read may stop
half-way. What holds of every part holds of such a read all the same: from a cursor inside the data
it ends at one inside the data that is not before it, whether it fails or not. This is an induction
over the ways in which reads are put together, and then over the operations on one cursor.

The exception is a raw read of a negative number of bytes. It asks only whether the end that it
moves to lies beyond the data, and so it succeeds and takes the cursor back, even to before the
beginning, where an integer of fixed width is refused in another way than everything else.

## Main definitions

* `Cursor.Reached`: the cursors that operations on some data reach
* `Read.Careful`: a computation that reads, with no raw read of a negative number of bytes
* `Read.Forward`: a computation that keeps to the data and never goes back
* `Read.TakesExactly`: a read of some number of bytes, which are what it returns

## Main results

* `Read.Careful.forward`: careful computations never go back
* `Cursor.Reached.moves_forward`: what reads do at every cursor that is reached
-/

namespace LedgerClient

open Fault (Confined IsCodec exceptRun_bind)

namespace Read

variable {α β : Type} {own : Fault → Prop} {read : Read α}

/-! ## Careful computations -/

/-- The computation may return the value, from some cursor inside some data. -/
def Yields (read : Read α) (x : α) : Prop :=
  ∃ before rest, (ExceptT.run read (Cursor.between before rest)).1 = .ok x

/-- The computation moves the cursor by reads of the wire format alone, and never asks for a
negative number of bytes. Otherwise it is free: it may look at the cursor, choose what to read by
what it has read, fail with faults of its own or of the codec, and go on after a failure. -/
inductive Careful : (own : Fault → Prop) → {α : Type} → Read α → Prop
  | pure {own : Fault → Prop} {α : Type} (x : α) : Careful own (pure x)
  | throw {own : Fault → Prop} {α : Type} {fault : Fault} :
    own fault ∨ IsCodec fault → Careful own (throw fault : Read α)
  | look {own : Fault → Prop} : Careful own (get : Read Cursor)
  | bind {own : Fault → Prop} {α β : Type} {read : Read α} {next : α → Read β} :
    Careful own read → (∀ x, read.Yields x → Careful own (next x)) → Careful own (read >>= next)
  | rescue {own inner : Fault → Prop} {α : Type} {read : Read α} {handle : Fault → Read α} :
    Careful inner read → (∀ fault, inner fault ∨ IsCodec fault → Careful own (handle fault)) →
      Careful own (tryCatch read handle)
  | integer {own : Fault → Prop} (kind : IntKind) : Careful own (integer kind)
  | bytes {own : Fault → Prop} {count : Int} : 0 ≤ count → Careful own (bytes count)
  | compact {own : Fault → Prop} : Careful own compact

/-- From a cursor inside the data the computation ends at one inside the data that is not before
it, and a fault that it ends with is one of its own or of the codec. -/
def Forward (own : Fault → Prop) (read : Read α) : Prop :=
  ∀ before rest, ∃ taken left, taken ++ left = rest ∧
    (ExceptT.run read (Cursor.between before rest)).2 = Cursor.between (before ++ taken) left ∧
    Confined (fun fault => own fault ∨ IsCodec fault)
      (ExceptT.run read (Cursor.between before rest)).1

section Forward

/-- A computation that stays where it is. -/
theorem Forward.of_still (h : ∀ c, (ExceptT.run read c).2 = c ∧
    Confined (fun fault => own fault ∨ IsCodec fault) (ExceptT.run read c).1) :
    Forward own read := by
  intro before rest
  obtain ⟨hcursor, hfaults⟩ := h (Cursor.between before rest)
  refine ⟨[], rest, rfl, ?_, hfaults⟩
  rw [hcursor, List.append_nil]

/-- A computation that starts behind some bytes has moved forward from before them. -/
theorem Forward.behind {rest taken left : Bytes} (h : Forward own read) (before : Bytes)
    (hrest : taken ++ left = rest) : ∃ taken' left', taken' ++ left' = rest ∧
      (ExceptT.run read (Cursor.between (before ++ taken) left)).2 =
        Cursor.between (before ++ taken') left' ∧
      Confined (fun fault => own fault ∨ IsCodec fault)
        (ExceptT.run read (Cursor.between (before ++ taken) left)).1 := by
  obtain ⟨taken', left', rfl, hcursor, hfaults⟩ := h (before ++ taken) left
  refine ⟨taken ++ taken', left', ?_, hcursor.trans ?_, hfaults⟩
  · rw [List.append_assoc, hrest]
  · rw [List.append_assoc]

theorem Forward.bind {next : α → Read β} (h : Forward own read)
    (hnext : ∀ x, read.Yields x → Forward own (next x)) : Forward own (read >>= next) := by
  intro before rest
  obtain ⟨taken, left, hrest, hcursor, hfaults⟩ := h before rest
  rw [exceptRun_bind]
  rcases hrun : ExceptT.run read (Cursor.between before rest) with ⟨outcome, c⟩
  rw [hrun] at hcursor hfaults
  replace hcursor : c = Cursor.between (before ++ taken) left := hcursor
  subst hcursor
  cases outcome with
  | error fault => exact ⟨taken, left, hrest, rfl, Confined.error (hfaults fault rfl)⟩
  | ok x =>
    have hyields : read.Yields x := ⟨before, rest, by rw [hrun]⟩
    exact (hnext x hyields).behind before hrest

theorem exceptRun_tryCatch (read : Read α) (handle : Fault → Read α) (c : Cursor) :
    ExceptT.run (tryCatch read handle) c =
      match ExceptT.run read c with
      | (.ok x, c') => (.ok x, c')
      | (.error fault, c') => ExceptT.run (handle fault) c' := by
  rw [ExceptT.run_tryCatch]
  change StateT.bind (ExceptT.run read) _ c = _
  unfold StateT.bind
  rcases ExceptT.run read c with ⟨_ | _, c'⟩ <;> rfl

theorem Forward.rescue {inner : Fault → Prop} {handle : Fault → Read α} (h : Forward inner read)
    (hhandle : ∀ fault, inner fault ∨ IsCodec fault → Forward own (handle fault)) :
    Forward own (tryCatch read handle) := by
  intro before rest
  obtain ⟨taken, left, hrest, hcursor, hfaults⟩ := h before rest
  rw [exceptRun_tryCatch]
  rcases hrun : ExceptT.run read (Cursor.between before rest) with ⟨outcome, c⟩
  rw [hrun] at hcursor hfaults
  replace hcursor : c = Cursor.between (before ++ taken) left := hcursor
  subst hcursor
  cases outcome with
  | ok x => exact ⟨taken, left, hrest, rfl, Confined.ok x⟩
  | error fault =>
    have hfault := hfaults fault rfl
    exact (hhandle fault hfault).behind before hrest

/-- A read that takes spellings, and stays where it is if it refuses the data. -/
theorem Forward.of_recognizes {P : α → Bytes → Prop} (h : Recognizes read P)
    (hstill : ∀ before rest cause,
      (ExceptT.run read (Cursor.between before rest)).1 = .error (.codec cause) →
        (ExceptT.run read (Cursor.between before rest)).2 = Cursor.between before rest) :
    Forward own read := by
  intro before rest
  rcases h.refuses before rest with ⟨x, taken, left, hP, rfl⟩ | ⟨cause, hfault⟩
  · rw [h.reads hP]
    exact ⟨taken, left, rfl, rfl, Confined.ok x⟩
  · refine ⟨[], rest, rfl, ?_, ?_⟩
    · rw [hstill before rest cause hfault, List.append_nil]
    · rw [hfault]
      exact Confined.error (.inr ⟨cause, rfl⟩)

theorem forward_integer (kind : IntKind) : Forward own (integer kind) := by
  refine .of_recognizes (inverts_integer kind) fun before rest cause hfault => ?_
  rw [exceptRun_integer] at hfault ⊢
  split at hfault
  · next hshort => rw [if_pos hshort]
  · cases hfault

/-- A raw read takes what it asks for, or refuses to and stays where it is. -/
theorem exceptRun_bytes (count : Nat) (before rest : Bytes) :
    ExceptT.run (bytes count) (Cursor.between before rest) =
      if rest.length < count then
        (.error (.codec (.shortData (.bytes count) before.length)), Cursor.between before rest)
      else (.ok (rest.take count),
        Cursor.between (before ++ rest.take count) (rest.drop count)) := by
  split
  · next hshort => rw [bytes, exceptRun_bind, exceptRun_need, if_pos hshort]
  · next hlong =>
    have hlen : (rest.take count).length = count :=
      List.length_take_of_le (Nat.le_of_not_lt hlong)
    have htake := (recognizes_bytes count).reads ⟨rfl, hlen⟩ before (rest.drop count)
    rwa [List.take_append_drop] at htake

theorem forward_bytes {count : Int} (h : 0 ≤ count) : Forward own (bytes count) := by
  obtain ⟨n, rfl⟩ := Int.eq_ofNat_of_zero_le h
  refine .of_recognizes (recognizes_bytes n) fun before rest cause hfault => ?_
  rw [exceptRun_bytes] at hfault ⊢
  split at hfault
  · next hshort => rw [if_pos hshort]
  · cases hfault

theorem forward_compact : Forward own compact := by
  refine .of_recognizes inverts_compact fun before rest cause hfault => ?_
  rw [compact, exceptRun_bind, exceptRun_get] at hfault ⊢
  simp only at hfault ⊢
  split at hfault
  · cases hfault
  · rfl

end Forward

/-- **Careful computations never go back**, and they stay inside the data. -/
theorem Careful.forward (h : Careful own read) : Forward own read := by
  induction h with
  | pure x => exact .of_still fun c => ⟨rfl, Confined.ok x⟩
  | throw hfault => exact .of_still fun c => ⟨rfl, Confined.error hfault⟩
  | look => exact .of_still fun c => ⟨rfl, Confined.ok c⟩
  | bind _ _ ih ihnext => exact ih.bind ihnext
  | rescue _ _ ih ihhandle => exact ih.rescue ihhandle
  | integer kind => exact forward_integer kind
  | bytes hcount => exact forward_bytes hcount
  | compact => exact forward_compact

/-! ## The reads of the wire format -/

section Reads

theorem careful_refusal (cause : CodecFault) : Careful own (throw (.codec cause) : Read α) :=
  .throw (.inr ⟨cause, rfl⟩)

theorem careful_bool : Careful own bool := by
  refine .bind .look fun c _ => .bind (.integer .u8) fun v _ => ?_
  dsimp only
  split
  · exact .bind (careful_refusal _) fun _ _ => .pure _
  · exact .pure _

/-- A raw read returns as many bytes as it was asked for. -/
theorem length_of_yields {count : Nat} {bs : Bytes} (h : (bytes count).Yields bs) :
    bs.length = count := by
  obtain ⟨before, rest, hrun⟩ := h
  rw [exceptRun_bytes] at hrun
  split at hrun
  · cases hrun
  · next hlong =>
    cases hrun
    exact List.length_take_of_le (Nat.le_of_not_lt hlong)

theorem careful_key (kind : KeyKind) : Careful own (key kind) := by
  refine .bind (.bytes (Int.natCast_nonneg _)) fun bs hbs => ?_
  have hkey : Key.ofBytes kind bs = .ok ⟨bs, length_of_yields hbs⟩ := by
    rw [Key.ofBytes, Key.ofBytes?, dif_pos (length_of_yields hbs)]
  rw [hkey]
  exact .pure _

theorem careful_compactBytes : Careful own compactBytes :=
  .bind .compact fun n _ => .bytes (Int.natCast_nonneg n)

/-- A length of 64 bits is no negative number. -/
theorem nonneg_of_yields {n : Int} (h : (integer .u64).Yields n) : 0 ≤ n := by
  obtain ⟨before, rest, hrun⟩ := h
  rw [exceptRun_integer] at hrun
  split at hrun
  · cases hrun
  · cases hrun
    exact Int.natCast_nonneg _

theorem careful_string : Careful own string := by
  refine .bind (.integer .u64) fun n hn => .bind (.bytes (nonneg_of_yields hn)) fun bs _ => ?_
  split
  · exact .pure _
  · exact .bind .look fun c _ => careful_refusal _

theorem Careful.times (h : Careful own read) (count : Nat) : Careful own (times read count) := by
  induction count with
  | zero => exact .pure []
  | succ count ih => exact h.bind fun x _ => ih.bind fun xs _ => .pure (x :: xs)

/-- Items are read by any careful computation. -/
theorem Careful.array (h : Careful own read) : Careful own (array read) :=
  Careful.compact.bind fun n _ => h.times n

/-- An item that may be missing is read by any careful computation. -/
theorem Careful.option (h : Careful own read) : Careful own (option read) := by
  refine careful_bool.bind fun b _ => ?_
  split
  · exact h.bind fun x _ => .pure (some x)
  · exact .pure none

theorem careful_ending : Careful own ending := by
  refine .bind .look fun c _ => ?_
  split
  · exact careful_refusal _
  · exact .pure ()

end Reads

end Read

/-! ## Operations -/

namespace Field

/-- The field is an item with bytes of its own, and no raw read in it asks for a negative number of
bytes. -/
def IsItem : Field → Prop
  | .bytes count => 0 ≤ count
  | .option item | .array item => item.IsItem
  | .ending => False
  | _ => True

variable {field : Field}

/-- Items are read carefully, with no faults but those of the codec. -/
theorem IsItem.careful_read (h : field.IsItem) (own : Fault → Prop) :
    Read.Careful own field.read := by
  induction field with
  | integer kind => exact .integer kind
  | bool => exact Read.careful_bool
  | bytes count => exact .bytes h
  | key kind => exact Read.careful_key kind
  | compact => exact .compact
  | compactBytes => exact Read.careful_compactBytes
  | string => exact Read.careful_string
  | option item ih => exact (ih h).option
  | array item ih => exact (ih h).array
  | ending => exact h.elim

/-- Items take spellings, however deep they are nested. -/
theorem IsItem.exists_recognizes (h : field.IsItem) : ∃ P, Read.Recognizes field.read P := by
  induction field with
  | integer kind => exact ⟨_, Read.inverts_integer kind⟩
  | bool => exact ⟨_, Read.inverts_bool⟩
  | bytes count =>
    obtain ⟨n, rfl⟩ := Int.eq_ofNat_of_zero_le h
    exact ⟨_, Read.recognizes_bytes n⟩
  | key kind => exact ⟨_, Read.inverts_key kind⟩
  | compact => exact ⟨_, Read.inverts_compact⟩
  | compactBytes => exact ⟨_, Read.inverts_compactBytes⟩
  | string => exact ⟨_, Read.inverts_string⟩
  | option item ih =>
    obtain ⟨P, hP⟩ := ih h
    exact ⟨_, hP.option⟩
  | array item ih =>
    obtain ⟨P, hP⟩ := ih h
    exact ⟨_, Read.inverts_compact.bind fun n _ _ => hP.times n⟩
  | ending => exact h.elim

end Field

namespace Cursor

/-- The cursors that operations on some data reach, one after another. An operation that fails
leaves the cursor where the next one starts. -/
inductive Reached (data : Bytes) : Cursor → Prop
  | start : Reached data (.start data)
  | after {own : Fault → Prop} {α : Type} {read : Read α} {c : Cursor} :
    Reached data c → read.Careful own → Reached data (ExceptT.run read c).2

/-- The bytes from one cursor up to another. -/
def upTo (c c' : Cursor) : Bytes :=
  (c.data.take c'.offset.toNat).drop c.offset.toNat

variable {data before rest taken left : Bytes} {c : Cursor}

@[simp] theorem upTo_between :
    (between before (taken ++ left)).upTo (between (before ++ taken) left) = taken := by
  have hend : (between (before ++ taken) left).offset.toNat = (before ++ taken).length := rfl
  have hbegin : (between before (taken ++ left)).offset.toNat = before.length := rfl
  rw [upTo, hend, hbegin]
  change ((before ++ (taken ++ left)).take (before ++ taken).length).drop before.length = taken
  rw [← List.append_assoc, List.take_left' rfl, List.drop_left' rfl]

/-- A cursor that is reached stands between two parts of the data. -/
theorem Reached.exists_between (h : Reached data c) :
    ∃ before rest, before ++ rest = data ∧ c = between before rest := by
  induction h with
  | start => exact ⟨[], data, rfl, rfl⟩
  | after _ hread ih =>
    obtain ⟨before, rest, rfl, rfl⟩ := ih
    obtain ⟨taken, left, rfl, hcursor, -⟩ := hread.forward before rest
    exact ⟨before ++ taken, left, List.append_assoc .., hcursor⟩

end Cursor

namespace Read

variable {α : Type} {read : Read α} {before rest : Bytes}

/-- At a cursor, the read takes the next `count` bytes, which say what it returns; where fewer are
left it is refused by the codec and does not move. -/
def TakesExactly (c : Cursor) (read : Read α) (count : Int) (P : α → Bytes → Prop) : Prop :=
  (c.remaining < count → ∃ cause, ExceptT.run read c = (.error (.codec cause), c)) ∧
    ∀ x c', ExceptT.run read c = (.ok x, c') ↔
      count ≤ c.remaining ∧ c' = ⟨c.data, c.offset + count⟩ ∧ P x (c.upTo c')

theorem remaining_between (before rest : Bytes) :
    (Cursor.between before rest).remaining = rest.length := by
  simp only [Cursor.remaining, Cursor.between, List.length_append]
  omega

/-- A read of spellings of one length. -/
theorem Recognizes.takesExactly {P : α → Bytes → Prop} {count : Nat}
    (h : Recognizes read fun x bs => P x bs ∧ bs.length = count)
    (hshort : rest.length < count → ∃ cause, ExceptT.run read (Cursor.between before rest) =
      (.error (.codec cause), Cursor.between before rest)) :
    TakesExactly (Cursor.between before rest) read count P := by
  rw [TakesExactly, remaining_between]
  refine ⟨fun hremaining => hshort (Int.ofNat_lt.mp hremaining), fun x c' => ?_⟩
  constructor
  · intro hrun
    obtain ⟨taken, left, rfl, rfl, hP, rfl⟩ := h.taken hrun
    refine ⟨?_, Cursor.between_append .., ?_⟩
    · rw [List.length_append]
      omega
    · rwa [Cursor.upTo_between]
  · rintro ⟨hcount, rfl, hP⟩
    have hlen : (rest.take count).length = count := List.length_take_of_le (Int.ofNat_le.mp hcount)
    have hend : (⟨before ++ rest, before.length + count⟩ : Cursor) =
        Cursor.between (before ++ rest.take count) (rest.drop count) := by
      rw [Cursor.between_append, List.take_append_drop, hlen]
    have hspells : P x (rest.take count) := by
      have htaken : (Cursor.between before (rest.take count ++ rest.drop count)).upTo
          (Cursor.between (before ++ rest.take count) (rest.drop count)) = rest.take count :=
        Cursor.upTo_between
      rw [← hend, List.take_append_drop] at htaken
      rwa [← htaken]
    have hread := h.reads ⟨hspells, hlen⟩ before (rest.drop count)
    rwa [List.take_append_drop, ← hend] at hread

theorem takesExactly_integer (kind : IntKind) :
    TakesExactly (Cursor.between before rest) (integer kind) kind.width
      fun n bs => kind.encode? n = some bs := by
  refine ((inverts_integer kind).congr fun n bs => ?_).takesExactly fun hshort => ?_
  · rw [Write.run_integer_eq_ok]
    exact (and_iff_left_of_imp IntKind.length_eq_of_encode?).symm
  · rw [exceptRun_integer, if_pos hshort]
    exact ⟨_, rfl⟩

theorem takesExactly_bool :
    TakesExactly (Cursor.between before rest) bool 1 fun b bs => bs = [if b then 1 else 0] := by
  refine (inverts_bool.congr fun b bs => ?_).takesExactly fun hshort => ?_
  · rw [Write.run_bool, Except.ok.injEq, eq_comm]
    exact (and_iff_left_of_imp fun hbs => congrArg List.length hbs).symm
  · unfold bool
    have hbyte : rest.length < IntKind.u8.width := hshort
    rw [exceptRun_bind, exceptRun_get]
    dsimp only
    rw [exceptRun_bind, exceptRun_integer, if_pos hbyte]
    exact ⟨_, rfl⟩

theorem takesExactly_bytes (count : Nat) :
    TakesExactly (Cursor.between before rest) (bytes count) count fun x bs => x = bs := by
  refine (recognizes_bytes count).takesExactly fun hshort => ?_
  rw [exceptRun_bytes, if_pos hshort]
  exact ⟨_, rfl⟩

theorem takesExactly_key (kind : KeyKind) :
    TakesExactly (Cursor.between before rest) (key kind) kind.width
      fun key bs => key.bytes = bs := by
  refine ((inverts_key kind).congr fun key bs => ?_).takesExactly fun hshort => ?_
  · rw [Write.run_key, Except.ok.injEq]
    exact (and_iff_left_of_imp fun hbs => hbs ▸ key.length_eq).symm
  · rw [key, exceptRun_bind, exceptRun_bytes, if_pos hshort]
    exact ⟨_, rfl⟩

/-- **A raw read of a negative number of bytes** succeeds, and takes the cursor back. -/
theorem exceptRun_bytes_of_neg {count : Int} (h : count < 0) (before rest : Bytes) :
    ∃ bs, ExceptT.run (bytes count) (Cursor.between before rest) =
      (.ok bs, ⟨before ++ rest, before.length + count⟩) := by
  have hneed : ExceptT.run (need count (.bytes count)) (Cursor.between before rest) =
      (.ok (), Cursor.between before rest) := by
    have hend : ¬((before ++ rest).length : Int) < before.length + count := by
      rw [List.length_append]
      omega
    change ExceptT.run (if ((before ++ rest).length : Int) < before.length + count then
      throw (.codec (.shortData (.bytes count) before.length)) else pure () : Read Unit)
      (Cursor.between before rest) = _
    rw [if_neg hend]
    rfl
  refine ⟨Sequence.between (before ++ rest) before.length (before.length + count), ?_⟩
  rw [bytes, exceptRun_bind, hneed]
  rfl

/-- Where a read succeeds, data that breaks off before the bytes that it takes end is refused. -/
theorem Recognizes.refuses_truncated {P : α → Bytes → Prop} {x : α} {c : Cursor} {stop : Int}
    (h : Recognizes read P) (hrun : ExceptT.run read (Cursor.between before rest) = (.ok x, c))
    (hfirst : before.length ≤ stop) (hstop : stop < c.offset) :
    ∃ cause, (ExceptT.run read ⟨(before ++ rest).take stop.toNat, before.length⟩).1 =
      .error (.codec cause) := by
  obtain ⟨taken, left, rfl, rfl, hP⟩ := h.taken hrun
  obtain ⟨count, rfl⟩ : ∃ count : Nat, stop = (before.length + count : Nat) :=
    ⟨(stop - before.length).toNat, by omega⟩
  have hcount : count < taken.length := by
    rw [Cursor.between_append] at hstop
    simp only at hstop
    omega
  have hpart : (⟨(before ++ (taken ++ left)).take (before.length + count), before.length⟩ :
      Cursor) = Cursor.between before (taken.take count) := by
    rw [List.take_length_add_append, List.take_append_of_le_length (Nat.le_of_lt hcount)]
    rfl
  have hmissing : taken.drop count ≠ [] := by
    rw [ne_eq, List.drop_eq_nil_iff]
    omega
  rw [← List.take_append_drop count taken] at hP
  have hfault := h.refuses_part hP hmissing before
  rwa [← hpart] at hfault

end Read

/-! ## Whole runs -/

open Read (Careful TakesExactly)

/-- **The cursor moves forward.** Whatever has been read of some data, and whether it succeeded or
not, the cursor stands inside the data, and no careful computation takes it back or ends with a
fault that is neither of its own nor of the codec. Every item of the wire format is read carefully,
and so are the end of the data and items that careful computations read. A read of fixed width
takes the next bytes, which are what it returns, and is refused if fewer are left; an item of any
kind is refused if the data breaks off before the end of the bytes that it takes. Only a raw read
of a negative number of bytes is not careful: it succeeds, and the cursor goes back by that
number. -/
theorem Cursor.Reached.moves_forward {data : Bytes} {c : Cursor} (h : Reached data c) :
    (c.data = data ∧ 0 ≤ c.offset ∧ c.offset ≤ data.length) ∧
    (∀ own : Fault → Prop, (∀ field : Field, field.IsItem → Careful own field.read) ∧
      Careful own Read.ending ∧
      ∀ (α : Type) (read : Read α), Careful own read →
        Careful own (Read.array read) ∧ Careful own (Read.option read) ∧
          c.offset ≤ (ExceptT.run read c).2.offset ∧
          Confined (fun fault => own fault ∨ IsCodec fault) (ExceptT.run read c).1) ∧
    (∀ kind, TakesExactly c (Read.integer kind) kind.width
      fun n bs => kind.encode? n = some bs) ∧
    TakesExactly c Read.bool 1 (fun b bs => bs = [if b then 1 else 0]) ∧
    (∀ kind, TakesExactly c (Read.key kind) kind.width fun key bs => key.bytes = bs) ∧
    (∀ count : Int, 0 ≤ count → TakesExactly c (Read.bytes count) count fun x bs => x = bs) ∧
    (∀ field : Field, field.IsItem → ∀ x c', ExceptT.run field.read c = (.ok x, c') →
      ∀ stop, c.offset ≤ stop → stop < c'.offset →
        ∃ cause, (ExceptT.run field.read ⟨data.take stop.toNat, c.offset⟩).1 =
          .error (.codec cause)) ∧
    ∀ count < 0, ∃ bs, ExceptT.run (Read.bytes count) c = (.ok bs, ⟨data, c.offset + count⟩) := by
  obtain ⟨before, rest, rfl, rfl⟩ := h.exists_between
  refine ⟨⟨rfl, Int.natCast_nonneg _, ?_⟩, fun own => ⟨fun field hfield => hfield.careful_read own,
    Read.careful_ending, ?_⟩, fun kind => Read.takesExactly_integer kind, Read.takesExactly_bool,
    fun kind => Read.takesExactly_key kind, ?_, ?_,
    fun count hcount => Read.exceptRun_bytes_of_neg hcount before rest⟩
  · change (before.length : Int) ≤ (before ++ rest).length
    rw [List.length_append]
    omega
  · intro α read hread
    obtain ⟨taken, left, rfl, hcursor, hfaults⟩ := hread.forward before rest
    refine ⟨hread.array, hread.option, ?_, hfaults⟩
    rw [hcursor, between_append]
    exact Int.le_add_of_nonneg_right (Int.natCast_nonneg _)
  · intro count hcount
    obtain ⟨n, rfl⟩ := Int.eq_ofNat_of_zero_le hcount
    exact Read.takesExactly_bytes n
  · intro field hfield x c' hrun stop hfirst hstop
    obtain ⟨P, hread⟩ := hfield.exists_recognizes
    exact hread.refuses_truncated hrun hfirst hstop

/-- An array of truth values that breaks off at its second item, which is none. -/
theorem Cursor.Reached.moves_forward_half_way :
    Reached [9, 2, 1, 5, 0, 0] ⟨[9, 2, 1, 5, 0, 0], 4⟩ ∧
    (∃ cause, ExceptT.run (Read.integer .u32) ⟨[9, 2, 1, 5, 0, 0], 4⟩ =
      (.error (.codec cause), ⟨[9, 2, 1, 5, 0, 0], 4⟩)) ∧
    ∃ bs, ExceptT.run (Read.bytes (-3)) ⟨[9, 2, 1, 5, 0, 0], 4⟩ =
      (.ok bs, ⟨[9, 2, 1, 5, 0, 0], 1⟩) := by
  have hbyte : Careful IsCodec (Read.integer .u8) := .integer .u8
  have hitems : Careful IsCodec (Read.array Read.bool) := Read.careful_bool.array
  have hreached : Reached [9, 2, 1, 5, 0, 0] ⟨[9, 2, 1, 5, 0, 0], 4⟩ :=
    (Reached.start.after hbyte).after hitems
  obtain ⟨-, -, hinteger, -, -, -, -, hback⟩ := hreached.moves_forward
  exact ⟨hreached, (hinteger .u32).1 (by decide), hback (-3) (by decide)⟩

/-- A raw read of five bytes less than none takes the cursor to before the beginning of two bytes.
An integer of four bytes is then refused, but not by the codec. -/
theorem Read.bytes_goes_back :
    ExceptT.run (Read.bytes (-5)) (Cursor.start [1, 2]) = (.ok [], ⟨[1, 2], -5⟩) ∧
      (ExceptT.run (Read.bytes (-5)) (Cursor.start [1, 2])).2.offset < 0 ∧
      ¬Confined IsCodec (ExceptT.run (Read.integer .u32) ⟨[1, 2], -5⟩).1 := by
  refine ⟨rfl, by decide, ?_⟩
  intro hcodec
  obtain ⟨cause, hcause⟩ := hcodec (.misuse .window) rfl
  cases hcause

end LedgerClient
