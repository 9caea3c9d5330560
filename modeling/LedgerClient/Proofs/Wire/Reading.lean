import LedgerClient.Proofs.Text.Utf8
import LedgerClient.Proofs.Wire.Writing
import LedgerClient.Wire.Reader

/-!
# What reads take

A read recognizes a set of spellings if it reads every spelled value back, wherever the spelling
stands and whatever follows it, and fails with a codec fault on data that starts with no
spelling. Such reads compose: what two of them take in sequence is a spelling of the first
followed by a spelling of the second. A read inverts a write if it recognizes what the write
appends; the reads of the wire format invert its writes.

## Main definitions

* `Cursor.between`: the cursor between two parts of some data
* `Read.Recognizes`: the read takes exactly the spellings
* `Read.Inverts`: the read takes exactly what a write appends
* `Read.SpellsEach`: the spellings of items, one after another

## Main results

* `Read.Recognizes.bind`: reads in sequence
* `Read.Recognizes.refuses_part`: data that breaks off inside a spelling is refused
* `Read.Recognizes.times`: items, one after another
* `Read.Recognizes.all_eq_ok`: data that is one spelling and nothing else
* `Read.inverts_integer`, `Read.inverts_bool`, `Read.inverts_key`, `Read.inverts_compactBytes`,
  `Read.inverts_string`, `Read.Inverts.array`: the reads of the wire format
-/

namespace LedgerClient

open Fault (exceptRun_bind)

/-- The cursor between two parts of some data. -/
def Cursor.between (before after : Bytes) : Cursor := ⟨before ++ after, before.length⟩

theorem Cursor.start_eq_between (data : Bytes) : Cursor.start data = Cursor.between [] data := rfl

theorem Cursor.between_append (before bs after : Bytes) :
    Cursor.between (before ++ bs) after = ⟨before ++ (bs ++ after), before.length + bs.length⟩ := by
  simp [Cursor.between]

namespace Read

variable {α β : Type}

/-- The read takes exactly the spellings: it reads a spelled value back, wherever the spelling
stands and whatever follows it, and refuses data that starts with no spelling. -/
structure Recognizes (read : Read α) (Spells : α → Bytes → Prop) : Prop where
  reads : ∀ {x bs}, Spells x bs → ∀ before after,
    ExceptT.run read (Cursor.between before (bs ++ after)) =
      (.ok x, Cursor.between (before ++ bs) after)
  refuses : ∀ before rest, (∃ x bs after, Spells x bs ∧ rest = bs ++ after) ∨
    ∃ cause, (ExceptT.run read (Cursor.between before rest)).1 = .error (.codec cause)

/-- The read takes exactly what the write appends. -/
def Inverts (read : Read α) (write : α → Write) : Prop :=
  Recognizes read fun x bs => (write x).run = .ok bs

/-! ## Sequences -/

theorem exceptRun_get (c : Cursor) : ExceptT.run (get : Read Cursor) c = (.ok c, c) := rfl

section Recognizes

variable {read : Read α} {P Q : α → Bytes → Prop}

theorem Recognizes.congr (h : Recognizes read P) (hiff : ∀ x bs, P x bs ↔ Q x bs) :
    Recognizes read Q := by
  obtain rfl : P = Q := by
    funext x bs
    exact propext (hiff x bs)
  exact h

theorem recognizes_pure (x : α) : Recognizes (pure x) fun y bs => y = x ∧ bs = [] where
  reads := by
    rintro y bs ⟨rfl, rfl⟩ before after
    rw [List.append_nil]
    rfl
  refuses before rest := .inl ⟨x, [], rest, ⟨rfl, rfl⟩, rfl⟩

theorem recognizes_throw (cause : CodecFault) :
    Recognizes (throw (.codec cause) : Read α) fun _ _ => False where
  reads := False.elim
  refuses _ _ := .inr ⟨cause, rfl⟩

theorem recognizes_throw_bind (cause : CodecFault) (f : α → Read β) :
    Recognizes (throw (.codec cause) >>= f) fun _ _ => False where
  reads := False.elim
  refuses _ _ := .inr ⟨cause, rfl⟩

/-- **Reads in sequence** take a spelling of the first and then one of the second, which may
depend on the value read first. -/
theorem Recognizes.bind {f : α → Read β} {Q : α → β → Bytes → Prop} (h : Recognizes read P)
    (hf : ∀ x bs, P x bs → Recognizes (f x) (Q x)) :
    Recognizes (read >>= f) fun y bs => ∃ x a b, P x a ∧ Q x y b ∧ a ++ b = bs where
  reads := by
    rintro y - ⟨x, a, b, hP, hQ, rfl⟩ before after
    rw [exceptRun_bind, List.append_assoc, h.reads hP before (b ++ after)]
    simp only
    rw [(hf x a hP).reads hQ (before ++ a) after, List.append_assoc]
  refuses before rest := by
    rcases h.refuses before rest with ⟨x, a, after, hP, rfl⟩ | ⟨cause, hfault⟩
    · -- The first read takes a spelling, and the second one starts right behind it.
      rw [exceptRun_bind, h.reads hP before after]
      rcases (hf x a hP).refuses (before ++ a) after with ⟨y, b, after', hQ, rfl⟩ | hfault
      · exact .inl ⟨y, a ++ b, after', ⟨x, a, b, hP, hQ, rfl⟩, (List.append_assoc ..).symm⟩
      · exact .inr hfault
    · refine .inr ⟨cause, ?_⟩
      rw [exceptRun_bind]
      rcases hrun : ExceptT.run read (Cursor.between before rest) with ⟨fault | _, c⟩ <;>
        simp_all

/-- A read may look at the cursor, as it does to say where it failed. -/
theorem Recognizes.get_bind {f : Cursor → Read α} (h : ∀ c, Recognizes (f c) P) :
    Recognizes (get >>= f) P where
  reads := by
    intro x bs hP before after
    rw [exceptRun_bind, exceptRun_get]
    exact (h _).reads hP before after
  refuses before rest := by
    rw [exceptRun_bind, exceptRun_get]
    exact (h _).refuses before rest

theorem Recognizes.map (h : Recognizes read P) (g : α → β) :
    Recognizes (g <$> read) fun y bs => ∃ x, P x bs ∧ y = g x := by
  refine ((h.bind fun x _ _ => recognizes_pure (g x)).congr fun y bs => ?_ :
    Recognizes (read >>= fun x => pure (g x)) _)
  constructor
  · rintro ⟨x, a, b, hP, ⟨rfl, rfl⟩, rfl⟩
    exact ⟨x, by rwa [List.append_nil], rfl⟩
  · rintro ⟨x, hP, rfl⟩
    exact ⟨x, bs, [], hP, ⟨rfl, rfl⟩, List.append_nil bs⟩

end Recognizes

/-! ## What a read has taken -/

section Taken

variable {read : Read α} {P : α → Bytes → Prop} {x : α} {c : Cursor} {before rest : Bytes}

/-- A read that succeeds has taken a spelling of its value. -/
theorem Recognizes.taken (h : Recognizes read P)
    (hrun : ExceptT.run read (Cursor.between before rest) = (.ok x, c)) :
    ∃ taken left, taken ++ left = rest ∧ c = Cursor.between (before ++ taken) left ∧
      P x taken := by
  rcases h.refuses before rest with ⟨y, bs, after, hP, rfl⟩ | ⟨cause, hfault⟩
  · rw [h.reads hP] at hrun
    cases hrun
    exact ⟨bs, after, rfl, rfl, hP⟩
  · rw [hrun] at hfault
    cases hfault

/-- Data that breaks off inside a spelling is refused. -/
theorem Recognizes.refuses_part (h : Recognizes read P) {part missing : Bytes}
    (hP : P x (part ++ missing)) (hmissing : missing ≠ []) (before : Bytes) :
    ∃ cause, (ExceptT.run read (Cursor.between before part)).1 = .error (.codec cause) := by
  rcases h.refuses before part with ⟨y, bs, after, hP', rfl⟩ | hfault
  · -- A spelling inside the part would end the read before the whole spelling is taken.
    have hwhole := h.reads hP before []
    have hpart := h.reads hP' before (after ++ missing)
    rw [List.append_nil, List.append_assoc, hpart] at hwhole
    injection hwhole with _ hcursor
    have hlen := List.length_pos_of_ne_nil hmissing
    simp only [Cursor.between, Cursor.mk.injEq, List.length_append] at hcursor
    omega
  · exact hfault

end Taken

/-! ## The end of the data -/

section All

variable {read : Read α} {P : α → Bytes → Prop} {x : α} {data bs : Bytes}

theorem exceptRun_ending (before after : Bytes) :
    ExceptT.run ending (Cursor.between before after) =
      (if after = [] then .ok () else .error (.codec (.trailingData after.length before.length)),
        Cursor.between before after) := by
  have hrem : (Cursor.between before after).remaining = after.length := by
    simp only [Cursor.remaining, Cursor.between, List.length_append]
    omega
  change ExceptT.run (if (Cursor.between before after).remaining ≠ 0 then _ else _ : Read Unit)
    (Cursor.between before after) = _
  rw [hrem]
  cases after <;> rfl

/-- Data that starts with a spelling is read if nothing follows it. -/
theorem Recognizes.all_append (h : Recognizes read P) (hP : P x bs) (after : Bytes) :
    Read.all read (bs ++ after) =
      if after = [] then .ok x else .error (.codec (.trailingData after.length bs.length)) := by
  have hread := h.reads hP [] after
  rw [List.nil_append] at hread
  rw [Read.all, Read.run, Cursor.start_eq_between, exceptRun_bind, hread]
  simp only
  rw [exceptRun_bind, exceptRun_ending]
  by_cases hafter : after = []
  · simp only [if_pos hafter]
    rfl
  · simp only [if_neg hafter]

theorem Recognizes.all_cases (h : Recognizes read P) (data : Bytes) :
    (∃ x bs after, P x bs ∧ data = bs ++ after) ∨
      ∃ cause, Read.all read data = .error (.codec cause) := by
  rcases h.refuses [] data with hsome | ⟨cause, hfault⟩
  · exact .inl hsome
  · refine .inr ⟨cause, ?_⟩
    rw [Read.all, Read.run, Cursor.start_eq_between, exceptRun_bind]
    rcases hrun : ExceptT.run read (Cursor.between [] data) with ⟨fault | _, c⟩ <;> simp_all

/-- **Data is read as a whole** just when it is one spelling. -/
theorem Recognizes.all_eq_ok (h : Recognizes read P) : Read.all read data = .ok x ↔ P x data := by
  constructor
  · intro hall
    rcases h.all_cases data with ⟨y, bs, after, hP, rfl⟩ | ⟨cause, hfault⟩
    · rw [h.all_append hP] at hall
      split at hall
      · next hnil =>
        cases hall
        rwa [hnil, List.append_nil]
      · cases hall
    · rw [hfault] at hall
      cases hall
  · intro hP
    have hall := h.all_append hP []
    rwa [List.append_nil, if_pos rfl] at hall

/-- Data that is not read is refused with a codec fault. -/
theorem Recognizes.all_refuses (h : Recognizes read P) (data : Bytes) :
    (∃ x, Read.all read data = .ok x) ∨ ∃ cause, Read.all read data = .error (.codec cause) := by
  rcases h.all_cases data with ⟨x, bs, after, hP, rfl⟩ | hfault
  · rw [h.all_append hP]
    split
    · exact .inl ⟨x, rfl⟩
    · exact .inr ⟨_, rfl⟩
  · exact .inr hfault

end All

/-! ## Single reads -/

theorem exceptRun_need (count : Nat) (item : ReadItem) (before rest : Bytes) :
    ExceptT.run (need count item) (Cursor.between before rest) =
      (if rest.length < count then .error (.codec (.shortData item before.length)) else .ok (),
        Cursor.between before rest) := by
  change ExceptT.run (if ((before ++ rest).length : Int) < before.length + count then
    throw (.codec (.shortData item before.length)) else pure () : Read Unit)
    (Cursor.between before rest) = _
  have hshort : ((before ++ rest).length : Int) < before.length + count ↔ rest.length < count := by
    rw [List.length_append]
    omega
  simp only [hshort]
  split <;> rfl

theorem recognizes_bytes (count : Nat) :
    Recognizes (bytes count) fun x bs => x = bs ∧ bs.length = count where
  reads := by
    rintro x bs ⟨rfl, rfl⟩ before after
    rw [bytes, exceptRun_bind, exceptRun_need, if_neg (by simp)]
    change (Except.ok (Sequence.between (before ++ (x ++ after)) before.length
      (before.length + x.length)),
        (⟨before ++ (x ++ after), before.length + x.length⟩ : Cursor)) = _
    rw [Sequence.between_append_append, Cursor.between_append]
  refuses before rest := by
    by_cases h : rest.length < count
    · refine .inr ⟨.shortData (.bytes count) before.length, ?_⟩
      rw [bytes, exceptRun_bind, exceptRun_need, if_pos h]
    · exact .inl ⟨rest.take count, rest.take count, rest.drop count,
        ⟨rfl, List.length_take_of_le (by omega)⟩, (List.take_append_drop ..).symm⟩

/-- At an offset inside the data an integer is read from the bytes after it. -/
theorem exceptRun_integer (kind : IntKind) (before rest : Bytes) :
    ExceptT.run (integer kind) (Cursor.between before rest) =
      if rest.length < kind.width then
        (.error (.codec (.shortData (.integer kind) before.length)), Cursor.between before rest)
      else (.ok (kind.decode rest), ⟨before ++ rest, before.length + kind.width⟩) := by
  rw [integer, exceptRun_bind, exceptRun_need]
  by_cases h : rest.length < kind.width
  · rw [if_pos h, if_pos h]
  rw [if_neg h, if_neg h]
  have hoffset : (Cursor.between before rest).offset = before.length := rfl
  have hdrop : (Cursor.between before rest).data.drop before.length = rest := List.drop_left' rfl
  simp only
  rw [exceptRun_bind, exceptRun_get]
  simp only [hoffset]
  rw [if_neg (by omega), if_neg (by omega), if_neg (by omega), Int.toNat_natCast, hdrop]
  rfl

theorem inverts_integer (kind : IntKind) : Inverts (integer kind) (Write.integer kind) where
  reads := by
    intro n bs h before after
    rw [Write.run_integer_eq_ok] at h
    have hlen := IntKind.length_eq_of_encode? h
    rw [exceptRun_integer, if_neg (by rw [List.length_append]; omega), IntKind.decode_append h,
      Cursor.between_append, hlen]
  refuses before rest := by
    by_cases h : rest.length < kind.width
    · refine .inr ⟨.shortData (.integer kind) before.length, ?_⟩
      rw [exceptRun_integer, if_pos h]
    · refine .inl ⟨kind.decode rest, rest.take kind.width, rest.drop kind.width, ?_,
        (List.take_append_drop ..).symm⟩
      rw [Write.run_integer_eq_ok, IntKind.encode?_decode (by omega)]

theorem recognizes_byte : Recognizes byte fun n bs => ∃ b : UInt8, n = b.toNat ∧ bs = [b] := by
  refine ((inverts_integer .u8).map Int.toNat).congr fun n bs => ?_
  simp only [Write.run_integer_eq_ok, IntKind.encode?_u8_eq_some]
  constructor
  · rintro ⟨_, ⟨b, rfl, rfl⟩, rfl⟩
    exact ⟨b, rfl, rfl⟩
  · rintro ⟨b, rfl, rfl⟩
    exact ⟨b.toNat, ⟨b, rfl, rfl⟩, rfl⟩

theorem inverts_key (kind : KeyKind) : Inverts (key kind) Write.key := by
  refine ((recognizes_bytes kind.width).bind (Q := fun bs k b => k.bytes = bs ∧ b = []) ?_).congr
    fun k bs => ?_
  · rintro x bs ⟨rfl, hlen⟩
    have hkey : Key.ofBytes kind x = .ok ⟨x, hlen⟩ := by
      rw [Key.ofBytes, Key.ofBytes?, dif_pos hlen]
    rw [hkey]
    refine (recognizes_pure _).congr fun k b => ?_
    cases k
    simp
  · rw [Write.run_key]
    constructor
    · rintro ⟨_, a, b, ⟨rfl, -⟩, ⟨rfl, rfl⟩, rfl⟩
      rw [List.append_nil]
    · intro h
      cases h
      exact ⟨k.bytes, k.bytes, [], ⟨rfl, k.length_eq⟩, ⟨rfl, rfl⟩, List.append_nil _⟩

theorem inverts_compact : Inverts compact fun n => Write.compact n where
  reads := by
    intro n bs h before after
    rw [Write.run_compact, CompactU16.encode_eq_ok] at h
    obtain ⟨hn, rfl⟩ := h
    have hdecode : CompactU16.decode (Cursor.between before (CompactU16.groups n ++ after)).data
        (Cursor.between before (CompactU16.groups n ++ after)).offset =
          .ok (n, (CompactU16.groups n).length) := CompactU16.decode_groups before after hn
    rw [compact, exceptRun_bind, exceptRun_get]
    simp only [hdecode]
    rw [Cursor.between_append]
    rfl
  refuses before rest := by
    rcases CompactU16.decode_cases before rest with ⟨n, tail, hn, rfl⟩ | ⟨cause, hfault⟩
    · refine .inl ⟨n, CompactU16.groups n, tail, ?_, rfl⟩
      rw [Write.run_compact, CompactU16.encode_eq_ok]
      exact ⟨hn, rfl⟩
    · have hdecode : CompactU16.decode (Cursor.between before rest).data
        (Cursor.between before rest).offset = .error (.codec cause) := hfault
      refine .inr ⟨cause, ?_⟩
      rw [compact, exceptRun_bind, exceptRun_get]
      simp only [hdecode]
      rfl

theorem inverts_compactBytes : Inverts compactBytes Write.compactBytes := by
  refine (inverts_compact.bind fun n _ _ => recognizes_bytes n).congr fun x bs => ?_
  rw [Write.run_compactBytes_eq_ok]
  simp only [Write.run_compact]
  constructor
  · rintro ⟨-, a, b, ha, ⟨rfl, rfl⟩, rfl⟩
    exact ⟨a, ha, rfl⟩
  · rintro ⟨a, ha, rfl⟩
    exact ⟨_, a, x, ha, ⟨rfl, rfl⟩, rfl⟩

theorem inverts_bool : Inverts bool Write.bool := by
  unfold bool
  refine Recognizes.get_bind fun c => ?_
  refine ((inverts_integer .u8).bind
    (Q := fun v b rest => v ≤ 1 ∧ b = (v == 1) ∧ rest = []) fun v _ _ => ?_).congr fun b bs => ?_
  · by_cases hv : 1 < v
    · rw [if_pos hv]
      refine (recognizes_throw_bind _ _).congr fun b rest => ?_
      exact ⟨False.elim, fun h => absurd hv (Int.not_lt.mpr h.1)⟩
    · rw [if_neg hv]
      refine (recognizes_pure _).congr fun b rest => ?_
      exact ⟨fun h => ⟨Int.not_lt.mp hv, h⟩, And.right⟩
  · simp only [Write.run_integer_eq_ok, IntKind.encode?_u8_eq_some, Write.run_bool]
    constructor
    · rintro ⟨v, a, rest, ⟨byte, rfl, rfl⟩, ⟨hv, rfl, rfl⟩, rfl⟩
      obtain hzero | hone : byte = 0 ∨ byte = 1 := by
        rw [← UInt8.toNat_inj, ← UInt8.toNat_inj]
        change byte.toNat = 0 ∨ byte.toNat = 1
        omega
      · rw [hzero]
        rfl
      · rw [hone]
        rfl
    · intro h
      cases h
      cases b
      · exact ⟨0, [0], [], ⟨0, rfl, rfl⟩, ⟨by decide, rfl, rfl⟩, rfl⟩
      · exact ⟨1, [1], [], ⟨1, rfl, rfl⟩, ⟨by decide, rfl, rfl⟩, rfl⟩

theorem inverts_string : Inverts string Write.string := by
  unfold string
  refine ((inverts_integer .u64).bind
    (Q := fun (n : Int) text bs => n = (Utf8.encode text).length ∧ bs = Utf8.encode text)
    fun n bs hn => ?_).congr fun text bs => ?_
  · rw [Write.run_integer_eq_ok, IntKind.encode?_eq_some] at hn
    obtain ⟨count, rfl⟩ := Int.eq_ofNat_of_zero_le hn.1.1
    refine ((recognizes_bytes count).bind (Q := fun bs text rest => Utf8.decode bs = .ok text ∧
      rest = []) fun bs _ _ => ?_).congr fun text bs => ?_
    · cases hbs : Utf8.decode bs with
      | error flaw =>
        refine Recognizes.get_bind fun c => (recognizes_throw _).congr fun text rest => ?_
        exact ⟨False.elim, fun h => nomatch h.1⟩
      | ok found =>
        refine (recognizes_pure found).congr fun text rest => ?_
        rw [Except.ok.injEq, eq_comm]
    · constructor
      · rintro ⟨_, a, b, ⟨rfl, hlen⟩, ⟨htext, rfl⟩, rfl⟩
        rw [Utf8.encode_of_decode htext, List.append_nil]
        exact ⟨congrArg Nat.cast hlen.symm, rfl⟩
      · rintro ⟨hlen, rfl⟩
        exact ⟨_, _, [], ⟨rfl, (Int.ofNat.inj hlen).symm⟩, ⟨Utf8.decode_encode text, rfl⟩,
          List.append_nil _⟩
  · rw [Write.run_string_eq_ok]
    constructor
    · rintro ⟨n, a, b, ha, ⟨rfl, rfl⟩, rfl⟩
      exact ⟨a, ha, rfl⟩
    · rintro ⟨a, ha, rfl⟩
      exact ⟨_, a, _, ha, ⟨rfl, rfl⟩, rfl⟩

/-! ## Items -/

/-- An item that may be missing is spelled by a truth value, and by the item if there is one. -/
theorem Recognizes.option {item : Read α} {P : α → Bytes → Prop} (h : Recognizes item P) :
    Recognizes (Read.option item) fun x bs =>
      (x = none ∧ bs = [0]) ∨ ∃ y a, x = some y ∧ P y a ∧ bs = 1 :: a := by
  unfold Read.option
  refine (inverts_bool.bind (Q := fun b x rest => (b = false ∧ x = none ∧ rest = []) ∨
    (b = true ∧ ∃ y, x = some y ∧ P y rest)) fun b _ _ => ?_).congr fun x bs => ?_
  · cases b with
    | false =>
      refine (recognizes_pure none).congr fun x rest => ?_
      simp
    | true =>
      refine (h.map some).congr fun x rest => ?_
      simp [and_comm]
  · simp only [Write.run_bool, Except.ok.injEq]
    constructor
    · rintro ⟨b, a, rest, rfl, ⟨rfl, rfl, rfl⟩ | ⟨rfl, y, rfl, hy⟩, rfl⟩
      · exact .inl ⟨rfl, rfl⟩
      · exact .inr ⟨y, rest, rfl, hy, rfl⟩
    · rintro (⟨rfl, rfl⟩ | ⟨y, a, rfl, hy, rfl⟩)
      · exact ⟨false, [0], [], rfl, .inl ⟨rfl, rfl, rfl⟩, rfl⟩
      · exact ⟨true, [1], a, rfl, .inr ⟨rfl, y, rfl, hy⟩, rfl⟩

/-- The spellings of items, one after another. -/
def SpellsEach (P : α → Bytes → Prop) : List α → Bytes → Prop
  | [], bs => bs = []
  | x :: xs, bs => ∃ a b, P x a ∧ SpellsEach P xs b ∧ a ++ b = bs

/-- Items are spelled one after another. -/
theorem Recognizes.times {item : Read α} {P : α → Bytes → Prop} (h : Recognizes item P)
    (count : Nat) :
    Recognizes (times item count) fun xs bs => xs.length = count ∧ SpellsEach P xs bs := by
  induction count with
  | zero =>
    refine (recognizes_pure []).congr fun xs bs => ?_
    rw [List.length_eq_zero_iff]
    constructor
    · rintro ⟨rfl, rfl⟩
      exact ⟨rfl, rfl⟩
    · rintro ⟨rfl, hbs⟩
      exact ⟨rfl, hbs⟩
  | succ count ih =>
    refine (h.bind fun x _ _ => ih.bind fun xs _ _ => recognizes_pure (x :: xs)).congr
      fun ys bs => ?_
    constructor
    · rintro ⟨x, a, -, ha, ⟨xs, b, c, ⟨rfl, hb⟩, ⟨rfl, rfl⟩, rfl⟩, rfl⟩
      refine ⟨rfl, a, b, ha, hb, ?_⟩
      rw [List.append_nil]
    · rintro ⟨hlen, hspells⟩
      obtain ⟨x, xs, rfl⟩ := List.exists_cons_of_length_eq_add_one hlen
      obtain ⟨a, b, ha, hb, rfl⟩ := hspells
      exact ⟨x, a, b, ha,
        ⟨xs, b, [], ⟨Nat.succ.inj hlen, hb⟩, ⟨rfl, rfl⟩, List.append_nil b⟩, rfl⟩

theorem spellsEach_iff {write : α → Write} (hw : ∀ x, (write x).Appends) {xs : List α}
    {bs : Bytes} :
    SpellsEach (fun x bs => (write x).run = .ok bs) xs bs ↔ (Write.each write xs).run = .ok bs := by
  induction xs generalizing bs with
  | nil =>
    rw [Write.run_each_nil, Except.ok.injEq]
    exact eq_comm
  | cons x xs ih =>
    rw [Write.run_each_cons_eq_ok hw]
    simp only [SpellsEach, ih]

theorem Inverts.times {item : Read α} {write : α → Write} (h : Inverts item write)
    (hw : ∀ x, (write x).Appends) (count : Nat) :
    Recognizes (times item count) fun xs bs => xs.length = count ∧
      (Write.each write xs).run = .ok bs :=
  (Recognizes.times h count).congr fun _ _ => and_congr_right fun _ => spellsEach_iff hw

theorem Inverts.array {item : Read α} {write : α → Write} (h : Inverts item write)
    (hw : ∀ x, (write x).Appends) : Inverts (array item) (Write.array write) := by
  refine (inverts_compact.bind fun n _ _ => h.times hw n).congr fun xs bs => ?_
  rw [Write.run_array_eq_ok hw]
  simp only [Write.run_compact]
  constructor
  · rintro ⟨-, a, b, ha, ⟨rfl, hb⟩, rfl⟩
    exact ⟨a, b, ha, hb, rfl⟩
  · rintro ⟨a, b, ha, hb, rfl⟩
    exact ⟨_, a, b, ha, ⟨rfl, hb⟩, rfl⟩

end Read

end LedgerClient
