import LedgerClient.Message.Wire
import LedgerClient.Proofs.Fault
import LedgerClient.Proofs.Wire.Reading

/-!
# The format of messages

Well-formed messages and the byte strings that are read as messages are in bijection. A
well-formed message has a fee payer that signs, counts that fit its accounts, no account twice,
at most 256 accounts with the loaded ones, positions that exist and numbers and lengths that fit
their places; a legacy message loads nothing and has at most 127 signers, since a first byte with
the top bit set announces a version.

## Main definitions

* `Message.WellFormed`: what a message fulfils that can be read

## Main results

* `Message.wellFormed_iff`: a message is well-formed if it can be written and passes the check,
  and, being a legacy message, loads nothing and leaves the top bit of its first byte free
* `Message.recognizes_read`: reading takes exactly the bytes of well-formed messages
* `Message.ofBytes_bytes_bijection`: bytes and well-formed messages are in bijection
-/

namespace LedgerClient

namespace Message

/-- What a message fulfils that can be read. Counts and positions are never negative. -/
structure WellFormed (m : Message) : Prop where
  /-- There is a signer, and every signer is listed. -/
  signers : 1 ≤ m.header.signers ∧ m.header.signers ≤ m.keys.length
  /-- Read-only signers are signers. -/
  readonlySigners : 0 ≤ m.header.readonlySigners ∧ m.header.readonlySigners ≤ m.header.signers
  /-- Read-only others are listed and do not sign. -/
  readonlyOthers : 0 ≤ m.header.readonlyOthers ∧
    m.header.readonlyOthers ≤ m.keys.length - m.header.signers
  /-- Counts fit a byte. -/
  counts : m.header.signers ≤ 255 ∧ m.header.readonlySigners ≤ 255 ∧ m.header.readonlyOthers ≤ 255
  /-- No account is listed twice. -/
  distinct : m.keys.Nodup
  /-- Listed and loaded accounts are few enough. -/
  accounts : m.keys.length + m.loadedCount ≤ 256
  /-- Programs are listed. -/
  programs : ∀ i ∈ m.instructions, 0 ≤ i.program ∧ i.program < m.keys.length
  /-- Accounts of instructions are listed or loaded. -/
  positions : ∀ i ∈ m.instructions, ∀ a ∈ i.accounts,
    0 ≤ a ∧ a < (m.keys.length + m.loadedCount : Nat)
  /-- Indexes into tables fit a byte. -/
  indexes : ∀ l ∈ m.lookups, ∀ n ∈ l.indexes, 0 ≤ n ∧ n ≤ 255
  /-- Lengths of the message's lists. -/
  lengths : m.keys.length ≤ 0xFFFF ∧ m.instructions.length ≤ 0xFFFF ∧ m.lookups.length ≤ 0xFFFF
  /-- Lengths of the lists of an instruction. -/
  instructionLengths : ∀ i ∈ m.instructions, i.accounts.length ≤ 0xFFFF ∧ i.data.length ≤ 0xFFFF
  /-- Lengths of the lists of a lookup. -/
  lookupLengths : ∀ l ∈ m.lookups, l.writable.length ≤ 0xFFFF ∧ l.readonly.length ≤ 0xFFFF
  /-- A legacy message leaves the top bit of its first byte free and loads nothing. -/
  legacy : m.version = .legacy → m.header.signers ≤ 127 ∧ m.lookups = []

/-! ## Positions -/

section Positions

variable {is : List Int} {bs : Bytes}

theorem positionBytes?_cons (i : Int) (is : List Int) :
    positionBytes? (i :: is) =
      if 0 ≤ i ∧ i < 256 then (positionBytes? is).map (UInt8.ofNat i.toNat :: ·) else none := by
  rw [positionBytes?, List.mapM_cons]
  change (_ >>= fun b => positionBytes? is >>= fun bs => pure (b :: bs)) = _
  split
  · cases positionBytes? is <;> rfl
  · rfl

/-- Positions are written as bytes just when they are the positions of these bytes. -/
theorem positionBytes?_eq_some : positionBytes? is = some bs ↔ is = positions bs := by
  induction is generalizing bs with
  | nil => cases bs <;> simp [positionBytes?, positions]
  | cons i is ih =>
    rw [positionBytes?_cons]
    constructor
    · intro h
      split at h
      · next hi =>
        obtain ⟨rest, hrest, rfl⟩ := Option.map_eq_some_iff.mp h
        have hbyte : ((UInt8.ofNat i.toNat).toNat : Int) = i := by
          rw [UInt8.toNat_ofNat', Nat.mod_eq_of_lt] <;> omega
        rw [ih.mp hrest, positions, positions, List.map_cons, hbyte]
      · cases h
    · intro h
      cases bs with
      | nil => cases h
      | cons b bs =>
        rw [positions, List.map_cons, List.cons.injEq] at h
        obtain ⟨rfl, rfl⟩ := h
        have hb := b.toNat_lt
        rw [if_pos (by omega), ih.mpr rfl, Int.toNat_natCast, UInt8.ofNat_toNat]
        rfl

theorem exists_positions : (∃ bs, is = positions bs) ↔ ∀ i ∈ is, 0 ≤ i ∧ i < 256 := by
  constructor
  · rintro ⟨bs, rfl⟩ i hi
    obtain ⟨b, -, rfl⟩ := List.mem_map.mp hi
    have hb := b.toNat_lt
    omega
  · intro h
    induction is with
    | nil => exact ⟨[], rfl⟩
    | cons i is ih =>
      obtain ⟨⟨hnonneg, hlt⟩, his⟩ := List.forall_mem_cons.mp h
      obtain ⟨bs, rfl⟩ := ih his
      refine ⟨UInt8.ofNat i.toNat :: bs, ?_⟩
      have hbyte : ((UInt8.ofNat i.toNat).toNat : Int) = i := by
        rw [UInt8.toNat_ofNat', Nat.mod_eq_of_lt] <;> omega
      rw [positions, positions, List.map_cons, hbyte]

@[simp] theorem length_positions (bs : Bytes) : (positions bs).length = bs.length := by
  simp [positions]

theorem writePositions_positions (bs : Bytes) :
    writePositions (positions bs) = Write.compactBytes bs := by
  rw [writePositions, positionBytes?_eq_some.mpr rfl]

@[simp] theorem appends_writePositions (is : List Int) : (writePositions is).Appends := by
  unfold writePositions
  split <;> simp

theorem run_writePositions_eq_ok :
    (writePositions is).run = .ok bs ↔
      ∃ x, is = positions x ∧ (Write.compactBytes x).run = .ok bs := by
  constructor
  · intro h
    cases hbytes : positionBytes? is with
    | none =>
      rw [writePositions, hbytes] at h
      cases h
    | some x =>
      rw [writePositions, hbytes] at h
      exact ⟨x, positionBytes?_eq_some.mp hbytes, h⟩
  · rintro ⟨x, rfl, h⟩
    rwa [writePositions_positions]

theorem succeeds_writePositions :
    (writePositions is).Succeeds ↔ (∀ i ∈ is, 0 ≤ i ∧ i < 256) ∧ is.length ≤ 0xFFFF := by
  rw [← exists_positions]
  constructor
  · rintro ⟨bs, h⟩
    obtain ⟨x, rfl, hx⟩ := run_writePositions_eq_ok.mp h
    rw [length_positions]
    exact ⟨⟨x, rfl⟩, Write.succeeds_compactBytes.mp ⟨bs, hx⟩⟩
  · rintro ⟨⟨x, rfl⟩, hlen⟩
    rw [length_positions] at hlen
    rw [writePositions_positions]
    exact Write.succeeds_compactBytes.mpr hlen

theorem refuses_writePositions (h : ∀ i ∈ is, 0 ≤ i ∧ i < 256) : (writePositions is).Refuses := by
  obtain ⟨x, rfl⟩ := exists_positions.mpr h
  rw [writePositions_positions]
  exact Write.refuses_compactBytes x

/-- Positions are read from what `writePositions` appends. -/
theorem recognizes_positions : Read.Recognizes (positions <$> Read.compactBytes)
    fun is bs => (writePositions is).run = .ok bs := by
  refine (Read.inverts_compactBytes.map positions).congr fun is bs => ?_
  rw [run_writePositions_eq_ok]
  exact exists_congr fun x => and_comm

end Positions

/-! ## Instructions and lookups -/

section Parts

variable {bs : Bytes}

theorem holds_u8 {n : Int} : IntKind.u8.Holds n ↔ 0 ≤ n ∧ n < 256 := by
  simp [IntKind.Holds, IntKind.least, IntKind.signed, IntKind.size, IntKind.width]

theorem appends_writeInstruction (i : CompiledInstruction) : (writeInstruction i).Appends :=
  (Write.appends_integer _ _).seq ((appends_writePositions _).seq (Write.appends_compactBytes _))

theorem appends_writeLookup (l : Lookup) : (writeLookup l).Appends :=
  (Write.appends_key _).seq ((appends_writePositions _).seq (appends_writePositions _))

theorem run_writeInstruction_eq_ok {i : CompiledInstruction} :
    (writeInstruction i).run = .ok bs ↔
      ∃ p a d, (Write.integer .u8 i.program).run = .ok p ∧ (writePositions i.accounts).run = .ok a ∧
        (Write.compactBytes i.data).run = .ok d ∧ p ++ (a ++ d) = bs := by
  rw [writeInstruction, Write.run_seq_eq_ok ((appends_writePositions _).seq (by simp))]
  simp only [Write.run_seq_eq_ok (Write.appends_compactBytes i.data)]
  constructor
  · rintro ⟨p, -, hp, ⟨a, d, ha, hd, rfl⟩, rfl⟩
    exact ⟨p, a, d, hp, ha, hd, rfl⟩
  · rintro ⟨p, a, d, hp, ha, hd, rfl⟩
    exact ⟨p, a ++ d, hp, ⟨a, d, ha, hd, rfl⟩, rfl⟩

theorem inverts_readInstruction : Read.Inverts readInstruction writeInstruction := by
  have hread : readInstruction = (Read.integer .u8 >>= fun program =>
      (positions <$> Read.compactBytes) >>= fun accounts =>
        Read.compactBytes >>= fun data => pure ⟨program, accounts, data⟩) := by
    rw [readInstruction]
    simp only [bind_map_left]
  rw [hread]
  -- What is read in sequence is a sequence of spellings; those of the parts are what they write.
  refine ((Read.inverts_integer .u8).bind fun program _ _ => recognizes_positions.bind
    fun accounts _ _ => Read.inverts_compactBytes.bind fun data _ _ =>
      Read.recognizes_pure (⟨program, accounts, data⟩ : CompiledInstruction)).congr fun i bs => ?_
  rw [run_writeInstruction_eq_ok]
  constructor
  · rintro ⟨program, p, -, hp, ⟨accounts, a, -, ha, ⟨data, d, -, hd, ⟨rfl, rfl⟩, rfl⟩, rfl⟩, rfl⟩
    exact ⟨p, a, d, hp, ha, hd, by rw [List.append_nil]⟩
  · rintro ⟨p, a, d, hp, ha, hd, rfl⟩
    exact ⟨i.program, p, _, hp, ⟨i.accounts, a, _, ha,
      ⟨i.data, d, [], hd, ⟨rfl, rfl⟩, rfl⟩, rfl⟩, by rw [List.append_nil]⟩

theorem run_writeLookup_eq_ok {l : Lookup} :
    (writeLookup l).run = .ok bs ↔
      ∃ w r, (writePositions l.writable).run = .ok w ∧ (writePositions l.readonly).run = .ok r ∧
        l.table.bytes ++ (w ++ r) = bs := by
  rw [writeLookup, Write.run_seq_eq_ok ((appends_writePositions _).seq (appends_writePositions _)),
    Write.run_key]
  simp only [Write.run_seq_eq_ok (appends_writePositions l.readonly), Except.ok.injEq]
  constructor
  · rintro ⟨-, -, rfl, ⟨w, r, hw, hr, rfl⟩, rfl⟩
    exact ⟨w, r, hw, hr, rfl⟩
  · rintro ⟨w, r, hw, hr, rfl⟩
    exact ⟨_, w ++ r, rfl, ⟨w, r, hw, hr, rfl⟩, rfl⟩

theorem inverts_readLookup : Read.Inverts readLookup writeLookup := by
  have hread : readLookup = (Read.key .publicKey >>= fun table =>
      (positions <$> Read.compactBytes) >>= fun writable =>
        (positions <$> Read.compactBytes) >>= fun readonly =>
          pure ⟨table, writable, readonly⟩) := by
    rw [readLookup]
    simp only [bind_map_left]
  rw [hread]
  refine ((Read.inverts_key .publicKey).bind fun table _ _ => recognizes_positions.bind
    fun writable _ _ => recognizes_positions.bind fun readonly _ _ =>
      Read.recognizes_pure (⟨table, writable, readonly⟩ : Lookup)).congr fun l bs => ?_
  rw [run_writeLookup_eq_ok]
  simp only [Write.run_key, Except.ok.injEq]
  constructor
  · rintro ⟨table, -, -, rfl, ⟨writable, w, -, hw, ⟨readonly, r, -, hr, ⟨rfl, rfl⟩, rfl⟩, rfl⟩, rfl⟩
    exact ⟨w, r, hw, hr, by rw [List.append_nil]⟩
  · rintro ⟨w, r, hw, hr, rfl⟩
    exact ⟨l.table, _, _, rfl, ⟨l.writable, w, _, hw, ⟨l.readonly, r, [], hr, ⟨rfl, rfl⟩, rfl⟩,
      rfl⟩, by rw [List.append_nil]⟩

theorem succeeds_writeInstruction {i : CompiledInstruction} :
    (writeInstruction i).Succeeds ↔ (0 ≤ i.program ∧ i.program < 256) ∧
      ((∀ a ∈ i.accounts, 0 ≤ a ∧ a < 256) ∧ i.accounts.length ≤ 0xFFFF) ∧
      i.data.length ≤ 0xFFFF := by
  rw [writeInstruction, Write.succeeds_seq ((appends_writePositions _).seq (by simp)),
    Write.succeeds_seq (by simp), Write.succeeds_integer, holds_u8, succeeds_writePositions,
    Write.succeeds_compactBytes]

theorem succeeds_writeLookup {l : Lookup} :
    (writeLookup l).Succeeds ↔
      ((∀ n ∈ l.writable, 0 ≤ n ∧ n < 256) ∧ l.writable.length ≤ 0xFFFF) ∧
        (∀ n ∈ l.readonly, 0 ≤ n ∧ n < 256) ∧ l.readonly.length ≤ 0xFFFF := by
  rw [writeLookup, Write.succeeds_seq ((appends_writePositions _).seq (appends_writePositions _)),
    Write.succeeds_seq (appends_writePositions _), succeeds_writePositions,
    succeeds_writePositions]
  exact and_iff_right ⟨_, Write.run_key _⟩

end Parts

/-! ## The start of a message

The first byte is the number of signers of a legacy message or announces a version, and its top bit
tells which. The two are told apart by this bit alone, so a legacy message with 128 signers or more
could not be told from one with a version. -/

section Start

variable {bs : Bytes}

/-- A legacy message starts with the number of its signers and leaves the top bit free; a message
of version zero starts with the version byte and then has the number of its signers. -/
theorem recognizes_readStart :
    Read.Recognizes readStart fun x bs => ∃ b : UInt8, x.2 = b.toNat ∧
      (x.1 = .legacy ∧ b.toNat ≤ 127 ∧ bs = [b] ∨ x.1 = .v0 ∧ bs = [0x80, b]) := by
  rw [readStart]
  refine (Read.recognizes_byte.bind (Q := fun (first : Nat) (x : Version × Int) (bs : Bytes) =>
    first ≤ 127 ∧ x = (.legacy, (first : Int)) ∧ bs = [] ∨
      first = 0x80 ∧ ∃ b : UInt8, x = (.v0, (b.toNat : Int)) ∧ bs = [b]) ?_).congr fun x bs => ?_
  · rintro first - ⟨b, rfl, rfl⟩
    by_cases hlow : b.toNat < 128
    · rw [if_pos hlow]
      refine (Read.recognizes_pure _).congr fun x bs => ?_
      constructor
      · rintro ⟨rfl, rfl⟩
        exact .inl ⟨by omega, rfl, rfl⟩
      · rintro (⟨-, rfl, rfl⟩ | ⟨hzero, -⟩)
        · exact ⟨rfl, rfl⟩
        · omega
    · rw [if_neg hlow]
      simp only
      by_cases hzero : b.toNat = 128
      · rw [if_neg (not_not_intro hzero)]
        refine ((Read.inverts_integer .u8).bind fun n _ _ =>
          Read.recognizes_pure (Version.v0, n)).congr fun x bs => ?_
        simp only [Write.run_integer_eq_ok, IntKind.encode?_u8_eq_some]
        constructor
        · rintro ⟨-, -, -, ⟨c, rfl, rfl⟩, ⟨rfl, rfl⟩, rfl⟩
          exact .inr ⟨hzero, c, rfl, rfl⟩
        · rintro (⟨hle, -⟩ | ⟨-, c, rfl, rfl⟩)
          · omega
          · exact ⟨c.toNat, [c], [], ⟨c, rfl, rfl⟩, ⟨rfl, rfl⟩, rfl⟩
      · rw [if_pos hzero]
        refine (Read.recognizes_throw_bind _ _).congr fun x bs => ?_
        constructor
        · exact False.elim
        · rintro (⟨hle, -⟩ | ⟨h, -⟩)
          · omega
          · exact absurd h hzero
  · constructor
    · rintro ⟨-, -, c, ⟨b, rfl, rfl⟩, (⟨hle, rfl, rfl⟩ | ⟨hzero, b', rfl, rfl⟩), rfl⟩
      · exact ⟨b, rfl, .inl ⟨rfl, hle, rfl⟩⟩
      · refine ⟨b', rfl, .inr ⟨rfl, ?_⟩⟩
        rw [show b = 0x80 from UInt8.toNat_inj.mp hzero]
        rfl
    · rintro ⟨b, hb, (⟨hversion, hle, rfl⟩ | ⟨hversion, rfl⟩)⟩
      · exact ⟨b.toNat, [b], [], ⟨b, rfl, rfl⟩, .inl ⟨hle, Prod.ext hversion hb, rfl⟩, rfl⟩
      · exact ⟨0x80, [0x80], [b], ⟨0x80, rfl, rfl⟩, .inr ⟨rfl, b, Prod.ext hversion hb, rfl⟩, rfl⟩

end Start

/-! ## Messages in parts

Writing and reading look at the version twice, before the counts and behind the instructions. With
these two places as parts of their own, both are plain sequences of parts. -/

/-- What stands before the counts of a message. -/
def writeVersion : Version → Write
  | .legacy => pure ()
  | .v0 => Write.integer .u8 0x80

/-- What stands behind the instructions of a message. -/
def writeLookups (version : Version) (lookups : List Lookup) : Write :=
  match version with
  | .legacy => pure ()
  | .v0 => Write.array writeLookup lookups

/-- Reads what stands behind the instructions of a message. -/
def readLookups : Version → Read (List Lookup)
  | .legacy => pure []
  | .v0 => Read.array readLookup

/-- The message, if it passes the check. -/
def checked (m : Message) : Read Message :=
  match m.check with
  | .ok _ => pure m
  | .error fault => throw fault

theorem write_eq (m : Message) :
    m.write = (writeVersion m.version >>= fun _ => writeHeader m.header >>= fun _ =>
      Write.array Write.key m.keys >>= fun _ => Write.key m.blockhash >>= fun _ =>
        Write.array writeInstruction m.instructions >>= fun _ =>
          writeLookups m.version m.lookups) := by
  rw [write]
  cases m.version <;> rfl

theorem read_eq :
    read = (readStart >>= fun x => Read.integer .u8 >>= fun readonlySigners =>
      Read.integer .u8 >>= fun readonlyOthers => Read.array (Read.key .publicKey) >>= fun keys =>
        Read.key .hash >>= fun blockhash => Read.array readInstruction >>= fun instructions =>
          readLookups x.1 >>= fun lookups => checked ⟨⟨x.2, readonlySigners, readonlyOthers⟩,
            keys, blockhash, instructions, lookups, x.1⟩) := by
  refine congrArg (readStart >>= ·) (funext fun x => ?_)
  obtain ⟨version, signers⟩ := x
  cases version <;> rfl

section Parts

variable {m : Message} {bs : Bytes}

theorem appends_writeLookups (version : Version) (lookups : List Lookup) :
    (writeLookups version lookups).Appends := by
  cases version
  · exact Write.appends_pure
  · exact Write.appends_array appends_writeLookup lookups

theorem appends_writeHeader (h : Header) : (writeHeader h).Appends :=
  (Write.appends_integer _ _).seq ((Write.appends_integer _ _).seq (Write.appends_integer _ _))

/-- What is left to write of a message appends, from each of its parts on. -/
theorem appends_parts (m : Message) :
    (writeLookups m.version m.lookups).Appends ∧
    Write.Appends (Write.array writeInstruction m.instructions >>= fun _ =>
      writeLookups m.version m.lookups) ∧
    Write.Appends (Write.key m.blockhash >>= fun _ =>
      Write.array writeInstruction m.instructions >>= fun _ =>
        writeLookups m.version m.lookups) ∧
    Write.Appends (Write.array Write.key m.keys >>= fun _ => Write.key m.blockhash >>= fun _ =>
      Write.array writeInstruction m.instructions >>= fun _ =>
        writeLookups m.version m.lookups) ∧
    Write.Appends (writeHeader m.header >>= fun _ => Write.array Write.key m.keys >>= fun _ =>
      Write.key m.blockhash >>= fun _ => Write.array writeInstruction m.instructions >>= fun _ =>
        writeLookups m.version m.lookups) := by
  have hlookups := appends_writeLookups m.version m.lookups
  have hinstructions := (Write.appends_array appends_writeInstruction m.instructions).seq hlookups
  have hhash := (Write.appends_key m.blockhash).seq hinstructions
  have hkeys := (Write.appends_array (fun k => Write.appends_key k) m.keys).seq hhash
  exact ⟨hlookups, hinstructions, hhash, hkeys, (appends_writeHeader m.header).seq hkeys⟩

/-- The bytes of a message in parts. -/
theorem bytes_eq_ok :
    m.bytes = .ok bs ↔ ∃ v s r o k i l, (writeVersion m.version).run = .ok v ∧
      (Write.integer .u8 m.header.signers).run = .ok s ∧
      (Write.integer .u8 m.header.readonlySigners).run = .ok r ∧
      (Write.integer .u8 m.header.readonlyOthers).run = .ok o ∧
      (Write.array Write.key m.keys).run = .ok k ∧
      (Write.array writeInstruction m.instructions).run = .ok i ∧
      (writeLookups m.version m.lookups).run = .ok l ∧
      v ++ (s ++ (r ++ (o ++ (k ++ (m.blockhash.bytes ++ (i ++ l)))))) = bs := by
  obtain ⟨hlookups, hinstructions, hhash, hkeys, hheader⟩ := appends_parts m
  rw [bytes, write_eq, Write.run_seq_eq_ok hheader]
  simp only [Write.run_seq_eq_ok hkeys, Write.run_seq_eq_ok hhash,
    Write.run_seq_eq_ok hinstructions, Write.run_seq_eq_ok hlookups, Write.run_key, writeHeader,
    Write.run_seq_eq_ok ((Write.appends_integer .u8 m.header.readonlySigners).seq
      (Write.appends_integer .u8 m.header.readonlyOthers)),
    Write.run_seq_eq_ok (Write.appends_integer .u8 m.header.readonlyOthers), Except.ok.injEq]
  constructor
  · rintro ⟨v, -, hv, ⟨-, -, ⟨s, -, hs, ⟨r, o, hr, ho, rfl⟩, rfl⟩, ⟨k, -, hk, ⟨-, -, rfl,
      ⟨i, l, hi, hl, rfl⟩, rfl⟩, rfl⟩, rfl⟩, rfl⟩
    exact ⟨v, s, r, o, k, i, l, hv, hs, hr, ho, hk, hi, hl, by simp only [List.append_assoc]⟩
  · rintro ⟨v, s, r, o, k, i, l, hv, hs, hr, ho, hk, hi, hl, rfl⟩
    exact ⟨v, _, hv, ⟨_, _, ⟨s, _, hs, ⟨r, o, hr, ho, rfl⟩, rfl⟩, ⟨k, _, hk, ⟨_, _, rfl,
      ⟨i, l, hi, hl, rfl⟩, rfl⟩, rfl⟩, rfl⟩, by simp only [List.append_assoc]⟩

theorem recognizes_readLookups (version : Version) :
    Read.Recognizes (readLookups version) fun lookups bs =>
      (version = .legacy → lookups = []) ∧ (writeLookups version lookups).run = .ok bs := by
  cases version with
  | legacy =>
    refine (Read.recognizes_pure _).congr fun lookups bs => ?_
    constructor
    · rintro ⟨rfl, rfl⟩
      exact ⟨fun _ => rfl, rfl⟩
    · rintro ⟨hnil, hrun⟩
      cases hrun
      exact ⟨hnil rfl, rfl⟩
  | v0 =>
    refine (inverts_readLookup.array appends_writeLookup).congr fun lookups bs => ?_
    exact (and_iff_right (fun h => nomatch h)).symm

theorem succeeds_writeVersion (version : Version) : (writeVersion version).Succeeds := by
  cases version
  · exact ⟨[], rfl⟩
  · exact ⟨[0x80], rfl⟩

theorem succeeds_writeLookups (version : Version) (lookups : List Lookup) :
    (writeLookups version lookups).Succeeds ↔ (version = .v0 →
      lookups.length ≤ 0xFFFF ∧ ∀ l ∈ lookups, (writeLookup l).Succeeds) := by
  cases version with
  | legacy => exact ⟨fun _ h => (nomatch h), fun _ => ⟨[], rfl⟩⟩
  | v0 =>
    rw [writeLookups, Write.succeeds_array appends_writeLookup]
    exact ⟨fun h _ => h, fun h => h rfl⟩

/-- A message can be written just when its numbers and lengths fit their places. -/
theorem succeeds_write : m.write.Succeeds ↔
    ((0 ≤ m.header.signers ∧ m.header.signers < 256) ∧
      (0 ≤ m.header.readonlySigners ∧ m.header.readonlySigners < 256) ∧
      0 ≤ m.header.readonlyOthers ∧ m.header.readonlyOthers < 256) ∧
    m.keys.length ≤ 0xFFFF ∧
    (m.instructions.length ≤ 0xFFFF ∧ ∀ i ∈ m.instructions, (writeInstruction i).Succeeds) ∧
    (m.version = .v0 →
      m.lookups.length ≤ 0xFFFF ∧ ∀ l ∈ m.lookups, (writeLookup l).Succeeds) := by
  obtain ⟨hlookups, hinstructions, hhash, hkeys, hheader⟩ := appends_parts m
  have hkey : ∀ k : PublicKey, (Write.key k).Succeeds := fun k => ⟨_, Write.run_key k⟩
  have hblock : (Write.key m.blockhash).Succeeds := ⟨_, Write.run_key _⟩
  rw [write_eq, Write.succeeds_seq hheader, Write.succeeds_seq hkeys, Write.succeeds_seq hhash,
    Write.succeeds_seq hinstructions, Write.succeeds_seq hlookups, succeeds_writeLookups,
    Write.succeeds_array (fun k => Write.appends_key k),
    Write.succeeds_array appends_writeInstruction, writeHeader,
    Write.succeeds_seq ((Write.appends_integer _ _).seq (Write.appends_integer _ _)),
    Write.succeeds_seq (Write.appends_integer _ _)]
  simp only [Write.succeeds_integer, holds_u8, succeeds_writeVersion, hkey, hblock, true_and,
    implies_true, and_true]

theorem refuses_writeInstruction {i : CompiledInstruction}
    (h : ∀ a ∈ i.accounts, 0 ≤ a ∧ a < 256) : (writeInstruction i).Refuses :=
  (Write.refuses_integer _ _).seq ((appends_writePositions _).seq (Write.appends_compactBytes _))
    ((refuses_writePositions h).seq (Write.appends_compactBytes _) (Write.refuses_compactBytes _))

theorem refuses_writeLookup {l : Lookup} (h : ∀ n ∈ l.indexes, 0 ≤ n ∧ n < 256) :
    (writeLookup l).Refuses := by
  obtain ⟨hwritable, hreadonly⟩ := List.forall_mem_append.mp h
  exact (Write.refuses_key _).seq ((appends_writePositions _).seq (appends_writePositions _))
    ((refuses_writePositions hwritable).seq (appends_writePositions _)
      (refuses_writePositions hreadonly))

theorem refuses_writeVersion (version : Version) : (writeVersion version).Refuses := by
  cases version
  · exact Write.refuses_pure
  · exact Write.refuses_integer .u8 0x80

theorem refuses_writeHeader (h : Header) : (writeHeader h).Refuses :=
  (Write.refuses_integer _ _).seq ((Write.appends_integer _ _).seq (Write.appends_integer _ _))
    ((Write.refuses_integer _ _).seq (Write.appends_integer _ _) (Write.refuses_integer _ _))

theorem refuses_writeLookups {version : Version} {lookups : List Lookup}
    (h : ∀ l ∈ lookups, ∀ n ∈ l.indexes, 0 ≤ n ∧ n < 256) :
    (writeLookups version lookups).Refuses := by
  cases version
  · exact Write.refuses_pure
  · exact Write.refuses_array appends_writeLookup fun l hl => refuses_writeLookup (h l hl)

/-- A message whose positions are bytes is refused with a codec fault if it cannot be written. -/
theorem refuses_write (hpositions : ∀ i ∈ m.instructions, ∀ a ∈ i.accounts, 0 ≤ a ∧ a < 256)
    (hindexes : ∀ l ∈ m.lookups, ∀ n ∈ l.indexes, 0 ≤ n ∧ n < 256) : m.write.Refuses := by
  obtain ⟨hlookups, hinstructions, hhash, hkeys, hheader⟩ := appends_parts m
  rw [write_eq]
  refine (refuses_writeVersion _).seq hheader ((refuses_writeHeader _).seq hkeys ?_)
  refine Write.Refuses.seq hhash (Write.refuses_array (fun k => Write.appends_key k) fun k _ =>
    Write.refuses_key k) ((Write.refuses_key _).seq hinstructions ?_)
  exact (Write.refuses_array appends_writeInstruction fun i hi =>
    refuses_writeInstruction (hpositions i hi)).seq hlookups (refuses_writeLookups hindexes)

end Parts

/-! ## The check

The check is a sequence of guards, each with a codec fault of its own, so it passes just when no
guard strikes. It does not look at numbers below zero, which cannot be read. -/

section Check

variable {m : Message} {listed total n : Nat} {is : List CompiledInstruction} {fault : Fault}

theorem checkInstructions_eq_ok :
    checkInstructions listed total n is = .ok () ↔
      ∀ i ∈ is, i.program < listed ∧ ∀ a ∈ i.accounts, a < (total : Int) := by
  induction is generalizing n with
  | nil => simp [checkInstructions]
  | cons i is ih =>
    rw [checkInstructions, Fault.guard_eq_ok, List.forall_mem_cons, Int.not_le, and_assoc]
    refine and_congr_right fun _ => ?_
    cases hfind : i.accounts.find? fun a => decide ((total : Int) ≤ a) with
    | some a =>
      have hmem := List.mem_of_find?_eq_some hfind
      have hle := List.find?_some hfind
      rw [decide_eq_true_eq] at hle
      exact ⟨fun h => (nomatch h), fun h => absurd hle (Int.not_le.mpr (h.1 a hmem))⟩
    | none =>
      rw [List.find?_eq_none] at hfind
      simp only [decide_eq_true_eq, Int.not_le] at hfind
      rw [ih]
      exact (and_iff_right hfind).symm

theorem checkInstructions_refuses (h : checkInstructions listed total n is = .error fault) :
    ∃ cause, fault = .codec cause := by
  induction is generalizing n with
  | nil => cases h
  | cons i is ih =>
    rw [checkInstructions, Fault.guard_eq_error] at h
    rcases h with ⟨-, rfl⟩ | ⟨-, h⟩
    · exact ⟨_, rfl⟩
    · cases hfind : i.accounts.find? fun a => decide ((total : Int) ≤ a) with
      | some a =>
        rw [hfind] at h
        cases h
        exact ⟨_, rfl⟩
      | none =>
        rw [hfind] at h
        exact ih h

theorem check_eq_ok : m.check = .ok () ↔
    m.header.signers ≠ 0 ∧ m.header.signers ≤ m.keys.length ∧
    m.header.readonlySigners ≤ m.header.signers ∧
    m.header.readonlyOthers ≤ m.keys.length - m.header.signers ∧ m.keys.Nodup ∧
    m.keys.length + m.loadedCount ≤ 256 ∧
    ∀ i ∈ m.instructions, i.program < m.keys.length ∧
      ∀ a ∈ i.accounts, a < (m.keys.length + m.loadedCount : Nat) := by
  unfold check
  simp only [Fault.guard_eq_ok, checkInstructions_eq_ok, Int.not_lt, Nat.not_lt,
    Classical.not_not, ne_eq]
  rfl

theorem check_refuses (h : m.check = .error fault) : ∃ cause, fault = .codec cause := by
  unfold check at h
  simp only [Fault.guard_eq_error] at h
  rcases h with ⟨-, rfl⟩ | ⟨-, ⟨-, rfl⟩ | ⟨-, ⟨-, rfl⟩ | ⟨-, ⟨-, rfl⟩ | ⟨-, ⟨-, rfl⟩ | ⟨-,
    ⟨-, rfl⟩ | ⟨-, h⟩⟩⟩⟩⟩⟩
  · exact ⟨_, rfl⟩
  · exact ⟨_, rfl⟩
  · exact ⟨_, rfl⟩
  · exact ⟨_, rfl⟩
  · exact ⟨_, rfl⟩
  · exact ⟨_, rfl⟩
  · exact checkInstructions_refuses h

theorem recognizes_checked (m : Message) :
    Read.Recognizes (checked m) fun m' bs => m.check = .ok () ∧ m' = m ∧ bs = [] := by
  rw [checked]
  cases hcheck : m.check with
  | ok _ =>
    refine (Read.recognizes_pure m).congr fun m' bs => ?_
    exact (and_iff_right rfl).symm
  | error fault =>
    obtain ⟨cause, rfl⟩ := check_refuses hcheck
    refine (Read.recognizes_throw cause).congr fun m' bs => ?_
    exact ⟨False.elim, fun h => (nomatch h.1)⟩

/-- **A message is well-formed** if it can be written and passes the check and, being a legacy
message, loads nothing and leaves the top bit of its first byte free. -/
theorem wellFormed_iff : m.WellFormed ↔ m.write.Succeeds ∧ m.check = .ok () ∧
    (m.version = .legacy → m.header.signers ≤ 127 ∧ m.lookups = []) := by
  simp only [succeeds_write, check_eq_ok, succeeds_writeInstruction, succeeds_writeLookup]
  constructor
  · intro h
    -- Programs and accounts lie below the number of all accounts, so at most 255: they are bytes.
    obtain ⟨hone, hlisted⟩ := h.signers
    obtain ⟨hrnonneg, hr⟩ := h.readonlySigners
    obtain ⟨hononneg, ho⟩ := h.readonlyOthers
    obtain ⟨hs, hrbyte, hobyte⟩ := h.counts
    have haccounts := h.accounts
    refine ⟨⟨⟨by omega, by omega, by omega⟩, h.lengths.1, ⟨h.lengths.2.1, ?_⟩, ?_⟩, ?_, h.legacy⟩
    · intro i hi
      have hprogram := h.programs i hi
      refine ⟨by omega, ⟨fun a ha => ?_, (h.instructionLengths i hi).1⟩,
        (h.instructionLengths i hi).2⟩
      have hposition := h.positions i hi a ha
      omega
    · intro _
      refine ⟨h.lengths.2.2, fun l hl => ?_⟩
      have hindex : ∀ n ∈ l.writable ++ l.readonly, 0 ≤ n ∧ n < 256 := fun n hn => by
        have hle := h.indexes l hl n hn
        omega
      rw [List.forall_mem_append] at hindex
      exact ⟨⟨hindex.1, (h.lookupLengths l hl).1⟩, hindex.2, (h.lookupLengths l hl).2⟩
    · exact ⟨by omega, hlisted, hr, ho, h.distinct, haccounts, fun i hi =>
        ⟨(h.programs i hi).2, fun a ha => (h.positions i hi a ha).2⟩⟩
  · rintro ⟨⟨⟨hs, hr, ho⟩, hkeys, ⟨hinstructions, hinstruction⟩, hlookups⟩,
      ⟨hzero, hlisted, hrle, hole, hdistinct, haccounts, hbounds⟩, hlegacy⟩
    have hlookup : m.lookups.length ≤ 0xFFFF ∧ ∀ l ∈ m.lookups,
        ((∀ n ∈ l.writable, 0 ≤ n ∧ n < 256) ∧ l.writable.length ≤ 0xFFFF) ∧
          (∀ n ∈ l.readonly, 0 ≤ n ∧ n < 256) ∧ l.readonly.length ≤ 0xFFFF := by
      cases hversion : m.version with
      | v0 => exact hlookups hversion
      | legacy => simp [(hlegacy hversion).2]
    exact {
      signers := ⟨by omega, hlisted⟩
      readonlySigners := ⟨hr.1, hrle⟩
      readonlyOthers := ⟨ho.1, hole⟩
      counts := ⟨by omega, by omega, by omega⟩
      distinct := hdistinct
      accounts := haccounts
      programs := fun i hi => ⟨(hinstruction i hi).1.1, (hbounds i hi).1⟩
      positions := fun i hi a ha => ⟨((hinstruction i hi).2.1.1 a ha).1, (hbounds i hi).2 a ha⟩
      indexes := fun l hl n hn => by
        obtain ⟨⟨hwritable, -⟩, hreadonly, -⟩ := hlookup.2 l hl
        have hlt := List.forall_mem_append.mpr ⟨hwritable, hreadonly⟩ n hn
        omega
      lengths := ⟨hkeys, hinstructions, hlookup.1⟩
      instructionLengths := fun i hi => ⟨(hinstruction i hi).2.1.2, (hinstruction i hi).2.2⟩
      lookupLengths := fun l hl => ⟨(hlookup.2 l hl).1.2, (hlookup.2 l hl).2.2⟩
      legacy := hlegacy }

end Check

/-! ## Reading and writing messages -/

section Messages

variable {m : Message} {bs : Bytes}

/-- The start of a message is the version and the number of signers as they are written, with the
top bit free in a legacy message. -/
theorem recognizes_start : Read.Recognizes readStart fun x bs =>
    (x.1 = .legacy → x.2 ≤ 127) ∧ ∃ v s, (writeVersion x.1).run = .ok v ∧
      (Write.integer .u8 x.2).run = .ok s ∧ v ++ s = bs := by
  refine recognizes_readStart.congr fun x bs => ?_
  simp only [Write.run_integer_eq_ok, IntKind.encode?_u8_eq_some]
  obtain ⟨version, signers⟩ := x
  constructor
  · rintro ⟨b, rfl, (⟨rfl, hle, rfl⟩ | ⟨rfl, rfl⟩)⟩
    · exact ⟨fun _ => by simp only; omega, [], [b], rfl, ⟨b, rfl, rfl⟩, rfl⟩
    · exact ⟨fun h => (nomatch h), [0x80], [b], rfl, ⟨b, rfl, rfl⟩, rfl⟩
  · rintro ⟨hlow, v, -, hv, ⟨b, rfl, rfl⟩, rfl⟩
    cases version with
    | legacy =>
      cases hv
      have hle := hlow rfl
      simp only at hle
      exact ⟨b, rfl, .inl ⟨rfl, by omega, rfl⟩⟩
    | v0 =>
      cases hv
      exact ⟨b, rfl, .inr ⟨rfl, rfl⟩⟩

/-- **Reading takes the bytes of well-formed messages** and nothing else. -/
theorem recognizes_read : Read.Recognizes read fun m bs => m.WellFormed ∧ m.bytes = .ok bs := by
  rw [read_eq]
  refine (recognizes_start.bind fun x _ _ => (Read.inverts_integer .u8).bind fun r _ _ =>
    (Read.inverts_integer .u8).bind fun o _ _ => ((Read.inverts_key .publicKey).array
      fun k => Write.appends_key k).bind fun keys _ _ => (Read.inverts_key .hash).bind
        fun blockhash _ _ => (inverts_readInstruction.array appends_writeInstruction).bind
          fun instructions _ _ => (recognizes_readLookups x.1).bind fun lookups _ _ =>
            recognizes_checked ⟨⟨x.2, r, o⟩, keys, blockhash, instructions, lookups, x.1⟩).congr
              fun m bs => ?_
  simp only [Write.run_key, Except.ok.injEq]
  constructor
  · rintro ⟨⟨version, signers⟩, -, -, ⟨hlow, v, s, hv, hs, rfl⟩, ⟨readonlySigners, r, -, hr,
      ⟨readonlyOthers, o, -, ho, ⟨keys, k, -, hk, ⟨blockhash, -, -, rfl, ⟨instructions, i, -, hi,
        ⟨lookups, l, -, ⟨hnone, hl⟩, ⟨hcheck, rfl, rfl⟩, rfl⟩, rfl⟩, rfl⟩, rfl⟩, rfl⟩, rfl⟩, rfl⟩
    have hbytes : bytes ⟨⟨signers, readonlySigners, readonlyOthers⟩, keys, blockhash,
        instructions, lookups, version⟩ = .ok (v ++ (s ++ (r ++ (o ++ (k ++ (blockhash.bytes ++
          (i ++ l))))))) :=
      bytes_eq_ok.mpr ⟨v, s, r, o, k, i, l, hv, hs, hr, ho, hk, hi, hl, rfl⟩
    refine ⟨wellFormed_iff.mpr ⟨⟨_, hbytes⟩, hcheck, fun h => ⟨hlow h, hnone h⟩⟩, ?_⟩
    rw [hbytes, List.append_nil, List.append_assoc]
  · rintro ⟨hwell, hbytes⟩
    obtain ⟨-, hcheck, hlegacy⟩ := wellFormed_iff.mp hwell
    obtain ⟨v, s, r, o, k, i, l, hv, hs, hr, ho, hk, hi, hl, rfl⟩ := bytes_eq_ok.mp hbytes
    refine ⟨(m.version, m.header.signers), v ++ s, _, ⟨fun h => (hlegacy h).1, v, s, hv, hs, rfl⟩,
      ⟨_, r, _, hr, ⟨_, o, _, ho, ⟨_, k, _, hk, ⟨_, _, _, rfl, ⟨_, i, _, hi, ⟨_, l, [],
        ⟨fun h => (hlegacy h).2, hl⟩, ⟨hcheck, rfl, rfl⟩, rfl⟩, rfl⟩, rfl⟩, rfl⟩, rfl⟩, rfl⟩, ?_⟩
    rw [List.append_nil, List.append_assoc]

theorem ofBytes_eq_ok : ofBytes bs = .ok m ↔ m.WellFormed ∧ m.bytes = .ok bs :=
  recognizes_read.all_eq_ok

theorem WellFormed.bytes_eq_ok (h : m.WellFormed) : ∃ bs, m.bytes = .ok bs :=
  (wellFormed_iff.mp h).1

/-- **Bytes and well-formed messages are in bijection.** What is read as a message is exactly what
a well-formed message is written as, and all other bytes are refused with a codec fault. What
follows the bytes of a well-formed message does not change how it is read, and nothing of it is
consumed. -/
theorem ofBytes_bytes_bijection :
    (∀ (bs : Bytes) (m : Message), ofBytes bs = .ok m ↔ m.WellFormed ∧ m.bytes = .ok bs) ∧
    (∀ bs : Bytes, (∃ m, ofBytes bs = .ok m) ∨ ∃ cause, ofBytes bs = .error (.codec cause)) ∧
    ∀ m : Message, m.WellFormed → ∃ bs, m.bytes = .ok bs ∧ ∀ tail,
      ExceptT.run read (Cursor.start (bs ++ tail)) = (.ok m, ⟨bs ++ tail, bs.length⟩) := by
  refine ⟨fun bs m => ofBytes_eq_ok, recognizes_read.all_refuses, fun m hwell => ?_⟩
  obtain ⟨bs, hbytes⟩ := hwell.bytes_eq_ok
  exact ⟨bs, hbytes, recognizes_read.reads ⟨hwell, hbytes⟩ []⟩

/-- A message with two loaded accounts is read back whatever follows it. -/
theorem ofBytes_bytes_bijection_loading :
    let m : Message := ⟨⟨1, 0, 0⟩, [.zero .publicKey], .zero .hash, [⟨0, [1, 2, 1], [7]⟩],
      [⟨.zero .publicKey, [3], [0]⟩], .v0⟩
    m.WellFormed ∧ ∃ bs, m.bytes = .ok bs ∧ ∀ tail,
      ExceptT.run read (Cursor.start (bs ++ tail)) = (.ok m, ⟨bs ++ tail, bs.length⟩) := by
  intro m
  have hwell : m.WellFormed := by constructor <;> decide
  exact ⟨hwell, ofBytes_bytes_bijection.2.2 m hwell⟩

end Messages

end Message

end LedgerClient
