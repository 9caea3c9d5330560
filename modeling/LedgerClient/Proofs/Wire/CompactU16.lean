import LedgerClient.Wire.CompactU16

/-!
# The spellings of compact lengths

The bytes that `groups` writes for a length are read back wherever they stand, whatever follows
them, and data that starts with no such bytes is refused with a codec fault. Both facts are
inductions on the number of groups that may still follow; between two groups, the groups read so
far make `value`, and the number that the remaining groups spell counts `128 ^ i` times. Together
they say what is read at a position, and with it that no spelling begins with another one.

## Main results

* `CompactU16.decode_groups`: a length is read back
* `CompactU16.decode_cases`: whatever is not the spelling of a length is refused
* `CompactU16.decode_eq_ok`: a length is read just where its spelling stands
* `CompactU16.decode_exact`: just the spellings of lengths are read, and each length has one
-/

namespace LedgerClient

theorem Sequence.at?_append_add {α : Type} (pre rest : List α) (i : Nat) :
    Sequence.at? (pre ++ rest) (pre.length + i : Int) = rest[i]? := by
  have hnat : ((pre.length : Int) + i).toNat = pre.length + i := by omega
  rw [at?, if_pos (by omega), hnat, List.getElem?_append_right (by omega), Nat.add_sub_cancel_left]

namespace CompactU16

theorem groups_of_lt {n : Nat} (h : n < 128) : groups n = [UInt8.ofNat n] := by
  rw [groups, if_pos h]

theorem groups_of_le {n : Nat} (h : 128 ≤ n) :
    groups n = UInt8.ofNat (n % 128 + 128) :: groups (n / 128) := by
  rw [groups, if_neg (by omega)]

theorem encode_eq_ok {n : Nat} {bs : Bytes} :
    encode n = .ok bs ↔ n ≤ 0xFFFF ∧ groups n = bs := by
  unfold encode
  split
  · simp only [Int.toNat_natCast, Except.ok.injEq]
    exact ⟨fun h => ⟨by omega, h⟩, fun h => h.2⟩
  · simp only [reduceCtorEq, false_iff]
    omega

/-- A length below 128 is written as one byte. -/
theorem encode_of_lt {n : Nat} (h : n < 128) : encode n = .ok [UInt8.ofNat n] :=
  encode_eq_ok.mpr ⟨by omega, groups_of_lt h⟩

/-- The top bit of a byte. -/
theorem continues_iff {b : UInt8} : 128 ≤ b ↔ 128 ≤ b.toNat :=
  UInt8.le_iff_toNat_le

section Decoding

variable {pre rest tail : Bytes} {left i value n : Nat} {b : UInt8}

theorem decodeGroup_short (h : rest.length ≤ i) :
    decodeGroup (pre ++ rest) pre.length (left + 1) i value =
      .error (.codec (.compactShort (pre.length + i))) := by
  rw [decodeGroup, if_pos (by simp only [List.length_append]; omega)]

theorem decodeGroup_cons (h : rest.drop i = b :: tail) :
    decodeGroup (pre ++ rest) pre.length (left + 1) i value =
      if b = 0 ∧ 0 < i then .error (.codec (.compactPadded pre.length))
      else if 128 ≤ b then
        decodeGroup (pre ++ rest) pre.length left (i + 1) (value + b.toNat % 128 * Nat.pow 128 i)
      else if 0xFFFF < value + b.toNat % 128 * Nat.pow 128 i then
        .error (.codec (.compactOverflow pre.length))
      else .ok (value + b.toNat % 128 * Nat.pow 128 i, i + 1) := by
  have hget : rest[i]? = some b := by
    rw [← Nat.add_zero i, ← List.getElem?_drop, h]
    rfl
  have hlt : i < rest.length := (List.getElem?_eq_some_iff.mp hget).1
  rw [decodeGroup, if_neg (by simp only [List.length_append]; omega),
    Sequence.at?_append_add, hget]

/-- A group and the groups after it, weighed at their place. -/
theorem weigh_group (n i : Nat) :
    n % 128 * Nat.pow 128 i + n / 128 * Nat.pow 128 (i + 1) = n * Nat.pow 128 i := by
  have hsplit : n = n % 128 + n / 128 * 128 := by omega
  calc n % 128 * Nat.pow 128 i + n / 128 * Nat.pow 128 (i + 1)
      = n % 128 * Nat.pow 128 i + n / 128 * 128 * Nat.pow 128 i := by
        rw [Nat.pow_eq, Nat.pow_eq, Nat.pow_succ, Nat.mul_comm (128 ^ i) 128, Nat.mul_assoc]
    _ = (n % 128 + n / 128 * 128) * Nat.pow 128 i := (Nat.add_mul ..).symm
    _ = n * Nat.pow 128 i := by rw [← hsplit]

/-- Reading the last group of a number, the number itself. -/
theorem decodeGroup_last (hn : n < 128) (hi : 0 < i → 0 < n)
    (hv : value + n * Nat.pow 128 i ≤ 0xFFFF) (h : rest.drop i = [UInt8.ofNat n] ++ tail) :
    decodeGroup (pre ++ rest) pre.length (left + 1) i value =
      .ok (value + n * Nat.pow 128 i, i + 1) := by
  have hbyte : (UInt8.ofNat n).toNat = n := by
    rw [UInt8.toNat_ofNat', Nat.mod_eq_of_lt (by omega)]
  rw [decodeGroup_cons h, if_neg, if_neg, hbyte, Nat.mod_eq_of_lt hn, if_neg (by omega)]
  · rw [continues_iff, hbyte]
    omega
  · -- A later group that is zero would be padding; `hi` excludes it.
    rintro ⟨hzero, hlater⟩
    rw [hzero, UInt8.toNat_zero] at hbyte
    have := hi hlater
    omega

/-- Reading the groups of a number from group `i` on; a later group than the first is not the
whole number zero. -/
theorem decodeGroup_groups (hn : n < Nat.pow 128 (left + 1)) (hi : 0 < i → 0 < n)
    (hv : value + n * Nat.pow 128 i ≤ 0xFFFF) (h : rest.drop i = groups n ++ tail) :
    decodeGroup (pre ++ rest) pre.length (left + 1) i value =
      .ok (value + n * Nat.pow 128 i, i + (groups n).length) := by
  -- Induction on the number of groups that may still follow this one.
  induction left generalizing i value n with
  | zero =>
    have hlow : n < 128 := hn
    rw [groups_of_lt hlow] at h ⊢
    exact decodeGroup_last hlow hi hv h
  | succ left ih =>
    rcases Nat.lt_or_ge n 128 with hlow | hhigh
    · rw [groups_of_lt hlow] at h ⊢
      exact decodeGroup_last hlow hi hv h
    · rw [groups_of_le hhigh] at h ⊢
      have hbyte : (UInt8.ofNat (n % 128 + 128)).toNat = n % 128 + 128 := by
        rw [UInt8.toNat_ofNat', Nat.mod_eq_of_lt (by omega)]
      have hdrop : rest.drop (i + 1) = groups (n / 128) ++ tail := by
        rw [← List.drop_drop, h]
        rfl
      have hquot : n / 128 < Nat.pow 128 (left + 1) := by
        rw [Nat.div_lt_iff_lt_mul (by decide)]
        exact hn
      have hweigh := weigh_group n i
      rw [decodeGroup_cons h, if_neg, if_pos, hbyte, Nat.add_mod_right, Nat.mod_mod,
        ih hquot (by omega) (by omega) hdrop]
      · simp only [List.length_cons, Except.ok.injEq, Prod.mk.injEq]
        omega
      · rw [continues_iff, hbyte]
        exact Nat.le_add_left ..
      · rintro ⟨hzero, -⟩
        rw [hzero] at hbyte
        simp at hbyte

/-- What the groups from group `i` on spell, or else a codec fault. -/
theorem decodeGroup_cases (pre rest : Bytes) (left i value : Nat) :
    (∃ n tail, n < Nat.pow 128 left ∧ (0 < i → 0 < n) ∧ value + n * Nat.pow 128 i ≤ 0xFFFF ∧
      rest.drop i = groups n ++ tail) ∨
    ∃ cause, decodeGroup (pre ++ rest) pre.length left i value = .error (.codec cause) := by
  -- Induction on the number of groups that may be read; without one, any spelling is too long.
  induction left generalizing i value with
  | zero => exact .inr ⟨_, rfl⟩
  | succ left ih =>
    by_cases hshort : rest.length ≤ i
    · exact .inr ⟨_, decodeGroup_short hshort⟩
    obtain ⟨b, tail, hdrop⟩ : ∃ b tail, rest.drop i = b :: tail :=
      ⟨_, _, List.drop_eq_getElem_cons (Nat.lt_of_not_le hshort)⟩
    have hnext : rest.drop (i + 1) = tail := by
      rw [← List.drop_drop, hdrop]
      rfl
    have hb := b.toNat_lt
    rw [decodeGroup_cons hdrop]
    by_cases hpad : b = 0 ∧ 0 < i
    · -- A zero behind another group is padding.
      exact .inr ⟨_, if_pos hpad⟩
    rw [if_neg hpad]
    by_cases hmore : 128 ≤ b
    · -- Another group follows: the number is this group and what the later ones spell.
      rw [if_pos hmore]
      rw [continues_iff] at hmore
      rcases ih (i + 1) (value + b.toNat % 128 * Nat.pow 128 i) with
        ⟨m, tail', hm, hpos, hv, htail⟩ | hfault
      · have hm0 := hpos (by omega)
        have hquot : (b.toNat % 128 + 128 * m) / 128 = m := by omega
        have hrem : (b.toNat % 128 + 128 * m) % 128 = b.toNat % 128 := by omega
        have hweigh := weigh_group (b.toNat % 128 + 128 * m) i
        have hfirst : UInt8.ofNat (b.toNat % 128 + 128) = b := by
          apply UInt8.toNat_inj.mp
          rw [UInt8.toNat_ofNat', Nat.mod_eq_of_lt] <;> omega
        rw [hquot, hrem] at hweigh
        refine .inl ⟨b.toNat % 128 + 128 * m, tail', ?_, by omega, by omega, ?_⟩
        · have hpow : Nat.pow 128 (left + 1) = Nat.pow 128 left * 128 := rfl
          omega
        · rw [groups_of_le (by omega), hquot, hrem, hfirst, hdrop, ← hnext, htail]
          rfl
      · exact .inr hfault
    · -- The last group, which is the whole number here.
      rw [if_neg hmore]
      rw [continues_iff] at hmore
      split
      · exact .inr ⟨_, rfl⟩
      · next hv =>
        rw [Nat.mod_eq_of_lt (by omega)] at hv
        refine .inl ⟨b.toNat, tail, ?_, ?_, by omega, ?_⟩
        · have hpow : 0 < Nat.pow 128 left := Nat.pow_pos (by decide)
          have hsucc : Nat.pow 128 (left + 1) = Nat.pow 128 left * 128 := rfl
          omega
        · intro hi
          refine Nat.pos_of_ne_zero fun hzero => hpad ⟨?_, hi⟩
          exact UInt8.toNat_inj.mp hzero
        · rw [groups_of_lt (by omega), hdrop, UInt8.ofNat_toNat]
          rfl

end Decoding

/-- **A compact length is read back** wherever it stands, whatever follows it. -/
theorem decode_groups (pre tail : Bytes) {n : Nat} (h : n ≤ 0xFFFF) :
    decode (pre ++ (groups n ++ tail)) pre.length = .ok (n, (groups n).length) := by
  have hpow : Nat.pow 128 (2 + 1) = 2097152 := rfl
  have hone : n * Nat.pow 128 0 = n := Nat.mul_one n
  have hrest : (groups n ++ tail).drop 0 = groups n ++ tail := rfl
  rw [decode, decodeGroup_groups (by omega) (by omega) (by omega) hrest]
  simp only [hone, Nat.zero_add]

/-- **Data that starts with no compact length is refused.** -/
theorem decode_cases (pre rest : Bytes) :
    (∃ n tail, n ≤ 0xFFFF ∧ rest = groups n ++ tail) ∨
      ∃ cause, decode (pre ++ rest) pre.length = .error (.codec cause) := by
  rcases decodeGroup_cases pre rest 3 0 0 with ⟨n, tail, -, -, hv, h⟩ | hfault
  · have hone : n * Nat.pow 128 0 = n := Nat.mul_one n
    exact .inl ⟨n, tail, by omega, h⟩
  · exact .inr hfault

/-! ## Positions

Data is cut in two at a position inside it, and behind its end there is nothing to be read. What is
read decides the rest: of two spellings that begin the same data each is the one that is read, so
they are spellings of the same length. -/

section Positions

variable {data : Bytes} {offset n m count : Nat}

theorem length_groups_pos (n : Nat) : 0 < (groups n).length := by
  rcases Nat.lt_or_ge n 128 with hlow | hhigh
  · rw [groups_of_lt hlow]
    exact Nat.zero_lt_one
  · rw [groups_of_le hhigh]
    exact Nat.zero_lt_succ _

/-- A length has a group for each seven bits that it needs. -/
theorem length_groups (h : n ≤ 0xFFFF) :
    (groups n).length = if n < 128 then 1 else if n < 16384 then 2 else 3 := by
  split
  · next hone => rw [groups_of_lt hone, List.length_singleton]
  · next hone =>
    rw [groups_of_le (by omega), List.length_cons]
    split
    · next htwo => rw [groups_of_lt (by omega), List.length_singleton]
    · next htwo =>
      rw [groups_of_le (by omega), List.length_cons, groups_of_lt (by omega),
        List.length_singleton]

/-- Behind the end of the data there is no length. -/
theorem decode_of_length_le (h : data.length ≤ offset) :
    decode data offset = .error (.codec (.compactShort offset)) := by
  have hshort : (data.length : Int) ≤ (offset : Int) + (0 : Nat) := by omega
  rw [decode, decodeGroup, if_pos hshort, Int.natCast_zero, Int.add_zero]

/-- A position inside the data cuts it in two. -/
theorem decode_eq_decode_append (h : offset ≤ data.length) :
    decode data offset =
      decode (data.take offset ++ data.drop offset) (data.take offset).length := by
  rw [List.take_append_drop, List.length_take_of_le h]

/-- A spelling at a position is read. -/
theorem decode_of_spelled (hn : n ≤ 0xFFFF) (h : groups n <+: data.drop offset) :
    decode data offset = .ok (n, (groups n).length) := by
  have hpos := length_groups_pos n
  have hlength := h.length_le
  rw [List.length_drop] at hlength
  obtain ⟨tail, htail⟩ := h
  rw [decode_eq_decode_append (by omega), ← htail, decode_groups _ _ hn]

/-- A spelling is read at a position, or else there is a codec fault. -/
theorem exists_spelled_or_codec (data : Bytes) (offset : Nat) :
    (∃ n, n ≤ 0xFFFF ∧ groups n <+: data.drop offset) ∨
      ∃ cause, decode data offset = .error (.codec cause) := by
  rcases Nat.le_total data.length offset with hbehind | hinside
  · exact .inr ⟨_, decode_of_length_le hbehind⟩
  · rw [decode_eq_decode_append hinside]
    rcases decode_cases (data.take offset) (data.drop offset) with ⟨n, tail, hn, hdrop⟩ | hfault
    · exact .inl ⟨n, hn, tail, hdrop.symm⟩
    · exact .inr hfault

/-- **A length is read** just where the bytes at the position are its spelling. -/
theorem decode_eq_ok : decode data offset = .ok (n, count) ↔
    n ≤ 0xFFFF ∧ (groups n).length = count ∧ groups n <+: data.drop offset := by
  constructor
  · intro h
    rcases exists_spelled_or_codec data offset with ⟨m, hm, hfront⟩ | ⟨cause, herror⟩
    · rw [decode_of_spelled hm hfront, Except.ok.injEq, Prod.mk.injEq] at h
      obtain ⟨rfl, rfl⟩ := h
      exact ⟨hm, rfl, hfront⟩
    · rw [herror] at h
      cases h
  · rintro ⟨hn, rfl, hfront⟩
    exact decode_of_spelled hn hfront

/-- Spellings of which one begins with the other are of the same length: both begin the longer
one, and only one is read there. -/
theorem eq_of_spelled (hn : n ≤ 0xFFFF) (hm : m ≤ 0xFFFF) (h : groups n <+: groups m) :
    n = m := by
  have hread : decode (groups m) (0 : Nat) = .ok (n, (groups n).length) := decode_of_spelled hn h
  rw [decode_of_spelled hm (List.prefix_refl _)] at hread
  cases hread
  rfl

/-- What is encoded is a length of 16 bits, in its spelling. -/
theorem exists_of_encode_eq_ok {value : Int} {bs : Bytes} (h : encode value = .ok bs) :
    ∃ n : Nat, value = n ∧ n ≤ 0xFFFF ∧ groups n = bs := by
  have hvalue : 0 ≤ value := by
    unfold encode at h
    split at h
    · next hrange => exact hrange.1
    · cases h
  obtain ⟨n, rfl⟩ := Int.eq_ofNat_of_zero_le hvalue
  exact ⟨n, rfl, encode_eq_ok.mp h⟩

end Positions

/-- **Just the spellings of lengths are read**, at any position of any data. The number that is
read is of 16 bits, and the bytes it is read from are those that it is encoded as; everything else
is refused with a codec fault. So no spelling begins with that of another length, and a length of
16 bits has one spelling alone, of one, two or three bytes. -/
theorem decode_exact (data : Bytes) (offset : Nat) :
    (∀ n count : Nat, decode data offset = .ok (n, count) ↔
      n ≤ 0xFFFF ∧ ∃ bs, encode n = .ok bs ∧ bs.length = count ∧
        (data.drop offset).take count = bs) ∧
    ((∃ n count, decode data offset = .ok (n, count)) ∨
      ∃ cause, decode data offset = .error (.codec cause)) ∧
    (∀ (v w : Int) (bs cs : Bytes), encode v = .ok bs → encode w = .ok cs → bs <+: cs → v = w) ∧
    ∀ n : Nat, n ≤ 0xFFFF → ∃ bs, encode n = .ok bs ∧
      bs.length = (if n < 128 then 1 else if n < 16384 then 2 else 3) ∧
      ∀ spelling : Bytes, decode spelling 0 = .ok (n, spelling.length) ↔ spelling = bs := by
  refine ⟨fun n count => ?_, ?_, ?_, fun n hn => ?_⟩
  · rw [decode_eq_ok]
    refine and_congr_right fun hn => ⟨?_, ?_⟩
    · rintro ⟨rfl, hfront⟩
      exact ⟨_, encode_eq_ok.mpr ⟨hn, rfl⟩, rfl, (List.prefix_iff_eq_take.mp hfront).symm⟩
    · rintro ⟨bs, hencode, rfl, htake⟩
      obtain ⟨-, rfl⟩ := encode_eq_ok.mp hencode
      exact ⟨rfl, List.prefix_iff_eq_take.mpr htake.symm⟩
  · rcases exists_spelled_or_codec data offset with ⟨n, hn, hfront⟩ | hfault
    · exact .inl ⟨_, _, decode_of_spelled hn hfront⟩
    · exact .inr hfault
  · intro v w bs cs hv hw hfront
    obtain ⟨n, rfl, hn, rfl⟩ := exists_of_encode_eq_ok hv
    obtain ⟨m, rfl, hm, rfl⟩ := exists_of_encode_eq_ok hw
    rw [eq_of_spelled hn hm hfront]
  · refine ⟨_, encode_eq_ok.mpr ⟨hn, rfl⟩, length_groups hn, fun spelling => ?_⟩
    have hread : decode spelling 0 = .ok (n, spelling.length) ↔
        n ≤ 0xFFFF ∧ (groups n).length = spelling.length ∧ groups n <+: spelling := decode_eq_ok
    rw [hread]
    constructor
    · rintro ⟨-, hlength, hfront⟩
      exact (hfront.eq_of_length hlength).symm
    · rintro rfl
      exact ⟨hn, rfl, List.prefix_refl _⟩

end CompactU16

end LedgerClient
