import LedgerClient.Wire.IntKind

/-!
# The bytes of fixed-width integers

Little-endian digits of a fixed width and the numbers below a power of the base are in
bijection, and so are the members of a kind of integer and the byte strings of its width: each
member has one spelling and each spelling belongs to one member, whatever bytes follow it.

## Main results

* `Bytes.toNatLE_ofNatLE`, `Bytes.ofNatLE_toNatLE`: the digits of a number and back
* `IntKind.decode_append`: a member is read back in front of any bytes
* `IntKind.encode?_decode`: the bytes that are read spell the integer that is read
-/

namespace LedgerClient

namespace Bytes

@[simp] theorem toNatLE_cons (b : UInt8) (bs : Bytes) :
    toNatLE (b :: bs) = b.toNat + 256 * toNatLE bs := rfl

theorem toNatLE_lt (bs : Bytes) : toNatLE bs < Nat.pow 256 bs.length := by
  induction bs with
  | nil => exact Nat.one_pos
  | cons b bs ih =>
    have hb := b.toNat_lt
    simp only [toNatLE_cons, List.length_cons, Nat.pow_eq, Nat.pow_succ] at ih ⊢
    omega

theorem toNatLE_ofNatLE (width n : Nat) :
    toNatLE (ofNatLE width n) = n % Nat.pow 256 width := by
  induction width generalizing n with
  | zero => simp [ofNatLE, toNatLE, Nat.mod_one]
  | succ width ih =>
    have hlow : (UInt8.ofNat n).toNat = n % 256 := UInt8.toNat_ofNat'
    rw [ofNatLE, toNatLE_cons, ih, hlow, Nat.pow_eq, Nat.pow_eq, Nat.pow_succ,
      Nat.mul_comm _ 256, Nat.mod_mul]

theorem ofNatLE_toNatLE (bs : Bytes) : ofNatLE bs.length (toNatLE bs) = bs := by
  induction bs with
  | nil => rfl
  | cons b bs ih =>
    have hb := b.toNat_lt
    have hdiv : (b.toNat + 256 * toNatLE bs) / 256 = toNatLE bs := by omega
    have hlow : UInt8.ofNat (b.toNat + 256 * toNatLE bs) = b := ofNat_eq (by omega)
    rw [List.length_cons, toNatLE_cons, ofNatLE, hdiv, ih, hlow]

end Bytes

namespace IntKind

variable {kind : IntKind} {n : Int} {bs : Bytes}

theorem size_pos (kind : IntKind) : 0 < kind.size :=
  Nat.pow_pos (by decide)

theorem even_size (kind : IntKind) : kind.size % 2 = 0 := by
  cases kind <;> rfl

@[simp] theorem length_encode (kind : IntKind) (n : Int) : (kind.encode n).length = kind.width := by
  simp [encode]

theorem encode?_eq_some : kind.encode? n = some bs ↔ kind.Holds n ∧ kind.encode n = bs := by
  unfold encode?
  split <;> simp_all

theorem length_eq_of_encode? (h : kind.encode? n = some bs) : bs.length = kind.width := by
  rw [← (encode?_eq_some.mp h).2, length_encode]

/-- The remainder of a member: a negative one moves up by the size. -/
theorem emod_size (h : kind.Holds n) : n % kind.size = if n < 0 then n + kind.size else n := by
  have hsize := kind.size_pos
  unfold Holds least at h
  split
  · next hneg =>
    rw [← Int.add_emod_right]
    exact Int.emod_eq_of_lt (by split at h <;> omega) (by omega)
  · exact Int.emod_eq_of_lt (by omega) (by split at h <;> omega)

/-- The number below the size that a byte string of the width spells, as an integer. -/
theorem toNatLE_encode (kind : IntKind) (n : Int) :
    (Bytes.toNatLE (kind.encode n) : Int) = n % kind.size := by
  have hsize := kind.size_pos
  have hnonneg := Int.emod_nonneg n (Int.ne_of_gt (Int.natCast_pos.mpr hsize))
  have hlt := Int.emod_lt_of_pos n (Int.natCast_pos.mpr hsize)
  have hmod : (n % kind.size).toNat % kind.size = (n % kind.size).toNat :=
    Nat.mod_eq_of_lt (by omega)
  rw [encode, Bytes.toNatLE_ofNatLE]
  change (((n % kind.size).toNat % kind.size : Nat) : Int) = _
  omega

/-- **A member is read back** in front of any bytes. -/
theorem decode_append (h : kind.encode? n = some bs) (tail : Bytes) :
    kind.decode (bs ++ tail) = n := by
  obtain ⟨hold, rfl⟩ := encode?_eq_some.mp h
  have hnat := toNatLE_encode kind n
  have hsize := kind.size_pos
  have heven := kind.even_size
  rw [emod_size hold] at hnat
  -- A negative member was moved into the upper half of the size, where reading moves it back.
  simp only [decode, List.take_left' (length_encode kind n), Bool.and_eq_true, decide_eq_true_eq]
  unfold Holds least at hold
  split at hnat <;> split at hold <;> split <;> simp_all <;> omega

/-- **The bytes that are read spell the integer that is read.** -/
theorem encode?_decode (h : kind.width ≤ bs.length) :
    kind.encode? (kind.decode bs) = some (bs.take kind.width) := by
  have hlen : (bs.take kind.width).length = kind.width := by simp [h]
  have hlt := Bytes.toNatLE_lt (bs.take kind.width)
  have hback := Bytes.ofNatLE_toNatLE (bs.take kind.width)
  have heven := kind.even_size
  rw [hlen] at hlt hback
  change _ < kind.size at hlt
  -- What is read is a member of the kind, so it is the digits up to the size ...
  have hold : kind.Holds (kind.decode bs) := by
    simp only [Holds, least, decode, Bool.and_eq_true, decide_eq_true_eq]
    split <;> split <;> simp_all <;> omega
  have hnat : kind.decode bs % kind.size = Bytes.toNatLE (bs.take kind.width) := by
    rw [emod_size hold]
    simp only [decode, Bool.and_eq_true, decide_eq_true_eq]
    split <;> split <;> omega
  -- ... and writing it finds the digits again.
  rw [encode?_eq_some]
  refine ⟨hold, ?_⟩
  rw [encode, hnat, Int.toNat_natCast, hback]

/-- The spellings of an eight-bit number are the single bytes. -/
theorem encode?_u8_eq_some : u8.encode? n = some bs ↔ ∃ b : UInt8, n = b.toNat ∧ bs = [b] := by
  constructor
  · intro h
    obtain ⟨b, rfl⟩ := List.length_eq_one_iff.mp (length_eq_of_encode? h)
    refine ⟨b, ?_, rfl⟩
    rw [← decode_append h []]
    simp [decode, signed, width, Bytes.toNatLE]
  · rintro ⟨b, rfl, rfl⟩
    have h : u8.encode? (u8.decode [b]) = some ([b].take u8.width) :=
      encode?_decode (Nat.le_refl 1)
    simpa [decode, signed, width, Bytes.toNatLE] using h

end IntKind

end LedgerClient
