import LedgerClient.Discriminator
import LedgerClient.Proofs.Wire.Reading

/-!
# Tags are read as they are written

The bytes of a number in either order are in bijection with the numbers that fit, so a tag is read
from its own bytes and from no others: bytes of its width that stand for another number are refused.
The other ways to check a tag look at the same bytes, so they cannot come to another result.

## Main results

* `ByteOrder.decode_encode`, `ByteOrder.encode_decode`: the bytes of a number in an order and back
* `Discriminator.recognizes_read`: a tag is read just where its bytes stand
* `Discriminator.checks_agree`: the three checks of a tag agree
-/

namespace LedgerClient

namespace Bytes

/-- Bytes that stand for a number highest first stand for it lowest first in reverse. -/
theorem toNatBE_reverse (bs : Bytes) : toNatBE bs.reverse = toNatLE bs := by
  induction bs with
  | nil => rfl
  | cons b bs ih =>
    rw [toNatBE, List.foldl_reverse, List.foldr_cons, ← List.foldl_reverse, ← toNatBE, ih,
      toNatLE_cons, Nat.add_comm]

end Bytes

namespace ByteOrder

variable {order : ByteOrder} {bs : Bytes}

@[simp] theorem length_encode (order : ByteOrder) (width n : Nat) :
    (order.encode width n).length = width := by
  cases order with
  | little => exact Bytes.length_ofNatLE width n
  | big => exact Bytes.length_ofNatBE width n

theorem decode_encode {width n : Nat} (h : n < Nat.pow 256 width) :
    order.decode (order.encode width n) = n := by
  have hlittle : Bytes.toNatLE (Bytes.ofNatLE width n) = n := by
    rw [Bytes.toNatLE_ofNatLE]
    exact Nat.mod_eq_of_lt h
  cases order with
  | little => exact hlittle
  | big => exact (Bytes.toNatBE_reverse _).trans hlittle

theorem encode_decode (order : ByteOrder) (bs : Bytes) :
    order.encode bs.length (order.decode bs) = bs := by
  cases order with
  | little => exact Bytes.ofNatLE_toNatLE bs
  | big =>
    have hreverse := Bytes.ofNatLE_toNatLE bs.reverse
    rw [← Bytes.toNatBE_reverse, List.reverse_reverse, List.length_reverse] at hreverse
    rw [encode, decode, Bytes.ofNatBE, hreverse, List.reverse_reverse]

end ByteOrder

namespace Discriminator

variable (d : Discriminator)

@[simp] theorem length_bytes : d.bytes.length = d.width :=
  ByteOrder.length_encode _ _ _

/-- Bytes of the width of a tag are its bytes just when they stand for its number. -/
theorem decode_eq_value {bs : Bytes} (h : bs.length = d.width) :
    d.order.decode bs = d.value ↔ bs = d.bytes := by
  constructor
  · intro hvalue
    rw [bytes, ← hvalue, ← h, ByteOrder.encode_decode]
  · rintro rfl
    exact ByteOrder.decode_encode d.value_lt

/-- **A tag is read just where its bytes stand.** -/
theorem recognizes_read : Read.Recognizes d.read fun _ bs => bs = d.bytes := by
  refine ((Read.recognizes_bytes d.width).bind
    (Q := fun bs _ rest => bs = d.bytes ∧ rest = []) ?_).congr ?_
  · rintro bs _ ⟨rfl, hlength⟩
    by_cases hvalue : d.order.decode bs = d.value
    · rw [if_neg (not_not_intro hvalue)]
      refine (Read.recognizes_pure ()).congr fun _ rest => ?_
      exact and_congr_left' (iff_of_true rfl ((d.decode_eq_value hlength).mp hvalue))
    · rw [if_pos hvalue]
      refine (Read.recognizes_throw _).congr fun _ rest => ?_
      exact ⟨False.elim, fun h => hvalue ((d.decode_eq_value hlength).mpr h.1)⟩
  · intro _ bs
    constructor
    · rintro ⟨_, a, b, ⟨rfl, -⟩, ⟨rfl, rfl⟩, rfl⟩
      rw [List.append_nil]
    · rintro rfl
      exact ⟨_, d.bytes, [], ⟨rfl, d.length_bytes⟩, ⟨rfl, rfl⟩, List.append_nil _⟩

/-! ## The three checks

A tag is compared as bytes cut off the data, with or without a look at how many there are, or as a
number after it is read. Bytes cut off short data are fewer than those of the tag, so the first two
agree, and a number of a width has one spelling, so the third agrees with them. -/

variable {d} {e : Discriminator} {data expected : Bytes}

theorem isAtFront_iff : d.isAtFront data = true ↔ d.bytes <+: data := by
  rw [isAtFront, beq_iff_eq, List.prefix_iff_eq_take, length_bytes, eq_comm]

/-- Bytes are demanded with success where the data begins with them. -/
theorem demand_eq_ok : demand data expected = .ok () ↔ expected <+: data := by
  rw [List.prefix_iff_eq_take]
  unfold demand
  split
  · next hshort =>
    refine iff_of_false nofun fun htake => ?_
    have hlength := congrArg List.length htake
    rw [List.length_take] at hlength
    omega
  · split
    · next hother => exact iff_of_false nofun fun htake => hother htake.symm
    · next hsame => exact iff_of_true rfl (not_not.mp hsame).symm

theorem exceptRun_read_of_front (h : d.bytes <+: data) :
    ExceptT.run d.read (Cursor.start data) = (.ok (), ⟨data, d.width⟩) := by
  obtain ⟨tail, rfl⟩ := h
  rw [Cursor.start_eq_between, d.recognizes_read.reads rfl, Cursor.between, List.nil_append,
    length_bytes]

/-- A tag is read at the beginning of data that begins with its bytes. -/
theorem read_eq_ok :
    (ExceptT.run d.read (Cursor.start data)).1 = .ok () ↔ d.bytes <+: data := by
  constructor
  · intro hok
    rcases d.recognizes_read.refuses [] data with ⟨_, bs, tail, rfl, rfl⟩ | ⟨cause, herror⟩
    · exact List.prefix_append _ _
    · rw [Cursor.start_eq_between, herror] at hok
      cases hok
  · intro hfront
    rw [exceptRun_read_of_front hfront]

/-- Tags of one width and order have the same bytes only for the same number. -/
theorem value_eq_of_bytes_eq (horder : e.order = d.order) (h : e.bytes = d.bytes) :
    e.value = d.value := by
  have hd : d.order.decode d.bytes = d.value := ByteOrder.decode_encode d.value_lt
  have he : e.order.decode e.bytes = e.value := ByteOrder.decode_encode e.value_lt
  rw [← he, ← hd, horder, h]

/-- **The three checks of a tag agree.** Data begins with the bytes of a tag just when the tag is
found at its front, just when it is read from the beginning, and just when its bytes are demanded
with success; a tag that is read is taken as a whole. It is read where it was written, whatever
was written before and whatever follows, and of the tags of one width and order no two are at the
front of the same data unless they are of the same number. -/
theorem checks_agree (d : Discriminator) (data : Bytes) :
    (d.isAtFront data = true ↔ d.bytes <+: data) ∧
    ((ExceptT.run d.read (Cursor.start data)).1 = .ok () ↔ d.bytes <+: data) ∧
    (demand data d.bytes = .ok () ↔ d.bytes <+: data) ∧
    ((ExceptT.run d.read (Cursor.start data)).1 = .ok () →
      (ExceptT.run d.read (Cursor.start data)).2 = ⟨data, d.width⟩) ∧
    (∀ written tail : Bytes, ∃ appended,
      ExceptT.run d.write written = (.ok (), written ++ appended) ∧
        ExceptT.run d.read (Cursor.start (appended ++ tail)) =
          (.ok (), ⟨appended ++ tail, d.width⟩)) ∧
    ∀ e : Discriminator, e.width = d.width → e.order = d.order → e.isAtFront data = true →
      d.isAtFront data = true → e.value = d.value := by
  refine ⟨isAtFront_iff, read_eq_ok, demand_eq_ok, ?_, ?_, ?_⟩
  · intro hok
    rw [exceptRun_read_of_front (read_eq_ok.mp hok)]
  · intro written tail
    exact ⟨d.bytes, rfl, exceptRun_read_of_front (List.prefix_append _ _)⟩
  · intro e hwidth horder he hd
    apply value_eq_of_bytes_eq horder
    rw [List.prefix_iff_eq_take.mp (isAtFront_iff.mp he),
      List.prefix_iff_eq_take.mp (isAtFront_iff.mp hd), length_bytes, length_bytes, hwidth]

end Discriminator

end LedgerClient
