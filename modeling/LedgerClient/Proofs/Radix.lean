import Mathlib.Data.Nat.Digits.Lemmas
import LedgerClient.Bytes
import LedgerClient.Radix

/-!
# Digits and numbers

The digits of a number, lowest first, are those of the library, so highest first they are the same
list reversed. A list of digits is the list of its number just when it does not begin with zero;
byte strings are such lists in base 256 once their zero bytes at the front are left aside.

## Main results

* `Radix.ofDigits_digits`, `Radix.digits_ofDigits`: digits and numbers
* `Bytes.digits_toNatBE`, `Bytes.toNatBE_digits`: the digits of the number of a byte string, and the
  number of digits that are written as bytes
-/

namespace LedgerClient

namespace Radix

variable {base : Nat} {ds : List Nat}

theorem digitsOnto_eq (h : 1 < base) (n : Nat) (tail : List Nat) :
    digitsOnto base n tail = (Nat.digits base n).reverse ++ tail := by
  fun_induction digitsOnto base n tail with
  | case1 n tail hn ih =>
    rw [ih, Nat.digits_def' h hn.2, List.reverse_cons, List.append_assoc]
    rfl
  | case2 n tail hn =>
    have hzero : n = 0 := by omega
    rw [hzero, Nat.digits_zero]
    rfl

theorem digits_eq (h : 1 < base) (n : Nat) : digits base n = (Nat.digits base n).reverse := by
  rw [digits, digitsOnto_eq h, List.append_nil]

theorem ofDigits_eq (base : Nat) (ds : List Nat) :
    ofDigits base ds = Nat.ofDigits base ds.reverse := by
  rw [Nat.ofDigits_eq_foldr, List.foldr_reverse, ofDigits]
  congr 1
  funext n d
  exact Nat.add_comm _ _

/-- **The digits of a number are digits of it.** -/
theorem ofDigits_digits (h : 1 < base) (n : Nat) : ofDigits base (digits base n) = n := by
  rw [ofDigits_eq, digits_eq h, List.reverse_reverse, Nat.ofDigits_digits]

/-- **Digits that do not begin with zero** are the digits of their number. -/
theorem digits_ofDigits (h : 1 < base) (hlt : ∀ d ∈ ds, d < base) (hhead : ds.head? ≠ some 0) :
    digits base (ofDigits base ds) = ds := by
  rw [digits_eq h, ofDigits_eq, Nat.digits_ofDigits base h, List.reverse_reverse]
  · intro d hd
    exact hlt d (List.mem_reverse.mp hd)
  · intro hne hlast
    apply hhead
    rw [← List.getLast?_reverse, List.getLast?_eq_some_getLast hne, hlast]

theorem digits_lt (h : 1 < base) {n d : Nat} (hd : d ∈ digits base n) : d < base := by
  rw [digits_eq h, List.mem_reverse] at hd
  exact Nat.digits_lt_base h hd

/-- No number begins with the digit zero. -/
theorem head?_digits_ne (h : 1 < base) (n : Nat) : (digits base n).head? ≠ some 0 := by
  intro hhead
  rw [digits_eq h, List.head?_reverse] at hhead
  have hne : Nat.digits base n ≠ [] := by
    intro hnil
    rw [hnil] at hhead
    cases hhead
  rw [List.getLast?_eq_some_getLast hne, Option.some.injEq] at hhead
  exact Nat.getLast_digit_ne_zero base (Nat.digits_ne_nil_iff_ne_zero.mp hne) hhead

end Radix

namespace Bytes

/-- A byte string is the list of the digits of its number in base 256. -/
theorem toNatBE_eq (bs : Bytes) : toNatBE bs = Radix.ofDigits 256 (bs.map UInt8.toNat) := by
  rw [toNatBE, Radix.ofDigits, List.foldl_map]

theorem toNatBE_zero_cons (bs : Bytes) : toNatBE (0 :: bs) = toNatBE bs := rfl

/-- Zero bytes at the front do not change the number. -/
theorem toNatBE_dropWhile (bs : Bytes) : toNatBE (bs.dropWhile (· == 0)) = toNatBE bs := by
  induction bs with
  | nil => rfl
  | cons b bs ih =>
    rw [List.dropWhile_cons]
    split
    · next hb =>
      rw [ih, eq_of_beq hb, toNatBE_zero_cons]
    · rfl

/-- **The digits of the number of a byte string** are its bytes after the zeros at the front. -/
theorem digits_toNatBE (bs : Bytes) :
    (Radix.digits 256 (toNatBE bs)).map UInt8.ofNat = bs.dropWhile (· == 0) := by
  rw [← toNatBE_dropWhile, toNatBE_eq, Radix.digits_ofDigits (by decide), List.map_map]
  · have hback : UInt8.ofNat ∘ UInt8.toNat = id := by
      ext b
      exact congrArg UInt8.toNat UInt8.ofNat_toNat
    rw [hback, List.map_id]
  · intro d hd
    obtain ⟨b, -, rfl⟩ := List.mem_map.mp hd
    exact b.toNat_lt
  · intro hhead
    rw [List.head?_map, Option.map_eq_some_iff] at hhead
    obtain ⟨b, hb, hzero⟩ := hhead
    have hne := List.head?_dropWhile_not (· == 0) bs
    rw [hb] at hne
    simp [UInt8.toNat_inj.mp (hzero.trans rfl : b.toNat = (0 : UInt8).toNat)] at hne

/-- **The number of digits that are written as bytes** is the number they are the digits of. -/
theorem toNatBE_digits (n : Nat) : toNatBE ((Radix.digits 256 n).map UInt8.ofNat) = n := by
  have hdigit : ∀ d ∈ Radix.digits 256 n, (UInt8.toNat ∘ UInt8.ofNat) d = d := by
    intro d hd
    have hlt : d < 256 := Radix.digits_lt (by decide) hd
    exact UInt8.toNat_ofNat_of_lt' hlt
  rw [toNatBE_eq, List.map_map, List.map_congr_left hdigit, List.map_id',
    Radix.ofDigits_digits (by decide)]

/-- Digits that are written as bytes do not begin with a zero byte. -/
theorem head?_map_digits_ne (n : Nat) :
    ((Radix.digits 256 n).map UInt8.ofNat).head? ≠ some 0 := by
  intro hzero
  rw [List.head?_map, Option.map_eq_some_iff] at hzero
  obtain ⟨d, hd, hbyte⟩ := hzero
  have hlt : d < 256 := Radix.digits_lt (by decide) (List.mem_of_mem_head? hd)
  have hvalue := congrArg UInt8.toNat hbyte
  rw [UInt8.toNat_ofNat_of_lt' hlt] at hvalue
  have hne := Radix.head?_digits_ne (by decide : 1 < 256) n
  rw [hd, hvalue] at hne
  exact hne rfl

end Bytes

end LedgerClient
