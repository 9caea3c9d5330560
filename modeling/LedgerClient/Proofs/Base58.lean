import Mathlib.Data.List.TakeWhile
import LedgerClient.Base58
import LedgerClient.Proofs.Radix

/-!
# Base58 texts

The text of a byte string is a positional code: its zero bytes at the front are so many `1`s, and
the number of the bytes follows in base 58 without a leading zero digit. Nothing else is, since both
the `1`s and the digits are determined by the bytes. The text is read back as the bytes: no
character of a code is blank, and no digit behind the `1`s is taken for one of them.

## Main definitions

* `Base58.Codes`: characters that are the positional code of a byte string

## Main results

* `Base58.codes_iff`: the characters of a byte string are the one code that it has
* `Base58.decode?_encode`: the text of a byte string is read back as the byte string
* `Base58.decode?_eq_some`: no other text is read as it, white space at the end left aside
-/

namespace LedgerClient.Base58

variable {bs : Bytes} {cs : List Char} {ds : List Nat}

/-- The characters are the positional code of a byte string: a `1` for each zero byte at the front,
and then the digits of its number, the first of which is not zero. -/
def Codes (cs : List Char) (bs : Bytes) : Prop :=
  ∃ ds : List Nat, (∀ d ∈ ds, d < 58) ∧ ds.head? ≠ some 0 ∧
    Radix.ofDigits 58 ds = Bytes.toNatBE bs ∧
      cs = List.replicate (bs.takeWhile (· == 0)).length '1' ++ ds.map charOf

/-! ## The alphabet -/

theorem digitOf?_charOf : ∀ d < 58, digitOf? (charOf d) = some d := by
  decide

theorem charOf_bounds : ∀ d < 58, 0x20 < (charOf d).toNat ∧ (charOf d).toNat < 0x7F := by
  decide

/-- A character of ASCII text behind the space is not blank. -/
theorem not_isBlank_of_bounds {c : Char} (h : 0x20 < c.toNat ∧ c.toNat < 0x7F) :
    Blank.isBlank c = false := by
  simp only [Blank.isBlank, Bool.or_eq_false_iff, Bool.and_eq_false_iff, decide_eq_false_iff_not,
    beq_eq_false_iff_ne]
  omega

theorem mapM_digitOf? (h : ∀ d ∈ ds, d < 58) : (ds.map charOf).mapM digitOf? = some ds := by
  induction ds with
  | nil => rfl
  | cons d ds ih =>
    obtain ⟨hd, hds⟩ := List.forall_mem_cons.mp h
    rw [List.map_cons, List.mapM_cons, digitOf?_charOf d hd, ih hds]
    rfl

/-- A digit that is not zero is not written as `1`. -/
theorem head?_map_charOf (hlt : ∀ d ∈ ds, d < 58) (hhead : ds.head? ≠ some 0) :
    (ds.map charOf).head? ≠ some '1' := by
  intro hone
  rw [List.head?_map, Option.map_eq_some_iff] at hone
  obtain ⟨d, hd, hchar⟩ := hone
  have hdigit := digitOf?_charOf d (hlt d (List.mem_of_mem_head? hd))
  rw [hchar] at hdigit
  have hzero : digitOf? '1' = some 0 := digitOf?_charOf 0 (by decide)
  apply hhead
  rw [hd, ← hdigit, hzero]

/-! ## Codes -/

/-- **The characters of a byte string** are its code, and it has no other. -/
theorem codes_iff : Codes cs bs ↔ cs = encodeChars bs := by
  constructor
  · rintro ⟨ds, hlt, hhead, hvalue, rfl⟩
    rw [encodeChars, ← hvalue, Radix.digits_ofDigits (by decide) hlt hhead]
  · rintro rfl
    exact ⟨_, fun d hd => Radix.digits_lt (by decide) hd, Radix.head?_digits_ne (by decide) _,
      Radix.ofDigits_digits (by decide) _, rfl⟩

/-! ## Reading codes -/

/-- A run of one member ends where something else follows. -/
theorem takeWhile_run {α : Type} [BEq α] [LawfulBEq α] {xs : List α} {x : α} (count : Nat)
    (h : xs.head? ≠ some x) :
    (List.replicate count x ++ xs).takeWhile (· == x) = List.replicate count x ∧
      (List.replicate count x ++ xs).dropWhile (· == x) = xs := by
  have hrun : ∀ y ∈ List.replicate count x, (y == x) = true := by
    intro y hy
    rw [List.eq_of_mem_replicate hy]
    exact beq_self_eq_true x
  rw [List.takeWhile_append_of_pos hrun, List.dropWhile_append_of_pos hrun]
  cases xs with
  | nil => exact ⟨List.append_nil _, rfl⟩
  | cons y ys =>
    have hy : (y == x) = false := by
      rw [beq_eq_false_iff_ne]
      intro heq
      exact h (congrArg some heq)
    rw [List.takeWhile_cons, List.dropWhile_cons, hy]
    exact ⟨List.append_nil _, rfl⟩

theorem Codes.decodeChars? (h : Codes cs bs) : decodeChars? cs = some bs := by
  obtain ⟨ds, hlt, hhead, hvalue, rfl⟩ := h
  obtain ⟨htake, hdrop⟩ := takeWhile_run (bs.takeWhile (· == 0)).length
    (head?_map_charOf hlt hhead)
  have hzeros : List.replicate (bs.takeWhile (· == 0)).length 0 = bs.takeWhile (· == 0) := by
    refine (List.eq_replicate_of_mem fun b hb => ?_).symm
    have hzero := List.mem_takeWhile_imp hb
    exact eq_of_beq hzero
  -- The zeros come back from the `1`s and the other bytes from the digits.
  rw [Base58.decodeChars?, htake, hdrop, mapM_digitOf? hlt, List.length_replicate, hzeros]
  change some (_ ++ (Radix.digits 256 (Radix.ofDigits 58 ds)).map UInt8.ofNat) = _
  rw [hvalue, Bytes.digits_toNatBE, List.takeWhile_append_dropWhile]

theorem Codes.not_isBlank (h : Codes cs bs) : ∀ c ∈ cs, Blank.isBlank c = false := by
  obtain ⟨ds, hlt, -, -, rfl⟩ := h
  intro c hc
  rcases List.mem_append.mp hc with hone | hdigit
  · rw [List.eq_of_mem_replicate hone]
    rfl
  · obtain ⟨d, hd, rfl⟩ := List.mem_map.mp hdigit
    exact not_isBlank_of_bounds (charOf_bounds d (hlt d hd))

/-- Nothing is trimmed from a list that holds no blank. -/
theorem dropEnd_eq_self (h : ∀ c ∈ cs, Blank.isBlank c = false) :
    Blank.dropEnd Blank.isBlank cs = cs := by
  rw [Blank.dropEnd, List.dropWhile_eq_self_iff.mpr, List.reverse_reverse]
  intro hpos
  rw [h _ (List.mem_reverse.mp (List.getElem_mem hpos))]
  exact Bool.false_ne_true

/-- **The text of a byte string is read back as the byte string.** -/
theorem decode?_encode (bs : Bytes) : decode? (encode bs) = some bs := by
  have hcodes : Codes (encodeChars bs) bs := codes_iff.mpr rfl
  rw [decode?, encode, Blank.trimEnd, String.toList_ofList, String.toList_ofList,
    dropEnd_eq_self hcodes.not_isBlank, hcodes.decodeChars?]

/-! ## What is read

Reading is as strict as writing. The digits behind the `1`s do not begin with the digit zero, which
is written as a `1` itself, and the bytes of their number do not begin with a zero byte; so a text
that is read has as many `1`s as its bytes have zeros, and its digits are those of their number. -/

theorem charOf_of_digitOf? {c : Char} {d : Nat} (h : digitOf? c = some d) :
    d < 58 ∧ charOf d = c := by
  obtain ⟨hlt, hchar, -⟩ := List.findIdx?_eq_some_iff_getElem.mp h
  refine ⟨hlt, ?_⟩
  rw [charOf, List.getD_eq_getElem?_getD, List.getElem?_eq_getElem hlt]
  exact eq_of_beq hchar

/-- Digits that were read are written as the characters that they were read from. -/
theorem map_charOf_of_mapM (h : cs.mapM digitOf? = some ds) :
    (∀ d ∈ ds, d < 58) ∧ ds.map charOf = cs := by
  induction cs generalizing ds with
  | nil =>
    cases h
    exact ⟨List.forall_mem_nil _, rfl⟩
  | cons c cs ih =>
    rw [List.mapM_cons] at h
    obtain ⟨d, hd, h⟩ := Option.bind_eq_some_iff.mp h
    obtain ⟨rest, hrest, h⟩ := Option.bind_eq_some_iff.mp h
    cases h
    obtain ⟨hlt, hchar⟩ := charOf_of_digitOf? hd
    obtain ⟨hlts, hchars⟩ := ih hrest
    exact ⟨List.forall_mem_cons.mpr ⟨hlt, hlts⟩, by rw [List.map_cons, hchar, hchars]⟩

/-- **Characters that are read** are the code of the bytes that they are read as. -/
theorem codes_of_decodeChars? (h : decodeChars? cs = some bs) : Codes cs bs := by
  obtain ⟨ds, hds, h⟩ := Option.bind_eq_some_iff.mp h
  cases h
  obtain ⟨hlt, hchars⟩ := map_charOf_of_mapM hds
  have hones : cs.takeWhile (· == '1') =
      List.replicate (cs.takeWhile (· == '1')).length '1' := by
    apply List.eq_replicate_of_mem
    intro c hc
    have hone := List.mem_takeWhile_imp hc
    exact eq_of_beq hone
  obtain ⟨hzeros, hrest⟩ := takeWhile_run (cs.takeWhile (· == '1')).length
    (Bytes.head?_map_digits_ne (Radix.ofDigits 58 ds))
  refine ⟨ds, hlt, ?_, ?_, ?_⟩
  · -- A digit zero would have been taken for one of the `1`s.
    intro hzero
    have hone : (cs.dropWhile (· == '1')).head? = some '1' := by
      rw [← hchars, List.head?_map, hzero]
      rfl
    have hnot := List.head?_dropWhile_not (· == '1') cs
    rw [hone] at hnot
    nomatch hnot
  · rw [← Bytes.toNatBE_dropWhile, hrest, Bytes.toNatBE_digits]
  · rw [hzeros, List.length_replicate, hchars, ← hones, List.takeWhile_append_dropWhile]

/-- **A text is read as a byte string** just when it is the text of the byte string, up to white
space at its end. -/
theorem decode?_eq_some {text : String} :
    decode? text = some bs ↔ encode bs = Blank.trimEnd text := by
  rw [encode, ← String.toList_inj, String.toList_ofList, eq_comm (a := encodeChars bs), ← codes_iff]
  constructor
  · exact codes_of_decodeChars?
  · exact Codes.decodeChars?

end LedgerClient.Base58
