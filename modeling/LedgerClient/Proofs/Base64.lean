import LedgerClient.Base64

/-!
# Base64 texts

The text of a byte string is read back as the byte string, group by group. Reading is laxer than
that: it leaves bits of a filled group aside, so a byte string has other texts besides its own.
A text with a character beyond ASCII is refused for that alone, whatever else is wrong with it.

## Main definitions

* `Base64.IsAscii`: a text without a character beyond ASCII

## Main results

* `Base64.decode_eq_notAscii`: which texts are refused for their characters
* `Base64.decode_encode`: the text of a byte string is read back as the byte string
-/

namespace LedgerClient.Base64

variable {a b c d : Char} {cs : List Char}

/-! ## The alphabet -/

theorem digitOf?_getD : ∀ n < 64, digitOf? (alphabet.getD n 'A') = some n := by
  decide +kernel

theorem getD_ne : ∀ n < 64, alphabet.getD n 'A' ≠ '=' := by
  decide +kernel

theorem getD_lt : ∀ n < 64, (alphabet.getD n 'A').toNat < 128 := by
  decide +kernel

/-- A character stands for six bits. -/
theorem digitOf?_charOf (n : Nat) : digitOf? (charOf n) = some (n % 64) :=
  digitOf?_getD _ (Nat.mod_lt _ (by decide))

theorem charOf_ne (n : Nat) : charOf n ≠ '=' :=
  getD_ne _ (Nat.mod_lt _ (by decide))

theorem charOf_lt (n : Nat) : (charOf n).toNat < 128 :=
  getD_lt _ (Nat.mod_lt _ (by decide))

/-! ## Groups -/

/-- A group that is filled up with two characters carries one byte. -/
theorem decodeGroups?_one (ha : a ≠ '=') :
    decodeGroups? [a, b, '=', '='] = do
      let a ← digitOf? a
      let b ← digitOf? b
      return [UInt8.ofNat (a * 4 + b / 16)] := by
  rw [decodeGroups?]
  exact ha

/-- A group that is filled up with one character carries two bytes. -/
theorem decodeGroups?_two (ha : a ≠ '=') (hc : c ≠ '=') :
    decodeGroups? [a, b, c, '='] = do
      let a ← digitOf? a
      let b ← digitOf? b
      let c ← digitOf? c
      return [UInt8.ofNat (a * 4 + b / 16), UInt8.ofNat (b * 16 + c / 4)] := by
  rw [decodeGroups?]
  · exact ha
  · exact hc

/-- Any other group carries three bytes, and groups follow it. -/
theorem decodeGroups?_three (ha : a ≠ '=') (hd : d ≠ '=') :
    decodeGroups? (a :: b :: c :: d :: cs) = do
      let a ← digitOf? a
      let b ← digitOf? b
      let c ← digitOf? c
      let d ← digitOf? d
      let tail ← decodeGroups? cs
      return UInt8.ofNat (a * 4 + b / 16) :: UInt8.ofNat (b * 16 + c / 4) ::
        UInt8.ofNat (c * 64 + d) :: tail := by
  rw [decodeGroups?]
  · exact ha
  · intro _ heq
    exact absurd heq hd
  · intro heq
    exact absurd heq hd

/-- **The groups of a byte string are read back**, by recursion over three bytes at a time. -/
theorem decodeGroups?_encodeChars (bs : Bytes) : decodeGroups? (encodeChars bs) = some bs := by
  induction bs using encodeChars.induct with
  | case1 => rfl
  | case2 a =>
    have ha := a.toNat_lt
    rw [encodeChars, decodeGroups?_one (charOf_ne _), digitOf?_charOf, digitOf?_charOf]
    change some [UInt8.ofNat _] = _
    rw [Bytes.ofNat_eq (by omega : _ = a.toNat)]
  | case3 a b =>
    have ha := a.toNat_lt
    have hb := b.toNat_lt
    rw [encodeChars, decodeGroups?_two (charOf_ne _) (charOf_ne _), digitOf?_charOf,
      digitOf?_charOf, digitOf?_charOf]
    change some [UInt8.ofNat _, UInt8.ofNat _] = _
    rw [Bytes.ofNat_eq (by omega : _ = a.toNat), Bytes.ofNat_eq (by omega : _ = b.toNat)]
  | case4 a b c rest ih =>
    have ha := a.toNat_lt
    have hb := b.toNat_lt
    have hc := c.toNat_lt
    rw [encodeChars, decodeGroups?_three (charOf_ne _) (charOf_ne _), digitOf?_charOf,
      digitOf?_charOf, digitOf?_charOf, digitOf?_charOf, ih]
    change some (UInt8.ofNat _ :: UInt8.ofNat _ :: UInt8.ofNat _ :: rest) = _
    rw [Bytes.ofNat_eq (by omega : _ = a.toNat), Bytes.ofNat_eq (by omega : _ = b.toNat),
      Bytes.ofNat_eq (by omega : _ = c.toNat)]

/-! ## Texts -/

/-- No character of a text is beyond ASCII. -/
def IsAscii (text : String) : Prop :=
  ∀ c ∈ text.toList, c.toNat < 128

instance (text : String) : Decidable (IsAscii text) :=
  inferInstanceAs (Decidable (∀ c ∈ text.toList, c.toNat < 128))

theorem all_ascii {text : String} : text.toList.all (·.toNat < 128) = true ↔ IsAscii text := by
  rw [List.all_eq_true]
  exact forall₂_congr fun c _ => decide_eq_true_iff

/-- **A text is refused for a character beyond ASCII** just when it has one. -/
theorem decode_eq_notAscii {text : String} : decode text = .error .notAscii ↔ ¬IsAscii text := by
  rw [decode, ← all_ascii]
  split
  · next hascii =>
    apply iff_of_false
    · split <;> exact nofun
    · exact not_not_intro hascii
  · next hascii => exact iff_of_true rfl hascii

/-- A text does not begin with padding. -/
theorem encodeChars_eq (bs : Bytes) :
    encodeChars bs = [] ∨ ∃ n cs, encodeChars bs = charOf n :: cs := by
  match bs with
  | [] => exact .inl rfl
  | [_] => exact .inr ⟨_, _, rfl⟩
  | [_, _] => exact .inr ⟨_, _, rfl⟩
  | _ :: _ :: _ :: _ => exact .inr ⟨_, _, rfl⟩

theorem decodeChars?_encodeChars (bs : Bytes) : decodeChars? (encodeChars bs) = some bs := by
  have hgroups := decodeGroups?_encodeChars bs
  obtain hnil | ⟨n, cs, hcons⟩ := encodeChars_eq bs
  · rw [hnil] at hgroups ⊢
    exact hgroups
  · rw [hcons] at hgroups ⊢
    rw [decodeChars?, hgroups]
    intro cs heq
    injection heq with hfirst _
    exact charOf_ne n hfirst

/-- A text holds digits and padding only. -/
theorem forall_encodeChars {p : Char → Prop} (hpad : p '=') (hdigit : ∀ n, p (charOf n))
    (bs : Bytes) : ∀ c ∈ encodeChars bs, p c := by
  induction bs using encodeChars.induct with
  | case1 => exact List.forall_mem_nil _
  | case2 a => simp [encodeChars, hpad, hdigit]
  | case3 a b => simp [encodeChars, hpad, hdigit]
  | case4 a b c rest ih => simpa [encodeChars, hdigit] using ih

theorem isAscii_encode (bs : Bytes) : IsAscii (encode bs) := by
  rw [IsAscii, encode, String.toList_ofList]
  have hpad : '='.toNat < 128 := by decide
  exact forall_encodeChars (p := fun c => c.toNat < 128) hpad charOf_lt bs

/-- **The text of a byte string is read back as the byte string.** -/
theorem decode_encode (bs : Bytes) : decode (encode bs) = .ok bs := by
  have hascii := all_ascii.mpr (isAscii_encode bs)
  rw [decode, if_pos hascii, encode, String.toList_ofList, decodeChars?_encodeChars]

end LedgerClient.Base64
