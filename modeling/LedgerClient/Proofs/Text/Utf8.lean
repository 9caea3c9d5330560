import Mathlib.Data.List.Basic
import LedgerClient.Text.Utf8

/-!
# Well-formed texts

Bytes are well formed if they are the bytes of characters, one after the other. No character begins
with a continuation byte, so well-formed bytes may be cut in two before any byte that is none, and
the two parts are well formed again.

## Main definitions

* `Utf8.WellFormed`: the bytes of a text
* `Utf8.Spells`: the bytes of one character

## Main results

* `Utf8.WellFormed.induction`: well-formed bytes, character by character
* `Utf8.WellFormed.append`, `Utf8.WellFormed.split`: how well-formed bytes may be put together and
  where they may be cut
* `Utf8.decode_encode`: the bytes of a text are read back as the text
* `Utf8.encode_of_decode`: bytes that are read as a text are the bytes of the text
-/

namespace LedgerClient.Utf8

/-- The bytes are those of a text. -/
def WellFormed (bs : Bytes) : Prop :=
  ∃ text, decode bs = .ok text

/-- The byte continues a character. -/
def IsTail (b : UInt8) : Prop :=
  0x80 ≤ b ∧ b ≤ 0xBF

/-- The bytes are those of a character, whatever follows them. -/
def Spells (bs : Bytes) (c : Char) : Prop :=
  ∃ b tail, bs = b :: tail ∧ (∀ x ∈ tail, IsTail x) ∧
    ∀ rest, Head.of b (tail ++ rest) = .scalar c bs.length

variable {b : UInt8} {bs xs ys rest : Bytes} {c : Char} {lead : Lead} {position : Nat}
  {cs : List Char}

/-! ## Characters -/

section Characters

theorem not_isTail_of_ascii (h : b < 0x80) : ¬IsTail b :=
  fun htail => absurd htail.1 (UInt8.not_le.mpr h)

/-- A lead byte is no continuation byte, and announces nothing else. -/
theorem Lead.bounds_ofByte? (h : Lead.ofByte? b = some lead) :
    0xC2 ≤ b ∧ 0x80 ≤ lead.least ∧ lead.greatest ≤ 0xBF := by
  unfold Lead.ofByte? at h
  split at h
  · cases h
  · next hb =>
    refine ⟨UInt8.not_lt.mp hb, ?_⟩
    repeat' split at h
    all_goals cases h
    all_goals
      dsimp only
      exact ⟨by decide, by decide⟩

theorem Head.of_lead (h : Lead.ofByte? b = some lead) (rest : Bytes) :
    Head.of b rest = Head.continue lead.following lead.least lead.greatest lead.bits 1 rest := by
  have hb : ¬b < 0x80 := fun hb =>
    absurd (UInt8.lt_of_le_of_lt (Lead.bounds_ofByte? h).1 hb) (by decide)
  rw [Head.of, if_neg hb, h]

/-- A character that is read ends where it ends, whatever follows. -/
theorem Head.continue_eq_scalar {following bits width n : Nat} {least greatest : UInt8}
    (hleast : 0x80 ≤ least) (hgreatest : greatest ≤ 0xBF)
    (h : Head.continue following least greatest bits width bs = .scalar c n) :
    ∃ tail rest, bs = tail ++ rest ∧ n = width + tail.length ∧ (∀ x ∈ tail, IsTail x) ∧
      ∀ rest, Head.continue following least greatest bits width (tail ++ rest) = .scalar c n := by
  induction following generalizing bs bits width least greatest with
  | zero =>
    rw [Head.continue] at h
    cases h
    exact ⟨[], bs, rfl, rfl, List.forall_mem_nil _, fun rest => by rw [Head.continue]⟩
  | succ following ih =>
    cases bs with
    | nil =>
      rw [Head.continue] at h
      cases h
    | cons b bs =>
      rw [Head.continue] at h
      split at h
      · next hb =>
        obtain ⟨tail, rest, rfl, hn, htail, hread⟩ := ih (UInt8.le_refl _) (UInt8.le_refl _) h
        have hfirst : IsTail b := ⟨UInt8.le_trans hleast hb.1, UInt8.le_trans hb.2 hgreatest⟩
        refine ⟨b :: tail, rest, rfl, ?_, List.forall_mem_cons.mpr ⟨hfirst, htail⟩, fun rest => ?_⟩
        · rw [hn, List.length_cons]
          omega
        · rw [List.cons_append, Head.continue, if_pos hb, hread]
      · cases h

theorem spells_ascii (h : b < 0x80) : Spells [b] (Char.ofNat b.toNat) := by
  refine ⟨b, [], rfl, List.forall_mem_nil _, fun rest => ?_⟩
  rw [Head.of, if_pos h]
  rfl

/-- What is read at the front of bytes are the bytes of a character. -/
theorem exists_spells {n : Nat} (h : Head.of b rest = .scalar c n) :
    ∃ tail after, rest = tail ++ after ∧ n = tail.length + 1 ∧ Spells (b :: tail) c := by
  have hof := h
  unfold Head.of at h
  split at h
  · next hb =>
    cases h
    exact ⟨[], rest, rfl, rfl, spells_ascii hb⟩
  · split at h
    · cases h
    · next lead hlead =>
      obtain ⟨-, hleast, hgreatest⟩ := Lead.bounds_ofByte? hlead
      obtain ⟨tail, after, hrest, hn, htail, hread⟩ := Head.continue_eq_scalar hleast hgreatest h
      rw [Nat.add_comm] at hn
      refine ⟨tail, after, hrest, hn, b, tail, rfl, htail, fun rest => ?_⟩
      rw [Head.of_lead hlead, hread, hn]
      rfl

/-- No character begins with a continuation byte. -/
theorem Spells.not_isTail (h : Spells (b :: bs) c) : ¬IsTail b := by
  obtain ⟨first, tail, heq, -, hread⟩ := h
  cases heq
  have hof := hread []
  unfold Head.of at hof
  split at hof
  · next hb => exact not_isTail_of_ascii hb
  · split at hof
    · cases hof
    · next lead hlead =>
      intro htail
      exact absurd (UInt8.le_trans (Lead.bounds_ofByte? hlead).1 htail.2) (by decide)

/-- An ASCII byte is a character of its own. -/
theorem Spells.of_ascii (h : Spells (b :: bs) c) (hb : b < 0x80) : bs = [] := by
  obtain ⟨first, tail, heq, -, hread⟩ := h
  cases heq
  have hof := hread []
  rw [Head.of, if_pos hb] at hof
  injection hof with _ hlength
  exact List.eq_nil_of_length_eq_zero (Nat.succ.inj hlength.symm)

end Characters

/-! ## The bytes of a character -/

section Encoding

variable {n v : Nat}

theorem toNat_tail (h : n < 64) : (UInt8.ofNat (n + 0x80)).toNat = n + 0x80 := by
  rw [UInt8.toNat_ofNat']
  exact Nat.mod_eq_of_lt (by omega)

theorem isTail_ofNat (h : n < 64) : IsTail (UInt8.ofNat (n + 0x80)) := by
  rw [IsTail, UInt8.le_iff_toNat_le, UInt8.le_iff_toNat_le, toNat_tail h]
  exact ⟨Nat.le_add_left _ _, Nat.le_of_lt_succ (Nat.add_lt_add_right h _)⟩

/-- A continuation byte adds six bits. -/
theorem Head.continue_succ {following bits width : Nat} {least greatest : UInt8} (h : n < 64)
    (hleast : least.toNat ≤ n + 0x80) (hgreatest : n + 0x80 ≤ greatest.toNat) (rest : Bytes) :
    Head.continue (following + 1) least greatest bits width (UInt8.ofNat (n + 0x80) :: rest) =
      Head.continue following 0x80 0xBF (bits * 64 + n) (width + 1) rest := by
  rw [Head.continue, if_pos, toNat_tail h, Nat.add_sub_cancel]
  rw [UInt8.le_iff_toNat_le, UInt8.le_iff_toNat_le, toNat_tail h]
  exact ⟨hleast, hgreatest⟩

theorem Head.continue_tail {following bits width : Nat} (h : n < 64) (rest : Bytes) :
    Head.continue (following + 1) 0x80 0xBF bits width (UInt8.ofNat (n + 0x80) :: rest) =
      Head.continue following 0x80 0xBF (bits * 64 + n) (width + 1) rest :=
  Head.continue_succ h (Nat.le_add_left _ _) (Nat.le_of_lt_succ (Nat.add_lt_add_right h _)) rest

theorem Lead.ofByte?_two : ∀ n < 32, 2 ≤ n →
    Lead.ofByte? (UInt8.ofNat (n + 0xC0)) = some ⟨1, 0x80, 0xBF, n⟩ := by
  decide

theorem Lead.ofByte?_three : ∀ n < 16, Lead.ofByte? (UInt8.ofNat (n + 0xE0)) =
    some ⟨2, if n = 0 then 0xA0 else 0x80, if n = 13 then 0x9F else 0xBF, n⟩ := by
  decide

theorem Lead.ofByte?_four : ∀ n < 5, Lead.ofByte? (UInt8.ofNat (n + 0xF0)) =
    some ⟨3, if n = 0 then 0x90 else 0x80, if n = 4 then 0x8F else 0xBF, n⟩ := by
  decide

theorem spells_two (h : 0x80 ≤ v) (h' : v < 0x800) :
    Spells [UInt8.ofNat (v / 64 % 32 + 0xC0), UInt8.ofNat (v % 64 + 0x80)] (Char.ofNat v) := by
  have hlead := Lead.ofByte?_two (v / 64 % 32) (by omega) (by omega)
  have hlast : v % 64 < 64 := Nat.mod_lt _ (by decide)
  refine ⟨_, _, rfl, ?_, fun rest => ?_⟩
  · exact List.forall_mem_cons.mpr ⟨isTail_ofNat hlast, List.forall_mem_nil _⟩
  · have hbits : v / 64 % 32 * 64 + v % 64 = v := by omega
    rw [Head.of_lead hlead, List.cons_append, Head.continue_tail hlast, Head.continue, hbits]
    rfl

theorem spells_three (h : 0x800 ≤ v) (h' : v < 0x10000) (hscalar : v < 0xD800 ∨ 0xDFFF < v) :
    Spells [UInt8.ofNat (v / 4096 % 16 + 0xE0), UInt8.ofNat (v / 64 % 64 + 0x80),
      UInt8.ofNat (v % 64 + 0x80)] (Char.ofNat v) := by
  have hlead := Lead.ofByte?_three (v / 4096 % 16) (by omega)
  have hmiddle : v / 64 % 64 < 64 := Nat.mod_lt _ (by decide)
  have hlast : v % 64 < 64 := Nat.mod_lt _ (by decide)
  refine ⟨_, _, rfl, ?_, fun rest => ?_⟩
  · exact List.forall_mem_cons.mpr ⟨isTail_ofNat hmiddle,
      List.forall_mem_cons.mpr ⟨isTail_ofNat hlast, List.forall_mem_nil _⟩⟩
  · -- Overlong forms and surrogates are the numbers that are left out.
    have hleast : (if v / 4096 % 16 = 0 then (0xA0 : UInt8) else 0x80).toNat ≤
        v / 64 % 64 + 0x80 := by
      split
      · change 0xA0 ≤ _
        omega
      · exact Nat.le_add_left _ _
    have hgreatest : v / 64 % 64 + 0x80 ≤
        (if v / 4096 % 16 = 13 then (0x9F : UInt8) else 0xBF).toNat := by
      split
      · change _ ≤ 0x9F
        omega
      · change _ ≤ 0xBF
        omega
    have hbits : (v / 4096 % 16 * 64 + v / 64 % 64) * 64 + v % 64 = v := by omega
    rw [Head.of_lead hlead, List.cons_append, Head.continue_succ hmiddle hleast hgreatest,
      List.cons_append, Head.continue_tail hlast, Head.continue, hbits]
    rfl

theorem spells_four (h : 0x10000 ≤ v) (h' : v < 0x110000) :
    Spells [UInt8.ofNat (v / 262144 % 8 + 0xF0), UInt8.ofNat (v / 4096 % 64 + 0x80),
      UInt8.ofNat (v / 64 % 64 + 0x80), UInt8.ofNat (v % 64 + 0x80)] (Char.ofNat v) := by
  have hlead := Lead.ofByte?_four (v / 262144 % 8) (by omega)
  have hsecond : v / 4096 % 64 < 64 := Nat.mod_lt _ (by decide)
  have hthird : v / 64 % 64 < 64 := Nat.mod_lt _ (by decide)
  have hlast : v % 64 < 64 := Nat.mod_lt _ (by decide)
  refine ⟨_, _, rfl, ?_, fun rest => ?_⟩
  · exact List.forall_mem_cons.mpr ⟨isTail_ofNat hsecond, List.forall_mem_cons.mpr
      ⟨isTail_ofNat hthird, List.forall_mem_cons.mpr ⟨isTail_ofNat hlast, List.forall_mem_nil _⟩⟩⟩
  · have hleast : (if v / 262144 % 8 = 0 then (0x90 : UInt8) else 0x80).toNat ≤
        v / 4096 % 64 + 0x80 := by
      split
      · change 0x90 ≤ _
        omega
      · exact Nat.le_add_left _ _
    have hgreatest : v / 4096 % 64 + 0x80 ≤
        (if v / 262144 % 8 = 4 then (0x8F : UInt8) else 0xBF).toNat := by
      split
      · change _ ≤ 0x8F
        omega
      · change _ ≤ 0xBF
        omega
    have hbits : ((v / 262144 % 8 * 64 + v / 4096 % 64) * 64 + v / 64 % 64) * 64 + v % 64 = v := by
      omega
    rw [Head.of_lead hlead, List.cons_append, Head.continue_succ hsecond hleast hgreatest,
      List.cons_append, Head.continue_tail hthird, List.cons_append, Head.continue_tail hlast,
      Head.continue, hbits]
    rfl

/-- The bytes of a character are read back as the character. -/
theorem spells_utf8EncodeChar (c : Char) : Spells (String.utf8EncodeChar c) c := by
  have hvalid : c.val.toNat < 0xD800 ∨ 0xDFFF < c.val.toNat ∧ c.val.toNat < 0x110000 := c.valid
  have hchar : Char.ofNat c.val.toNat = c := Char.ofNat_toNat c
  unfold String.utf8EncodeChar
  generalize c.val.toNat = v at hvalid hchar
  rw [← hchar]
  dsimp only
  split
  · next hone =>
    have hv : (UInt8.ofNat v).toNat = v := by
      rw [UInt8.toNat_ofNat']
      exact Nat.mod_eq_of_lt (by omega)
    have hascii : UInt8.ofNat v < 0x80 := by
      rw [UInt8.lt_iff_toNat_lt, hv]
      exact Nat.lt_succ_of_le hone
    rw [← hv, UInt8.ofNat_toNat]
    exact spells_ascii hascii
  · split
    · exact spells_two (by omega) (by omega)
    · split
      · exact spells_three (by omega) (by omega) (by omega)
      · exact spells_four (by omega) (by omega)

end Encoding

/-! ## The characters that are read -/

section Reading

variable {n v width bits following : Nat} {least greatest : UInt8}

theorem toNat_ofNat_char (h : v < 0xD800 ∨ 0xDFFF < v ∧ v < 0x110000) :
    (Char.ofNat v).val.toNat = v := by
  have hvalid : v.isValidChar := h
  rw [Char.ofNat, dif_pos hvalid]
  rfl

theorem utf8EncodeChar_one (h : v < 0x80) :
    String.utf8EncodeChar (Char.ofNat v) = [UInt8.ofNat v] := by
  unfold String.utf8EncodeChar
  rw [toNat_ofNat_char (by omega)]
  exact if_pos (by omega)

theorem utf8EncodeChar_two (h : 0x80 ≤ v) (h' : v < 0x800) :
    String.utf8EncodeChar (Char.ofNat v) =
      [UInt8.ofNat (v / 64 % 32 + 0xC0), UInt8.ofNat (v % 64 + 0x80)] := by
  unfold String.utf8EncodeChar
  rw [toNat_ofNat_char (by omega)]
  exact (if_neg (by omega)).trans (if_pos (by omega))

theorem utf8EncodeChar_three (h : 0x800 ≤ v) (h' : v < 0x10000)
    (hscalar : v < 0xD800 ∨ 0xDFFF < v) :
    String.utf8EncodeChar (Char.ofNat v) = [UInt8.ofNat (v / 4096 % 16 + 0xE0),
      UInt8.ofNat (v / 64 % 64 + 0x80), UInt8.ofNat (v % 64 + 0x80)] := by
  unfold String.utf8EncodeChar
  rw [toNat_ofNat_char (by omega)]
  exact (if_neg (by omega)).trans ((if_neg (by omega)).trans (if_pos (by omega)))

theorem utf8EncodeChar_four (h : 0x10000 ≤ v) (h' : v < 0x110000) :
    String.utf8EncodeChar (Char.ofNat v) = [UInt8.ofNat (v / 262144 % 8 + 0xF0),
      UInt8.ofNat (v / 4096 % 64 + 0x80), UInt8.ofNat (v / 64 % 64 + 0x80),
      UInt8.ofNat (v % 64 + 0x80)] := by
  unfold String.utf8EncodeChar
  rw [toNat_ofNat_char (by omega)]
  exact (if_neg (by omega)).trans ((if_neg (by omega)).trans (if_neg (by omega)))

/-- The next byte that a character needs lies in the range that is announced. -/
theorem Head.continue_succ_eq_scalar
    (h : Head.continue (following + 1) least greatest bits width bs = .scalar c n) :
    ∃ b rest, bs = b :: rest ∧ least.toNat ≤ b.toNat ∧ b.toNat ≤ greatest.toNat ∧
      Head.continue following 0x80 0xBF (bits * 64 + (b.toNat - 0x80)) (width + 1) rest =
        .scalar c n := by
  cases bs with
  | nil =>
    rw [Head.continue] at h
    cases h
  | cons b rest =>
    rw [Head.continue] at h
    split at h
    · next hb =>
      exact ⟨b, rest, rfl, UInt8.le_iff_toNat_le.mp hb.1, UInt8.le_iff_toNat_le.mp hb.2, h⟩
    · cases h

theorem Head.continue_zero_eq_scalar
    (h : Head.continue 0 least greatest bits width bs = .scalar c n) :
    c = Char.ofNat bits ∧ n = width := by
  rw [Head.continue] at h
  cases h
  exact ⟨rfl, rfl⟩

/-- The forms of two bytes, whose lead byte is no `0xC0` and no `0xC1`. -/
theorem Head.of_two (hb : 0xC2 ≤ b.toNat) (hb' : b.toNat < 0xE0)
    (h : Head.continue 1 0x80 0xBF (b.toNat - 0xC0) 1 rest = .scalar c n) :
    ∃ tail after, rest = tail ++ after ∧ n = tail.length + 1 ∧
      b :: tail = String.utf8EncodeChar c := by
  obtain ⟨b₁, after, rfl, hleast, hgreatest, h⟩ := Head.continue_succ_eq_scalar h
  obtain ⟨hc, hn⟩ := Head.continue_zero_eq_scalar h
  simp only [UInt8.reduceToNat] at hleast hgreatest
  refine ⟨[b₁], after, rfl, hn, ?_⟩
  rw [hc, utf8EncodeChar_two (by omega) (by omega), Bytes.ofNat_eq (b := b) (by omega),
    Bytes.ofNat_eq (b := b₁) (by omega)]

/-- The forms of three bytes. The narrower ranges of the second byte leave overlong forms and
surrogates out. -/
theorem Head.of_three (hb : 0xE0 ≤ b.toNat) (hb' : b.toNat < 0xF0)
    (h : Head.continue 2 (if b = 0xE0 then 0xA0 else 0x80) (if b = 0xED then 0x9F else 0xBF)
      (b.toNat - 0xE0) 1 rest = .scalar c n) :
    ∃ tail after, rest = tail ++ after ∧ n = tail.length + 1 ∧
      b :: tail = String.utf8EncodeChar c := by
  obtain ⟨b₁, rest₁, rfl, hleast, hgreatest, h⟩ := Head.continue_succ_eq_scalar h
  obtain ⟨b₂, after, rfl, hleast₂, hgreatest₂, h⟩ := Head.continue_succ_eq_scalar h
  obtain ⟨hc, hn⟩ := Head.continue_zero_eq_scalar h
  simp only [UInt8.reduceToNat] at hleast₂ hgreatest₂
  have hlong : b.toNat = 0xE0 → 0xA0 ≤ b₁.toNat := by
    intro heq
    have hfirst : b = 0xE0 := UInt8.toNat_inj.mp heq
    simpa [hfirst] using hleast
  have hscalar : b.toNat = 0xED → b₁.toNat ≤ 0x9F := by
    intro heq
    have hfirst : b = 0xED := UInt8.toNat_inj.mp heq
    simpa [hfirst] using hgreatest
  have htail : 0x80 ≤ b₁.toNat ∧ b₁.toNat ≤ 0xBF := by
    constructor
    · refine Nat.le_trans ?_ hleast
      split <;> decide
    · refine Nat.le_trans hgreatest ?_
      split <;> decide
  refine ⟨[b₁, b₂], after, rfl, hn, ?_⟩
  rw [hc, utf8EncodeChar_three (by omega) (by omega) (by omega),
    Bytes.ofNat_eq (b := b) (by omega), Bytes.ofNat_eq (b := b₁) (by omega),
    Bytes.ofNat_eq (b := b₂) (by omega)]

/-- The forms of four bytes. The narrower ranges of the second byte leave overlong forms and
numbers above the last character out. -/
theorem Head.of_four (hb : 0xF0 ≤ b.toNat) (hb' : b.toNat < 0xF5)
    (h : Head.continue 3 (if b = 0xF0 then 0x90 else 0x80) (if b = 0xF4 then 0x8F else 0xBF)
      (b.toNat - 0xF0) 1 rest = .scalar c n) :
    ∃ tail after, rest = tail ++ after ∧ n = tail.length + 1 ∧
      b :: tail = String.utf8EncodeChar c := by
  obtain ⟨b₁, rest₁, rfl, hleast, hgreatest, h⟩ := Head.continue_succ_eq_scalar h
  obtain ⟨b₂, rest₂, rfl, hleast₂, hgreatest₂, h⟩ := Head.continue_succ_eq_scalar h
  obtain ⟨b₃, after, rfl, hleast₃, hgreatest₃, h⟩ := Head.continue_succ_eq_scalar h
  obtain ⟨hc, hn⟩ := Head.continue_zero_eq_scalar h
  simp only [UInt8.reduceToNat] at hleast₂ hgreatest₂ hleast₃ hgreatest₃
  have hlong : b.toNat = 0xF0 → 0x90 ≤ b₁.toNat := by
    intro heq
    have hfirst : b = 0xF0 := UInt8.toNat_inj.mp heq
    simpa [hfirst] using hleast
  have hlast : b.toNat = 0xF4 → b₁.toNat ≤ 0x8F := by
    intro heq
    have hfirst : b = 0xF4 := UInt8.toNat_inj.mp heq
    simpa [hfirst] using hgreatest
  have htail : 0x80 ≤ b₁.toNat ∧ b₁.toNat ≤ 0xBF := by
    constructor
    · refine Nat.le_trans ?_ hleast
      split <;> decide
    · refine Nat.le_trans hgreatest ?_
      split <;> decide
  refine ⟨[b₁, b₂, b₃], after, rfl, hn, ?_⟩
  rw [hc, utf8EncodeChar_four (by omega) (by omega), Bytes.ofNat_eq (b := b) (by omega),
    Bytes.ofNat_eq (b := b₁) (by omega), Bytes.ofNat_eq (b := b₂) (by omega),
    Bytes.ofNat_eq (b := b₃) (by omega)]

/-- **What is read at the front of bytes is written as the bytes that were read.** -/
theorem Head.of_eq_scalar (h : Head.of b rest = .scalar c n) :
    ∃ tail after, rest = tail ++ after ∧ n = tail.length + 1 ∧
      b :: tail = String.utf8EncodeChar c := by
  unfold Head.of at h
  split at h
  · next hb =>
    cases h
    rw [UInt8.lt_iff_toNat_lt] at hb
    refine ⟨[], rest, rfl, rfl, ?_⟩
    rw [utf8EncodeChar_one hb, UInt8.ofNat_toNat]
  · split at h
    · cases h
    · next lead hlead =>
      unfold Lead.ofByte? at hlead
      simp only [UInt8.lt_iff_toNat_lt, UInt8.reduceToNat] at hlead
      split at hlead
      · cases hlead
      · split at hlead
        · cases hlead
          exact Head.of_two (by omega) (by omega) h
        · split at hlead
          · cases hlead
            exact Head.of_three (by omega) (by omega) h
          · split at hlead
            · cases hlead
              exact Head.of_four (by omega) (by omega) h
            · cases hlead

end Reading

/-! ## Texts -/

section Texts

/-- Where bytes stand matters for their flaws only. -/
theorem decodeFrom_eq_ok (other : Nat) (h : decodeFrom position bs = .ok cs) :
    decodeFrom other bs = .ok cs := by
  induction position, bs using decodeFrom.induct generalizing other cs with
  | case1 position =>
    rw [decodeFrom] at h ⊢
    exact h
  | case2 position b rest reason width hflaw =>
    rw [decodeFrom, hflaw] at h
    cases h
  | case3 position b rest c width hscalar ih =>
    rw [decodeFrom, hscalar] at h ⊢
    dsimp only at h ⊢
    cases hrest : decodeFrom (position + width) (rest.drop (width - 1)) with
    | error flaw =>
      rw [hrest] at h
      cases h
    | ok cs =>
      rw [hrest] at h
      rw [ih (other + width) hrest]
      exact h

theorem decodeFrom_append (h : Spells xs c) (hys : decodeFrom (position + xs.length) ys = .ok cs) :
    decodeFrom position (xs ++ ys) = .ok (c :: cs) := by
  obtain ⟨b, tail, rfl, -, hread⟩ := h
  rw [List.cons_append, decodeFrom, hread]
  dsimp only
  rw [List.length_cons, Nat.add_sub_cancel, List.drop_left]
  rw [List.length_cons] at hys
  rw [hys]
  rfl

theorem wellFormed_iff : WellFormed bs ↔ ∃ cs, decodeFrom 0 bs = .ok cs := by
  unfold WellFormed decode
  constructor
  · rintro ⟨text, htext⟩
    cases hcs : decodeFrom 0 bs with
    | error flaw =>
      rw [hcs] at htext
      cases htext
    | ok cs => exact ⟨cs, rfl⟩
  · rintro ⟨cs, hcs⟩
    rw [hcs]
    exact ⟨String.ofList cs, rfl⟩

theorem WellFormed.nil : WellFormed [] :=
  wellFormed_iff.mpr ⟨[], by rw [decodeFrom]⟩

theorem WellFormed.cons (hxs : Spells xs c) (hys : WellFormed ys) : WellFormed (xs ++ ys) := by
  obtain ⟨cs, hcs⟩ := wellFormed_iff.mp hys
  exact wellFormed_iff.mpr ⟨c :: cs, decodeFrom_append hxs (decodeFrom_eq_ok _ hcs)⟩

/-- **Well-formed bytes are read character by character.** -/
@[elab_as_elim] theorem WellFormed.induction {motive : (bs : Bytes) → WellFormed bs → Prop}
    (nil : motive [] .nil)
    (cons : ∀ {xs ys c} (hxs : Spells xs c) (hys : WellFormed ys), motive ys hys →
      motive (xs ++ ys) (hys.cons hxs))
    (h : WellFormed bs) : motive bs h := by
  -- The induction is on what `decodeFrom` has still to read, wherever that stands.
  obtain ⟨cs, hcs⟩ := wellFormed_iff.mp h
  generalize 0 = position at hcs
  induction position, bs using decodeFrom.induct generalizing cs with
  | case1 position => exact nil
  | case2 position b rest reason width hflaw =>
    rw [decodeFrom, hflaw] at hcs
    cases hcs
  | case3 position b rest c width hscalar ih =>
    obtain ⟨tail, after, rfl, rfl, hspells⟩ := exists_spells hscalar
    rw [Nat.add_sub_cancel, List.drop_left] at ih
    rw [decodeFrom, hscalar] at hcs
    dsimp only at hcs
    rw [Nat.add_sub_cancel, List.drop_left] at hcs
    cases hrest : decodeFrom (position + (tail.length + 1)) after with
    | error flaw =>
      rw [hrest] at hcs
      cases hcs
    | ok cs =>
      have hafter : WellFormed after := wellFormed_iff.mpr ⟨cs, decodeFrom_eq_ok 0 hrest⟩
      exact cons hspells hafter (ih hafter cs hrest)

theorem WellFormed.append (hxs : WellFormed xs) (hys : WellFormed ys) : WellFormed (xs ++ ys) := by
  induction hxs using WellFormed.induction with
  | nil => exact hys
  | cons hspells _ ih =>
    rw [List.append_assoc]
    exact ih.cons hspells

/-- Well-formed bytes do not begin with a continuation byte. -/
theorem WellFormed.not_isTail (h : WellFormed bs) : ∀ b ∈ bs.head?, ¬IsTail b := by
  intro b hb
  induction h using WellFormed.induction with
  | nil => cases hb
  | cons hspells _ _ =>
    obtain ⟨first, tail, rfl, -, -⟩ := id hspells
    cases hb
    exact hspells.not_isTail

/-- **Well-formed bytes may be cut before any byte that is no continuation byte.** -/
theorem WellFormed.split (h : WellFormed (xs ++ ys)) (hys : ∀ b ∈ ys.head?, ¬IsTail b) :
    WellFormed xs ∧ WellFormed ys := by
  generalize heq : xs ++ ys = bs at h
  induction h using WellFormed.induction generalizing xs with
  | nil =>
    obtain ⟨rfl, rfl⟩ := List.append_eq_nil_iff.mp heq
    exact ⟨.nil, .nil⟩
  | @cons us vs c hspells hvs ih =>
    rcases List.append_eq_append_iff.mp heq with ⟨inner, rfl, rfl⟩ | ⟨inner, rfl, rfl⟩
    · cases xs with
      | nil => exact ⟨.nil, hvs.cons hspells⟩
      | cons x xs =>
        cases inner with
        | nil =>
          rw [List.append_nil] at hspells
          refine ⟨?_, hvs⟩
          rw [← List.append_nil (x :: xs)]
          exact WellFormed.nil.cons hspells
        | cons b inner =>
          obtain ⟨first, tail, heq, htail, -⟩ := hspells
          cases heq
          exact absurd (htail b (by simp)) (hys b rfl)
    · obtain ⟨hinner, hys⟩ := ih rfl
      exact ⟨hinner.cons hspells, hys⟩

/-- An ASCII byte may be taken from the front. -/
theorem WellFormed.of_ascii_cons (h : WellFormed (b :: bs)) (hb : b < 0x80) : WellFormed bs := by
  generalize heq : b :: bs = all at h
  cases h using WellFormed.induction with
  | nil => cases heq
  | @cons us vs c hspells hvs _ =>
    obtain ⟨first, tail, rfl, -, -⟩ := id hspells
    cases heq
    rw [hspells.of_ascii hb]
    exact hvs

theorem wellFormed_ascii_cons (hb : b < 0x80) : WellFormed (b :: bs) ↔ WellFormed bs :=
  ⟨fun h => h.of_ascii_cons hb, fun h => h.cons (spells_ascii hb)⟩

/-- **The bytes of a text are read back as the text.** -/
theorem decode_encode (text : String) : decode (encode text) = .ok text := by
  have hchars (cs : List Char) (position : Nat) :
      decodeFrom position (cs.flatMap String.utf8EncodeChar) = .ok cs := by
    induction cs generalizing position with
    | nil => rw [List.flatMap_nil, decodeFrom]
    | cons c cs ih =>
      rw [List.flatMap_cons]
      exact decodeFrom_append (spells_utf8EncodeChar c) (ih _)
  rw [decode, encode, hchars]
  exact congrArg Except.ok String.ofList_toList

theorem flatMap_decodeFrom (h : decodeFrom position bs = .ok cs) :
    cs.flatMap String.utf8EncodeChar = bs := by
  induction position, bs using decodeFrom.induct generalizing cs with
  | case1 position =>
    rw [decodeFrom] at h
    cases h
    rfl
  | case2 position b rest reason width hflaw =>
    rw [decodeFrom, hflaw] at h
    cases h
  | case3 position b rest c width hscalar ih =>
    obtain ⟨tail, after, rfl, rfl, hbytes⟩ := Head.of_eq_scalar hscalar
    rw [decodeFrom, hscalar] at h
    dsimp only at h
    rw [Nat.add_sub_cancel, List.drop_left] at h ih
    cases hrest : decodeFrom (position + (tail.length + 1)) after with
    | error flaw =>
      rw [hrest] at h
      cases h
    | ok others =>
      rw [hrest] at h
      cases h
      rw [List.flatMap_cons, ih hrest, ← hbytes]
      rfl

/-- **Bytes that are read as a text are the bytes of the text.** -/
theorem encode_of_decode {text : String} (h : decode bs = .ok text) : encode text = bs := by
  unfold decode at h
  cases hcs : decodeFrom 0 bs with
  | error flaw =>
    rw [hcs] at h
    cases h
  | ok cs =>
    rw [hcs] at h
    cases h
    rw [encode, String.toList_ofList]
    exact flatMap_decodeFrom hcs

theorem wellFormed_encode (text : String) : WellFormed (encode text) :=
  ⟨text, decode_encode text⟩

end Texts

end LedgerClient.Utf8
