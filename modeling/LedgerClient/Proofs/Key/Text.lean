import LedgerClient.Key.Text
import LedgerClient.Proofs.Base58
import LedgerClient.Proofs.Base64

/-!
# The texts of keys

A key is shown in base58 and read back from it. Since a text is read as a byte string only if it is
the text of that byte string, the base58 texts of a key differ in the white space at their ends
alone. Texts that are no code, and codes of byte strings of another width, are refused. In base64 a
key is read back as well, but there it has other texts besides its own.

## Main results

* `Key.ofBase58_eq_ok`: a text is read as a key just when it is the text of the key
* `Key.ofBase58_eq_error`: how every other text is refused
* `Key.text_identifies`: base58 texts and keys correspond
-/

namespace LedgerClient.Key

variable {kind : KeyKind} {text : String} {key : Key kind}

theorem ofBytes?_bytes (key : Key kind) : ofBytes? kind key.bytes = some key :=
  dif_pos key.length_eq

theorem ofBytes?_eq_some {bs : Bytes} : ofBytes? kind bs = some key ↔ key.bytes = bs := by
  constructor
  · intro h
    obtain ⟨hlength, heq⟩ := Option.dite_none_right_eq_some.mp h
    cases heq
    rfl
  · rintro rfl
    exact ofBytes?_bytes key

theorem ofBytes?_eq_none {bs : Bytes} : ofBytes? kind bs = none ↔ bs.length ≠ kind.width :=
  dite_eq_right_iff.trans (forall_congr' fun _ => iff_false_intro nofun)

/-! ## Base58 -/

/-- Reading a text is reading its bytes and counting them. -/
theorem ofBase58_eq (kind : KeyKind) (text : String) :
    ofBase58 kind text = match Base58.decode? text with
      | none => .error (.crypto (.base58 kind.label text))
      | some bs => match ofBytes? kind bs with
        | some key => .ok key
        | none => .error (.crypto (.base58Width kind text bs.length)) := by
  rw [ofBase58, Base58.decode]
  cases Base58.decode? text with
  | none => rfl
  | some bs =>
    dsimp only [bind, Except.bind]
    cases ofBytes? kind bs with
    | none => rfl
    | some key => rfl

/-- **A text is read as a key** just when it is the text of the key, up to white space at its
end. -/
theorem ofBase58_eq_ok : ofBase58 kind text = .ok key ↔ key.base58 = Blank.trimEnd text := by
  have hdecode : ofBase58 kind text = .ok key ↔ Base58.decode? text = some key.bytes := by
    rw [ofBase58_eq]
    constructor
    · intro h
      split at h
      · cases h
      · next bs hbs =>
        split at h
        · next key' hkey =>
          cases h
          rw [hbs, ofBytes?_eq_some.mp hkey]
        · cases h
    · intro h
      rw [h]
      dsimp only
      rw [ofBytes?_bytes]
  exact hdecode.trans Base58.decode?_eq_some

/-- **A text is refused** just when no byte string of the width of the kind is written so; then it
is not in base58 at all, or it is the text of a byte string of another width. -/
theorem ofBase58_eq_error : (∃ cause, ofBase58 kind text = .error (.crypto cause)) ↔
    ∀ bs, Base58.Codes (Blank.trimEnd text).toList bs → bs.length ≠ kind.width := by
  have hcodes : ∀ bs, Base58.Codes (Blank.trimEnd text).toList bs ↔
      Base58.decode? text = some bs := fun bs =>
    ⟨Base58.Codes.decodeChars?, Base58.codes_of_decodeChars?⟩
  simp only [hcodes, ofBase58_eq]
  cases Base58.decode? text with
  | none => exact iff_of_true ⟨_, rfl⟩ nofun
  | some bs =>
    dsimp only
    cases hkey : ofBytes? kind bs with
    | some key =>
      apply iff_of_false
      · exact nofun
      · intro hwidth
        apply hwidth bs rfl
        rw [← ofBytes?_eq_some.mp hkey, key.length_eq]
    | none =>
      apply iff_of_true ⟨_, rfl⟩
      rintro _ ⟨⟩
      exact ofBytes?_eq_none.mp hkey

/-- Each key is read back from its text. -/
theorem ofBase58_base58 (key : Key kind) : ofBase58 kind key.base58 = .ok key := by
  apply ofBase58_eq_ok.mpr
  have hread := Base58.decode?_eq_some.mp (Base58.decode?_encode key.bytes)
  exact hread

/-! ## Base64 -/

theorem ofBase64_base64 (key : Key kind) : ofBase64 kind key.base64 = .ok key := by
  rw [ofBase64, base64, Base64.decode_encode]
  dsimp only
  rw [ofBytes?_bytes]

/-! ## Both -/

/-- **Base58 texts identify keys.** A key is read back from the texts that it is written as, and the
one in base58 is its positional code. A base58 text is read as a key only if it is that code, up to
white space at its end, so two texts of one key differ at most there. Any other text is refused,
and nothing but a wrong width or a text that is no code makes it so. -/
theorem text_identifies (kind : KeyKind) :
    (∀ key : Key kind, Base58.Codes key.base58.toList key.bytes ∧
      ofBase58 kind key.base58 = .ok key ∧ ofBase64 kind key.base64 = .ok key) ∧
    (∀ (text : String) (key : Key kind), ofBase58 kind text = .ok key →
      key.base58 = Blank.trimEnd text) ∧
    (∀ (text text' : String) (key : Key kind), ofBase58 kind text = .ok key →
      ofBase58 kind text' = .ok key → Blank.trimEnd text = Blank.trimEnd text') ∧
    ∀ text : String, (∃ cause, ofBase58 kind text = .error (.crypto cause)) ↔
      ∀ bs, Base58.Codes (Blank.trimEnd text).toList bs → bs.length ≠ kind.width := by
  refine ⟨?_, ?_, ?_, ?_⟩
  · intro key
    have hcodes : Base58.Codes key.base58.toList key.bytes := by
      rw [base58, Base58.encode, String.toList_ofList]
      exact Base58.codes_iff.mpr rfl
    exact ⟨hcodes, ofBase58_base58 key, ofBase64_base64 key⟩
  · intro text key h
    exact ofBase58_eq_ok.mp h
  · intro text text' key h h'
    rw [← ofBase58_eq_ok.mp h, ← ofBase58_eq_ok.mp h']
  · intro text
    exact ofBase58_eq_error

/-- A space at the end of a text does not belong to it, and one at its beginning is none of the
58 digits. -/
example : Base58.decode? "2g " = Base58.decode? "2g" ∧ Base58.decode? " 2g" = none := by
  decide +kernel

end LedgerClient.Key
