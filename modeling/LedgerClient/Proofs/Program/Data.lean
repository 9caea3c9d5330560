import LedgerClient.Proofs.Program.Draft
import LedgerClient.Proofs.Program.Payload

/-!
# The data of an instruction

The instructions of the system program, the token program and the compute budget program are tagged,
and behind the tag stand some of the fields that they were drafted with, in an order and with widths
that the template determines. The data is read back as just these fields. Within one program all
tags have one width and no two templates share a tag, so the data alone tells the template as well.

Nothing but a number can fail to be written, since the seed of an account is short when the draft
passes its check: a draft that passes has an instruction just when its numbers fit.

## Main definitions

* `Template.tag?`, `Template.dataFields`: the tag of a template, and the fields in its data
* `Draft.values?`: what the fields in the data of a draft hold

## Main results

* `Draft.payload?_of_action`: the payload of a draft is its tag and its data fields
* `Template.tag?_injective`: the templates of a program are told apart by their tags
* `Draft.data_unambiguous`: data is read back, tells the draft, and fails for numbers only
-/

namespace LedgerClient

/-- How a field of a draft is written into the data. -/
inductive DataKind
  | integer (kind : IntKind)
  | key
  | text
  | optionalKey
  deriving DecidableEq

/-- The item of a layout that a field is written as. -/
def DataKind.field : DataKind → Field
  | integer kind => .integer kind
  | key => .key .publicKey
  | text => .string
  | optionalKey => .option (.key .publicKey)

/-- The layout of fields in the data. -/
def DataKind.layout (entries : List (String × DataKind)) : Layout :=
  entries.map fun entry => entry.2.field

namespace Template

/-- The tag of the data; memos and associated token accounts have data of another form. -/
def tag? : Template → Option Discriminator
  | createAccount => some (.word 0)
  | assign => some (.word 1)
  | transferLamports => some (.word 2)
  | createAccountWithSeed => some (.word 3)
  | requestHeapFrame => some (.byte 1)
  | setComputeUnitLimit => some (.byte 2)
  | setComputeUnitPrice => some (.byte 3)
  | transferTokens => some (.byte 3)
  | revoke => some (.byte 5)
  | setAuthority => some (.byte 6)
  | closeAccount => some (.byte 9)
  | thawAccount => some (.byte 11)
  | transferChecked => some (.byte 12)
  | mintToChecked => some (.byte 14)
  | burnChecked => some (.byte 15)
  | initializeAccount => some (.byte 18)
  | initializeMint => some (.byte 20)
  | memo | createAssociatedTokenAccount => none

/-- The fields that are written behind the tag, in order. -/
def dataFields : Template → List (String × DataKind)
  | createAccount => [("lamports", .integer .u64), ("space", .integer .u64), ("owner", .key)]
  | assign => [("owner", .key)]
  | transferLamports => [("lamports", .integer .u64)]
  | createAccountWithSeed =>
    [("base", .key), ("seed", .text), ("lamports", .integer .u64), ("space", .integer .u64),
      ("owner", .key)]
  | requestHeapFrame => [("bytes_", .integer .u32)]
  | setComputeUnitLimit => [("units", .integer .u32)]
  | setComputeUnitPrice => [("micro_lamports", .integer .u64)]
  | initializeMint =>
    [("decimals", .integer .u8), ("mint_authority", .key), ("freeze_authority", .optionalKey)]
  | initializeAccount => [("owner", .key)]
  | transferTokens => [("amount", .integer .u64)]
  | transferChecked | mintToChecked | burnChecked =>
    [("amount", .integer .u64), ("decimals", .integer .u8)]
  | setAuthority => [("authority_type", .integer .u8), ("new_authority", .optionalKey)]
  | memo | createAssociatedTokenAccount | closeAccount | revoke | thawAccount => []

/-- The layout behind the tag. -/
def layout (template : Template) : Layout :=
  DataKind.layout template.dataFields

/-- The programs whose instructions are tagged. -/
def IsTagged (template : Template) : Prop :=
  template.path.1 ∈ ["system", "token", "compute_budget"]

instance (template : Template) : Decidable template.IsTagged :=
  inferInstanceAs (Decidable (template.path.1 ∈ ["system", "token", "compute_budget"]))

end Template

namespace Draft

/-- What a field in the data holds. -/
def value? (draft : Draft) (name : String) : (kind : DataKind) → Option kind.field.Value
  | .integer _ => draft.number? name
  | .key => draft.key? name
  | .text => draft.text? name
  | .optionalKey => some (draft.key? name)

/-- What the fields in the data hold, if all are set that must be. -/
def values? (draft : Draft) :
    (entries : List (String × DataKind)) → Option (DataKind.layout entries).Values
  | [] => some ()
  | (name, kind) :: entries => do
    let x ← draft.value? name kind
    let xs ← draft.values? entries
    return (x, xs)

end Draft

/-! ## Layouts -/

namespace DataKind

theorem isPlain_field (kind : DataKind) : kind.field.IsPlain := by
  cases kind <;> trivial

theorem isSchema_layout (entries : List (String × DataKind)) : (layout entries).IsSchema := by
  intro field hfield
  obtain ⟨entry, -, rfl⟩ := List.mem_map.mp hfield
  exact entry.2.isPlain_field

theorem fits_field (kind : DataKind) (x : kind.field.Value) : kind.field.Fits x := by
  cases kind with
  | optionalKey => exact fun _ _ => trivial
  | _ => trivial

/-- No byte string has to be asked for its length. -/
theorem fits_layout : (entries : List (String × DataKind)) → (xs : (layout entries).Values) →
    (layout entries).Fits xs
  | [], _ => trivial
  | (_, kind) :: entries, (x, xs) => ⟨kind.fits_field x, fits_layout entries xs⟩

end DataKind

namespace Draft

variable {draft : Draft} {action : Action} {tag : Discriminator}

theorem values?_cons {name : String} {kind : DataKind} {entries : List (String × DataKind)}
    {x : kind.field.Value} {xs : (DataKind.layout entries).Values}
    (hx : draft.value? name kind = some x) (hxs : draft.values? entries = some xs) :
    draft.values? ((name, kind) :: entries) = some (x, xs) := by
  rw [values?, hx, hxs]
  rfl

/-! ## The payload of a draft -/

/-- The payload of an action, if its data has a tag. -/
def Action.payload? : Action → Option Payload
  | .system action => some action.payload
  | .computeBudget action => some action.payload
  | .token order => some order.action.payload
  | .memo _ | .associatedToken _ => none

/-- An action with a payload writes it once its check has passed. -/
theorem Action.build_eq {payload : Payload} (h : action.payload? = some payload)
    (hash : Bytes → Hash) : ∃ program accounts, action.build hash = (do
      action.check
      let data ← payload.bytes
      return ⟨program, accounts, data⟩) := by
  cases action with
  | system action =>
    cases h
    exact ⟨_, _, rfl⟩
  | computeBudget action =>
    cases h
    exact ⟨_, _, rfl⟩
  | token order =>
    cases h
    exact ⟨_, _, rfl⟩
  | memo memo => cases h
  | associatedToken creation => cases h

/-- **The payload of a draft** is the tag of its template with what its data fields hold. -/
theorem payload?_of_action (haction : draft.action? = some action)
    (htag : draft.template.tag? = some tag) :
    ∃ xs, draft.values? draft.template.dataFields = some xs ∧
      action.payload? = some ⟨tag, draft.template.layout, xs⟩ := by
  obtain ⟨template, fields⟩ := draft
  cases template <;> cases htag <;>
    simp only [action?, tokenAction?, Option.bind_eq_bind, Option.bind_eq_some_iff,
      Option.pure_def, Option.some.injEq] at haction
  case createAccount =>
    obtain ⟨_, -, _, -, lamports, hlamports, space, hspace, owner, howner, rfl⟩ := haction
    exact ⟨_, values?_cons hlamports (values?_cons hspace (values?_cons howner rfl)), rfl⟩
  case assign =>
    obtain ⟨_, -, owner, howner, rfl⟩ := haction
    exact ⟨_, values?_cons howner rfl, rfl⟩
  case transferLamports =>
    obtain ⟨_, -, _, -, lamports, hlamports, rfl⟩ := haction
    exact ⟨_, values?_cons hlamports rfl, rfl⟩
  case createAccountWithSeed =>
    obtain ⟨_, -, _, -, base, hbase, seed, hseed, lamports, hlamports, space, hspace, owner, howner,
      rfl⟩ := haction
    exact ⟨_, values?_cons hbase (values?_cons hseed (values?_cons hlamports
      (values?_cons hspace (values?_cons howner rfl)))), rfl⟩
  case requestHeapFrame =>
    obtain ⟨size, hsize, rfl⟩ := haction
    exact ⟨_, values?_cons hsize rfl, rfl⟩
  case setComputeUnitLimit =>
    obtain ⟨units, hunits, rfl⟩ := haction
    exact ⟨_, values?_cons hunits rfl, rfl⟩
  case setComputeUnitPrice =>
    obtain ⟨price, hprice, rfl⟩ := haction
    exact ⟨_, values?_cons hprice rfl, rfl⟩
  case initializeMint =>
    obtain ⟨_, ⟨_, -, decimals, hdecimals, authority, hauthority, rfl⟩, rfl⟩ := haction
    exact ⟨_, values?_cons hdecimals (values?_cons hauthority (values?_cons rfl rfl)), rfl⟩
  case initializeAccount =>
    obtain ⟨_, ⟨_, -, _, -, owner, howner, rfl⟩, rfl⟩ := haction
    exact ⟨_, values?_cons howner rfl, rfl⟩
  case transferTokens =>
    obtain ⟨_, ⟨_, -, _, -, _, -, amount, hamount, rfl⟩, rfl⟩ := haction
    exact ⟨_, values?_cons hamount rfl, rfl⟩
  case transferChecked =>
    obtain ⟨_, ⟨_, -, _, -, _, -, _, -, amount, hamount, decimals, hdecimals, rfl⟩, rfl⟩ := haction
    exact ⟨_, values?_cons hamount (values?_cons hdecimals rfl), rfl⟩
  case mintToChecked | burnChecked =>
    obtain ⟨_, ⟨_, -, _, -, _, -, amount, hamount, decimals, hdecimals, rfl⟩, rfl⟩ := haction
    exact ⟨_, values?_cons hamount (values?_cons hdecimals rfl), rfl⟩
  case closeAccount | thawAccount =>
    obtain ⟨_, ⟨_, -, _, -, _, -, rfl⟩, rfl⟩ := haction
    exact ⟨_, rfl, rfl⟩
  case revoke =>
    obtain ⟨_, ⟨_, -, _, -, rfl⟩, rfl⟩ := haction
    exact ⟨_, rfl, rfl⟩
  case setAuthority =>
    obtain ⟨_, ⟨_, -, _, -, number, hnumber, rfl⟩, rfl⟩ := haction
    exact ⟨_, values?_cons hnumber (values?_cons rfl rfl), rfl⟩

end Draft

/-! ## Tags -/

namespace Template

variable {t t' : Template} {tag tag' : Discriminator}

theorem isTagged_iff : t.IsTagged ↔ ∃ tag, t.tag? = some tag := by
  rw [← Option.isSome_iff_exists]
  cases t <;> decide

theorem mem_all (t : Template) : t ∈ all := by
  cases t <;> decide

/-- The tags of a program have one width: a word for the system program, a byte for the others. -/
theorem width_of_tag? (htag : t.tag? = some tag) :
    tag.width = if t.path.1 = "system" then 4 else 1 := by
  cases t <;> cases htag <;> rfl

/-- No two templates of a program share a tag. -/
theorem tags_apart : ∀ t ∈ all, ∀ t' ∈ all, t.path.1 = t'.path.1 → t.tag?.isSome →
    t.tag?.map (·.bytes) = t'.tag?.map (·.bytes) → t = t' := by
  decide +kernel

/-- **The templates of a program are told apart by their tags.** -/
theorem tag?_injective (hpath : t.path.1 = t'.path.1) (htag : t.tag? = some tag)
    (htag' : t'.tag? = some tag') (hbytes : tag.bytes = tag'.bytes) : t = t' := by
  apply tags_apart t t.mem_all t' t'.mem_all hpath
  · rw [htag]
    rfl
  · rw [htag, htag', Option.map_some, Option.map_some, hbytes]

/-- The data of a program begins with the tag of its template. -/
theorem eq_of_data_eq (hpath : t.path.1 = t'.path.1) (htag : t.tag? = some tag)
    (htag' : t'.tag? = some tag') {rest rest' : Bytes}
    (hdata : tag.bytes ++ rest = tag'.bytes ++ rest') : t = t' := by
  apply tag?_injective hpath htag htag'
  apply List.append_inj_left hdata
  rw [tag.length_bytes, tag'.length_bytes, width_of_tag? htag, width_of_tag? htag', hpath]

end Template

/-! ## What can fail -/

namespace Draft

variable {draft : Draft} {action : Action} {tag : Discriminator}

/-- Fields are written just when each of them is. -/
theorem succeeds_values {entries : List (String × DataKind)}
    {xs : (DataKind.layout entries).Values} (hxs : draft.values? entries = some xs) :
    ((DataKind.layout entries).write xs).Succeeds ↔ ∀ entry ∈ entries, ∀ x,
      draft.value? entry.1 entry.2 = some x → (entry.2.field.write x).Succeeds := by
  induction entries with
  | nil => exact iff_of_true ⟨[], rfl⟩ nofun
  | cons entry entries ih =>
    obtain ⟨name, kind⟩ := entry
    obtain ⟨x, hx, hrest⟩ := Option.bind_eq_some_iff.mp hxs
    obtain ⟨ys, hys, hpair⟩ := Option.bind_eq_some_iff.mp hrest
    cases hpair
    have happends := (DataKind.isSchema_layout entries).appends_write ys
    have hfirst : (∀ y, draft.value? name kind = some y → (kind.field.write y).Succeeds) ↔
        (kind.field.write x).Succeeds := by
      simp only [hx, Option.some.injEq, forall_eq']
    rw [List.forall_mem_cons, hfirst, ← ih hys]
    exact Write.succeeds_seq happends

/-- A text in the data of a draft that passes its check is the seed of an account, and short. -/
theorem length_text_le (hcheck : draft.check = .ok ()) {name text : String}
    (hentry : (name, DataKind.text) ∈ draft.template.dataFields)
    (htext : draft.text? name = some text) : (Utf8.encode text).length ≤ 32 := by
  obtain ⟨-, action, haction, hpassed⟩ := check_eq_ok.mp hcheck
  obtain ⟨template, fields⟩ := draft
  cases template <;> simp [Template.dataFields] at hentry
  case createAccountWithSeed =>
    obtain rfl := hentry
    simp only [action?, Option.bind_eq_bind, Option.bind_eq_some_iff, Option.pure_def,
      Option.some.injEq] at haction
    obtain ⟨_, -, _, -, _, -, seed, hseed, _, -, _, -, _, -, rfl⟩ := haction
    obtain rfl : text = seed := Option.some.inj (htext.symm.trans hseed)
    rw [Action.check, System.Action.check] at hpassed
    split at hpassed
    · cases hpassed
    · next hshort => exact Nat.not_lt.mp hshort

/-- **Only numbers can fail**: the data fields of a draft that passes its check are written just
when every number in them fits its width. -/
theorem succeeds_write_iff (hcheck : draft.check = .ok ()) {xs : draft.template.layout.Values}
    (hxs : draft.values? draft.template.dataFields = some xs) :
    (draft.template.layout.write xs).Succeeds ↔ ∀ name kind n,
      (name, DataKind.integer kind) ∈ draft.template.dataFields →
        draft.get? name = some (.number n) → kind.Holds n := by
  refine (succeeds_values hxs).trans ⟨fun h name kind n hentry hn => ?_, fun h => ?_⟩
  · have hwrite := h (name, .integer kind) hentry n (number?_eq_some.mpr hn)
    exact Write.succeeds_integer.mp hwrite
  · rintro ⟨name, kind⟩ hentry x hx
    cases kind with
    | integer kind =>
      apply Write.succeeds_integer.mpr
      exact h name kind x hentry (number?_eq_some.mp hx)
    | key => exact ⟨_, Write.run_key x⟩
    | text =>
      have hshort := length_text_le hcheck hentry hx
      apply (Write.succeeds_seq (Write.appends_bytes _)).mpr
      have hbound : IntKind.u64.least + IntKind.u64.size = 0x10000000000000000 := rfl
      refine ⟨Write.succeeds_integer.mpr ⟨Int.natCast_nonneg _, ?_⟩, _, rfl⟩
      rw [hbound]
      omega
    | optionalKey =>
      apply (Write.succeeds_option Write.appends_key).mpr
      intro key _
      exact ⟨_, Write.run_key key⟩

/-! ## Data -/

/-- What is known of a draft with a tag that passes its check: it has a payload, whose bytes are the
data of its instruction. -/
theorem exists_payload (hash : Bytes → Hash) (htag : draft.template.tag? = some tag)
    (hcheck : draft.check = .ok ()) :
    ∃ xs program accounts, draft.values? draft.template.dataFields = some xs ∧
      draft.build hash = (do
        let data ← Payload.bytes ⟨tag, draft.template.layout, xs⟩
        return ⟨program, accounts, data⟩) := by
  obtain ⟨hmissing, action, haction, hpassed⟩ := check_eq_ok.mp hcheck
  obtain ⟨xs, hxs, hpayload⟩ := payload?_of_action haction htag
  obtain ⟨program, accounts, hbuild⟩ := Action.build_eq hpayload hash
  refine ⟨xs, program, accounts, hxs, ?_⟩
  rw [build_of_action hash hmissing haction, hbuild, hpassed]
  rfl

/-- A draft with a tag that does not pass its check is not built. -/
theorem check_of_build {hash : Bytes → Hash} {i : Instruction}
    (htag : draft.template.tag? = some tag) (hbuild : draft.build hash = .ok i) :
    draft.check = .ok () := by
  have hcomplete : draft.missing = [] ∧ ∃ action, draft.action? = some action := by
    rw [build] at hbuild
    split at hbuild
    · next hempty =>
      split at hbuild
      · next action haction => exact ⟨List.isEmpty_iff.mp hempty, action, haction⟩
      · cases hbuild
    · cases hbuild
  obtain ⟨hmissing, action, haction⟩ := hcomplete
  obtain ⟨xs, -, hpayload⟩ := payload?_of_action haction htag
  obtain ⟨program, accounts, heq⟩ := Action.build_eq hpayload hash
  rw [build_of_action hash hmissing haction, heq] at hbuild
  rw [check_of_action hmissing haction]
  cases hpassed : action.check with
  | ok => rfl
  | error fault =>
    rw [hpassed] at hbuild
    cases hbuild

/-- **The data of a draft** is its payload. -/
theorem data_of_build {hash : Bytes → Hash} {i : Instruction}
    (htag : draft.template.tag? = some tag) (hbuild : draft.build hash = .ok i) :
    ∃ xs, draft.values? draft.template.dataFields = some xs ∧
      Payload.bytes ⟨tag, draft.template.layout, xs⟩ = .ok i.data := by
  obtain ⟨xs, program, accounts, hxs, heq⟩ := exists_payload hash htag (check_of_build htag hbuild)
  refine ⟨xs, hxs, ?_⟩
  rw [heq] at hbuild
  cases hbytes : Payload.bytes ⟨tag, draft.template.layout, xs⟩ with
  | error fault =>
    rw [hbytes] at hbuild
    cases hbuild
  | ok data =>
    rw [hbytes] at hbuild
    cases hbuild
    rfl

/-- **The data of a draft is read back**, to the last byte. -/
theorem read_of_build {hash : Bytes → Hash} {i : Instruction}
    (htag : draft.template.tag? = some tag) (hbuild : draft.build hash = .ok i) :
    ∃ xs, draft.values? draft.template.dataFields = some xs ∧
      ExceptT.run (Payload.read tag draft.template.layout) (Cursor.start i.data) =
        (.ok xs, ⟨i.data, i.data.length⟩) := by
  obtain ⟨xs, hxs, hbytes⟩ := data_of_build htag hbuild
  have hschema := DataKind.isSchema_layout draft.template.dataFields
  have hfits := DataKind.fits_layout draft.template.dataFields xs
  have hread := (Payload.recognizes_read tag hschema).reads ⟨hfits, hbytes⟩ [] []
  rw [List.append_nil, List.nil_append, ← Cursor.start_eq_between] at hread
  refine ⟨xs, hxs, hread.trans ?_⟩
  rw [Cursor.between, List.append_nil]
  rfl

/-- Drafts of one program with the same data are of one template. -/
theorem template_eq_of_data_eq {hash : Bytes → Hash} {draft' : Draft} {i i' : Instruction}
    {tag' : Discriminator} (hpath : draft.template.path.1 = draft'.template.path.1)
    (htag : draft.template.tag? = some tag) (htag' : draft'.template.tag? = some tag')
    (hbuild : draft.build hash = .ok i) (hbuild' : draft'.build hash = .ok i')
    (hdata : i.data = i'.data) : draft.template = draft'.template := by
  obtain ⟨xs, -, hbytes⟩ := data_of_build htag hbuild
  obtain ⟨xs', -, hbytes'⟩ := data_of_build htag' hbuild'
  obtain ⟨rest, -, hfront⟩ := (Payload.bytes_eq_ok (DataKind.isSchema_layout _)).mp hbytes
  obtain ⟨rest', -, hfront'⟩ := (Payload.bytes_eq_ok (DataKind.isSchema_layout _)).mp hbytes'
  apply Template.eq_of_data_eq hpath htag htag'
  exact hfront.trans (hdata.trans hfront'.symm)

/-- **A draft that passes its check is refused by the codec alone**, and just when a number in its
data does not fit. -/
theorem build_cases_of_check (hash : Bytes → Hash) (htag : draft.template.tag? = some tag)
    (hcheck : draft.check = .ok ()) :
    ((∃ i, draft.build hash = .ok i) ∨ ∃ cause, draft.build hash = .error (.codec cause)) ∧
    ((∃ cause, draft.build hash = .error (.codec cause)) ↔
      ∃ name kind n, (name, DataKind.integer kind) ∈ draft.template.dataFields ∧
        draft.get? name = some (.number n) ∧ ¬kind.Holds n) := by
  obtain ⟨xs, program, accounts, hxs, heq⟩ := exists_payload hash htag hcheck
  have hschema := DataKind.isSchema_layout draft.template.dataFields
  have hfails : (∃ cause, draft.build hash = .error (.codec cause)) ↔
      ∃ cause, Payload.bytes ⟨tag, draft.template.layout, xs⟩ = .error (.codec cause) := by
    rw [heq]
    cases Payload.bytes ⟨tag, draft.template.layout, xs⟩ with
    | ok data => exact iff_of_false nofun nofun
    | error fault =>
      constructor
      · rintro ⟨cause, hcause⟩
        cases hcause
        exact ⟨cause, rfl⟩
      · rintro ⟨cause, hcause⟩
        cases hcause
        exact ⟨cause, rfl⟩
  rw [hfails, Payload.exists_codec_iff (p := ⟨tag, draft.template.layout, xs⟩) hschema]
  constructor
  · by_cases hbytes : ∃ data, Payload.bytes ⟨tag, draft.template.layout, xs⟩ = .ok data
    · obtain ⟨data, hdata⟩ := hbytes
      left
      rw [heq, hdata]
      exact ⟨_, rfl⟩
    · right
      rw [Payload.succeeds_iff (p := ⟨tag, draft.template.layout, xs⟩) hschema] at hbytes
      exact hbytes
  · rw [succeeds_write_iff hcheck hxs]
    push Not
    exact Iff.rfl

/-- **Data is unambiguous.** The data of an instruction that was built is read back, behind the tag
of its template and to the last byte, as what the data fields of the draft hold. Two drafts of one
program with the same data are therefore of one template, and their data fields hold the same. A
typed draft without missing fields passes its check or breaks a precondition; if it passes, it is
built or refused by the codec, and refused just when a number in it does not fit its width. -/
theorem data_unambiguous (hash : Bytes → Hash) :
    (∀ (draft : Draft) (i : Instruction), draft.template.IsTagged → draft.build hash = .ok i →
      ∃ tag xs, draft.template.tag? = some tag ∧
        draft.values? draft.template.dataFields = some xs ∧
          ExceptT.run (Payload.read tag draft.template.layout) (Cursor.start i.data) =
            (.ok xs, ⟨i.data, i.data.length⟩)) ∧
    (∀ (draft draft' : Draft) (i i' : Instruction), draft.template.IsTagged →
      draft.template.path.1 = draft'.template.path.1 →
        draft.build hash = .ok i → draft'.build hash = .ok i' → i.data = i'.data →
          draft.template = draft'.template ∧
            draft.values? draft.template.dataFields = draft'.values? draft.template.dataFields) ∧
    ∀ draft : Draft, draft.template.IsTagged → draft.Typed → draft.missing = [] →
      (draft.check = .ok () ∨ ∃ cause, draft.check = .error (.invalid cause)) ∧
      (draft.check = .ok () →
        ((∃ i, draft.build hash = .ok i) ∨ ∃ cause, draft.build hash = .error (.codec cause)) ∧
        ((∃ cause, draft.build hash = .error (.codec cause)) ↔
          ∃ name kind n, (name, DataKind.integer kind) ∈ draft.template.dataFields ∧
            draft.get? name = some (.number n) ∧ ¬kind.Holds n)) := by
  refine ⟨?_, ?_, ?_⟩
  · intro draft i htagged hbuild
    obtain ⟨tag, htag⟩ := Template.isTagged_iff.mp htagged
    obtain ⟨xs, hxs, hread⟩ := read_of_build htag hbuild
    exact ⟨tag, xs, htag, hxs, hread⟩
  · intro draft draft' i i' htagged hpath hbuild hbuild' hdata
    have htagged' : draft'.template.IsTagged := by
      rw [Template.IsTagged, ← hpath]
      exact htagged
    obtain ⟨tag, htag⟩ := Template.isTagged_iff.mp htagged
    obtain ⟨tag', htag'⟩ := Template.isTagged_iff.mp htagged'
    have htemplate := template_eq_of_data_eq hpath htag htag' hbuild hbuild' hdata
    refine ⟨htemplate, ?_⟩
    obtain ⟨template, fields⟩ := draft
    obtain ⟨template', fields'⟩ := draft'
    obtain rfl : template = template' := htemplate
    obtain ⟨xs, hxs, hread⟩ := read_of_build htag hbuild
    have htag : (Draft.mk template fields').template.tag? = some tag := htag
    obtain ⟨xs', hxs', hread'⟩ := read_of_build htag hbuild'
    rw [hdata] at hread
    cases hread.symm.trans hread'
    exact hxs.trans hxs'.symm
  · intro draft htagged htyped hmissing
    obtain ⟨tag, htag⟩ := Template.isTagged_iff.mp htagged
    exact ⟨htyped.check_cases, build_cases_of_check hash htag⟩

/-- A transfer in the one direction and in the other: the data is the same, and tells the amount.
An amount of one more than the greatest is refused. -/
theorem data_unambiguous_transfer :
    let hash : Bytes → Hash := fun _ => .zero .hash
    let draft (payer payee : PublicKey) (amount : Int) : Draft :=
      ⟨.transferLamports, [("from_pubkey", .key payer), ("to_pubkey", .key payee),
        ("lamports", .number amount)]⟩
    let key : PublicKey := .zero .publicKey
    let other : PublicKey := .ofRightmost .publicKey [1]
    ∃ i i', (draft key other 5).build hash = .ok i ∧ (draft other key 5).build hash = .ok i' ∧
      i.data = i'.data ∧
      (∃ tag xs, ExceptT.run (Payload.read tag Template.transferLamports.layout)
        (Cursor.start i.data) = (.ok xs, ⟨i.data, i.data.length⟩)) ∧
      (draft key other 5).values? Template.transferLamports.dataFields =
        (draft other key 5).values? Template.transferLamports.dataFields ∧
      ∃ cause, (draft key other 18446744073709551616).build hash = .error (.codec cause) := by
  intro hash draft key other
  have hbuild (payer payee : PublicKey) : ∃ i, (draft payer payee 5).build hash = .ok i ∧
      i.data = (Discriminator.word 2).bytes ++ IntKind.u64.encode 5 :=
    ⟨_, rfl, rfl⟩
  obtain ⟨i, hi, hdata⟩ := hbuild key other
  obtain ⟨i', hi', hdata'⟩ := hbuild other key
  have hsame : i.data = i'.data := hdata.trans hdata'.symm
  obtain ⟨hread, htells, hfits⟩ := data_unambiguous hash
  obtain ⟨tag, xs, -, -, hback⟩ := hread (draft key other 5) i (by decide) hi
  obtain ⟨-, hvalues⟩ :=
    htells (draft key other 5) (draft other key 5) i i' (by decide) rfl hi hi' hsame
  obtain ⟨-, hchecked⟩ := hfits (draft key other 18446744073709551616) (by decide) (by decide) rfl
  have hwide : ¬IntKind.Holds .u64 18446744073709551616 := by decide
  have hrefused := (hchecked rfl).2.mpr
    ⟨"lamports", .u64, 18446744073709551616, List.mem_singleton_self _, rfl, hwide⟩
  exact ⟨i, i', hi, hi', hsame, ⟨tag, xs, hback⟩, hvalues, hrefused⟩

/-- Data tells the template only within one program: a transfer of tokens and a price of compute
units are written alike. -/
example (source destination owner : PublicKey) :
    (Token.Action.transfer source destination owner 5).payload.bytes =
      (ComputeBudget.Action.unitPrice 5).payload.bytes :=
  rfl

end Draft

end LedgerClient
