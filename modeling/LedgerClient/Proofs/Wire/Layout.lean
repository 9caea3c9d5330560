import LedgerClient.Proofs.Wire.Reading
import LedgerClient.Wire.Field

/-!
# Layouts are read as they are written

A schema is a layout of items that carry their own bytes: numbers, truth values, keys, texts and
byte strings, each of which may also be missing where the layout says so. Reading such a layout
takes what writing it appends and nothing else. Values that were written are therefore read back in
front of any bytes, and bytes that are read as a whole are the bytes of their values: no item has
a second spelling.

The type of a value says almost everything about it. Only a byte string of fixed length has to be
asked for its length, since the write takes byte strings as they come.

## Main definitions

* `Field.IsSingle`, `Field.IsPlain`, `Layout.IsSchema`: the layouts of such items
* `Field.Fits`, `Layout.Fits`: byte strings of fixed length have that length

## Main results

* `Layout.IsSchema.refuses_write`: a schema that cannot be written is refused by the codec
* `Layout.IsSchema.recognizes_read`: a schema reads exactly what it writes
* `Layout.read_write_inverse`: reading and writing a schema are inverse to each other
-/

namespace LedgerClient

open Read (Recognizes)

namespace Field

/-- The field is one item with bytes of its own. -/
def IsSingle : Field → Prop
  | .bytes count => 0 ≤ count
  | .option _ | .array _ | .ending => False
  | _ => True

/-- The field is a single item, or a single item that may be missing. -/
def IsPlain : Field → Prop
  | .option item => item.IsSingle
  | field => field.IsSingle

instance : (field : Field) → Decidable field.IsSingle
  | .bytes count => inferInstanceAs (Decidable (0 ≤ count))
  | .option _ | .array _ | .ending => inferInstanceAs (Decidable False)
  | .integer _ | .bool | .key _ | .compact | .compactBytes | .string =>
    inferInstanceAs (Decidable True)

instance : (field : Field) → Decidable field.IsPlain
  | .option item => inferInstanceAs (Decidable item.IsSingle)
  | .array item => inferInstanceAs (Decidable (IsSingle (.array item)))
  | .bytes count => inferInstanceAs (Decidable (IsSingle (.bytes count)))
  | .integer _ | .bool | .key _ | .compact | .compactBytes | .string =>
    inferInstanceAs (Decidable True)
  | .ending => inferInstanceAs (Decidable False)

/-- A byte string of fixed length has that length. -/
def Fits : (field : Field) → field.Value → Prop
  | .bytes count, (bs : Bytes) => bs.length = count
  | .option item, (x : Option item.Value) => ∀ y ∈ x, item.Fits y
  | _, _ => True

variable {field : Field}

theorem IsPlain.cases (h : field.IsPlain) :
    field.IsSingle ∨ ∃ item : Field, field = .option item ∧ item.IsSingle := by
  cases field with
  | option item => exact .inr ⟨item, rfl, h⟩
  | _ => exact .inl h

theorem IsSingle.appends_write (h : field.IsSingle) (x : field.Value) :
    (field.write x).Appends := by
  cases field with
  | integer kind => exact Write.appends_integer kind x
  | bool => exact Write.appends_bool x
  | bytes count => exact Write.appends_bytes x
  | key kind => exact Write.appends_key x
  | compact => exact Write.appends_compact _
  | compactBytes => exact Write.appends_compactBytes x
  | string => exact Write.appends_string x
  | option item => exact h.elim
  | array item => exact h.elim
  | ending => exact h.elim

theorem IsPlain.appends_write (h : field.IsPlain) (x : field.Value) :
    (field.write x).Appends := by
  obtain hsingle | ⟨item, rfl, hitem⟩ := h.cases
  · exact hsingle.appends_write x
  · exact Write.appends_option hitem.appends_write x

/-- **A single item fails with a codec fault only**, and only a number or a length can fail. -/
theorem IsSingle.refuses_write (h : field.IsSingle) (x : field.Value) :
    (field.write x).Refuses := by
  cases field with
  | integer kind => exact Write.refuses_integer kind x
  | bool => exact Write.refuses_bool x
  | bytes count => exact Write.refuses_bytes x
  | key kind => exact Write.refuses_key x
  | compact => exact Write.refuses_compact _
  | compactBytes => exact Write.refuses_compactBytes x
  | string =>
    exact (Write.refuses_integer _ _).seq (Write.appends_bytes _) (Write.refuses_bytes _)
  | option item => exact h.elim
  | array item => exact h.elim
  | ending => exact h.elim

theorem IsPlain.refuses_write (h : field.IsPlain) (x : field.Value) :
    (field.write x).Refuses := by
  obtain hsingle | ⟨item, rfl, hitem⟩ := h.cases
  · exact hsingle.refuses_write x
  · exact Write.refuses_option hitem.appends_write hitem.refuses_write x

/-- Values that fit by their type alone. -/
theorem recognizes_of_inverts {read : Read field.Value} {write : field.Value → Write}
    (h : read.Inverts write) (hfits : ∀ x, field.Fits x) :
    Recognizes read fun x bs => field.Fits x ∧ (write x).run = .ok bs :=
  h.congr fun x _ => (and_iff_right (hfits x)).symm

/-- **A single item is read just where it is written.** -/
theorem IsSingle.recognizes_read (h : field.IsSingle) :
    Recognizes field.read fun x bs => field.Fits x ∧ (field.write x).run = .ok bs := by
  cases field with
  | integer kind => exact recognizes_of_inverts (Read.inverts_integer kind) fun _ => trivial
  | bool => exact recognizes_of_inverts Read.inverts_bool fun _ => trivial
  | bytes count =>
    -- The write takes any number of bytes, so the length is what the field adds.
    obtain ⟨n, rfl⟩ := Int.eq_ofNat_of_zero_le h
    refine (Read.recognizes_bytes n).congr fun x bs => ?_
    constructor
    · rintro ⟨rfl, hlen⟩
      exact ⟨congrArg Nat.cast hlen, rfl⟩
    · rintro ⟨hlen, hbs⟩
      cases hbs
      exact ⟨rfl, Int.ofNat.inj hlen⟩
  | key kind => exact recognizes_of_inverts (Read.inverts_key kind) fun _ => trivial
  | compact => exact recognizes_of_inverts Read.inverts_compact fun _ => trivial
  | compactBytes => exact recognizes_of_inverts Read.inverts_compactBytes fun _ => trivial
  | string => exact recognizes_of_inverts Read.inverts_string fun _ => trivial
  | option item => exact h.elim
  | array item => exact h.elim
  | ending => exact h.elim

/-- **An item is read just where it is written**, also one that may be missing. -/
theorem IsPlain.recognizes_read (h : field.IsPlain) :
    Recognizes field.read fun x bs => field.Fits x ∧ (field.write x).run = .ok bs := by
  obtain hsingle | ⟨item, rfl, hitem⟩ := h.cases
  · exact hsingle.recognizes_read
  refine hitem.recognizes_read.option.congr fun (x : Option item.Value) bs => ?_
  constructor
  · rintro (⟨rfl, rfl⟩ | ⟨y, a, rfl, ⟨hfits, ha⟩, rfl⟩)
    · refine ⟨?_, Write.run_option_none⟩
      intro y hy
      cases hy
    · refine ⟨?_, (Write.run_option_some_eq_ok hitem.appends_write).mpr ⟨a, ha, rfl⟩⟩
      intro z hz
      cases hz
      exact hfits
  · rintro ⟨hfits, hrun⟩
    cases x with
    | none =>
      cases hrun
      exact .inl ⟨rfl, rfl⟩
    | some y =>
      obtain ⟨a, ha, rfl⟩ := (Write.run_option_some_eq_ok hitem.appends_write).mp hrun
      exact .inr ⟨y, a, rfl, ⟨hfits y rfl, ha⟩, rfl⟩

end Field

namespace Layout

/-- The layout consists of items that carry their own bytes. -/
def IsSchema (layout : Layout) : Prop :=
  ∀ field ∈ layout, field.IsPlain

instance (layout : Layout) : Decidable layout.IsSchema :=
  inferInstanceAs (Decidable (∀ field ∈ layout, field.IsPlain))

/-- Every byte string of fixed length has that length. -/
def Fits : (layout : Layout) → layout.Values → Prop
  | [], _ => True
  | field :: fields, (x, xs) => field.Fits x ∧ Fits fields xs

variable {layout : Layout}

theorem IsSchema.appends_write (h : layout.IsSchema) (xs : layout.Values) :
    (layout.write xs).Appends := by
  induction layout with
  | nil => exact Write.appends_pure
  | cons field fields ih =>
    obtain ⟨hfield, hfields⟩ := List.forall_mem_cons.mp h
    exact (hfield.appends_write xs.1).seq (ih hfields xs.2)

theorem IsSchema.refuses_write (h : layout.IsSchema) (xs : layout.Values) :
    (layout.write xs).Refuses := by
  induction layout with
  | nil => exact Write.refuses_pure
  | cons field fields ih =>
    obtain ⟨hfield, hfields⟩ := List.forall_mem_cons.mp h
    have happends := IsSchema.appends_write hfields xs.2
    exact (hfield.refuses_write xs.1).seq happends (ih hfields xs.2)

/-- **A schema reads exactly what it writes**, field by field. -/
theorem IsSchema.recognizes_read (h : layout.IsSchema) :
    Recognizes layout.read fun xs bs => layout.Fits xs ∧ (layout.write xs).run = .ok bs := by
  induction layout with
  | nil =>
    refine (Read.recognizes_pure ()).congr fun xs bs => ?_
    constructor
    · rintro ⟨-, rfl⟩
      exact ⟨trivial, rfl⟩
    · rintro ⟨-, hrun⟩
      cases hrun
      exact ⟨rfl, rfl⟩
  | cons field fields ih =>
    obtain ⟨hfield, hfields⟩ := List.forall_mem_cons.mp h
    refine (hfield.recognizes_read.bind fun x _ _ => (ih hfields).bind fun xs _ _ =>
      Read.recognizes_pure (x, xs)).congr fun values bs => ?_
    constructor
    · rintro ⟨x, a, -, ⟨hx, ha⟩, ⟨xs, b, -, ⟨hxs, hb⟩, ⟨rfl, rfl⟩, rfl⟩, rfl⟩
      have happends := IsSchema.appends_write hfields xs
      refine ⟨⟨hx, hxs⟩, (Write.run_seq_eq_ok happends).mpr ⟨a, b, ha, hb, ?_⟩⟩
      rw [List.append_nil]
    · obtain ⟨x, xs⟩ := values
      rintro ⟨⟨hx, hxs⟩, hrun⟩
      have happends := IsSchema.appends_write hfields xs
      obtain ⟨a, b, ha, hb, rfl⟩ := (Write.run_seq_eq_ok happends).mp hrun
      exact ⟨x, a, b, ⟨hx, ha⟩, ⟨xs, b, [], ⟨hxs, hb⟩, ⟨rfl, rfl⟩, List.append_nil b⟩, rfl⟩

/-- **Reading and writing a schema are inverse to each other.** Values that are written are read
back in front of any bytes, and the cursor then stands right behind what was written. Bytes that are
read to their end are what the values that were read are written as. -/
theorem read_write_inverse (layout : Layout) (h : layout.IsSchema) :
    (∀ xs bs, layout.Fits xs → (layout.write xs).run = .ok bs → ∀ tail,
      ExceptT.run layout.read (Cursor.start (bs ++ tail)) = (.ok xs, ⟨bs ++ tail, bs.length⟩)) ∧
    ∀ bs xs, Read.all layout.read bs = .ok xs →
      layout.Fits xs ∧ (layout.write xs).run = .ok bs := by
  constructor
  · intro xs bs hfits hrun tail
    have hread := h.recognizes_read.reads ⟨hfits, hrun⟩ [] tail
    rwa [List.nil_append, ← Cursor.start_eq_between] at hread
  · intro bs xs hall
    exact h.recognizes_read.all_eq_ok.mp hall

/-- A negative number, a truth value that is there and two bytes, in front of a byte more. -/
theorem read_write_inverse_negative_number :
    IsSchema [.integer .i16, .option .bool, .bytes 2] ∧
    ExceptT.run (Layout.read [.integer .i16, .option .bool, .bytes 2])
      (Cursor.start [0xFE, 0xFF, 1, 0, 5, 6, 7]) =
        (.ok ((-2 : Int), (some false : Option Bool), ([5, 6] : Bytes), ()),
          ⟨[0xFE, 0xFF, 1, 0, 5, 6, 7], 6⟩) := by
  have hschema : IsSchema [.integer .i16, .option .bool, .bytes 2] := by decide
  have hfits : Fits [.integer .i16, .option .bool, .bytes 2]
      ((-2 : Int), (some false : Option Bool), ([5, 6] : Bytes), ()) :=
    ⟨trivial, fun _ _ => trivial, rfl, trivial⟩
  exact ⟨hschema, (read_write_inverse _ hschema).1 _ [0xFE, 0xFF, 1, 0, 5, 6] hfits rfl [7]⟩

end Layout

end LedgerClient
