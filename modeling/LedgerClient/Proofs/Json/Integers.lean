import LedgerClient.Json.Printer
import LedgerClient.Json.Reader
import LedgerClient.Proofs.Fault
import LedgerClient.Proofs.Json.Nesting
import LedgerClient.Proofs.Text.Utf8

/-!
# Lists of whole numbers

A whole number is written by its digits, without a zero in front, and the reader of numbers takes
just these digits from the front of a text, as long as nothing follows that could belong to the
number. So a list of whole numbers that is written is read back item by item, each with the count
of its digits. It is refused as a value if one of them has more digits than are read, and only then.

## Main definitions

* `Json.Writes`: digits as a number is written by
* `Json.Ends`: what may follow a whole number
* `Json.written`: the structure of a whole number

## Main results

* `Json.writes_digits`: every number is written by its digits
* `Json.document_render`: the structure of a list that is written
* `Json.read_render`: a list that is written is read back, unless a number in it is too long
-/

namespace LedgerClient

namespace Utf8

theorem encode_append (a b : String) : encode (a ++ b) = encode a ++ encode b := by
  rw [encode, String.toList_append, List.flatMap_append]
  rfl

theorem utf8EncodeChar_ascii {c : Char} (h : c.toNat < 0x80) :
    String.utf8EncodeChar c = [UInt8.ofNat c.toNat] := by
  rw [← utf8EncodeChar_one h, Char.ofNat_toNat]

end Utf8

namespace Json

variable {n : Nat} {ds rest : Bytes}

/-! ## Digits -/

/-- The digits are how the number is written: there is one, and no zero stands in front of
others. -/
structure Writes (ds : Bytes) (n : Nat) : Prop where
  nonempty : ds ≠ []
  isDigit : ∀ b ∈ ds, isDigit b = true
  value : ofDigits ds = n
  leading : ∀ tail, ds = 0x30 :: tail → tail = []

/-- The decimal digits of a number. -/
def digits (n : Nat) : Bytes :=
  Utf8.encode (toString n)

theorem encode_digitChar (h : n < 10) :
    String.utf8EncodeChar n.digitChar = [UInt8.ofNat (48 + n)] := by
  have hchar := Nat.toNat_digitChar_of_lt_ten h
  rw [Utf8.utf8EncodeChar_ascii (by omega), hchar]

theorem digits_of_lt (h : n < 10) : digits n = [UInt8.ofNat (48 + n)] := by
  rw [digits, Utf8.encode, Nat.toString_eq_ofList_toDigits, String.toList_ofList,
    Nat.toDigits_of_lt_base h, List.flatMap_singleton, encode_digitChar h]

theorem digits_of_le (h : 10 ≤ n) :
    digits n = digits (n / 10) ++ [UInt8.ofNat (48 + n % 10)] := by
  rw [digits, Utf8.encode, Nat.toString_eq_ofList_toDigits, String.toList_ofList,
    Nat.toDigits_of_base_le (by decide) h, List.flatMap_append, List.flatMap_singleton,
    encode_digitChar (Nat.mod_lt n (by decide)), digits, Utf8.encode,
    Nat.toString_eq_ofList_toDigits, String.toList_ofList]

theorem toNat_digit (h : n < 10) : (UInt8.ofNat (48 + n)).toNat = 48 + n := by
  rw [UInt8.toNat_ofNat']
  exact Nat.mod_eq_of_lt (by omega)

theorem isDigit_ofNat (h : n < 10) : isDigit (UInt8.ofNat (48 + n)) = true := by
  simp only [isDigit, Bool.and_eq_true, decide_eq_true_eq, UInt8.le_iff_toNat_le, toNat_digit h]
  change 48 ≤ _ ∧ _ ≤ 57
  omega

theorem ofDigits_append (ds : Bytes) (b : UInt8) :
    ofDigits (ds ++ [b]) = 10 * ofDigits ds + (b.toNat - 48) := by
  rw [ofDigits, List.foldl_append]
  rfl

/-- **Every number is written by its digits**: the last one is the remainder by ten, and the others
write the quotient. -/
theorem writes_digits (n : Nat) : Writes (digits n) n := by
  induction n using Nat.strongRecOn with
  | ind n ih =>
    by_cases hn : n < 10
    · rw [digits_of_lt hn]
      refine ⟨List.cons_ne_nil _ _, ?_, ?_, ?_⟩
      · intro b hb
        rw [List.mem_singleton.mp hb]
        exact isDigit_ofNat hn
      · change 10 * 0 + ((UInt8.ofNat (48 + n)).toNat - 48) = n
        rw [toNat_digit hn]
        omega
      · intro tail heq
        exact ((List.cons.inj heq).2).symm
    · have hten : 10 ≤ n := Nat.le_of_not_lt hn
      have hlast : n % 10 < 10 := Nat.mod_lt n (by decide)
      obtain ⟨hnonempty, hdigits, hvalue, hleading⟩ := ih (n / 10) (by omega)
      rw [digits_of_le hten]
      refine ⟨List.append_ne_nil_of_left_ne_nil hnonempty _, ?_, ?_, ?_⟩
      · intro b hb
        rcases List.mem_append.mp hb with hb | hb
        · exact hdigits b hb
        · rw [List.mem_singleton.mp hb]
          exact isDigit_ofNat hlast
      · rw [ofDigits_append, hvalue, toNat_digit hlast]
        omega
      · -- A zero in front would be all that writes the quotient, which is not zero.
        intro tail heq
        obtain ⟨b, ds, hds⟩ := List.exists_cons_of_ne_nil hnonempty
        rw [hds, List.cons_append] at heq
        obtain ⟨rfl, -⟩ := List.cons.inj heq
        rw [hds, hleading ds hds] at hvalue
        change 0 = n / 10 at hvalue
        omega

/-- A number has no more digits than there are numbers up to it. -/
theorem length_digits_le (n : Nat) : (digits n).length ≤ n + 1 := by
  induction n using Nat.strongRecOn with
  | ind n ih =>
    by_cases hn : n < 10
    · rw [digits_of_lt hn, List.length_singleton]
      omega
    · have hquotient := ih (n / 10) (by omega)
      rw [digits_of_le (Nat.le_of_not_lt hn), List.length_append, List.length_singleton]
      omega

/-! ## Numbers -/

/-- What follows a whole number and does not belong to it: no digit, no point and no exponent. -/
def Ends (rest : Bytes) : Prop :=
  ∀ b ∈ rest.head?, isDigit b = false ∧ b ≠ 0x2E ∧ b ≠ 0x65 ∧ b ≠ 0x45

theorem Ends.dropWhile (h : Ends rest) : rest.dropWhile isDigit = rest := by
  cases rest with
  | nil => rfl
  | cons b rest => exact List.dropWhile_cons_of_neg (Bool.not_eq_true _ ▸ (h b rfl).1)

theorem Ends.takeWhile (h : Ends rest) : rest.takeWhile isDigit = [] := by
  cases rest with
  | nil => rfl
  | cons b rest => exact List.takeWhile_cons_of_neg (Bool.not_eq_true _ ▸ (h b rfl).1)

theorem Ends.fraction? (h : Ends rest) : fraction? rest = some (none, rest) := by
  unfold Json.fraction?
  split
  · exact absurd rfl (h 0x2E rfl).2.1
  · rfl

theorem Ends.exponent? (h : Ends rest) : exponent? rest = some (none, rest) := by
  cases rest with
  | nil => rfl
  | cons b rest =>
    obtain ⟨-, -, hlower, hupper⟩ := h b rfl
    unfold Json.exponent?
    exact if_neg (not_or.mpr ⟨hlower, hupper⟩)

/-- The digits of a number are its whole part. -/
theorem Writes.wholePart? (h : Writes ds n) (hrest : Ends rest) :
    wholePart? (ds ++ rest) = some (ds, rest) := by
  have hsome : someDigits? (ds ++ rest) = some (ds, rest) := by
    unfold someDigits?
    rw [List.takeWhile_append_of_pos h.isDigit, List.dropWhile_append_of_pos h.isDigit,
      hrest.takeWhile, hrest.dropWhile, List.append_nil]
    obtain ⟨b, tail, rfl⟩ := List.exists_cons_of_ne_nil h.nonempty
    rfl
  unfold Json.wholePart?
  rw [hsome]
  split
  · next heq =>
    obtain ⟨rfl, -⟩ := Prod.mk.inj (Option.some.inj heq)
    nomatch h.leading _ rfl
  · rfl

/-- The text of a whole number: a minus if it is negative, and the digits. -/
theorem encode_toString (n : Int) :
    Utf8.encode (toString n) = if n < 0 then 0x2D :: digits n.natAbs else digits n.natAbs := by
  cases n with
  | ofNat n => rfl
  | negSucc n =>
    rw [if_pos (Int.negSucc_lt_zero n)]
    exact Utf8.encode_append "-" (toString (n + 1))

/-- The structure of a whole number. -/
def written (n : Int) : Tree :=
  .number (.whole n (digits n.natAbs).length)

theorem Writes.number?_minus (h : Writes ds n) (hrest : Ends rest) :
    number? (0x2D :: (ds ++ rest)) = some (.whole (-(n : Int)) ds.length, rest) := by
  unfold number?
  split
  · next negative body hsign =>
    cases hsign
    simp only [h.wholePart? hrest, hrest.fraction?, hrest.exponent?, h.value,
      Option.bind_eq_bind, Option.bind_some, Option.pure_def, if_true]

theorem Writes.number? (h : Writes ds n) (hrest : Ends rest) :
    number? (ds ++ rest) = some (.whole n ds.length, rest) := by
  unfold Json.number?
  split
  · next negative body hsign =>
    split at hsign
    · next body' heq =>
      obtain ⟨b, tail, rfl⟩ := List.exists_cons_of_ne_nil h.nonempty
      obtain ⟨rfl, -⟩ := List.cons.inj heq
      exact absurd (h.isDigit 0x2D List.mem_cons_self) (by decide)
    · cases hsign
      simp only [h.wholePart? hrest, hrest.fraction?, hrest.exponent?, h.value,
        Option.bind_eq_bind, Option.bind_some, Option.pure_def, Bool.false_eq_true, if_false]

theorem number?_toString (n : Int) (hrest : Ends rest) :
    number? (Utf8.encode (toString n) ++ rest) =
      some (.whole n (digits n.natAbs).length, rest) := by
  have hwrites := writes_digits n.natAbs
  rw [encode_toString]
  split
  · next hn =>
    rw [List.cons_append, hwrites.number?_minus hrest, Int.ofNat_natAbs_of_nonpos (by omega),
      Int.neg_neg]
  · next hn =>
    rw [hwrites.number? hrest, Int.natAbs_of_nonneg (by omega)]

/-! ## Values and items -/

/-- The byte is one that numbers begin with. -/
def StartsNumber (b : UInt8) : Prop :=
  isDigit b = true ∨ b = 0x2D

namespace StartsNumber

variable {b : UInt8}

theorem ne {x : UInt8} (h : StartsNumber b) (hx : isDigit x = false ∧ x ≠ 0x2D) : b ≠ x := by
  rintro rfl
  rcases h with h | h
  · exact Bool.false_ne_true (hx.1.symm.trans h)
  · exact hx.2 h

theorem isSpace (h : StartsNumber b) : isSpace b = false := by
  simp only [Json.isSpace, Bool.or_eq_false_iff, beq_eq_false_iff_ne]
  exact ⟨⟨⟨h.ne (by decide), h.ne (by decide)⟩, h.ne (by decide)⟩, h.ne (by decide)⟩

/-- What begins like a number begins like no other value. -/
theorem readValue (h : StartsNumber b) {tail : Bytes} {number : Number}
    (hnumber : number? (b :: tail) = some (number, rest)) (fuel depth : Nat) :
    readValue (fuel + 1) depth (b :: tail) = (.number number, some rest) := by
  rw [Json.readValue, skipSpace_cons h.isSpace]
  dsimp only
  rw [if_neg (h.ne (by decide)), if_neg (h.ne (by decide)), if_neg (h.ne (by decide)),
    if_neg (h.ne (by decide)), if_neg (h.ne (by decide)), if_neg (h.ne (by decide)), hnumber]

/-- A list whose first item begins like a number is not empty. -/
theorem readValue_list (h : StartsNumber b) {tail : Bytes} {items : List Tree} {fuel depth : Nat}
    (hitems : readItems fuel depth (b :: tail) = (items, some rest)) :
    Json.readValue (fuel + 1) (depth + 1) (0x5B :: b :: tail) = (.arr items, some rest) := by
  rw [Json.readValue_list h.isSpace (h.ne (by decide)), hitems]

end StartsNumber

theorem exists_cons_toString (n : Int) :
    ∃ b tail, Utf8.encode (toString n) = b :: tail ∧ StartsNumber b := by
  have hwrites := writes_digits n.natAbs
  rw [encode_toString]
  split
  · exact ⟨_, _, rfl, .inr rfl⟩
  · obtain ⟨b, tail, htail⟩ := List.exists_cons_of_ne_nil hwrites.nonempty
    exact ⟨b, tail, htail, .inl (hwrites.isDigit b (htail ▸ List.mem_cons_self))⟩

theorem readValue_toString (n : Int) (fuel depth : Nat) (hrest : Ends rest) :
    readValue (fuel + 1) depth (Utf8.encode (toString n) ++ rest) = (written n, some rest) := by
  have hnumber := number?_toString n hrest
  obtain ⟨b, tail, htail, hb⟩ := exists_cons_toString n
  rw [htail, List.cons_append] at hnumber ⊢
  exact hb.readValue hnumber fuel depth

/-- The items of a list of whole numbers, as they are written between brackets. -/
def itemsText (ns : List Int) : Bytes :=
  Utf8.encode (",".intercalate (renderItems (ns.map .int)))

theorem itemsText_singleton (n : Int) : itemsText [n] = Utf8.encode (toString n) := by
  change Utf8.encode (",".intercalate [toString n]) = _
  rw [String.intercalate_singleton]

theorem itemsText_cons_cons (n m : Int) (ns : List Int) :
    itemsText (n :: m :: ns) = Utf8.encode (toString n) ++ 0x2C :: itemsText (m :: ns) := by
  change Utf8.encode (",".intercalate (toString n :: toString m :: renderItems (ns.map .int))) = _
  rw [String.intercalate_cons_cons, Utf8.encode_append, Utf8.encode_append, List.append_assoc]
  rfl

theorem exists_cons_itemsText (n : Int) (ns : List Int) :
    ∃ b tail, itemsText (n :: ns) = b :: tail ∧ StartsNumber b := by
  obtain ⟨b, tail, htail, hb⟩ := exists_cons_toString n
  cases ns with
  | nil => exact ⟨b, tail, by rw [itemsText_singleton, htail], hb⟩
  | cons m ns => exact ⟨b, _, by rw [itemsText_cons_cons, htail, List.cons_append], hb⟩

theorem length_le_itemsText (ns : List Int) : ns.length ≤ (itemsText ns).length := by
  induction ns with
  | nil => exact Nat.zero_le _
  | cons n ns ih =>
    obtain ⟨b, tail, htail, -⟩ := exists_cons_toString n
    cases ns with
    | nil =>
      rw [itemsText_singleton, htail]
      exact Nat.succ_le_succ (Nat.zero_le _)
    | cons m ns =>
      rw [itemsText_cons_cons, htail]
      simp only [List.length_cons, List.length_append] at ih ⊢
      omega

theorem readItems_last {bs : Bytes} {item : Tree} {fuel depth : Nat}
    (h : readValue fuel depth bs = (item, some (0x5D :: rest))) :
    readItems (fuel + 1) depth bs = ([item], some rest) := by
  rw [readItems, h]
  rfl

theorem readItems_comma {bs : Bytes} {item : Tree} {items : Reading (List Tree)}
    {fuel depth : Nat} (h : readValue fuel depth bs = (item, some (0x2C :: rest)))
    (hitems : readItems fuel depth rest = items) :
    readItems (fuel + 1) depth bs = (item :: items.1, items.2) := by
  rw [readItems, h, ← hitems]
  rfl

/-- **The items of a list are read one by one**, up to the bracket that closes it. -/
theorem readItems_itemsText {n : Int} {ns : List Int} {fuel depth : Nat}
    (hfuel : ns.length < fuel) : readItems (fuel + 1) depth (itemsText (n :: ns) ++ 0x5D :: rest) =
      ((n :: ns).map written, some rest) := by
  induction ns generalizing n fuel with
  | nil =>
    have hend : Ends (0x5D :: rest) := by
      rintro b ⟨⟩
      decide
    obtain ⟨fuel, rfl⟩ := Nat.exists_eq_add_one_of_ne_zero (Nat.ne_of_gt hfuel)
    rw [itemsText_singleton]
    exact readItems_last (readValue_toString n fuel depth hend)
  | cons m ns ih =>
    have hcomma : Ends (0x2C :: (itemsText (m :: ns) ++ 0x5D :: rest)) := by
      rintro b ⟨⟩
      decide
    rw [List.length_cons] at hfuel
    obtain ⟨fuel, rfl⟩ := Nat.exists_eq_add_one_of_ne_zero (Nat.ne_zero_of_lt hfuel)
    rw [itemsText_cons_cons, List.append_assoc, List.cons_append]
    exact readItems_comma (readValue_toString n fuel depth hcomma)
      (ih (Nat.lt_of_succ_lt_succ hfuel))

/-! ## Documents -/

/-- **The structure of a list of whole numbers** that is written holds the numbers, each with the
count of its digits. -/
theorem document_render (ns : List Int) :
    Document.read (Utf8.encode (Value.arr (ns.map .int)).render) =
      ⟨.arr (ns.map written), true⟩ := by
  have htext : Utf8.encode (Value.arr (ns.map .int)).render = 0x5B :: (itemsText ns ++ [0x5D]) := by
    rw [Value.render, Utf8.encode_append, Utf8.encode_append]
    rfl
  rw [htext]
  cases ns with
  | nil => rfl
  | cons n ns =>
    have hlen := length_le_itemsText (n :: ns)
    obtain ⟨b, tail, htail, hb⟩ := exists_cons_itemsText n ns
    -- Every item takes fuel for itself and leaves the rest to the others.
    have hitems (depth : Nat) : readItems (2 * (itemsText (n :: ns)).length + 5) depth
        (b :: (tail ++ [0x5D])) = ((n :: ns).map written, some []) := by
      rw [← List.cons_append, ← htail]
      refine readItems_itemsText ?_
      rw [List.length_cons] at hlen
      omega
    have hfuel : 2 * (0x5B :: (itemsText (n :: ns) ++ [0x5D])).length + 2 =
        2 * (itemsText (n :: ns)).length + 5 + 1 := by
      rw [List.length_cons, List.length_append, List.length_singleton]
      omega
    rw [Document.read, hfuel, List.length_cons, htail, List.cons_append, ← htail,
      hb.readValue_list (hitems _)]
    rfl

/-! ## Values of one form -/

section Forms

variable {tree : Tree} {number : Number}

theorem Number.value_eq_int {n : Int} : number.value = .ok (.int n) ↔
    ∃ digits, number = .whole n digits ∧ ¬Numeral.maxDigits < digits := by
  constructor
  · intro h
    unfold Number.value at h
    repeat' split at h
    all_goals cases h
    exact ⟨_, rfl, ‹_›⟩
  · rintro ⟨digits, rfl, hshort⟩
    exact if_neg hshort

theorem Number.value_ne_arr (values : List Value) : number.value ≠ .ok (.arr values) := by
  intro h
  unfold Number.value at h
  repeat' split at h
  all_goals cases h

/-- A whole number is the value of a whole number that is not too long, and of nothing else. -/
theorem Tree.value_eq_int {n : Int} : tree.value = .ok (.int n) ↔
    ∃ digits, tree = .number (.whole n digits) ∧ ¬Numeral.maxDigits < digits := by
  constructor
  · intro h
    cases tree with
    | number number =>
      obtain ⟨digits, rfl, hshort⟩ := Number.value_eq_int.mp h
      exact ⟨digits, rfl, hshort⟩
    | null | bool _ | broken => cases h
    | str _ | arr _ | obj _ =>
      obtain ⟨_, -, hform⟩ := Fault.map_eq_ok.mp h
      cases hform
  · rintro ⟨digits, rfl, hshort⟩
    exact Number.value_eq_int.mpr ⟨digits, rfl, hshort⟩

/-- A list is the value of a list, and of nothing else. -/
theorem Tree.value_eq_arr {values : List Value} : tree.value = .ok (.arr values) ↔
    ∃ items, tree = .arr items ∧ itemValues items = .ok values := by
  constructor
  · intro h
    cases tree with
    | number number => exact absurd h (Number.value_ne_arr values)
    | null | bool _ | broken => cases h
    | str _ | obj _ =>
      obtain ⟨_, -, hform⟩ := Fault.map_eq_ok.mp h
      cases hform
    | arr items =>
      obtain ⟨values', hvalues, hform⟩ := Fault.map_eq_ok.mp h
      cases hform
      exact ⟨items, rfl, hvalues⟩
  · rintro ⟨items, rfl, hvalues⟩
    exact Fault.map_eq_ok.mpr ⟨values, hvalues, rfl⟩

theorem Document.using_eq_ok {α : Type} {read : Tree → Except Obstacle α} {x : α} {d : Document} :
    d.using read = .ok x ↔ read d.tree = .ok x ∧ d.complete = true := by
  rw [Document.using, Fault.bind_eq_ok]
  constructor
  · rintro ⟨y, hread, hcomplete⟩
    split at hcomplete
    · next h =>
      cases hcomplete
      exact ⟨hread, h⟩
    · cases hcomplete
  · rintro ⟨hread, hcomplete⟩
    refine ⟨x, hread, ?_⟩
    rw [if_pos hcomplete]
    rfl

end Forms

/-! ## Lists that are written and read -/

theorem itemValues_written (ns : List Int) :
    itemValues (ns.map written) = .ok (ns.map .int) ∨
      itemValues (ns.map written) = .error .form ∧
        ∃ n ∈ ns, Numeral.maxDigits < (digits n.natAbs).length := by
  induction ns with
  | nil => exact .inl rfl
  | cons n ns ih =>
    rw [List.map_cons, itemValues, written, Tree.value, Number.value]
    by_cases hlong : Numeral.maxDigits < (digits n.natAbs).length
    · rw [if_pos hlong]
      exact .inr ⟨rfl, n, List.mem_cons_self, hlong⟩
    · rw [if_neg hlong]
      rcases ih with hok | ⟨herror, m, hm, hlong⟩
      · rw [hok]
        exact .inl rfl
      · rw [herror]
        exact .inr ⟨rfl, m, List.mem_cons_of_mem _ hm, hlong⟩

/-- **A list of whole numbers that is written is read back**, unless a number in it has more digits
than are read. -/
theorem read_render (ns : List Int) :
    read (Utf8.encode (Value.arr (ns.map .int)).render) = .ok (.arr (ns.map .int)) ∨
      read (Utf8.encode (Value.arr (ns.map .int)).render) = .error .form ∧
        ∃ n ∈ ns, Numeral.maxDigits < (digits n.natAbs).length := by
  rw [read, document_render, Document.using, Tree.value]
  rcases itemValues_written ns with hok | ⟨herror, hlong⟩
  · rw [hok]
    exact .inl rfl
  · rw [herror]
    exact .inr ⟨rfl, hlong⟩

end Json

end LedgerClient
