import LedgerClient.Proofs.Wire.Reading

/-!
# Reads at a position

Data that is long enough is a text of positions: a read that starts at one of them takes the part
of the data there, and ends at the position behind it. So a layout of fixed widths can be read off
from the positions of its fields, and a list of items of one width is a list of blocks.

## Main definitions

* `Bytes.part`, `Bytes.blocks`: parts of some data, by their positions

## Main results

* `Bytes.flatten_blocks`: blocks are all of a part, in order
* `Read.Recognizes.reads_part`: a read at a position takes the part of the data there
* `Read.exceptRun_integer_part`, `Read.exceptRun_key_part`, `Read.exceptRun_bool_part`,
  `Read.exceptRun_times_key`: the reads of fixed width
-/

namespace LedgerClient

namespace Bytes

/-- The `count` bytes of some data from a position on. -/
def part (data : Bytes) (start count : Nat) : Bytes :=
  (data.drop start).take count

/-- `count` parts of some data from a position on, one after another, of `width` bytes each. -/
def blocks (data : Bytes) (start width count : Nat) : List Bytes :=
  (List.range count).map fun i => data.part (start + width * i) width

variable {data : Bytes} {start count width : Nat}

theorem length_part (h : start + count ≤ data.length) : (data.part start count).length = count := by
  rw [part, List.length_take, List.length_drop]
  omega

theorem part_append_drop (data : Bytes) (start count : Nat) :
    data.part start count ++ data.drop (start + count) = data.drop start := by
  rw [part, ← List.drop_drop, List.take_append_drop]

/-- Bytes that are added at the end do not change what stood before them. -/
theorem part_append (h : start + count ≤ data.length) (after : Bytes) :
    part (data ++ after) start count = data.part start count := by
  rw [part, part, List.drop_append_of_le_length (by omega),
    List.take_append_of_le_length (by rw [List.length_drop]; omega)]

@[simp] theorem length_blocks : (data.blocks start width count).length = count := by
  simp [blocks]

theorem blocks_succ (data : Bytes) (start width count : Nat) :
    data.blocks start width (count + 1) =
      data.part start width :: data.blocks (start + width) width count := by
  rw [blocks, blocks, List.range_succ_eq_map, List.map_cons, List.map_map]
  refine congrArg₂ _ rfl (List.map_congr_left fun i _ => ?_)
  rw [Function.comp_apply, Nat.mul_succ, Nat.add_comm (width * i), Nat.add_assoc]

/-- Blocks lie side by side. -/
theorem flatten_blocks (data : Bytes) (start width count : Nat) :
    (data.blocks start width count).flatten = data.part start (width * count) := by
  induction count generalizing start with
  | zero => rw [Nat.mul_zero, part, List.take_zero]; rfl
  | succ count ih =>
    rw [blocks_succ, List.flatten_cons, ih, Nat.mul_succ, Nat.add_comm (width * count)]
    unfold part
    rw [List.take_add, List.drop_drop]

/-- One more block behind the blocks of some data is one more block of what results. -/
theorem blocks_append {block : Bytes} (hdata : start + width * count = data.length)
    (hblock : block.length = width) :
    blocks (data ++ block) start width (count + 1) = data.blocks start width count ++ [block] := by
  rw [blocks, List.range_succ, List.map_append, blocks]
  refine congrArg₂ _ (List.map_congr_left fun i hi => part_append ?_ block) ?_
  · have hlast := Nat.mul_le_mul_left width (Nat.succ_le_of_lt (List.mem_range.mp hi))
    rw [Nat.mul_succ] at hlast
    omega
  · rw [List.map_singleton, hdata, part, List.drop_left' rfl, ← hblock, List.take_length]

end Bytes

/-! ## Reads at a position -/

namespace Read

variable {α β : Type} {read : Read α} {P : α → Bytes → Prop} {x : α} {data : Bytes}
  {start count : Nat}

theorem exceptRun_bind_of_ok {c c' : Cursor} (h : ExceptT.run read c = (.ok x, c'))
    (next : α → Read β) : ExceptT.run (read >>= next) c = ExceptT.run (next x) c' := by
  rw [Fault.exceptRun_bind, h]

theorem exceptRun_guard {p : Prop} [Decidable p] (fault : Fault) (next : Unit → Read α)
    (c : Cursor) :
    ExceptT.run (if p then throw fault >>= next else next ()) c =
      if p then (.error fault, c) else ExceptT.run (next ()) c := by
  split <;> rfl

/-- A read takes the part of the data at its position, if that spells something. -/
theorem Recognizes.reads_part (h : Recognizes read P) (hdata : start + count ≤ data.length)
    (hP : P x (data.part start count)) :
    ExceptT.run read ⟨data, start⟩ = (.ok x, ⟨data, (start + count : Nat)⟩) := by
  have hread := h.reads hP (data.take start) (data.drop (start + count))
  have hlen : (data.take start).length = start := List.length_take_of_le (by omega)
  rw [Bytes.part_append_drop, Cursor.between_append, Bytes.part_append_drop,
    Bytes.length_part hdata, List.take_append_drop, hlen] at hread
  rw [Cursor.between, List.take_append_drop, hlen] at hread
  exact hread

theorem exceptRun_integer_part {kind : IntKind} (hkind : kind.signed = false)
    (hdata : start + kind.width ≤ data.length) :
    ExceptT.run (integer kind) ⟨data, start⟩ =
      (.ok (Bytes.toNatLE (data.part start kind.width)),
        ⟨data, (start + kind.width : Nat)⟩) := by
  have hlen := Bytes.length_part hdata
  have hdecode : kind.decode (data.part start kind.width) =
      Bytes.toNatLE (data.part start kind.width) := by
    rw [IntKind.decode, hkind, List.take_of_length_le (Nat.le_of_eq hlen)]
    rfl
  rw [← hdecode]
  refine (inverts_integer kind).reads_part hdata ?_
  rw [Write.run_integer_eq_ok, IntKind.encode?_decode (Nat.le_of_eq hlen.symm),
    List.take_of_length_le (Nat.le_of_eq hlen)]

theorem exceptRun_key_part (kind : KeyKind) (hdata : start + kind.width ≤ data.length) :
    ExceptT.run (key kind) ⟨data, start⟩ =
      (.ok ⟨data.part start kind.width, Bytes.length_part hdata⟩,
        ⟨data, (start + kind.width : Nat)⟩) := by
  refine (inverts_key kind).reads_part hdata ?_
  rw [Write.run_key]

theorem exceptRun_bool_part {b : UInt8} (h : data[start]? = some b) :
    ExceptT.run bool ⟨data, start⟩ =
      if 1 < b.toNat then
        (.error (.codec (.boolByte b.toNat start)), ⟨data, (start + 1 : Nat)⟩)
      else (.ok (b == 1), ⟨data, (start + 1 : Nat)⟩) := by
  obtain ⟨hstart, rfl⟩ := List.getElem?_eq_some_iff.mp h
  have hpart : data.part start 1 = [data[start]] := by
    rw [Bytes.part, List.drop_eq_getElem_cons hstart]
    rfl
  have hbyte : ExceptT.run (integer .u8) ⟨data, start⟩ =
      (.ok data[start].toNat, ⟨data, (start + 1 : Nat)⟩) := by
    have hread : ExceptT.run (integer .u8) ⟨data, start⟩ = _ := exceptRun_integer_part rfl hstart
    rw [show IntKind.u8.width = 1 from rfl, hpart] at hread
    exact hread
  have hone : ((data[start].toNat : Int) == 1) = (data[start] == 1) := by
    rw [Bool.eq_iff_iff, beq_iff_eq, beq_iff_eq, ← UInt8.toNat_inj]
    change _ ↔ data[start].toNat = 1
    omega
  have hmore : (1 : Int) < data[start].toNat ↔ 1 < data[start].toNat := by omega
  rw [bool, exceptRun_bind_of_ok (exceptRun_get _), exceptRun_bind_of_ok hbyte, exceptRun_guard]
  simp only [hmore, hone]
  rfl

/-- Keys are the blocks behind a position. -/
theorem exceptRun_times_key (kind : KeyKind) (hdata : start + kind.width * count ≤ data.length) :
    ∃ keys : List (Key kind), keys.map Key.bytes = data.blocks start kind.width count ∧
      ExceptT.run (times (key kind) count) ⟨data, start⟩ =
        (.ok keys, ⟨data, (start + kind.width * count : Nat)⟩) := by
  induction count generalizing start with
  | zero => exact ⟨[], rfl, rfl⟩
  | succ count ih =>
    rw [Nat.mul_succ] at hdata
    have hkey : ExceptT.run (key kind) ⟨data, start⟩ = _ := exceptRun_key_part kind (by omega)
    have hrest : start + kind.width + kind.width * count ≤ data.length := by omega
    obtain ⟨keys, hbytes, hkeys⟩ := ih hrest
    refine ⟨⟨data.part start kind.width, Bytes.length_part (by omega)⟩ :: keys, ?_, ?_⟩
    · rw [List.map_cons, hbytes, Bytes.blocks_succ]
    · rw [times, exceptRun_bind_of_ok hkey, exceptRun_bind_of_ok hkeys, Nat.mul_succ,
        Nat.add_comm (kind.width * count), ← Nat.add_assoc]
      rfl

/-- Nothing is left at the end. -/
theorem exceptRun_ending_end (data : Bytes) :
    ExceptT.run ending ⟨data, data.length⟩ = (.ok (), ⟨data, data.length⟩) := by
  have hend : (⟨data, data.length⟩ : Cursor) = Cursor.between data [] := by
    rw [Cursor.between, List.append_nil]
  rw [hend, exceptRun_ending, if_pos rfl]

end Read

end LedgerClient
