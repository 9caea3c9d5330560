import LedgerClient.LookupTable
import LedgerClient.Proofs.Fault
import LedgerClient.Proofs.Wire.Parts

/-!
# What lookup table accounts decode to

A table account is read by a cursor: a header, field by field, and then addresses, as many as the
length of the data says. The length was taken apart by the size of the header, a constant, so the
addresses are right only if the header that the cursor has read ends at that constant.

The fields of a state are parts of the data at fixed positions, and the addresses are the blocks
behind the header. What follows data that was accepted can only be one more block.

## Main definitions

* `LookupTable.State.IsTable`: the data of table accounts
* `LookupTable.State.Describes`: the state holds the parts of the data

## Main results

* `LookupTable.State.ofBytes_eq_ok`: the states of account data
* `LookupTable.State.ofBytes_exact`: table accounts decode exactly
-/

namespace LedgerClient

open Fault (Confined IsCodec)

namespace LookupTable.State

/-- The data of table accounts: a header of 56 bytes, with the type in front and a byte that says
whether there is an authority, and blocks of 32 bytes. -/
structure IsTable (data : Bytes) : Prop where
  header : 56 ≤ data.length
  area : (data.length - 56) % 32 = 0
  type : Bytes.toNatLE (data.take 4) = 1
  flag : data[21]? = some 0 ∨ data[21]? = some 1

/-- The state holds the parts of the data: the slots, the start index, the authority if there is
one, and the blocks behind the header. -/
structure Describes (state : State) (data : Bytes) : Prop where
  deactivationSlot : state.deactivationSlot = Bytes.toNatLE (data.part 4 8)
  lastExtendedSlot : state.lastExtendedSlot = Bytes.toNatLE (data.part 12 8)
  startIndex : state.startIndex = Bytes.toNatLE (data.part 20 1)
  authority : state.authority.map Key.bytes =
    if data[21]? = some 1 then some (data.part 22 32) else none
  addresses : state.addresses.map Key.bytes = data.blocks 56 32 ((data.length - 56) / 32)

variable {data : Bytes} {state : State}

/-- The header is read at fixed positions, and the addresses start behind it. -/
theorem run_read {area : Nat} {flag : UInt8} (hdata : data.length = 56 + area)
    (hflag : data[21]? = some flag) :
    ∃ addresses : List PublicKey, addresses.map Key.bytes = data.blocks 56 32 (area / 32) ∧
      (State.read area).run data =
        if (Bytes.toNatLE (data.take 4) : Int) ≠ typeNumber then
          .error (.codec (.tableKind (Bytes.toNatLE (data.take 4))))
        else if 1 < flag.toNat then .error (.codec (.boolByte flag.toNat 21))
        else if area % 32 ≠ 0 then .error (.codec (.tableArea area))
        else .ok ⟨Bytes.toNatLE (data.part 4 8), Bytes.toNatLE (data.part 12 8),
          Bytes.toNatLE (data.part 20 1),
          if flag == 1 then some ⟨data.part 22 32, Bytes.length_part (by omega)⟩ else none,
          addresses⟩ := by
  have hfirst : 0 + IntKind.u32.width ≤ data.length := by
    change 0 + 4 ≤ _
    omega
  have htype : ExceptT.run (Read.integer .u32) (Cursor.start data) =
      (.ok (Bytes.toNatLE (data.take 4)), ⟨data, (4 : Nat)⟩) :=
    Read.exceptRun_integer_part rfl hfirst
  have hdeactivation : ExceptT.run (Read.integer .u64) ⟨data, (4 : Nat)⟩ =
      (.ok (Bytes.toNatLE (data.part 4 8)), ⟨data, (12 : Nat)⟩) :=
    Read.exceptRun_integer_part rfl (by change 4 + 8 ≤ _; omega)
  have hextension : ExceptT.run (Read.integer .u64) ⟨data, (12 : Nat)⟩ =
      (.ok (Bytes.toNatLE (data.part 12 8)), ⟨data, (20 : Nat)⟩) :=
    Read.exceptRun_integer_part rfl (by change 12 + 8 ≤ _; omega)
  have hindex : ExceptT.run (Read.integer .u8) ⟨data, (20 : Nat)⟩ =
      (.ok (Bytes.toNatLE (data.part 20 1)), ⟨data, (21 : Nat)⟩) :=
    Read.exceptRun_integer_part rfl (by change 20 + 1 ≤ _; omega)
  have hauthority : ExceptT.run (Read.key .publicKey) ⟨data, (22 : Nat)⟩ =
      (.ok ⟨data.part 22 32, Bytes.length_part (by omega)⟩, ⟨data, (54 : Nat)⟩) :=
    Read.exceptRun_key_part .publicKey (by change 22 + 32 ≤ _; omega)
  have hpadding : ExceptT.run (Read.integer .u16) ⟨data, (54 : Nat)⟩ =
      (.ok (Bytes.toNatLE (data.part 54 2)), ⟨data, (56 : Nat)⟩) :=
    Read.exceptRun_integer_part rfl (by change 54 + 2 ≤ _; omega)
  have hbody : 56 + KeyKind.publicKey.width * (area / 32) ≤ data.length := by
    change 56 + 32 * (area / 32) ≤ _
    omega
  obtain ⟨addresses, hbytes, haddresses⟩ := Read.exceptRun_times_key .publicKey hbody
  refine ⟨addresses, hbytes, ?_⟩
  -- Each read ends where the next one starts; the checks stand between them.
  rw [Read.run, State.read, Read.exceptRun_bind_of_ok htype, Read.exceptRun_guard]
  by_cases hkind : (Bytes.toNatLE (data.take 4) : Int) ≠ typeNumber
  · rw [if_pos hkind, if_pos hkind]
  rw [if_neg hkind, if_neg hkind, Read.exceptRun_bind_of_ok hdeactivation,
    Read.exceptRun_bind_of_ok hextension, Read.exceptRun_bind_of_ok hindex, Fault.exceptRun_bind,
    Read.exceptRun_bool_part hflag]
  by_cases hbool : 1 < flag.toNat
  · rw [if_pos hbool, if_pos hbool]
    rfl
  rw [if_neg hbool, if_neg hbool]
  dsimp only
  rw [Read.exceptRun_bind_of_ok hauthority, Read.exceptRun_bind_of_ok hpadding,
    Read.exceptRun_guard]
  by_cases harea : area % 32 ≠ 0
  · rw [if_pos harea, if_pos harea]
  -- The addresses end where the data ends, since the header was as long as its constant says.
  have hend : 56 + KeyKind.publicKey.width * (area / 32) = data.length := by
    change 56 + 32 * (area / 32) = _
    omega
  rw [if_neg harea, if_neg harea, Read.exceptRun_bind_of_ok haddresses, hend,
    Read.exceptRun_bind_of_ok (Read.exceptRun_ending_end data)]
  rfl

/-- Account data is that of a table, and decodes to a state that holds its parts, or else it is
refused by the codec, but not for bytes behind the addresses. -/
theorem ofBytes_cases (data : Bytes) :
    (IsTable data ∧ ∃ state, ofBytes data = .ok state ∧ Describes state data) ∨
      (¬IsTable data ∧ ∃ cause, ofBytes data = .error (.codec cause) ∧
        ∀ count offset, cause ≠ .trailingData count offset) := by
  unfold ofBytes
  by_cases hshort : data.length < headerSize
  · rw [if_pos hshort]
    exact .inr ⟨fun h => absurd h.header (Nat.not_le_of_lt hshort), _, rfl, nofun⟩
  rw [if_neg hshort]
  have hlong : 56 ≤ data.length := Nat.le_of_not_lt hshort
  obtain ⟨flag, hflag⟩ : ∃ flag, data[21]? = some flag :=
    ⟨_, List.getElem?_eq_getElem (Nat.lt_of_lt_of_le (by decide) hlong)⟩
  have hlen : data.length = 56 + (data.length - headerSize) := (Nat.add_sub_of_le hlong).symm
  obtain ⟨addresses, hbytes, hrun⟩ := run_read hlen hflag
  rw [hrun]
  by_cases hkind : (Bytes.toNatLE (data.take 4) : Int) ≠ typeNumber
  · rw [if_pos hkind]
    exact .inr ⟨fun h => hkind (congrArg Nat.cast h.type), _, rfl, nofun⟩
  rw [if_neg hkind]
  by_cases hbool : 1 < flag.toNat
  · rw [if_pos hbool]
    refine .inr ⟨fun h => ?_, _, rfl, nofun⟩
    rcases h.flag with hbyte | hbyte
    all_goals
      rw [hflag] at hbyte
      cases hbyte
      exact absurd hbool (by decide)
  rw [if_neg hbool]
  by_cases harea : (data.length - headerSize) % 32 ≠ 0
  · rw [if_pos harea]
    exact .inr ⟨fun h => harea h.area, _, rfl, nofun⟩
  rw [if_neg harea]
  refine .inl ⟨⟨hlong, Decidable.not_not.mp harea, ?_, ?_⟩, _, rfl, rfl, rfl, rfl, ?_, hbytes⟩
  · exact Int.ofNat.inj (Decidable.not_not.mp hkind)
  · obtain hzero | hone : flag = 0 ∨ flag = 1 := by
      rw [← UInt8.toNat_inj, ← UInt8.toNat_inj]
      change flag.toNat = 0 ∨ flag.toNat = 1
      omega
    · exact .inl (hzero ▸ hflag)
    · exact .inr (hone ▸ hflag)
  · rw [hflag]
    by_cases hone : flag = 1
    · rw [if_pos (beq_iff_eq.mpr hone), if_pos (congrArg some hone)]
      rfl
    · rw [if_neg (mt beq_iff_eq.mp hone), if_neg (mt Option.some.inj hone)]
      rfl

/-- The parts of the data are all that a state holds. -/
theorem Describes.unique {state' : State} (h : Describes state data) (h' : Describes state' data) :
    state = state' := by
  have hbytes : Function.Injective (Key.bytes : PublicKey → Bytes) := fun _ _ => Key.ext
  obtain ⟨deactivationSlot, lastExtendedSlot, startIndex, authority, addresses⟩ := state
  obtain ⟨deactivationSlot', lastExtendedSlot', startIndex', authority', addresses'⟩ := state'
  obtain rfl : authority = authority' :=
    Option.map_injective hbytes (h.authority.trans h'.authority.symm)
  obtain rfl : addresses = addresses' :=
    List.map_injective_iff.mpr hbytes (h.addresses.trans h'.addresses.symm)
  rw [State.mk.injEq]
  exact ⟨h.deactivationSlot.trans h'.deactivationSlot.symm,
    h.lastExtendedSlot.trans h'.lastExtendedSlot.symm, h.startIndex.trans h'.startIndex.symm,
    rfl, rfl⟩

/-- **The states of account data** are those that hold the parts of a table's data. -/
theorem ofBytes_eq_ok : ofBytes data = .ok state ↔ IsTable data ∧ Describes state data := by
  rcases ofBytes_cases data with ⟨htable, state', hok, hdescribes⟩ | ⟨htable, cause, herror, -⟩
  · rw [hok, Except.ok.injEq]
    constructor
    · rintro rfl
      exact ⟨htable, hdescribes⟩
    · rintro ⟨-, hdescribes'⟩
      exact hdescribes.unique hdescribes'
  · rw [herror]
    exact ⟨nofun, fun h => absurd h.1 htable⟩

/-- One more block behind a table's data makes a table with one more address. -/
theorem Describes.append (htable : IsTable data) (h : Describes state data)
    (address : PublicKey) : IsTable (data ++ address.bytes) ∧
      Describes { state with addresses := state.addresses ++ [address] }
        (data ++ address.bytes) := by
  have hheader := htable.header
  have harea := htable.area
  have hlen : (data ++ address.bytes).length = data.length + 32 := by
    rw [List.length_append, address.length_eq]
    rfl
  have hflag : (data ++ address.bytes)[21]? = data[21]? :=
    List.getElem?_append_left (by omega)
  refine ⟨⟨by omega, by omega, ?_, ?_⟩, ⟨?_, ?_, ?_, ?_, ?_⟩⟩
  · rw [List.take_append_of_le_length (by omega), htable.type]
  · rw [hflag]
    exact htable.flag
  · rw [Bytes.part_append (by omega)]
    exact h.deactivationSlot
  · rw [Bytes.part_append (by omega)]
    exact h.lastExtendedSlot
  · rw [Bytes.part_append (by omega)]
    exact h.startIndex
  · rw [Bytes.part_append (by omega), hflag]
    exact h.authority
  · have hcount : (data ++ address.bytes).length - 56 = 32 * ((data.length - 56) / 32 + 1) := by
      omega
    have hblocks : Bytes.blocks (data ++ address.bytes) 56 32 ((data.length - 56) / 32 + 1) = _ :=
      Bytes.blocks_append (by omega) address.length_eq
    rw [List.map_append, h.addresses, hcount, Nat.mul_div_cancel_left _ (by decide), hblocks]
    rfl

/-- What an accepted table holds, and that it can grow. -/
theorem Describes.addresses_exact (htable : IsTable data) (h : Describes state data) :
    state.addresses.length = (data.length - 56) / 32 ∧
      (state.addresses.map Key.bytes).flatten = data.drop 56 ∧
      ∀ block, block.length = 32 → ∃ address : PublicKey, address.bytes = block ∧
        ofBytes (data ++ block) = .ok { state with addresses := state.addresses ++ [address] } := by
  refine ⟨?_, ?_, ?_⟩
  · rw [← List.length_map Key.bytes, h.addresses, Bytes.length_blocks]
  · have hheader := htable.header
    have harea := htable.area
    rw [h.addresses, Bytes.flatten_blocks, Bytes.part, List.take_of_length_le]
    rw [List.length_drop]
    omega
  · intro block hblock
    exact ⟨⟨block, hblock⟩, rfl, ofBytes_eq_ok.mpr (h.append htable ⟨block, hblock⟩)⟩

/-- **Table accounts decode exactly.** Account data decodes just when it is that of a table, and is
refused by the codec otherwise, but never because bytes are left behind the addresses. The state
holds the parts of the data at their positions, and its addresses are all that is behind the
header, block by block. One more block at the end is one more address, and nothing else changes. -/
theorem ofBytes_exact (data : Bytes) :
    ((∃ state, ofBytes data = .ok state) ↔ IsTable data) ∧
    Confined IsCodec (ofBytes data) ∧
    (∀ count offset, ofBytes data ≠ .error (.codec (.trailingData count offset))) ∧
    ∀ state, ofBytes data = .ok state →
      Describes state data ∧
      state.addresses.length = (data.length - 56) / 32 ∧
      (state.addresses.map Key.bytes).flatten = data.drop 56 ∧
      ∀ block, block.length = 32 → ∃ address : PublicKey, address.bytes = block ∧
        ofBytes (data ++ block) = .ok { state with addresses := state.addresses ++ [address] } := by
  rcases ofBytes_cases data with ⟨htable, state, hok, hdescribes⟩ | ⟨htable, cause, herror, hcause⟩
  · rw [hok]
    refine ⟨iff_of_true ⟨state, rfl⟩ htable, Confined.ok state, ?_, ?_⟩
    · intro count offset htrailing
      cases htrailing
    · intro state' hstate
      cases hstate
      exact ⟨hdescribes, hdescribes.addresses_exact htable⟩
  · rw [herror]
    refine ⟨iff_of_false ?_ htable, Confined.error ⟨cause, rfl⟩, ?_, ?_⟩
    · rintro ⟨state, hstate⟩
      cases hstate
    · intro count offset htrailing
      cases htrailing
      exact hcause count offset rfl
    · intro state hstate
      cases hstate

/-- A table with an authority of sevens and one address of nines, and a second address of eights
behind it. -/
theorem ofBytes_exact_two_addresses :
    let header : Bytes := [1, 0, 0, 0] ++ Bytes.zeros 17 ++ [1] ++ List.replicate 32 7 ++ [0, 0]
    ∃ state nines eights, ofBytes (header ++ List.replicate 32 9) = .ok state ∧
      state.authority.map Key.bytes = some (List.replicate 32 7) ∧
      state.addresses = [nines] ∧ nines.bytes = List.replicate 32 9 ∧
      eights.bytes = List.replicate 32 8 ∧
      ofBytes (header ++ List.replicate 32 9 ++ List.replicate 32 8) =
        .ok { state with addresses := [nines, eights] } := by
  intro header
  obtain ⟨hiff, -, -, hstate⟩ := ofBytes_exact (header ++ List.replicate 32 9)
  obtain ⟨state, hok⟩ := hiff.mpr ⟨by decide, by decide, by decide, by decide⟩
  obtain ⟨hdescribes, -, -, happend⟩ := hstate state hok
  obtain ⟨eights, heights, hmore⟩ := happend (List.replicate 32 8) rfl
  have haddresses : state.addresses.map Key.bytes = [List.replicate 32 9] :=
    hdescribes.addresses.trans (by decide)
  obtain ⟨nines, hnines, hbytes⟩ := List.map_eq_singleton_iff.mp haddresses
  rw [hnines] at hmore
  exact ⟨state, nines, eights, hok, hdescribes.authority, hnines, hbytes, heights, hmore⟩

end LookupTable.State

end LedgerClient
