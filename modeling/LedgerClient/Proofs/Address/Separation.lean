import LedgerClient.Hash.Sha256
import LedgerClient.Proofs.Address.Search
import LedgerClient.Proofs.Fault

/-!
# Two kinds of addresses

The bytes that are hashed for seeds and a program end in the marker. The bytes that are hashed for
a base key, a text and an owner end in the owner, who is longer than the marker, so they end in the
marker just when the owner does. Such an owner is refused, and no other alignment of the parts has
to be looked at: bytes of one kind are never bytes of the other.

## Main results

* `Address.withSeed_eq_ok`: the address of a base key, a text and an owner
* `Address.marker_suffix_seededPreimage`: which bytes end in the marker
* `Address.preimages_disjoint`: the two kinds of addresses hash different bytes
-/

namespace LedgerClient.Address

variable {hash : Bytes → Hash} {base owner program address : PublicKey} {seed : String}
  {seeds : List Bytes} {bump : Nat}

theorem length_marker : marker.length = 21 := by
  decide

/-- Marked owners and long texts are refused; the others have the digest as their address. -/
theorem withSeed_eq_ok : withSeed hash base seed owner = .ok address ↔
    (Utf8.encode seed).length ≤ maxSeedWidth ∧ ¬ marker <:+ owner.bytes ∧
      address.bytes = (hash (seededPreimage base seed owner)).bytes := by
  unfold withSeed
  simp only [Fault.guard_eq_ok, Nat.not_lt, List.isSuffixOf_iff_suffix]
  refine and_congr_right fun _ => and_congr_right fun _ => ?_
  change Except.ok _ = Except.ok address ↔ _
  rw [Except.ok.injEq, Key.ext_iff, eq_comm]

/-- The bytes that are hashed for seeds and a program end in the marker. -/
theorem marker_suffix_preimage (seeds : List Bytes) (program : PublicKey) :
    marker <:+ preimage seeds program :=
  List.suffix_append _ _

/-- The bytes that are hashed for an owner end in the marker just when the owner does. -/
theorem marker_suffix_seededPreimage :
    marker <:+ seededPreimage base seed owner ↔ marker <:+ owner.bytes := by
  have howner : owner.bytes <:+ seededPreimage base seed owner := List.suffix_append _ _
  refine ⟨fun h => List.suffix_of_suffix_length_le h howner ?_, fun h => h.trans howner⟩
  rw [length_marker, owner.length_eq]
  decide

/-- An owner that is not marked shares no bytes with seeds and a program. -/
theorem preimage_ne (h : ¬ marker <:+ owner.bytes) (seeds : List Bytes) (program : PublicKey) :
    preimage seeds program ≠ seededPreimage base seed owner := by
  intro heq
  have hmarker := marker_suffix_preimage seeds program
  rw [heq, marker_suffix_seededPreimage] at hmarker
  exact h hmarker

/-- **The two kinds of addresses hash different bytes.** Whatever seeds and program give an
address, or are tried by a search, their bytes are not those of an accepted base key, text and
owner. So an address that comes about both ways is a collision of the hash. -/
theorem preimages_disjoint (h : withSeed hash base seed owner = .ok address) :
    address.bytes = (hash (seededPreimage base seed owner)).bytes ∧
    (∀ seeds program other, create hash seeds program = .ok other →
      other.bytes = (hash (preimage seeds program)).bytes ∧
      preimage seeds program ≠ seededPreimage base seed owner ∧
      (other = address →
        hash (preimage seeds program) = hash (seededPreimage base seed owner))) ∧
    (∀ seeds program, checkSeeds seeds (maxSeeds - 1) = .ok () → ∀ bump ≤ 255,
      preimage (seeds ++ [[UInt8.ofNat bump]]) program ≠ seededPreimage base seed owner) ∧
    ∀ seeds program bump, find hash seeds program = .ok (address, bump) →
      preimage (seeds ++ [[UInt8.ofNat bump]]) program ≠ seededPreimage base seed owner ∧
      hash (preimage (seeds ++ [[UInt8.ofNat bump]]) program) =
        hash (seededPreimage base seed owner) := by
  obtain ⟨-, hunmarked, hbytes⟩ := withSeed_eq_ok.mp h
  have hcollision {seeds : List Bytes} {program : PublicKey}
      (hcreate : address = digest hash seeds program) :
      hash (preimage seeds program) = hash (seededPreimage base seed owner) :=
    Key.ext ((congrArg Key.bytes hcreate).symm.trans hbytes)
  refine ⟨hbytes, fun seeds program other hother => ?_,
    fun seeds program _ bump _ => preimage_ne hunmarked _ program,
    fun seeds program bump hfind => ?_⟩
  · obtain ⟨-, rfl, -⟩ := create_eq_ok.mp hother
    exact ⟨rfl, preimage_ne hunmarked seeds program, fun heq => hcollision heq.symm⟩
  · obtain ⟨-, hcandidate, -⟩ := find_eq_ok.mp hfind
    exact ⟨preimage_ne hunmarked _ program, hcollision hcandidate⟩

/-- An owner is accepted in whom a byte follows the marker, and shares no bytes with itself as a
program behind the base key and the text. -/
theorem preimages_disjoint_marker_inside :
    let owner : PublicKey := .ofRightmost .publicKey (marker ++ [0])
    let base : PublicKey := .zero .publicKey
    ∃ address, withSeed Sha256.hash base "vault" owner = .ok address ∧
      preimage ([base.bytes, Utf8.encode "vault"] ++ [[UInt8.ofNat 255]]) owner ≠
        seededPreimage base "vault" owner := by
  intro owner base
  let hashed := Sha256.hash (seededPreimage base "vault" owner)
  have haccepted : withSeed Sha256.hash base "vault" owner = .ok ⟨hashed.bytes, hashed.length_eq⟩ :=
    withSeed_eq_ok.mpr ⟨by decide, by decide, rfl⟩
  have hseeds : checkSeeds [base.bytes, Utf8.encode "vault"] (maxSeeds - 1) = .ok () := rfl
  exact ⟨_, haccepted, (preimages_disjoint haccepted).2.2.1 _ owner hseeds 255 (by decide)⟩

end LedgerClient.Address
