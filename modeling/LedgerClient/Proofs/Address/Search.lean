import LedgerClient.Address.Derived
import LedgerClient.Proofs.Curve.Membership

/-!
# The search for an address off the curve

Seeds are refused for their number or their widths alone. The search checks them for one more seed
than it is given, so each attempt at an address passes the same check again, and as the curve test
never fails, an attempt ends in one of two ways: the digest is off the curve, and the search ends
with it, or it is on the curve, and the search goes on with the next byte. What it ends with is so
the greatest byte that serves.

## Main definitions

* `Address.Admissible`: seeds that are not refused
* `Address.digest`: the digest of seeds and a program as an address

## Main results

* `Address.checkSeeds_eq_ok`, `Address.checkSeeds_eq_error`: when seeds are refused, and for what
* `Address.create_eq_ok`, `Address.create_of_admissible`: the address of seeds and a program
* `Address.search_cases`: how a search ends
* `Address.find_eq_ok`, `Address.find_eq_invalid`, `Address.find_eq_crypto`: what comes of it, and
  when
* `Address.find_greatest`: the search finds the greatest byte that serves
-/

namespace LedgerClient.Address

variable {hash : Bytes → Hash} {seeds : List Bytes} {program address : PublicKey}
  {index limit bump : Nat} {fault : Fault}

/-! ## Seeds -/

section Seeds

/-- There are not too many seeds, and none is too long. -/
structure Admissible (limit : Nat) (seeds : List Bytes) : Prop where
  count : seeds.length ≤ limit
  widths : ∀ seed ∈ seeds, seed.length ≤ maxSeedWidth

theorem admissible_iff : Admissible limit seeds ↔
    seeds.length ≤ limit ∧ ∀ seed ∈ seeds, seed.length ≤ maxSeedWidth :=
  ⟨fun h => ⟨h.count, h.widths⟩, fun h => ⟨h.1, h.2⟩⟩

theorem not_admissible_iff : ¬ Admissible limit seeds ↔
    limit < seeds.length ∨ ∃ seed ∈ seeds, maxSeedWidth < seed.length := by
  rw [admissible_iff, not_and_or, Nat.not_le]
  simp only [not_forall, Nat.not_le, exists_prop]

theorem longSeed?_eq_none :
    longSeed? index seeds = none ↔ ∀ seed ∈ seeds, seed.length ≤ maxSeedWidth := by
  induction seeds generalizing index with
  | nil => exact iff_of_true rfl fun _ h => absurd h List.not_mem_nil
  | cons seed seeds ih =>
    rw [longSeed?, List.forall_mem_cons]
    split
    · next hlong => exact iff_of_false nofun fun h => absurd hlong (Nat.not_lt.mpr h.1)
    · next hshort => rw [ih, and_iff_right (by omega)]

/-- The first seed that is too long stands behind seeds that are not. -/
theorem longSeed?_eq_some {place : Nat} {long : Bytes} :
    longSeed? index seeds = some (place, long) ↔ ∃ before behind, seeds = before ++ long :: behind ∧
      place = index + before.length ∧ maxSeedWidth < long.length ∧
      ∀ seed ∈ before, seed.length ≤ maxSeedWidth := by
  induction seeds generalizing index with
  | nil => exact iff_of_false nofun fun ⟨_, _, h, _⟩ => absurd h (by simp)
  | cons seed seeds ih =>
    rw [longSeed?]
    split
    · next hlong =>
      rw [Option.some.injEq, Prod.mk.injEq]
      constructor
      · rintro ⟨rfl, rfl⟩
        exact ⟨[], seeds, rfl, rfl, hlong, nofun⟩
      · rintro ⟨before, behind, hsplit, hplace, -, hbefore⟩
        cases before with
        | nil =>
          cases hsplit
          exact ⟨hplace.symm, rfl⟩
        | cons first before =>
          cases hsplit
          exact absurd hlong (Nat.not_lt.mpr (hbefore seed List.mem_cons_self))
    · next hshort =>
      rw [ih]
      constructor
      · rintro ⟨before, behind, rfl, rfl, hlong, hbefore⟩
        refine ⟨seed :: before, behind, rfl, ?_, hlong, ?_⟩
        · rw [List.length_cons]
          omega
        · exact List.forall_mem_cons.mpr ⟨by omega, hbefore⟩
      · rintro ⟨before, behind, hsplit, hplace, hlong, hbefore⟩
        cases before with
        | nil =>
          cases hsplit
          exact absurd hlong hshort
        | cons first before =>
          cases hsplit
          rw [List.length_cons] at hplace
          exact ⟨before, behind, rfl, by omega, hlong, (List.forall_mem_cons.mp hbefore).2⟩

theorem checkSeeds_eq_ok : checkSeeds seeds limit = .ok () ↔ Admissible limit seeds := by
  rw [checkSeeds]
  split
  · next hmany => exact iff_of_false nofun fun h => absurd h.count (by omega)
  · next hfew =>
    cases hlong : longSeed? 0 seeds with
    | none =>
      exact iff_of_true rfl ⟨by omega, longSeed?_eq_none.mp hlong⟩
    | some found =>
      refine iff_of_false nofun fun h => ?_
      rw [longSeed?_eq_none.mpr h.widths] at hlong
      cases hlong

/-- Too many seeds are refused for their number, and others for the first seed that is too long. -/
theorem checkSeeds_eq_error : checkSeeds seeds limit = .error fault ↔
    (limit < seeds.length ∧ fault = .invalid (.tooManySeeds seeds.length limit)) ∨
      (seeds.length ≤ limit ∧ ∃ before long behind, seeds = before ++ long :: behind ∧
        maxSeedWidth < long.length ∧ (∀ seed ∈ before, seed.length ≤ maxSeedWidth) ∧
        fault = .invalid (.seedWidth before.length long.length)) := by
  rw [checkSeeds]
  split
  · next hmany =>
    rw [Except.error.injEq, and_iff_right hmany, eq_comm]
    exact (or_iff_left fun h => absurd h.1 (by omega)).symm
  · next hfew =>
    rw [or_iff_right fun h => hfew h.1, and_iff_right (by omega)]
    cases hlong : longSeed? 0 seeds with
    | none =>
      refine iff_of_false nofun ?_
      rintro ⟨before, long, behind, rfl, hwide, -, -⟩
      exact absurd (longSeed?_eq_none.mp hlong long (by simp)) (by omega)
    | some found =>
      obtain ⟨place, long⟩ := found
      rw [Except.error.injEq]
      constructor
      · rintro rfl
        obtain ⟨before, behind, hsplit, hplace, hwide, hbefore⟩ := longSeed?_eq_some.mp hlong
        rw [Nat.zero_add] at hplace
        exact ⟨before, long, behind, hsplit, hwide, hbefore, by rw [hplace]⟩
      · rintro ⟨before, other, behind, hsplit, hwide, hbefore, rfl⟩
        have hfound : longSeed? 0 seeds = some (before.length, other) :=
          longSeed?_eq_some.mpr ⟨before, behind, hsplit, (Nat.zero_add _).symm, hwide, hbefore⟩
        cases hlong.symm.trans hfound
        rfl

/-- A byte may follow seeds that leave a place for it. -/
theorem Admissible.concat (h : Admissible (maxSeeds - 1) seeds) (b : UInt8) :
    Admissible maxSeeds (seeds ++ [[b]]) where
  count := by
    rw [List.length_append, List.length_singleton]
    exact Nat.add_le_of_le_sub (by decide) h.count
  widths := by
    rw [List.forall_mem_append, List.forall_mem_singleton]
    exact ⟨h.widths, Nat.le_of_ble_eq_true rfl⟩

end Seeds

/-! ## One attempt -/

section Attempt

/-- The digest of seeds and a program as an address. -/
def digest (hash : Bytes → Hash) (seeds : List Bytes) (program : PublicKey) : PublicKey :=
  ⟨(hash (preimage seeds program)).bytes, (hash (preimage seeds program)).length_eq⟩

/-- An attempt with admissible seeds fails only for a digest on the curve. -/
theorem create_of_admissible (h : Admissible maxSeeds seeds) :
    create hash seeds program =
      if Curve.isOnCurve (digest hash seeds program).bytes then .error .onCurve
      else .ok (digest hash seeds program) := by
  rw [create, checkSeeds_eq_ok.mpr h]
  change (Curve.membership (digest hash seeds program).bytes >>= _) = _
  rw [Curve.membership_eq]
  cases Curve.isOnCurve (digest hash seeds program).bytes with
  | true => rfl
  | false => rfl

/-- Whatever refuses the seeds is what an attempt fails with. -/
theorem create_of_refused (h : checkSeeds seeds maxSeeds = .error fault) :
    create hash seeds program = .error fault := by
  rw [create, h]
  rfl

theorem create_eq_ok : create hash seeds program = .ok address ↔ Admissible maxSeeds seeds ∧
    address = digest hash seeds program ∧ Curve.isOnCurve address.bytes = false := by
  cases hcheck : checkSeeds seeds maxSeeds with
  | error fault =>
    rw [create_of_refused hcheck]
    refine iff_of_false nofun fun h => ?_
    cases hcheck.symm.trans (checkSeeds_eq_ok.mpr h.1)
  | ok _ =>
    have hadmissible := checkSeeds_eq_ok.mp hcheck
    rw [create_of_admissible hadmissible, and_iff_right hadmissible]
    split
    · next hon =>
      refine iff_of_false nofun ?_
      rintro ⟨rfl, hoff⟩
      cases hon.symm.trans hoff
    · next hoff =>
      rw [Except.ok.injEq, eq_comm]
      refine (and_iff_left_of_imp ?_).symm
      rintro rfl
      exact Bool.not_eq_true _ ▸ hoff

end Attempt

/-! ## The search -/

section Search

/-- The digest of seeds, a last byte and a program as an address. -/
def candidate (hash : Bytes → Hash) (seeds : List Bytes) (program : PublicKey) (bump : Nat) :
    PublicKey :=
  digest hash (seeds ++ [[UInt8.ofNat bump]]) program

/-- The digest with a last byte is on the curve. -/
def Occupied (hash : Bytes → Hash) (seeds : List Bytes) (program : PublicKey) (bump : Nat) : Prop :=
  Curve.isOnCurve (candidate hash seeds program bump).bytes = true

theorem create_of_occupied (h : Admissible (maxSeeds - 1) seeds)
    (hon : Occupied hash seeds program bump) :
    create hash (seeds ++ [[UInt8.ofNat bump]]) program = .error .onCurve := by
  rw [create_of_admissible (h.concat _)]
  exact if_pos hon

theorem create_of_not_occupied (h : Admissible (maxSeeds - 1) seeds)
    (hoff : ¬ Occupied hash seeds program bump) :
    create hash (seeds ++ [[UInt8.ofNat bump]]) program =
      .ok (candidate hash seeds program bump) := by
  rw [create_of_admissible (h.concat _)]
  exact if_neg hoff

/-- A search ends with the greatest byte whose digest is off the curve, or finds none. -/
theorem search_cases (h : Admissible (maxSeeds - 1) seeds) (bumps : Nat) :
    (∃ bump < bumps,
      search hash seeds program bumps = .ok (candidate hash seeds program bump, bump) ∧
        ¬ Occupied hash seeds program bump ∧
        ∀ c, bump < c → c < bumps → Occupied hash seeds program c) ∨
    (search hash seeds program bumps = .error (.crypto .noBump) ∧
      ∀ c < bumps, Occupied hash seeds program c) := by
  induction bumps with
  | zero => exact .inr ⟨rfl, fun c hc => absurd hc (Nat.not_lt_zero c)⟩
  | succ bumps ih =>
    by_cases hon : Occupied hash seeds program bumps
    · have hnext : search hash seeds program (bumps + 1) = search hash seeds program bumps := by
        rw [search, create_of_occupied h hon]
      rw [hnext]
      rcases ih with ⟨bump, hlt, hfound, hoff, hgreatest⟩ | ⟨hnone, hall⟩
      · refine .inl ⟨bump, hlt.trans (Nat.lt_succ_self _), hfound, hoff, fun c hc hle => ?_⟩
        rcases Nat.lt_succ_iff_lt_or_eq.mp hle with hlt' | rfl
        · exact hgreatest c hc hlt'
        · exact hon
      · refine .inr ⟨hnone, fun c hle => ?_⟩
        rcases Nat.lt_succ_iff_lt_or_eq.mp hle with hlt' | rfl
        · exact hall c hlt'
        · exact hon
    · refine .inl ⟨bumps, Nat.lt_succ_self _, ?_, hon, fun c hc hle => absurd hle (by omega)⟩
      rw [search, create_of_not_occupied h hon]

/-- The search refuses the seeds, ends with the greatest byte that serves, or finds none. -/
theorem find_cases (hash : Bytes → Hash) (seeds : List Bytes) (program : PublicKey) :
    (¬ Admissible (maxSeeds - 1) seeds ∧
      ∃ cause, find hash seeds program = .error (.invalid cause)) ∨
    (Admissible (maxSeeds - 1) seeds ∧ ∃ bump ≤ 255,
      find hash seeds program = .ok (candidate hash seeds program bump, bump) ∧
        ¬ Occupied hash seeds program bump ∧
        ∀ c, bump < c → c ≤ 255 → Occupied hash seeds program c) ∨
    (Admissible (maxSeeds - 1) seeds ∧ find hash seeds program = .error (.crypto .noBump) ∧
      ∀ c ≤ 255, Occupied hash seeds program c) := by
  cases hcheck : checkSeeds seeds (maxSeeds - 1) with
  | error fault =>
    have hfind : find hash seeds program = .error fault := by
      rw [find, hcheck]
      rfl
    refine .inl ⟨fun h => ?_, ?_⟩
    · cases hcheck.symm.trans (checkSeeds_eq_ok.mpr h)
    · rw [hfind]
      rcases checkSeeds_eq_error.mp hcheck with ⟨-, rfl⟩ | ⟨-, _, _, _, -, -, -, rfl⟩
      · exact ⟨_, rfl⟩
      · exact ⟨_, rfl⟩
  | ok _ =>
    have h := checkSeeds_eq_ok.mp hcheck
    have hfind : find hash seeds program = search hash seeds program 256 := by
      rw [find, hcheck]
      rfl
    rw [hfind]
    rcases search_cases h 256 with ⟨bump, hlt, hfound, hoff, hgreatest⟩ | ⟨hnone, hall⟩
    · exact .inr (.inl ⟨h, bump, by omega, hfound, hoff,
        fun c hc hle => hgreatest c hc (by omega)⟩)
    · exact .inr (.inr ⟨h, hnone, fun c hle => hall c (by omega)⟩)

/-- The seeds are refused just when they are not admissible. -/
theorem find_eq_invalid : (∃ cause, find hash seeds program = .error (.invalid cause)) ↔
    ¬ Admissible (maxSeeds - 1) seeds := by
  rcases find_cases hash seeds program with
    ⟨hrefused, hfind⟩ | ⟨h, bump, -, hfind, -⟩ | ⟨h, hfind, -⟩
  · exact iff_of_true hfind hrefused
  · rw [hfind]
    exact iff_of_false nofun fun hrefused => hrefused h
  · rw [hfind]
    exact iff_of_false nofun fun hrefused => hrefused h

/-- What the search ends with is the greatest byte that serves, and its digest. -/
theorem find_eq_ok : find hash seeds program = .ok (address, bump) ↔
    Admissible (maxSeeds - 1) seeds ∧ address = candidate hash seeds program bump ∧
      IsGreatest {b | b ≤ 255 ∧ ¬ Occupied hash seeds program b} bump := by
  rcases find_cases hash seeds program with
    ⟨hrefused, cause, hfind⟩ | ⟨h, greatest, hle, hfind, hserves, habove⟩ | ⟨h, hfind, hall⟩
  · rw [hfind]
    exact iff_of_false nofun fun hfound => hrefused hfound.1
  · have hgreatest : IsGreatest {b | b ≤ 255 ∧ ¬ Occupied hash seeds program b} greatest :=
      ⟨⟨hle, hserves⟩, fun b hb => Nat.le_of_not_lt fun hlt => hb.2 (habove b hlt hb.1)⟩
    rw [hfind, Except.ok.injEq, Prod.mk.injEq, and_iff_right h]
    constructor
    · rintro ⟨rfl, rfl⟩
      exact ⟨rfl, hgreatest⟩
    · -- There is only one greatest byte, so no other address can be what is found.
      rintro ⟨rfl, hbump⟩
      obtain rfl : bump = greatest := hbump.unique hgreatest
      exact ⟨rfl, rfl⟩
  · rw [hfind]
    refine iff_of_false nofun ?_
    rintro ⟨-, -, ⟨hle, hserves⟩, -⟩
    exact hserves (hall bump hle)

/-- The search finds none just when all digests are on the curve. -/
theorem find_eq_crypto : (∃ cause, find hash seeds program = .error (.crypto cause)) ↔
    Admissible (maxSeeds - 1) seeds ∧ ∀ b ≤ 255, Occupied hash seeds program b := by
  rcases find_cases hash seeds program with
    ⟨hrefused, cause, hfind⟩ | ⟨h, greatest, hle, hfind, hserves, -⟩ | ⟨h, hfind, hall⟩
  · rw [hfind]
    exact iff_of_false nofun fun hnone => hrefused hnone.1
  · rw [hfind]
    exact iff_of_false nofun fun hnone => hserves (hnone.2 greatest hle)
  · exact iff_of_true ⟨_, hfind⟩ ⟨h, hall⟩

/-- A search fails in two ways only. -/
theorem find_faults (h : find hash seeds program = .error fault) :
    (∃ cause, fault = .invalid cause) ∨ fault = .crypto .noBump := by
  rcases find_cases hash seeds program with
    ⟨-, cause, hfind⟩ | ⟨-, bump, -, hfind, -⟩ | ⟨-, hfind, -⟩
  · cases hfind.symm.trans h
    exact .inl ⟨cause, rfl⟩
  · cases hfind.symm.trans h
  · cases hfind.symm.trans h
    exact .inr rfl

/-- The bytes that an attempt hashes. -/
theorem bytes_candidate (hash : Bytes → Hash) (seeds : List Bytes) (program : PublicKey)
    (bump : Nat) : (candidate hash seeds program bump).bytes =
      (hash (seeds.flatten ++ [UInt8.ofNat bump] ++ program.bytes ++ marker)).bytes := by
  change (hash (preimage (seeds ++ [[UInt8.ofNat bump]]) program)).bytes = _
  rw [preimage, List.flatten_append, List.flatten_singleton]

/-- **The search finds the greatest byte that serves.** It refuses the seeds just when there are
more than fifteen or one is longer than 32 bytes. Otherwise it ends with the greatest byte whose
digest is off the curve, and with this digest as the address: the attempt with that byte gives the
address, and each attempt with a greater one gives a point of the curve. It fails just when all
digests are on the curve, and in no other way. -/
theorem find_greatest (hash : Bytes → Hash) (seeds : List Bytes) (program : PublicKey) :
    let digest (bump : Nat) : Bytes :=
      (hash (seeds.flatten ++ [UInt8.ofNat bump] ++ program.bytes ++ marker)).bytes
    let accepted := seeds.length ≤ 15 ∧ ∀ seed ∈ seeds, seed.length ≤ 32
    let outcome := find hash seeds program
    ((∃ cause, outcome = .error (.invalid cause)) ↔
      15 < seeds.length ∨ ∃ seed ∈ seeds, 32 < seed.length) ∧
    (∀ address bump, outcome = .ok (address, bump) ↔ accepted ∧ address.bytes = digest bump ∧
      IsGreatest {b | b ≤ 255 ∧ Curve.membership (digest b) = .ok false} bump) ∧
    (∀ address bump, outcome = .ok (address, bump) →
      Curve.membership address.bytes = .ok false ∧
      create hash (seeds ++ [[UInt8.ofNat bump]]) program = .ok address ∧
      ∀ c, bump < c → c ≤ 255 →
        create hash (seeds ++ [[UInt8.ofNat c]]) program = .error .onCurve) ∧
    ((∃ cause, outcome = .error (.crypto cause)) ↔
      accepted ∧ ∀ b ≤ 255, Curve.membership (digest b) = .ok true) ∧
    ∀ fault, outcome = .error fault →
      (∃ cause, fault = .invalid cause) ∨ fault = .crypto .noBump := by
  intro digest accepted outcome
  have hdigest (b : Nat) : digest b = (candidate hash seeds program b).bytes :=
    (bytes_candidate hash seeds program b).symm
  have hon (b : Nat) : Curve.membership (digest b) = .ok true ↔ Occupied hash seeds program b := by
    rw [Curve.membership_eq, Except.ok.injEq, hdigest, Occupied]
  have hoff (b : Nat) :
      Curve.membership (digest b) = .ok false ↔ ¬ Occupied hash seeds program b := by
    rw [Curve.membership_eq, Except.ok.injEq, hdigest, Occupied, Bool.not_eq_true]
  have haccepted : accepted ↔ Admissible (maxSeeds - 1) seeds := admissible_iff.symm
  refine ⟨find_eq_invalid.trans not_admissible_iff, fun address bump => ?_,
    fun address bump hfound => ?_, ?_, fun fault => find_faults⟩
  · simp only [hoff, haccepted]
    rw [hdigest, ← Key.ext_iff]
    exact find_eq_ok
  · obtain ⟨h, rfl, ⟨-, hserves⟩, habove⟩ := find_eq_ok.mp hfound
    refine ⟨?_, create_of_not_occupied h hserves, fun c hlt hc => create_of_occupied h ?_⟩
    · rw [← hdigest]
      exact (hoff bump).mpr hserves
    · by_contra hcserves
      exact absurd (habove ⟨hc, hcserves⟩) (Nat.not_le.mpr hlt)
  · simp only [hon, haccepted]
    exact find_eq_crypto

end Search

end LedgerClient.Address
