import LedgerClient.Keypair
import LedgerClient.Proofs.Base58
import LedgerClient.Proofs.Json.Integers
import LedgerClient.Proofs.Text.Malformed

/-!
# The forms of a keypair

A keypair is stored as its secret, in raw bytes, in base58 or as a JSON list. Each form has a
parser of its own, and all of them end in one check, of the width of the secret and of its second
half. So a form is loaded as a keypair just when what it denotes is the secret of the keypair, and
what a form denotes is said by the parsers alone: the bytes themselves, the bytes of a base58 text,
or the numbers of a JSON list, if all are bytes.

Key derivation is any function from seeds to public keys. Nothing is asked of it, for it is only
compared with itself.

## Main definitions

* `Keypair.IsSecret`: 64 bytes, the second half of which belongs to the first
* `Keypair.Loads`: a form is loaded just when it denotes a secret

## Main results

* `Keypair.ofSecret_eq_ok`, `Keypair.ofBase58_eq_ok`, `Keypair.ofJson_eq_ok`: what is loaded as a
  keypair, in each form
* `Keypair.forms_agree`: all forms of a keypair are loaded as the keypair, and nothing else is
-/

namespace LedgerClient.Keypair

open Fault (Confined IsCrypto)

variable (S : SignatureScheme) {keypair : Keypair} {bs : Bytes}

/-! ## Seeds and secrets -/

theorem ofSeed_eq_ok : ofSeed bs = .ok keypair ↔ keypair.bytes = bs := by
  rw [ofSeed]
  split
  · rw [Except.ok.injEq, Seed.mk.injEq]
    exact eq_comm
  · next hlen =>
    constructor
    · intro h
      cases h
    · rintro rfl
      exact absurd keypair.length_eq hlen

theorem length_secret (keypair : Keypair) : (secret S keypair).length = 64 := by
  rw [secret, List.length_append, keypair.length_eq, (S.publicKey keypair).length_eq]
  rfl

/-- A byte string is the secret of a keypair if its halves are the seed and the public key. -/
theorem secret_eq_iff : secret S keypair = bs ↔
    keypair.bytes = bs.take 32 ∧ (S.publicKey keypair).bytes = bs.drop 32 := by
  constructor
  · rintro rfl
    have hseed := keypair.length_eq
    exact ⟨(List.take_left' hseed).symm, (List.drop_left' hseed).symm⟩
  · rintro ⟨hseed, hpublic⟩
    rw [secret, hseed, hpublic, List.take_append_drop]

theorem eq_of_bytes {keypair' : Keypair} (h : keypair.bytes = keypair'.bytes) :
    keypair = keypair' := by
  cases keypair
  cases keypair'
  cases h
  rfl

/-- **A secret is loaded** as the keypair that it is the secret of, and as no other. -/
theorem ofSecret_eq_ok : ofSecret S bs = .ok keypair ↔ secret S keypair = bs := by
  rw [ofSecret, Fault.guard_eq_ok, Fault.bind_eq_ok, secret_eq_iff]
  constructor
  · rintro ⟨-, seed, hseed, hload⟩
    rw [Fault.guard_eq_ok, not_not] at hload
    obtain ⟨hpublic, hkeypair⟩ := hload
    cases hkeypair
    exact ⟨ofSeed_eq_ok.mp hseed, hpublic⟩
  · rintro ⟨hseed, hpublic⟩
    have hlen : bs.length = 64 := by
      rw [← (secret_eq_iff S).mpr ⟨hseed, hpublic⟩, length_secret]
    refine ⟨not_not_intro hlen, keypair, ofSeed_eq_ok.mpr hseed, ?_⟩
    rw [Fault.guard_eq_ok, not_not]
    exact ⟨hpublic, rfl⟩

/-! ## Base58 -/

/-- **A text in base58 is loaded** as the keypair whose text it is, up to white space at its
end. -/
theorem ofBase58_eq_ok {text : String} :
    ofBase58 S text = .ok keypair ↔ Base58.encode (secret S keypair) = Blank.trimEnd text := by
  rw [ofBase58, Fault.bind_eq_ok, ← Base58.decode?_eq_some, Base58.decode]
  cases Base58.decode? text with
  | none =>
    constructor
    · rintro ⟨bs, hbs, -⟩
      cases hbs
    · intro hsecret
      cases hsecret
  | some bs =>
    constructor
    · rintro ⟨bs', hbs, hload⟩
      cases hbs
      rw [(ofSecret_eq_ok S).mp hload]
    · intro hsecret
      cases hsecret
      exact ⟨_, rfl, (ofSecret_eq_ok S).mpr rfl⟩

/-! ## JSON -/

/-- The whole number of a structure. -/
def integer : Json.Tree → Except Json.Obstacle Int
  | .number (.whole n digits) => if Numeral.maxDigits < digits then .error .form else .ok n
  | _ => .error .form

theorem integer_eq_ok {tree : Json.Tree} {n : Int} :
    integer tree = .ok n ↔ tree.value = .ok (.int n) := by
  rw [Json.Tree.value_eq_int]
  constructor
  · intro h
    unfold integer at h
    split at h
    · next m digits =>
      split at h
      · cases h
      · next hshort =>
        cases h
        exact ⟨digits, rfl, hshort⟩
    · cases h
  · rintro ⟨digits, rfl, hshort⟩
    exact if_neg hshort

theorem mapM_integer_eq_ok {items : List Json.Tree} {ns : List Int} :
    items.mapM integer = .ok ns ↔ Json.itemValues items = .ok (ns.map .int) := by
  induction items generalizing ns with
  | nil =>
    rw [List.mapM_nil, Json.itemValues]
    change Except.ok [] = _ ↔ _
    rw [Except.ok.injEq, Except.ok.injEq, eq_comm, eq_comm (a := []), List.map_eq_nil_iff]
  | cons item items ih =>
    rw [List.mapM_cons, Json.itemValues, Fault.bind_eq_ok, Fault.bind_eq_ok]
    constructor
    · rintro ⟨n, hitem, hitems⟩
      obtain ⟨rest, hrest, hns⟩ := Fault.bind_eq_ok.mp hitems
      cases hns
      exact ⟨_, integer_eq_ok.mp hitem, Fault.bind_eq_ok.mpr ⟨_, ih.mp hrest, rfl⟩⟩
    · rintro ⟨value, hitem, hitems⟩
      obtain ⟨values, hvalues, hns⟩ := Fault.bind_eq_ok.mp hitems
      obtain ⟨n, rest, rfl, rfl, rfl⟩ := List.map_eq_cons_iff.mp (Except.ok.inj hns).symm
      exact ⟨n, integer_eq_ok.mpr hitem, Fault.bind_eq_ok.mpr ⟨rest, ih.mpr hvalues, rfl⟩⟩

/-- **The whole numbers of a structure** are those of its value. -/
theorem integers_eq_ok {tree : Json.Tree} {ns : List Int} :
    integers tree = .ok ns ↔ tree.value = .ok (.arr (ns.map .int)) := by
  rw [Json.Tree.value_eq_arr]
  constructor
  · intro h
    unfold integers at h
    split at h
    · next items => exact ⟨items, rfl, mapM_integer_eq_ok.mp h⟩
    · cases h
  · rintro ⟨items, rfl, hitems⟩
    exact mapM_integer_eq_ok.mpr hitems

theorem using_integers_eq_ok {text : Bytes} {ns : List Int} :
    (Json.Document.read text).using integers = .ok ns ↔
      Json.read text = .ok (.arr (ns.map .int)) := by
  rw [Json.read, Json.Document.using_eq_ok, Json.Document.using_eq_ok, integers_eq_ok]

/-- The numbers of bytes. -/
def numbers (bs : Bytes) : List Int :=
  bs.map fun b => b.toNat

/-- Numbers are read as bytes if they are the numbers of the bytes. -/
theorem bytesOf?_eq_some {ns : List Int} : bytesOf? ns = some bs ↔ numbers bs = ns := by
  have hbyte {n : Int} {b : UInt8} :
      (if 0 ≤ n ∧ n < 256 then some (UInt8.ofNat n.toNat) else none) = some b ↔ b.toNat = n := by
    have hb := b.toNat_lt
    split
    · next hn =>
      rw [Option.some.injEq, ← UInt8.toNat_inj, UInt8.toNat_ofNat']
      omega
    · next hn =>
      constructor
      · intro h
        cases h
      · rintro rfl
        omega
  induction ns generalizing bs with
  | nil =>
    change some [] = some bs ↔ _
    rw [Option.some.injEq, eq_comm, numbers, List.map_eq_nil_iff]
  | cons n ns ih =>
    rw [bytesOf?, List.mapM_cons, Option.bind_eq_bind, Option.bind_eq_some_iff]
    constructor
    · rintro ⟨b, hb, hrest⟩
      obtain ⟨rest, hns, hbs⟩ := Option.bind_eq_some_iff.mp hrest
      cases hbs
      exact congrArg₂ List.cons (hbyte.mp hb) (ih.mp hns)
    · intro hnumbers
      obtain ⟨b, rest, rfl, hb, hrest⟩ := List.map_eq_cons_iff.mp hnumbers
      exact ⟨b, hbyte.mpr hb, Option.bind_eq_some_iff.mpr ⟨rest, ih.mpr hrest, rfl⟩⟩

/-- **A JSON text is loaded** as the keypair whose secret it lists. -/
theorem ofJson_eq_ok {text : Bytes} :
    ofJson S text = .ok keypair ↔
      Json.read text = .ok (.arr ((numbers (secret S keypair)).map .int)) := by
  rw [ofJson, ← using_integers_eq_ok]
  cases (Json.Document.read text).using integers with
  | error obstacle =>
    apply iff_of_false
    · intro h
      cases h
    · intro h
      cases h
  | ok ns =>
    dsimp only
    rw [Except.ok.injEq, eq_comm (a := ns), ← bytesOf?_eq_some]
    cases bytesOf? ns with
    | none =>
      apply iff_of_false
      · intro h
        cases h
      · intro h
        cases h
    | some bs =>
      dsimp only
      rw [Option.some.injEq, ofSecret_eq_ok, eq_comm]

theorem confined_ofJson (text : Bytes) : Confined IsCrypto (ofJson S text) := by
  rw [ofJson]
  split
  · exact Confined.error ⟨_, rfl⟩
  · split
    · exact Confined.error ⟨_, rfl⟩
    · exact confined_ofSecret S _

/-- **A list of whole numbers that is written is loaded** just when its numbers are those of a
secret: a number that is too long to be read is no byte. -/
theorem ofJson_render_eq_ok {ns : List Int} :
    ofJson S (Utf8.encode (Json.Value.arr (ns.map .int)).render) = .ok keypair ↔
      numbers (secret S keypair) = ns := by
  have hint : Function.Injective Json.Value.int := fun _ _ => Json.Value.int.inj
  rw [ofJson_eq_ok]
  rcases Json.read_render ns with hok | ⟨herror, n, hn, hlong⟩
  · rw [hok, Except.ok.injEq, Json.Value.arr.injEq, (List.map_injective_iff.mpr hint).eq_iff,
      eq_comm]
  · rw [herror]
    constructor
    · intro h
      cases h
    · rintro rfl
      obtain ⟨b, -, rfl⟩ := List.mem_map.mp hn
      have hb := b.toNat_lt
      have hlength := Json.length_digits_le b.toNat
      change 4300 < (Json.digits b.toNat).length at hlong
      omega

/-! ## All forms -/

/-- The byte string is a secret: 64 bytes, the second half of which is the public key of the
first. -/
structure IsSecret (bs : Bytes) : Prop where
  length : bs.length = 64
  agrees : ∀ seed : Seed, seed.bytes = bs.take 32 → (S.publicKey seed).bytes = bs.drop 32

/-- A form is loaded just when it denotes a secret, and as a keypair with a secret that it denotes.
Otherwise it is refused with a fault of keys. -/
def Loads (loaded : Except Fault Keypair) (Denotes : Bytes → Prop) : Prop :=
  ((∃ keypair, loaded = .ok keypair) ↔ ∃ bs, Denotes bs ∧ IsSecret S bs) ∧
    (∀ keypair, loaded = .ok keypair → Denotes (secret S keypair)) ∧ Confined IsCrypto loaded

theorem isSecret_iff : IsSecret S bs ↔ ∃ keypair : Keypair, secret S keypair = bs := by
  constructor
  · intro h
    have hhalf : (bs.take 32).length = 32 := List.length_take_of_le (by rw [h.length]; decide)
    exact ⟨⟨bs.take 32, hhalf⟩, (secret_eq_iff S).mpr ⟨rfl, h.agrees ⟨bs.take 32, hhalf⟩ rfl⟩⟩
  · rintro ⟨keypair, hsecret⟩
    obtain ⟨hseed, hpublic⟩ := (secret_eq_iff S).mp hsecret
    refine ⟨hsecret ▸ length_secret S keypair, fun seed hseed' => ?_⟩
    obtain rfl : seed = keypair := eq_of_bytes (hseed'.trans hseed.symm)
    exact hpublic

theorem loads_of_eq_ok {loaded : Except Fault Keypair} {Denotes : Bytes → Prop}
    (h : ∀ keypair, loaded = .ok keypair ↔ Denotes (secret S keypair))
    (hconfined : Confined IsCrypto loaded) : Loads S loaded Denotes := by
  refine ⟨⟨?_, ?_⟩, fun keypair => (h keypair).mp, hconfined⟩
  · rintro ⟨keypair, hload⟩
    exact ⟨_, (h keypair).mp hload, (isSecret_iff S).mpr ⟨keypair, rfl⟩⟩
  · rintro ⟨bs, hdenotes, hsecret⟩
    obtain ⟨keypair, rfl⟩ := (isSecret_iff S).mp hsecret
    exact ⟨keypair, (h keypair).mpr hdenotes⟩

/-- **The forms of a keypair agree.** The keypair of a seed is loaded again from its secret, in raw
bytes, in base58 and as a JSON list. Bytes, base58 texts, up to white space at the end, and JSON
texts are loaded just when they denote a secret, and so is any list of whole numbers that is
written: its numbers must be those of bytes. Everything else is refused with a fault of keys. -/
theorem forms_agree :
    (∀ seed : Bytes, seed.length = 32 → ∃ keypair : Keypair, keypair.bytes = seed ∧
      ofSeed seed = .ok keypair ∧
      ofSecret S (secret S keypair) = .ok keypair ∧
      ofBase58 S (base58 S keypair) = .ok keypair ∧
      ofJson S (Utf8.encode (json S keypair)) = .ok keypair) ∧
    (∀ secret : Bytes, Loads S (ofSecret S secret) fun bs => bs = secret) ∧
    (∀ text : String, Loads S (ofBase58 S text) fun bs =>
      Base58.encode bs = Blank.trimEnd text) ∧
    (∀ text : Bytes, Loads S (ofJson S text) fun bs =>
      Json.read text = .ok (.arr ((numbers bs).map .int))) ∧
    ∀ ns : List Int, Loads S (ofJson S (Utf8.encode (Json.Value.arr (ns.map .int)).render))
      fun bs => numbers bs = ns := by
  refine ⟨fun seed hseed => ?_, fun secret => ?_, fun text => ?_, fun text => ?_, fun ns => ?_⟩
  · refine ⟨⟨seed, hseed⟩, rfl, ofSeed_eq_ok.mpr rfl, (ofSecret_eq_ok S).mpr rfl, ?_, ?_⟩
    · rw [ofBase58_eq_ok, ← Base58.decode?_eq_some, base58, Base58.decode?_encode]
    · have hjson : json S ⟨seed, hseed⟩ =
          (Json.Value.arr ((numbers (secret S ⟨seed, hseed⟩)).map .int)).render := by
        rw [json, numbers, List.map_map]
        rfl
      rw [hjson, ofJson_render_eq_ok]
  · exact loads_of_eq_ok S (fun _ => ofSecret_eq_ok S) (confined_ofSecret S secret)
  · exact loads_of_eq_ok S (fun _ => ofBase58_eq_ok S) (confined_ofBase58 S text)
  · exact loads_of_eq_ok S (fun _ => ofJson_eq_ok S) (confined_ofJson S text)
  · exact loads_of_eq_ok S (fun _ => ofJson_render_eq_ok S) (confined_ofJson S _)

end LedgerClient.Keypair
