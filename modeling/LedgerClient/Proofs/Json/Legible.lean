import Mathlib.Data.List.TakeWhile
import LedgerClient.Json.Reader
import LedgerClient.Proofs.Json.Nesting

/-!
# Legible structures

The readers of a JSON structure go through a text byte by byte and leave a rest. Where they stop, a
character is complete: the last byte that is read is ASCII. So the rest of a text is a text again,
and everything in the structure that is kept as bytes is a text. And where they stop, a scan of the
text stands as they do: it has the depth left to which they read on. So a text that nests no deeper
than it is read has a structure without a mark for its depth.

## Main definitions

* `Json.Leaves`: a rest that is left between two characters
* `Json.Tree.Legible`: every string of a structure is a text, and it is read to its depth
* `Json.Clean`: something is refused for its form only

## Main results

* `Json.soundReaders`: what the readers read of a text is legible, and a text is left
* `Json.legible_read`: the structure of a text is legible
* `Json.clean_value`: a legible structure is refused for its form only
-/

namespace LedgerClient.Json

open Utf8 (WellFormed)

variable {b : UInt8} {bs rest xs ys zs : Bytes} {s t u : Scan} {depth limit : Nat}

/-- What is left of a byte string is the end of it, and begins a character if the whole does. Before
and behind what is read a scan stands so. -/
structure Leaves (s t : Scan) (bs rest : Bytes) : Prop where
  suffix : rest <:+ bs
  wellFormed : WellFormed bs → WellFormed rest
  run : s.run bs = t.run rest

/-- The byte is ASCII, and neither a quote nor a bracket. -/
def IsPlain (b : UInt8) : Prop :=
  b < 0x80 ∧ b ∉ [0x22, 0x5B, 0x5D, 0x7B, 0x7D]

instance (b : UInt8) : Decidable (IsPlain b) :=
  inferInstanceAs (Decidable (_ ∧ _))

theorem IsPlain.step (h : IsPlain b) (depth : Nat) :
    Scan.step ⟨depth, .outside⟩ b = some ⟨depth, .outside⟩ := by
  obtain ⟨-, h⟩ := h
  simp only [List.mem_cons, List.not_mem_nil, or_false, not_or] at h
  simp [Scan.step, Mode.opens, Mode.closes, Mode.next, h]

namespace Leaves

theorem refl (s : Scan) (bs : Bytes) : Leaves s s bs bs := ⟨List.suffix_refl _, id, rfl⟩

theorem trans (h : Leaves s t xs ys) (h' : Leaves t u ys zs) : Leaves s u xs zs :=
  ⟨h'.suffix.trans h.suffix, fun hxs => h'.wellFormed (h.wellFormed hxs), h.run.trans h'.run⟩

theorem cons (hb : b < 0x80) (h : s.step b = some t) : Leaves s t (b :: bs) bs :=
  ⟨List.suffix_cons _ _, fun h => h.of_ascii_cons hb, Scan.run_cons_of_step h bs⟩

theorem plain (hb : IsPlain b) : Leaves ⟨depth, .outside⟩ ⟨depth, .outside⟩ (b :: bs) bs :=
  cons hb.1 (hb.step depth)

theorem plain_append (h : ∀ b ∈ xs, IsPlain b) :
    Leaves ⟨depth, .outside⟩ ⟨depth, .outside⟩ (xs ++ ys) ys := by
  induction xs with
  | nil => exact .refl _ ys
  | cons x xs ih =>
    obtain ⟨hx, hxs⟩ := List.forall_mem_cons.mp h
    exact (plain hx).trans (ih hxs)

theorem dropWhile {p : UInt8 → Bool} (h : ∀ b, p b = true → IsPlain b) :
    Leaves ⟨depth, .outside⟩ ⟨depth, .outside⟩ bs (bs.dropWhile p) := by
  have hread : Leaves ⟨depth, .outside⟩ ⟨depth, .outside⟩ (bs.takeWhile p ++ bs.dropWhile p)
      (bs.dropWhile p) := .plain_append fun b hb => h b (List.mem_takeWhile_imp hb)
  rwa [List.takeWhile_append_dropWhile] at hread

/-- What is left of a text that can be read can be read, as deep as the scan still goes. -/
theorem readable (h : Leaves ⟨depth, .outside⟩ ⟨limit, .outside⟩ bs rest)
    (hbs : Readable depth bs) : Readable limit rest :=
  ⟨h.wellFormed hbs.wellFormed, h.run ▸ hbs.shallow⟩

/-- What is read of a text that can be read can be read. -/
theorem readable_take (h : Leaves ⟨depth, .outside⟩ t bs rest) (hbs : Readable depth bs) :
    Readable depth (bs.take (bs.length - rest.length)) := by
  have hrest := h.wellFormed hbs.wellFormed
  obtain ⟨front, rfl⟩ := h.suffix
  rw [List.length_append, Nat.add_sub_cancel, List.take_left]
  exact hbs.left (hbs.wellFormed.split hrest.not_isTail).1

end Leaves

/-! ## Blanks and numbers -/

section Numbers

theorem leaves_skipSpace (depth : Nat) (bs : Bytes) :
    Leaves ⟨depth, .outside⟩ ⟨depth, .outside⟩ bs (skipSpace bs) :=
  .dropWhile fun b hb => by
    simp only [isSpace, Bool.or_eq_true, beq_iff_eq] at hb
    rcases hb with ((rfl | rfl) | rfl) | rfl <;> decide

theorem isPlain_of_isDigit (h : isDigit b = true) : IsPlain b := by
  simp only [isDigit, Bool.and_eq_true, decide_eq_true_eq] at h
  refine ⟨UInt8.lt_of_le_of_lt h.2 (by decide), fun hb => ?_⟩
  simp only [List.mem_cons, List.not_mem_nil, or_false] at hb
  rcases hb with rfl | rfl | rfl | rfl | rfl <;> exact absurd h (by decide)

theorem leaves_someDigits? {ds : Bytes} (h : someDigits? bs = some (ds, rest)) :
    Leaves ⟨depth, .outside⟩ ⟨depth, .outside⟩ bs rest := by
  unfold someDigits? at h
  split at h
  · cases h
  · cases h
    exact .dropWhile fun b => isPlain_of_isDigit

theorem leaves_wholePart? {ds : Bytes} (h : wholePart? bs = some (ds, rest)) :
    Leaves ⟨depth, .outside⟩ ⟨depth, .outside⟩ bs rest := by
  unfold wholePart? at h
  split at h
  · cases h
  · exact leaves_someDigits? h

theorem leaves_fraction? {ds : Option Bytes} (h : fraction? bs = some (ds, rest)) :
    Leaves ⟨depth, .outside⟩ ⟨depth, .outside⟩ bs rest := by
  unfold fraction? at h
  split at h
  · obtain ⟨⟨digits, after⟩, hdigits, heq⟩ := Option.map_eq_some_iff.mp h
    cases heq
    exact (Leaves.plain (by decide)).trans (leaves_someDigits? hdigits)
  · cases h
    exact .refl _ _

theorem leaves_exponent? {e : Option Int} (h : exponent? bs = some (e, rest)) :
    Leaves ⟨depth, .outside⟩ ⟨depth, .outside⟩ bs rest := by
  unfold exponent? at h
  split at h
  · cases h
    exact .refl _ _
  · next b tail =>
    split at h
    · next hb =>
      have hletter : Leaves ⟨depth, .outside⟩ ⟨depth, .outside⟩ (b :: tail) tail :=
        .plain (by rcases hb with rfl | rfl <;> decide)
      refine hletter.trans ?_
      dsimp only at h
      obtain ⟨⟨digits, after⟩, hdigits, heq⟩ := Option.map_eq_some_iff.mp h
      cases heq
      split at hdigits
      · exact (Leaves.plain (by decide)).trans (leaves_someDigits? hdigits)
      · exact (Leaves.plain (by decide)).trans (leaves_someDigits? hdigits)
      · exact leaves_someDigits? hdigits
    · cases h
      exact .refl _ _

theorem leaves_number? {n : Number} (h : number? bs = some (n, rest)) :
    Leaves ⟨depth, .outside⟩ ⟨depth, .outside⟩ bs rest := by
  unfold number? at h
  simp only [Option.bind_eq_bind, Option.bind_eq_some_iff, Prod.exists] at h
  obtain ⟨whole, afterWhole, hwhole, fraction, afterFraction, hfraction, exponent, afterExponent,
    hexponent, heq⟩ := h
  have hrest : afterExponent = rest := by
    split at heq <;> cases heq <;> rfl
  subst hrest
  have hbody : Leaves ⟨depth, .outside⟩ ⟨depth, .outside⟩ _ afterExponent :=
    ((leaves_wholePart? hwhole).trans (leaves_fraction? hfraction)).trans
      (leaves_exponent? hexponent)
  split at hbody
  · exact (Leaves.plain (by decide)).trans hbody
  · exact hbody

end Numbers

/-! ## Strings -/

section Strings

/-- A hexadecimal digit is no end of a string. -/
theorem leaves_hexDigit {n : Nat} (h : Bytes.hexValue? b.toNat = some n) :
    Leaves ⟨depth, .inside⟩ ⟨depth, .inside⟩ (b :: bs) bs := by
  have hrange : b.toNat < 128 ∧ b.toNat ≠ 0x22 ∧ b.toNat ≠ 0x5C := by
    unfold Bytes.hexValue? at h
    split at h
    · omega
    · split at h
      · omega
      · split at h
        · omega
        · cases h
  obtain ⟨hascii, hquote, hescape⟩ := hrange
  refine .cons (UInt8.lt_iff_toNat_lt.mpr hascii) ?_
  have hb : b ≠ 0x22 ∧ b ≠ 0x5C := ⟨fun hb => hquote (hb ▸ rfl), fun hb => hescape (hb ▸ rfl)⟩
  simp [Scan.step, Mode.opens, Mode.closes, Mode.next, hb]

theorem leaves_unit? {n : Nat} (h : unit? bs = some (n, rest)) :
    Leaves ⟨depth, .inside⟩ ⟨depth, .inside⟩ bs rest := by
  unfold unit? at h
  split at h
  · next a b c d after =>
    simp only [Option.bind_eq_bind, Option.bind_eq_some_iff] at h
    obtain ⟨_, ha, _, hb, _, hc, _, hd, heq⟩ := h
    cases heq
    exact (leaves_hexDigit ha).trans ((leaves_hexDigit hb).trans
      ((leaves_hexDigit hc).trans (leaves_hexDigit hd)))
  · cases h

theorem leaves_numericEscape? {c : Char} (h : numericEscape? bs = some (c, rest)) :
    Leaves ⟨depth, .inside⟩ ⟨depth, .inside⟩ bs rest := by
  unfold numericEscape? at h
  simp only [Option.bind_eq_bind, Option.bind_eq_some_iff, Prod.exists] at h
  obtain ⟨high, after, hhigh, h⟩ := h
  have hafter : Leaves ⟨depth, .inside⟩ ⟨depth, .inside⟩ bs after := leaves_unit? hhigh
  split at h
  · cases h
    exact hafter
  · split at h
    · cases h
    · split at h
      · next after =>
        simp only [Option.bind_eq_some_iff, Prod.exists] at h
        obtain ⟨low, last, hlow, h⟩ := h
        split at h
        · obtain ⟨-, rfl⟩ := Prod.mk.inj (Option.some.inj h)
          have hescape : Leaves ⟨depth, .inside⟩ ⟨depth, .inside⟩ (0x5C :: 0x75 :: after) after :=
            .trans (t := ⟨depth, .escaped⟩) (.cons (by decide) rfl) (.cons (by decide) rfl)
          exact hafter.trans (hescape.trans (leaves_unit? hlow))
        · cases h
      · cases h

/-- An escape stands for a character. -/
theorem leaves_escape? {out : Bytes} (h : escape? bs = some (out, rest)) :
    Leaves ⟨depth, .escaped⟩ ⟨depth, .inside⟩ bs rest ∧ WellFormed out := by
  cases bs with
  | nil => cases h
  | cons b tail =>
    -- The letters of the escapes, and what all but the last stand for, are ASCII.
    have hletter {x : UInt8} (hx : x < 0x80) (hb : b < 0x80) :
        Leaves ⟨depth, .escaped⟩ ⟨depth, .inside⟩ (b :: tail) tail ∧ WellFormed [x] :=
      ⟨.cons hb rfl, (Utf8.wellFormed_ascii_cons hx).mpr .nil⟩
    rw [escape?] at h
    split at h
    · next hb =>
      have hascii : b < 0x80 := by
        rcases hb with rfl | rfl | rfl <;> decide
      cases h
      exact hletter hascii hascii
    · iterate 5
        split at h
        · next hb =>
          subst hb
          cases h
          exact hletter (by decide) (by decide)
      split at h
      · next hb =>
        obtain ⟨⟨c, after⟩, hnumeric, heq⟩ := Option.map_eq_some_iff.mp h
        cases heq
        subst hb
        refine ⟨.trans (.cons (by decide) rfl) (leaves_numericEscape? hnumeric), ?_⟩
        rw [← List.append_nil (String.utf8EncodeChar c)]
        exact Utf8.WellFormed.nil.cons (Utf8.spells_utf8EncodeChar c)
      · cases h

/-- The content of a string is read byte by byte: of what is read so far, some bytes may belong to
a character that is not complete. -/
theorem leaves_stringOnto {fuel : Nat} (part done : Bytes) {content : Bytes}
    (h : stringOnto fuel (part.reverse ++ done) bs = some (content, rest)) :
    rest <:+ bs ∧ Scan.run ⟨depth, .inside⟩ bs = Scan.run ⟨depth, .outside⟩ rest ∧
      (WellFormed done.reverse → WellFormed (part ++ bs) →
        WellFormed content ∧ WellFormed rest) := by
  induction fuel generalizing bs part done with
  | zero => cases h
  | succ fuel ih =>
    cases bs with
    | nil => cases h
    | cons b bs =>
      -- A character is complete before a quote and before a backslash.
      have hcut (hb : b < 0x80) (hpart : WellFormed (part ++ b :: bs)) :
          WellFormed part ∧ WellFormed bs := by
        obtain ⟨hpart, hbs⟩ := hpart.split fun x hx => by
          cases hx
          exact Utf8.not_isTail_of_ascii hb
        exact ⟨hpart, hbs.of_ascii_cons hb⟩
      rw [stringOnto] at h
      split at h
      · next hb =>
        cases h
        refine ⟨List.suffix_cons _ _,
          Scan.run_cons_of_step (t := ⟨depth, .outside⟩) (by rw [hb]; rfl) _, fun hdone hpart => ?_⟩
        obtain ⟨hpart, hbs⟩ := hcut (by rw [hb]; decide) hpart
        rw [List.reverse_append, List.reverse_reverse]
        exact ⟨hdone.append hpart, hbs⟩
      · next hquote =>
        split at h
        · next hb =>
          split at h
          · next out after hescape =>
            obtain ⟨hafter, hout⟩ :
                Leaves ⟨depth, .escaped⟩ ⟨depth, .inside⟩ bs after ∧ WellFormed out :=
              leaves_escape? hescape
            obtain ⟨hrest, hrun, hread⟩ :=
              ih [] (out.reverse ++ (part.reverse ++ done)) h
            refine ⟨(hrest.trans hafter.suffix).trans (List.suffix_cons _ _), ?_,
              fun hdone hpart => ?_⟩
            · rw [Scan.run_cons_of_step (t := ⟨depth, .escaped⟩) (by rw [hb]; rfl),
                hafter.run, hrun]
            · obtain ⟨hpart, hbs⟩ := hcut (by rw [hb]; decide) hpart
              refine hread ?_ (hafter.wellFormed hbs)
              rw [List.reverse_append, List.reverse_append, List.reverse_reverse,
                List.reverse_reverse]
              exact (hdone.append hpart).append hout
          · cases h
        · next hescape =>
          split at h
          · cases h
          · have hstep : b :: (part.reverse ++ done) = (part ++ [b]).reverse ++ done := by simp
            rw [hstep] at h
            obtain ⟨hrest, hrun, hread⟩ := ih (part ++ [b]) done h
            refine ⟨hrest.trans (List.suffix_cons _ _), ?_, fun hdone hpart => hread hdone ?_⟩
            · rw [Scan.run_cons_of_step (t := ⟨depth, .inside⟩) ?_, hrun]
              simp [Scan.step, Mode.opens, Mode.closes, Mode.next, hquote, hescape]
            · rwa [List.append_assoc]

theorem leaves_string? {content : Bytes} (h : string? bs = some (content, rest)) :
    Leaves ⟨depth, .inside⟩ ⟨depth, .outside⟩ bs rest ∧
      (WellFormed bs → WellFormed content) := by
  obtain ⟨hrest, hrun, hread⟩ := leaves_stringOnto [] [] h
  exact ⟨⟨hrest, fun hbs => (hread .nil hbs).2, hrun⟩, fun hbs => (hread .nil hbs).1⟩

end Strings

/-! ## Structures -/

section Structures

mutual

/-- Every string and name in the structure is a text, the text of every member can be read to the
depth, and nothing else is marked than what breaks the form. -/
def Tree.Legible (limit : Nat) : Tree → Prop
  | .str content => WellFormed content
  | .arr items => ItemsLegible limit items
  | .obj members => MembersLegible limit members
  | .broken why => why = .form
  | _ => True

/-- Every item is legible. -/
def ItemsLegible (limit : Nat) : List Tree → Prop
  | [] => True
  | item :: items => item.Legible limit ∧ ItemsLegible limit items

/-- Every member is legible. -/
def MembersLegible (limit : Nat) : List (Bytes × Bytes × Tree) → Prop
  | [] => True
  | (name, text, tree) :: members =>
    WellFormed name ∧ Readable limit text ∧ tree.Legible limit ∧ MembersLegible limit members

end

theorem ItemsLegible.of_mem {items : List Tree} (h : ItemsLegible limit items) {item : Tree}
    (hitem : item ∈ items) : item.Legible limit := by
  induction items with
  | nil => cases hitem
  | cons first items ih =>
    rcases List.mem_cons.mp hitem with rfl | hitem
    · exact h.1
    · exact ih h.2 hitem

theorem MembersLegible.of_mem {members : List (Bytes × Bytes × Tree)}
    (h : MembersLegible limit members) {name text : Bytes} {tree : Tree}
    (hmember : (name, text, tree) ∈ members) :
    WellFormed name ∧ Readable limit text ∧ tree.Legible limit := by
  induction members with
  | nil => cases hmember
  | cons first members ih =>
    obtain ⟨hname, htext, htree, hmembers⟩ := h
    rcases List.mem_cons.mp hmember with rfl | hmember
    · exact ⟨hname, htext, htree⟩
    · exact ih hmembers hmember

mutual

/-- A legible structure is marked for its form only. -/
theorem Tree.Legible.mark? : ∀ {tree : Tree}, tree.Legible limit →
    ∀ why ∈ tree.mark?, why = .form
  | .null, _, _, hwhy | .bool _, _, _, hwhy | .number _, _, _, hwhy | .str _, _, _, hwhy => by
    cases hwhy
  | .arr _, h, _, hwhy => itemsMark?_of_legible h _ hwhy
  | .obj _, h, _, hwhy => membersMark?_of_legible h _ hwhy
  | .broken _, h, _, hwhy => Option.some.inj hwhy ▸ h

theorem itemsMark?_of_legible : ∀ {items : List Tree}, ItemsLegible limit items →
    ∀ why ∈ itemsMark? items, why = .form
  | [], _, _, hwhy => by cases hwhy
  | _ :: _, h, why, hwhy =>
    (Option.or_eq_some_iff.mp hwhy).elim (h.1.mark? why)
      fun hwhy => itemsMark?_of_legible h.2 why hwhy.2

theorem membersMark?_of_legible : ∀ {members : List (Bytes × Bytes × Tree)},
    MembersLegible limit members → ∀ why ∈ membersMark? members, why = .form
  | [], _, _, hwhy => by cases hwhy
  | (_, _, _) :: _, h, why, hwhy =>
    (Option.or_eq_some_iff.mp hwhy).elim (h.2.2.1.mark? why)
      fun hwhy => membersMark?_of_legible h.2.2.2 why hwhy.2

end

/-- A legible structure that is not what is expected is not so for its form. -/
theorem Tree.Legible.mismatch {tree : Tree} (h : tree.Legible limit) : tree.mismatch = .form := by
  cases tree with
  | broken why => exact h
  | _ => rfl

/-- Of a text that can be read to a depth something legible is read, and a text is left that can be
read to another. -/
structure Sound {α : Type} (legible : α → Prop) (depth after : Nat) (bs : Bytes)
    (reading : Reading α) : Prop where
  legible : Readable depth bs → legible reading.1
  leaves : ∀ rest ∈ reading.2, Leaves ⟨depth, .outside⟩ ⟨after, .outside⟩ bs rest

namespace Sound

variable {α : Type} {legible : α → Prop} {reading : Reading α} {x : α} {inner after : Nat}

theorem stop (h : Readable depth bs → legible x) : Sound legible depth after bs (x, none) :=
  ⟨h, fun rest hrest => by cases hrest⟩

theorem goOn (h : Readable depth bs → legible x)
    (hrest : Leaves ⟨depth, .outside⟩ ⟨after, .outside⟩ bs rest) :
    Sound legible depth after bs (x, some rest) :=
  ⟨h, fun _ hafter => by cases hafter; exact hrest⟩

/-- What is read behind the front of a text is read of the text. -/
theorem behind (hbs : Leaves ⟨depth, .outside⟩ ⟨inner, .outside⟩ bs rest)
    (h : Sound legible inner after rest reading) : Sound legible depth after bs reading :=
  ⟨fun hread => h.legible (hbs.readable hread), fun _ hafter => hbs.trans (h.leaves _ hafter)⟩

end Sound

theorem sound_literal {word : String} {tree : Tree}
    (hword : (Utf8.encode word).all (decide <| IsPlain ·) = true) (htree : tree.Legible limit)
    (bs : Bytes) : Sound (Tree.Legible limit) depth depth bs (literal word tree bs) := by
  have hplain : ∀ b ∈ Utf8.encode word, IsPlain b := fun b hb =>
    of_decide_eq_true (List.all_eq_true.mp hword b hb)
  unfold literal
  dsimp only
  split
  · next hprefix =>
    obtain ⟨rest, rfl⟩ := List.isPrefixOf_iff_prefix.mp hprefix
    rw [List.drop_left]
    exact .goOn (fun _ => htree) (.plain_append hplain)
  · exact .stop fun _ => rfl

/-- Behind a bracket there is one level less to be opened. -/
theorem leaves_open (hb : b = 0x5B ∨ b = 0x7B) (depth : Nat) (rest : Bytes) :
    Leaves ⟨depth + 1, .outside⟩ ⟨depth, .outside⟩ (b :: rest) (skipSpace rest) := by
  refine .trans (t := ⟨depth, .outside⟩) ?_ (leaves_skipSpace depth rest)
  rcases hb with rfl | rfl <;> exact .cons (by decide) rfl

theorem leaves_close (hb : b = 0x5D ∨ b = 0x7D) (depth : Nat) (rest : Bytes) :
    Leaves ⟨depth, .outside⟩ ⟨depth + 1, .outside⟩ (b :: rest) rest := by
  rcases hb with rfl | rfl <;> exact .cons (by decide) rfl

/-- What the readers of values, items and members read with this much fuel is sound. -/
structure SoundReaders (limit fuel : Nat) : Prop where
  value : ∀ depth ≤ limit, ∀ bs,
    Sound (Tree.Legible limit) depth depth bs (readValue fuel depth bs)
  items : ∀ depth ≤ limit, ∀ bs,
    Sound (ItemsLegible limit) depth (depth + 1) bs (readItems fuel depth bs)
  members : ∀ depth ≤ limit, ∀ bs,
    Sound (MembersLegible limit) depth (depth + 1) bs (readMembers fuel depth bs)

namespace SoundReaders

variable {fuel : Nat} (h : SoundReaders limit fuel)
include h

theorem value_succ (hdepth : depth ≤ limit) (bs : Bytes) :
    Sound (Tree.Legible limit) depth depth bs (readValue (fuel + 1) depth bs) := by
  have hskip := leaves_skipSpace depth bs
  rw [readValue]
  split
  · exact .stop fun _ => rfl
  · next b rest heq =>
    rw [heq] at hskip
    refine .behind hskip ?_
    split
    · next hb =>
      subst hb
      split
      · next content after hstring =>
        obtain ⟨hafter, hcontent⟩ := leaves_string? hstring
        exact .goOn (fun hread => hcontent (hread.wellFormed.of_ascii_cons (by decide)))
          (.trans (.cons (by decide) rfl) hafter)
      · exact .stop fun _ => rfl
    · split
      · next hb =>
        subst hb
        split
        · refine .stop fun hread => ?_
          cases hread.shallow
        · next inner after heq =>
          have hafter := leaves_open (.inl rfl) inner rest
          rw [heq] at hafter
          exact .goOn (fun _ => trivial) (hafter.trans (leaves_close (.inl rfl) inner after))
        · next _ inner _ =>
          have hitems := h.items inner (Nat.le_of_succ_le hdepth) (skipSpace rest)
          exact .behind (leaves_open (.inl rfl) inner rest) ⟨hitems.legible, hitems.leaves⟩
      · split
        · next hb =>
          subst hb
          split
          · refine .stop fun hread => ?_
            cases hread.shallow
          · next inner after heq =>
            have hafter := leaves_open (.inr rfl) inner rest
            rw [heq] at hafter
            exact .goOn (fun _ => trivial) (hafter.trans (leaves_close (.inr rfl) inner after))
          · next _ inner _ =>
            have hmembers := h.members inner (Nat.le_of_succ_le hdepth) (skipSpace rest)
            exact .behind (leaves_open (.inr rfl) inner rest) ⟨hmembers.legible, hmembers.leaves⟩
        · split
          · exact sound_literal rfl (show Tree.Legible limit .null from trivial) _
          · split
            · exact sound_literal rfl (show Tree.Legible limit (.bool true) from trivial) _
            · split
              · exact sound_literal rfl (show Tree.Legible limit (.bool false) from trivial) _
              · split
                · next n after hnumber => exact .goOn (fun _ => trivial) (leaves_number? hnumber)
                · exact .stop fun _ => rfl

theorem items_succ (hdepth : depth ≤ limit) (bs : Bytes) :
    Sound (ItemsLegible limit) depth (depth + 1) bs (readItems (fuel + 1) depth bs) := by
  have hvalue := h.value depth hdepth bs
  rw [readItems]
  split
  · next item heq =>
    rw [heq] at hvalue
    exact .stop fun hbs => ⟨hvalue.legible hbs, trivial⟩
  · next item rest heq =>
    rw [heq] at hvalue
    have hitem := hvalue.legible
    have hrest := (hvalue.leaves rest rfl).trans (leaves_skipSpace depth rest)
    split
    · next after heq =>
      rw [heq] at hrest
      exact .goOn (fun hbs => ⟨hitem hbs, trivial⟩)
        (hrest.trans (leaves_close (.inl rfl) depth after))
    · next after heq =>
      rw [heq] at hrest
      have hitems := Sound.behind (hrest.trans (.plain (by decide))) (h.items depth hdepth after)
      exact ⟨fun hbs => ⟨hitem hbs, hitems.legible hbs⟩, hitems.leaves⟩
    · exact .stop fun hbs => ⟨hitem hbs, rfl, trivial⟩

theorem members_succ (hdepth : depth ≤ limit) (bs : Bytes) :
    Sound (MembersLegible limit) depth (depth + 1) bs (readMembers (fuel + 1) depth bs) := by
  have hbroken : MembersLegible limit [([], [], .broken .form)] :=
    ⟨.nil, .nil limit, rfl, trivial⟩
  have hskip := leaves_skipSpace depth bs
  rw [readMembers]
  split
  · next rest heq =>
    rw [heq] at hskip
    refine .behind hskip ?_
    split
    · exact .stop fun _ => hbroken
    · next name after hstring =>
      obtain ⟨hafter, hname⟩ := leaves_string? hstring
      replace hname (hread : Readable depth (0x22 :: rest)) : WellFormed name :=
        hname (hread.wellFormed.of_ascii_cons (by decide))
      have hquote : Leaves ⟨depth, .outside⟩ ⟨depth, .inside⟩ (0x22 :: rest) rest :=
        .cons (by decide) rfl
      have hcolon := (hquote.trans hafter).trans (leaves_skipSpace depth after)
      split
      · next after heq =>
        rw [heq] at hcolon
        have hstart := (hcolon.trans (.plain (by decide))).trans (leaves_skipSpace depth after)
        have hvalue := h.value depth hdepth (skipSpace after)
        dsimp only
        split
        · next tree heq =>
          rw [heq] at hvalue
          exact .stop fun hread => ⟨hname hread, (hstart.readable hread).mono hdepth,
            hvalue.legible (hstart.readable hread), trivial⟩
        · next tree last heq =>
          rw [heq] at hvalue
          have hlast := hvalue.leaves last rfl
          have hend := (hstart.trans hlast).trans (leaves_skipSpace depth last)
          have hmember {members : List (Bytes × Bytes × Tree)}
              (hread : Readable depth (0x22 :: rest)) (hmembers : MembersLegible limit members) :
              MembersLegible limit ((name,
                (skipSpace after).take ((skipSpace after).length - last.length), tree) ::
                  members) :=
            ⟨hname hread, (hlast.readable_take (hstart.readable hread)).mono hdepth,
              hvalue.legible (hstart.readable hread), hmembers⟩
          split
          · next last heq =>
            rw [heq] at hend
            exact .goOn (fun hread => hmember hread trivial)
              (hend.trans (leaves_close (.inr rfl) depth last))
          · next last heq =>
            rw [heq] at hend
            have hmembers := Sound.behind (hend.trans (.plain (by decide)))
              (h.members depth hdepth last)
            exact ⟨fun hread => hmember hread (hmembers.legible hread), hmembers.leaves⟩
          · exact .stop fun hread => hmember hread hbroken
      · exact .stop fun hread => ⟨hname hread, .nil limit, rfl, trivial⟩
  · exact .stop fun _ => hbroken

end SoundReaders

/-- **The readers of a structure are sound.** -/
theorem soundReaders (limit fuel : Nat) : SoundReaders limit fuel := by
  induction fuel with
  | zero =>
    refine ⟨fun depth _ bs => ?_, fun depth _ bs => ?_, fun depth _ bs => ?_⟩
    · rw [readValue]
      exact .stop fun _ => rfl
    · rw [readItems]
      exact .stop fun _ => ⟨rfl, trivial⟩
    · rw [readMembers]
      exact .stop fun _ => ⟨.nil, .nil limit, rfl, trivial⟩
  | succ fuel ih =>
    exact ⟨fun _ hdepth => ih.value_succ hdepth, fun _ hdepth => ih.items_succ hdepth,
      fun _ hdepth => ih.members_succ hdepth⟩

/-- **The structure of a text is legible**, if the text can be read to the depth to which it is. -/
theorem legible_read (hbs : Readable limit bs) :
    (Document.read bs limit).tree.Legible limit := by
  have hread := (soundReaders limit (2 * bs.length + 2)).value limit le_rfl bs
  unfold Document.read
  split
  · next tree rest heq =>
    rw [heq] at hread
    exact hread.legible hbs
  · next tree heq =>
    rw [heq] at hread
    exact hread.legible hbs

end Structures

/-! ## Values -/

section Values

variable {α β : Type} {good : α → Prop} {good' : β → Prop} {reading : Except Obstacle α}

/-- What is read is good, or refused for its form. -/
def Clean (good : α → Prop) : Except Obstacle α → Prop
  | .ok x => good x
  | .error obstacle => obstacle = .form

namespace Clean

theorem bind {next : α → Except Obstacle β} (h : Clean good reading)
    (hnext : ∀ x, good x → Clean good' (next x)) : Clean good' (reading >>= next) := by
  cases reading with
  | ok x => exact hnext x h
  | error obstacle => exact h

theorem map {f : α → β} (h : Clean good reading) (hf : ∀ x, good x → good' (f x)) :
    Clean good' (f <$> reading) := by
  cases reading with
  | ok x => exact hf x h
  | error obstacle => exact h

/-- Members are read one after the other. -/
theorem foldlM {step : α → β → Except Obstacle α} {items : List β} {x : α} (hx : good x)
    (hstep : ∀ item ∈ items, ∀ x, good x → Clean good (step x item)) :
    Clean good (items.foldlM step x) := by
  induction items generalizing x with
  | nil => exact hx
  | cons item items ih =>
    obtain ⟨hitem, hitems⟩ := List.forall_mem_cons.mp hstep
    exact (hitem x hx).bind fun y hy => ih hy hitems

theorem mapM {f : β → Except Obstacle α} {items : List β}
    (h : ∀ item ∈ items, Clean good (f item)) :
    Clean (fun xs => ∀ x ∈ xs, good x) (items.mapM f) := by
  induction items with
  | nil => exact List.forall_mem_nil _
  | cons item items ih =>
    obtain ⟨hitem, hitems⟩ := List.forall_mem_cons.mp h
    rw [List.mapM_cons]
    exact hitem.bind fun x hx => (ih hitems).bind fun xs hxs =>
      List.forall_mem_cons.mpr ⟨hx, hxs⟩

end Clean

theorem clean_text {content : Bytes} (h : WellFormed content) :
    Clean (fun _ => True) (text content) := by
  obtain ⟨word, hword⟩ := h
  rw [text, hword]
  trivial

theorem clean_number (n : Number) : Clean (fun _ => True) n.value := by
  unfold Number.value
  repeat' split
  all_goals trivial

mutual

/-- **A legible structure is refused for its form only.** -/
theorem clean_value : ∀ {tree : Tree}, tree.Legible limit → Clean (fun _ => True) tree.value
  | .null, _ => trivial
  | .bool _, _ => trivial
  | .number n, _ => clean_number n
  | .str _, h => (clean_text h).map fun _ _ => trivial
  | .arr _, h => (clean_itemValues h).map fun _ _ => trivial
  | .obj _, h => (clean_memberValues h).map fun _ _ => trivial
  | .broken _, h => h

theorem clean_itemValues : ∀ {items : List Tree}, ItemsLegible limit items →
    Clean (fun _ => True) (itemValues items)
  | [], _ => trivial
  | _ :: _, h => (clean_value h.1).bind fun _ _ => (clean_itemValues h.2).bind fun _ _ => trivial

theorem clean_memberValues : ∀ {members : List (Bytes × Bytes × Tree)},
    MembersLegible limit members → Clean (fun _ => True) (memberValues members)
  | [], _ => trivial
  | (_, _, _) :: _, h => (clean_text h.1).bind fun _ _ => (clean_value h.2.2.1).bind fun _ _ =>
    (clean_memberValues h.2.2.2).bind fun _ _ => trivial

end

/-- What is read of a whole document is refused for its form if what follows is no blank. -/
theorem Clean.using {read : Tree → Except Obstacle α}
    (hread : ∀ tree, tree.Legible limit → Clean good (read tree)) (hbs : Readable limit bs) :
    Clean good ((Document.read bs limit).using read) := by
  refine (hread _ (legible_read hbs)).bind fun x hx => ?_
  split
  · exact hx
  · rfl

end Values

end LedgerClient.Json
