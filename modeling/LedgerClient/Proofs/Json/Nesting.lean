import LedgerClient.Json.Tree
import LedgerClient.Proofs.Text.Utf8

/-!
# Nesting

How deep the lists and objects of a text nest is seen without reading it: a scan counts the brackets
from the front on, those in strings apart. It counts down, from the number that may be open at once,
and fails where one more is opened.

## Main definitions

* `Json.Scan`, `Json.Scan.run`: where a scan stands, and where it gets to
* `Json.Readable`: a text that nests no deeper than it is read

## Main results

* `Json.Readable.mono`: what can be read to a depth can be read deeper
* `Json.Readable.left`: the front of a text that can be read can be read
* `Json.readValue_deep`: lists that nest too deep are not read
-/

namespace LedgerClient.Json

open Utf8 (WellFormed)

/-- Where a byte stands with respect to strings. -/
inductive Mode
  | outside
  | inside
  /-- In a string, behind a backslash. -/
  | escaped
  deriving DecidableEq, Repr

namespace Mode

/-- Where the next byte stands. -/
def next : Mode → UInt8 → Mode
  | .outside, b => if b = 0x22 then .inside else .outside
  | .inside, b => if b = 0x22 then .outside else if b = 0x5C then .escaped else .inside
  | .escaped, _ => .inside

/-- The byte opens a list or an object. -/
def opens (mode : Mode) (b : UInt8) : Bool :=
  mode == .outside && (b == 0x5B || b == 0x7B)

/-- The byte closes a list or an object. -/
def closes (mode : Mode) (b : UInt8) : Bool :=
  mode == .outside && (b == 0x5D || b == 0x7D)

end Mode

/-- Where a scan stands. -/
structure Scan where
  /-- The number of brackets that may still be opened. -/
  depth : Nat
  /-- Where the next byte stands. -/
  mode : Mode
  deriving DecidableEq, Repr

namespace Scan

/-- The scan of one byte. It fails where no bracket may be opened. -/
def step (s : Scan) (b : UInt8) : Option Scan :=
  if s.mode.opens b then
    match s.depth with
    | 0 => none
    | depth + 1 => some ⟨depth, s.mode.next b⟩
  else if s.mode.closes b then some ⟨s.depth + 1, s.mode.next b⟩
  else some ⟨s.depth, s.mode.next b⟩

/-- The scan of a byte string. -/
def run (s : Scan) (bs : Bytes) : Option Scan :=
  bs.foldlM step s

variable {s t : Scan} {b : UInt8} {bs xs ys : Bytes} {depth : Nat} {mode : Mode}

theorem run_append (s : Scan) (xs ys : Bytes) :
    s.run (xs ++ ys) = (s.run xs).bind fun t => t.run ys :=
  List.foldlM_append

theorem run_cons_of_step (h : s.step b = some t) (bs : Bytes) : s.run (b :: bs) = t.run bs := by
  rw [run, List.foldlM_cons, h]
  rfl

/-- A scan gets as far with more brackets to be opened. -/
theorem step_add (more : Nat) (h : step ⟨depth, mode⟩ b = some t) :
    step ⟨depth + more, mode⟩ b = some ⟨t.depth + more, t.mode⟩ := by
  unfold step at h ⊢
  split
  · next hopens =>
    rw [if_pos hopens] at h
    cases depth with
    | zero => cases h
    | succ depth =>
      cases h
      rw [Nat.add_right_comm]
  · next hopens =>
    rw [if_neg hopens] at h
    split
    · next hcloses =>
      rw [if_pos hcloses] at h
      cases h
      rw [Nat.add_right_comm]
    · next hcloses =>
      rw [if_neg hcloses] at h
      cases h
      rfl

theorem run_add (more : Nat) (h : run ⟨depth, mode⟩ bs = some t) :
    run ⟨depth + more, mode⟩ bs = some ⟨t.depth + more, t.mode⟩ := by
  induction bs generalizing depth mode with
  | nil =>
    cases h
    rfl
  | cons b bs ih =>
    obtain ⟨next, hstep, hrun⟩ := Option.bind_eq_some_iff.mp h
    rw [run_cons_of_step (step_add more hstep)]
    exact ih hrun

end Scan

/-- A text that can be read to a depth: it is UTF-8 and nests no deeper. -/
structure Readable (depth : Nat) (text : Bytes) : Prop where
  wellFormed : WellFormed text
  shallow : (Scan.run ⟨depth, .outside⟩ text).isSome = true

namespace Readable

variable {depth limit : Nat} {text xs ys : Bytes}

/-- What can be read to a depth can be read deeper. -/
theorem mono (h : Readable depth text) (hle : depth ≤ limit) : Readable limit text := by
  obtain ⟨more, rfl⟩ := Nat.exists_eq_add_of_le hle
  obtain ⟨t, hrun⟩ := Option.isSome_iff_exists.mp h.shallow
  exact ⟨h.wellFormed, Option.isSome_iff_exists.mpr ⟨_, Scan.run_add more hrun⟩⟩

theorem nil (depth : Nat) : Readable depth [] := ⟨.nil, rfl⟩

/-- The front of a text that can be read can be read, if it ends between two characters. -/
theorem left (h : Readable depth (xs ++ ys)) (hxs : WellFormed xs) : Readable depth xs := by
  refine ⟨hxs, ?_⟩
  obtain ⟨t, hrun⟩ := Option.isSome_iff_exists.mp h.shallow
  rw [Scan.run_append] at hrun
  obtain ⟨next, hfront, -⟩ := Option.bind_eq_some_iff.mp hrun
  exact Option.isSome_iff_exists.mpr ⟨next, hfront⟩

end Readable

/-! ## Too deep -/

section Deep

variable {b : UInt8} {fuel depth n : Nat}

theorem skipSpace_cons (h : isSpace b = false) (tail : Bytes) : skipSpace (b :: tail) = b :: tail :=
  List.dropWhile_cons_of_neg (Bool.eq_false_iff.mp h)

/-- A list that is not empty is read item by item, one level less deep. -/
theorem readValue_list (hspace : isSpace b = false) (hb : b ≠ 0x5D) (fuel depth : Nat)
    (tail : Bytes) : readValue (fuel + 1) (depth + 1) (0x5B :: b :: tail) =
      (.arr (readItems fuel depth (b :: tail)).1, (readItems fuel depth (b :: tail)).2) := by
  have hbracket : skipSpace (0x5B :: b :: tail) = 0x5B :: b :: tail := rfl
  rw [readValue, hbracket]
  dsimp only
  rw [if_neg (by decide), if_pos rfl, skipSpace_cons hspace]
  split
  · next hdepth => cases hdepth
  · next heq => exact absurd (List.cons.inj heq).1 hb
  · next hdepth _ =>
    cases hdepth
    rfl

/-- **Lists that nest deeper than they are read leave a mark**, whatever comes after. -/
theorem readValue_deep (hdeep : depth < n) (hfuel : 2 * depth < fuel) (rest : Bytes) :
    ∃ tree, readValue fuel depth (List.replicate n 0x5B ++ rest) = (tree, none) ∧
      tree.mark? = some (.text .nesting) := by
  induction depth generalizing fuel n with
  | zero =>
    obtain ⟨n, rfl⟩ := Nat.exists_eq_add_one_of_ne_zero (Nat.ne_of_gt hdeep)
    obtain ⟨fuel, rfl⟩ := Nat.exists_eq_add_one_of_ne_zero (Nat.ne_of_gt hfuel)
    exact ⟨.arr [.broken (.text .nesting)], rfl, rfl⟩
  | succ depth ih =>
    obtain ⟨n, rfl⟩ : ∃ m, n = m + 2 := ⟨n - 2, by omega⟩
    obtain ⟨fuel, rfl⟩ : ∃ f, fuel = f + 2 := ⟨fuel - 2, by omega⟩
    have hinner : depth < n + 1 := by omega
    have hleft : 2 * depth < fuel := by omega
    obtain ⟨tree, hread, hmark⟩ := ih hinner hleft
    have hitems : readItems (fuel + 1) depth (List.replicate (n + 1) 0x5B ++ rest) =
        ([tree], none) := by
      rw [readItems, hread]
    refine ⟨.arr [tree], ?_, ?_⟩
    · have hlist := readValue_list (b := 0x5B) rfl (by decide) (fuel + 1) depth
        (List.replicate n 0x5B ++ rest)
      change readItems _ _ (0x5B :: (List.replicate n 0x5B ++ rest)) = _ at hitems
      rw [hitems] at hlist
      exact hlist
    · rw [Tree.mark?, itemsMark?, hmark]
      rfl

/-- An object whose first value cannot be read to its end is not read on. -/
theorem document_of_stuck {bs after name : Bytes} {tree : Tree}
    (hname : string? bs = some (name, 0x3A :: after))
    (hvalue : readValue (2 * bs.length + 4) depth (skipSpace after) = (tree, none)) :
    Document.read (0x7B :: 0x22 :: bs) (depth + 1) =
      ⟨.obj [(name, skipSpace after, tree)], false⟩ := by
  have hbrace : skipSpace (0x7B :: 0x22 :: bs) = 0x7B :: 0x22 :: bs := rfl
  have hquote : skipSpace (0x22 :: bs) = 0x22 :: bs := rfl
  have hcolon : skipSpace (0x3A :: after) = 0x3A :: after := rfl
  have hmembers : readMembers (2 * bs.length + 5) depth (0x22 :: bs) =
      ([(name, skipSpace after, tree)], none) := by
    simp only [readMembers, hquote, hname, hcolon, hvalue]
  have hobject : readValue (2 * bs.length + 6) (depth + 1) (0x7B :: 0x22 :: bs) =
      (.obj [(name, skipSpace after, tree)], none) := by
    rw [readValue, hbrace]
    dsimp only
    rw [if_neg (by decide), if_neg (by decide), if_pos rfl, hquote]
    split
    · next hdepth => cases hdepth
    · next heq => exact absurd (List.cons.inj heq).1 (by decide)
    · next hdepth _ =>
      cases hdepth
      rw [hmembers]
  have hfuel : 2 * (0x7B :: 0x22 :: bs).length + 2 = 2 * bs.length + 6 := by
    simp only [List.length_cons]
    omega
  rw [Document.read, hfuel, hobject]

end Deep

end LedgerClient.Json
