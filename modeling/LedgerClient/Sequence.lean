/-!
# Positions from either end

A position in a list is a whole number: from zero on it counts from the front, and a negative one
counts back from the end. A stretch between two positions is cut to the list, so it may be
shorter than the distance of its ends.

## Main definitions

* `Sequence.at?`: the member at a position
* `Sequence.between`: the members from one position up to another

## Main results

* `Sequence.between_append_append`: what stands between the ends of a part is the part
-/

namespace LedgerClient.Sequence

variable {α : Type}

/-- The member at a position, counted back from the end if negative. -/
def at? (xs : List α) (i : Int) : Option α :=
  if 0 ≤ i then xs[i.toNat]?
  else if 0 ≤ i + xs.length then xs[(i + xs.length).toNat]? else none

/-- A position as a count of members before it, cut to the list. -/
def bound (xs : List α) (i : Int) : Nat :=
  if 0 ≤ i then min i.toNat xs.length else (i + xs.length).toNat

/-- The members from position `i` up to position `j`. -/
def between (xs : List α) (i j : Int) : List α :=
  (xs.drop (bound xs i)).take (bound xs j - bound xs i)

theorem between_append_append (before xs after : List α) :
    between (before ++ (xs ++ after)) before.length (before.length + xs.length) = xs := by
  have hfirst : bound (before ++ (xs ++ after)) before.length = before.length := by
    rw [bound, if_pos (by omega)]
    simp
  have hsecond : bound (before ++ (xs ++ after)) (before.length + xs.length) =
      before.length + xs.length := by
    rw [bound, if_pos (by omega)]
    simp only [List.length_append]
    omega
  rw [between, hfirst, hsecond, List.drop_left' rfl, Nat.add_sub_cancel_left, List.take_left' rfl]

end LedgerClient.Sequence
