/-!
# Keyed lists

A keyed list holds members that have a key each, in the order in which their keys first came. A
member that is put takes the place of the member of its key; a member of a new key goes to the
end.

## Main definitions

* `Keyed.put`, `Keyed.putAll`: a member put, and members put one after the other
* `Keyed.find?`, `Keyed.without`: the member of a key, and the members of the others

## Main results

* `Keyed.find?_put`: the member that was put is the one of its key, and no other key changes
* `Keyed.map_put`: the keys stay where they are, and a new one goes to the end
-/

namespace LedgerClient.Keyed

variable {α κ : Type} [DecidableEq κ]

/-- The list with a member in the place of the one of its key, or at the end. -/
def put (key : α → κ) (x : α) : List α → List α
  | [] => [x]
  | y :: ys => if key y = key x then x :: ys else y :: put key x ys

/-- The list with members put one after the other, so that of one key the last counts. -/
def putAll (key : α → κ) (xs ys : List α) : List α :=
  xs.foldl (fun zs x => put key x zs) ys

/-- The first member of a key. -/
def find? (key : α → κ) (k : κ) (xs : List α) : Option α :=
  xs.find? fun x => key x = k

/-- The members of other keys. -/
def without (key : α → κ) (k : κ) (xs : List α) : List α :=
  xs.filter fun x => key x ≠ k

theorem find?_put (key : α → κ) (x : α) (xs : List α) (k : κ) :
    find? key k (put key x xs) = if key x = k then some x else find? key k xs := by
  induction xs with
  | nil => by_cases h : key x = k <;> simp [put, find?, h]
  | cons y ys ih =>
    simp only [find?] at ih ⊢
    by_cases hy : key y = key x
    · by_cases h : key x = k <;> simp [put, hy, h]
    · rw [put, if_neg hy, List.find?_cons, List.find?_cons, ih]
      by_cases hk : key y = k
      · simp [hk, show ¬ key x = k from fun h => hy (hk.trans h.symm)]
      · simp [hk]

theorem map_put (key : α → κ) (x : α) (xs : List α) :
    (put key x xs).map key =
      if key x ∈ xs.map key then xs.map key else xs.map key ++ [key x] := by
  induction xs with
  | nil => simp [put]
  | cons y ys ih =>
    by_cases hy : key y = key x
    · simp [put, hy]
    · have hx : ¬ key x = key y := fun h => hy h.symm
      by_cases hm : key x ∈ ys.map key <;> simp_all [put]

@[simp] theorem find?_without (key : α → κ) (k : κ) (xs : List α) :
    find? key k (without key k xs) = none := by
  simp [find?, without]

end LedgerClient.Keyed
