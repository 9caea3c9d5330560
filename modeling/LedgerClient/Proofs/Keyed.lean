import LedgerClient.Keyed

/-!
# Members put one after the other

Of the members that are put one after the other, the last one of each key is left, and it stands
where the first one of its key was put. Both facts are inductions on the members that are still to
be put, for any list that they are put into.

## Main results

* `Keyed.nodup_putAll`: no key is left twice
* `Keyed.mem_putAll`: of the members of one key the last counts
* `Keyed.map_putAll`: a key stands where it first came
-/

namespace LedgerClient.Keyed

variable {α κ : Type} [DecidableEq κ]

/-- What is put stands in the place of the member of its key; the other members stay. -/
theorem mem_put {key : α → κ} {x y : α} {xs : List α} (h : (xs.map key).Nodup) :
    y ∈ put key x xs ↔ y = x ∨ y ∈ xs ∧ key y ≠ key x := by
  induction xs with
  | nil => simp [put]
  | cons z zs ih =>
    obtain ⟨hz, hzs⟩ := List.nodup_cons.mp (List.map_cons ▸ h)
    rw [put]
    split
    · next heq =>
      have hne : y ∈ zs → key y ≠ key x := fun hy hkey =>
        hz (heq ▸ hkey ▸ List.mem_map_of_mem hy)
      rw [List.mem_cons, List.mem_cons]
      constructor
      · rintro (rfl | hy)
        · exact .inl rfl
        · exact .inr ⟨.inr hy, hne hy⟩
      · rintro (rfl | ⟨rfl | hy, hkey⟩)
        · exact .inl rfl
        · exact absurd heq hkey
        · exact .inr hy
    · next hne =>
      rw [List.mem_cons, List.mem_cons, ih hzs]
      constructor
      · rintro (rfl | rfl | ⟨hy, hkey⟩)
        · exact .inr ⟨.inl rfl, hne⟩
        · exact .inl rfl
        · exact .inr ⟨.inr hy, hkey⟩
      · rintro (rfl | ⟨rfl | hy, hkey⟩)
        · exact .inr (.inl rfl)
        · exact .inl rfl
        · exact .inr (.inr ⟨hy, hkey⟩)

theorem nodup_map_put {key : α → κ} {x : α} {xs : List α} (h : (xs.map key).Nodup) :
    ((put key x xs).map key).Nodup := by
  rw [map_put]
  split
  · exact h
  · next hnew =>
    refine List.nodup_append.mpr ⟨h, List.pairwise_singleton _ _, fun a ha b hb heq => hnew ?_⟩
    rwa [← List.mem_singleton.mp hb, ← heq]

/-- Members put one after the other leave no key twice. -/
theorem nodup_putAll {key : α → κ} {xs ys : List α} (h : (ys.map key).Nodup) :
    ((putAll key xs ys).map key).Nodup := by
  induction xs generalizing ys with
  | nil => exact h
  | cons x xs ih => exact ih (nodup_map_put h)

/-- **Of the members of one key the last counts.** -/
theorem mem_putAll {key : α → κ} {y : α} {xs ys : List α} (h : (ys.map key).Nodup) :
    y ∈ putAll key xs ys ↔ (∃ before after, xs = before ++ y :: after ∧
      ∀ z ∈ after, key z ≠ key y) ∨ y ∈ ys ∧ ∀ z ∈ xs, key z ≠ key y := by
  induction xs generalizing ys with
  | nil => simp [putAll]
  | cons x xs ih =>
    rw [putAll, List.foldl_cons, ← putAll, ih (nodup_map_put h), mem_put h]
    constructor
    · rintro (⟨before, after, rfl, hlast⟩ | ⟨rfl | ⟨hy, hkey⟩, hlast⟩)
      · exact .inl ⟨x :: before, after, rfl, hlast⟩
      · exact .inl ⟨[], xs, rfl, hlast⟩
      · exact .inr ⟨hy, List.forall_mem_cons.mpr ⟨hkey.symm, hlast⟩⟩
    · rintro (⟨before, after, heq, hlast⟩ | ⟨hy, hlast⟩)
      · cases before with
        | nil =>
          cases heq
          exact .inr ⟨.inl rfl, hlast⟩
        | cons b before =>
          cases heq
          exact .inl ⟨before, after, rfl, hlast⟩
      · obtain ⟨hkey, hlast⟩ := List.forall_mem_cons.mp hlast
        exact .inr ⟨.inr ⟨hy, hkey.symm⟩, hlast⟩

/-- **A key stands where it first came.** -/
theorem map_putAll (key : α → κ) (xs ys : List α) : (putAll key xs ys).map key =
    ys.map key ++ ((xs.map key).removeAll (ys.map key)).eraseDups := by
  induction xs generalizing ys with
  | nil => simp [putAll]
  | cons x xs ih =>
    rw [putAll, List.foldl_cons, ← putAll, ih, map_put, List.map_cons, List.cons_removeAll]
    by_cases hx : key x ∈ ys.map key
    · -- A known key keeps its place, and it counts neither as a new one now nor later.
      have hcontains : (ys.map key).contains (key x) = true := List.contains_iff_mem.mpr hx
      rw [if_pos hx, hcontains]
      rfl
    · -- A new key goes to the end; what is put later under this key comes too late.
      have hcontains : (ys.map key).contains (key x) = false := by
        rw [← Bool.not_eq_true, List.contains_iff_mem]
        exact hx
      have hrest : (xs.map key).removeAll (ys.map key ++ [key x]) =
          ((xs.map key).removeAll (ys.map key)).filter fun k => !k == key x := by
        rw [List.removeAll, List.removeAll, List.filter_filter]
        refine List.filter_congr fun k _ => ?_
        rw [Bool.eq_iff_iff]
        simp [and_comm]
      rw [if_neg hx, if_pos hcontains, List.eraseDups_cons, hrest, List.append_assoc]
      rfl

end LedgerClient.Keyed
