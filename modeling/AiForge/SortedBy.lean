import Mathlib

/-! # Lists sorted by a key

Sorting by a key that no two entries share leaves no choice: the result depends on which
entries there are and not on the order they came in. -/
namespace SortedBy

universe u v

variable {α : Type u} {κ : Type v} [LinearOrder κ]

def sortBy (key : α → κ) (xs : List α) : List α := xs.insertionSort fun a b => key a ≤ key b

variable {key : α → κ} {xs ys : List α}

theorem sortBy_perm (key : α → κ) (xs : List α) : (sortBy key xs).Perm xs :=
  List.perm_insertionSort _ xs

theorem mem_sortBy {x : α} : x ∈ sortBy key xs ↔ x ∈ xs := (sortBy_perm key xs).mem_iff

theorem sortBy_sorted (key : α → κ) (xs : List α) :
    (sortBy key xs).Pairwise fun a b => key a ≤ key b := by
  have : Std.Total fun a b : α => key a ≤ key b := ⟨fun a b => le_total _ _⟩
  have : IsTrans α fun a b => key a ≤ key b := ⟨fun _ _ _ => le_trans⟩
  exact List.pairwise_insertionSort _ xs

/-- A sorted list is the only sorted arrangement of its entries. -/
theorem eq_of_perm_sorted (hp : xs.Perm ys) (hinj : (xs.map key).Nodup)
    (hx : xs.Pairwise fun a b => key a ≤ key b) (hy : ys.Pairwise fun a b => key a ≤ key b) :
    xs = ys := by
  refine List.Perm.eq_of_pairwise (fun a b ha hb hab hba => ?_) hx hy hp
  exact List.inj_on_of_nodup_map hinj ha (hp.mem_iff.2 hb) (le_antisymm hab hba)

theorem nodup_map_sortBy (hinj : (xs.map key).Nodup) : ((sortBy key xs).map key).Nodup :=
  ((sortBy_perm key xs).map key).nodup_iff.2 hinj

theorem sortBy_eq_of_perm (hp : xs.Perm ys) (hinj : (xs.map key).Nodup) :
    sortBy key xs = sortBy key ys := by
  refine eq_of_perm_sorted ?_ (nodup_map_sortBy hinj) (sortBy_sorted key xs) (sortBy_sorted key ys)
  exact ((sortBy_perm key xs).trans hp).trans (sortBy_perm key ys).symm

/-- Choosing before or after sorting is the same. -/
theorem filter_sortBy (p : α → Bool) (hinj : (xs.map key).Nodup) :
    (sortBy key xs).filter p = sortBy key (xs.filter p) := by
  refine eq_of_perm_sorted ?_ ?_ ((sortBy_sorted key xs).filter p) (sortBy_sorted key _)
  · exact ((sortBy_perm key xs).filter p).trans (sortBy_perm key (xs.filter p)).symm
  · exact (nodup_map_sortBy hinj).sublist (List.filter_sublist.map key)

/-- Entries that come before all others stand at the head of the list. -/
theorem eq_filter_append {p : α → Bool} (h : xs.Pairwise fun a b => p b = true → p a = true) :
    xs = xs.filter p ++ xs.filter fun a => !p a := by
  induction xs with
  | nil => rfl
  | cons x xs ih =>
    obtain ⟨hx, hxs⟩ := List.pairwise_cons.1 h
    by_cases hp : p x
    · simpa [hp] using ih hxs
    · have hnone : xs.filter p = [] := by
        rw [List.filter_eq_nil_iff]
        intro y hy hpy
        exact hp (hx y hy hpy)
      have hall : (xs.filter fun a => !p a) = xs := by
        have hrest := ih hxs
        rw [hnone] at hrest
        exact hrest.symm
      simp [hp, hnone, hall]

end SortedBy
