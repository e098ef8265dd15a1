import AiForge.KeyedList

/-! # Records that can be withdrawn

Entries are recorded under a key and later closed in place, never removed. `Tracks` compares
such a list with its history: what was recorded, in order, and which keys were withdrawn. -/
namespace Revocable

open KeyedList List

universe u v

variable {α : Type u} {κ : Type v} [DecidableEq κ]

structure Tracks (key : α → κ) (close : α → α) (recorded : List α) (withdrawn : List κ)
    (entries : List α) : Prop where
  distinct : Distinct key recorded
  known : ∀ k ∈ withdrawn, ∃ x ∈ recorded, key x = k
  entries_eq : entries = recorded.map fun x => if key x ∈ withdrawn then close x else x

variable {key : α → κ} {close : α → α} {recorded entries : List α} {withdrawn : List κ}
  {k : κ} {x : α}

theorem tracks_nil : Tracks key close [] [] [] := by
  refine ⟨nodup_nil, ?_, rfl⟩
  intro k hk
  cases hk

theorem updateFirst_eq_map {f : α → α} {xs : List α} (hd : Distinct key xs) :
    updateFirst key k f xs = xs.map fun x => if key x = k then f x else x := by
  induction xs with
  | nil => rfl
  | cons y ys ih =>
    obtain ⟨hy, hys⟩ := nodup_cons.1 hd
    unfold updateFirst
    by_cases hk : key y = k
    · have hrest : ys.map (fun x => if key x = k then f x else x) = ys := by
        rw [map_congr_left (g := id) ?_, map_id]
        intro z hz
        have hne : key z ≠ k := fun he => hy (hk.trans he.symm ▸ mem_map_of_mem hz)
        simp [hne]
      simp [hk, hrest]
    · simp [hk, ih hys]

section Rules

variable (hkey : ∀ x, key (close x) = key x)

include hkey

theorem Tracks.map_key (h : Tracks key close recorded withdrawn entries) :
    entries.map key = recorded.map key := by
  rw [h.entries_eq, map_map]
  refine map_congr_left ?_
  intro x _
  by_cases hw : key x ∈ withdrawn <;> simp [hw, hkey]

theorem Tracks.record (h : Tracks key close recorded withdrawn entries)
    (hx : lookup key (key x) entries = none) :
    Tracks key close (recorded ++ [x]) withdrawn (entries ++ [x]) := by
  have hnew : ∀ y ∈ recorded, key y ≠ key x := by
    intro y hy he
    have hmem : key y ∈ entries.map key := h.map_key hkey ▸ mem_map_of_mem hy
    obtain ⟨z, hz, hzy⟩ := mem_map.1 hmem
    exact lookup_none.1 hx z hz (hzy.trans he)
  have hopen : key x ∉ withdrawn := by
    intro hw
    obtain ⟨y, hy, he⟩ := h.known _ hw
    exact hnew y hy he
  refine ⟨distinct_snoc h.distinct (lookup_none.2 hnew), ?_, ?_⟩
  · intro k hk
    obtain ⟨y, hy, he⟩ := h.known k hk
    exact ⟨y, mem_append_left _ hy, he⟩
  · rw [map_append, ← h.entries_eq]
    simp [hopen]

theorem Tracks.withdraw (hidem : ∀ x, close (close x) = close x)
    (h : Tracks key close recorded withdrawn entries) (hx : lookup key k entries = some x) :
    Tracks key close recorded (withdrawn ++ [k]) (updateFirst key k close entries) := by
  have hmem : k ∈ recorded.map key := by
    rw [← h.map_key hkey, ← lookup_key hx]
    exact mem_map_of_mem (lookup_mem hx)
  have hdist : Distinct key entries := by
    have hd := h.distinct
    unfold Distinct at hd ⊢
    rwa [h.map_key hkey]
  refine ⟨h.distinct, ?_, ?_⟩
  · intro k' hk'
    rcases mem_append.1 hk' with hk' | hk'
    · exact h.known k' hk'
    · obtain rfl := mem_singleton.1 hk'
      exact mem_map.1 hmem
  · rw [updateFirst_eq_map hdist, h.entries_eq, map_map]
    refine map_congr_left ?_
    intro y _
    by_cases hk : key y = k
    · by_cases hw : key y ∈ withdrawn <;> simp [hw, hkey, hidem]
    · by_cases hw : key y ∈ withdrawn <;> simp [hw, hk, hkey]

end Rules

/-- The entries still open are the recorded ones whose key was not withdrawn. -/
theorem Tracks.filter_open {p : α → Bool} (h : Tracks key close recorded withdrawn entries)
    (hopen : ∀ x ∈ recorded, p x) (hclose : ∀ x, p (close x) = false) :
    entries.filter p = recorded.filter fun x => key x ∉ withdrawn := by
  rw [h.entries_eq]
  clear h
  induction recorded with
  | nil => rfl
  | cons y _ ih =>
    have hys := ih fun x hx => hopen x (mem_cons_of_mem y hx)
    by_cases hw : key y ∈ withdrawn
    · simpa [hw, hclose] using hys
    · simpa [hw, hopen y] using hys

end Revocable
