import Mathlib

/-! # Lists searched by key

A list of entries in order of arrival, read and changed through the first entry that has a
given key. As long as no key occurs twice this is a map that remembers its insertion order. -/
namespace KeyedList

open List

universe u v w

variable {α : Type u} {κ : Type v} [DecidableEq κ]

def lookup (key : α → κ) (k : κ) (xs : List α) : Option α := xs.find? fun x => key x = k

/-- Changes the first entry with the key and leaves all others in place. -/
def updateFirst (key : α → κ) (k : κ) (f : α → α) : List α → List α
  | [] => []
  | x :: xs => if key x = k then f x :: xs else x :: updateFirst key k f xs

def Distinct (key : α → κ) (xs : List α) : Prop := (xs.map key).Nodup

variable {key : α → κ} {k k' : κ} {f : α → α} {x : α} {xs : List α}

theorem lookup_key (h : lookup key k xs = some x) : key x = k := by
  simpa using List.find?_some h

theorem lookup_mem (h : lookup key k xs = some x) : x ∈ xs := mem_of_find?_eq_some h

theorem lookup_none : lookup key k xs = none ↔ ∀ x ∈ xs, key x ≠ k := by
  simp [lookup]

theorem lookup_isSome (h : x ∈ xs) : ∃ y, lookup key (key x) xs = some y := by
  cases hy : lookup key (key x) xs with
  | none => exact absurd rfl (lookup_none.1 hy x h)
  | some y => exact ⟨y, rfl⟩

theorem distinct_snoc (h : Distinct key xs) (hx : lookup key (key x) xs = none) :
    Distinct key (xs ++ [x]) := by
  unfold Distinct
  rw [map_append, nodup_append]
  refine ⟨h, by simp, ?_⟩
  intro a ha b hb
  obtain ⟨y, hy, rfl⟩ := mem_map.1 ha
  obtain rfl := by simpa using hb
  exact lookup_none.1 hx y hy

theorem lookup_of_mem (h : Distinct key xs) (hx : x ∈ xs) : lookup key (key x) xs = some x := by
  induction xs with
  | nil => cases hx
  | cons y _ ih =>
    obtain ⟨hy, hys⟩ := nodup_cons.1 h
    rcases mem_cons.1 hx with rfl | hx
    · simp [lookup]
    · have hne : key y ≠ key x := by
        intro he
        exact hy (he ▸ mem_map_of_mem hx)
      simpa [lookup, hne] using ih hys hx

theorem lookup_snoc (hx : lookup key k xs = none) :
    lookup key k (xs ++ [x]) = if key x = k then some x else none := by
  simp only [lookup] at hx ⊢
  rw [List.find?_append, hx]
  by_cases hk : key x = k <;> simp [hk]

theorem lookup_snoc_of_some {y : α} (hy : lookup key k xs = some y) :
    lookup key k (xs ++ [x]) = some y := by
  simp only [lookup] at hy ⊢
  rw [List.find?_append, hy]
  rfl

section

variable (hf : ∀ x, key x = k → key (f x) = k)

include hf

theorem map_key_update : (updateFirst key k f xs).map key = xs.map key := by
  induction xs with
  | nil => rfl
  | cons y _ ih =>
    unfold updateFirst
    split
    · rename_i hy
      simp [hf y hy, hy]
    · simp [ih]

theorem distinct_update (h : Distinct key xs) : Distinct key (updateFirst key k f xs) := by
  unfold Distinct
  rw [map_key_update hf]
  exact h

theorem lookup_update_self :
    lookup key k (updateFirst key k f xs) = (lookup key k xs).map f := by
  induction xs with
  | nil => rfl
  | cons y _ ih =>
    unfold updateFirst
    by_cases hy : key y = k
    · simp [lookup, hy, hf y hy]
    · simp only [lookup, hy] at ih ⊢
      simpa [hy] using ih

theorem lookup_update_ne (hk : k' ≠ k) :
    lookup key k' (updateFirst key k f xs) = lookup key k' xs := by
  induction xs with
  | nil => rfl
  | cons y _ ih =>
    unfold updateFirst
    by_cases hy : key y = k
    · have h₁ : key (f y) ≠ k' := by rw [hf y hy]; exact hk.symm
      simp [lookup, hy, h₁, hk.symm]
    · simp only [lookup, hy] at ih ⊢
      by_cases hk' : key y = k'
      · simp [hk']
      · simpa [hk'] using ih

theorem mem_update (hd : Distinct key xs)
    (hx : x ∈ updateFirst key k f xs) :
    (key x ≠ k ∧ x ∈ xs) ∨ ∃ y, lookup key k xs = some y ∧ x = f y := by
  have hl := lookup_of_mem (distinct_update hf hd) hx
  by_cases hk : key x = k
  · rw [hk, lookup_update_self hf] at hl
    obtain ⟨y, hy, he⟩ := Option.map_eq_some_iff.1 hl
    exact .inr ⟨y, hy, he.symm⟩
  · rw [lookup_update_ne hf hk] at hl
    exact .inl ⟨hk, lookup_mem hl⟩

theorem mem_update_self (hx : lookup key k xs = some x) : f x ∈ updateFirst key k f xs := by
  have hl : lookup key k (updateFirst key k f xs) = some (f x) := by
    rw [lookup_update_self hf, hx]
    rfl
  exact lookup_mem hl

theorem mem_update_ne (hd : Distinct key xs)
    (hx : x ∈ xs) (hk : key x ≠ k) : x ∈ updateFirst key k f xs := by
  have hl := lookup_of_mem hd hx
  rw [← lookup_update_ne hf hk] at hl
  exact lookup_mem hl

end

theorem lookup_perm {ys : List α} (hp : xs.Perm ys) (hd : Distinct key xs) :
    lookup key k xs = lookup key k ys := by
  have hdy : Distinct key ys := (hp.map key).nodup_iff.1 hd
  cases hx : lookup key k xs with
  | none =>
    refine (lookup_none.2 ?_).symm
    intro y hy
    exact lookup_none.1 hx y (hp.mem_iff.2 hy)
  | some =>
    have hy := lookup_of_mem hdy (hp.mem_iff.1 (lookup_mem hx))
    rw [lookup_key hx] at hy
    exact hy.symm

theorem eraseP_eq_filter (hd : Distinct key xs) :
    (xs.eraseP fun x => key x = k) = xs.filter fun x => key x ≠ k := by
  induction xs with
  | nil => rfl
  | cons x xs ih =>
    obtain ⟨hx, hxs⟩ := nodup_cons.1 hd
    by_cases hk : key x = k
    · have hrest : xs = xs.filter fun y => !decide (key y = k) := by
        symm
        rw [filter_eq_self]
        intro y hy
        have hne : key y ≠ k := by
          rintro rfl
          exact hx (hk ▸ mem_map_of_mem hy)
        simpa using hne
      simpa [hk] using hrest
    · simp [hk, ih hxs]

section Map

variable {β : Type w} {key' : β → κ} {g : α → β}

theorem lookup_map (hk : ∀ x, key' (g x) = key x) :
    lookup key' k (xs.map g) = (lookup key k xs).map g := by
  induction xs with
  | nil => rfl
  | cons y _ ih =>
    simp only [lookup] at ih ⊢
    by_cases hy : key y = k
    · simp [hk, hy]
    · simp [hk, hy, ih]

theorem updateFirst_map {f' : β → β} (hk : ∀ x, key' (g x) = key x) (hf : ∀ x, g (f x) = f' (g x)) :
    (updateFirst key k f xs).map g = updateFirst key' k f' (xs.map g) := by
  induction xs with
  | nil => rfl
  | cons y _ ih =>
    unfold updateFirst
    by_cases hy : key y = k
    · simp [hk, hy, hf]
    · simp [hk, hy, ih]

/-- What a change of the found entry keeps of it, it keeps of the whole list. -/
theorem map_update_found (hf : ∀ x, lookup key k xs = some x → g (f x) = g x) :
    (updateFirst key k f xs).map g = xs.map g := by
  induction xs with
  | nil => rfl
  | cons y _ ih =>
    unfold updateFirst
    by_cases hy : key y = k
    · have hfy : g (f y) = g y := hf y (by simp [lookup, hy])
      simp [hy, hfy]
    · have hys := ih fun x hx => hf x (by simpa [lookup, hy] using hx)
      simp [hy, hys]

theorem map_update (hf : ∀ x, g (f x) = g x) : (updateFirst key k f xs).map g = xs.map g :=
  map_update_found fun x _ => hf x

end Map

section Views

variable {β : Type w} {κ' : Type*} [DecidableEq κ'] {view : α → Option β}

/-- A change of entries of one kind changes the list of that kind in the same way. -/
theorem filterMap_update_view {key' : β → κ'} {k : κ'} {f' : β → β}
    (hf : ∀ x, view (f x) = (view x).map f') :
    (updateFirst (fun x => (view x).map key') (some k) f xs).filterMap view =
      updateFirst key' k f' (xs.filterMap view) := by
  induction xs with
  | nil => rfl
  | cons x _ ih =>
    cases hx : view x with
    | none => simp [updateFirst, hx, ih]
    | some y =>
      by_cases hy : key' y = k
      · simp [updateFirst, hf, hx, hy]
      · simp [updateFirst, hx, hy, ih]

/-- A change of entries of another kind leaves the list of a kind as it is. -/
theorem filterMap_update_of_fixed (hf : ∀ x, view (f x) = view x) :
    (updateFirst key k f xs).filterMap view = xs.filterMap view := by
  induction xs with
  | nil => rfl
  | cons x _ ih =>
    by_cases hx : key x = k
    · simp [updateFirst, hx, filterMap_cons, hf]
    · simp [updateFirst, hx, filterMap_cons, ih]

end Views

/-- A part of the list that the changed entry belongs to changes in the same way. -/
theorem filter_update {p : α → Bool} (hx : lookup key k xs = some x) (hp : p x)
    (hpf : p (f x)) :
    (updateFirst key k f xs).filter p = updateFirst key k f (xs.filter p) := by
  induction xs with
  | nil => rfl
  | cons y ys ih =>
    by_cases hy : key y = k
    · obtain rfl : y = x := by simpa [lookup, hy] using hx
      simp [updateFirst, hy, hp, hpf]
    · have hys : lookup key k ys = some x := by simpa [lookup, hy] using hx
      by_cases hpy : p y
      · simp [updateFirst, hy, hpy, ih hys]
      · simp [updateFirst, hy, hpy, ih hys]

theorem updateFirst_split (hx : lookup key k xs = some x) : ∃ before after,
    xs = before ++ x :: after ∧ updateFirst key k f xs = before ++ f x :: after := by
  induction xs with
  | nil => cases hx
  | cons y ys ih =>
    unfold updateFirst
    by_cases hy : key y = k
    · obtain rfl : y = x := by simpa [lookup, hy] using hx
      exact ⟨[], ys, rfl, if_pos hy⟩
    · obtain ⟨before, after, rfl, hsplit⟩ := ih (by simpa [lookup, hy] using hx)
      exact ⟨y :: before, after, rfl, by rw [if_neg hy, hsplit]; rfl⟩

/-- A part of the list that the changed entry does not belong to stays as it is. -/
theorem filter_update_of_not {p : α → Bool} (hx : lookup key k xs = some x)
    (hp : p x = false) (hpf : p (f x) = false) :
    (updateFirst key k f xs).filter p = xs.filter p := by
  obtain ⟨before, after, rfl, hsplit⟩ := updateFirst_split (f := f) hx
  simp [hsplit, hp, hpf]

theorem forall_update {Q : α → Prop} (h : ∀ x ∈ xs, Q x)
    (hf : ∀ y, lookup key k xs = some y → Q y → Q (f y)) : ∀ x ∈ updateFirst key k f xs, Q x := by
  induction xs with
  | nil => simp [updateFirst]
  | cons y _ ih =>
    have hy := h y (by simp)
    have hys := fun x hx => h x (mem_cons_of_mem y hx)
    unfold updateFirst
    by_cases hk : key y = k
    · have hfy : Q (f y) := hf y (by simp [lookup, hk]) hy
      simpa [hk, hfy] using hys
    · have hrest := ih hys fun z hz => hf z (by simpa [lookup, hk] using hz)
      simpa [hk, hy] using hrest

theorem updateFirst_of_none (h : lookup key k xs = none) : updateFirst key k f xs = xs := by
  rw [lookup_none] at h
  induction xs with
  | nil => rfl
  | cons _ _ ih =>
    obtain ⟨hy, hys⟩ := forall_mem_cons.1 h
    unfold updateFirst
    rw [if_neg hy, ih hys]

/-- What the changed entry gains, the whole list gains. -/
theorem flatMap_update_perm {β : Type w} {g : α → List β} {extra : List β}
    (hx : lookup key k xs = some x) (hg : (g (f x)).Perm (g x ++ extra)) :
    ((updateFirst key k f xs).flatMap g).Perm (xs.flatMap g ++ extra) := by
  obtain ⟨before, after, rfl, hsplit⟩ := updateFirst_split (f := f) hx
  rw [hsplit, flatMap_append, flatMap_cons, flatMap_append, flatMap_cons,
    append_assoc]
  refine List.Perm.append_left _ ?_
  calc (g (f x) ++ after.flatMap g).Perm (g x ++ extra ++ after.flatMap g) := hg.append_right _
    _ = g x ++ (extra ++ after.flatMap g) := append_assoc ..
    List.Perm _ (g x ++ (after.flatMap g ++ extra)) := perm_append_comm.append_left (g x)
    _ = g x ++ after.flatMap g ++ extra := (append_assoc ..).symm

/-- Two changes of the same entry are one. -/
theorem updateFirst_update {g : α → α} (hf : ∀ x, key x = k → key (f x) = k) :
    updateFirst key k g (updateFirst key k f xs) = updateFirst key k (fun x => g (f x)) xs := by
  induction xs with
  | nil => rfl
  | cons y _ ih =>
    by_cases hy : key y = k
    · simp [updateFirst, hy, hf y hy]
    · simp [updateFirst, hy, ih]

theorem sum_update {M : Type w} [AddCommMonoid M] {g : α → M} {extra : M}
    (hx : lookup key k xs = some x) (hg : g (f x) = g x + extra) :
    ((updateFirst key k f xs).map g).sum = (xs.map g).sum + extra := by
  obtain ⟨before, after, rfl, hsplit⟩ := updateFirst_split (f := f) hx
  simp only [hsplit, map_append, sum_append, map_cons, sum_cons, hg]
  rw [add_right_comm (g x), ← add_assoc]

theorem getElem?_update_ne {i : ℕ} (hx : xs[i]? = some x) (hk : key x ≠ k) :
    (updateFirst key k f xs)[i]? = some x := by
  induction xs generalizing i with
  | nil => simp at hx
  | cons y ys ih =>
    unfold updateFirst
    cases i with
    | zero =>
      obtain rfl : y = x := by simpa using hx
      simp [hk]
    | succ i =>
      have hys : ys[i]? = some x := by simpa using hx
      by_cases hy : key y = k
      · simpa [hy] using hys
      · simpa [hy] using ih hys

/-- Writing at the place of an entry is writing under its key. -/
theorem set_eq_update {y : α} {i : ℕ} (hd : Distinct key xs) (hx : xs[i]? = some x) :
    xs.set i y = updateFirst key (key x) (fun _ => y) xs := by
  induction xs generalizing i with
  | nil => simp at hx
  | cons z zs ih =>
    obtain ⟨hz, hzs⟩ := nodup_cons.1 hd
    cases i with
    | zero =>
      obtain rfl : z = x := by simpa using hx
      simp [updateFirst]
    | succ i =>
      have hxs : zs[i]? = some x := by simpa using hx
      have hne : key z ≠ key x := fun he => hz (he ▸ mem_map_of_mem (mem_of_getElem? hxs))
      rw [set_cons_succ, updateFirst, if_neg hne, ih hzs hxs]

/-- Two splits of a list at elements of one key are the same split, if no key occurs twice. -/
theorem filterMap_split_unique {α κ : Type*} {f : α → Option κ} {k : κ} {l b b' c c' : List α}
    {x y : α} (h : (l.filterMap f).Nodup) (hb : l = b ++ x :: b') (hc : l = c ++ y :: c')
    (hx : f x = some k) (hy : f y = some k) : b = c ∧ x = y ∧ b' = c' := by
  -- a key between the two splits would occur a second time
  have apart {u d v : List α} {p q : α} (hl : l = u ++ p :: (d ++ q :: v)) (hp : f p = some k)
      (hq : f q = some k) : False := by
    rw [hl] at h
    simp only [filterMap_append, filterMap_cons, hp, hq] at h
    have hrest := (nodup_append.1 h).2.1
    exact (nodup_cons.1 hrest).1 (by simp)
  rcases append_eq_append_iff.1 (hb.symm.trans hc) with ⟨d, rfl, hd⟩ | ⟨d, rfl, hd⟩
  · cases d with
    | nil =>
      obtain ⟨rfl, rfl⟩ := List.cons.inj hd
      exact ⟨by simp, rfl, rfl⟩
    | cons =>
      obtain ⟨rfl, rfl⟩ := List.cons.inj hd
      exact (apart hb hx hy).elim
  · cases d with
    | nil =>
      obtain ⟨rfl, rfl⟩ := List.cons.inj hd
      exact ⟨by simp, rfl, rfl⟩
    | cons =>
      obtain ⟨rfl, rfl⟩ := List.cons.inj hd
      exact (apart hc hy hx).elim

end KeyedList
