import Mathlib

/-! # Staged computations

A computation that checks its conditions one after another and stops at the first that fails. -/
namespace Staged

open List

universe u

variable {σ ε α β : Type u}

section Guards

variable {m : Type u → Type u} [Monad m] [MonadExcept ε m]

def ensure (c : Prop) [Decidable c] (err : ε) : m PUnit := if c then pure ⟨⟩ else throw err

def require (value : Option α) (err : ε) : m α :=
  match value with
  | some a => pure a
  | none => throw err

def onlyIf (c : Prop) [Decidable c] (action : m PUnit) : m PUnit :=
  if c then action else pure ⟨⟩

end Guards

theorem bind_ok {ε α β : Type u} {x : Except ε α} {f : α → Except ε β} {b : β} :
    (x >>= f) = .ok b ↔ ∃ a, x = .ok a ∧ f a = .ok b := by
  cases x <;> simp [bind, Except.bind]

theorem ok_bind {ε α β : Type u} {a : α} {f : α → Except ε β} :
    ((.ok a : Except ε α) >>= f) = f a := rfl

/-- What comes after a step that nothing is taken from. -/
theorem later {ε α β : Type u} {x : Except ε α} {rest : Except ε β} {b : β}
    (h : (do let _ ← x; rest) = .ok b) : rest = .ok b := by
  obtain ⟨_, -, hrest⟩ := bind_ok.1 h
  exact hrest

theorem ensure_ok {ε : Type u} {c : Prop} [Decidable c] {err : ε} {a : PUnit} :
    (ensure c err : Except ε PUnit) = .ok a ↔ c := by
  unfold ensure
  split
  · rename_i hc
    exact iff_of_true rfl hc
  · rename_i hc
    exact iff_of_false nofun hc

/-- One guard and what it lets through. -/
theorem guarded {ε α : Type u} {c : Prop} [Decidable c] {err : ε} {rest : Except ε α} {value : α}
    (h : (do ensure c err; rest) = .ok value) : c ∧ rest = .ok value := by
  obtain ⟨_, hc, hrest⟩ := bind_ok.1 h
  exact ⟨ensure_ok.1 hc, hrest⟩

theorem ensured {ε α : Type u} {c : Prop} [Decidable c] {err : ε} {rest : Except ε α} {value : α}
    (hc : c) (hrest : rest = .ok value) : (do ensure c err; rest) = .ok value :=
  bind_ok.2 ⟨⟨⟩, ensure_ok.2 hc, hrest⟩

theorem require_ok {ε α : Type u} {value : Option α} {err : ε} {a : α} :
    (require value err : Except ε α) = .ok a ↔ value = some a := by
  cases value <;> simp [require, pure, Except.pure, throw, throwThe, MonadExceptOf.throw]

theorem map_ok {ε α β : Type} {f : α → β} {x : Except ε α} {b : β} :
    x.map f = .ok b ↔ ∃ a, x = .ok a ∧ f a = b := by
  cases x with
  | error | ok => simp [Except.map]

theorem map_error {ε α β : Type} {f : α → β} {x : Except ε α} {err : ε} :
    x.map f = .error err ↔ x = .error err := by
  cases x with
  | error => simp [Except.map]
  | ok => exact iff_of_false nofun nofun

theorem mapError_ok {ε δ α : Type} {f : ε → δ} {x : Except ε α} {a : α} :
    x.mapError f = .ok a ↔ x = .ok a := by
  cases x with
  | ok => simp [Except.mapError]
  | error => exact iff_of_false nofun nofun

theorem isOk_iff {ε α : Type} {result : Except ε α} :
    result.isOk ↔ ∃ answer, result = .ok answer := by
  cases result with
  | error =>
    constructor
    · intro h
      cases h
    · rintro ⟨answer, h⟩
      cases h
  | ok answer => exact ⟨fun _ => ⟨answer, rfl⟩, fun _ => rfl⟩

theorem map_bind {ε α β γ : Type} {x : Except ε α} {r : α → β} {f : β → Except ε γ} :
    (x.map r >>= f) = (x >>= fun a => f (r a)) := by
  cases x <;> rfl

theorem bind_map {ε α β γ : Type} {x : Except ε α} {f : α → Except ε β} {g : α → Except ε γ}
    {r : β → γ} (h : ∀ a, g a = (f a).map r) : (x >>= g) = (x >>= f).map r := by
  cases x with
  | error => rfl
  | ok a => exact h a

theorem mapM_eq_ok {ε α β : Type} {f : α → Except ε β} {xs : List α} {ys : List β} :
    xs.mapM f = .ok ys ↔ List.Forall₂ (fun x y => f x = .ok y) xs ys := by
  induction xs generalizing ys with
  | nil =>
    constructor
    · intro h
      cases h
      exact .nil
    · rintro ⟨⟩
      rfl
  | cons _ _ ih =>
    rw [mapM_cons]
    constructor
    · intro h
      obtain ⟨y, hy, h⟩ := bind_ok.1 h
      obtain ⟨_, hrest, h⟩ := bind_ok.1 h
      cases h
      exact .cons hy (ih.1 hrest)
    · rintro (_ | ⟨hy, hrest⟩)
      rw [hy, ih.2 hrest]
      rfl

theorem mapM_map {ε α β : Type} {f : α → Except ε β} {g : α → β} {xs : List α}
    (h : ∀ x ∈ xs, f x = .ok (g x)) : xs.mapM f = .ok (xs.map g) :=
  mapM_eq_ok.2 (forall₂_map_right_iff.2 (forall₂_same.2 h))

theorem exists_mapM {ε α β : Type} {f : α → Except ε β} {xs : List α}
    (h : ∀ x ∈ xs, ∃ y, f x = .ok y) : ∃ ys, xs.mapM f = .ok ys := by
  induction xs with
  | nil => exact ⟨[], rfl⟩
  | cons _ _ ih =>
    obtain ⟨⟨y, hy⟩, hxs⟩ := forall_mem_cons.1 h
    obtain ⟨ys, hrest⟩ := ih hxs
    exact ⟨y :: ys, mapM_eq_ok.2 (.cons hy (mapM_eq_ok.1 hrest))⟩

/-- What was written value by value is read back value by value. -/
theorem mapM_reads {ε δ α β : Type} {write : α → Except ε β} {read : β → Except δ α} {xs : List α}
    {ys : List β} (h : xs.mapM write = .ok ys)
    (hread : ∀ x ∈ xs, ∀ y, write x = .ok y → read y = .ok x) : ys.mapM read = .ok xs := by
  have hwritten := mapM_eq_ok.1 h
  rw [mapM_eq_ok]
  clear h
  induction hwritten with
  | nil => exact .nil
  | cons hfst _ ih =>
    obtain ⟨hx, hxs⟩ := forall_mem_cons.1 hread
    exact .cons (hx _ hfst) (ih hxs)

theorem mapM_toOption {ε α β : Type} {f : α → Except ε β} {xs : List α} {ys : List β}
    (h : (xs.mapM fun x => (f x).toOption) = some ys) : xs.mapM f = .ok ys := by
  rw [mapM_eq_ok]
  induction xs generalizing ys with
  | nil =>
    cases h
    exact .nil
  | cons x _ ih =>
    rw [mapM_cons] at h
    obtain ⟨y, hy, h⟩ := Option.bind_eq_some_iff.1 h
    obtain ⟨_, hrest, h⟩ := Option.bind_eq_some_iff.1 h
    cases h
    refine .cons ?_ (ih hrest)
    cases hx : f x with
    | error =>
      rw [hx] at hy
      cases hy
    | ok =>
      rw [hx] at hy
      cases hy
      rfl

theorem forM_ok {ε α : Type} {check : α → Except ε Unit} {xs : List α} {u : Unit} :
    xs.forM check = .ok u ↔ ∀ x ∈ xs, check x = .ok () := by
  induction xs with
  | nil =>
    constructor
    · intro _ x hx
      cases hx
    · intro _
      rfl
  | cons x xs ih =>
    have hcons : (x :: xs).forM check = (check x >>= fun _ => xs.forM check) := rfl
    rw [hcons, forall_mem_cons, bind_ok]
    constructor
    · rintro ⟨_, hx, hxs⟩
      exact ⟨hx, ih.1 hxs⟩
    · rintro ⟨hx, hxs⟩
      exact ⟨(), hx, ih.2 hxs⟩

theorem foldlM_cons_ok {ε β : Type u} {α : Type*} {f : β → α → Except ε β} {b c : β}
    {a : α} {as : List α} :
    (a :: as).foldlM f b = .ok c ↔ ∃ d, f b a = .ok d ∧ as.foldlM f d = .ok c := by
  rw [foldlM_cons]
  exact bind_ok

theorem foldlM_append_ok {ε β : Type u} {α : Type*} {f : β → α → Except ε β} {b c : β}
    {xs ys : List α} :
    (xs ++ ys).foldlM f b = .ok c ↔ ∃ d, xs.foldlM f b = .ok d ∧ ys.foldlM f d = .ok c := by
  rw [foldlM_append]
  exact bind_ok

/-- A loop keeps what each of its rounds keeps aside. -/
theorem foldlM_map {ε α β : Type} {f : β → α → Except ε β} {r : β → β}
    (step : ∀ b a, f (r b) a = (f b a).map r) (xs : List α) (b : β) :
    xs.foldlM f (r b) = (xs.foldlM f b).map r := by
  induction xs generalizing b with
  | nil => rfl
  | cons _ _ ih =>
    rw [foldlM_cons, foldlM_cons, step, map_bind]
    exact bind_map ih

/-- A loop that runs to its end keeps what each of its rounds keeps. -/
theorem foldlM_keeps {ε β : Type u} {α : Type*} {I : β → Prop} {f : β → α → Except ε β} {b c : β}
    {xs : List α} (step : ∀ a ∈ xs, ∀ b c, I b → f b a = .ok c → I c) (hb : I b)
    (h : xs.foldlM f b = .ok c) : I c := by
  induction xs generalizing b with
  | nil =>
    cases h
    exact hb
  | cons x _ ih =>
    obtain ⟨d, hx, hrest⟩ := foldlM_cons_ok.1 h
    refine ih ?_ (step x mem_cons_self b d hb hx) hrest
    intro a ha
    exact step a (mem_cons_of_mem _ ha)

/-- The error a loop stops with is one of its rounds'. -/
theorem foldlM_error {ε β : Type u} {α : Type*} {P : ε → Prop} {f : β → α → Except ε β}
    (step : ∀ b a err, f b a = .error err → P err) {xs : List α} {b : β} {err : ε}
    (h : xs.foldlM f b = .error err) : P err := by
  induction xs generalizing b with
  | nil => cases h
  | cons x _ ih =>
    rw [foldlM_cons] at h
    cases hx : f b x with
    | error =>
      rw [hx] at h
      obtain rfl := Except.error.inj h
      exact step b x _ hx
    | ok =>
      rw [hx] at h
      exact ih h

/-- A loop that checks every element before it goes on has checked them all. -/
theorem forall_of_foldlM {ε β : Type u} {α : Type*} {f : β → α → Except ε β} {p : α → Prop}
    (hf : ∀ b a c, f b a = .ok c → p a) {xs : List α} {b c : β} (h : xs.foldlM f b = .ok c) :
    ∀ x ∈ xs, p x := by
  induction xs generalizing b with
  | nil =>
    intro x hx
    cases hx
  | cons _ _ ih =>
    obtain ⟨_, hstep, hrest⟩ := foldlM_cons_ok.1 h
    intro x hx
    rcases mem_cons.1 hx with rfl | hx
    · exact hf _ _ _ hstep
    · exact ih hrest x hx

/-- A loop follows another one over the same list when each of its rounds does. The relation
may speak about the rounds still to come. -/
theorem foldlM_simulates {ε δ β γ : Type u} {α : Type*} {R : List α → β → γ → Prop}
    {f : β → α → Except ε β} {g : γ → α → Except δ γ} {b b' : β} {c : γ} {xs : List α}
    (step : ∀ a as b c d, R (a :: as) b c → f b a = .ok d → ∃ e, g c a = .ok e ∧ R as d e)
    (hr : R xs b c) (h : xs.foldlM f b = .ok b') : ∃ c', xs.foldlM g c = .ok c' ∧ R [] b' c' := by
  induction xs generalizing b c with
  | nil =>
    cases h
    exact ⟨c, rfl, hr⟩
  | cons x xs ih =>
    obtain ⟨d, hx, hrest⟩ := foldlM_cons_ok.1 h
    obtain ⟨e, hy, hde⟩ := step x xs b c d hr hx
    obtain ⟨c', hys, hr'⟩ := ih hde hrest
    exact ⟨c', foldlM_cons_ok.2 ⟨e, hy, hys⟩, hr'⟩

/-- A fold that answers in every round answers what the plain fold does. -/
theorem foldlM_some {α β : Type*} {I : β → Prop} {f : β → α → Option β} {g : β → α → β}
    {xs : List α} (step : ∀ x ∈ xs, ∀ b, I b → f b x = some (g b x) ∧ I (g b x)) {b : β}
    (hb : I b) : xs.foldlM f b = some (xs.foldl g b) ∧ I (xs.foldl g b) := by
  induction xs generalizing b with
  | nil => exact ⟨rfl, hb⟩
  | cons x _ ih =>
    obtain ⟨hf, hi⟩ := step x (by simp) b hb
    rw [foldlM_cons, hf]
    exact ih (fun y hy => step y (by simp [hy])) hi

/-- A loop whose rounds can change places up to a relation ends in related states on a
rearranged list. -/
theorem foldlM_related {ε β : Type u} {α : Type*} {f : β → α → Except ε β} {R : β → β → Prop}
    (hrefl : ∀ s, R s s) (htrans : ∀ {s t u}, R s t → R t u → R s u)
    (hcongr : ∀ a {s s' t}, R s s' → f s a = .ok t → ∃ t', f s' a = .ok t' ∧ R t t')
    (hswap : ∀ a b {s t u}, f s a = .ok t → f t b = .ok u →
      ∃ t' u', f s b = .ok t' ∧ f t' a = .ok u' ∧ R u u')
    {xs ys : List α} (hp : xs.Perm ys) {s t : β} (h : xs.foldlM f s = .ok t) :
    ∃ t', ys.foldlM f s = .ok t' ∧ R t t' := by
  induction hp generalizing s t with
  | nil => exact ⟨t, h, hrefl t⟩
  | cons _ _ ih =>
    obtain ⟨_, hx, hrest⟩ := foldlM_cons_ok.1 h
    obtain ⟨t', hrest', ht⟩ := ih hrest
    exact ⟨t', foldlM_cons_ok.2 ⟨_, hx, hrest'⟩, ht⟩
  | swap x y rest =>
    obtain ⟨_, hy, hrest⟩ := foldlM_cons_ok.1 h
    obtain ⟨_, hx, hrest⟩ := foldlM_cons_ok.1 hrest
    obtain ⟨_, _, hx', hy', hsame⟩ := hswap y x hy hx
    have hrun : ∃ t', rest.foldlM f _ = .ok t' ∧ R t t' :=
      foldlM_simulates (R := fun _ s t => R s t) (fun a _ _ _ _ hs hstep => hcongr a hs hstep)
        hsame hrest
    obtain ⟨t', hrest', ht⟩ := hrun
    exact ⟨t', foldlM_cons_ok.2 ⟨_, hx', foldlM_cons_ok.2 ⟨_, hy', hrest'⟩⟩, ht⟩
  | trans _ _ ih₁ ih₂ =>
    obtain ⟨_, h₁, ht₁⟩ := ih₁ h
    obtain ⟨t', h₂, ht₂⟩ := ih₂ h₁
    exact ⟨t', h₂, htrans ht₁ ht₂⟩

/-- A loop whose rounds can change places ends the same way on a rearranged list. -/
theorem foldlM_perm {ε β : Type u} {α : Type*} {f : β → α → Except ε β}
    (swap : ∀ a b s t u, f s a = .ok t → f t b = .ok u → ∃ v, f s b = .ok v ∧ f v a = .ok u)
    {xs ys : List α} (hp : xs.Perm ys) {s t : β} (h : xs.foldlM f s = .ok t) :
    ys.foldlM f s = .ok t := by
  have hswap : ∀ a b {s t u}, f s a = .ok t → f t b = .ok u →
      ∃ t' u', f s b = .ok t' ∧ f t' a = .ok u' ∧ u = u' := by
    intro a b s t u hfst hsnd
    obtain ⟨v, hv, hu⟩ := swap a b s t u hfst hsnd
    exact ⟨v, u, hv, hu, rfl⟩
  obtain ⟨_, hys, rfl⟩ := foldlM_related (fun _ => rfl) Eq.trans
    (fun _ _ _ t hs hstep => ⟨t, hs ▸ hstep, rfl⟩) hswap hp h
  exact hys

/-- A view that only the rounds of one shard can change is a fold over them. -/
theorem foldlM_shard {ε β γ : Type u} {α κ : Type*} [DecidableEq κ] {I : β → Prop}
    {f : β → α → Except ε β} {shard : α → κ} {k : κ} {view : β → γ} {step : γ → α → γ} {xs : List α}
    (hstep : ∀ a ∈ xs, ∀ b c, I b → f b a = .ok c →
      I c ∧ view c = if shard a = k then step (view b) a else view b)
    {b c : β} (hb : I b) (h : xs.foldlM f b = .ok c) :
    view c = (xs.filter fun a => shard a = k).foldl step (view b) := by
  induction xs generalizing b with
  | nil =>
    cases h
    rfl
  | cons x _ ih =>
    obtain ⟨d, hx, hrest⟩ := foldlM_cons_ok.1 h
    obtain ⟨hd, hview⟩ := hstep x mem_cons_self b d hb hx
    have htail := ih (fun a ha => hstep a (mem_cons_of_mem _ ha)) hd hrest
    rw [htail, hview]
    by_cases hk : shard x = k
    · simp [hk]
    · simp [hk]

/-- A loop that claims a new identity in each round claims distinct ones. -/
theorem foldlM_claims {ε β : Type u} {α κ : Type*} [DecidableEq κ] {f : β → α → Except ε β}
    {claimed : β → Finset κ} {key : α → κ} {P : α → Prop} (step : ∀ a b c, f b a = .ok c →
      P a ∧ key a ∉ claimed b ∧ claimed c = insert (key a) (claimed b))
    {xs : List α} {b c : β} (h : xs.foldlM f b = .ok c) :
    (∀ a ∈ xs, P a) ∧ (xs.map key).Nodup ∧ (∀ a ∈ xs, key a ∉ claimed b) ∧
      claimed c = claimed b ∪ (xs.map key).toFinset := by
  induction xs generalizing b with
  | nil =>
    cases h
    simp
  | cons x _ ih =>
    obtain ⟨d, hx, hrest⟩ := foldlM_cons_ok.1 h
    obtain ⟨hp, hnew, hclaim⟩ := step x b d hx
    obtain ⟨hall, hnd, hfresh, hend⟩ := ih hrest
    rw [hclaim] at hfresh hend
    refine ⟨?_, ?_, ?_, ?_⟩
    · exact forall_mem_cons.2 ⟨hp, hall⟩
    · refine nodup_cons.2 ⟨?_, hnd⟩
      intro hm
      obtain ⟨a, ha, hkey⟩ := mem_map.1 hm
      exact hfresh a ha (hkey ▸ Finset.mem_insert_self _ _)
    · refine forall_mem_cons.2 ⟨hnew, fun a ha hm => ?_⟩
      exact hfresh a ha (Finset.mem_insert_of_mem hm)
    · rw [hend, map_cons, toFinset_cons, Finset.insert_union, Finset.union_insert]

end Staged
