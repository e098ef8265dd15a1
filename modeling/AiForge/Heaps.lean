import Mathlib

/-! # Heaps

Objects under keys, and relations between what is found under each key before and after a
change. -/
namespace Heaps

open Function

universe u v

variable {K : Type u} {α : Type v} {R S : α → α → Prop} {f g h : K → Option α} {key : K} {a : α}

/-- The same keys hold objects, and those under one key are related. -/
def Related (R : α → α → Prop) (f g : K → Option α) : Prop :=
  ∀ key, Option.Rel R (f key) (g key)

theorem Related.refl (hr : ∀ a, R a a) (f : K → Option α) : Related R f f := by
  intro key
  cases f key with
  | none => exact .none
  | some a => exact .some (hr a)

theorem Related.found (hfg : Related R f g) (hf : f key = some a) :
    ∃ b, g key = some b ∧ R a b := by
  have hkey := hfg key
  rw [hf] at hkey
  generalize g key = object at hkey
  cases hkey with
  | some hab => exact ⟨_, rfl, hab⟩

theorem Related.origin (hfg : Related R f g) (hg : g key = some a) :
    ∃ b, f key = some b ∧ R b a := by
  have hkey := hfg key
  rw [hg] at hkey
  generalize f key = object at hkey
  cases hkey with
  | some hab => exact ⟨_, rfl, hab⟩

theorem Related.trans (htrans : ∀ a b c, R a b → R b c → R a c) (hfg : Related R f g)
    (hgh : Related R g h) : Related R f h := by
  intro key
  have hfst := hfg key
  have hsnd := hgh key
  generalize f key = x at hfst
  generalize g key = y at hfst hsnd
  cases hfst with
  | none => exact hsnd
  | some hab =>
    generalize h key = z at hsnd
    cases hsnd with
    | some hbc => exact .some (htrans _ _ _ hab hbc)

theorem related_map {object : Option α} {change : α → α}
    (hchg : ∀ a, object = some a → R a (change a)) :
    Option.Rel R object (object.map change) := by
  cases object with
  | none => exact .none
  | some a => exact .some (hchg a rfl)

theorem Related.update [DecidableEq K] (hr : ∀ a, R a a) {change : α → α}
    (hchg : ∀ a, f key = some a → R a (change a)) :
    Related R f (update f key ((f key).map change)) := by
  intro other
  by_cases heq : other = key
  · subst heq
    rw [update_self]
    exact related_map hchg
  · rw [update_of_ne heq]
    exact Related.refl hr f other

/-- The object under one key is replaced by a related one. -/
theorem Related.set [DecidableEq K] (hr : ∀ a, R a a) {b : α} (hf : f key = some a)
    (hab : R a b) : Related R f (Function.update f key (some b)) := by
  have hset : Function.update f key (some b) = Function.update f key ((f key).map fun _ => b) := by
    rw [hf]
    rfl
  rw [hset]
  refine Related.update hr fun c hc => ?_
  obtain rfl := Option.some.inj (hf.symm.trans hc)
  exact hab

theorem update_cases [DecidableEq K] {other : K} {b : α}
    (hfnd : update f key (some a) other = some b) :
    other = key ∧ b = a ∨ other ≠ key ∧ f other = some b := by
  by_cases heq : other = key
  · subst heq
    rw [update_self] at hfnd
    exact .inl ⟨rfl, (Option.some.inj hfnd).symm⟩
  · rw [update_of_ne heq] at hfnd
    exact .inr ⟨heq, hfnd⟩

end Heaps
