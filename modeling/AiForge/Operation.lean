import AiForge.Staged

/-! # Operations with lasting effects

A computation whose failure keeps the state it had reached. `Computes` says that an operation
does to the state what a pure step says and nothing where that step fails. -/
namespace Operation

open Staged

universe u

variable {σ ε α β : Type u}

abbrev Op (σ ε : Type u) := ExceptT ε (StateM σ)

variable {R : σ → σ → Prop} {m : Op σ ε α} {f : α → Op σ ε β} {s : σ}

theorem bind_ok {a : α} (h : (m s).1 = .ok a) : (m >>= f) s = f a (m s).2 := by
  change ExceptT.bindCont f (m s).1 (m s).2 = _
  rw [h]
  rfl

variable {err : ε}

theorem bind_error (h : (m s).1 = .error err) : (m >>= f) s = (.error err, (m s).2) := by
  change ExceptT.bindCont f (m s).1 (m s).2 = _
  rw [h]
  rfl

/-- The state a pure step leads to, or its error over the state it started from. -/
def stored (r : Except ε σ) (s : σ) : Except ε PUnit × σ :=
  match r with
  | .ok t => (.ok ⟨⟩, t)
  | .error err => (.error err, s)

/-- From `s` the operation does what the pure step `r` says. -/
def Computes (m : Op σ ε PUnit) (s : σ) (r : Except ε σ) : Prop := m s = stored r s

section Computes

variable {m : Op σ ε PUnit} {r : Except ε σ} {s : σ}

theorem computes_pure (h : r = .ok s) : Computes (pure ⟨⟩) s r := by
  rw [h]
  rfl

theorem computes_modify {g : σ → σ} (h : r = .ok (g s)) : Computes (modify g) s r := by
  rw [h]
  rfl

theorem computes_throw (h : r = .error err) : Computes (throw err) s r := by
  rw [h]
  rfl

theorem computes_get_bind {f : σ → Op σ ε PUnit} (h : Computes (f s) s r) :
    Computes (get >>= f) s r := h

theorem computes_ensure {c : Prop} [Decidable c] (h : c → r = .ok s)
    (h' : ¬ c → r = .error err) : Computes (ensure c err) s r := by
  unfold ensure
  split
  · rename_i hc
    exact computes_pure (h hc)
  · rename_i hc
    exact computes_throw (h' hc)

/-- A check may stop the operation only as long as the state is the one it started from. -/
theorem computes_ensure_bind {c : Prop} [Decidable c] {f : PUnit → Op σ ε PUnit}
    (h : c → Computes (f ⟨⟩) s r) (h' : ¬ c → r = .error err) :
    Computes (ensure c err >>= f) s r := by
  unfold ensure
  split
  · rename_i hc
    exact h hc
  · rename_i hc
    rw [h' hc]
    rfl

theorem computes_require_bind {α : Type u} {value : Option α}
    {f : α → Op σ ε PUnit} (h : ∀ a, value = some a → Computes (f a) s r)
    (h' : value = none → r = .error err) : Computes (require value err >>= f) s r := by
  cases value with
  | some a => exact h a rfl
  | none =>
    rw [h' rfl]
    rfl

theorem computes_total {t : σ} (hm : m s = (.ok ⟨⟩, t)) (h : r = .ok t) : Computes m s r := by
  rw [h]
  exact hm

/-- An assignment after everything has been checked. -/
theorem computes_then_modify {q : Except ε σ} {g : σ → σ} (h : Computes m s q)
    (hr : r = q.map g) : Computes (m >>= fun _ => modify g) s r := by
  rw [hr]
  cases q with
  | error err =>
    have hm : (m s).1 = .error err := by
      rw [h]
      rfl
    unfold Computes
    rw [bind_error hm, h]
    rfl
  | ok =>
    have hm : (m s).1 = .ok ⟨⟩ := by
      rw [h]
      rfl
    unfold Computes
    rw [bind_ok hm, h]
    rfl

end Computes

end Operation
