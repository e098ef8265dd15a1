import Mathlib

/-! # Labelled traces

Runs of a transition relation each step of which emits a list of labels. -/
namespace Traces

universe u v

variable {σ : Type u} {α : Type v}

inductive Trace (R : σ → List α → σ → Prop) : σ → List α → σ → Prop where
  | nil (s) : Trace R s [] s
  | cons {s xs t ys u} : R s xs t → Trace R t ys u → Trace R s (xs ++ ys) u

variable {R R' : σ → List α → σ → Prop} {s t u : σ} {xs ys : List α}

theorem Trace.single (h : R s xs t) : Trace R s xs t := by
  have ht := Trace.cons h (Trace.nil t)
  rwa [List.append_nil] at ht

theorem Trace.trans (h : Trace R s xs t) (h' : Trace R t ys u) : Trace R s (xs ++ ys) u := by
  induction h with
  | nil => exact h'
  | cons step _ ih =>
    rw [List.append_assoc]
    exact .cons step (ih h')

theorem Trace.mono (h : Trace R s xs t) (hr : ∀ s xs t, R s xs t → R' s xs t) :
    Trace R' s xs t := by
  induction h with
  | nil s => exact .nil s
  | cons step _ ih => exact .cons (hr _ _ _ step) ih

/-- What every step preserves holds along a whole trace. -/
theorem Trace.preserves {I : σ → Prop} (step : ∀ s xs t, I s → R s xs t → I t)
    (h : Trace R s xs t) (hs : I s) : I t := by
  induction h with
  | nil => exact hs
  | cons hr _ ih => exact ih (step _ _ _ hs hr)

/-- A trace of steps that keep an invariant may assume it at each of them. -/
theorem Trace.within {I : σ → Prop} (step : ∀ s xs t, I s → R s xs t → I t)
    (h : Trace R s xs t) (hs : I s) : Trace (fun s xs t => I s ∧ R s xs t) s xs t := by
  induction h with
  | nil s => exact .nil s
  | cons hr _ ih => exact .cons ⟨hs, hr⟩ (ih (step _ _ _ hs hr))

/-- Where every step emits at most one label, a trace is split at any of its labels. -/
theorem Trace.split {x : α} (single : ∀ s xs t, R s xs t → xs.length ≤ 1)
    (h : Trace R s (xs ++ x :: ys) u) : ∃ t t', Trace R s xs t ∧ R t [x] t' ∧ Trace R t' ys u := by
  generalize hlab : xs ++ x :: ys = labels at h
  induction h generalizing xs with
  | nil => exact absurd hlab (by simp)
  | @cons s zs t ws u hr hrest ih =>
    match zs, single _ _ _ hr, hlab, hr with
    | [], _, hlab, hr =>
      obtain ⟨v, v', hpre, hx, haft⟩ := ih hlab
      exact ⟨v, v', .cons hr hpre, hx, haft⟩
    | [z], _, hlab, hr =>
      cases xs with
      | nil =>
        obtain ⟨rfl, rfl⟩ := List.cons.inj hlab
        exact ⟨s, t, .nil s, hr, hrest⟩
      | cons =>
        obtain ⟨rfl, htail⟩ := List.cons.inj hlab
        obtain ⟨v, v', hpre, hx, haft⟩ := ih htail
        exact ⟨v, v', .cons hr hpre, hx, haft⟩

/-- What every step keeps, and what keeps a label away, keeps it away for good. -/
theorem Trace.never {P : σ → Prop} {bad : α → Prop}
    (step : ∀ s xs t, P s → R s xs t → P t ∧ ∀ x ∈ xs, ¬ bad x) (h : Trace R s xs t) (hs : P s) :
    ∀ x ∈ xs, ¬ bad x := by
  induction h with
  | nil => simp
  | cons hr _ ih =>
    obtain ⟨ht, hnot⟩ := step _ _ _ hs hr
    intro x hx
    rcases List.mem_append.1 hx with hx | hx
    · exact hnot x hx
    · exact ih ht x hx

/-- What a label announces, and every step keeps, holds at the end. -/
theorem Trace.announced {K : σ → Prop} {x : α} (announce : ∀ s xs t, R s xs t → x ∈ xs → K t)
    (keep : ∀ s xs t, K s → R s xs t → K t) (h : Trace R s xs t) (hx : x ∈ xs) : K t := by
  induction h with
  | nil => cases hx
  | cons hr hrest ih =>
    rcases List.mem_append.1 hx with hx | hx
    · exact hrest.preserves keep (announce _ _ _ hr hx)
    · exact ih hx

/-- What no step brings about without announcing it held at the start or was announced. -/
theorem Trace.announces {K : σ → Prop} {p : α → Prop}
    (step : ∀ s xs t, R s xs t → K t → K s ∨ ∃ x ∈ xs, p x) (h : Trace R s xs t) (hk : K t) :
    K s ∨ ∃ x ∈ xs, p x := by
  induction h with
  | nil => exact .inl hk
  | cons hr _ ih =>
    rcases ih hk with hk | ⟨x, hx, hp⟩
    · rcases step _ _ _ hr hk with hk | ⟨x, hx, hp⟩
      · exact .inl hk
      · exact .inr ⟨x, List.mem_append_left _ hx, hp⟩
    · exact .inr ⟨x, List.mem_append_right _ hx, hp⟩

end Traces
