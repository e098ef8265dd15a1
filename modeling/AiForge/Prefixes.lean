import Mathlib

/-! # Warranted lists

Lists in which every element is justified by what stands before it, and how they grow. -/
namespace Prefixes

universe u

variable {α : Type u} {J : List α → α → Prop} {xs ys : List α} {x : α}

def Warranted (J : List α → α → Prop) (xs : List α) : Prop :=
  ∀ before x after, xs = before ++ x :: after → J before x

theorem warranted_nil : Warranted J [] := by
  intro before x after h
  simp at h

theorem warranted_append :
    Warranted J (xs ++ ys) ↔ Warranted J xs ∧ Warranted (fun before => J (xs ++ before)) ys := by
  constructor
  · intro h
    constructor
    · intro before x after hxs
      refine h before x (after ++ ys) ?_
      rw [hxs, List.append_assoc]
      rfl
    · intro before x after hys
      refine h (xs ++ before) x after ?_
      rw [hys, List.append_assoc]
  · rintro ⟨hx, hy⟩ before x after h
    rcases List.append_eq_append_iff.1 h with ⟨middle, hpre, hys⟩ | ⟨middle, hxs, haft⟩
    · rw [hpre]
      exact hy middle x after hys
    · cases middle with
      | nil =>
        have hb : before = xs := by simpa using hxs.symm
        have hj : J (xs ++ []) x := hy [] x after (by simpa using haft.symm)
        rwa [List.append_nil, ← hb] at hj
      | cons _ middle =>
        obtain ⟨rfl, -⟩ := List.cons.inj haft
        exact hx before x middle hxs

theorem warranted_snoc : Warranted J (xs ++ [x]) ↔ Warranted J xs ∧ J xs x := by
  rw [warranted_append]
  refine and_congr_right fun _ => ?_
  constructor
  · intro h
    have hj : J (xs ++ []) x := h [] x [] rfl
    rwa [List.append_nil] at hj
  · intro h before y after hy
    cases before with
    | nil =>
      obtain ⟨rfl, -⟩ := List.cons.inj hy
      rw [List.append_nil]
      exact h
    | cons => simp at hy

end Prefixes
