import Mathlib

/-! # Sweeps over a dependency graph

Every node has a value, and a rule computes it from the values of the nodes it depends on. A
sweep applies the rules in place, one node after the other. Where no node depends on itself,
directly or through others, as many sweeps as there are nodes settle all values, in whatever
order the nodes are swept. -/
namespace Sweeps

open Finset Function

universe u v

variable {ι : Type u} {V : Type v}

/-- A rule reads only what its node depends on. -/
def Local (dep : ι → ι → Prop) (rule : ι → (ι → V) → V) : Prop :=
  ∀ i σ τ, (∀ j, dep j i → σ j = τ j) → rule i σ = rule i τ

/-- Every node has the value its rule computes. -/
def Settled (rule : ι → (ι → V) → V) (nodes : List ι) (σ : ι → V) : Prop :=
  ∀ i ∈ nodes, σ i = rule i σ

section Sweep

variable [DecidableEq ι]

def sweep (rule : ι → (ι → V) → V) (nodes : List ι) (σ : ι → V) : ι → V :=
  nodes.foldl (fun σ i => Function.update σ i (rule i σ)) σ

@[simp] theorem sweep_nil (rule : ι → (ι → V) → V) (σ : ι → V) : sweep rule [] σ = σ := rfl

@[simp] theorem sweep_cons (rule : ι → (ι → V) → V) (i : ι) (nodes : List ι) (σ : ι → V) :
    sweep rule (i :: nodes) σ = sweep rule nodes (update σ i (rule i σ)) := rfl

end Sweep

variable {dep : ι → ι → Prop} {rule : ι → (ι → V) → V}

theorem exists_solution [Nonempty V] (wf : WellFounded dep) (hl : Local dep rule) :
    ∃ F : ι → V, ∀ i, F i = rule i F := by
  classical
  obtain ⟨v⟩ := ‹Nonempty V›
  let extend (i : ι) (below : ∀ j, dep j i → V) (j : ι) : V :=
    if h : dep j i then below j h else v
  refine ⟨wf.fix fun i below => rule i (extend i below), fun i => ?_⟩
  rw [wf.fix_eq]
  apply hl
  intro j hj
  simp only [extend, dif_pos hj]

/-- The nodes all of whose dependencies, direct or not, are less than `k` steps deep. -/
def Level (dep : ι → ι → Prop) (nodes : List ι) : ℕ → ι → Prop
  | 0, _ => False
  | k + 1, i => i ∈ nodes ∧ ∀ j, dep j i → Level dep nodes k j

variable {nodes : List ι} {k : ℕ} {i : ι}

theorem level_succ (h : Level dep nodes k i) : Level dep nodes (k + 1) i := by
  induction k generalizing i with
  | zero => exact h.elim
  | succ _ ih => exact ⟨h.1, fun j hj => ih (h.2 j hj)⟩

theorem level_dep (h : Level dep nodes k i) {j : ι} (hj : dep j i) : Level dep nodes k j := by
  cases k with
  | zero => exact h.elim
  | succ => exact level_succ (h.2 j hj)

/-- Each round reaches at least one more node, as long as one is missing. -/
theorem level_all (wf : WellFounded dep) (hshut : ∀ i ∈ nodes, ∀ j, dep j i → j ∈ nodes) :
    ∀ i ∈ nodes, Level dep nodes nodes.length i := by
  classical
  let reached (k : ℕ) : Finset ι := nodes.toFinset.filter (Level dep nodes k)
  have hgrow : ∀ k, reached k = nodes.toFinset ∨ k ≤ (reached k).card := by
    intro k
    induction k with
    | zero => exact .inr (Nat.zero_le _)
    | succ k ih =>
      have hsub : reached k ⊆ reached (k + 1) := by
        intro i hi
        obtain ⟨hi, hl⟩ := mem_filter.1 hi
        exact mem_filter.2 ⟨hi, level_succ hl⟩
      rcases ih with hall | hcard
      · left
        exact Finset.Subset.antisymm (filter_subset _ _) (hall.symm.subset.trans hsub)
      · by_cases hmiss : ∃ i, i ∈ nodes ∧ ¬ Level dep nodes k i
        · -- A missing node below which none is missing is reached next.
          right
          obtain ⟨i, ⟨hi, hnot⟩, hmin⟩ := wf.has_min {i | i ∈ nodes ∧ ¬ Level dep nodes k i} hmiss
          have hblw : ∀ j, dep j i → Level dep nodes k j := by
            intro j hj
            by_contra hl
            exact hmin j ⟨hshut i hi j hj, hl⟩ hj
          have hlt : (reached k).card < (reached (k + 1)).card := by
            apply card_lt_card
            refine ⟨hsub, fun hback => ?_⟩
            have hin : i ∈ reached (k + 1) :=
              mem_filter.2 ⟨List.mem_toFinset.2 hi, hi, hblw⟩
            exact hnot (mem_filter.1 (hback hin)).2
          omega
        · left
          push Not at hmiss
          apply Finset.Subset.antisymm (filter_subset _ _)
          intro i hi
          exact hsub (mem_filter.2 ⟨hi, hmiss i (List.mem_toFinset.1 hi)⟩)
  have hfull : reached nodes.length = nodes.toFinset := by
    rcases hgrow nodes.length with hall | hcard
    · exact hall
    · apply eq_of_subset_of_card_le (filter_subset _ _)
      exact (List.toFinset_card_le nodes).trans hcard
  intro i hi
  have hin : i ∈ reached nodes.length := by
    rw [hfull]
    exact List.mem_toFinset.2 hi
  exact (mem_filter.1 hin).2

section Sweep

variable [DecidableEq ι]

/-- A sweep keeps the final values that are there and adds those they determine. -/
theorem sweep_agrees (hl : Local dep rule) {F : ι → V} (hF : ∀ i, F i = rule i F)
    {P : ι → Prop} (hP : ∀ i, P i → ∀ j, dep j i → P j) {σ : ι → V}
    (hσ : ∀ i, P i → σ i = F i) (hi : ∀ j, dep j i → P j) (hin : i ∈ nodes ∨ σ i = F i) :
    sweep rule nodes σ i = F i := by
  induction nodes generalizing σ with
  | nil =>
    rcases hin with hin | hin
    · cases hin
    · exact hin
  | cons n _ ih =>
    have hrule : ∀ m, (∀ j, dep j m → P j) → rule m σ = F m := by
      intro m hm
      rw [hF m]
      exact hl m σ F fun j hj => hσ j (hm j hj)
    rw [sweep_cons]
    apply ih
    · intro m hm
      by_cases hmn : m = n
      · rw [hmn, update_self]
        rw [hmn] at hm
        exact hrule n (hP n hm)
      · rw [update_of_ne hmn]
        exact hσ m hm
    · by_cases hn : i = n
      · right
        rw [← hn, update_self]
        exact hrule i hi
      · rcases hin with hin | hin
        · rcases List.mem_cons.1 hin with h | h
          · exact absurd h hn
          · exact .inl h
        · right
          rw [update_of_ne hn]
          exact hin

theorem sweeps_level (hl : Local dep rule) {F : ι → V} (hF : ∀ i, F i = rule i F) (σ : ι → V)
    (k : ℕ) : ∀ i, Level dep nodes k i → (sweep rule nodes)^[k] σ i = F i := by
  induction k with
  | zero => exact fun i hi => hi.elim
  | succ _ ih =>
    intro i hi
    rw [iterate_succ_apply']
    exact sweep_agrees hl hF (fun m hm j hj => level_dep hm hj) ih hi.2 (.inl hi.1)

/-- As many sweeps as there are nodes settle an acyclic graph. -/
theorem sweeps_settle [Nonempty V] (wf : WellFounded dep) (hl : Local dep rule)
    (hshut : ∀ i ∈ nodes, ∀ j, dep j i → j ∈ nodes) (σ : ι → V) :
    Settled rule nodes ((sweep rule nodes)^[nodes.length] σ) := by
  obtain ⟨F, hF⟩ := exists_solution wf hl
  have hfin := fun i hi => sweeps_level hl hF σ _ i (level_all wf hshut i hi)
  intro i hi
  rw [hfin i hi, hF i]
  apply hl
  intro j hj
  exact (hfin j (hshut i hi j hj)).symm

end Sweep

end Sweeps
