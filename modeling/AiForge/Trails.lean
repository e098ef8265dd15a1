import Mathlib

/-! # Trails of links

Every node has at most one link to a next node. A trail follows the links from a node until
there is none left; a node that leads back to itself has no trail. -/
namespace Trails

universe u

variable {α : Type u}

inductive Trail (next : α → Option α) : α → List α → Prop where
  | stop {x} : next x = none → Trail next x [x]
  | step {x y path} : next x = some y → Trail next y path → Trail next x (x :: path)

/-- One link after another, none at all included. -/
def Leads (next : α → Option α) : α → α → Prop :=
  Relation.ReflTransGen fun x y => next x = some y

variable {next next' : α → Option α} {x y a b : α} {path path' : List α}

section

variable (h : Trail next x path)

include h

theorem Trail.unique (h' : Trail next x path') : path = path' := by
  induction h generalizing path' with
  | stop hx =>
    cases h' with
    | stop => rfl
    | step hy =>
      rw [hx] at hy
      cases hy
  | @step x y path hx _ ih =>
    cases h' with
    | stop hn =>
      rw [hx] at hn
      cases hn
    | step hy ht =>
      obtain rfl := Option.some.inj (hx.symm.trans hy)
      rw [ih ht]

/-- Each node of a trail starts the rest of it. -/
theorem Trail.of_mem (hy : y ∈ path) :
    Leads next x y ∧ ∃ rest, Trail next y rest ∧ rest.length ≤ path.length := by
  induction h with
  | @stop x hx =>
    obtain rfl := List.mem_singleton.1 hy
    exact ⟨.refl, [y], .stop hx, le_rfl⟩
  | @step x z path hx ht ih =>
    rcases List.mem_cons.1 hy with rfl | hy
    · exact ⟨.refl, y :: path, .step hx ht, le_rfl⟩
    · obtain ⟨hl, rest, hrest, hlen⟩ := ih hy
      exact ⟨.head hx hl, rest, hrest, hlen.trans (by simp)⟩

theorem Trail.of_leads (hl : Leads next x y) : y ∈ path := by
  induction hl using Relation.ReflTransGen.head_induction_on generalizing path with
  | refl => cases h <;> simp
  | head hx _ ih =>
    cases h with
    | stop hn =>
      rw [hx] at hn
      cases hn
    | step hz ht =>
      obtain rfl := Option.some.inj (hx.symm.trans hz)
      exact List.mem_cons_of_mem _ (ih ht)

/-- A trail never comes back to where it started. -/
theorem Trail.no_return (hx : next x = some y) : ¬ Leads next y x := by
  intro hl
  cases h with
  | stop hn =>
    rw [hx] at hn
    cases hn
  | @step _ z path hz ht =>
    obtain rfl := Option.some.inj (hx.symm.trans hz)
    obtain ⟨-, _, hrest, hlen⟩ := ht.of_mem (ht.of_leads hl)
    rw [hrest.unique (.step hx ht), List.length_cons] at hlen
    omega

theorem Trail.nodup : path.Nodup := by
  induction h with
  | stop => simp
  | @step x y path hx ht ih =>
    have hnew : x ∉ path := fun hm => (Trail.step hx ht).no_return hx (ht.of_mem hm).1
    exact List.nodup_cons.2 ⟨hnew, ih⟩

theorem Trail.last : ∃ z, path.getLast? = some z ∧ next z = none := by
  induction h with
  | @stop x hx => exact ⟨x, rfl, hx⟩
  | @step x y path hx ht ih =>
    obtain ⟨z, hz, hn⟩ := ih
    refine ⟨z, ?_, hn⟩
    rw [List.getLast?_cons, hz]
    rfl

/-- A trail is the same for links that differ outside it. -/
theorem Trail.congr (he : ∀ y ∈ path, next' y = next y) : Trail next' x path := by
  induction h with
  | @stop x hx => exact .stop ((he x (by simp)).trans hx)
  | @step x y path hx _ ih =>
    exact .step ((he x (by simp)).trans hx) (ih fun z hz => he z (by simp [hz]))

/-- A new link from a node that had none lengthens the trails that ended there, as long as its
target does not lead back. -/
theorem Trail.link (hold : ∀ y, y ≠ a → next' y = next y)
    (ha : next a = none) (hnew : next' a = some b) (hb : Trail next b path')
    (hback : ¬ Leads next b a) : ∃ rest, Trail next' x rest := by
  have hb' : Trail next' b path' := by
    refine hb.congr fun y hy => hold y ?_
    rintro rfl
    exact hback (hb.of_mem hy).1
  induction h with
  | @stop x hx =>
    by_cases hxa : x = a
    · subst hxa
      exact ⟨_, .step hnew hb'⟩
    · exact ⟨_, .stop ((hold x hxa).trans hx)⟩
  | @step x y path hx _ ih =>
    obtain ⟨rest, hrest⟩ := ih
    have hxa : x ≠ a := by
      rintro rfl
      rw [ha] at hx
      cases hx
    exact ⟨_, .step ((hold x hxa).trans hx) hrest⟩

end

/-- Links that are only added keep leading where they led. -/
theorem Leads.mono (h : Leads next x y) (hold : ∀ y z, next y = some z → next' y = some z) :
    Leads next' x y :=
  Relation.ReflTransGen.mono hold _ _ h

end Trails
