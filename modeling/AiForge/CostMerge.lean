import AiForge.KeyedList
import AiForge.MoneyArithmetic

/-! # Adding reported costs

Two costs are merged unit by unit. What the merge does is said by looking units up: a unit of
either operand is in the sum, with its own amount or with the sum of both. -/
namespace Money

open KeyedList

/-- The amount a list has for a unit. -/
def amountAt (amounts : List MonetaryAmount) (unit : String) : Option DecimalAmount :=
  (lookup MonetaryAmount.unit unit amounts).map MonetaryAmount.amount

/-- What a sum has for a unit, given what the operands have for it. -/
def combineAt : Option DecimalAmount → Option DecimalAmount →
    Except MoneyError (Option DecimalAmount)
  | some left, some right => (add left right).map some
  | some left, none => .ok (some left)
  | none, right => .ok right

def SortedByUnit (amounts : List MonetaryAmount) : Prop :=
  amounts.Pairwise fun a b => a.unit < b.unit

structure MergesTo (left right merged : List MonetaryAmount) : Prop where
  sorted : SortedByUnit merged
  amounts : ∀ unit,
    combineAt (amountAt left unit) (amountAt right unit) = .ok (amountAt merged unit)

/-- A merge that fails does so at a unit whose amounts cannot be added. -/
def Merges (left right : List MonetaryAmount) : Except MoneyError (List MonetaryAmount) → Prop
  | .ok merged => MergesTo left right merged
  | .error err => ∃ unit, combineAt (amountAt left unit) (amountAt right unit) = .error err

variable {left right merged : List MonetaryAmount} {a : MonetaryAmount} {unit : String}

@[simp] theorem amountAt_nil (unit : String) : amountAt [] unit = none := rfl

theorem amountAt_cons (a : MonetaryAmount) (amounts : List MonetaryAmount) (unit : String) :
    amountAt (a :: amounts) unit = if a.unit = unit then some a.amount else amountAt amounts unit := by
  unfold amountAt lookup
  rw [List.find?_cons]
  split <;> simp_all

theorem amountAt_none : amountAt left unit = none ↔ ∀ a ∈ left, a.unit ≠ unit := by
  rw [amountAt, Option.map_eq_none_iff, lookup_none]

theorem amountAt_below (h : ∀ a ∈ left, unit < a.unit) : amountAt left unit = none :=
  amountAt_none.2 fun a ha => (h a ha).ne'

@[simp] theorem combineAt_none (amount : Option DecimalAmount) :
    combineAt amount none = .ok amount := by
  cases amount <;> rfl

theorem combineAt_swap (left right : Option DecimalAmount) :
    combineAt left right = combineAt right left := by
  cases left with
  | none => rw [combineAt_none, combineAt]
  | some =>
    cases right with
    | none => rfl
    | some => rw [combineAt, combineAt, add_swap]

theorem combineAt_error {left right : Option DecimalAmount} {err : MoneyError}
    (h : combineAt left right = .error err) :
    ∃ l r, left = some l ∧ right = some r ∧ add l r = .error err := by
  cases left with
  | none => cases h
  | some left =>
    cases right with
    | none => cases h
    | some right =>
      rw [combineAt, Staged.map_error] at h
      exact ⟨left, right, rfl, rfl, h⟩

/-- A head below everything that is left goes in front of the rest of the merge. -/
theorem Merges.cons {left' right' : List MonetaryAmount}
    {rest : Except MoneyError (List MonetaryAmount)} (h : Merges left right rest)
    (hleft : ∀ b ∈ left, a.unit < b.unit) (hright : ∀ b ∈ right, a.unit < b.unit)
    (hhead : combineAt (amountAt left' a.unit) (amountAt right' a.unit) = .ok (some a.amount))
    (hoth : ∀ unit, a.unit ≠ unit →
      amountAt left' unit = amountAt left unit ∧ amountAt right' unit = amountAt right unit) :
    Merges left' right' (do return a :: (← rest)) := by
  cases rest with
  | error =>
    obtain ⟨unit, hunit⟩ := h
    have hne : a.unit ≠ unit := by
      rintro rfl
      obtain ⟨l, -, hl, -⟩ := combineAt_error hunit
      rw [amountAt_below hleft] at hl
      cases hl
    obtain ⟨hl, hr⟩ := hoth unit hne
    exact ⟨unit, by rw [hl, hr, hunit]⟩
  | ok merged =>
    refine ⟨List.pairwise_cons.2 ⟨fun b hb => ?_, h.sorted⟩, fun unit => ?_⟩
    · by_contra hlt
      have hfnd : amountAt merged b.unit ≠ none := fun hnone => amountAt_none.1 hnone b hb rfl
      have hmerge := h.amounts b.unit
      have habv (amounts : List MonetaryAmount) (habv : ∀ c ∈ amounts, a.unit < c.unit) :
          amountAt amounts b.unit = none :=
        amountAt_none.2 fun c hc heq => hlt (heq ▸ habv c hc)
      rw [habv left hleft, habv right hright] at hmerge
      exact hfnd (Except.ok.inj hmerge).symm
    · rw [amountAt_cons]
      split
      · rename_i heq
        rw [← heq]
        exact hhead
      · rename_i hne
        obtain ⟨hl, hr⟩ := hoth unit hne
        rw [hl, hr]
        exact h.amounts unit

theorem mergeHead_merges {l : MonetaryAmount}
    {rest : List MonetaryAmount → Except MoneyError (List MonetaryAmount)}
    (hl : SortedByUnit (l :: left))
    (hrest : ∀ right, SortedByUnit right → Merges left right (rest right))
    (hr : SortedByUnit right) : Merges (l :: left) right (mergeHead l left rest right) := by
  obtain ⟨hblw, -⟩ := List.pairwise_cons.1 hl
  induction right with
  | nil => exact ⟨hl, fun unit => by rw [amountAt_nil, combineAt_none]⟩
  | cons r right ih =>
    obtain ⟨habv, htail⟩ := List.pairwise_cons.1 hr
    unfold mergeHead
    split
    · rename_i hlt
      have hright : ∀ b ∈ r :: right, l.unit < b.unit :=
        List.forall_mem_cons.2 ⟨hlt, fun b hb => hlt.trans (habv b hb)⟩
      refine (hrest _ hr).cons hblw hright ?_ fun unit hne => ⟨?_, rfl⟩
      · rw [amountAt_cons, if_pos rfl, amountAt_below hright, combineAt_none]
      · rw [amountAt_cons, if_neg hne]
    · split
      · rename_i hgt
        have hleft : ∀ b ∈ l :: left, r.unit < b.unit :=
          List.forall_mem_cons.2 ⟨hgt, fun b hb => hgt.trans (hblw b hb)⟩
        refine (ih htail).cons hleft habv ?_ fun unit hne => ⟨rfl, ?_⟩
        · rw [amountAt_cons r, if_pos rfl, amountAt_below hleft, combineAt]
        · rw [amountAt_cons, if_neg hne]
      · rename_i hlt hgt
        have hunit : r.unit = l.unit := le_antisymm (not_lt.1 hlt) (not_lt.1 hgt)
        have hshare : combineAt (amountAt (l :: left) l.unit) (amountAt (r :: right) l.unit) =
            (add l.amount r.amount).map some := by
          rw [amountAt_cons, if_pos rfl, amountAt_cons, if_pos hunit, combineAt]
        cases hsum : add l.amount r.amount with
        | error err => exact ⟨l.unit, by rw [hshare, hsum]; rfl⟩
        | ok amount =>
          rw [Staged.ok_bind, MonetaryAmount.create, dif_pos l.unit_valid, Staged.ok_bind]
          refine (hrest right htail).cons hblw (fun b hb => ?_) ?_ fun unit hne => ⟨?_, ?_⟩
          · rw [← hunit]
            exact habv b hb
          · rw [hshare, hsum]
            rfl
          · rw [amountAt_cons, if_neg hne]
          · rw [amountAt_cons, if_neg (by rw [hunit]; exact hne)]

theorem mergeAmounts_merges (hl : SortedByUnit left) (hr : SortedByUnit right) :
    Merges left right (mergeAmounts left right) := by
  induction left generalizing right with
  | nil => exact ⟨hr, fun unit => rfl⟩
  | cons l left ih =>
    have htail := (List.pairwise_cons.1 hl).2
    exact mergeHead_merges hl (fun right hright => ih htail hright) hr

theorem SortedByUnit.distinct (h : SortedByUnit left) : Distinct MonetaryAmount.unit left :=
  List.pairwise_map.2 (h.imp fun hlt => hlt.ne)

theorem mem_iff_amountAt (h : SortedByUnit left) :
    a ∈ left ↔ amountAt left a.unit = some a.amount := by
  unfold amountAt
  constructor
  · intro ha
    rw [lookup_of_mem h.distinct ha]
    rfl
  · intro ha
    obtain ⟨b, hb, hamt⟩ := Option.map_eq_some_iff.1 ha
    have hunit := lookup_key hb
    have hmem := lookup_mem hb
    have : b = a := by
      cases a
      cases b
      simp_all
    rwa [← this]

theorem eq_of_amountAt (hl : SortedByUnit left) (hr : SortedByUnit right)
    (h : ∀ unit, amountAt left unit = amountAt right unit) : left = right := by
  have hperm : left.Perm right := by
    refine (List.perm_ext_iff_of_nodup ?_ ?_).2 fun a => ?_
    · exact hl.distinct.of_map _
    · exact hr.distinct.of_map _
    · rw [mem_iff_amountAt hl, mem_iff_amountAt hr, h]
  exact hperm.eq_of_pairwise (fun _ _ _ _ hab hba => absurd hba hab.asymm) hl hr

theorem hasRepeatedUnit_sorted (h : SortedByUnit left) : hasRepeatedUnit left = false := by
  induction left with
  | nil => rfl
  | cons a rest ih =>
    obtain ⟨hblw, hrest⟩ := List.pairwise_cons.1 h
    cases rest with
    | nil => rfl
    | cons b rest =>
      rw [hasRepeatedUnit, ih hrest, Bool.or_false, beq_eq_false_iff_ne]
      exact (hblw b (by simp)).ne

theorem sortByUnit_of_sorted (h : SortedByUnit left) : sortByUnit left = left :=
  List.mergeSort_of_pairwise (h.imp fun hlt => decide_eq_true hlt.le)

theorem create_of_sorted (h : SortedByUnit left) (hne : left ≠ []) :
    if left.length ≤ maximumUnits then
      ∃ cost, ReportedCost.create left = .ok cost ∧ cost.amounts = left
    else ReportedCost.create left =
      .error ⟨.tooManyUnits, "reported cost has too many units"⟩ := by
  have hsort := sortByUnit_of_sorted h
  have hrepeat := hasRepeatedUnit_sorted h
  by_cases hle : left.length ≤ maximumUnits
  · rw [if_pos hle, ReportedCost.create, dif_neg hne, dif_neg (by omega),
      dif_neg (by rw [hsort, hrepeat]; decide)]
    exact ⟨_, rfl, hsort⟩
  · rw [if_neg hle, ReportedCost.create, dif_neg hne, dif_pos (by omega)]

def ReportedCost.units (cost : ReportedCost) : Finset String :=
  (cost.amounts.map MonetaryAmount.unit).toFinset

/-- The value a cost has for a unit, zero for a unit that it does not have. -/
def ReportedCost.valueAt (cost : ReportedCost) (unit : String) : ℚ :=
  ((amountAt cost.amounts unit).map DecimalAmount.value).getD 0

theorem mem_units {amounts : List MonetaryAmount} :
    unit ∈ (amounts.map MonetaryAmount.unit).toFinset ↔ amountAt amounts unit ≠ none := by
  rw [List.mem_toFinset, List.mem_map, Ne, amountAt_none]
  simp only [not_forall, not_not, exists_prop]

theorem MergesTo.units (h : MergesTo left right merged) :
    (merged.map MonetaryAmount.unit).toFinset =
      (left.map MonetaryAmount.unit).toFinset ∪ (right.map MonetaryAmount.unit).toFinset := by
  ext unit
  rw [Finset.mem_union, mem_units, mem_units, mem_units]
  have hamt := h.amounts unit
  cases hl : amountAt left unit with
  | none =>
    rw [hl, combineAt] at hamt
    rw [Except.ok.inj hamt]
    simp
  | some =>
    cases hr : amountAt right unit with
    | none =>
      rw [hl, hr, combineAt_none] at hamt
      rw [← Except.ok.inj hamt]
      simp
    | some =>
      rw [hl, hr, combineAt, Staged.map_ok] at hamt
      obtain ⟨_, -, hsome⟩ := hamt
      rw [← hsome]
      simp

theorem MergesTo.length (h : MergesTo left right merged) :
    merged.length = ((left.map MonetaryAmount.unit).toFinset ∪
      (right.map MonetaryAmount.unit).toFinset).card := by
  rw [← h.units, List.toFinset_card_of_nodup h.sorted.distinct, List.length_map]

theorem MergesTo.ne_nil (h : MergesTo left right merged) (hne : left ≠ []) : merged ≠ [] := by
  rintro rfl
  obtain ⟨a, rest, rfl⟩ := List.exists_cons_of_ne_nil hne
  have hmem : a.unit ∈ (([] : List MonetaryAmount).map MonetaryAmount.unit).toFinset := by
    rw [h.units]
    simp
  simp at hmem

theorem combineAt_value {x y z : Option DecimalAmount} (h : combineAt x y = .ok z) :
    (z.map DecimalAmount.value).getD 0 =
      (x.map DecimalAmount.value).getD 0 + (y.map DecimalAmount.value).getD 0 := by
  cases x with
  | none =>
    cases h
    simp
  | some =>
    cases y with
    | none =>
      cases h
      simp
    | some =>
      rw [combineAt, Staged.map_ok] at h
      obtain ⟨sum, hsum, rfl⟩ := h
      exact add_value hsum

/-- Both costs together have no more units than a cost may have, and what they share adds up. -/
def Addable (left right : ReportedCost) : Prop :=
  (left.units ∪ right.units).card ≤ maximumUnits ∧
  ∀ unit l r, amountAt left.amounts unit = some l → amountAt right.amounts unit = some r →
    (add l r).isOk

theorem costs_merge (left right : ReportedCost) :
    Merges left.amounts right.amounts (mergeAmounts left.amounts right.amounts) :=
  mergeAmounts_merges left.sorted right.sorted

theorem cost_add_spec (left right : ReportedCost) :
    match left.add right with
    | .ok sum => Addable left right ∧ MergesTo left.amounts right.amounts sum.amounts
    | .error _ => ¬ Addable left right := by
  have hmerge := costs_merge left right
  unfold ReportedCost.add
  cases hres : mergeAmounts left.amounts right.amounts with
  | error err =>
    rw [hres] at hmerge
    obtain ⟨unit, hunit⟩ := hmerge
    rintro ⟨-, hshare⟩
    obtain ⟨l, r, hl, hr, hfail⟩ := combineAt_error hunit
    obtain ⟨sum, hsum⟩ := Staged.isOk_iff.1 (hshare unit l r hl hr)
    rw [hsum] at hfail
    cases hfail
  | ok merged =>
    rw [hres] at hmerge
    have hmake := create_of_sorted hmerge.sorted (hmerge.ne_nil left.nonempty)
    have hlen : merged.length = (left.units ∪ right.units).card := hmerge.length
    rw [Staged.ok_bind]
    split at hmake
    · rename_i hle
      obtain ⟨sum, hsum, hamts⟩ := hmake
      rw [hsum]
      refine ⟨⟨by rw [← hlen]; exact hle, fun unit l r hl hr => ?_⟩, by rw [hamts]; exact hmerge⟩
      have hamt := hmerge.amounts unit
      rw [hl, hr, combineAt, Staged.map_ok] at hamt
      obtain ⟨total, htot, -⟩ := hamt
      exact Staged.isOk_iff.2 ⟨total, htot⟩
    · rename_i hbig
      rw [hmake]
      rintro ⟨hcard, -⟩
      rw [← hlen] at hcard
      exact hbig hcard

section

variable {first second : Except MoneyError (List MonetaryAmount)}

theorem Merges.swap (h : Merges left right first) : Merges right left first := by
  cases first with
  | error =>
    obtain ⟨unit, hunit⟩ := h
    exact ⟨unit, by rw [combineAt_swap, hunit]⟩
  | ok => exact ⟨h.sorted, fun unit => by rw [combineAt_swap, h.amounts unit]⟩

/-- The amounts of the operands determine the result of a merge. -/
theorem Merges.unique (h : Merges left right first) (h' : Merges left right second) :
    first = second := by
  cases first with
  | error =>
    obtain ⟨unit, hunit⟩ := h
    cases second with
    | error =>
      obtain ⟨_, hoth⟩ := h'
      obtain ⟨_, _, -, -, hfst⟩ := combineAt_error hunit
      obtain ⟨_, _, -, -, hsnd⟩ := combineAt_error hoth
      rw [add_error hfst, add_error hsnd]
    | ok => cases hunit.symm.trans (h'.amounts unit)
  | ok =>
    cases second with
    | error =>
      obtain ⟨unit, hunit⟩ := h'
      cases hunit.symm.trans (h.amounts unit)
    | ok =>
      refine congrArg _ (eq_of_amountAt h.sorted h'.sorted fun unit => ?_)
      exact Except.ok.inj ((h.amounts unit).symm.trans (h'.amounts unit))

end

/-- Adding reported costs merges them unit by unit, exactly and in either order. -/
theorem reported_cost_addition (left right : ReportedCost) :
    ((left.add right).isOk ↔ Addable left right) ∧
    (∀ sum, left.add right = .ok sum → sum.units = left.units ∪ right.units ∧
      SortedByUnit sum.amounts ∧ Distinct MonetaryAmount.unit sum.amounts ∧
      ∀ unit, sum.valueAt unit = left.valueAt unit + right.valueAt unit) ∧
    left.add right = right.add left := by
  have hspec := cost_add_spec left right
  refine ⟨?_, ?_, ?_⟩
  · cases hadd : left.add right with
    | ok =>
      rw [hadd] at hspec
      exact iff_of_true rfl hspec.1
    | error =>
      rw [hadd] at hspec
      exact iff_of_false nofun hspec
  · intro sum hadd
    rw [hadd] at hspec
    exact ⟨hspec.2.units, sum.sorted, SortedByUnit.distinct sum.sorted,
      fun unit => combineAt_value (hspec.2.amounts unit)⟩
  · unfold ReportedCost.add
    rw [(costs_merge left right).unique (costs_merge right left).swap]

end Money
