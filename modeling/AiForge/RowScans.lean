import Mathlib

/-! # Scans of rows

A scan goes through items with a cursor in a list of rows. Rows that are not admitted are passed
over, every other row has to fit the next item, and in the end no admitted row may be left. -/
namespace RowScans

open List

variable {α β γ : Type*}

def nextAdmitted (admitted : β → Bool) (rows : List β) : List β :=
  rows.dropWhile fun row => !admitted row

/-- The item takes the next admitted row; the rows behind it are left. -/
def take (admitted : β → Bool) (fits : α → β → Bool) (rows : List β) (item : α) :
    Option (List β) :=
  match nextAdmitted admitted rows with
  | [] => none
  | row :: rest => if fits item row then some rest else none

section Rows

variable {admitted : β → Bool} {fits : α → β → Bool}

theorem filter_nextAdmitted (rows : List β) :
    (nextAdmitted admitted rows).filter admitted = rows.filter admitted := by
  induction rows with
  | nil => rfl
  | cons row _ ih =>
    unfold nextAdmitted at ih ⊢
    by_cases h : admitted row
    · rw [dropWhile_cons_of_neg (by simp [h])]
    · rw [dropWhile_cons_of_pos (by simp [h]), ih, filter_cons_of_neg h]

variable {rows : List β}

theorem admitted_of_nextAdmitted {rest : List β} {row : β}
    (h : nextAdmitted admitted rows = row :: rest) : admitted row := by
  have first := head_dropWhile_not (fun row => !admitted row) (l := rows) (by
    intro empty
    unfold nextAdmitted at h
    simp [h] at empty)
  unfold nextAdmitted at h
  simpa [h] using first

theorem nextAdmitted_eq_nil : nextAdmitted admitted rows = [] ↔ rows.filter admitted = [] := by
  rw [← filter_nextAdmitted rows]
  constructor
  · intro h
    rw [h]
    rfl
  · intro h
    cases known : nextAdmitted admitted rows with
    | nil => rfl
    | cons =>
      rw [known, filter_cons_of_pos (admitted_of_nextAdmitted known)] at h
      simp at h

theorem take_some {rest : List β} {item : α} : take admitted fits rows item = some rest ↔
      ∃ row, nextAdmitted admitted rows = row :: rest ∧ fits item row := by
  unfold take
  split
  next empty => simp [empty]
  next row left known =>
    split
    next fit =>
      constructor
      · rintro ⟨⟩
        exact ⟨row, known, fit⟩
      · rintro ⟨_, same, -⟩
        rw [known, List.cons.injEq] at same
        rw [same.2]
    next unfit =>
      constructor
      · rintro ⟨⟩
      · rintro ⟨_, same, fit⟩
        rw [known, List.cons.injEq] at same
        rw [← same.1] at fit
        exact absurd fit unfit

/-- A scan succeeds when the items are the admitted rows, one by one. -/
theorem scan_iff {items : List α} :
    (∃ rest, items.foldlM (take admitted fits) rows = some rest ∧ nextAdmitted admitted rest = []) ↔
      List.Forall₂ (fun item row => fits item row = true) items (rows.filter admitted) := by
  induction items generalizing rows with
  | nil =>
    rw [forall₂_nil_left_iff]
    constructor
    · rintro ⟨rest, ⟨⟩, empty⟩
      exact nextAdmitted_eq_nil.1 empty
    · intro empty
      exact ⟨rows, rfl, nextAdmitted_eq_nil.2 empty⟩
  | cons item items ih =>
    have step : ∀ rest, (item :: items).foldlM (take admitted fits) rows = some rest ↔
        ∃ row middle, nextAdmitted admitted rows = row :: middle ∧ fits item row ∧
          items.foldlM (take admitted fits) middle = some rest := by
      intro rest
      rw [foldlM_cons]
      constructor
      · intro h
        obtain ⟨middle, taken, onward⟩ := Option.bind_eq_some_iff.1 h
        obtain ⟨row, known, fit⟩ := take_some.1 taken
        exact ⟨row, middle, known, fit, onward⟩
      · rintro ⟨row, middle, known, fit, onward⟩
        exact Option.bind_eq_some_iff.2 ⟨middle, take_some.2 ⟨row, known, fit⟩, onward⟩
    constructor
    · rintro ⟨rest, scanned, empty⟩
      obtain ⟨row, middle, known, fit, onward⟩ := (step rest).1 scanned
      rw [← filter_nextAdmitted, known,
        filter_cons_of_pos (admitted_of_nextAdmitted known)]
      exact .cons fit (ih.1 ⟨rest, onward, empty⟩)
    · intro exact_rows
      rw [← filter_nextAdmitted] at exact_rows
      cases known : nextAdmitted admitted rows with
      | nil =>
        rw [known] at exact_rows
        cases exact_rows
      | cons row middle =>
        rw [known, filter_cons_of_pos (admitted_of_nextAdmitted known)] at exact_rows
        obtain _ | ⟨fit, onward⟩ := exact_rows
        obtain ⟨rest, scanned, empty⟩ := ih.2 onward
        exact ⟨rest, (step rest).2 ⟨row, middle, known, fit, scanned⟩, empty⟩

theorem exists_of_forall₂ {R : α → β → Prop} {items : List α}
    (h : List.Forall₂ R items rows) {item : α} (among : item ∈ items) :
    ∃ row ∈ rows, R item row := by
  induction h with
  | nil => simp at among
  | cons first _ ih =>
    rcases mem_cons.1 among with rfl | later
    · exact ⟨_, mem_cons_self, first⟩
    · obtain ⟨row, held, related⟩ := ih later
      exact ⟨row, mem_cons_of_mem _ held, related⟩

end Rows

/-- A loop that refuses an identity it has seen leaves rows with distinct ones. -/
theorem foldlM_fresh {ε σ κ : Type*} {step : σ → β → Except ε σ} {seen : σ → Set κ} {key : β → κ}
    {P : β → Prop} (fresh : ∀ state row after, step state row = .ok after →
      P row ∧ key row ∉ seen state ∧ seen state ⊆ seen after ∧ key row ∈ seen after)
    {rows : List β} {state last : σ} (h : rows.foldlM step state = .ok last) :
    (∀ row ∈ rows, P row ∧ key row ∉ seen state) ∧ (rows.map key).Nodup := by
  induction rows generalizing state with
  | nil => simp
  | cons row _ ih =>
    rw [foldlM_cons] at h
    cases taken : step state row with
    | error =>
      rw [taken] at h
      cases h
    | ok after =>
      rw [taken] at h
      obtain ⟨holds, unseen, kept, noted⟩ := fresh state row after taken
      obtain ⟨later, distinct⟩ := ih h
      refine ⟨forall_mem_cons.2 ⟨⟨holds, unseen⟩, ?_⟩, nodup_cons.2 ⟨?_, distinct⟩⟩
      · intro other among
        exact ⟨(later other among).1, fun before => (later other among).2 (kept before)⟩
      · intro repeated
        obtain ⟨other, among, same⟩ := mem_map.1 repeated
        rw [← same] at noted
        exact (later other among).2 noted

variable {items : List α}

/-- What each turn keeps for the items so far holds at the end for all of them. -/
theorem foldlM_along {I : List α → β → Prop} {step : β → α → Option β} {start last : β}
    (turn : ∀ done state item after, I done state → step state item = some after →
      I (done ++ [item]) after)
    (initial : I [] start) (h : items.foldlM step start = some last) : I items last := by
  induction items using List.reverseRecOn generalizing last with
  | nil =>
    cases h
    exact initial
  | append_singleton items item ih =>
    rw [foldlM_append] at h
    obtain ⟨middle, before, h⟩ := Option.bind_eq_some_iff.1 h
    obtain ⟨after, taken, h⟩ := Option.bind_eq_some_iff.1 h
    cases h
    exact turn items middle item last (ih before) taken

/-- Items that are not for the scan change nothing. -/
theorem foldlM_filter (reserved : α → Bool) (step : β → α → Option β) {start : β} :
    items.foldlM (fun state item => if reserved item then step state item else some state) start =
      (items.filter reserved).foldlM step start := by
  induction items generalizing start with
  | nil => rfl
  | cons item _ ih =>
    rw [foldlM_cons]
    by_cases h : reserved item
    · rw [if_pos h, filter_cons_of_pos h, foldlM_cons]
      congr 1
      funext state
      exact ih
    · rw [if_neg h, filter_cons_of_neg h]
      exact ih

/-- Two scans with a cursor each, of which the first has the say about an item. -/
theorem foldlM_pair (first second : α → Bool) (one : β → α → Option β) (other : γ → α → Option γ)
    {start : β × γ} {last : β × γ} :
    items.foldlM (fun state item =>
        if first item then (one state.1 item).map fun left => (left, state.2)
        else if second item then (other state.2 item).map fun left => (state.1, left)
        else some state) start = some last ↔
      (items.filter first).foldlM one start.1 = some last.1 ∧
        (items.filter fun item => !first item && second item).foldlM other start.2 =
          some last.2 := by
  induction items generalizing start with
  | nil =>
    constructor
    · rintro ⟨⟩
      exact ⟨rfl, rfl⟩
    · rintro ⟨h, h'⟩
      exact congrArg some (Prod.ext (Option.some.inj h) (Option.some.inj h'))
  | cons item _ ih =>
    rw [foldlM_cons]
    by_cases h : first item
    · rw [if_pos h, filter_cons_of_pos h, filter_cons_of_neg (by simp [h]),
        foldlM_cons]
      cases one start.1 item with
      | none => simp
      | some => exact ih
    · rw [if_neg h, filter_cons_of_neg h]
      by_cases h' : second item
      · rw [if_pos h', filter_cons_of_pos (by simp [h, h']), foldlM_cons]
        cases other start.2 item with
        | none => simp
        | some => exact ih
      · rw [if_neg h', filter_cons_of_neg (by simp [h'])]
        exact ih

end RowScans
