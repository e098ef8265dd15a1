import Mathlib

/-! # Event projections

A projection folds an event stream into a state. Applying an event either accepts it or
reports an error; `feed` keeps going after a rejection, `replay` stops at the first one.
The rules below turn a fact about one accepted event into a fact about whole streams. -/
namespace EventProjection

universe u v w

structure Projection (σ : Type u) (α : Type v) (ε : Type w) where
  initial : σ
  apply : σ → α → Except ε Unit × σ

variable {σ : Type u} {α : Type v} {ε : Type w}

def Projection.Accepts (P : Projection σ α ε) (s : σ) (e : α) : Prop := (P.apply s e).1 = .ok ()

/-- A rejected event leaves the state exactly as it was. -/
def Projection.Atomic (P : Projection σ α ε) : Prop :=
  ∀ s e, ¬ P.Accepts s e → (P.apply s e).2 = s

def Projection.feed (P : Projection σ α ε) (s : σ) (events : List α) : σ :=
  events.foldl (fun s e => (P.apply s e).2) s

/-- States reached by any sequence of calls, whether each was accepted or rejected. -/
def Projection.Reachable (P : Projection σ α ε) (s : σ) : Prop :=
  ∃ events, P.feed P.initial events = s

/-- A stream every event of which is accepted, one after the other. -/
inductive Projection.Accepted (P : Projection σ α ε) : σ → List α → σ → Prop where
  | nil (s) : Accepted P s [] s
  | cons {s e events t} : P.Accepts s e → Accepted P (P.apply s e).2 events t →
      Accepted P s (e :: events) t

/-- The events of a stream that were accepted, rejected ones left out. -/
def Projection.acceptedEvents (P : Projection σ α ε) : σ → List α → List α
  | _, [] => []
  | s, e :: events =>
    match (P.apply s e).1 with
    | .ok () => e :: P.acceptedEvents (P.apply s e).2 events
    | .error _ => P.acceptedEvents (P.apply s e).2 events

def Projection.replayFrom (P : Projection σ α ε) (s : σ) : List α → Except ε σ
  | [] => .ok s
  | e :: events =>
    match P.apply s e with
    | (.ok (), t) => P.replayFrom t events
    | (.error err, _) => .error err

def Projection.replay (P : Projection σ α ε) (events : List α) : Except ε σ :=
  P.replayFrom P.initial events

@[simp] theorem feed_nil (P : Projection σ α ε) (s : σ) : P.feed s [] = s := rfl

@[simp] theorem feed_cons (P : Projection σ α ε) (s : σ) (e : α) (events : List α) :
    P.feed s (e :: events) = P.feed (P.apply s e).2 events := rfl

theorem feed_append (P : Projection σ α ε) (s : σ) (xs ys : List α) :
    P.feed s (xs ++ ys) = P.feed (P.feed s xs) ys := List.foldl_append

theorem reachable_initial (P : Projection σ α ε) : P.Reachable P.initial := ⟨[], rfl⟩

variable {P : Projection σ α ε} {s : σ} {I : σ → Prop}

/-- What one call preserves, every sequence of calls preserves. -/
theorem feed_invariant (step : ∀ s e, I s → I (P.apply s e).2) (hs : I s) (events : List α) :
    I (P.feed s events) := by
  induction events generalizing s with
  | nil => exact hs
  | cons e _ ih => exact ih (step s e hs)

/-- For an atomic projection only accepted calls have to be checked. -/
theorem atomic_step (ha : P.Atomic)
    (step : ∀ s e, P.Accepts s e → I s → I (P.apply s e).2) (s : σ) (e : α) (hs : I s) :
    I (P.apply s e).2 := by
  by_cases h : P.Accepts s e
  · exact step s e h hs
  · rw [ha s e h]
    exact hs

theorem reachable_inv (ha : P.Atomic)
    (init : I P.initial) (step : ∀ s e, P.Accepts s e → I s → I (P.apply s e).2)
    (h : P.Reachable s) : I s := by
  obtain ⟨events, rfl⟩ := h
  exact feed_invariant (atomic_step ha step) init events

variable {t : σ} {events : List α}

theorem replayFrom_accepted : P.replayFrom s events = .ok t ↔ P.Accepted s events t := by
  induction events generalizing s with
  | nil =>
    constructor
    · intro h
      obtain rfl := Except.ok.inj h
      exact .nil s
    · rintro ⟨⟩
      rfl
  | cons e _ ih =>
    rcases hx : P.apply s e with ⟨result, _⟩
    constructor
    · intro h
      cases result with
      | error => simp [Projection.replayFrom, hx] at h
      | ok =>
        simp only [Projection.replayFrom, hx] at h
        refine .cons (by simp [Projection.Accepts, hx]) ?_
        rw [hx]
        exact ih.1 h
    · rintro (_ | ⟨ha, ht⟩)
      cases result with
      | error => simp [Projection.Accepts, hx] at ha
      | ok =>
        simp only [Projection.replayFrom, hx]
        exact ih.2 (by simpa [hx] using ht)

theorem accepted_feed (h : P.Accepted s events t) : P.feed s events = t := by
  induction h with
  | nil => rfl
  | cons _ _ ih => exact ih

theorem accepted_of_isOk
    (h : (P.replayFrom s events).isOk) : P.Accepted s events (P.feed s events) := by
  cases hr : P.replayFrom s events with
  | error =>
    rw [hr] at h
    cases h
  | ok =>
    have ht := replayFrom_accepted.1 hr
    rw [accepted_feed ht]
    exact ht

theorem accepted_append {u : σ} {xs ys : List α} :
    P.Accepted s (xs ++ ys) u ↔ ∃ t, P.Accepted s xs t ∧ P.Accepted t ys u := by
  induction xs generalizing s with
  | nil =>
    constructor
    · intro h
      exact ⟨s, .nil s, h⟩
    · rintro ⟨t, ⟨⟩, h⟩
      exact h
  | cons _ _ ih =>
    constructor
    · rintro (_ | ⟨hx, h⟩)
      obtain ⟨t, h₁, h₂⟩ := ih.1 h
      exact ⟨t, .cons hx h₁, h₂⟩
    · rintro ⟨t, (_ | ⟨hx, h₁⟩), h₂⟩
      exact .cons hx (ih.2 ⟨t, h₁, h₂⟩)

/-- What holds at every position of a stream holds wherever a prefix of it has been accepted. -/
theorem forall_steps {Q : σ → α → Prop} (h : ∀ k ∈ List.range events.length, ∀ e ∈ events[k]?,
      Q (P.feed P.initial (events.take k)) e)
    (past : List α) (e : α) (s : σ) (hpre : past ++ [e] <+: events)
    (hs : P.Accepted P.initial past s) : Q s e := by
  have hlen : past.length < events.length := by simpa using hpre.length_le
  have hpast : past = events.take past.length :=
    List.prefix_iff_eq_take.1 ((List.prefix_append past [e]).trans hpre)
  have hev : events[past.length]? = some e := by
    obtain ⟨_, hrest⟩ := hpre
    rw [← hrest]
    simp
  have hq := h past.length (List.mem_range.2 hlen) e hev
  rw [← hpast, accepted_feed hs] at hq
  exact hq

/-- An invariant of accepted events holds at the end of every accepted stream. -/
theorem accepted_invariant (step : ∀ s e, P.Accepts s e → I s → I (P.apply s e).2)
    (h : P.Accepted s events t) (hs : I s) : I t := by
  induction h with
  | nil => exact hs
  | cons hx _ ih => exact ih (step _ _ hx hs)

/-- The rule with history: `J` relates the events accepted so far to the state. -/
theorem accepted_history {J : List α → σ → Prop}
    (step : ∀ past s e, P.Accepts s e → J past s → J (past ++ [e]) (P.apply s e).2)
    (past : List α) (h : P.Accepted s events t) (hs : J past s) : J (past ++ events) t := by
  induction h generalizing past with
  | nil => simpa using hs
  | cons hx _ ih => simpa using ih _ (step past _ _ hx hs)

section Shards

variable {κ : Type*} [DecidableEq κ] {β : Type*}

/-- Two streams hold the same events of every shard in the same order; they may interleave the
shards in different ways. -/
def SameShards (shard : α → κ) (xs ys : List α) : Prop :=
  ∀ k, xs.filter (fun e => shard e = k) = ys.filter fun e => shard e = k

/-- A view of the state that only the events of one shard can change is a fold over them. -/
theorem accepted_shard {shard : α → κ} {k : κ} {view : σ → β} {step : β → α → β}
    (hstep : ∀ s e, P.Accepts s e →
      view (P.apply s e).2 = if shard e = k then step (view s) e else view s)
    (h : P.Accepted s events t) :
    view t = (events.filter fun e => shard e = k).foldl step (view s) := by
  induction h with
  | nil => rfl
  | @cons s e events t hx _ ih =>
    rw [ih, hstep s e hx]
    by_cases hk : shard e = k
    · simp [hk]
    · simp [hk]

/-- A stream is accepted in any other interleaving of its shards when each event is, given that the
events of every shard are those of the accepted stream so far. -/
theorem accepted_interleaved {shard : α → κ} {xs ys : List α} (hys : P.Accepted s ys t)
    (hsame : SameShards shard xs ys)
    (hstep : ∀ before past e after u v, P.Accepted s before u → P.Accepted s past v →
      ys = past ++ e :: after → P.Accepts v e →
      (∀ k, before.filter (fun e => shard e = k) <+: ys.filter fun e => shard e = k) →
      before.filter (fun x => shard x = shard e) = past.filter (fun x => shard x = shard e) →
      P.Accepts u e) : ∃ u, P.Accepted s xs u := by
  suffices hpre : ∀ before, before <+: xs → ∃ u, P.Accepted s before u from
    hpre xs (List.prefix_refl xs)
  intro before
  induction before using List.reverseRecOn with
  | nil => exact fun _ => ⟨s, .nil s⟩
  | append_singleton before e ih =>
    rintro ⟨rest, rfl⟩
    obtain ⟨u, hu⟩ := ih ⟨e :: rest, by simp⟩
    have hown := (hsame (shard e)).symm
    rw [List.append_assoc, List.filter_append, List.filter_append,
      List.filter_cons_of_pos (by simp), List.filter_nil, List.singleton_append] at hown
    obtain ⟨front, back, rfl, hfront, hback⟩ := List.filter_eq_append_iff.1 hown
    obtain ⟨others, after, rfl, hothers, -, -⟩ := List.filter_eq_cons_iff.1 hback
    obtain ⟨v, hv, hrest⟩ := accepted_append.1 (List.append_assoc front others _ ▸ hys)
    cases hrest with
    | cons he _ =>
      refine ⟨_, accepted_append.2 ⟨u, hu, .cons (hstep before (front ++ others) e after u v hu hv
        (List.append_assoc ..).symm he ?_ ?_) (.nil _)⟩⟩
      · intro k
        rw [← hsame k, List.append_assoc, List.filter_append]
        exact List.prefix_append ..
      · rw [List.filter_append, hfront, List.filter_eq_nil_iff.2 hothers, List.append_nil]

end Shards

theorem accepted_acceptedEvents (ha : P.Atomic) (s : σ)
    (events : List α) : P.Accepted s (P.acceptedEvents s events) (P.feed s events) := by
  induction events generalizing s with
  | nil => exact .nil s
  | cons e _ ih =>
    unfold Projection.acceptedEvents
    split
    · rename_i h
      exact .cons h (ih _)
    · rename_i err h
      have hn : ¬ P.Accepts s e := by simp [Projection.Accepts, h]
      rw [feed_cons, ha s e hn]
      exact ih s

end EventProjection
