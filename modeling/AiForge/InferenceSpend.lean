import AiForge.SpendSummary

/-! # Inference spend preflight

Before an inference the whole log is replayed into the ceiling, usage and tool ledgers. With a
ceiling on record the inference is permitted only if the session's spend is known and below. -/
namespace InferenceSpend

open Content Money Events EventLog EventProjection UsageLedger ToolSpend SpendSummary Staged

inductive InferenceSpendErrorCode where
  | invalidHistory | accountingUnavailable | ceilingReached | internalFailure
  deriving DecidableEq

structure InferenceSpendError where
  code : InferenceSpendErrorCode
  message : String
  summary : Option SessionSpendSummary := none

/-- The usage and the tool ledger fed side by side, stopping at the first rejection. -/
def replayLedgers : Ledger → ToolSpendLedger → List RunEvent → Option (Ledger × ToolSpendLedger)
  | ledger, tools, [] => some (ledger, tools)
  | ledger, tools, event :: events =>
    match UsageLedgerProjection.apply ledger event with
    | (.error _, _) => none
    | (.ok (), ledger) =>
      match ToolSpendLedgerProjection.apply tools event with
      | (.error _, _) => none
      | (.ok (), tools) => replayLedgers ledger tools events

def preflightInferenceSpend (log : SessionEventLog) :
    Except InferenceSpendError (Option SessionSpendSummary) :=
  match SessionSpendCeilingProjection.replay log.events with
  | .error _ => .error ⟨.invalidHistory, "session spend ceiling history is invalid", none⟩
  | .ok state =>
    match state.ceiling with
    | none => .ok none
    | some ceiling =>
      match replayLedgers UsageLedgerProjection.initial ToolSpendLedgerProjection.initial
          log.events with
      | none => .error ⟨.invalidHistory, "session spend history is invalid", none⟩
      | some (ledger, tools) =>
        match summarizeCombinedSessionSpend ledger.records tools ceiling with
        | .error _ =>
          .error ⟨.accountingUnavailable,
            "session spend accounting is unavailable; refusing another inference", none⟩
        | .ok spend =>
          if spend.accounted.isNone then
            .error ⟨.accountingUnavailable,
              "session spend accounting is unavailable; refusing another inference", some spend⟩
          else if spend.reached then
            .error ⟨.ceilingReached, "session spend ceiling reached", some spend⟩
          else .ok (some spend)

/-- The purpose of the gate: the stream replays, every inference has an amount, and what has
been spent or may still be charged is below the latest ceiling. -/
def WithinCeiling (events : List RunEvent) : Prop :=
  ∃ ceilings ledger tools ceiling,
    SessionSpendCeilingProjection.Accepted SessionSpendCeilingProjection.initial events ceilings ∧
    UsageLedgerProjection.Accepted UsageLedgerProjection.initial events ledger ∧
    ToolSpendLedgerProjection.Accepted ToolSpendLedgerProjection.initial events tools ∧
    latestCeiling events = some ceiling ∧
    (∀ record ∈ ledger.records, ∃ source amount, accountedAmount record = .ok (source, amount)) ∧
    (ledger.records.map accountedValue).sum + (tools.records.map toolCharge).sum <
      ceiling.amount.value

theorem replayLedgers_accepted {ledger ledger' : Ledger} {tools tools' : ToolSpendLedger}
    {events : List RunEvent} (h : replayLedgers ledger tools events = some (ledger', tools')) :
    UsageLedgerProjection.Accepted ledger events ledger' ∧
    ToolSpendLedgerProjection.Accepted tools events tools' := by
  induction events generalizing ledger tools with
  | nil =>
    obtain ⟨rfl, rfl⟩ := Prod.mk.inj (Option.some.inj h)
    exact ⟨.nil _, .nil _⟩
  | cons _ _ ih =>
    unfold replayLedgers at h
    split at h
    · cases h
    · rename_i next hl
      split at h
      · cases h
      · rename_i nextTools ht
        obtain ⟨h₁, h₂⟩ := ih h
        exact ⟨.cons (by simp [Projection.Accepts, hl]) (by rw [hl]; exact h₁),
          .cons (by simp [Projection.Accepts, ht]) (by rw [ht]; exact h₂)⟩

variable {log : SessionEventLog}

theorem permitted_within_ceiling {summary : SessionSpendSummary}
    (h : preflightInferenceSpend log = .ok (some summary)) : WithinCeiling log.events := by
  unfold preflightInferenceSpend at h
  split at h
  · cases h
  · rename_i state hs
    have hst := replayFrom_accepted.1 hs
    split at h
    · cases h
    · rename_i ceiling hc
      split at h
      · cases h
      · rename_i ledger tools hl
        obtain ⟨hled, htools⟩ := replayLedgers_accepted hl
        split at h
        · cases h
        · rename_i spend hsum
          split_ifs at h with ha hr
          obtain ⟨hall, hreach⟩ :=
            summarizeCombined_accounted hsum (by simpa [Option.isSome_iff_ne_none] using ha)
          refine ⟨state, ledger, tools, ceiling, hst, hled, htools,
            (accepted_latestCeiling hst).symm.trans hc, fun record hrec => ?_,
            hreach.1 (by simpa using hr)⟩
          obtain ⟨⟨source, amount⟩, hamt⟩ := isOk_iff.1 (hall record hrec)
          exact ⟨source, amount, hamt⟩

theorem no_ceiling_iff : preflightInferenceSpend log = .ok none ↔
      ∀ event ∈ log.events, ceilingOf event.payload = none := by
  constructor
  · intro h
    unfold preflightInferenceSpend at h
    split at h
    · cases h
    · rename_i state hs
      split at h
      · rename_i hc
        rw [accepted_latestCeiling (replayFrom_accepted.1 hs), latestCeiling_none] at hc
        exact hc
      · split at h
        · cases h
        · split at h
          · cases h
          · split_ifs at h
            cases Except.ok.inj h
  · intro h
    have hs : SessionSpendCeilingProjection.replay log.events = .ok ⟨none, log.envelope⟩ :=
      replayFrom_accepted.2
        (accepted_of_no_ceiling (s := SessionSpendCeilingProjection.initial) log.fresh h)
    unfold preflightInferenceSpend
    rw [hs]

/-- The gate is sound: a summary is returned only within the ceiling, no ceiling is reported
exactly when none is recorded, and with one recorded everything else is an error. -/
theorem preflight_spend_gate (log : SessionEventLog) :
    (∀ summary, preflightInferenceSpend log = .ok (some summary) → WithinCeiling log.events) ∧
    ((∃ event ∈ log.events, (ceilingOf event.payload).isSome) → ¬ WithinCeiling log.events →
      ∃ error, preflightInferenceSpend log = .error error) ∧
    (preflightInferenceSpend log = .ok none ↔
      ¬ ∃ event ∈ log.events, (ceilingOf event.payload).isSome) := by
  have hnone : preflightInferenceSpend log = .ok none ↔
      ¬ ∃ event ∈ log.events, (ceilingOf event.payload).isSome := by
    rw [no_ceiling_iff]
    simp [Option.isSome_iff_ne_none]
  refine ⟨fun summary => permitted_within_ceiling, fun hceiling hfail => ?_, hnone⟩
  rcases hp : preflightInferenceSpend log with error | none | summary
  · exact ⟨error, rfl⟩
  · exact absurd hceiling (hnone.1 hp)
  · exact absurd (permitted_within_ceiling hp) hfail

example :
    (preflightInferenceSpend
      ⟨[⟨⟨"ceiling", "run", 1, 1, 0, none, none, none⟩,
        .sessionSpendCeilingSet ⟨⟨25, 1, by decide, by decide, by decide⟩, by decide, by decide⟩
          .commandLine⟩], by decide⟩).toOption.map (·.map (·.reached)) = some (some false) := by
  decide

/-- A ceiling is in force that is not above `c`. -/
def AtMost (c : SessionSpendCeiling) (s : CeilingState) : Prop :=
  ∃ d, s.ceiling = some d ∧ d.amount.value ≤ c.amount.value

theorem value_le_iff (left right : DecimalAmount) :
    compare left right ≠ .gt ↔ left.value ≤ right.value := by
  rw [Ne, compare_gt_iff, not_lt]

variable {c : SessionSpendCeiling}

theorem accepts_atMost {s : CeilingState} {event : RunEvent}
    (h : SessionSpendCeilingProjection.Accepts s event) (hs : AtMost c s) :
    AtMost c (SessionSpendCeilingProjection.apply s event).2 := by
  obtain ⟨d, hd, hle⟩ := hs
  rw [(applyCeiling_accepts h).2]
  cases hset : ceilingOf event.payload with
  | none => exact ⟨d, by simpa using hd, hle⟩
  | some e =>
    have hcmp := accepts_not_above h hd hset
    exact ⟨e, rfl, ((value_le_iff _ _).1 hcmp).trans hle⟩

theorem feed_atMost {s : CeilingState} (hs : AtMost c s)
    (later : List RunEvent) : AtMost c (SessionSpendCeilingProjection.feed s later) :=
  feed_invariant (atomic_step ceiling_atomic fun _ _ h hs => accepts_atMost h hs) hs later

/-- What the session has been charged and may still be charged, as far as it is on record. -/
def recordedCharges (events : List RunEvent) : ℚ :=
  ((UsageLedgerProjection.feed UsageLedgerProjection.initial events).records.map
    accountedValue).sum +
  ((ToolSpendLedgerProjection.feed ToolSpendLedgerProjection.initial events).records.map
    toolCharge).sum

/-- A refusal for the ceiling means that it is in force and has been reached. -/
theorem reached_charges {error : InferenceSpendError}
    (h : preflightInferenceSpend log = .error error) (hcode : error.code = .ceilingReached) :
    ∃ c, (SessionSpendCeilingProjection.feed SessionSpendCeilingProjection.initial
      log.events).ceiling = some c ∧ c.amount.value ≤ recordedCharges log.events := by
  unfold preflightInferenceSpend at h
  split at h
  · obtain rfl := Except.error.inj h
    cases hcode
  · rename_i state hs
    have hst := accepted_feed (replayFrom_accepted.1 hs)
    split at h
    · cases h
    · rename_i ceiling hc
      split at h
      · obtain rfl := Except.error.inj h
        cases hcode
      · rename_i ledger tools hl
        obtain ⟨hled, htools⟩ := replayLedgers_accepted hl
        split at h
        · obtain rfl := Except.error.inj h
          cases hcode
        · rename_i spend hsum
          split_ifs at h with ha hr
          · obtain rfl := Except.error.inj h
            cases hcode
          · obtain ⟨-, hreach⟩ :=
              summarizeCombined_accounted hsum (by simpa [Option.isSome_iff_ne_none] using ha)
            refine ⟨ceiling, by rw [hst]; exact hc, ?_⟩
            unfold recordedCharges
            rw [accepted_feed hled, accepted_feed htools]
            by_contra hlt
            rw [hreach.2 (not_le.1 hlt)] at hr
            cases hr

theorem permitted_charges {permitted : Option SessionSpendSummary}
    (h : preflightInferenceSpend log = .ok permitted)
    (hc : (SessionSpendCeilingProjection.feed SessionSpendCeilingProjection.initial
      log.events).ceiling = some c) : recordedCharges log.events < c.amount.value := by
  cases permitted with
  | none =>
    unfold preflightInferenceSpend at h
    split at h
    · cases h
    · rename_i state hs
      rw [accepted_feed (replayFrom_accepted.1 hs)] at hc
      rw [hc] at h
      dsimp only at h
      split at h
      · cases h
      · split at h
        · cases h
        · split_ifs at h
          cases Except.ok.inj h
  | some =>
    obtain ⟨_, _, _, ceiling, hceilings, hled, htools, hlast, -, hlt⟩ :=
      permitted_within_ceiling h
    rw [accepted_feed hceilings, accepted_latestCeiling hceilings, hlast] at hc
    cases hc
    unfold recordedCharges
    rw [accepted_feed hled, accepted_feed htools]
    exact hlt

/-- However a stream goes on, a recorded ceiling stays and is only lowered, a rejected event
leaves it as it was, and a session that has reached it is not let on again unless its recorded
charges shrink. -/
theorem session_ceiling_tightens (events : List RunEvent) :
    let s := SessionSpendCeilingProjection.feed SessionSpendCeilingProjection.initial events
    (∀ c, s.ceiling = some c → ∀ later, ∃ d,
      (SessionSpendCeilingProjection.feed s later).ceiling = some d ∧
      compare d.amount c.amount ≠ .gt ∧ d.amount.value ≤ c.amount.value) ∧
    (∀ event d, SessionSpendCeilingProjection.Accepts s event →
      ceilingOf event.payload = some d →
      (SessionSpendCeilingProjection.apply s event).2.ceiling = some d ∧
      ∀ c, s.ceiling = some c → compare d.amount c.amount ≠ .gt) ∧
    (∀ event, ¬ SessionSpendCeilingProjection.Accepts s event →
      (SessionSpendCeilingProjection.apply s event).2.ceiling = s.ceiling) ∧
    ∀ (log log' : SessionEventLog) (error : InferenceSpendError) (later : List RunEvent),
      log.events = events → preflightInferenceSpend log = .error error →
      error.code = .ceilingReached → log'.events = events ++ later →
      recordedCharges events ≤ recordedCharges (events ++ later) →
      ∀ permitted, preflightInferenceSpend log' ≠ .ok permitted := by
  intro s
  refine ⟨?_, ?_, ?_, ?_⟩
  · intro c hc later
    obtain ⟨d, hd, hle⟩ := feed_atMost ⟨c, hc, le_rfl⟩ later
    exact ⟨d, hd, (value_le_iff _ _).2 hle, hle⟩
  · intro event d ha hd
    refine ⟨?_, fun c hc => accepts_not_above ha hc hd⟩
    rw [(applyCeiling_accepts ha).2, hd]
    rfl
  · intro event hr
    rw [ceiling_atomic s event hr]
  · intro log log' error later hlog hrefused hcode hlog' hcharges permitted hpermitted
    subst hlog
    obtain ⟨c, hc, hreached⟩ := reached_charges hrefused hcode
    obtain ⟨d, hd, hle⟩ := feed_atMost ⟨c, hc, le_rfl⟩ later
    rw [← feed_append, ← hlog'] at hd
    have hbelow := permitted_charges hpermitted hd
    rw [hlog'] at hbelow
    exact absurd (hreached.trans hcharges) (not_le.2 (hbelow.trans_le hle))

def spendEvent (eventId : EventId) (sequence : ℕ) (payload : RunEventPayload) : RunEvent :=
  ⟨⟨eventId, "run", sequence, 1, 0, none, none, none⟩, payload⟩

def ceilingEvent (eventId : EventId) (sequence : ℕ) (c : SessionSpendCeiling) : RunEvent :=
  spendEvent eventId sequence (.sessionSpendCeilingSet c .commandLine)

def spentCeiling : List RunEvent :=
  [ceilingEvent "ceiling" 1 ⟨twoAndAHalf, by decide, by decide⟩,
    spendEvent "started" 2 (.inferenceStarted "inference" "model"),
    spendEvent "cost" 3 (.inferenceCostRecorded "inference"
      ⟨[usd twoAndAHalf], by decide, by decide, by simp⟩)]

def loweredCeiling : List RunEvent :=
  [ceilingEvent "lower" 4 ⟨one, by decide, by decide⟩]

def isCeilingRefusal : Except InferenceSpendError (Option SessionSpendSummary) → Bool
  | .error error => error.code == .ceilingReached
  | .ok _ => false

/-- The same charge stands after the ceiling is lowered, and so does the refusal. -/
theorem spent_ceiling_stays_reached :
    isCeilingRefusal (preflightInferenceSpend ⟨spentCeiling, by decide⟩) ∧
    ∀ permitted, preflightInferenceSpend ⟨spentCeiling ++ loweredCeiling, by decide⟩ ≠
      .ok permitted := by
  have hrefused : isCeilingRefusal (preflightInferenceSpend ⟨spentCeiling, by decide⟩) := by
    decide
  refine ⟨hrefused, ?_⟩
  cases hp : preflightInferenceSpend ⟨spentCeiling, by decide⟩ with
  | ok =>
    rw [hp] at hrefused
    cases hrefused
  | error error =>
    rw [hp] at hrefused
    have hcode : error.code = .ceilingReached := by simpa [isCeilingRefusal] using hrefused
    have husage : (UsageLedgerProjection.feed UsageLedgerProjection.initial
        (spentCeiling ++ loweredCeiling)).records =
        (UsageLedgerProjection.feed UsageLedgerProjection.initial spentCeiling).records := rfl
    have htools : (ToolSpendLedgerProjection.feed ToolSpendLedgerProjection.initial
        (spentCeiling ++ loweredCeiling)).records =
        (ToolSpendLedgerProjection.feed ToolSpendLedgerProjection.initial
          spentCeiling).records := rfl
    refine (session_ceiling_tightens spentCeiling).2.2.2 ⟨spentCeiling, by decide⟩ _ error
      loweredCeiling rfl hp hcode rfl ?_
    unfold recordedCharges
    rw [husage, htools]

end InferenceSpend
