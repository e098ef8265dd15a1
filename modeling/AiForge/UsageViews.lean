import AiForge.RunStateMachine
import AiForge.UsageTotals

/-! # Two views of usage

The usage ledger reads a whole session, a run projection only the events of its run. They
check different things, but count the same events: what a run shows as its usage is what the
ledger has recorded for its inferences. -/
namespace UsageViews

open Content Events EventProjection KeyedList RunProjection RunStateMachine UsageMachine
open UsageLedger (InferenceUsageRecord Ledger UsageLedgerProjection addUsage)
open UsageTotals

def ofRun (run : RunId) (events : List RunEvent) : List RunEvent :=
  events.filter fun event => event.metadata.runId = run

def recordsOf (run : RunId) (records : List InferenceUsageRecord) : List InferenceUsageRecord :=
  records.filter fun r => r.runId = run

variable {event : RunEvent}

/-- A run's usage grows by what is recorded for it and is otherwise left alone. -/
theorem visit_usage {s t : RunState} (h : visit s event = .ok t) :
    (usageOf event.payload = none ∧ t.usage = s.usage) ∨
      ∃ i usage, event.payload = .usageRecorded i usage ∧
        addUsage s.usage usage = some t.usage := by
  cases hp : event.payload
  case usageRecorded i usage =>
    unfold visit at h
    rw [hp] at h
    obtain ⟨-, h⟩ := during_bind h
    split at h
    · cases h
    · rename_i total htot
      cases h
      exact .inr ⟨i, usage, rfl, htot⟩
  all_goals exact .inl ⟨rfl, (visit_framed h).usage (by rw [hp]; exact nofun)⟩

def recordedIn (b : UsageBucket) (event : RunEvent) : ℕ :=
  match usageOf event.payload with
  | some (_, usage) => bucket b usage
  | none => 0

theorem run_usage_step {s t : RunState} (h : applyChecked s event = .ok t)
    (b : UsageBucket) : bucket b t.usage = bucket b s.usage + recordedIn b event := by
  obtain ⟨-, u, hu, rfl⟩ := applyChecked_ok h
  unfold recordedIn
  rcases visit_usage hu with ⟨hnone, hkept⟩ | ⟨i, usage, hp, hadd⟩
  · rw [hnone, hkept]
    rfl
  · rw [hp]
    exact (addUsage_some hadd b).1

theorem recordedIn_of_none {b : UsageBucket}
    (h : usageOf event.payload = none) : recordedIn b event = 0 := by
  unfold recordedIn
  rw [h]

/-- The usage of one run in one bucket, written as a sum over all records. -/
theorem usageSum_recordsOf (b : UsageBucket) (run : RunId) (records : List InferenceUsageRecord) :
    usageSum b (recordsOf run records) =
      (records.map fun r => if r.runId = run then bucket b r.usage else 0).sum := by
  induction records with
  | nil => rfl
  | cons r _ ih =>
    unfold usageSum recordsOf at ih ⊢
    by_cases hr : r.runId = run
    · simp [hr, ih]
    · simp [hr, ih]

/-- An event adds what it records to its own run, and nothing to any other. -/
theorem booked_usage_step {s t : Ledger} (h : Booked s event t) (b : UsageBucket) (run : RunId) :
    usageSum b (recordsOf run t.records) = usageSum b (recordsOf run s.records) +
      if event.metadata.runId = run then recordedIn b event else 0 := by
  rw [usageSum_recordsOf, usageSum_recordsOf]
  cases h with
  | kept hnone => simp [recordedIn_of_none hnone]
  | opened hp =>
    have hnone : recordedIn b event = 0 := recordedIn_of_none (by rw [hp]; rfl)
    simp [hnone]
  | noted hnone hr _ _ _ hfr huse =>
    refine sum_update hr ?_
    rw [hfr, huse, recordedIn_of_none hnone]
    simp
  | used hp hr hrun _ hrec =>
    refine sum_update hr ?_
    have hadd := (addUsage_some hrec b).1
    rw [hrun, hadd, show recordedIn b event = bucket b _ by unfold recordedIn; rw [hp]; rfl]
    split <;> rfl
  | charged hp hr =>
    have hnone : recordedIn b event = 0 := recordedIn_of_none (by rw [hp]; rfl)
    rw [hnone]
    refine sum_update hr ?_
    simp

theorem ofRun_snoc (run : RunId) (events : List RunEvent) (event : RunEvent) :
    ofRun run (events ++ [event]) =
      ofRun run events ++ if event.metadata.runId = run then [event] else [] := by
  unfold ofRun
  rw [List.filter_append]
  by_cases h : event.metadata.runId = run <;> simp [h]

/-- The usage a run projection shows is what the ledger has recorded for the run. -/
theorem run_usage_eq {events : List RunEvent} {ledger : Ledger}
    (h : UsageLedgerProjection.Accepted UsageLedgerProjection.initial events ledger)
    (run : RunId) (view : RunState)
    (hview : RunMachine.Accepted RunMachine.initial (ofRun run events) view) (b : UsageBucket) :
    bucket b view.usage = usageSum b (recordsOf run ledger.records) := by
  revert view
  refine accepted_history (J := fun past (s : Ledger) => ∀ view,
    RunMachine.Accepted RunMachine.initial (ofRun run past) view →
    bucket b view.usage = usageSum b (recordsOf run s.records)) ?_ [] h ?_
  · intro past s event ha ih view hview
    obtain ⟨t, hbook, happ⟩ := ledger_accepts ha
    rw [happ]
    rw [booked_usage_step hbook b run]
    rw [ofRun_snoc] at hview
    by_cases hrun : event.metadata.runId = run
    · rw [if_pos hrun] at hview ⊢
      obtain ⟨before, hpre, hstep⟩ := accepted_append.1 hview
      rw [run_usage_step (accepted_step hstep) b, ih before hpre]
    · rw [if_neg hrun, List.append_nil] at hview
      rw [if_neg hrun, add_zero]
      exact ih view hview
  · rintro view ⟨⟩
    cases b <;> rfl

theorem record_run_mem {events : List RunEvent} {ledger : Ledger}
    (h : UsageLedgerProjection.Accepted UsageLedgerProjection.initial events ledger) :
    ∀ r ∈ ledger.records, r.runId ∈ events.map fun event => event.metadata.runId := by
  refine accepted_history (J := fun past (s : Ledger) =>
    ∀ r ∈ s.records, r.runId ∈ past.map fun event => event.metadata.runId) ?_ [] h ?_
  · intro past s event ha ih
    obtain ⟨t, hbook, happ⟩ := ledger_accepts ha
    rw [happ]
    have hold : ∀ r ∈ s.records,
        r.runId ∈ (past ++ [event]).map fun event => event.metadata.runId := by
      intro r hr
      rw [List.map_append]
      exact List.mem_append_left _ (ih r hr)
    cases hbook with
    | kept => exact hold
    | opened =>
      intro r hr
      rcases List.mem_append.1 hr with hr | hr
      · exact hold r hr
      · obtain rfl := List.mem_singleton.1 hr
        simp
    | noted _ hfnd _ _ _ hfr =>
      refine forall_update hold ?_
      intro r hr hmem
      obtain rfl := Option.some.inj (hfnd.symm.trans hr)
      rw [hfr]
      exact hmem
    | used | charged => exact forall_update hold fun _ _ hmem => hmem
  · rintro r ⟨⟩

theorem sum_recordsOf {runs : Finset RunId} {records : List InferenceUsageRecord}
    (h : ∀ r ∈ records, r.runId ∈ runs) (b : UsageBucket) :
    ∑ run ∈ runs, usageSum b (recordsOf run records) = usageSum b records := by
  simp only [usageSum_recordsOf]
  induction records with
  | nil => simp [usageSum]
  | cons r _ ih =>
    have hr := h r (by simp)
    have hrest := ih fun r' hr' => h r' (by simp [hr'])
    simp only [List.map_cons, List.sum_cons, Finset.sum_add_distrib, hrest, usageSum,
      Finset.sum_ite_eq, hr, if_true]

/-- For every session stream that the ledger accepts as a whole and each run's projection
accepts for its run, the two views agree: run by run, and in total. -/
theorem usage_views_agree {events : List RunEvent} {ledger : Ledger} {views : RunId → RunState}
    (hledger : LedgerMachine.Accepted LedgerMachine.initial events ledger)
    (hviews : ∀ run, RunMachine.Accepted RunMachine.initial (ofRun run events) (views run)) :
    (∀ run b, bucket b (views run).usage = usageSum b (recordsOf run ledger.records)) ∧
    ∀ b, ∑ run ∈ (events.map fun event => event.metadata.runId).toFinset,
      bucket b (views run).usage = bucket b ledger.totalUsage := by
  rw [ledgerMachine_eq] at hledger
  have hruns : ∀ run b, bucket b (views run).usage = usageSum b (recordsOf run ledger.records) :=
    fun run b => run_usage_eq hledger run (views run) (hviews run) b
  refine ⟨hruns, fun b => ?_⟩
  have hexact := reachable_exact ⟨events, accepted_feed hledger⟩
  rw [hexact.usage_total b, ← sum_recordsOf (fun r hr =>
    List.mem_toFinset.2 (record_run_mem hledger r hr)) b]
  exact Finset.sum_congr rfl fun run _ => hruns run b

def sessionEvent (run : RunId) (eventId : EventId) (sequence : ℕ) (payload : RunEventPayload) :
    RunEvent := ⟨⟨eventId, run, sequence, 1, 0, none, none, none⟩, payload⟩

def startedEvent (run : RunId) (eventId : EventId) (sequence : ℕ) : RunEvent :=
  sessionEvent run eventId sequence (.runStarted
    ⟨"surface", "workspace", "profile", none, none, .conversation, none, false, false⟩)

/-- Two interleaved runs; the inference of the second fails after it was charged. -/
def twoRuns : List RunEvent :=
  [startedEvent "first" "a" 1, startedEvent "second" "b" 2,
    sessionEvent "first" "c" 3 (.inferenceStarted "inference-1" "model"),
    sessionEvent "second" "d" 4 (.inferenceStarted "inference-2" "model"),
    sessionEvent "second" "e" 5 (.usageRecorded "inference-2" ⟨7, 5, 3, 1⟩),
    sessionEvent "first" "f" 6 (.usageRecorded "inference-1" ⟨10, 20, 0, 4⟩),
    sessionEvent "second" "g" 7 (.inferenceFailed "inference-2" ⟨.backend, "lost", true⟩),
    sessionEvent "first" "h" 8 (.usageRecorded "inference-1" ⟨1, 2, 0, 0⟩)]

theorem two_runs_agree :
    (∃ ledger, LedgerMachine.Accepted LedgerMachine.initial twoRuns ledger) ∧ ∀ b,
    ∑ run ∈ (twoRuns.map fun event => event.metadata.runId).toFinset,
      bucket b (RunMachine.feed RunMachine.initial (ofRun run twoRuns)).usage =
    bucket b (LedgerMachine.feed LedgerMachine.initial twoRuns).totalUsage := by
  have hledger : LedgerMachine.Accepted LedgerMachine.initial twoRuns _ :=
    accepted_of_isOk (by decide)
  refine ⟨⟨_, hledger⟩, (usage_views_agree hledger fun run => accepted_of_isOk ?_).2⟩
  by_cases h₁ : run = "first"
  · subst h₁
    decide
  · by_cases h₂ : run = "second"
    · subst h₂
      decide
    · have hnone : ofRun run twoRuns = [] := by
        have e₁ := Ne.symm h₁
        have e₂ := Ne.symm h₂
        simp [ofRun, twoRuns, sessionEvent, startedEvent, e₁, e₂]
      rw [hnone]
      rfl

end UsageViews
