import AiForge.EventProjection
import AiForge.OpsBroker

/-! # Consent to logs

One activation of a selection holds the current authority and the sources whose logs may be
read. Whoever holds the activation changes it by compare-and-set: a change names the selection
generation and the log policy revision it was made for, and an accepted one raises both. Copies
of an authority that were handed out before it then match nothing. -/
namespace OpsLogConsent

open EventProjection OpsBroker OpsTarget Staged

structure OpsLogConsentChange where
  sessionId : String
  target : OpsTargetBinding
  (selectionGeneration logPolicyRevision : ℕ)
  source : OpsResourceIdentity
  enabled : Bool

def maximumRevision : ℕ := 2 ^ 63 - 1

def disabled (spec : OpsObservationAuthoritySpec) : Bool :=
  !spec.logs.enabled && spec.logs.permittedSources.isEmpty

def sourceValid (spec : OpsObservationAuthoritySpec) (source : OpsResourceIdentity) : Bool :=
  (validateTarget spec.target).isOk && resourceMatches source spec.target true

def unavailable : OpsTargetError :=
  ⟨.staleLogPolicy, "Ops log consent activation is no longer current"⟩

/-- The authority every operation but the first one starts from. -/
def live (s : OpsLogConsentActivation) : Except OpsTargetError OpsObservationAuthoritySpec := do
  ensure (s.active) unavailable
  require s.current unavailable

def start (s : OpsLogConsentActivation) (spec : OpsObservationAuthoritySpec) :
    Except OpsTargetError OpsLogConsentActivation := do
  ensure (s.active ∧ s.current = none) unavailable
  ensure (spec.sessionId = s.sessionId ∧ disabled spec)
    ⟨.invalidAuthority, "Ops session log consent must start disabled"⟩
  let _ ← OpsObservationAuthority.create spec
  return { s with current := some spec }

def authority (s : OpsLogConsentActivation) : Except OpsTargetError OpsObservationAuthority := do
  let current ← live s
  OpsObservationAuthority.create current

/-- What a change is checked against before a counter is looked at. -/
def accepts (current : OpsObservationAuthoritySpec) (change : OpsLogConsentChange) :
    Except OpsTargetError PUnit := do
  ensure (change.sessionId = current.sessionId ∧ change.target = current.target ∧
      change.selectionGeneration = current.selectionGeneration ∧
      change.logPolicyRevision = current.logs.revision)
    ⟨.staleLogPolicy, "Ops log consent change is no longer current"⟩
  ensure (sourceValid current change.source)
    ⟨.resourceMismatch, "Ops log consent requires an exact application source"⟩
  ensure (change.enabled ≠ current.logs.permittedSources.contains change.source)
    ⟨.staleLogPolicy, "Ops log consent change has already been applied"⟩

def exhausted (current : OpsObservationAuthoritySpec) : Bool :=
  current.selectionGeneration == maximumRevision || current.logs.revision == maximumRevision

def revisionExhausted : OpsTargetError :=
  ⟨.resourceExhausted, "Ops log consent revision is exhausted"⟩

def changedSources (sources : List OpsResourceIdentity) (change : OpsLogConsentChange) :
    List OpsResourceIdentity :=
  if change.enabled then sources ++ [change.source] else sources.erase change.source

def changed (current : OpsObservationAuthoritySpec) (change : OpsLogConsentChange) :
    OpsObservationAuthoritySpec :=
  { current with
    selectionGeneration := current.selectionGeneration + 1
    logs := {
      revision := current.logs.revision + 1
      enabled := !(changedSources current.logs.permittedSources change).isEmpty
      permittedSources := changedSources current.logs.permittedSources change } }

/-- An answer with the activation it leaves behind. -/
abbrev Answered (α : Type) := Except OpsTargetError α × OpsLogConsentActivation

/-- An operation that leaves the activation as it is when it fails. -/
def answer {α : Type} (s : OpsLogConsentActivation)
    (result : Except OpsTargetError (α × OpsLogConsentActivation)) : Answered α :=
  match result with
  | .ok (value, next) => (.ok value, next)
  | .error error => (.error error, s)

def apply (s : OpsLogConsentActivation) (change : OpsLogConsentChange) :
    Answered OpsObservationAuthority :=
  match (do let current ← live s; accepts current change; return current) with
  | .error error => (.error error, s)
  | .ok current =>
    if exhausted current then (.error revisionExhausted, s.revoke)
    else answer s do
      let checked ← OpsObservationAuthority.create (changed current change)
      return (checked, { s with current := some (changed current change) })

def replaceSelection (s : OpsLogConsentActivation) (spec : OpsObservationAuthoritySpec) :
    Answered OpsObservationAuthority :=
  answer s do
    let current ← live s
    ensure (spec.sessionId = current.sessionId ∧ spec.ownerId = current.ownerId ∧
        current.selectionGeneration < spec.selectionGeneration ∧
        current.logs.revision < spec.logs.revision ∧ disabled spec)
      ⟨.staleSelection, "Replacement Ops selection must revoke log consent"⟩
    let checked ← OpsObservationAuthority.create spec
    return (checked, { s with current := some spec })

inductive Call where
  | start (spec : OpsObservationAuthoritySpec)
  | authority
  | apply (change : OpsLogConsentChange)
  | replaceSelection (spec : OpsObservationAuthoritySpec)
  | revoke
  | revokeStale (selected : OpsObservationAuthoritySpec)

/-- Every call takes the lock of the activation, so calls follow one another. The answer carries
the authority that the call hands out, if it hands one out. -/
def perform (s : OpsLogConsentActivation) : Call → Answered (Option OpsObservationAuthority)
  | .start spec => answer s ((start s spec).map fun next => (none, next))
  | .authority => ((authority s).map some, s)
  | .apply change => ((apply s change).1.map some, (apply s change).2)
  | .replaceSelection spec => ((replaceSelection s spec).1.map some, (replaceSelection s spec).2)
  | .revoke => (.ok none, s.revoke)
  | .revokeStale selected => (.ok none, s.revokeStale selected)

/-- The calls that may put another authority in force. -/
def Call.changes : Call → Bool
  | .start _ | .apply _ | .replaceSelection _ => true
  | _ => false

def Call.revokes : Call → Bool
  | .revoke | .revokeStale _ => true
  | _ => false

def consent (session : String) :
    Projection OpsLogConsentActivation Call OpsTargetError where
  initial := { sessionId := session }
  apply s call := ((perform s call).1.map fun _ => (), (perform s call).2)

def handedOut (s : OpsLogConsentActivation) : List Call → List OpsObservationAuthority
  | [] => []
  | call :: calls =>
    ((perform s call).1.toOption.bind id).toList ++ handedOut (perform s call).2 calls

variable {s t : OpsLogConsentActivation} {spec current : OpsObservationAuthoritySpec}
  {change : OpsLogConsentChange} {call : Call}

theorem live_ok : live s = .ok current ↔ s.active ∧ s.current = some current := by
  unfold live
  rw [bind_ok]
  constructor
  · rintro ⟨_, hact, hcur⟩
    exact ⟨ensure_ok.1 hact, require_ok.1 hcur⟩
  · rintro ⟨hact, hcur⟩
    exact ⟨⟨⟩, ensure_ok.2 hact, require_ok.2 hcur⟩

variable {grant : OpsObservationAuthority}

theorem create_eq_ok
    (h : OpsObservationAuthority.create spec = .ok grant) : grant.specification = spec := by
  unfold OpsObservationAuthority.create at h
  split at h
  · exact congrArg OpsObservationAuthority.specification (Except.ok.inj h).symm
  · cases h

theorem answer_ok {α : Type} {result : Except OpsTargetError (α × OpsLogConsentActivation)}
    {value : α} (h : (answer s result).1 = .ok value) :
    result = .ok (value, (answer s result).2) := by
  cases result with
  | error => cases h
  | ok pair =>
    obtain ⟨_, _⟩ := pair
    cases h
    rfl

variable {error : OpsTargetError}

theorem answer_error {α : Type} {result : Except OpsTargetError (α × OpsLogConsentActivation)}
    (h : (answer s result).1 = .error error) : (answer s result).2 = s := by
  cases result with
  | error => rfl
  | ok => cases h

theorem start_ok (h : start s spec = .ok t) :
    s.active ∧ s.current = none ∧ spec.sessionId = s.sessionId ∧ disabled spec ∧
      t = { s with current := some spec } := by
  obtain ⟨hlive, h⟩ := guarded h
  obtain ⟨hspec, h⟩ := guarded h
  obtain ⟨_, _, h⟩ := bind_ok.1 h
  obtain ⟨hact, hcur⟩ := hlive
  obtain ⟨hsess, hdis⟩ := hspec
  exact ⟨hact, hcur, hsess, hdis, (Except.ok.inj h).symm⟩

theorem authority_ok (h : authority s = .ok grant) :
    s.active ∧ s.current = some grant.specification := by
  obtain ⟨current, hlive, h⟩ := bind_ok.1 h
  rw [create_eq_ok h]
  exact live_ok.1 hlive

theorem accepts_ok (h : accepts current change = .ok ⟨⟩) :
    change.sessionId = current.sessionId ∧ change.target = current.target ∧
      change.selectionGeneration = current.selectionGeneration ∧
      change.logPolicyRevision = current.logs.revision ∧
      (change.source ∈ current.logs.permittedSources ↔ change.enabled = false) := by
  obtain ⟨hbind, h⟩ := guarded h
  obtain ⟨_, _, h⟩ := bind_ok.1 h
  obtain ⟨hsess, htgt, hgen, hrev⟩ := hbind
  have hnew := ensure_ok.1 h
  refine ⟨hsess, htgt, hgen, hrev, ?_⟩
  rw [← List.contains_iff_mem]
  generalize current.logs.permittedSources.contains change.source = before at hnew
  generalize change.enabled = after at hnew
  revert before after
  decide

theorem apply_eq_ok (h : (apply s change).1 = .ok grant) :
    ∃ current, s.active ∧ s.current = some current ∧ accepts current change = .ok ⟨⟩ ∧
      exhausted current = false ∧ grant.specification = changed current change ∧
      (apply s change).2 = { s with current := some (changed current change) } := by
  unfold apply at h ⊢
  split at h
  · cases h
  · rename_i current hchk
    obtain ⟨current, hlive, hchk⟩ := bind_ok.1 hchk
    obtain ⟨_, hacc, hchk⟩ := bind_ok.1 hchk
    cases hchk
    obtain ⟨hact, hcur⟩ := live_ok.1 hlive
    split at h
    · cases h
    · rename_i hexh
      have hans := answer_ok h
      obtain ⟨_, hmade, hnext⟩ := bind_ok.1 hans
      obtain ⟨rfl, hst⟩ := Prod.mk.inj (Except.ok.inj hnext)
      rw [if_neg hexh, ← hst]
      exact ⟨current, hact, hcur, hacc, by simpa using hexh,
        create_eq_ok hmade, rfl⟩

theorem apply_error (h : (apply s change).1 = .error error) :
    (apply s change).2 = s ∨ ∃ current, s.current = some current ∧ exhausted current ∧
      error = revisionExhausted ∧ (apply s change).2 = s.revoke := by
  unfold apply at h ⊢
  split at h
  · exact .inl rfl
  · rename_i current hchk
    obtain ⟨current, hlive, hchk⟩ := bind_ok.1 hchk
    obtain ⟨_, _, hchk⟩ := bind_ok.1 hchk
    cases hchk
    split at h
    · rename_i hexh
      rw [if_pos hexh]
      exact .inr ⟨current, (live_ok.1 hlive).2, hexh, (Except.error.inj h).symm, rfl⟩
    · rename_i hexh
      rw [if_neg hexh]
      exact .inl (answer_error h)

theorem replaceSelection_eq_ok (h : (replaceSelection s spec).1 = .ok grant) :
    ∃ current, s.active ∧ s.current = some current ∧
      current.selectionGeneration < spec.selectionGeneration ∧
      current.logs.revision < spec.logs.revision ∧ disabled spec ∧
      grant.specification = spec ∧
      (replaceSelection s spec).2 = { s with current := some spec } := by
  have hans := answer_ok h
  obtain ⟨current, hlive, hans⟩ := bind_ok.1 hans
  obtain ⟨hchk, hans⟩ := guarded hans
  obtain ⟨_, hmade, hans⟩ := bind_ok.1 hans
  obtain ⟨rfl, hst⟩ := Prod.mk.inj (Except.ok.inj hans)
  obtain ⟨_, _, hgen, hrev, hdis⟩ := hchk
  obtain ⟨hact, hcur⟩ := live_ok.1 hlive
  exact ⟨current, hact, hcur, hgen, hrev, hdis, create_eq_ok hmade,
    hst.symm⟩

/-- A policy that reads logs exactly where a source is permitted, and lists none twice. -/
def Consistent (spec : OpsObservationAuthoritySpec) : Prop :=
  (spec.logs.enabled ↔ spec.logs.permittedSources ≠ []) ∧ spec.logs.permittedSources.Nodup

/-- The authority that an accepted change puts in force. -/
structure Renewal (s : OpsLogConsentActivation) (next : OpsObservationAuthoritySpec) : Prop where
  active : s.active
  consistent : Consistent next
  later : ∀ current ∈ s.current, current.selectionGeneration < next.selectionGeneration

inductive Moves (s : OpsLogConsentActivation) : OpsLogConsentActivation → Prop where
  | kept : Moves s s
  | revoked : Moves s s.revoke
  | renewed {next : OpsObservationAuthoritySpec} (h : Renewal s next) :
      Moves s { s with current := some next }

theorem consistent_disabled (h : disabled spec) : Consistent spec := by
  obtain ⟨henabled, hsrc⟩ := Bool.and_eq_true_iff.1 h
  have hnil : spec.logs.permittedSources = [] := List.isEmpty_iff.1 hsrc
  have hoff : spec.logs.enabled = false := by simpa using henabled
  constructor
  · simp [hnil, hoff]
  · simp [hnil]

theorem nodup_of_authority (h : OpsTarget.authority spec = .ok ()) :
    spec.logs.permittedSources.Nodup := by
  have hpol : logPolicy spec = .ok () := by
    obtain ⟨_, _, h⟩ := bind_ok.1 h
    dsimp only at h
    repeat
      split at h
      · cases h
    exact h
  unfold logPolicy at hpol
  split at hpol
  · cases hpol
  · split at hpol
    · rename_i hsrc
      exact hsrc.2
    · cases hpol

theorem consistent_changed
    (h : grant.specification = changed current change) : Consistent (changed current change) := by
  constructor
  · simp [changed]
  · exact nodup_of_authority (h ▸ grant.checked)

theorem perform_changes {handed : Option OpsObservationAuthority} (hc : call.changes)
    (h : (perform s call).1 = .ok handed) :
    ∃ next, Renewal s next ∧ (perform s call).2 = { s with current := some next } ∧
      ∀ grant ∈ handed, grant.specification = next := by
  cases call with
  | start spec =>
    have hans := answer_ok h
    obtain ⟨next, hbeg, hpair⟩ := map_ok.1 hans
    obtain ⟨rfl, hnext⟩ := Prod.mk.inj hpair
    obtain ⟨hact, hnone, _, hdis, rfl⟩ := start_ok hbeg
    refine ⟨spec, ⟨hact, consistent_disabled hdis, ?_⟩, hnext.symm, ?_⟩
    · simp [hnone]
    · simp
  | apply =>
    obtain ⟨grant, hgrt, rfl⟩ := map_ok.1 h
    obtain ⟨current, hact, hcur, _, _, hspec, hnext⟩ := apply_eq_ok hgrt
    refine ⟨_, ⟨hact, consistent_changed hspec, ?_⟩, hnext, ?_⟩
    · simp [hcur, changed]
    · simpa using hspec
  | replaceSelection spec =>
    obtain ⟨grant, hgrt, rfl⟩ := map_ok.1 h
    obtain ⟨current, hact, hcur, hgen, _, hdis, hspec, hnext⟩ :=
      replaceSelection_eq_ok hgrt
    refine ⟨spec, ⟨hact, consistent_disabled hdis, ?_⟩, hnext, ?_⟩
    · simpa [hcur] using hgen
    · simpa using hspec
  | authority | revoke | revokeStale => cases hc

/-- A rejected call leaves the activation as it was, or found a counter exhausted. -/
theorem perform_error (h : (perform s call).1 = .error error) :
    (perform s call).2 = s ∨ ∃ current, s.current = some current ∧ exhausted current ∧
      error = revisionExhausted ∧ (perform s call).2 = s.revoke := by
  cases call with
  | start => exact .inl (answer_error h)
  | authority => exact .inl rfl
  | apply => exact apply_error (map_error.1 h)
  | replaceSelection => exact .inl (answer_error (map_error.1 h))
  | revoke | revokeStale => cases h

theorem perform_moves (s : OpsLogConsentActivation) (call : Call) : Moves s (perform s call).2 := by
  cases hr : (perform s call).1 with
  | error =>
    rcases perform_error hr with hsame | ⟨_, _, _, _, hrev⟩
    · rw [hsame]
      exact .kept
    · rw [hrev]
      exact .revoked
  | ok =>
    by_cases hc : call.changes
    · obtain ⟨_, hren, hnext, _⟩ := perform_changes hc hr
      rw [hnext]
      exact .renewed hren
    · cases call with
      | start | apply | replaceSelection => exact absurd rfl hc
      | authority => exact .kept
      | revoke => exact .revoked
      | revokeStale selected =>
        change Moves s (s.revokeStale selected)
        unfold OpsLogConsentActivation.revokeStale
        split
        · exact .kept
        · exact .revoked

/-- The activation is revoked, or its selection has come to the generation. -/
def Reached (generation : ℕ) (s : OpsLogConsentActivation) : Prop :=
  s.active → ∃ current, s.current = some current ∧ generation ≤ current.selectionGeneration

variable {generation : ℕ}

theorem revoked_moves (h : s.active = false) (hm : Moves s t) : t.active = false := by
  cases hm with
  | kept => exact h
  | revoked => rfl
  | renewed hren => exact absurd hren.active (by simp [h])

theorem reached_moves (h : Reached generation s) (hm : Moves s t) : Reached generation t := by
  cases hm with
  | kept => exact h
  | revoked =>
    intro hact
    cases hact
  | @renewed next hren =>
    intro _
    obtain ⟨current, hcur, _⟩ := h hren.active
    have hlat := hren.later current hcur
    exact ⟨next, rfl, by omega⟩

theorem reached_renewed {next : OpsObservationAuthoritySpec} (h : Reached generation s)
    (hren : Renewal s next) : Reached (generation + 1) { s with current := some next } := by
  intro _
  obtain ⟨current, hcur, _⟩ := h hren.active
  have hlat := hren.later current hcur
  exact ⟨next, rfl, by omega⟩

/-- An authority of an earlier generation than the one reached matches nothing. -/
theorem isCurrent_reached (h : Reached generation s) (hlt : spec.selectionGeneration < generation) :
    s.isCurrent spec = false := by
  cases hact : s.active with
  | false => simp [OpsLogConsentActivation.isCurrent, hact]
  | true =>
    obtain ⟨current, hcur, _⟩ := h hact
    have hne : current ≠ spec := by
      rintro rfl
      omega
    simp [OpsLogConsentActivation.isCurrent, hcur, hne]

theorem consistent_moves (h : ∀ spec ∈ s.current, Consistent spec) (hm : Moves s t) :
    ∀ spec ∈ t.current, Consistent spec := by
  cases hm with
  | kept => exact h
  | revoked =>
    intro spec hspec
    obtain ⟨current, _, rfl⟩ := Option.map_eq_some_iff.1 hspec
    exact consistent_disabled rfl
  | renewed hren =>
    intro spec hspec
    cases hspec
    exact hren.consistent

theorem handed_reached (h : (perform s call).1 = .ok (some grant)) :
    Reached grant.specification.selectionGeneration (perform s call).2 := by
  by_cases hc : call.changes
  · obtain ⟨next, _, hnext, hgrt⟩ := perform_changes hc h
    rw [hnext, hgrt grant rfl]
    intro _
    exact ⟨next, rfl, le_rfl⟩
  · cases call with
    | start | apply | replaceSelection => exact absurd rfl hc
    | authority =>
      obtain ⟨_, hchk, hsome⟩ := map_ok.1 h
      cases hsome
      intro _
      exact ⟨_, (authority_ok hchk).2, le_rfl⟩
    | revoke | revokeStale => cases h

section Runs

variable {session : String}

theorem feed_moves {I : OpsLogConsentActivation → Prop} (step : ∀ s t, I s → Moves s t → I t)
    (session : String) (hs : I s) (calls : List Call) : I ((consent session).feed s calls) :=
  feed_invariant (fun s call hs => step s _ hs (perform_moves s call)) hs calls

theorem handedOut_reached (calls : List Call) (h : grant ∈ handedOut s calls) :
    Reached grant.specification.selectionGeneration ((consent session).feed s calls) := by
  induction calls generalizing s with
  | nil => cases h
  | cons call calls ih =>
    rcases List.mem_append.1 h with hfst | hrest
    · cases hr : (perform s call).1 with
      | error => simp [hr, Except.toOption] at hfst
      | ok =>
        simp only [hr, Except.toOption, Option.bind_some, id_eq, Option.mem_toList]
          at hfst
        rw [hfst] at hr
        exact feed_moves (fun _ _ => reached_moves) _ (handed_reached hr) calls
    · exact ih hrest

theorem revoked_rejects (h : s.active = false) (hc : call.revokes = false) :
    ∃ error, (perform s call).1 = .error error := by
  cases hr : (perform s call).1 with
  | error error => exact ⟨error, rfl⟩
  | ok =>
    by_cases hchg : call.changes
    · obtain ⟨_, hren, _⟩ := perform_changes hchg hr
      exact absurd hren.active (by simp [h])
    · cases call with
      | start | apply | replaceSelection => exact absurd rfl hchg
      | authority =>
        obtain ⟨_, hgrt, _⟩ := map_ok.1 hr
        exact absurd (authority_ok hgrt).1 (by simp [h])
      | revoke | revokeStale => cases hc

/-- What an accepted change does: both counters go up by one, the permission of its source is
turned around, and nothing else changes. -/
structure Applied (current : OpsObservationAuthoritySpec) (change : OpsLogConsentChange)
    (next : OpsObservationAuthoritySpec) : Prop where
  generation : next.selectionGeneration = current.selectionGeneration + 1
  revision : next.logs.revision = current.logs.revision + 1
  requested : change.source ∈ next.logs.permittedSources ↔ change.enabled
  turned : change.source ∈ next.logs.permittedSources ↔
    change.source ∉ current.logs.permittedSources
  others : ∀ source, source ≠ change.source →
    (source ∈ next.logs.permittedSources ↔ source ∈ current.logs.permittedSources)
  rest : next = { current with selectionGeneration := next.selectionGeneration, logs := next.logs }

structure Replaced (current next : OpsObservationAuthoritySpec) : Prop where
  generation : current.selectionGeneration < next.selectionGeneration
  revision : current.logs.revision < next.logs.revision
  sources : next.logs.permittedSources = []
  enabled : next.logs.enabled = false

theorem mem_changedSources {sources : List OpsResourceIdentity} {source : OpsResourceIdentity}
    (hnd : sources.Nodup) : source ∈ changedSources sources change ↔
      (source = change.source ∧ change.enabled) ∨
        (source ≠ change.source ∧ source ∈ sources) := by
  unfold changedSources
  cases change.enabled with
  | true =>
    rw [if_pos rfl, List.mem_append, List.mem_singleton]
    by_cases h : source = change.source
    · simp [h]
    · simp [h]
  | false =>
    rw [if_neg (by decide), hnd.mem_erase_iff]
    simp

theorem applied_changed (hnd : current.logs.permittedSources.Nodup)
    (h : accepts current change = .ok ⟨⟩) : Applied current change (changed current change) := by
  obtain ⟨_, _, _, _, hsrc⟩ := accepts_ok h
  have hmem : ∀ source, source ∈ (changed current change).logs.permittedSources ↔ _ :=
    fun source => mem_changedSources hnd
  constructor
  case generation | revision | rest => rfl
  case requested =>
    rw [hmem]
    simp
  case turned =>
    rw [hmem, hsrc]
    simp
  case others =>
    intro source hne
    rw [hmem]
    simp [hne]

theorem replaced_disabled (hgen : current.selectionGeneration < spec.selectionGeneration)
    (hrev : current.logs.revision < spec.logs.revision) (hdis : disabled spec) :
    Replaced current spec := by
  obtain ⟨henabled, hsrc⟩ := Bool.and_eq_true_iff.1 hdis
  exact ⟨hgen, hrev, List.isEmpty_iff.1 hsrc, by simpa using henabled⟩

/-- Consent to logs is fenced: whatever calls are made on an activation, its policy stays
consistent, an accepted change or replacement leaves every authority handed out before it
behind for good, a revoked activation stays revoked, and a rejected call changes nothing
unless a counter is exhausted. -/
theorem log_consent_fenced (session : String) (calls : List Call) :
    let s := (consent session).feed (consent session).initial calls
    (∀ spec ∈ s.current, Consistent spec) ∧
    (∀ change grant, (apply s change).1 = .ok grant → ∃ current, s.current = some current ∧
      (apply s change).2.current = some grant.specification ∧
      Applied current change grant.specification) ∧
    (∀ spec grant, (replaceSelection s spec).1 = .ok grant → ∃ current,
      s.current = some current ∧ (replaceSelection s spec).2.current = some grant.specification ∧
      grant.specification = spec ∧ Replaced current spec) ∧
    (s.active = false → ∀ later, (∀ spec, ((consent session).feed s later).isCurrent spec = false) ∧
      ∀ call, call.revokes = false →
        ∃ error, (perform ((consent session).feed s later) call).1 = .error error) ∧
    (∀ grant ∈ handedOut (consent session).initial calls, ∀ call later, call.changes →
      (consent session).Accepts s call →
        ((consent session).feed s (call :: later)).isCurrent grant.specification = false) ∧
    (∀ call error, (perform s call).1 = .error error → (perform s call).2 = s ∨
      ∃ current, s.current = some current ∧ exhausted current ∧
        error = revisionExhausted ∧ (perform s call).2 = s.revoke) := by
  intro s
  have hconsistent : ∀ spec ∈ s.current, Consistent spec :=
    feed_moves (fun _ _ => consistent_moves) _ (fun spec hspec => by cases hspec) calls
  refine ⟨hconsistent, ?applied, ?replaced, ?revoked, ?fenced, ?rejected⟩
  case applied =>
    intro change grant h
    obtain ⟨current, _, hcurrent, haccepts, _, hspec, hnext⟩ := apply_eq_ok h
    refine ⟨current, hcurrent, ?_, ?_⟩
    · rw [hnext, hspec]
    · rw [hspec]
      exact applied_changed (hconsistent current hcurrent).2 haccepts
  case replaced =>
    intro spec grant h
    obtain ⟨current, _, hcurrent, hgeneration, hrevision, hdisabled, hspec, hnext⟩ :=
      replaceSelection_eq_ok h
    refine ⟨current, hcurrent, ?_, hspec, replaced_disabled hgeneration hrevision hdisabled⟩
    rw [hnext, hspec]
  case revoked =>
    intro hrevoked later
    have hlater : ((consent session).feed s later).active = false :=
      feed_moves (fun _ _ => revoked_moves) _ hrevoked later
    constructor
    · intro spec
      simp [OpsLogConsentActivation.isCurrent, hlater]
    · intro call hc
      exact revoked_rejects hlater hc
  case fenced =>
    intro grant hgrant call later hc haccepts
    have hreached : Reached grant.specification.selectionGeneration s :=
      handedOut_reached calls hgrant
    obtain ⟨_, hhanded, _⟩ := map_ok.1 haccepts
    obtain ⟨_, hrenewal, hnext, _⟩ := perform_changes hc hhanded
    have hpast := reached_renewed hreached hrenewal
    rw [← hnext] at hpast
    have hend := feed_moves (fun _ _ => reached_moves) session hpast later
    exact isCurrent_reached hend (Nat.lt_succ_self _)
  case rejected =>
    intro call error h
    exact perform_error h

end Runs

/-! ### A sample run -/

def sampleSpec : OpsObservationAuthoritySpec where
  ownerId := "owner"
  sessionId := "session"
  target := ⟨"host", "revision", .linux ⟨.host,
    SafeText.bytesOf "01234567-89ab-cdef-0123-456789abcdef", 1, 1⟩⟩
  selectionGeneration := 1
  operations := [.linuxServiceLogs]

def sampleChange : OpsLogConsentChange where
  sessionId := "session"
  target := sampleSpec.target
  selectionGeneration := 1
  logPolicyRevision := 1
  source := .linuxService ⟨SafeText.bytesOf "web.service", some "invocation"⟩
  enabled := true

def sampleAuthority : OpsObservationAuthority := ⟨sampleSpec, by decide +kernel⟩

/-- The authority handed out before a source was permitted is stale afterwards. -/
theorem sample_stale : (consent "session").Accepts
        ((consent "session").feed (consent "session").initial [.start sampleSpec, .authority])
        (.apply sampleChange) ∧
      ((consent "session").feed (consent "session").initial
        [.start sampleSpec, .authority, .apply sampleChange]).isCurrent sampleSpec = false := by
  have haccepts : (consent "session").Accepts
      ((consent "session").feed (consent "session").initial [.start sampleSpec, .authority])
      (.apply sampleChange) := by
    obtain ⟨_, hvalue⟩ := Staged.isOk_iff.1 (show (((consent "session").apply
      ((consent "session").feed (consent "session").initial [.start sampleSpec, .authority])
      (.apply sampleChange)).1).isOk = true by decide +kernel)
    exact hvalue
  have hhanded : sampleAuthority ∈
      handedOut (consent "session").initial [.start sampleSpec, .authority] := by decide +kernel
  obtain ⟨_, _, _, _, hfenced, _⟩ :=
    log_consent_fenced "session" [.start sampleSpec, .authority]
  exact ⟨haccepts, hfenced sampleAuthority hhanded (.apply sampleChange) [] rfl haccepts⟩

end OpsLogConsent
