import AiForge.KernelState
import AiForge.ScopeCover

/-! # Capability policy

A permission profile allows some requests by itself and lets others be approved, for one
invocation, for a session or for good. The store of saved grants is not trusted: what it
answers is an argument of every call, so that it may answer anything, each time anew. -/
namespace CapabilityPolicy

open Capability Content Events KernelState List ScopeCover Staged Except

structure PermissionProfile where
  permissionProfileId : PermissionProfileId
  automaticEffects : List Effect
  automaticScopes : List CapabilityScope
  approvableEffects : List Effect
  approvalCeiling : List CapabilityScope

structure SavedPolicyGrant where
  permissionProfileId : PermissionProfileId
  toolName : String
  effects : List Effect
  scopes : List CapabilityScope

inductive PolicyGrantStoreErrorCode where
  | unavailable | invalidData | permissionDenied | internalFailure

structure PolicyGrantStoreError where
  code : PolicyGrantStoreErrorCode
  message : String
  retryable : Bool := false

/-- What comes of a call of the store: it returns or it throws. -/
inductive StoreAnswer (α : Type) where
  | returned (result : Except PolicyGrantStoreError α)
  | thrown

structure SessionGrant where
  sessionId : SessionId
  grant : SavedPolicyGrant

structure Policy where
  profile : PermissionProfile
  storeConfigured : Bool
  sessionGrants : List SessionGrant := []

abbrev Outcome := Except ToolPolicyError ToolPolicyResolution

def invalidProfile (message : String) : ToolPolicyError := ⟨.invalidProfile, message, false⟩

def persistenceFailure (message : String) (retryable : Bool := false) : ToolPolicyError :=
  ⟨.persistenceFailure, message, retryable⟩

def internalFailure (message : String) : ToolPolicyError := ⟨.internalFailure, message, false⟩

def effectsCover (grants requested : List Effect) : Bool := requested.all grants.contains

def declaredEffects (effects : List Effect) (scopes : List CapabilityScope) : Bool :=
  scopes.all fun scope => effects.contains scope.effect

def malformedToolName (name : String) : Bool :=
  name == "" || 128 < name.utf8ByteSize || hasControlCharacter name

def validRequest (request : ToolPolicyRequest) : Except ToolPolicyError ToolPolicyRequest :=
  if malformedToolName request.toolName ∨ ¬ request.effects.Nodup then
    .error (invalidRequest "tool policy request is malformed")
  else do
    let scopes ← normalizeScopes request.scopes
    if declaredEffects request.effects scopes then return { request with scopes }
    else .error (invalidRequest "capability scope has an undeclared effect")

def grantCovers (grant : SavedPolicyGrant) (request : ToolPolicyRequest) : Bool :=
  grant.permissionProfileId == request.permissionProfileId &&
    grant.toolName == request.toolName && effectsCover grant.effects request.effects &&
    scopesCover grant.scopes request.scopes

def validSavedGrant (permissionProfileId : PermissionProfileId) (grant : SavedPolicyGrant) :
    Bool :=
  grant.permissionProfileId == permissionProfileId && !malformedToolName grant.toolName &&
    decide grant.effects.Nodup &&
    match normalizeScopes grant.scopes with
    | .ok scopes => declaredEffects grant.effects scopes
    | .error _ => false

/-- The automatic scopes and the ceiling of a profile, in normal form. -/
def profileScopes (profile : PermissionProfile) :
    Except ToolPolicyError (List CapabilityScope × List CapabilityScope) :=
  match normalizeScopes profile.automaticScopes, normalizeScopes profile.approvalCeiling with
  | .ok automatic, .ok ceiling =>
    if declaredEffects profile.automaticEffects automatic &&
        declaredEffects profile.approvableEffects ceiling then .ok (automatic, ceiling)
    else .error (invalidProfile "permission profile scopes are invalid")
  | _, _ => .error (invalidProfile "permission profile scopes are invalid")

def resolve (decision : PolicyDecision) (scopes : List CapabilityScope) (reason : String)
    (source : PolicyDecisionSource) : ToolPolicyResolution :=
  ⟨decision, scopes, some reason, source, none⟩

def sessionGrantCovers (policy : Policy) (request : ToolPolicyRequest) : Bool :=
  (policy.sessionGrants.filter fun g => g.sessionId = request.sessionId).any fun g =>
    grantCovers g.grant request

/-- Whether a saved grant within the ceiling covers the request. -/
def savedGrantCovers (policy : Policy) (ceiling : List CapabilityScope)
    (request : ToolPolicyRequest) (load : StoreAnswer (List SavedPolicyGrant)) :
    Except ToolPolicyError Bool :=
  if policy.storeConfigured = false then .ok false
  else
    match load with
    | .thrown => .error (internalFailure "tool policy evaluation failed internally")
    | .returned (.error err) =>
      .error (persistenceFailure "saved policy grants are unavailable" err.retryable)
    | .returned (.ok saved) =>
      if saved.any fun grant => !validSavedGrant policy.profile.permissionProfileId grant then
        .error (persistenceFailure "saved policy grants contain invalid capability data")
      else .ok (saved.any fun grant => grantCovers grant request &&
        effectsCover policy.profile.approvableEffects grant.effects &&
        scopesCover ceiling grant.scopes)

def evaluate (policy : Policy) (request : ToolPolicyRequest)
    (load : StoreAnswer (List SavedPolicyGrant)) : Outcome := do
  let request ← validRequest request
  if request.permissionProfileId ≠ policy.profile.permissionProfileId ∨
      ¬ policy.profile.automaticEffects.Nodup ∨ ¬ policy.profile.approvableEffects.Nodup then
    .error (invalidProfile "permission profile is invalid")
  else do
    let (automatic, ceiling) ← profileScopes policy.profile
    if effectsCover policy.profile.automaticEffects request.effects &&
        scopesCover automatic request.scopes then
      return resolve .allow request.scopes "allowed by the active permission profile"
          .permissionProfile
    else if sessionGrantCovers policy request then
      return resolve .allow request.scopes "allowed by a bounded session grant" .sessionGrant
    else do
      let saved ← savedGrantCovers policy ceiling request load
      if saved then
        return resolve .allow request.scopes "allowed by an explicit saved grant" .savedGrant
      else if effectsCover policy.profile.approvableEffects request.effects &&
          scopesCover ceiling request.scopes then
        return resolve .requireApproval request.scopes
            "the invocation requires explicit user approval" .permissionProfile
      else
        return resolve .deny [] "the active permission profile denies this invocation"
          .permissionProfile

/-- The grant an approval amounts to, whatever its lifetime. -/
def approvedGrant (profile : PermissionProfile) (request : ToolPolicyRequest)
    (approval : ToolPolicyApproval) : Except ToolPolicyError SavedPolicyGrant := do
  let request ← validRequest request
  if request.permissionProfileId ≠ profile.permissionProfileId then
    .error (invalidProfile "permission profile is invalid")
  else
    match normalizeScopes approval.grantedScopes, normalizeScopes profile.approvalCeiling with
    | .ok granted, .ok ceiling =>
      if effectsCover profile.approvableEffects request.effects && scopesCover ceiling granted &&
          scopesCover granted request.scopes && scopesCover request.scopes granted then
        return ⟨request.permissionProfileId, request.toolName, request.effects, granted⟩
      else .error ⟨.scopeWidening, "approval cannot widen or omit required authority", false⟩
    | _, _ => .error (invalidRequest "approval scopes are invalid")

def saveGrant (policy : Policy) (save : StoreAnswer Unit) : Except ToolPolicyError Unit :=
  if policy.storeConfigured = false then
    .error (persistenceFailure "saved policy storage is unavailable")
  else
    match save with
    | .thrown => .error (internalFailure "tool policy approval failed internally")
    | .returned (.error err) =>
      .error (persistenceFailure "saved policy grant could not be persisted" err.retryable)
    | .returned (.ok _) => .ok ()

def userApproval (granted : List CapabilityScope) : ToolPolicyResolution :=
  resolve .allow granted "allowed by explicit user approval" .userApproval

def approve (policy : Policy) (request : ToolPolicyRequest) (approval : ToolPolicyApproval)
    (save : StoreAnswer Unit) : Outcome × Policy :=
  match approvedGrant policy.profile request approval with
  | .error err => (.error err, policy)
  | .ok grant =>
    match approval.lifetime with
    | .invocation => (.ok (userApproval grant.scopes), policy)
    | .session => (.ok (userApproval grant.scopes), { policy with
        sessionGrants := policy.sessionGrants ++ [⟨request.sessionId, grant⟩] })
    | .saved =>
      match saveGrant policy save with
      | .error err => (.error err, policy)
      | .ok _ => (.ok (userApproval grant.scopes), policy)

inductive Call where
  | evaluate (request : ToolPolicyRequest) (load : StoreAnswer (List SavedPolicyGrant))
  | approve (request : ToolPolicyRequest) (approval : ToolPolicyApproval)
      (save : StoreAnswer Unit)

def Call.request : Call → ToolPolicyRequest
  | .evaluate request _ => request
  | .approve request _ _ => request

def answer (policy : Policy) : Call → Outcome × Policy
  | .evaluate request load => (evaluate policy request load, policy)
  | .approve request approval save => approve policy request approval save

def run (policy : Policy) (calls : List Call) : Policy :=
  calls.foldl (fun policy call => (answer policy call).2) policy

variable {request valid : ToolPolicyRequest}

theorem validRequest_ok (h : validRequest request = .ok valid) :
    normalizeScopes request.scopes = .ok valid.scopes ∧
      valid = { request with scopes := valid.scopes } := by
  unfold validRequest at h
  split_ifs at h
  obtain ⟨scopes, hsc, h⟩ := bind_ok.1 h
  split_ifs at h
  cases h
  exact ⟨hsc, rfl⟩

variable {profile : PermissionProfile} {ceiling : List CapabilityScope}

theorem profileScopes_ok {automatic : List CapabilityScope}
    (h : profileScopes profile = .ok (automatic, ceiling)) :
    normalizeScopes profile.automaticScopes = .ok automatic ∧
      normalizeScopes profile.approvalCeiling = .ok ceiling := by
  unfold profileScopes at h
  split at h
  · split_ifs at h
    obtain ⟨rfl, rfl⟩ := Prod.mk.inj (ok.inj h)
    exact ⟨by assumption, by assumption⟩
  · cases h

theorem effectsCover_iff {grants requested : List Effect} :
    effectsCover grants requested ↔ ∀ effect ∈ requested, effect ∈ grants := by
  simp [effectsCover]

theorem effectsCover_trans {a b c : List Effect} (hab : effectsCover a b)
    (hbc : effectsCover b c) : effectsCover a c := by
  rw [effectsCover_iff] at hab hbc ⊢
  exact fun effect h => hab effect (hbc effect h)

variable {grant : SavedPolicyGrant}

theorem grantCovers_iff : grantCovers grant request ↔
      grant.permissionProfileId = request.permissionProfileId ∧
        grant.toolName = request.toolName ∧ effectsCover grant.effects request.effects ∧
        scopesCover grant.scopes request.scopes := by
  simp [grantCovers, and_assoc]

/-- Effects and scopes that lie within a list of effects and a ceiling of scopes. -/
structure Within (effects : List Effect) (ceiling : List CapabilityScope)
    (request : ToolPolicyRequest) (scopes : List CapabilityScope) : Prop where
  effects : ∀ effect ∈ request.effects, effect ∈ effects
  requested : ∀ scope ∈ request.scopes, ∃ c ∈ ceiling, capabilityScopeCovers c scope
  granted : ∀ scope ∈ scopes, ∃ c ∈ ceiling, capabilityScopeCovers c scope

theorem within_of_normal {effects : List Effect} {normal : List CapabilityScope}
    (hval : validRequest request = .ok valid) (hceil : normalizeScopes ceiling = .ok normal)
    (heff : effectsCover effects request.effects)
    (hsc : scopesCover normal valid.scopes) :
    Within effects ceiling request valid.scopes := by
  have hgranted := scopesCover_trans (scopesCover_normal hceil).1 hsc
  have hreq := scopesCover_trans hgranted (scopesCover_normal (validRequest_ok hval).1).2
  exact ⟨effectsCover_iff.1 heff, scopesCover_iff.1 hreq, scopesCover_iff.1 hgranted⟩

/-- What a session grant has been checked for. -/
structure GrantBounded (profile : PermissionProfile) (grant : SavedPolicyGrant) : Prop where
  effects : effectsCover profile.approvableEffects grant.effects
  scopes : ∃ ceiling, normalizeScopes profile.approvalCeiling = .ok ceiling ∧
    scopesCover ceiling grant.scopes

variable {approval : ToolPolicyApproval}

theorem approvedGrant_ok (h : approvedGrant profile request approval = .ok grant) :
    GrantBounded profile grant ∧ grant.permissionProfileId = request.permissionProfileId ∧
      grant.toolName = request.toolName ∧ grant.effects = request.effects ∧
      Within profile.approvableEffects profile.approvalCeiling request grant.scopes := by
  obtain ⟨valid, hval, h⟩ := bind_ok.1 h
  obtain ⟨hnorm, heq⟩ := validRequest_ok hval
  split_ifs at h
  split at h
  · rename_i granted ceiling hgranted hceil
    split_ifs at h with hall
    simp only [Bool.and_eq_true] at hall
    obtain ⟨⟨⟨heff, hin⟩, hcov⟩, -⟩ := hall
    cases h
    have hsame : valid.effects = request.effects := by rw [heq]
    have habv := scopesCover_trans (scopesCover_normal hceil).1 hin
    have hreq := scopesCover_trans (scopesCover_trans habv hcov)
      (scopesCover_normal hnorm).2
    rw [hsame] at heff
    refine ⟨⟨?_, ceiling, hceil, hin⟩, ?_, ?_, hsame, effectsCover_iff.1 heff,
      scopesCover_iff.1 hreq, scopesCover_iff.1 habv⟩
    · rwa [hsame]
    · rw [heq]
    · rw [heq]
  · cases h

/-- The ways to an automatic answer. -/
inductive Route (policy : Policy) (request : ToolPolicyRequest) (scopes : List CapabilityScope) :
    PolicyDecisionSource → Prop where
  | automatic (h : Within policy.profile.automaticEffects policy.profile.automaticScopes
      request scopes) : Route policy request scopes .permissionProfile
  | session (g : SessionGrant) (hg : g ∈ policy.sessionGrants)
      (hsession : g.sessionId = request.sessionId)
      (hprofile : g.grant.permissionProfileId = request.permissionProfileId)
      (htool : g.grant.toolName = request.toolName)
      (hwithin : GrantBounded policy.profile g.grant →
        Within policy.profile.approvableEffects policy.profile.approvalCeiling request scopes) :
      Route policy request scopes .sessionGrant
  | saved (h : Within policy.profile.approvableEffects policy.profile.approvalCeiling
      request scopes) : Route policy request scopes .savedGrant

/-- A grant within the ceiling covers only what lies within the ceiling. -/
theorem within_of_grant (hval : validRequest request = .ok valid)
    (hcov : grantCovers grant valid) (hbd : GrantBounded profile grant) :
    Within profile.approvableEffects profile.approvalCeiling request valid.scopes := by
  obtain ⟨-, -, heff, hsc⟩ := grantCovers_iff.1 hcov
  obtain ⟨_, hceil, hin⟩ := hbd.scopes
  have hsame : valid.effects = request.effects := by rw [(validRequest_ok hval).2]
  rw [hsame] at heff
  exact within_of_normal hval hceil (effectsCover_trans hbd.effects heff)
    (scopesCover_trans hin hsc)

variable {policy : Policy} {load : StoreAnswer (List SavedPolicyGrant)}

theorem savedGrantCovers_true (h : savedGrantCovers policy ceiling request load = .ok true) :
    ∃ grant, grantCovers grant request ∧
      effectsCover policy.profile.approvableEffects grant.effects ∧
      scopesCover ceiling grant.scopes := by
  unfold savedGrantCovers at h
  split_ifs at h
  · cases ok.inj h
  · split at h
    · cases h
    · cases h
    · split_ifs at h
      obtain ⟨grant, -, hall⟩ := any_eq_true.1 (ok.inj h)
      simp only [Bool.and_eq_true] at hall
      exact ⟨grant, hall.1.1, hall.1.2, hall.2⟩

variable {resolution : ToolPolicyResolution}

theorem evaluate_allow
    (h : evaluate policy request load = .ok resolution) (ha : resolution.decision = .allow) :
    Route policy request resolution.scopes resolution.source := by
  obtain ⟨valid, hval, h⟩ := bind_ok.1 h
  obtain ⟨_, heq⟩ := validRequest_ok hval
  have hsame : valid.effects = request.effects := by rw [heq]
  split at h
  · cases h
  obtain ⟨⟨automatic, ceiling⟩, hsc, h⟩ := bind_ok.1 h
  obtain ⟨hautomatic, hceil⟩ := profileScopes_ok hsc
  dsimp only at h
  by_cases hauto : (effectsCover policy.profile.automaticEffects valid.effects &&
      scopesCover automatic valid.scopes)
  · rw [if_pos hauto] at h
    cases h
    rw [Bool.and_eq_true, hsame] at hauto
    exact .automatic (within_of_normal hval hautomatic hauto.1 hauto.2)
  rw [if_neg hauto] at h
  by_cases hsess : sessionGrantCovers policy valid
  · rw [if_pos hsess] at h
    cases h
    obtain ⟨g, hg, hcov⟩ := any_eq_true.1 hsess
    obtain ⟨hg, hid⟩ := mem_filter.1 hg
    obtain ⟨hprof, htool, -, -⟩ := grantCovers_iff.1 hcov
    refine .session g hg ?_ ?_ ?_ (within_of_grant hval hcov)
    · rw [of_decide_eq_true hid, heq]
    · rw [hprof, heq]
    · rw [htool, heq]
  rw [if_neg hsess] at h
  obtain ⟨saved, hsaved, h⟩ := bind_ok.1 h
  split_ifs at h with hs
  · cases h
    rw [hs] at hsaved
    obtain ⟨_, hcov, heff, hin⟩ := savedGrantCovers_true hsaved
    exact .saved (within_of_grant hval hcov ⟨heff, ceiling, hceil, hin⟩)
  · cases h
    cases ha
  · cases h
    cases ha

def grantOf (profile : PermissionProfile) : Call → Option SessionGrant
  | .evaluate _ _ => none
  | .approve request approval _ =>
    if approval.lifetime = .session then
      (approvedGrant profile request approval).toOption.map fun grant => ⟨request.sessionId, grant⟩
    else none

def Policy.withGrants (policy : Policy) (sessionGrants : List SessionGrant) : Policy :=
  { policy with sessionGrants }

theorem answer_policy (policy : Policy) (call : Call) : (answer policy call).2 =
      policy.withGrants (policy.sessionGrants ++ (grantOf policy.profile call).toList) := by
  cases call with
  | evaluate => simp [answer, grantOf, Policy.withGrants]
  | approve request approval save =>
    simp only [answer, approve, grantOf, Policy.withGrants]
    cases hgrt : approvedGrant policy.profile request approval with
    | error => cases approval.lifetime <;> simp [Except.toOption]
    | ok =>
      cases approval.lifetime with
      | invocation => simp
      | session => simp [Except.toOption]
      | saved => cases saveGrant policy save <;> simp

variable {g : SessionGrant}

theorem grantOf_some {call : Call} (h : grantOf profile call = some g) :
    ∃ request approval save, call = .approve request approval save ∧
      approval.lifetime = .session ∧ g.sessionId = request.sessionId ∧
      approvedGrant profile request approval = .ok g.grant := by
  cases call with
  | evaluate => cases h
  | approve request approval save =>
    simp only [grantOf] at h
    split_ifs at h with hsess
    obtain ⟨grant, hok, rfl⟩ := Option.map_eq_some_iff.1 h
    refine ⟨request, approval, save, rfl, hsess, rfl, ?_⟩
    cases happr : approvedGrant profile request approval with
    | error =>
      rw [happr] at hok
      cases hok
    | ok =>
      rw [happr] at hok
      rw [Option.some.inj hok]

theorem run_policy (policy : Policy) (calls : List Call) : run policy calls =
      policy.withGrants (policy.sessionGrants ++ calls.filterMap (grantOf policy.profile)) := by
  induction calls generalizing policy with
  | nil => simp [run, Policy.withGrants]
  | cons call rest ih =>
    have hstep : run policy (call :: rest) = run (answer policy call).2 rest := rfl
    rw [hstep, answer_policy, ih]
    cases hg : grantOf policy.profile call <;> simp [Policy.withGrants, hg]

theorem mem_grants {calls : List Call}
    (hnew : policy.sessionGrants = []) (hg : g ∈ (run policy calls).sessionGrants) :
    ∃ request approval save, Call.approve request approval save ∈ calls ∧
      approval.lifetime = .session ∧ g.sessionId = request.sessionId ∧
      approvedGrant policy.profile request approval = .ok g.grant := by
  rw [run_policy, hnew] at hg
  obtain ⟨_, hcall, hgrt⟩ := mem_filterMap.1 (by simpa [Policy.withGrants] using hg)
  obtain ⟨request, approval, save, rfl, hrest⟩ := grantOf_some hgrt
  exact ⟨request, approval, save, hcall, hrest⟩

theorem evaluate_foreign {before after : List SessionGrant}
    (h : g.sessionId ≠ request.sessionId ∨ g.grant.toolName ≠ request.toolName ∨
      g.grant.permissionProfileId ≠ request.permissionProfileId) :
    evaluate (policy.withGrants (before ++ g :: after)) request load =
      evaluate (policy.withGrants (before ++ after)) request load := by
  cases hval : validRequest request with
  | error =>
    unfold evaluate
    rw [hval]
    rfl
  | ok valid =>
    have heq := (validRequest_ok hval).2
    have hgrt : sessionGrantCovers (policy.withGrants (before ++ g :: after)) valid =
        sessionGrantCovers (policy.withGrants (before ++ after)) valid := by
      unfold sessionGrantCovers Policy.withGrants
      rw [filter_append, filter_append, filter_cons]
      by_cases hsess : g.sessionId = valid.sessionId
      · have hnot : grantCovers g.grant valid = false := by
          rw [Bool.eq_false_iff]
          intro hcov
          obtain ⟨hprof, htool, -, -⟩ := grantCovers_iff.1 hcov
          rw [heq] at hsess hprof htool
          rcases h with h | h | h
          · exact h hsess
          · exact h htool
          · exact h hprof
        rw [if_pos (decide_eq_true hsess)]
        simp [hnot]
      · rw [if_neg (by simpa using hsess)]
    unfold evaluate
    rw [hval]
    simp only [bind, Except.bind]
    rw [hgrt]
    rfl

def fresh (profile : PermissionProfile) (storeConfigured : Bool) : Policy :=
  { profile, storeConfigured }

/-- What bounds the authority a policy hands out, over all of its runs. -/
structure AuthorityBound (policy : Policy) : Prop where
  /-- What is allowed lies within what is automatic or within what may be approved. -/
  bounded : ∀ calls call resolution, (answer (run policy calls) call).1 = .ok resolution →
    resolution.decision = .allow →
    Within policy.profile.automaticEffects policy.profile.automaticScopes call.request
        resolution.scopes ∨
      Within policy.profile.approvableEffects policy.profile.approvalCeiling call.request
        resolution.scopes
  /-- An answer from a session grant goes back to an approval of the same session, tool and
  profile. -/
  traced : ∀ calls request load resolution,
    evaluate (run policy calls) request load = .ok resolution →
    resolution.source = .sessionGrant →
    ∃ earlier approval save, Call.approve earlier approval save ∈ calls ∧
      approval.lifetime = .session ∧ earlier.sessionId = request.sessionId ∧
      earlier.toolName = request.toolName ∧
      earlier.permissionProfileId = request.permissionProfileId
  /-- An approval changes no answer to a request of another session, tool or profile. -/
  separate : ∀ before earlier approval save after request load,
    earlier.sessionId ≠ request.sessionId ∨ earlier.toolName ≠ request.toolName ∨
      earlier.permissionProfileId ≠ request.permissionProfileId →
    evaluate (run policy (before ++ .approve earlier approval save :: after)) request load =
      evaluate (run policy (before ++ after)) request load
  /-- An approval that fails is as if it had not been asked for. -/
  inert : ∀ before earlier approval save after err,
    (approve (run policy before) earlier approval save).1 = .error err →
    run policy (before ++ .approve earlier approval save :: after) = run policy (before ++ after)

theorem source_allow (h : evaluate policy request load = .ok resolution)
    (hs : resolution.source = .sessionGrant) : resolution.decision = .allow := by
  obtain ⟨_, -, h⟩ := bind_ok.1 h
  split at h
  · cases h
  obtain ⟨⟨_, _⟩, -, h⟩ := bind_ok.1 h
  dsimp only at h
  split at h
  · rw [← ok.inj h] at hs
    cases hs
  split at h
  · rw [← ok.inj h]
    rfl
  obtain ⟨_, -, h⟩ := bind_ok.1 h
  split_ifs at h <;> rw [← ok.inj h] at hs <;> cases hs

theorem approve_allow {save : StoreAnswer Unit}
    (h : (approve policy request approval save).1 = .ok resolution) :
    ∃ grant, approvedGrant policy.profile request approval = .ok grant ∧
      resolution.scopes = grant.scopes := by
  unfold approve at h
  cases hgrt : approvedGrant policy.profile request approval with
  | error =>
    rw [hgrt] at h
    cases h
  | ok grant =>
    rw [hgrt] at h
    refine ⟨grant, rfl, ?_⟩
    cases hl : approval.lifetime with
    | saved =>
      rw [hl] at h
      dsimp only at h
      split at h
      · cases h
      · rw [← ok.inj h]
        rfl
    | invocation | session =>
      rw [hl] at h
      rw [← ok.inj h]
      rfl

theorem approve_error {save : StoreAnswer Unit} {err : ToolPolicyError}
    (h : (approve policy request approval save).1 = .error err) :
    (approve policy request approval save).2 = policy := by
  unfold approve at h ⊢
  split
  · rfl
  · rename_i grant hgrt
    rw [hgrt] at h
    cases hl : approval.lifetime with
    | saved =>
      dsimp only
      split <;> rfl
    | invocation => rfl
    | session =>
      rw [hl] at h
      cases h

@[simp] theorem run_profile (policy : Policy) (calls : List Call) :
    (run policy calls).profile = policy.profile := by
  rw [run_policy]
  rfl

/-- Every run of a fresh policy keeps to its profile. -/
theorem capability_authority_bound (profile : PermissionProfile) (storeConfigured : Bool) :
    AuthorityBound (fresh profile storeConfigured) := by
  refine ⟨?_, ?_, ?_, ?_⟩
  · intro calls call resolution h ha
    cases call with
    | approve =>
      right
      obtain ⟨_, hgrant, hscopes⟩ := approve_allow h
      rw [run_profile] at hgrant
      rw [hscopes]
      exact (approvedGrant_ok hgrant).2.2.2.2
    | evaluate =>
      have hroute := evaluate_allow h ha
      generalize resolution.source = source at hroute
      cases hroute with
      | automatic hwithin =>
        left
        rwa [run_profile] at hwithin
      | session _ hg _ _ _ hwithin =>
        right
        obtain ⟨earlier, approval, save, -, -, -, hgrant⟩ := mem_grants rfl hg
        rw [run_profile] at hwithin
        exact hwithin (approvedGrant_ok hgrant).1
      | saved hwithin =>
        right
        rwa [run_profile] at hwithin
  · intro calls request load resolution h hs
    have hroute := evaluate_allow h (source_allow h hs)
    rw [hs] at hroute
    obtain - | ⟨g, hg, hsession, hprofile, htool, -⟩ := hroute
    obtain ⟨earlier, approval, save, hcall, hlifetime, hid, hgrant⟩ := mem_grants rfl hg
    obtain ⟨-, hprofile', htool', -, -⟩ := approvedGrant_ok hgrant
    exact ⟨earlier, approval, save, hcall, hlifetime, hid.symm.trans hsession,
      htool'.symm.trans htool, hprofile'.symm.trans hprofile⟩
  · intro before earlier approval save after request load hforeign
    rw [run_policy, run_policy, filterMap_append, filterMap_append,
      filterMap_cons]
    cases hg : grantOf (fresh profile storeConfigured).profile
        (.approve earlier approval save) with
    | none => rfl
    | some g =>
      obtain ⟨_, _, _, hcall, -, hid, hgrant⟩ := grantOf_some hg
      obtain ⟨rfl, rfl, rfl⟩ := Call.approve.inj hcall
      obtain ⟨-, hprofile, htool, -, -⟩ := approvedGrant_ok hgrant
      rw [← hid, ← htool, ← hprofile] at hforeign
      rw [← append_assoc, ← append_assoc]
      exact evaluate_foreign hforeign
  · intro before earlier approval save after err h
    have hsplit : ∀ calls, run (fresh profile storeConfigured) (before ++ calls) =
        run (run (fresh profile storeConfigured) before) calls := by
      intro calls
      unfold run
      rw [foldl_append]
    rw [hsplit, hsplit]
    exact congrArg (run · after) (approve_error h)

end CapabilityPolicy
