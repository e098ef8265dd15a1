import AiForge.ApprovalMatcher
import AiForge.CapabilityPolicy

/-! # Launch policy

A launch policy is bound to one set of registrations and to the restrictions the application
was launched with. Whatever the approval mode, a request is held against the declaration of the
tool it names before anything is allowed. -/
namespace LaunchPolicy

open ApprovalMatcher Capability Content KernelState ScopeCover CapabilityPolicy
open Staged Except

inductive ApprovalMode where
  | prompt | automatic | allowAll
  deriving DecidableEq

inductive RestrictionUnavailableReason where
  | unsupportedPlatform | unsupportedArchitecture | unsupportedKernel | missingDelegation
  | missingController | permissionDenied | privilegeChanged | mechanismAbsent
  | unsupportedCombination | setupRace | enforcementFailed | cleanupFailed | internalError
  deriving DecidableEq

inductive ProcessNetworkContract where
  | unrestrictedNewSockets | denyNewSockets

structure LaunchMechanismContract where
  identity : String := "aiforge.linux-restriction-levels"
  version : String := "0018"
  deriving DecidableEq

structure ApplicationLaunchContextConfiguration where
  selectedRestriction : RestrictionLevel := .high
  achievedRestriction : Option RestrictionLevel := none
  unavailableReason : Option RestrictionUnavailableReason := some .mechanismAbsent
  mechanism : LaunchMechanismContract := {}
  restrictionPolicyIdentity : Option String := none
  approvalMode : ApprovalMode := .prompt
  matcherPolicyIdentity : Option String := none

inductive ApplicationLaunchContextErrorCode where
  | invalidLevel | invalidMode | invalidState | invalidIdentity
  deriving DecidableEq

structure ApplicationLaunchContextError where
  code : ApplicationLaunchContextErrorCode
  message : String
  deriving DecidableEq

def identityCharacter (extra : List Char) (c : Char) : Bool :=
  decide ('a' ≤ c ∧ c ≤ 'z') || decide ('A' ≤ c ∧ c ≤ 'Z') || decide (DecimalDigits.IsDigit c) ||
    extra.contains c

def validLaunchIdentity (value : String) : Bool :=
  value != "" && value.utf8ByteSize ≤ 128 &&
    value.toList.all (identityCharacter ['.', '_', '-', ':'])

/-- Levels, modes and reasons are valid by their type. -/
def checkLaunchConfiguration (c : ApplicationLaunchContextConfiguration) :
    Except ApplicationLaunchContextError Unit :=
  if c.achievedRestriction.isSome = c.unavailableReason.isSome ∨
      (c.achievedRestriction.any fun achieved => decide (achieved ≠ c.selectedRestriction)) then
    .error ⟨.invalidState, "application restriction state is inconsistent"⟩
  else if validLaunchIdentity c.mechanism.identity = false ∨
      validLaunchIdentity c.mechanism.version = false ∨
      (c.restrictionPolicyIdentity.any fun identity => !validLaunchIdentity identity) ∨
      (c.matcherPolicyIdentity.any fun identity => !validLaunchIdentity identity) then
    .error ⟨.invalidIdentity, "application launch identity is invalid"⟩
  else if decide (c.approvalMode = .automatic) ≠ c.matcherPolicyIdentity.isSome ∨
      c.achievedRestriction.isSome ≠ c.restrictionPolicyIdentity.isSome then
    .error ⟨.invalidState, "application policy identities conflict with launch state"⟩
  else .ok ()

/-- A context can be had only from a configuration that has been checked. -/
structure ApplicationLaunchContext where
  configuration : ApplicationLaunchContextConfiguration
  checked : checkLaunchConfiguration configuration = .ok ()

def ApplicationLaunchContext.processRestrictionAvailable (c : ApplicationLaunchContext) : Bool :=
  c.configuration.achievedRestriction.isSome

def ApplicationLaunchContext.processNetworkContract (c : ApplicationLaunchContext) :
    Option ProcessNetworkContract :=
  c.configuration.achievedRestriction.map fun
    | .unrestricted | .low => .unrestrictedNewSockets
    | .medium | .high => .denyNewSockets

inductive ToolCategory where
  | interaction | memory | repository | process | media | other
  deriving DecidableEq

structure Registration where
  tool : RegisteredTool
  category : ToolCategory := .other

def Registration.declaration (r : Registration) : ToolDeclaration := r.tool.declaration

/-- Of the tools that are unavailable only the names are read. -/
structure Registry where
  tools : List Registration
  unavailableTools : List String := []

def Registry.declarations (registry : Registry) : List ToolDeclaration :=
  registry.tools.map Registration.declaration

def Registry.find (registry : Registry) (name : String) : Option Registration :=
  registry.tools.find? fun r => r.declaration.name = name

def unrestrictedNetwork : CapabilityScope := ⟨.network, "network.unrestricted", "new-sockets"⟩

def processRegistrationMatches (r : Registration) (context : ApplicationLaunchContext) : Bool :=
  let networkEffects := r.declaration.effects.count .network
  let networkScopes := r.declaration.capabilityScopes.filter fun s => s.effect = .network
  let declaresUnrestricted := networkEffects == 1 && decide (networkScopes = [unrestrictedNetwork])
  let declaresDenied := networkEffects == 0 && networkScopes.isEmpty
  if r.category ≠ .process then true
  else if context.processRestrictionAvailable = false then declaresUnrestricted || declaresDenied
  else
    match context.processNetworkContract.getD .denyNewSockets with
    | .unrestrictedNewSockets => declaresUnrestricted
    | .denyNewSockets => declaresDenied

structure PolicyProvenance where
  identity : String
  permissionProfileId : PermissionProfileId
  restrictionLevel : RestrictionLevel
  approvalMode : ApprovalMode
  effectCeiling : List Effect := []
  capabilityCeiling : List CapabilityScope := []
  automaticallyEligibleTools : List String := []
  achievedRestrictionLevel : Option RestrictionLevel := none
  restrictionUnavailableReason : Option RestrictionUnavailableReason := none
  (mechanismIdentity mechanismVersion : String := "")
  (restrictionPolicyIdentity matcherPolicyIdentity : Option String := none)
  deriving DecidableEq

structure RunProvenanceLimits where
  maximumIdentityBytes : ℕ := 256
  maximumValueBytes : ℕ := 4 * 1024
  maximumTotalBytes : ℕ := 64 * 1024
  maximumPolicyEffects : ℕ := 16
  maximumPolicyScopes : ℕ := 1024
  maximumAutomaticTools : ℕ := 256

def boundedText (value : String) (maximum : ℕ) : Bool :=
  value != "" && value.utf8ByteSize ≤ maximum && !hasControlCharacter value

def validProvenanceIdentity (value : String) (maximum : ℕ) : Bool :=
  value != "" && value.utf8ByteSize ≤ maximum &&
    value.toList.all (identityCharacter ['.', '_', '-', '+', ':'])

def effectWithinRestriction (effect : Effect) : RestrictionLevel → Bool
  | .high => false
  | .medium => effect = .read
  | .low => effect ≠ .changeInfrastructure && effect ≠ .changePrivileges
  | .unrestricted => true

section Provenance

variable (policy : PolicyProvenance) (limits : RunProvenanceLimits)

def PolicyProvenance.legacy : Bool := policy.identity == "aiforge.tool-launch-policy.v1"

def PolicyProvenance.current : Bool := policy.identity == "aiforge.tool-launch-policy.v2"

def inconsistentPolicyVersionFields : Bool :=
  (policy.legacy && policy.approvalMode != .automatic &&
      !policy.automaticallyEligibleTools.isEmpty) ||
    (policy.legacy && (policy.achievedRestrictionLevel.isSome ||
      policy.restrictionUnavailableReason.isSome || policy.mechanismIdentity != "" ||
      policy.mechanismVersion != "" || policy.restrictionPolicyIdentity.isSome ||
      policy.matcherPolicyIdentity.isSome)) ||
    (policy.current && !policy.automaticallyEligibleTools.isEmpty)

def inconsistentLaunchPolicyState : Bool :=
  policy.achievedRestrictionLevel.isSome == policy.restrictionUnavailableReason.isSome ||
    (policy.achievedRestrictionLevel.any fun achieved => achieved != policy.restrictionLevel) ||
    !validProvenanceIdentity policy.mechanismIdentity limits.maximumIdentityBytes ||
    !validProvenanceIdentity policy.mechanismVersion limits.maximumIdentityBytes ||
    (policy.restrictionPolicyIdentity.any fun identity =>
      !validProvenanceIdentity identity limits.maximumIdentityBytes) ||
    policy.achievedRestrictionLevel.isSome != policy.restrictionPolicyIdentity.isSome ||
    (policy.matcherPolicyIdentity.any fun identity =>
      !validProvenanceIdentity identity limits.maximumIdentityBytes) ||
    decide (policy.approvalMode = .automatic) != policy.matcherPolicyIdentity.isSome

def PolicyProvenance.totalBytes : ℕ :=
  policy.identity.utf8ByteSize + policy.permissionProfileId.utf8ByteSize +
    (if policy.current then
      policy.mechanismIdentity.utf8ByteSize + policy.mechanismVersion.utf8ByteSize +
        (policy.restrictionPolicyIdentity.elim 0 String.utf8ByteSize) +
        (policy.matcherPolicyIdentity.elim 0 String.utf8ByteSize)
    else 0) +
    (policy.capabilityCeiling.map fun s => s.kind.utf8ByteSize + s.value.utf8ByteSize).sum +
    (policy.automaticallyEligibleTools.map String.utf8ByteSize).sum

def validPolicyEffects : Bool :=
  decide policy.effectCeiling.Nodup &&
    (!policy.legacy || policy.effectCeiling.all fun effect =>
      effectWithinRestriction effect policy.restrictionLevel)

def validPolicyScopes : Bool :=
  decide policy.capabilityCeiling.Nodup &&
    (policy.capabilityCeiling.all fun s => policy.effectCeiling.contains s.effect &&
      boundedText s.kind limits.maximumIdentityBytes &&
      boundedText s.value limits.maximumValueBytes) &&
    policy.effectCeiling.all fun effect => policy.capabilityCeiling.any fun s => s.effect = effect

/-- Whether a record is accepted; which check refuses it makes no difference here. -/
def validToolPolicyProvenance : Bool :=
  (policy.legacy || policy.current) &&
    validProvenanceIdentity policy.permissionProfileId limits.maximumIdentityBytes &&
    policy.effectCeiling.length ≤ limits.maximumPolicyEffects &&
    policy.capabilityCeiling.length ≤ limits.maximumPolicyScopes &&
    policy.automaticallyEligibleTools.length ≤ limits.maximumAutomaticTools &&
    !inconsistentPolicyVersionFields policy &&
    !(policy.current && inconsistentLaunchPolicyState policy limits) &&
    policy.totalBytes ≤ limits.maximumTotalBytes && validPolicyEffects policy &&
    validPolicyScopes policy limits &&
    decide policy.automaticallyEligibleTools.Nodup &&
    policy.automaticallyEligibleTools.all fun name => boundedText name limits.maximumIdentityBytes

end Provenance

structure Configuration where
  permissionProfileId : PermissionProfileId
  launchContext : ApplicationLaunchContext
  automaticMatcher : Option Matcher := none

def appendNew {α : Type} [DecidableEq α] (known : List α) (value : α) : List α :=
  if value ∈ known then known else known ++ [value]

def makeProvenance (registry : Registry) (configuration : Configuration) :
    Except ToolPolicyError PolicyProvenance := do
  let context := configuration.launchContext.configuration
  let scopes ← (registry.declarations.flatMap ToolDeclaration.capabilityScopes).mapM
    normalizeCapabilityScope
  let provenance : PolicyProvenance := {
    identity := "aiforge.tool-launch-policy.v2"
    permissionProfileId := configuration.permissionProfileId
    restrictionLevel := context.selectedRestriction
    approvalMode := context.approvalMode
    effectCeiling := (registry.declarations.flatMap ToolDeclaration.effects).foldl appendNew []
    capabilityCeiling := scopes.foldl appendNew []
    achievedRestrictionLevel := context.achievedRestriction
    restrictionUnavailableReason := context.unavailableReason
    mechanismIdentity := context.mechanism.identity
    mechanismVersion := context.mechanism.version
    restrictionPolicyIdentity := context.restrictionPolicyIdentity
    matcherPolicyIdentity := context.matcherPolicyIdentity }
  if validToolPolicyProvenance provenance {} then return provenance
  else .error (invalidProfile "tool launch policy provenance is unbounded")

structure Policy where
  registry : Registry
  configuration : Configuration
  provenance : PolicyProvenance

def Policy.context (policy : Policy) : ApplicationLaunchContext :=
  policy.configuration.launchContext

def makeToolLaunchPolicy (registry : Registry) (configuration : Configuration) :
    Except ToolPolicyError Policy :=
  let context := configuration.launchContext.configuration
  let automatic := decide (context.approvalMode = .automatic)
  if automatic ≠ configuration.automaticMatcher.isSome then
    .error (invalidProfile "automatic approval mode requires one compiled matcher")
  else if registry.declarations.any fun declaration =>
      match registry.find declaration.name with
      | none => true
      | some tool => !processRegistrationMatches tool configuration.launchContext then
    .error (invalidProfile "process registration does not match the launch restriction")
  else if automatic ∧
      context.matcherPolicyIdentity ≠ configuration.automaticMatcher.map Matcher.identity then
    .error (invalidProfile "automatic matcher identity does not match its policy")
  else if automatic ∧ configuration.automaticMatcher.any fun matcher =>
      matcher.toolNames.any fun name =>
        (registry.find name).isNone && !registry.unavailableTools.contains name then
    .error (invalidProfile "automatic approval rules require exact declared tool names")
  else do
    let provenance ← makeProvenance registry configuration
    return ⟨registry, configuration, provenance⟩

structure CheckedRequest where
  request : ToolPolicyRequest
  withinCeiling : Bool

def checkRequest (policy : Policy) (request : ToolPolicyRequest) :
    Except ToolPolicyError CheckedRequest :=
  if request.permissionProfileId ≠ policy.configuration.permissionProfileId then
    .error (invalidProfile "permission profile is invalid")
  else if request.selectedRestriction.any fun level =>
      decide (level ≠ policy.context.configuration.selectedRestriction) then
    .ok ⟨request, false⟩
  else if request.toolName = "" ∨ ¬ request.effects.Nodup then
    .error (invalidRequest "tool launch policy request is malformed")
  else do
    let scopes ← normalizeScopes request.scopes
    if declaredEffects request.effects scopes = false then
      .error (invalidRequest "capability scope has an undeclared requested effect")
    else if request.effects.any fun effect => scopes.all fun s => s.effect ≠ effect then
      .error (invalidRequest "every requested effect requires an explicit capability scope")
    else
      let normalized := { request with scopes }
      match policy.registry.find request.toolName with
      | none => .ok ⟨normalized, false⟩
      | some registered =>
        if registered.category = .process ∧ policy.context.processRestrictionAvailable = false then
          .ok ⟨normalized, false⟩
        else
          match normalizeScopes registered.declaration.capabilityScopes with
          | .error _ => .error (internalFailure "registered launch policy data is invalid")
          | .ok declared =>
            .ok ⟨normalized, effectsCover registered.declaration.effects normalized.effects &&
              scopesCover declared normalized.scopes⟩

def denied : ToolPolicyResolution :=
  resolve .deny [] "the active launch policy denies this invocation" .permissionProfile

section Decide

variable (json : JsonLibrary) (world : Surroundings)

/-- The automatic answer, with the matcher after it. -/
def evaluateAutomatic (policy : Policy) (request : ToolPolicyRequest) : Outcome × Policy :=
  match request.canonicalArguments, request.selectedRestriction,
      policy.configuration.automaticMatcher with
  | some arguments, some restriction, some matcher =>
    let (matched, matcher) := matchRequest json world matcher {
      sessionId := request.sessionId
      runId := request.runId
      invocationId := request.invocationId
      toolName := request.toolName
      arguments
      selectedRestriction := restriction
      effects := request.effects
      scopes := request.scopes }
    let policy := { policy with
      configuration := { policy.configuration with automaticMatcher := some matcher } }
    match matched with
    | .ok (some evidence) =>
      (.ok ⟨.allow, request.scopes, some "allowed by a bounded automatic approval rule",
        .automaticMatcher, some evidence⟩, policy)
    | _ => (.ok denied, policy)
  | _, _, _ => (.ok denied, policy)

def evaluate (policy : Policy) (request : ToolPolicyRequest) : Outcome × Policy :=
  match checkRequest policy request with
  | .error err => (.error err, policy)
  | .ok checked =>
    if checked.withinCeiling = false then (.ok denied, policy)
    else if checked.request.effects = [] then
      (.ok (resolve .allow [] "the invocation declares no authority-bearing effects"
        .permissionProfile), policy)
    else
      match policy.context.configuration.approvalMode with
      | .prompt => (.ok (resolve .requireApproval checked.request.scopes
          "the invocation requires explicit user approval" .permissionProfile), policy)
      | .automatic => evaluateAutomatic json world policy checked.request
      | .allowAll => (.ok (resolve .allow checked.request.scopes
          "allowed by the active launch policy" .permissionProfile), policy)

end Decide

def sameScopes (left right : List CapabilityScope) : Bool :=
  left.length == right.length && scopesCover left right && scopesCover right left

def approve (policy : Policy) (request : ToolPolicyRequest) (approval : ToolPolicyApproval) :
    Outcome :=
  if policy.context.configuration.approvalMode ≠ .prompt then
    .error (invalidRequest "the active launch policy does not accept approvals")
  else if approval.lifetime ≠ .invocation then
    .error ⟨.scopeWidening, "launch approval is limited to the current invocation", false⟩
  else do
    let checked ← checkRequest policy request
    if checked.withinCeiling = false ∨ checked.request.effects = [] then
      .error ⟨.scopeWidening, "launch approval cannot exceed the active authority ceiling", false⟩
    else
      match normalizeScopes approval.grantedScopes with
      | .error _ => .error ⟨.scopeWidening,
          "launch approval must match the requested capability scopes", false⟩
      | .ok granted =>
        if sameScopes granted checked.request.scopes then
          return resolve .allow granted "allowed by explicit user approval" .userApproval
        else .error ⟨.scopeWidening,
          "launch approval must match the requested capability scopes", false⟩

/-- What a process tool may do to the network under the contract of the launch. -/
def NetworkBound (context : ApplicationLaunchContext) (request : ToolPolicyRequest) : Prop :=
  match context.processNetworkContract with
  | some .unrestrictedNewSockets => ∀ s ∈ request.scopes, s.effect = .network →
      capabilityScopeCovers unrestrictedNetwork s
  | _ => Effect.network ∉ request.effects

/-- What holds of a request that a tool's registration admits. -/
structure Within (policy : Policy) (request : ToolPolicyRequest) (registered : Registration) :
    Prop where
  found : policy.registry.find request.toolName = some registered
  effects : ∀ effect ∈ request.effects, effect ∈ registered.declaration.effects
  explicit : ∀ effect ∈ request.effects, ∃ s ∈ request.scopes, s.effect = effect
  scopes : ∀ s ∈ request.scopes, ∃ d ∈ registered.declaration.capabilityScopes,
    capabilityScopeCovers d s
  process : registered.category = .process →
    policy.context.processRestrictionAvailable ∧
      processRegistrationMatches registered policy.context ∧
      NetworkBound policy.context request

def Registered (policy : Policy) : Prop :=
  ∀ name registered, policy.registry.find name = some registered →
    processRegistrationMatches registered policy.context

variable {policy : Policy}

theorem make_registered {registry : Registry} {configuration : Configuration}
    (h : makeToolLaunchPolicy registry configuration = .ok policy) : Registered policy := by
  unfold makeToolLaunchPolicy at h
  dsimp only at h
  split_ifs at h with hmode hprocess hid hnms
  obtain ⟨_, -, h⟩ := bind_ok.1 h
  cases h
  intro name registered hfnd
  have hname : registered.declaration.name = name := by
    simpa using List.find?_some hfnd
  have hmem : registered.declaration ∈ registry.declarations :=
    List.mem_map_of_mem (List.mem_of_find?_eq_some hfnd)
  rw [Bool.not_eq_true, List.any_eq_false] at hprocess
  have hchk := hprocess registered.declaration hmem
  have hsame : registry.find registered.declaration.name = some registered := by
    rw [hname]
    exact hfnd
  rw [hsame] at hchk
  have hmat : processRegistrationMatches registered configuration.launchContext := by
    simpa using hchk
  exact hmat

/-- A matching registration bounds what is asked for within it. -/
theorem network_bound {context : ApplicationLaunchContext} {registered : Registration}
    {request : ToolPolicyRequest} (hmat : processRegistrationMatches registered context)
    (hprocess : registered.category = .process)
    (havail : context.processRestrictionAvailable)
    (heffects : ∀ effect ∈ request.effects, effect ∈ registered.declaration.effects)
    (hsc : ∀ s ∈ request.scopes, ∃ d ∈ registered.declaration.capabilityScopes,
      capabilityScopeCovers d s) : NetworkBound context request := by
  unfold processRegistrationMatches at hmat
  rw [if_neg (not_not.2 hprocess), if_neg (by simp [havail])] at hmat
  unfold NetworkBound
  obtain ⟨contract, hcontr⟩ : ∃ contract, context.processNetworkContract = some contract := by
    unfold ApplicationLaunchContext.processNetworkContract
    obtain ⟨_, hlvl⟩ := Option.isSome_iff_exists.1 havail
    rw [hlvl]
    exact ⟨_, rfl⟩
  rw [hcontr] at hmat ⊢
  cases contract with
  | unrestrictedNewSockets =>
    simp only [Option.getD_some, Bool.and_eq_true, decide_eq_true_eq] at hmat
    intro s hs heff
    obtain ⟨d, hd, hcov⟩ := hsc s hs
    have hnet : d ∈ registered.declaration.capabilityScopes.filter
        fun s => s.effect = .network := by
      rw [List.mem_filter]
      exact ⟨hd, decide_eq_true ((covers_effect hcov).trans heff)⟩
    rw [hmat.2, List.mem_singleton] at hnet
    rwa [← hnet]
  | denyNewSockets =>
    simp only [Option.getD_some, Bool.and_eq_true, beq_iff_eq, List.count_eq_zero] at hmat
    intro hmem
    exact hmat.1 (heffects _ hmem)

theorem checkRequest_within {request : ToolPolicyRequest}
    {checked : CheckedRequest} (hr : Registered policy)
    (h : checkRequest policy request = .ok checked) (hw : checked.withinCeiling) :
    (∃ registered, Within policy request registered) ∧
      normalizeScopes request.scopes = .ok checked.request.scopes ∧
      checked.request.effects = request.effects ∧
      declaredEffects request.effects checked.request.scopes := by
  unfold checkRequest at h
  split at h
  · cases h
  split at h
  · rw [← ok.inj h] at hw
    cases hw
  split at h
  · cases h
  obtain ⟨scopes, hsc, h⟩ := bind_ok.1 h
  split at h
  · cases h
  rename_i hdecl
  split at h
  · cases h
  rename_i hexplicit
  cases hfnd : policy.registry.find request.toolName with
  | none =>
    rw [hfnd] at h
    rw [← ok.inj h] at hw
    cases hw
  | some registered =>
    rw [hfnd] at h
    dsimp only at h
    split at h
    · rw [← ok.inj h] at hw
      cases hw
    rename_i hprocess
    split at h
    · cases h
    rename_i declared hnorm
    cases h
    simp only [Bool.and_eq_true] at hw
    have heff := effectsCover_iff.1 hw.1
    have hcov := scopesCover_iff.1 (scopesCover_trans (scopesCover_normal hnorm).1
      (scopesCover_trans hw.2 (scopesCover_normal hsc).2))
    refine ⟨⟨registered, hfnd, heff, ?_, hcov, ?_⟩, hsc, rfl, ?_⟩
    · intro effect he
      have hsome : ∃ s ∈ scopes, s.effect = effect := by
        by_contra hnone
        apply hexplicit
        rw [List.any_eq_true]
        refine ⟨effect, he, ?_⟩
        rw [List.all_eq_true]
        intro s hs
        exact decide_eq_true fun hsame => hnone ⟨s, hs, hsame⟩
      obtain ⟨s, hs, hsame⟩ := hsome
      obtain ⟨raw, hraw, hcovers⟩ := scopesCover_iff.1 (scopesCover_normal hsc).1 s hs
      exact ⟨raw, hraw, (covers_effect hcovers).trans hsame⟩
    · intro hcategory
      have havail : policy.context.processRestrictionAvailable := by
        by_contra hnot
        exact hprocess ⟨hcategory, Bool.not_eq_true _ ▸ hnot⟩
      have hmat := hr request.toolName registered hfnd
      exact ⟨havail, hmat, network_bound hmat hcategory havail heff hcov⟩
    · simpa using hdecl

inductive Call where
  | evaluate (world : Surroundings) (request : ToolPolicyRequest)
  | approve (request : ToolPolicyRequest) (approval : ToolPolicyApproval)

def Call.request : Call → ToolPolicyRequest
  | .evaluate _ request => request
  | .approve request _ => request

def answer (json : JsonLibrary) (policy : Policy) : Call → Outcome × Policy
  | .evaluate world request => evaluate json world policy request
  | .approve request approval => (approve policy request approval, policy)

def run (json : JsonLibrary) (policy : Policy) (calls : List Call) : Policy :=
  calls.foldl (fun policy call => (answer json policy call).2) policy

/-- The scopes granted and the scopes requested cover each other. -/
def SameAuthority (request : ToolPolicyRequest) (scopes : List CapabilityScope) : Prop :=
  scopesCover scopes request.scopes ∧ scopesCover request.scopes scopes

variable {resolution : ToolPolicyResolution}

theorem evaluateAutomatic_allow {json : JsonLibrary} {world : Surroundings}
    {request : ToolPolicyRequest}
    (h : (evaluateAutomatic json world policy request).1 = .ok resolution)
    (ha : resolution.decision = .allow) : resolution.scopes = request.scopes := by
  unfold evaluateAutomatic at h
  split at h
  · dsimp only at h
    split at h
    · rw [← ok.inj h]
    · rw [← ok.inj h] at ha
      cases ha
  · rw [← ok.inj h] at ha
    cases ha

theorem evaluate_allow_within {json : JsonLibrary} {world : Surroundings}
    {request : ToolPolicyRequest} (hr : Registered policy)
    (h : (evaluate json world policy request).1 = .ok resolution)
    (ha : resolution.decision = .allow) : (∃ registered, Within policy request registered) ∧
      SameAuthority request resolution.scopes := by
  unfold evaluate at h
  cases hchk : checkRequest policy request with
  | error =>
    rw [hchk] at h
    cases h
  | ok checked =>
    rw [hchk] at h
    dsimp only at h
    split at h
    · rw [← ok.inj h] at ha
      cases ha
    rename_i hin
    obtain ⟨hreg, hnorm, heff, hdecl⟩ :=
      checkRequest_within hr hchk (by simpa using hin)
    refine ⟨hreg, ?_⟩
    have hsame : SameAuthority request checked.request.scopes :=
      ⟨(scopesCover_normal hnorm).2, (scopesCover_normal hnorm).1⟩
    split at h
    · rename_i hemp
      -- without effects there are no scopes either
      have hnone : checked.request.scopes = [] := by
        rw [List.eq_nil_iff_forall_not_mem]
        intro s hs
        have hmem := List.all_eq_true.1 hdecl s hs
        rw [← heff, hemp] at hmem
        simp at hmem
      rw [← ok.inj h]
      rwa [hnone] at hsame
    · split at h
      · rw [← ok.inj h] at ha
        cases ha
      · rwa [evaluateAutomatic_allow h ha]
      · rw [← ok.inj h]
        exact hsame

theorem approve_within {request : ToolPolicyRequest}
    {approval : ToolPolicyApproval} (hr : Registered policy)
    (h : approve policy request approval = .ok resolution) :
    (∃ registered, Within policy request registered) ∧
      SameAuthority request resolution.scopes := by
  unfold approve at h
  split at h
  · cases h
  split at h
  · cases h
  obtain ⟨_, hchk, h⟩ := bind_ok.1 h
  split at h
  · cases h
  rename_i hin
  rw [not_or] at hin
  obtain ⟨hreg, hnorm, -, -⟩ :=
    checkRequest_within hr hchk (by simpa using hin.1)
  split at h
  · cases h
  rename_i granted hgranted
  split at h
  · rename_i hsame
    unfold sameScopes at hsame
    simp only [Bool.and_eq_true] at hsame
    rw [← ok.inj h]
    exact ⟨hreg, scopesCover_trans hsame.1.2 (scopesCover_normal hnorm).2,
      scopesCover_trans (scopesCover_normal hnorm).1 hsame.2⟩
  · cases h

theorem answer_fixed (json : JsonLibrary) (policy : Policy) (call : Call) :
    (answer json policy call).2.registry = policy.registry ∧
      (answer json policy call).2.context = policy.context := by
  cases call with
  | approve => exact ⟨rfl, rfl⟩
  | evaluate =>
    unfold answer evaluate
    dsimp only
    split
    · exact ⟨rfl, rfl⟩
    split_ifs
    · exact ⟨rfl, rfl⟩
    · exact ⟨rfl, rfl⟩
    split
    · exact ⟨rfl, rfl⟩
    · unfold evaluateAutomatic
      split
      · dsimp only
        split <;> exact ⟨rfl, rfl⟩
      · exact ⟨rfl, rfl⟩
    · exact ⟨rfl, rfl⟩

theorem run_fixed (json : JsonLibrary) (policy : Policy) (calls : List Call) :
    (run json policy calls).registry = policy.registry ∧
      (run json policy calls).context = policy.context := by
  induction calls generalizing policy with
  | nil => exact ⟨rfl, rfl⟩
  | cons call _ ih =>
    obtain ⟨hreg, hctx⟩ := ih (answer json policy call).2
    obtain ⟨hreg', hctx'⟩ := answer_fixed json policy call
    exact ⟨hreg.trans hreg', hctx.trans hctx'⟩

/-- Whatever a launch policy allows, in any mode and after any calls, its registrations admit. -/
theorem launch_policy_bound {registry : Registry} {configuration : Configuration}
    {policy : Policy} (h : makeToolLaunchPolicy registry configuration = .ok policy)
    (json : JsonLibrary) (calls : List Call) (call : Call) (resolution : ToolPolicyResolution)
    (hok : (answer json (run json policy calls) call).1 = .ok resolution)
    (ha : ∀ world request, call = .evaluate world request → resolution.decision = .allow) :
    (∃ registered, Within policy call.request registered) ∧
      SameAuthority call.request resolution.scopes := by
  obtain ⟨hregistry, hcontext⟩ := run_fixed json policy calls
  have hr : Registered (run json policy calls) := by
    intro name registered hfound
    rw [hregistry] at hfound
    rw [hcontext]
    exact make_registered h name registered hfound
  have hbound : (∃ registered, Within (run json policy calls) call.request registered) ∧
      SameAuthority call.request resolution.scopes := by
    cases call with
    | evaluate world request => exact evaluate_allow_within hr hok (ha world request rfl)
    | approve => exact approve_within hr hok
  obtain ⟨⟨registered, hwithin⟩, hsame⟩ := hbound
  refine ⟨⟨registered, ?_, hwithin.effects, hwithin.explicit, hwithin.scopes, ?_⟩, hsame⟩
  · rw [← hregistry]
    exact hwithin.found
  · intro hprocess
    have hbound := hwithin.process hprocess
    rwa [hcontext] at hbound

/-! A process tool under a launch that lets it reach the network. -/

def trueCommand : CapabilityScope := ⟨.execute, "process.command", "/bin/true"⟩

def processRegistry : Registry :=
  ⟨[⟨⟨⟨"run_process", "", ⟨"application/json", []⟩, [.execute, .network],
    [trueCommand, unrestrictedNetwork]⟩, {}, false⟩, .process⟩], []⟩

def openLaunch : Configuration where
  permissionProfileId := "profile"
  launchContext := ⟨{ selectedRestriction := .low
                      achievedRestriction := some .low
                      unavailableReason := none
                      restrictionPolicyIdentity := some "contained"
                      approvalMode := .allowAll }, by decide⟩

def processRequest : ToolPolicyRequest :=
  ⟨"session", "run", "invocation", "profile", "run_process", [.execute], [trueCommand], none, none⟩

def noDocuments : JsonLibrary := ⟨fun _ => none, fun _ => []⟩

def noSurroundings : Surroundings := ⟨0, fun _ => "", fun _ _ _ => .ok false⟩

theorem process_request_bound :
    ∃ policy resolution, makeToolLaunchPolicy processRegistry openLaunch = .ok policy ∧
      (evaluate noDocuments noSurroundings policy processRequest).1 = .ok resolution ∧
      resolution.decision = .allow ∧ (∃ registered, Within policy processRequest registered) ∧
      SameAuthority processRequest resolution.scopes := by
  have hok : (match makeToolLaunchPolicy processRegistry openLaunch with
      | .error _ => false
      | .ok policy =>
        match (evaluate noDocuments noSurroundings policy processRequest).1 with
        | .error _ => false
        | .ok resolution => decide (resolution.decision = .allow)) = true := by decide +kernel
  cases hmake : makeToolLaunchPolicy processRegistry openLaunch with
  | error =>
    rw [hmake] at hok
    cases hok
  | ok policy =>
    rw [hmake] at hok
    dsimp only at hok
    cases hanswer : (evaluate noDocuments noSurroundings policy processRequest).1 with
    | error =>
      rw [hanswer] at hok
      cases hok
    | ok resolution =>
      rw [hanswer] at hok
      have ha : resolution.decision = .allow := of_decide_eq_true hok
      have hbound := launch_policy_bound hmake noDocuments [] (.evaluate noSurroundings
        processRequest) resolution hanswer (fun _ _ _ => ha)
      exact ⟨policy, resolution, rfl, hanswer, ha, hbound.1, hbound.2⟩

end LaunchPolicy
