import AiForge.PlanGraph
import AiForge.RunProjection
import AiForge.ToolSpend

/-! # Kernel state

The errors a run kernel answers with, the tools that are registered with it and what it asks
a policy and hears from one. -/
namespace KernelState

open Content Events RunProjection

inductive RunKernelErrorCode where
  | invalidLimits | invalidStart | runAlreadyActive | noActiveRun | wrongRun | wrongInference
  | alreadyTerminal | protocolFailure | eventSequenceOverflow | eventLogRejected
  | projectionRejected | storageFailure | replayRejected | invalidToolState | wrongInvocation
  | policyScopeWidening | policyFailure | continuationNotReady | invalidPlanState | wrongPlan
  | invalidChildState | childRunnerUnavailable | internalFailure
  deriving DecidableEq

structure RunKernelError where
  code : RunKernelErrorCode
  message : String
  retryable : Bool := false
  deriving DecidableEq

structure ToolDeclaration where
  (name description : String)
  inputSchema : StructuredDataBlock
  effects : List Effect
  capabilityScopes : List CapabilityScope

structure ToolExecutionLimits where
  outputBytes : ℕ := 1024 * 1024
  progressEvents : ℕ := 1024
  timeout : ℤ := 30000

/-- `native` tells the executor that may publish observations from every other. -/
structure RegisteredTool where
  declaration : ToolDeclaration
  limits : ToolExecutionLimits
  native : Bool

structure CanonicalToolArguments where
  canonicalizationIdentity : String
  value : StructuredDataBlock
  deriving DecidableEq

inductive RestrictionLevel where
  | high | medium | low | unrestricted
  deriving DecidableEq

structure ToolPolicyRequest where
  sessionId : SessionId
  runId : RunId
  invocationId : InvocationId
  permissionProfileId : PermissionProfileId
  toolName : String
  effects : List Effect
  scopes : List CapabilityScope
  canonicalArguments : Option CanonicalToolArguments
  selectedRestriction : Option RestrictionLevel

structure ToolPolicyResolution where
  decision : PolicyDecision
  scopes : List CapabilityScope
  redactedReason : Option String
  source : PolicyDecisionSource
  automaticApproval : Option AutomaticApprovalEvidence

structure ToolPolicyApproval where
  grantedScopes : List CapabilityScope
  lifetime : ApprovalGrantLifetime

end KernelState
