import AiForge.OpsEvidence
import AiForge.Staged

/-! # Ops observation authority

A selection grants observations of one target to one session of one owner. The grant is a
value of its own: it is checked when it is made, and every request and every observation is
checked against it. -/
namespace OpsTarget

structure OpsLogPolicy where
  revision : ℕ := 1
  enabled : Bool := false
  permittedSources : List OpsResourceIdentity := []
  deriving DecidableEq

structure OpsObservationAuthoritySpec where
  (ownerId sessionId : String)
  target : OpsTargetBinding
  selectionGeneration : ℕ
  operations : List OpsObservationOperation
  logs : OpsLogPolicy := {}
  limits : OpsObservationLimits := {}
  deriving DecidableEq

def logPolicy (spec : OpsObservationAuthoritySpec) : Except OpsTargetError Unit :=
  if !sequence spec.logs.revision || 32 < spec.logs.permittedSources.length ||
      (spec.logs.enabled && spec.logs.permittedSources.isEmpty) then
    .error ⟨.invalidAuthority, "Ops log policy is invalid"⟩
  else if spec.logs.permittedSources.all (resourceMatches · spec.target true) ∧
      spec.logs.permittedSources.Nodup then .ok ()
  else .error ⟨.invalidAuthority, "Ops log sources must be distinct exact selected resources"⟩

def authority (spec : OpsObservationAuthoritySpec) : Except OpsTargetError Unit := do
  validateTarget spec.target
  let kind := opsTargetKind spec.target
  if kind = .ceph then
    throw ⟨.unavailable, "Ops target has no available observation implementation"⟩
  if !identifier spec.ownerId || !identifier spec.sessionId ||
      !sequence spec.selectionGeneration || spec.operations.isEmpty ||
      8 < spec.operations.length then
    throw ⟨.invalidAuthority, "Ops owner session or operation grant is invalid"⟩
  if ¬ (spec.operations.all (matchesKind · kind) ∧ spec.operations.Nodup) then
    throw ⟨.invalidAuthority, "Ops operations must be distinct and match the selected target"⟩
  if !limitsWithin spec.limits {} then
    throw ⟨.resourceExhausted, "Ops observation ceilings are invalid"⟩
  logPolicy spec

def requestBinding (spec : OpsObservationAuthoritySpec) (request : OpsObservationRequest) :
    Except OpsTargetError Unit := do
  if !identifier request.ownerId || !identifier request.sessionId ||
      !identifier request.requestId then
    throw ⟨.invalidRequest, "Ops request identity is invalid"⟩
  if request.ownerId ≠ spec.ownerId then
    throw ⟨.foreignOwner, "Ops request belongs to another owner"⟩
  if request.sessionId ≠ spec.sessionId then
    throw ⟨.foreignSession, "Ops request belongs to another session"⟩
  validateTarget request.target
  if request.target ≠ spec.target then
    throw ⟨.targetMismatch, "Ops request target no longer matches selection"⟩
  if !sequence request.selectionGeneration ||
      request.selectionGeneration ≠ spec.selectionGeneration then
    throw ⟨.staleSelection, "Ops request selection generation is stale"⟩
  if !sequence request.logPolicyRevision || request.logPolicyRevision ≠ spec.logs.revision then
    throw ⟨.staleLogPolicy, "Ops request log policy revision is stale"⟩

/-- Only `create` makes one, after it checked the specification. -/
structure OpsObservationAuthority where
  specification : OpsObservationAuthoritySpec
  checked : authority specification = .ok ()
  deriving DecidableEq

namespace OpsObservationAuthority

def create (specification : OpsObservationAuthoritySpec) :
    Except OpsTargetError OpsObservationAuthority :=
  match h : authority specification with
  | .ok () => .ok ⟨specification, h⟩
  | .error error => .error error

def validate (grant : OpsObservationAuthority) (request : OpsObservationRequest) :
    Except OpsTargetError Unit := do
  let spec := grant.specification
  requestBinding spec request
  if request.operation ∉ spec.operations then
    throw ⟨.operationDenied, "Ops operation is outside the selected grant"⟩
  if !limitsWithin request.limits spec.limits then
    throw ⟨.resourceExhausted, "Ops request exceeds observation ceilings"⟩
  if logsOperation request.operation && !spec.logs.enabled then
    throw ⟨.logsDisabled, "Ops logs are disabled"⟩
  if !operationResource request then
    throw ⟨.resourceMismatch, "Ops operation requires an exact selected resource identity"⟩
  if logsOperation request.operation ∧ request.resource ∉ spec.logs.permittedSources then
    throw ⟨.operationDenied, "Ops log source is outside the selected consent"⟩

end OpsObservationAuthority

end OpsTarget

namespace OpsEvidence

open OpsTarget

def validateOpsObservation (grant : OpsObservationAuthority)
    (expectedRequest : OpsObservationRequest) (observation : OpsObservation) :
    Except OpsObservationError OpsObservationUsage :=
  if (grant.validate expectedRequest).isOk then do
    envelope expectedRequest observation
    runValidator expectedRequest observation
  else
    .error ⟨.invalidRequest, "Ops observation request is outside its captured authority"⟩

end OpsEvidence
