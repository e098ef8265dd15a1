import AiForge.Json
import AiForge.PlanGraph
import AiForge.Recording
import AiForge.SessionStore

/-! # Event payloads as documents

The encoder and the decoder of stored payloads. Five kinds of payloads exist in several schema
versions and are modelled field by field; the parts that they have in common with other kinds,
and the kinds that have one version, are left to `Parts`. Nothing is assumed of the parts. -/
namespace PayloadCodec

open Content Events PlanGraph SafeText SessionStore
open Json (Library obj)
open Staged

/-- The exceptions of the codec. -/
inductive Failure where
  | codec (message : String)
  | duplicateKey | json
  deriving DecidableEq

abbrev Result := Except Failure

structure Part (α : Type) where
  write : α → Result Json
  read : Json → Result α

structure Parts where
  structured : Part StructuredDataBlock
  effects : Part (List Effect)
  scopes : Part (List CapabilityScope)
  spendQuote : Part ToolSpendQuote
  opsRequest : Part OpsTarget.OpsObservationRequest
  memorySelection : Part String
  conversationAdmission : Part ConversationAdmission
  snapshot : Part RepositorySnapshotIdentity
  planTask : Part PlanTask
  planEvidenceBinding : Part PlanEvidenceBinding
  childRunContext : Part ChildRunContextBinding
  childRunBudget : Part ChildRunBudget
  truncated : UInt64 → ℕ
  otherJson : RunEventPayload → ℕ → Result Json
  parseOther : Bytes → Json → ℕ → Result RunEventPayload

def key (name : String) : Bytes := bytesOf name

/-- `Json::at`. -/
def field (value : Json) (name : String) : Result Json :=
  match value.member (key name) with
  | some found => .ok found
  | none => .error .json

/-- `Json::get<std::string>`; parsed texts are in UTF-8. -/
def getText : Json → Result String
  | .text value =>
    match String.fromUTF8? ⟨value.toArray⟩ with
    | some text => .ok text
    | none => .error .json
  | _ => .error .json

def getBytes : Json → Result Bytes
  | .text value => .ok value
  | _ => .error .json

def getBool : Json → Result Bool
  | .boolean value => .ok value
  | _ => .error .json

variable (parts : Parts)

/-- `Json::get<std::uint32_t>`, which converts any number. -/
def getU32 : Json → Result ℕ
  | .number value => .ok (value % 2 ^ 32).toNat
  | .boolean value => .ok value.toNat
  | .float bits => .ok (parts.truncated bits % 2 ^ 32)
  | _ => .error .json

def idText (id : String) : Json := .text (bytesOf id)

def parseId (value : Json) : Result String :=
  match value with
  | .text bytes =>
    match String.fromUTF8? ⟨bytes.toArray⟩ with
    | some text =>
      if validId text then .ok text else .error (.codec "event ID field is invalid")
    | none => .error (.codec "event ID field is invalid")
  | _ => .error (.codec "event ID field is not text")

def optionalIdJson (id : Option String) : Json := (id.map idText).getD .null

def parseOptionalId (value : Json) : Result (Option String) :=
  if value.isNull then .ok none else (parseId value).map some

def optionalStringJson (value : Option String) : Json :=
  (value.map fun text => .text (bytesOf text)).getD .null

def parseOptionalString (value : Json) : Result (Option String) :=
  match value with
  | .null => .ok none
  | .text bytes => (getText (.text bytes)).map some
  | _ => .error (.codec "optional text field is invalid")

def optionalJson {α : Type} (part : Part α) : Option α → Result Json
  | some value => part.write value
  | none => .ok .null

def parseOptional {α : Type} (part : Part α) (value : Json) : Result (Option α) :=
  if value.isNull then .ok none else (part.read value).map some

/-- A field that only some schema versions have. -/
def only {α : Type} (c : Prop) [Decidable c] (missing : α) (present : Result α) : Result α :=
  if c then present else .ok missing

def requireConversationFields (value : Json) (fields : List String) : Result Unit := do
  ensure (value.isObject ∧ value.size = fields.length)
    (.codec "invalid conversation metadata fields")
  ensure (∀ name ∈ fields, value.contains (key name))
    (.codec "missing conversation metadata field")

def policyName : PolicyDecision → String
  | .allow => "allow"
  | .deny => "deny"
  | .requireApproval => "require_approval"

def policySourceName : PolicyDecisionSource → String
  | .fallback => "fallback"
  | .permissionProfile => "permission_profile"
  | .automaticMatcher => "automatic_matcher"
  | .sessionGrant => "session_grant"
  | .savedGrant => "saved_grant"
  | .userApproval => "user_approval"

def runPurposeName : RunPurpose → String
  | .conversation => "conversation"
  | .control => "control"
  | .summary => "summary"

/-- `enum_value`. -/
def enumValue {α : Type} (nameOf : α → String) (values : List α) (value : Json) : Result α := do
  let found ← getText value
  match values.find? fun candidate => nameOf candidate == found with
  | some candidate => .ok candidate
  | none => .error (.codec "event enum field is unknown")

def parsePolicy : Json → Result PolicyDecision :=
  enumValue policyName [.allow, .deny, .requireApproval]

def parsePolicySource : Json → Result PolicyDecisionSource :=
  enumValue policySourceName [.fallback, .permissionProfile, .automaticMatcher, .sessionGrant,
    .savedGrant, .userApproval]

def parseRunPurpose (value : Json) : Result RunPurpose :=
  match [RunPurpose.conversation, .control, .summary].find? fun purpose =>
      decide (value = .text (bytesOf (runPurposeName purpose))) with
  | some purpose => .ok purpose
  | none => .error (.codec "invalid run purpose")

def structuredPart : Part StructuredDataBlock where
  write value := .ok (obj [
    (key "media_type", .text (bytesOf value.mediaType)),
    (key "data", .text value.data)])
  read value := do
    let mediaType ← getText (← field value "media_type")
    let data ← getBytes (← field value "data")
    return ⟨mediaType, data⟩

def effectName : Effect → String
  | .read => "read"
  | .write => "write"
  | .remove => "remove"
  | .execute => "execute"
  | .network => "network"
  | .communicate => "communicate"
  | .spend => "spend"
  | .changeInfrastructure => "change_infrastructure"
  | .changePrivileges => "change_privileges"

def parseEffect : Json → Result Effect :=
  enumValue effectName [.read, .write, .remove, .execute, .network, .communicate, .spend,
    .changeInfrastructure, .changePrivileges]

def itemsOf (message : String) : Json → Result (List Json)
  | .array items => .ok items
  | _ => .error (.codec message)

def effectsPart : Part (List Effect) where
  write effects := .ok (.array (effects.map fun effect => .text (bytesOf (effectName effect))))
  read values := itemsOf "effect list is invalid" values >>= fun items => items.mapM parseEffect

def scopeJson (scope : CapabilityScope) : Json := obj [
  (key "effect", .text (bytesOf (effectName scope.effect))),
  (key "kind", .text (bytesOf scope.kind)),
  (key "value", .text (bytesOf scope.value))]

def parseScope (value : Json) : Result CapabilityScope := do
  let effect ← parseEffect (← field value "effect")
  let kind ← getText (← field value "kind")
  let value ← getText (← field value "value")
  return ⟨effect, kind, value⟩

def scopesPart : Part (List CapabilityScope) where
  write scopes := .ok (.array (scopes.map scopeJson))
  read values := itemsOf "capability-scope list is invalid" values >>= fun items =>
    items.mapM parseScope

def validDigest (value start : Bytes) : Bool :=
  value.length == start.length + 64 && start.isPrefixOf value &&
    (value.drop start.length).all fun c => (0x30 ≤ c && c ≤ 0x39) || (0x61 ≤ c && c ≤ 0x66)

def validAutomaticApprovalEvidence (evidence : AutomaticApprovalEvidence) : Bool :=
  validDigest (bytesOf evidence.policyIdentity) (bytesOf "aiforge.auto-policy.v1.sha256:") &&
    ["aiforge.auto-rule.exact.v1.sha256:", "aiforge.auto-rule.repository.v1.sha256:",
      "aiforge.auto-rule.process-executable.v1.sha256:"].any fun start =>
        validDigest (bytesOf evidence.ruleIdentity) (bytesOf start)

def automaticApprovalJson : Option AutomaticApprovalEvidence → Json
  | none => .null
  | some value => obj [
      (key "policy_identity", .text (bytesOf value.policyIdentity)),
      (key "rule_identity", .text (bytesOf value.ruleIdentity))]

def isText : Json → Bool
  | .text _ => true
  | _ => false

def parseAutomaticApproval (value : Json) : Result (Option AutomaticApprovalEvidence) :=
  if value.isNull then .ok none
  else do
    ensure (value.isObject ∧ value.size = 2 ∧
        ((value.member (key "policy_identity")).any isText) ∧
        (value.member (key "rule_identity")).any isText)
      (.codec "automatic approval evidence is malformed")
    let policyIdentity ← getText (← field value "policy_identity")
    let ruleIdentity ← getText (← field value "rule_identity")
    ensure (validAutomaticApprovalEvidence ⟨policyIdentity, ruleIdentity⟩)
      (.codec "automatic approval evidence identity is invalid")
    return some ⟨policyIdentity, ruleIdentity⟩

def checkRunStartedAdmissionSchema (value : RunStarted) (schema : ℕ) : Result Unit := do
  let admission := value.conversationAdmission
  ensure (decide (schema = 6) = value.manualObservationRequired ∧
      ¬ (schema = 6 ∧ (value.purpose ≠ .control ∨ admission.isSome ∨
        value.localContextAdmissionRequired)))
    (.codec "manual observation marker does not match schema")
  ensure (decide (schema = 5) = value.localContextAdmissionRequired ∧
      ¬ (schema = 5 ∧ value.purpose ≠ .conversation))
    (.codec "run start local proof marker does not match its schema")
  ensure (¬ (schema = 3 ∧ admission.any fun admission => decide (admission.version ≠ 1)))
    (.codec "run start schema 3 requires a legacy v1 admission")
  ensure (¬ (schema = 4 ∧ (value.purpose ≠ .conversation ∨
      !admission.any fun admission => decide (admission.version = 2))))
    (.codec "run start schema 4 requires a conversation v2 admission")

def modern (schemaVersion : ℕ) : Bool := schemaVersion ∈ [3, 4, 5, 6]

def runStartedBase (value : RunStarted) : List (Bytes × Json) := [
  (key "surface_id", idText value.surfaceId),
  (key "workspace_id", idText value.workspaceId),
  (key "permission_profile_id", idText value.permissionProfileId),
  (key "persona_id", optionalIdJson value.personaId)]

def runStartedModern (value : RunStarted) : Result (List (Bytes × Json)) := do
  let memorySelection ← optionalJson parts.memorySelection value.memorySelection
  let conversationAdmission ←
    optionalJson parts.conversationAdmission value.conversationAdmission
  return [
    (key "purpose", .text (bytesOf (runPurposeName value.purpose))),
    (key "memory_selection", memorySelection),
    (key "conversation_admission", conversationAdmission)]

def runStartedLegacy (value : RunStarted) (schemaVersion : ℕ) :
    Result (List (Bytes × Json)) := do
  ensure (value.purpose = .conversation ∧ value.conversationAdmission.isNone ∧
      decide (schemaVersion = 2) = value.memorySelection.isSome)
    (.codec "run start fields do not match legacy schema")
  match value.memorySelection with
  | some selection => return [(key "memory_selection", ← parts.memorySelection.write selection)]
  | none => return []

def runStartedRest (value : RunStarted) (schemaVersion : ℕ) : Result (List (Bytes × Json)) :=
  if modern schemaVersion then runStartedModern parts value
  else runStartedLegacy parts value schemaVersion

def runStartedJson (value : RunStarted) (schemaVersion : ℕ) : Result Json := do
  checkRunStartedAdmissionSchema value schemaVersion
  let rest ← runStartedRest parts value schemaVersion
  return obj (runStartedBase value ++ rest ++
    (if schemaVersion = 5 then [(key "local_context_admission_required", .boolean true)]
      else []) ++
    if schemaVersion = 6 then [(key "manual_observation_required", .boolean true)] else [])

def runStartedFields (schemaVersion : ℕ) : List String :=
  ["surface_id", "workspace_id", "permission_profile_id", "persona_id"] ++
    (if schemaVersion = 2 ∨ modern schemaVersion then ["memory_selection"] else []) ++
    (if modern schemaVersion then ["purpose", "conversation_admission"] else []) ++
    (if schemaVersion = 5 then ["local_context_admission_required"] else []) ++
    if schemaVersion = 6 then ["manual_observation_required"] else []

/-- A marker of a schema version; it is never false. -/
def parseMarker (value : Json) (name message : String) : Result Unit := do
  let marker ← field value name
  ensure (marker = .boolean true) (.codec message)

def parseRunMemory (value : Json) (schemaVersion : ℕ) : Result (Option String) :=
  if schemaVersion = 2 then
    field value "memory_selection" >>= fun found => (parts.memorySelection.read found).map some
  else only (modern schemaVersion) none
    (field value "memory_selection" >>= parseOptional parts.memorySelection)

def parseRunStarted (value : Json) (schemaVersion : ℕ) : Result RunStarted := do
  requireConversationFields value (runStartedFields schemaVersion)
  let surfaceId ← parseId (← field value "surface_id")
  let workspaceId ← parseId (← field value "workspace_id")
  let permissionProfileId ← parseId (← field value "permission_profile_id")
  let personaId ← parseOptionalId (← field value "persona_id")
  let memorySelection ← parseRunMemory parts value schemaVersion
  let purpose ← only (modern schemaVersion) .conversation
    (field value "purpose" >>= parseRunPurpose)
  let conversationAdmission ← only (modern schemaVersion) none
    (field value "conversation_admission" >>= parseOptional parts.conversationAdmission)
  onlyIf (schemaVersion = 5) (parseMarker value "local_context_admission_required"
    "run start local proof marker must be true")
  onlyIf (schemaVersion = 6) (parseMarker value "manual_observation_required"
    "manual observation marker must be true")
  let result : RunStarted := {
    surfaceId, workspaceId, permissionProfileId, personaId, memorySelection, purpose
    conversationAdmission
    localContextAdmissionRequired := schemaVersion = 5
    manualObservationRequired := schemaVersion = 6 }
  checkRunStartedAdmissionSchema result schemaVersion
  return result

def toolProposedPaid (value : ToolProposed) (schemaVersion : ℕ) : Result (List (Bytes × Json)) :=
  if 2 ≤ schemaVersion then do
    let spendQuote ← optionalJson parts.spendQuote value.spendQuote
    let validatedArguments ← optionalJson parts.structured value.validatedArguments
    return [(key "spend_quote", spendQuote), (key "validated_arguments", validatedArguments)]
  else .ok []

/-- The proof of schema version 3, which the check before it has found to be there. -/
def toolProposedProof (value : ToolProposed) (schemaVersion : ℕ) : Result (List (Bytes × Json)) :=
  if schemaVersion = 3 then
    match value.observationRequest with
    | some request => do
      let request ← parts.opsRequest.write request
      return [(key "observation_request", request)]
    | none => .error (.codec "Ops proposal proof does not match schema")
  else .ok []

def toolProposedJson (value : ToolProposed) (schemaVersion : ℕ) : Result Json := do
  ensure (decide (schemaVersion = 3) = value.observationRequest.isSome ∧
      ¬ (schemaVersion = 3 ∧ (value.validatedArguments.isNone ∨ value.spendQuote.isSome)))
    (.codec "Ops proposal proof does not match schema")
  let arguments ← parts.structured.write value.arguments
  let declaredEffects ← parts.effects.write value.declaredEffects
  let validatedRequiredScopes ← parts.scopes.write value.validatedRequiredScopes
  let requestedScopes ← parts.scopes.write value.requestedScopes
  let paid ← toolProposedPaid parts value schemaVersion
  let proof ← toolProposedProof parts value schemaVersion
  return obj ([
    (key "invocation_id", idText value.invocationId),
    (key "tool_name", .text (bytesOf value.toolName)),
    (key "arguments", arguments),
    (key "declared_effects", declaredEffects),
    (key "parent_invocation_id", optionalIdJson value.parentInvocationId),
    (key "arguments_replayable", .boolean value.argumentsReplayable),
    (key "validated_required_scopes", validatedRequiredScopes),
    (key "requested_scopes", requestedScopes),
    (key "result_message_id", optionalIdJson value.resultMessageId)] ++ paid ++ proof)

def toolProposedFields : List String :=
  ["invocation_id", "tool_name", "arguments", "declared_effects", "parent_invocation_id",
    "arguments_replayable", "validated_required_scopes", "requested_scopes",
    "result_message_id", "spend_quote", "validated_arguments", "observation_request"]

/-- A field of earlier documents that may be missing. -/
def fieldOr {α : Type} (value : Json) (name : String) (missing : α) (read : Json → Result α) :
    Result α :=
  match value.member (key name) with
  | some found => read found
  | none => .ok missing

def checkProposalProof (value : Json) (schemaVersion : ℕ) : Result Unit :=
  if schemaVersion = 3 then do
    requireConversationFields value toolProposedFields
    let request ← field value "observation_request"
    let quote ← field value "spend_quote"
    ensure (request.isNull = false ∧ quote.isNull)
      (.codec "Ops proposal proof is missing or paid")
  else
    ensure (value.contains (key "observation_request") = false)
      (.codec "Ops proposal proof requires schema 3")

def parseToolProposed (value : Json) (schemaVersion : ℕ) : Result ToolProposed := do
  checkProposalProof value schemaVersion
  ensure (2 ≤ schemaVersion → value.contains (key "spend_quote") ∧
      (value.member (key "validated_arguments")).any fun found => !found.isNull)
    (.codec "tool proposal normalized arguments are incomplete")
  let invocationId ← parseId (← field value "invocation_id")
  let toolName ← getText (← field value "tool_name")
  let arguments ← parts.structured.read (← field value "arguments")
  let declaredEffects ← parts.effects.read (← field value "declared_effects")
  let parentInvocationId ← fieldOr value "parent_invocation_id" none parseOptionalId
  let argumentsReplayable ← fieldOr value "arguments_replayable" false getBool
  let validatedRequiredScopes ← fieldOr value "validated_required_scopes" [] parts.scopes.read
  let requestedScopes ← fieldOr value "requested_scopes" [] parts.scopes.read
  let resultMessageId ← fieldOr value "result_message_id" none parseOptionalId
  let spendQuote ← only (2 ≤ schemaVersion) none
    (field value "spend_quote" >>= parseOptional parts.spendQuote)
  let validatedArguments ← only (2 ≤ schemaVersion) none
    (field value "validated_arguments" >>= fun found => (parts.structured.read found).map some)
  let observationRequest ← only (schemaVersion = 3) none
    (field value "observation_request" >>= fun found => (parts.opsRequest.read found).map some)
  return {
    invocationId, toolName, arguments, declaredEffects, parentInvocationId, argumentsReplayable
    validatedRequiredScopes, requestedScopes, resultMessageId, spendQuote, validatedArguments
    observationRequest }

def toolPolicyDecidedBase (value : ToolPolicyDecided) (scopes : Json) : List (Bytes × Json) := [
  (key "invocation_id", idText value.invocationId),
  (key "decision", .text (bytesOf (policyName value.decision))),
  (key "scopes", scopes),
  (key "reason", optionalStringJson value.reason),
  (key "source", .text (bytesOf (policySourceName value.source)))]

def toolPolicyDecidedJson (value : ToolPolicyDecided) (schemaVersion : ℕ) : Result Json := do
  let scopes ← parts.scopes.write value.scopes
  return obj (toolPolicyDecidedBase value scopes ++
    if 2 ≤ schemaVersion then
      [(key "automatic_approval", automaticApprovalJson value.automaticApproval)]
    else [])

def parseToolPolicyDecided (value : Json) (schemaVersion : ℕ) : Result ToolPolicyDecided := do
  ensure (2 ≤ schemaVersion → value.contains (key "automatic_approval"))
    (.codec "automatic approval evidence is missing from policy decision")
  let invocationId ← parseId (← field value "invocation_id")
  let decision ← parsePolicy (← field value "decision")
  let scopes ← parts.scopes.read (← field value "scopes")
  let reason ← parseOptionalString (← field value "reason")
  let source ← fieldOr value "source" .fallback parsePolicySource
  let automaticApproval ← only (2 ≤ schemaVersion) none
    (field value "automatic_approval" >>= parseAutomaticApproval)
  ensure (decide (source = .automaticMatcher) = automaticApproval.isSome ∧
      ¬ (automaticApproval.isSome ∧ decision ≠ .allow))
    (.codec "automatic approval evidence is inconsistent")
  return { invocationId, decision, scopes, reason, source, automaticApproval }

def planRevisionBase (revision : PlanRevision) (sourceSnapshot : Json) (tasks : List Json) :
    List (Bytes × Json) := [
  (key "plan_id", idText revision.planId),
  (key "revision_id", idText revision.revisionId),
  (key "supersedes_revision_id", optionalIdJson revision.supersedesRevisionId),
  (key "goal", .text revision.goal),
  (key "source_snapshot", sourceSnapshot),
  (key "tasks", .array tasks)]

def planRevisionJson (revision : PlanRevision) (includeEvidence : Bool) : Result Json := do
  ensure ((validatePlanRevision revision).isOk) (.codec "plan revision is invalid")
  let tasks ← revision.tasks.mapM parts.planTask.write
  let sourceSnapshot ← optionalJson parts.snapshot revision.sourceSnapshot
  let evidence ← only includeEvidence []
    ((revision.evidence.mapM parts.planEvidenceBinding.write).map fun evidence =>
      [(key "evidence", .array evidence)])
  return obj (planRevisionBase revision sourceSnapshot tasks ++ evidence)

def parsePlanRevision (value : Json) : Result PlanRevision := do
  let rawTasks ← itemsOf "plan task list is invalid" (← field value "tasks")
  let planId ← parseId (← field value "plan_id")
  let revisionId ← parseId (← field value "revision_id")
  let supersedesRevisionId ← parseOptionalId (← field value "supersedes_revision_id")
  let goal ← getBytes (← field value "goal")
  let sourceSnapshot ← parseOptional parts.snapshot (← field value "source_snapshot")
  let tasks ← rawTasks.mapM parts.planTask.read
  let evidence ← fieldOr value "evidence" [] fun found =>
    itemsOf "plan evidence list is invalid" found >>= fun items =>
      items.mapM parts.planEvidenceBinding.read
  let revision : PlanRevision :=
    { planId, revisionId, supersedesRevisionId, goal, sourceSnapshot, tasks, evidence }
  ensure ((validatePlanRevision revision).isOk) (.codec "plan revision is invalid")
  return revision

def planRevisionProposedJson (revision : PlanRevision) (schemaVersion : ℕ) : Result Json := do
  let revision ← planRevisionJson parts revision (2 ≤ schemaVersion)
  return obj [(key "revision", revision)]

def parsePlanRevisionProposed (value : Json) : Result PlanRevision :=
  field value "revision" >>= parsePlanRevision parts

def childRunDescriptorBase (descriptor : ChildRunDescriptor)
    (context budget effects capabilityScopes : Json) : List (Bytes × Json) := [
  (key "parent_run_id", idText descriptor.parentRunId),
  (key "plan_id", idText descriptor.planId),
  (key "revision_id", idText descriptor.revisionId),
  (key "task_id", idText descriptor.taskId),
  (key "context", context),
  (key "budget", budget),
  (key "effects", effects),
  (key "capability_scopes", capabilityScopes)]

def childRunReview (descriptor : ChildRunDescriptor) : List (Bytes × Json) :=
  match descriptor.reviewReceiptId with
  | some receipt => [(key "review_receipt_id", idText receipt)]
  | none => []

def childRunDescriptorJson (descriptor : ChildRunDescriptor) (includeAttempt : Bool) :
    Result Json := do
  ensure ((validateChildRunDescriptor descriptor).isOk) (.codec "child-run descriptor is invalid")
  let context ← parts.childRunContext.write descriptor.context
  let budget ← parts.childRunBudget.write descriptor.budget
  let effects ← parts.effects.write descriptor.effects
  let capabilityScopes ← parts.scopes.write descriptor.capabilityScopes
  return obj (childRunDescriptorBase descriptor context budget effects capabilityScopes ++
    (if includeAttempt then [(key "attempt", .number descriptor.attempt)] else []) ++
    childRunReview descriptor)

def parseChildRunDescriptor (value : Json) : Result ChildRunDescriptor := do
  let parentRunId ← parseId (← field value "parent_run_id")
  let planId ← parseId (← field value "plan_id")
  let revisionId ← parseId (← field value "revision_id")
  let taskId ← parseId (← field value "task_id")
  let context ← parts.childRunContext.read (← field value "context")
  let budget ← parts.childRunBudget.read (← field value "budget")
  let effects ← parts.effects.read (← field value "effects")
  let capabilityScopes ← parts.scopes.read (← field value "capability_scopes")
  let attempt ← fieldOr value "attempt" 1 (getU32 parts)
  let reviewReceiptId ← fieldOr value "review_receipt_id" none parseOptionalId
  let descriptor : ChildRunDescriptor :=
    { parentRunId, planId, revisionId, taskId, context, budget, effects, capabilityScopes
      attempt, reviewReceiptId }
  ensure ((validateChildRunDescriptor descriptor).isOk) (.codec "child-run descriptor is invalid")
  return descriptor

def childRunDispatch (descriptor : Option ChildRunDescriptor) (schemaVersion : ℕ) :
    Result (List (Bytes × Json)) :=
  if 2 ≤ schemaVersion then
    match descriptor with
    | none => .error (.codec "schema-v2 child run lacks a dispatch descriptor")
    | some descriptor => do
      ensure (¬ (schemaVersion < 3 ∧ descriptor.attempt ≠ 1))
        (.codec "schema-v2 child run cannot encode a retry attempt")
      let descriptor ← childRunDescriptorJson parts descriptor (3 ≤ schemaVersion)
      return [(key "descriptor", descriptor)]
  else .ok []

def childRunCreatedJson (childRunId : RunId) (descriptor : Option ChildRunDescriptor)
    (schemaVersion : ℕ) : Result Json := do
  let dispatch ← childRunDispatch parts descriptor schemaVersion
  return obj ((key "child_run_id", idText childRunId) :: dispatch)

def parseChildRunCreated (value : Json) (schemaVersion : ℕ) :
    Result (RunId × Option ChildRunDescriptor) := do
  let descriptor := value.member (key "descriptor")
  let hasDescriptor := descriptor.isSome
  let hasAttempt := descriptor.any fun found => found.contains (key "attempt")
  let hasReview := descriptor.any fun found => found.contains (key "review_receipt_id")
  ensure (¬ ((schemaVersion = 1 ∧ hasDescriptor) ∨
      (schemaVersion = 2 ∧ (hasDescriptor = false ∨ hasAttempt)) ∨
      ((schemaVersion = 3 ∨ schemaVersion = 4) ∧ (hasDescriptor = false ∨ hasAttempt = false)) ∨
      (schemaVersion = 3 ∧ hasReview) ∨ (schemaVersion = 4 ∧ hasReview = false)))
    (.codec "child-run dispatch does not match its event schema")
  let childRunId ← parseId (← field value "child_run_id")
  let descriptor ← fieldOr value "descriptor" none fun found =>
    (parseChildRunDescriptor parts found).map some
  return (childRunId, descriptor)

def otherEventType : OtherEvent → String
  | .conversationPolicySet => "session.conversation_policy_set"
  | .conversationSummaryGenerationIntentRecorded => "session.conversation_summary_intent_recorded"
  | .conversationSummaryCandidatePublished => "session.conversation_summary_candidate_published"
  | .conversationSummaryActivated => "session.conversation_summary_activated"
  | .conversationSummaryDisabled => "session.conversation_summary_disabled"
  | .repositoryContextAdmitted => "run.repository_context_admitted"
  | .localContextAdmitted => "run.local_context_admitted"
  | .opsObservationRecorded => "ops.observation_recorded"
  | .opsTargetSelected => "ops.target_selected"
  | .opsObservationExplanationSelected => "ops.explanation_selected"
  | .artifactCreated => "artifact.created"
  | .artifactReferenced => "artifact.referenced"
  | .artifactDisplayed => "artifact.displayed"
  | .artifactRemovedFromView => "artifact.removed_from_view"
  | .videoGenerationRequested => "video.generation_requested"
  | .videoQuoteObserved => "video.quote_observed"
  | .videoJobQueued => "video.job_queued"
  | .videoJobStatusObserved => "video.job_status_observed"
  | .videoArtifactPublished => "video.artifact_published"
  | .videoCleanupPending => "video.cleanup_pending"
  | .videoCleanupCompleted => "video.cleanup_completed"
  | .videoCleanupFailed => "video.cleanup_failed"
  | .videoTranscriptionRequested => "video.transcription_requested"
  | .videoTranscriptionObserved => "video.transcription_observed"
  | .verificationEvidenceRecorded => "verification.evidence_recorded"
  | .reviewReceiptDrafted => "review.receipt_drafted"
  | .reviewRequested => "review.requested"
  | .reviewFindingOpened => "review.finding_opened"
  | .reviewFindingResolved => "review.finding_resolved"
  | .reviewVerdictRecorded => "review.verdict_recorded"
  | .reviewVerdictRevoked => "review.verdict_revoked"
  | .reviewOverrideRecorded => "review.override_recorded"
  | .reviewOverrideRevoked => "review.override_revoked"
  | .projectBacklogItemPromoted => "project_backlog.item_promoted"
  | .projectBacklogItemStatusChanged => "project_backlog.item_status_changed"
  | .memoryProposed => "memory.proposed"
  | .memoryPolicyDecided => "memory.policy_decided"
  | .memoryAccepted => "memory.accepted"
  | .memoryEditedAndAccepted => "memory.edited_and_accepted"
  | .memoryRejected => "memory.rejected"
  | .memorySuperseded => "memory.superseded"
  | .memoryExpired => "memory.expired"
  | .interRunMessageSent => "run.inter_message_sent"

def payloadType : RunEventPayload → String
  | .runStarted _ => "run.started"
  | .runProvenanceRecorded _ => "run.provenance_recorded"
  | .personaSelectionRecorded _ => "persona.selection_recorded"
  | .sessionSpendCeilingSet _ _ => "session.spend_ceiling_set"
  | .runAwaitingInput _ => "run.awaiting_input"
  | .runResumed _ => "run.resumed"
  | .runCompletionRequested => "run.completion_requested"
  | .runCompleted => "run.completed"
  | .runFailed _ => "run.failed"
  | .runCancelRequested _ => "run.cancel_requested"
  | .runCancelled _ => "run.cancelled"
  | .userContentAdded _ => "content.user_added"
  | .assistantContentStarted _ _ => "content.assistant_started"
  | .assistantContentDeltaAdded _ _ _ => "content.assistant_delta_added"
  | .assistantContentFinished _ _ => "content.assistant_finished"
  | .inferenceStarted _ _ => "inference.started"
  | .inferencePricingObserved _ _ => "inference.pricing_observed"
  | .reasoningMetadataAdded _ _ _ => "inference.reasoning_metadata_added"
  | .usageRecorded _ _ => "inference.usage_recorded"
  | .inferenceCostRecorded _ _ => "inference.cost_recorded"
  | .inferenceFinished _ _ => "inference.finished"
  | .inferenceFailed _ _ => "inference.failed"
  | .inferenceCancelled _ _ => "inference.cancelled"
  | .toolProposed _ => "tool.proposed"
  | .humanObservationRequested _ _ _ _ => "ops.human_observation_requested"
  | .toolPolicyDecided _ => "tool.policy_decided"
  | .toolApprovalRequested _ _ _ => "tool.approval_requested"
  | .toolApprovalDecided _ _ _ _ => "tool.approval_decided"
  | .toolPolicyFailed _ _ => "tool.policy_failed"
  | .toolSpendReserved _ => "tool.spend_reserved"
  | .toolStarted _ => "tool.started"
  | .toolProgressed _ _ => "tool.progressed"
  | .toolSpendReleased _ => "tool.spend_released"
  | .toolSpendFinalized _ => "tool.spend_finalized"
  | .toolSpendReconciliationRequired _ _ => "tool.spend_reconciliation_required"
  | .toolResultRecorded _ _ _ => "tool.result_recorded"
  | .toolErrored _ _ _ => "tool.errored"
  | .questionRequested _ => "question.requested"
  | .questionAnswered _ => "question.answered"
  | .questionCancelled _ _ => "question.cancelled"
  | .planRevisionProposed _ => "plan.revision_proposed"
  | .planRevisionDecisionRecorded _ => "plan.revision_decision_recorded"
  | .planRevisionInvalidated _ => "plan.revision_invalidated"
  | .sessionTasksMaterialized _ _ => "session.tasks_materialized"
  | .childRunCreated _ _ => "run.child_created"
  | .sessionTaskResultRecorded _ => "session.task_result_recorded"
  | .other kind _ => otherEventType kind
  | .unknown typeName _ => typeName

def knownPayloadTypes : List String := [
  "run.started", "ops.human_observation_requested", "ops.observation_recorded",
  "ops.target_selected", "ops.explanation_selected", "run.provenance_recorded",
  "run.repository_context_admitted", "run.local_context_admitted", "persona.selection_recorded",
  "session.spend_ceiling_set", "session.conversation_policy_set",
  "session.conversation_summary_intent_recorded",
  "session.conversation_summary_candidate_published", "session.conversation_summary_activated",
  "session.conversation_summary_disabled", "run.awaiting_input", "run.resumed",
  "run.completion_requested", "run.completed", "run.failed", "run.cancel_requested",
  "run.cancelled", "content.user_added", "content.assistant_started",
  "content.assistant_delta_added", "content.assistant_finished", "inference.started",
  "inference.pricing_observed", "inference.reasoning_metadata_added", "inference.usage_recorded",
  "inference.cost_recorded", "inference.finished", "inference.failed", "inference.cancelled",
  "tool.proposed", "tool.policy_decided", "tool.approval_requested", "tool.approval_decided",
  "tool.policy_failed", "tool.spend_reserved", "tool.started", "tool.progressed",
  "tool.spend_released", "tool.spend_finalized", "tool.spend_reconciliation_required",
  "tool.result_recorded", "tool.errored", "question.requested", "question.answered",
  "question.cancelled", "artifact.created", "artifact.referenced", "artifact.displayed",
  "artifact.removed_from_view", "video.generation_requested", "video.quote_observed",
  "video.job_queued", "video.job_status_observed", "video.artifact_published",
  "video.cleanup_pending", "video.cleanup_completed", "video.cleanup_failed",
  "video.transcription_requested", "video.transcription_observed",
  "verification.evidence_recorded", "review.receipt_drafted", "review.requested",
  "review.finding_opened", "review.finding_resolved", "review.verdict_recorded",
  "review.verdict_revoked", "review.override_recorded", "review.override_revoked",
  "plan.revision_proposed", "plan.revision_decision_recorded", "plan.revision_invalidated",
  "session.tasks_materialized", "run.child_created", "session.task_result_recorded",
  "project_backlog.item_promoted", "project_backlog.item_status_changed", "memory.proposed",
  "memory.policy_decided", "memory.accepted", "memory.edited_and_accepted", "memory.rejected",
  "memory.superseded", "memory.expired", "run.inter_message_sent"]

def knownPayloadType (type : String) : Bool := knownPayloadTypes.contains type

def knownPayloadSchema (type : String) (schemaVersion : ℕ) : Bool :=
  (schemaVersion == 1 && knownPayloadType type) ||
    (schemaVersion == 2 &&
      (type == "run.started" || type == "plan.revision_proposed" || type == "run.child_created" ||
        type == "tool.proposed" || type == "tool.policy_decided" ||
        ("memory.".toList.isPrefixOf type.toList && knownPayloadType type))) ||
    ((schemaVersion == 3 || schemaVersion == 4 || schemaVersion == 5 || schemaVersion == 6) &&
      type == "run.started") ||
    ((schemaVersion == 3 || schemaVersion == 4) && type == "run.child_created") ||
    (schemaVersion == 3 && type == "tool.proposed")

/-- The memory events, which choose their own version. -/
def isMemoryEvent : RunEventPayload → Bool
  | .other .memoryProposed _ => true
  | .other .memoryPolicyDecided _ => true
  | .other .memoryAccepted _ => true
  | .other .memoryEditedAndAccepted _ => true
  | .other .memoryRejected _ => true
  | .other .memorySuperseded _ => true
  | .other .memoryExpired _ => true
  | _ => false

variable (library : Library)

def dumpOf (value : Json) : Result Bytes :=
  match library.dump value with
  | some document => .ok document
  | none => .error .json

def parseOf (document : Bytes) : Result Json :=
  match library.parse document with
  | .ok value => .ok value
  | .error .duplicateKey => .error .duplicateKey
  | .error .invalid => .error .json

/-- A payload of an unknown kind is kept as the text it has. -/
def unknownJson (payload : StructuredDataBlock) : Result Json := do
  ensure (payload.mediaType = "application/json") (.codec "unknown event payload is not JSON")
  let parsed ← parseOf library payload.data
  let canonical ← dumpOf library parsed
  ensure (canonical = payload.data) (.codec "unknown event payload is not canonical JSON")
  return parsed

def payloadJson (payload : RunEventPayload) (schemaVersion : ℕ) : Result Json :=
  match payload with
  | .runStarted value => runStartedJson parts value schemaVersion
  | .toolProposed value => toolProposedJson parts value schemaVersion
  | .toolPolicyDecided value => toolPolicyDecidedJson parts value schemaVersion
  | .planRevisionProposed revision => planRevisionProposedJson parts revision schemaVersion
  | .childRunCreated childRunId descriptor =>
    childRunCreatedJson parts childRunId descriptor schemaVersion
  | .unknown _ payload => unknownJson library payload
  | other => parts.otherJson other schemaVersion

def isUnknown : RunEventPayload → Bool
  | .unknown .. => true
  | _ => false

def validatePayloadSchemaForEncoding (payload : RunEventPayload) (schemaVersion : ℕ) :
    Result Unit :=
  match payload with
  | .toolPolicyDecided decided => do
    ensure (decide (decided.source = .automaticMatcher) = decided.automaticApproval.isSome ∧
        (decided.automaticApproval.all fun evidence =>
          decide (decided.decision = .allow) && validAutomaticApprovalEvidence evidence))
      (.codec "automatic approval evidence is inconsistent")
    ensure (¬ (schemaVersion < 2 ∧ decided.automaticApproval.isSome))
      (.codec "automatic approval evidence requires policy schema version 2")
  | .toolProposed proposed =>
    ensure (2 ≤ schemaVersion → proposed.validatedArguments.isSome)
      (.codec "tool proposal schema version 2 requires normalized arguments")
  | _ => .ok ()

def invalidArgument (message : String) : SessionStoreError := ⟨.invalidArgument, message, false⟩

/-- What a first schema version cannot hold. -/
def checkFirstVersion : RunEventPayload → Except SessionStoreError Unit
  | .toolProposed proposed => ensure (proposed.spendQuote.isNone)
      (invalidArgument "paid tool quote requires proposal event schema version 2")
  | .planRevisionProposed revision => ensure (revision.evidence = [])
      (invalidArgument "plan evidence requires proposal event schema version 2")
  | .childRunCreated _ descriptor => ensure (descriptor.isNone)
      (invalidArgument
        "child-run dispatch metadata requires event schema version 2, 3, or 4")
  | _ => .ok ()

def encodingError : Failure → SessionStoreError
  | .codec _ => invalidArgument "event payload is invalid"
  | .duplicateKey => invalidArgument "unknown event payload has a duplicate key"
  | .json => invalidArgument "event payload cannot be encoded as UTF-8 JSON"

/-- `encode_payload` behind the check of the type. -/
def encode (payload : RunEventPayload) (schemaVersion : ℕ) : Except SessionStoreError Bytes := do
  ensure (knownPayloadSchema (payloadType payload) schemaVersion ∨ isUnknown payload)
    ⟨.unsupportedVersion, "known event payload uses an unsupported schema version", false⟩
  ensure (¬ (knownPayloadSchema (payloadType payload) schemaVersion ∧ isUnknown payload))
    (invalidArgument "known event schema cannot carry an opaque payload")
  (validatePayloadSchemaForEncoding payload schemaVersion).mapError encodingError
  onlyIf (schemaVersion = 1) (checkFirstVersion payload)
  let value ← (payloadJson parts library payload schemaVersion).mapError encodingError
  (dumpOf library value).mapError encodingError

def corrupt (message : String) : SessionStoreError := ⟨.corrupt, message, false⟩

def parseJsonDocument (document : Bytes) : Except SessionStoreError Json :=
  match library.parse document with
  | .error .duplicateKey => .error (corrupt "persisted event payload has a duplicate key")
  | .error .invalid => .error (corrupt "persisted event payload is invalid UTF-8 JSON")
  | .ok value =>
    match library.dump value with
    | none => .error (corrupt "persisted event payload is invalid UTF-8 JSON")
    | some canonical =>
      if canonical = document then .ok value
      else .error (corrupt "persisted event payload is not in canonical form")

def parsePayload (type : String) (value : Json) (schemaVersion : ℕ) : Result RunEventPayload :=
  if type = "run.started" then (parseRunStarted parts value schemaVersion).map .runStarted
  else if type = "tool.proposed" then
    (parseToolProposed parts value schemaVersion).map .toolProposed
  else if type = "tool.policy_decided" then
    (parseToolPolicyDecided parts value schemaVersion).map .toolPolicyDecided
  else if type = "plan.revision_proposed" then
    (parsePlanRevisionProposed parts value).map .planRevisionProposed
  else if type = "run.child_created" then
    (parseChildRunCreated parts value schemaVersion).map fun created =>
      .childRunCreated created.1 created.2
  else parts.parseOther (bytesOf type) value schemaVersion

def decodingError (type : String) : Failure → SessionStoreError
  | .codec message => corrupt ("known event payload " ++ type ++ " is invalid: " ++ message)
  | _ => corrupt "known event payload has invalid fields"

def mismatch : SessionStoreError :=
  corrupt "known event payload does not match its declared schema"

/-- What a replay makes of a stored document. -/
def decode (type : String) (schemaVersion : ℕ) (document : Bytes) :
    Except SessionStoreError RunEventPayload := do
  let parsed ← parseJsonDocument library document
  if knownPayloadSchema type schemaVersion then
    let decoded ← (parsePayload parts type parsed schemaVersion).mapError (decodingError type)
    ensure (payloadType decoded = type) mismatch
    let value ← (payloadJson parts library decoded schemaVersion).mapError (decodingError type)
    let again ← (dumpOf library value).mapError (decodingError type)
    ensure (again = document) mismatch
    return decoded
  else return .unknown type ⟨"application/json", document⟩

/-- The codec of the session store. A type is a text in UTF-8, as the payloads have it. -/
def codec (jsonValid : Bytes → Bool) : Codec RunEventPayload where
  payloadType payload := bytesOf (payloadType payload)
  write := encode parts library
  read type schemaVersion document :=
    match String.fromUTF8? ⟨type.toArray⟩ with
    | some type => decode parts library type schemaVersion document
    | none => .error typeError
  jsonValid

end PayloadCodec
