import AiForge.Capability
import AiForge.Events
import AiForge.KeyedList

/-! # Plan graphs

A plan is a chain of revisions, each proposed, decided and, once approved, turned into session
tasks. Child runs attempt the tasks; an attempt without a result is still out. -/
namespace PlanGraph

open Capability Content Events SafeText

structure PlanGraphLimits where
  (maximumTasks maximumEvidenceBindings : ℕ := 256)
  maximumDependenciesPerTask : ℕ := 64
  (maximumAcceptanceCriteriaPerTask maximumResourceIntentsPerTask : ℕ := 32)
  maximumTextBytes : ℕ := 16 * 1024
  maximumMetadataBytes : ℕ := 4096
  maximumTotalTextBytes : ℕ := 1024 * 1024

/-- Limits may be tightened, never widened. -/
def PlanGraphLimits.valid (limits : PlanGraphLimits) : Bool :=
  let maximums : PlanGraphLimits := {}
  0 < limits.maximumTasks && limits.maximumTasks ≤ maximums.maximumTasks &&
    0 < limits.maximumEvidenceBindings &&
    limits.maximumEvidenceBindings ≤ maximums.maximumEvidenceBindings &&
    0 < limits.maximumDependenciesPerTask &&
    limits.maximumDependenciesPerTask ≤ maximums.maximumDependenciesPerTask &&
    0 < limits.maximumAcceptanceCriteriaPerTask &&
    limits.maximumAcceptanceCriteriaPerTask ≤ maximums.maximumAcceptanceCriteriaPerTask &&
    0 < limits.maximumResourceIntentsPerTask &&
    limits.maximumResourceIntentsPerTask ≤ maximums.maximumResourceIntentsPerTask &&
    0 < limits.maximumTextBytes && limits.maximumTextBytes ≤ maximums.maximumTextBytes &&
    0 < limits.maximumMetadataBytes &&
    limits.maximumMetadataBytes ≤ maximums.maximumMetadataBytes &&
    0 < limits.maximumTotalTextBytes &&
    limits.maximumTotalTextBytes ≤ maximums.maximumTotalTextBytes &&
    limits.maximumTextBytes ≤ limits.maximumTotalTextBytes

inductive PlanGraphErrorCode where
  | invalidLimits | invalidPlan | invalidTask | duplicateIdentity | unknownReference | cyclicGraph
  | resourceExhausted | invalidDecision | wrongPlan | wrongRevision | invalidTransition
  | invalidEnvelope | nonMonotonicSequence | duplicateEvent
  deriving DecidableEq

structure PlanGraphError where
  code : PlanGraphErrorCode
  message : String
  planId : Option PlanId := none
  revisionId : Option PlanRevisionId := none
  taskId : Option PlanTaskId := none
  deriving DecidableEq

def isControl (character : UInt8) : Bool := character < 0x20 || character == 0x7f

/-- A byte that may not start a character: a control other than tab, newline and return. -/
def isRefusedControl (character : UInt8) : Bool :=
  isControl character && character != 0x09 && character != 0x0a && character != 0x0d

/-- The scan of `valid_utf8_text`; every round consumes a byte, so the length is enough fuel. -/
def utf8Scan : ℕ → Bytes → Bool
  | _, [] => true
  | 0, _ :: _ => false
  | fuel + 1, first :: rest =>
    !isRefusedControl first &&
      match decodeUtf8Codepoint (first :: rest) with
      | none => false
      | some decoded => utf8Scan fuel ((first :: rest).drop decoded.bytes)

def boundedText (value : Bytes) (maximum : ℕ) : Bool :=
  value.length ≤ maximum && !value.isEmpty && utf8Scan value.length value

def boundedIdentity (value : Bytes) (maximum : ℕ) : Bool :=
  boundedText value maximum && !value.any isControl

def isAlnum (c : Char) : Bool :=
  ('0' ≤ c && c ≤ '9') || ('A' ≤ c && c ≤ 'Z') || ('a' ≤ c && c ≤ 'z')

def isXdigit (c : Char) : Bool :=
  ('0' ≤ c && c ≤ '9') || ('A' ≤ c && c ≤ 'F') || ('a' ≤ c && c ≤ 'f')

def validDigest (digest : ContentDigest) : Bool :=
  boundedIdentity (bytesOf digest.algorithm) 128 && boundedIdentity (bytesOf digest.value) 512 &&
    digest.algorithm.toList.all (fun c => isAlnum c || c == '-' || c == '_' || c == '.') &&
    digest.value.toList.all isXdigit

inductive Visit where
  | unseen | active | complete
  deriving DecidableEq

/-- One visit of the depth-first search. A search that meets a task it is still visiting has
found a cycle; a visit goes at most once into each task, which bounds the depth. -/
def visitTask (tasks : List PlanTask) (edges : PlanTask → List PlanTaskId) :
    ℕ → ℕ → List Visit → Bool × List Visit
  | 0, _, visits => (true, visits)
  | depth + 1, index, visits =>
    match visits[index]?, tasks[index]? with
    | some .active, _ => (true, visits)
    | some .unseen, some task =>
      let visitTarget (found : Bool × List Visit) (target : PlanTaskId) : Bool × List Visit :=
        if found.1 then found
        else
          match tasks.findIdx? fun task => task.taskId = target with
          | some next => visitTask tasks edges depth next found.2
          | none => found
      let (cyclic, visited) := (edges task).foldl visitTarget (false, visits.set index .active)
      (cyclic, if cyclic then visited else visited.set index .complete)
    | _, _ => (false, visits)

def hasCycle (tasks : List PlanTask) (edges : PlanTask → List PlanTaskId) : Bool :=
  ((List.range tasks.length).foldl (fun found index =>
    if found.1 then found else visitTask tasks edges (tasks.length + 1) index found.2)
    (false, tasks.map fun _ => Visit.unseen)).1

def parentEdges (task : PlanTask) : List PlanTaskId := task.parentTaskId.toList

abbrev refuse {α : Type} (code : PlanGraphErrorCode) (message : String)
    (planId : Option PlanId) (revisionId : Option PlanRevisionId := none)
    (taskId : Option PlanTaskId := none) : Except PlanGraphError α :=
  .error ⟨code, message, planId, revisionId, taskId⟩

def addTextBytes (limits : PlanGraphLimits) (total : ℕ) (value : Bytes) : Option ℕ :=
  if total + value.length ≤ limits.maximumTotalTextBytes then some (total + value.length)
  else none

def checkEvidence (limits : PlanGraphLimits) (revision : PlanRevision) :
    List PlanEvidenceBinding → List EvidenceId → ℕ → Except PlanGraphError ℕ
  | [], _, total => .ok total
  | binding :: rest, seen, total =>
    let invalid : Except PlanGraphError ℕ :=
      refuse .invalidPlan "plan evidence binding is invalid or duplicated" revision.planId
        revision.revisionId
    if !validDigest binding.digest || binding.evidenceId ∈ seen then invalid
    else
      match addTextBytes limits total (bytesOf binding.digest.algorithm) with
      | none => invalid
      | some total =>
        match addTextBytes limits total (bytesOf binding.digest.value) with
        | none => invalid
        | some total => checkEvidence limits revision rest (binding.evidenceId :: seen) total

def checkDependencies (refused : PlanGraphErrorCode → String → Except PlanGraphError Unit)
    (tasks : List PlanTask) (task : PlanTask) :
    List PlanTaskId → List PlanTaskId → Except PlanGraphError Unit
  | [], _ => .ok ()
  | dependency :: rest, seen =>
    if dependency = task.taskId ∨ ¬ (tasks.any fun t => t.taskId = dependency) then
      refused .unknownReference "plan task dependency is missing or self-referential"
    else if dependency ∈ seen then
      refused .duplicateIdentity "plan task dependency is duplicated"
    else checkDependencies refused tasks task rest (dependency :: seen)

def checkIntents (limits : PlanGraphLimits)
    (refused : PlanGraphErrorCode → String → Except PlanGraphError ℕ) (task : PlanTask) :
    List PlanResourceIntent → List PlanResourceIntent → ℕ → Except PlanGraphError ℕ
  | [], _, total => .ok total
  | intent :: rest, seen, total =>
    if intent.effect ∉ task.intendedEffects ∨
        ¬ boundedIdentity (bytesOf intent.kind) limits.maximumMetadataBytes ∨
        ¬ boundedIdentity (bytesOf intent.value) limits.maximumTextBytes ∨ intent ∈ seen then
      refused .invalidTask "plan resource intent is invalid or duplicated"
    else
      match (addTextBytes limits total (bytesOf intent.kind)).bind
        (addTextBytes limits · (bytesOf intent.value)) with
      | none => refused .resourceExhausted "plan text exceeds its aggregate bound"
      | some total => checkIntents limits refused task rest (intent :: seen) total

def checkCriteria (limits : PlanGraphLimits)
    (refused : PlanGraphErrorCode → String → Except PlanGraphError ℕ) :
    List Bytes → ℕ → Except PlanGraphError ℕ
  | [], total => .ok total
  | criterion :: rest, total =>
    if !boundedText criterion limits.maximumTextBytes then
      refused .invalidTask "plan acceptance criterion is invalid"
    else
      match addTextBytes limits total criterion with
      | none => refused .resourceExhausted "plan acceptance criteria exceed their bounds"
      | some total => checkCriteria limits refused rest total

def checkTask (limits : PlanGraphLimits) (revision : PlanRevision) (total : ℕ)
    (task : PlanTask) : Except PlanGraphError ℕ :=
  let refused {α : Type} (code : PlanGraphErrorCode) (message : String) :
      Except PlanGraphError α :=
    refuse code message revision.planId revision.revisionId task.taskId
  if !boundedText task.title limits.maximumTextBytes || task.acceptanceCriteria.isEmpty ||
      limits.maximumAcceptanceCriteriaPerTask < task.acceptanceCriteria.length ||
      limits.maximumDependenciesPerTask < task.dependencyTaskIds.length ||
      limits.maximumResourceIntentsPerTask < task.resourceIntents.length then
    refused .invalidTask "plan task fields are invalid or outside their bounds"
  else
    match addTextBytes limits total task.title with
    | none => refused .resourceExhausted "plan text exceeds its aggregate bound"
    | some total => do
      checkDependencies refused revision.tasks task task.dependencyTaskIds []
      if task.parentTaskId = some task.taskId ∨
          (task.parentTaskId.isSome ∧
            ¬ (revision.tasks.any fun t => some t.taskId = task.parentTaskId)) then
        refused .unknownReference "plan task parent is missing or self-referential"
      else if ¬ task.intendedEffects.Nodup then
        refused .invalidTask "plan task effects are invalid or duplicated"
      else
        let total ← checkIntents limits refused task task.resourceIntents [] total
        checkCriteria limits refused task.acceptanceCriteria total

def duplicatedTask : List PlanTask → List PlanTaskId → Option PlanTaskId
  | [], _ => none
  | task :: rest, seen =>
    if task.taskId ∈ seen then some task.taskId else duplicatedTask rest (task.taskId :: seen)

/-- The checks of `validate_plan_revision` before it looks for cycles. -/
def otherChecks (revision : PlanRevision) (limits : PlanGraphLimits) :
    Except PlanGraphError Unit :=
  let refused {α : Type} (code : PlanGraphErrorCode) (message : String)
      (taskId : Option PlanTaskId := none) : Except PlanGraphError α :=
    refuse code message revision.planId revision.revisionId taskId
  if limits.valid = false then refused .invalidLimits "plan graph limits are invalid"
  else if !boundedText revision.goal limits.maximumTextBytes ||
      revision.supersedesRevisionId == some revision.revisionId ||
      revision.sourceSnapshot.any (fun snapshot => !validDigest snapshot.fingerprint) then
    refused .invalidPlan "plan revision metadata is invalid"
  else if limits.maximumEvidenceBindings < revision.evidence.length then
    refused .resourceExhausted "plan evidence count exceeds its bound"
  else if revision.tasks.isEmpty || limits.maximumTasks < revision.tasks.length then
    refused .resourceExhausted "plan task count is outside its bounds"
  else
    match addTextBytes limits 0 revision.goal with
    | none => refused .resourceExhausted "plan text exceeds its aggregate bound"
    | some total => do
      let total ← checkEvidence limits revision revision.evidence [] total
      match duplicatedTask revision.tasks [] with
      | some taskId => refused .duplicateIdentity "plan task identity is duplicated" taskId
      | none =>
        let _ ← revision.tasks.foldlM (checkTask limits revision) total
        return ()

def validatePlanRevision (revision : PlanRevision) (limits : PlanGraphLimits := {}) :
    Except PlanGraphError Unit := do
  otherChecks revision limits
  if hasCycle revision.tasks parentEdges ||
      hasCycle revision.tasks PlanTask.dependencyTaskIds then
    refuse .cyclicGraph "plan task graph contains a cycle" revision.planId revision.revisionId
  else .ok ()

def validatePlanDecision (decision : PlanRevisionDecision) (limits : PlanGraphLimits := {}) :
    Except PlanGraphError Unit :=
  if limits.valid = false then
    refuse .invalidLimits "plan graph limits are invalid" decision.planId decision.revisionId
  else if decision.reason.any fun reason => !boundedText reason limits.maximumTextBytes then
    refuse .invalidDecision "plan revision decision is invalid" decision.planId
      decision.revisionId
  else .ok ()

def validatePlanInvalidation (invalidation : PlanRevisionInvalidation) :
    Except PlanGraphError Unit :=
  if invalidation.triggers.isEmpty ∨ ¬ invalidation.triggers.Nodup then
    refuse .invalidTransition "plan revision invalidation is invalid" invalidation.planId
      invalidation.revisionId
  else .ok ()

def validChildDigest (digest : ContentDigest) : Bool :=
  !digest.algorithm.isEmpty && digest.algorithm.utf8ByteSize ≤ 128 && !digest.value.isEmpty &&
    digest.value.utf8ByteSize ≤ 512 &&
    digest.algorithm.toList.all (fun c => isAlnum c || c == '-' || c == '_' || c == '.') &&
    digest.value.toList.all isXdigit

inductive ChildRunContractErrorCode where
  | invalidBudget | invalidContext | invalidCapabilities | invalidResult

structure ChildRunContractError where
  code : ChildRunContractErrorCode
  message : String

def maximumTokens : ℕ := 16 * 1024 * 1024

/-- A day, in the milliseconds budgets are kept in. -/
def maximumTimeout : ℤ := 24 * 60 * 60 * 1000

def validateChildRunDescriptor (descriptor : ChildRunDescriptor) :
    Except ChildRunContractError Unit :=
  let budget := descriptor.budget
  let context := descriptor.context
  if descriptor.attempt = 0 ∨ 8 < descriptor.attempt ∨ budget.maximumInferences = 0 ∨
      256 < budget.maximumInferences ∨ 4096 < budget.maximumToolInvocations ∨
      budget.maximumInputTokens = 0 ∨ maximumTokens < budget.maximumInputTokens ∨
      budget.maximumOutputTokens = 0 ∨ maximumTokens < budget.maximumOutputTokens ∨
      budget.timeout ≤ 0 ∨ maximumTimeout < budget.timeout then
    .error ⟨.invalidBudget, "child-run budget is outside its supported bounds"⟩
  else if ¬ validChildDigest context.targetSnapshot.fingerprint ∨ context.evidenceIds = [] ∨
      1024 < context.evidenceIds.length ∨ ¬ context.evidenceIds.Nodup ∨
      context.representedBytes = 0 ∨ 256 * 1024 * 1024 < context.representedBytes ∨
      context.estimatedTokens = 0 ∨ budget.maximumInputTokens < context.estimatedTokens then
    .error ⟨.invalidContext, "child-run context binding is invalid or unbounded"⟩
  else if 16 < descriptor.effects.length ∨ 256 < descriptor.capabilityScopes.length ∨
      ¬ descriptor.effects.Nodup ∨ ¬ descriptor.capabilityScopes.Nodup then
    .error ⟨.invalidCapabilities, "child-run capability subset is invalid"⟩
  else if descriptor.capabilityScopes.any fun scope =>
      decide (scope.effect ∉ descriptor.effects) || !normalizes scope then
    .error ⟨.invalidCapabilities, "child-run capability scope is invalid or undeclared"⟩
  else .ok ()

def validTaskError (error : DomainError) : Bool :=
  !error.message.isEmpty && error.message.utf8ByteSize ≤ 16 * 1024 &&
    (bytesOf error.message).all fun value => value != 0 && value != 0x7f

def validateSessionTaskResult (result : SessionTaskResult) (budget : ChildRunBudget) :
    Except ChildRunContractError Unit :=
  let consumption := result.consumption
  if 256 < result.evidenceIds.length ∨ 256 < result.artifactIds.length ∨
      ¬ result.evidenceIds.Nodup ∨ ¬ result.artifactIds.Nodup ∨
      budget.maximumInferences < consumption.inferenceCount ∨
      budget.maximumToolInvocations < consumption.toolInvocationCount ∨
      budget.maximumInputTokens < consumption.usage.inputTokens ∨
      budget.maximumOutputTokens < consumption.usage.outputTokens then
    .error ⟨.invalidResult, "child-run result is invalid or exceeds its budget"⟩
  else if decide (result.outcome = .completed) != result.error.isNone ||
      result.error.any (fun error => !validTaskError error) then
    .error ⟨.invalidResult, "child-run result outcome and error disagree"⟩
  else .ok ()

structure Attempt where
  childRunId : RunId
  dispatch : ChildRunDescriptor
  result : Option SessionTaskResult
  deriving DecidableEq

structure TaskExecution where
  taskId : PlanTaskId
  attempts : List Attempt
  deriving DecidableEq

structure ProjectedPlanRevision where
  revision : PlanRevision
  proposalEventId : Option EventId
  decisionEventId : Option EventId := none
  decision : Option PlanRevisionDecision := none
  invalidationEventId : Option EventId := none
  invalidationTriggers : List PlanInvalidationTrigger := []
  materializationEventId : Option EventId := none
  taskExecutions : List TaskExecution := []
  deriving DecidableEq

inductive PlanGraphState where
  | notStarted | proposed | revisionRequested | approved | rejected | invalidated
  deriving DecidableEq

structure PlanState where
  planId : Option PlanId := none
  revisions : List ProjectedPlanRevision := []
  eventIds : Finset EventId := ∅
  lastSequence : ℕ := 0
  deriving DecidableEq

def PlanState.currentRevision (s : PlanState) : Option ProjectedPlanRevision :=
  s.revisions.getLast?

def ProjectedPlanRevision.state (current : ProjectedPlanRevision) : PlanGraphState :=
  if current.invalidationEventId.isSome then .invalidated
  else
    match current.decision with
    | none => .proposed
    | some decision =>
      match decision.decision with
      | .approved => .approved
      | .revisionRequested => .revisionRequested
      | .rejected => .rejected

def planIdFrom : RunEventPayload → Option PlanId
  | .planRevisionProposed revision => some revision.planId
  | .planRevisionDecisionRecorded decision => some decision.planId
  | .planRevisionInvalidated invalidation => some invalidation.planId
  | .sessionTasksMaterialized planId _ => some planId
  | .childRunCreated _ descriptor => descriptor.map ChildRunDescriptor.planId
  | .sessionTaskResultRecorded result => some result.planId
  | _ => none

def PlanState.changeCurrent (s : PlanState)
    (f : ProjectedPlanRevision → ProjectedPlanRevision) : PlanState :=
  { s with revisions := s.revisions.modifyLast f }

def applyProposed (s : PlanState) (event : RunEvent) (limits : PlanGraphLimits)
    (revision : PlanRevision) : Except PlanGraphError PlanState := do
  validatePlanRevision revision limits
  if revision.supersedesRevisionId ≠ s.currentRevision.map (·.revision.revisionId) then
    refuse .invalidTransition "plan revision does not supersede the current revision"
      revision.planId revision.revisionId
  else if s.revisions.any fun r => r.revision.revisionId = revision.revisionId then
    refuse .duplicateIdentity "plan revision identity is duplicated" revision.planId
      revision.revisionId
  else return { s with
    planId := some (s.planId.getD revision.planId)
    revisions := s.revisions ++ [{ revision, proposalEventId := some event.metadata.eventId }] }

def applyDecision (s : PlanState) (event : RunEvent) (limits : PlanGraphLimits)
    (decision : PlanRevisionDecision) : Except PlanGraphError PlanState := do
  validatePlanDecision decision limits
  match s.currentRevision with
  | none =>
    refuse .invalidTransition "plan decision requires a proposed revision" decision.planId
      decision.revisionId
  | some current =>
    if decision.revisionId ≠ current.revision.revisionId then
      refuse .wrongRevision "plan decision does not target the current revision" decision.planId
        decision.revisionId
    else if current.decision.isSome ∨ current.invalidationEventId.isSome then
      refuse .invalidTransition "plan revision already has a decision or invalidation"
        decision.planId decision.revisionId
    else return s.changeCurrent fun r => { r with
      decisionEventId := some event.metadata.eventId
      decision := some decision }

def applyInvalidation (s : PlanState) (event : RunEvent)
    (invalidation : PlanRevisionInvalidation) : Except PlanGraphError PlanState := do
  validatePlanInvalidation invalidation
  match s.currentRevision.filter fun r => r.revision.revisionId = invalidation.revisionId with
  | none =>
    refuse .wrongRevision "plan invalidation does not target the current revision"
      invalidation.planId invalidation.revisionId
  | some current =>
    if current.invalidationEventId.isSome ∨
        (current.decision.any fun decision => decision.decision ≠ .approved) then
      refuse .invalidTransition "plan revision cannot be invalidated in its current state"
        invalidation.planId invalidation.revisionId
    else return s.changeCurrent fun r => { r with
      invalidationEventId := some event.metadata.eventId
      invalidationTriggers := invalidation.triggers }

def applyMaterialized (s : PlanState) (event : RunEvent) (planId : PlanId)
    (revisionId : PlanRevisionId) : Except PlanGraphError PlanState :=
  match s.currentRevision.filter fun r => r.revision.revisionId = revisionId with
  | none =>
    refuse .wrongRevision "task materialization does not target the current revision" planId
      revisionId
  | some current =>
    if current.state ≠ .approved ∨ current.materializationEventId.isSome then
      refuse .invalidTransition "session tasks require one current approved revision" planId
        revisionId
    else .ok (s.changeCurrent fun r => { r with
      materializationEventId := some event.metadata.eventId
      taskExecutions := r.taskExecutions ++ r.revision.tasks.map fun task => ⟨task.taskId, []⟩ })

/-- Another attempt may follow only one that found no runner and may be retried. -/
def Attempt.retryable (attempt : Attempt) : Bool :=
  attempt.result.any fun result =>
    decide (result.outcome = .unavailable) && result.error.any fun error => error.retryable

def TaskExecution.admitsNext (execution : TaskExecution) : Bool :=
  execution.attempts.getLast?.all Attempt.retryable

def changeExecution (taskId : PlanTaskId) (f : List Attempt → List Attempt)
    (r : ProjectedPlanRevision) : ProjectedPlanRevision :=
  { r with
    taskExecutions := KeyedList.updateFirst TaskExecution.taskId taskId
      (fun execution => { execution with attempts := f execution.attempts }) r.taskExecutions }

def applyChildCreated (s : PlanState) (event : RunEvent)
    (childRunId : RunId) (descriptor : ChildRunDescriptor) : Except PlanGraphError PlanState :=
  let refused (code : PlanGraphErrorCode) (message : String) :
      Except PlanGraphError PlanState :=
    refuse code message descriptor.planId descriptor.revisionId descriptor.taskId
  match s.currentRevision.filter fun r => r.revision.revisionId = descriptor.revisionId with
  | none => refused .wrongRevision "child run does not target the current revision"
  | some current =>
    if current.state ≠ .approved ∨ current.materializationEventId.isNone ∨
        childRunId ≠ event.metadata.runId ∨
        event.metadata.parentRunId ≠ some descriptor.parentRunId ∨
        (validateChildRunDescriptor descriptor matches .error _) then
      refused .invalidTransition "child run does not match a current materialized task"
    else
      match current.taskExecutions.find? fun e => e.taskId = descriptor.taskId with
      | none => refused .unknownReference "child run targets an unknown task"
      | some execution =>
        if ¬ execution.admitsNext ∨ descriptor.attempt ≠ execution.attempts.length + 1 then
          refused .invalidTransition "session task attempt is not the next retryable dispatch"
        else .ok (s.changeCurrent (changeExecution descriptor.taskId
          (· ++ [⟨childRunId, descriptor, none⟩])))

def Attempt.awaits (attempt : Attempt) (result : SessionTaskResult) : Bool :=
  attempt.childRunId = result.childRunId && attempt.dispatch.planId = result.planId &&
    attempt.dispatch.revisionId = result.revisionId && attempt.dispatch.taskId = result.taskId &&
    attempt.result.isNone

def applyTaskResult (s : PlanState) (event : RunEvent) (result : SessionTaskResult) :
    Except PlanGraphError PlanState :=
  let refused (code : PlanGraphErrorCode) (message : String) :
      Except PlanGraphError PlanState :=
    refuse code message result.planId result.revisionId result.taskId
  match s.currentRevision.filter fun r => r.revision.revisionId = result.revisionId with
  | none => refused .wrongRevision "task result does not target the current revision"
  | some current =>
    match (current.taskExecutions.find? fun e => e.taskId = result.taskId).bind
        (·.attempts.getLast?) with
    | none => refused .invalidTransition "task result has no matching unterminated child run"
    | some attempt =>
      if !attempt.awaits result then
        refused .invalidTransition "task result has no matching unterminated child run"
      else if (validateSessionTaskResult result attempt.dispatch.budget matches .error _) ∨
          result.childRunId ≠ event.metadata.runId ∨
          event.metadata.parentRunId ≠ some attempt.dispatch.parentRunId then
        refused .invalidTransition "session task result is malformed"
      else .ok (s.changeCurrent (changeExecution result.taskId
        (·.modifyLast fun attempt => { attempt with result := some result })))

def visit (s : PlanState) (event : RunEvent) (limits : PlanGraphLimits) :
    Except PlanGraphError PlanState :=
  match event.payload with
  | .planRevisionProposed revision => applyProposed s event limits revision
  | .planRevisionDecisionRecorded decision => applyDecision s event limits decision
  | .planRevisionInvalidated invalidation => applyInvalidation s event invalidation
  | .sessionTasksMaterialized planId revisionId => applyMaterialized s event planId revisionId
  | .childRunCreated childRunId (some descriptor) =>
    applyChildCreated s event childRunId descriptor
  | .sessionTaskResultRecorded result => applyTaskResult s event result
  | _ => .ok s

/-- The candidate that takes the place of the projection, if the event is accepted. -/
def apply (s : PlanState) (event : RunEvent) (limits : PlanGraphLimits := {}) :
    Except PlanGraphError PlanState :=
  if limits.valid = false then
    refuse .invalidLimits "plan graph limits are invalid" s.planId
  else if event.metadata.sequence = 0 ∨ event.metadata.schemaVersion = 0 then
    refuse .invalidEnvelope "plan event envelope is invalid" s.planId
  else if event.metadata.sequence ≤ s.lastSequence then
    refuse .nonMonotonicSequence "plan event sequence did not increase" s.planId
  else if event.metadata.eventId ∈ s.eventIds then
    refuse .duplicateEvent "plan event identity is duplicated" s.planId
  else if (planIdFrom event.payload).isSome ∧ s.planId.isSome ∧
      planIdFrom event.payload ≠ s.planId then
    refuse .wrongPlan "plan event belongs to another plan" s.planId
  else do
    let t ← visit s event limits
    return { t with
      eventIds := insert event.metadata.eventId t.eventIds
      lastSequence := event.metadata.sequence }

end PlanGraph
