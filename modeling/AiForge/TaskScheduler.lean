import AiForge.PlanGraph

/-! # Task scheduler

The analysis reads one materialized revision: it checks the attempt history again, classifies
every task by its own attempts and by what it depends on, and selects what may be dispatched
next to what is running. -/
namespace TaskScheduler

open Content Events PlanGraph SafeText

structure TaskSchedulingPolicy where
  (maximumConcurrency maximumAttempts : ℕ := 1)

inductive TaskReadinessState where
  | ready | waitingForDependencies | blockedByDependency | blockedByResource | waitingForCapacity
  | running | completed | failed
  deriving DecidableEq

structure TaskReadiness where
  taskId : PlanTaskId
  state : TaskReadinessState
  blockers : List PlanTaskId
  nextAttempt : ℕ
  deriving DecidableEq

inductive TaskRollupState where
  | inProgress | completed | failed
  deriving DecidableEq

structure TaskScheduleRollup where
  state : TaskRollupState := .inProgress
  (completedTasks failedTasks blockedTasks : ℕ := 0)
  consumption : ChildRunConsumption := ⟨0, 0, {}⟩
  evidenceIds : List EvidenceId := []
  artifactIds : List ArtifactId := []
  deriving DecidableEq

structure TaskScheduleAnalysis where
  tasks : List TaskReadiness
  dispatchableTaskIds : List PlanTaskId
  rollup : TaskScheduleRollup
  deriving DecidableEq

inductive TaskSchedulingErrorCode where
  | invalidPolicy | invalidProjection | resourceExhausted
  deriving DecidableEq

structure TaskSchedulingError where
  code : TaskSchedulingErrorCode
  message : String
  deriving DecidableEq

abbrev Analysis := Except TaskSchedulingError

def invalidProjection (message : String) : TaskSchedulingError := ⟨.invalidProjection, message⟩

def maximumConcurrency : ℕ := 16

def maximumAttempts : ℕ := 8

def TaskSchedulingPolicy.inBounds (policy : TaskSchedulingPolicy) : Prop :=
  policy.maximumConcurrency ≠ 0 ∧
    policy.maximumConcurrency ≤ TaskScheduler.maximumConcurrency ∧
    policy.maximumAttempts ≠ 0 ∧ policy.maximumAttempts ≤ TaskScheduler.maximumAttempts

instance (policy : TaskSchedulingPolicy) : Decidable policy.inBounds :=
  inferInstanceAs (Decidable (_ ∧ _ ∧ _ ∧ _))

def mutates (task : PlanTask) : Bool := task.intendedEffects.any (· ≠ .read)

def validComponent (value : String) : Bool :=
  value != "" && value.utf8ByteSize ≤ 4096 &&
    (bytesOf value).all fun character => 0x20 ≤ character && character != 0x7f

def validRepositoryPath (value : String) : Bool :=
  let path := value.toList
  path != [] && path.head? != some '/' && path.getLast? != some '/' && !path.contains '\\' &&
    (path.splitOn '/').all fun part => part != [] && part != ['.'] && part != ['.', '.']

def isAncestor (ancestor descendant : List Char) : Bool :=
  (ancestor ++ ['/']).isPrefixOf descendant

def pathOverlaps (left right : String) : Bool :=
  left == right || isAncestor left.toList right.toList || isAncestor right.toList left.toList

inductive IntentRelation where
  | disjoint | overlaps | ambiguous
  deriving DecidableEq

def intentRelation (left right : PlanResourceIntent) : IntentRelation :=
  if left.kind = "repository_path" ∧ right.kind = "repository_path" then
    if !validRepositoryPath left.value || !validRepositoryPath right.value then .ambiguous
    else if pathOverlaps left.value right.value then .overlaps
    else .disjoint
  else if left.kind = "repository_component" ∧ right.kind = "repository_component" then
    if !validComponent left.value || !validComponent right.value then .ambiguous
    else if left.value = right.value then .overlaps
    else .disjoint
  else .ambiguous

/-- Two tasks conflict unless they can be told apart. -/
def taskResourceConflict (left right : PlanTask) : Bool :=
  if !mutates left && !mutates right then false
  else if (mutates left && left.resourceIntents.isEmpty) ||
      (mutates right && right.resourceIntents.isEmpty) then true
  else left.resourceIntents.any fun leftIntent => right.resourceIntents.any fun rightIntent =>
    !(leftIntent.effect = .read && rightIntent.effect = .read) &&
      intentRelation leftIntent rightIntent != .disjoint

def checkAttempts (revision : PlanRevision) (taskId : PlanTaskId) :
    ℕ → List Attempt → List RunId → Analysis (List RunId)
  | _, [], childRunIds => .ok childRunIds
  | index, attempt :: rest, childRunIds =>
    if attempt.childRunId ∈ childRunIds ∨ attempt.dispatch.planId ≠ revision.planId ∨
        attempt.dispatch.revisionId ≠ revision.revisionId ∨ attempt.dispatch.taskId ≠ taskId ∨
        attempt.dispatch.attempt ≠ index + 1 ∨
        (validateChildRunDescriptor attempt.dispatch).isOk = false ∨
        (rest ≠ [] ∧ attempt.retryable = false) then
      .error (invalidProjection "task scheduling attempt history is invalid")
    else if attempt.result.any fun result =>
        result.planId != attempt.dispatch.planId ||
          result.revisionId != attempt.dispatch.revisionId ||
          result.taskId != attempt.dispatch.taskId ||
          result.childRunId != attempt.childRunId ||
          !(validateSessionTaskResult result attempt.dispatch.budget).isOk then
      .error (invalidProjection "task scheduling result history is invalid")
    else checkAttempts revision taskId (index + 1) rest (attempt.childRunId :: childRunIds)

def checkExecutions (revision : PlanRevision) :
    List TaskExecution → List PlanTaskId → List RunId → Analysis (List RunId)
  | [], _, childRunIds => .ok childRunIds
  | execution :: rest, executionIds, childRunIds =>
    if execution.taskId ∈ executionIds ∨ maximumAttempts < execution.attempts.length then
      .error (invalidProjection "task scheduling projection has invalid attempts")
    else do
      let childRunIds ← checkAttempts revision execution.taskId 0 execution.attempts childRunIds
      checkExecutions revision rest (execution.taskId :: executionIds) childRunIds

def retryable (execution : TaskExecution) (policy : TaskSchedulingPolicy) : Bool :=
  match execution.attempts.getLast? with
  | none => false
  | some last => decide (execution.attempts.length < policy.maximumAttempts) && last.retryable

/-- What a task's own attempts make of it. -/
def attemptState (execution : TaskExecution) (policy : TaskSchedulingPolicy) :
    TaskReadinessState :=
  match execution.attempts.getLast? with
  | none => .ready
  | some attempt =>
    match attempt.result with
    | none => .running
    | some result =>
      if result.outcome = .completed then .completed
      else if !retryable execution policy then .failed
      else .ready

def findExecution (revision : ProjectedPlanRevision) (taskId : PlanTaskId) :
    Option TaskExecution :=
  KeyedList.lookup TaskExecution.taskId taskId revision.taskExecutions

def initialReadiness (revision : ProjectedPlanRevision) (policy : TaskSchedulingPolicy)
    (task : PlanTask) : Analysis TaskReadiness :=
  match findExecution revision task.taskId with
  | none => .error (invalidProjection "task scheduling projection lacks a task")
  | some execution =>
    .ok ⟨task.taskId, attemptState execution policy, [], execution.attempts.length + 1⟩

/-- A task whose own attempts have decided its state. -/
def TaskReadinessState.settled : TaskReadinessState → Bool
  | .running | .completed | .failed => true
  | _ => false

def findReadiness (readiness : List TaskReadiness) (taskId : PlanTaskId) :
    Option TaskReadiness :=
  KeyedList.lookup TaskReadiness.taskId taskId readiness

/-- The dependencies that are not completed, and whether one of them never will be. -/
def dependencyBlockers (readiness : List TaskReadiness) :
    List PlanTaskId → Analysis (List PlanTaskId × Bool)
  | [] => .ok ([], false)
  | dependencyId :: rest =>
    match findReadiness readiness dependencyId with
    | none => .error (invalidProjection "task dependency is absent from the projection")
    | some dependency => do
      let (blockers, permanentlyBlocked) ← dependencyBlockers readiness rest
      if dependency.state = .completed then return (blockers, permanentlyBlocked)
      else return (dependencyId :: blockers, permanentlyBlocked ||
        dependency.state = .failed || dependency.state = .blockedByDependency)

def reassess (readiness : List TaskReadiness) (task : PlanTask) (current : TaskReadiness) :
    Analysis TaskReadiness :=
  if current.state.settled then .ok current
  else do
    let (blockers, permanentlyBlocked) ← dependencyBlockers readiness task.dependencyTaskIds
    return { current with
      blockers
      state := if blockers = [] then .ready
        else if permanentlyBlocked then .blockedByDependency
        else .waitingForDependencies }

/-- One task of a pass, in place; the flag tells whether a state has changed. -/
def reassessAt (tasks : List PlanTask) (acc : List TaskReadiness × Bool) (index : ℕ) :
    Analysis (List TaskReadiness × Bool) :=
  match tasks[index]?, acc.1[index]? with
  | some task, some current => do
    let next ← reassess acc.1 task current
    return (acc.1.set index next, acc.2 || decide (next.state ≠ current.state))
  | _, _ => .ok acc

def pass (tasks : List PlanTask) (readiness : List TaskReadiness) :
    Analysis (List TaskReadiness × Bool) :=
  (List.range tasks.length).foldlM (reassessAt tasks) (readiness, false)

/-- At most so many passes; one that changes no state is the last. -/
def passes (tasks : List PlanTask) : ℕ → List TaskReadiness → Analysis (List TaskReadiness)
  | 0, readiness => .ok readiness
  | n + 1, readiness => do
    let (next, changed) ← pass tasks readiness
    if changed then passes tasks n next else return next

structure Selection where
  readiness : List TaskReadiness
  selected : List PlanTask := []

def select (running : List PlanTask) (available : ℕ) (acc : Selection) (task : PlanTask) :
    Selection :=
  let conflicting := (running ++ acc.selected).filter fun active =>
    taskResourceConflict task active
  let blockers := (findReadiness acc.readiness task.taskId).elim [] TaskReadiness.blockers ++
    conflicting.map PlanTask.taskId
  let write (state : TaskReadinessState) : List TaskReadiness :=
    KeyedList.updateFirst TaskReadiness.taskId task.taskId
      (fun r => { r with state, blockers }) acc.readiness
  if blockers ≠ [] then { acc with readiness := write .blockedByResource }
  else if available ≤ acc.selected.length then { acc with readiness := write .waitingForCapacity }
  else { acc with selected := acc.selected ++ [task] }

/-- The tasks whose readiness, at the same place, has the given state. -/
def tasksInState (tasks : List PlanTask) (readiness : List TaskReadiness)
    (state : TaskReadinessState) : List PlanTask :=
  ((tasks.zip readiness).filter fun pair => pair.2.state = state).map Prod.fst

def checkedAdd (bits total value : ℕ) : Option ℕ :=
  if 2 ^ bits - 1 - total < value then none else some (total + value)

def appendUnique {α : Type} [DecidableEq α] (destination source : List α) : List α :=
  source.foldl (fun values value => if value ∈ values then values else values ++ [value])
    destination

def addConsumption (total value : ChildRunConsumption) : Option ChildRunConsumption := do
  let inferenceCount ← checkedAdd 32 total.inferenceCount value.inferenceCount
  let toolInvocationCount ← checkedAdd 32 total.toolInvocationCount value.toolInvocationCount
  let inputTokens ← checkedAdd 64 total.usage.inputTokens value.usage.inputTokens
  let outputTokens ← checkedAdd 64 total.usage.outputTokens value.usage.outputTokens
  let cachedInputTokens ← checkedAdd 64 total.usage.cachedInputTokens value.usage.cachedInputTokens
  let reasoningTokens ← checkedAdd 64 total.usage.reasoningTokens value.usage.reasoningTokens
  return ⟨inferenceCount, toolInvocationCount,
    ⟨inputTokens, outputTokens, cachedInputTokens, reasoningTokens⟩⟩

def rollupAttempt (rollup : TaskScheduleRollup) (attempt : Attempt) :
    Analysis TaskScheduleRollup :=
  match attempt.result with
  | none => .ok rollup
  | some result =>
    match addConsumption rollup.consumption result.consumption with
    | none => .error ⟨.resourceExhausted, "task schedule rollup exceeds its bounds"⟩
    | some consumption => .ok { rollup with
        consumption
        evidenceIds := appendUnique rollup.evidenceIds result.evidenceIds
        artifactIds := appendUnique rollup.artifactIds result.artifactIds }

def rollupExecution (policy : TaskSchedulingPolicy) (rollup : TaskScheduleRollup)
    (execution : TaskExecution) : Analysis TaskScheduleRollup :=
  let counted :=
    match execution.attempts.getLast?.bind Attempt.result with
    | none => rollup
    | some result =>
      if result.outcome = .completed then
        { rollup with completedTasks := rollup.completedTasks + 1 }
      else if !retryable execution policy then
        { rollup with failedTasks := rollup.failedTasks + 1 }
      else rollup
  execution.attempts.foldlM rollupAttempt counted

/-- A task that is not done and may still come to be done. -/
def TaskReadinessState.pending : TaskReadinessState → Bool
  | .ready | .running | .waitingForDependencies | .waitingForCapacity | .blockedByResource => true
  | _ => false

def rollupState (taskCount : ℕ) (readiness : List TaskReadiness) (rollup : TaskScheduleRollup) :
    TaskRollupState :=
  if rollup.completedTasks = taskCount then .completed
  else if rollup.failedTasks ≠ 0 ∧ (readiness.any fun r => r.state.pending) = false then .failed
  else .inProgress

def analyzeTaskSchedule (revision : ProjectedPlanRevision) (policy : TaskSchedulingPolicy := {}) :
    Analysis TaskScheduleAnalysis :=
  let tasks := revision.revision.tasks
  if ¬ policy.inBounds then
    .error ⟨.invalidPolicy, "task scheduling policy is outside its bounds"⟩
  else if tasks.length ≠ revision.taskExecutions.length then
    .error (invalidProjection "task scheduling projection is incomplete")
  else do
    let _ ← checkExecutions revision.revision revision.taskExecutions [] []
    let initial ← tasks.mapM (initialReadiness revision policy)
    let running := tasksInState tasks initial .running
    let readiness ← passes tasks initial.length initial
    let eligible := tasksInState tasks readiness .ready
    let available := policy.maximumConcurrency - running.length
    let selection := eligible.foldl (select running available) { readiness }
    let rollup ← revision.taskExecutions.foldlM (rollupExecution policy) {}
    let rollup := { rollup with
      blockedTasks := selection.readiness.countP fun r : TaskReadiness =>
        r.state = TaskReadinessState.blockedByDependency }
    return ⟨selection.readiness, selection.selected.map PlanTask.taskId,
      { rollup with state := rollupState tasks.length selection.readiness rollup }⟩

end TaskScheduler
