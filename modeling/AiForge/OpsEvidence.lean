import AiForge.Content
import AiForge.OpsTarget

/-! # Ops observations

An observation answers one captured request. Its validation is structural: it counts every row
and every byte of text against the budget of the evidence and looks at no live authority. -/
namespace OpsEvidence

open Content OpsTarget SafeText

inductive OpsObservationCompleteness where
  | complete | partialEntries | truncated
  deriving DecidableEq

inductive OpsHealthState where
  | unknown | healthy | degraded | unhealthy | unavailable
  deriving DecidableEq

inductive OpsServiceState where
  | unknown | active | inactive | activating | deactivating | failed
  deriving DecidableEq

inductive OpsPodPhase where
  | unknown | pending | running | succeeded | failed
  deriving DecidableEq

inductive OpsContainerState where
  | unknown | waiting | running | terminated
  deriving DecidableEq

inductive OpsReadiness where
  | unknown | notReady | ready
  deriving DecidableEq

inductive OpsEventSeverity where
  | unknown | normal | warning
  deriving DecidableEq

inductive OpsObservationReason where
  | unknown | none | notReady | crashLoop | imagePullFailed | outOfMemory | probeFailed
  | schedulingFailed | failedExit | completed | unavailable
  deriving DecidableEq

inductive OpsWorkloadKind where
  | pod | deployment | statefulSet | daemonSet | job | cronJob
  deriving DecidableEq

inductive OpsMemoryScope where
  | unknown | kernel | cgroup
  deriving DecidableEq

structure LinuxMemoryObservation where
  scope : OpsMemoryScope
  (totalBytes availableBytes : ℕ)
  deriving DecidableEq

structure LinuxHealthObservation where
  health : OpsHealthState
  kernelUptimeSeconds : Option ℕ
  memory : Option LinuxMemoryObservation
  (activeServices failedServices : Option ℕ)
  deriving DecidableEq

structure LinuxServiceObservation where
  identity : LinuxServiceIdentity
  state : OpsServiceState
  reason : OpsObservationReason
  exitStatus : Option ℤ
  restartCount : Option ℕ
  deriving DecidableEq

structure LinuxServicesObservation where
  services : List LinuxServiceObservation
  deriving DecidableEq

structure KubernetesObservedResource where
  kind : OpsWorkloadKind
  (namespaceName name : Bytes)
  uid : String
  deriving DecidableEq

/-- An absent count is unknown, never zero. -/
structure KubernetesWorkloadObservation where
  identity : KubernetesObservedResource
  health : OpsHealthState
  (desiredCount readyCount observedCount : Option ℕ)
  deriving DecidableEq

structure KubernetesWorkloadsObservation where
  workloads : List KubernetesWorkloadObservation
  deriving DecidableEq

structure KubernetesContainerObservation where
  name : Bytes
  runtimeIdentity : Option Bytes
  state : OpsContainerState
  readiness : OpsReadiness
  reason : OpsObservationReason
  restartCount : Option ℕ
  exitStatus : Option ℤ
  deriving DecidableEq

structure KubernetesPodObservation where
  identity : KubernetesPodIdentity
  phase : OpsPodPhase
  containers : List KubernetesContainerObservation
  deriving DecidableEq

structure KubernetesEventObservation where
  eventUid : String
  regarding : KubernetesObservedResource
  severity : OpsEventSeverity
  reason : OpsObservationReason
  (firstObservedAt lastObservedAt : Option EventTimestamp)
  occurrences : ℕ
  deriving DecidableEq

structure KubernetesEventsObservation where
  events : List KubernetesEventObservation
  deriving DecidableEq

structure OpsLogLine where
  timestamp : EventTimestamp
  text : Bytes
  deriving DecidableEq

/-- The lines keep the order of their source; their times need not increase. -/
structure OpsLogObservation where
  source : OpsResourceIdentity
  lines : List OpsLogLine
  deriving DecidableEq

inductive OpsObservationPayload where
  | linuxHealth (value : LinuxHealthObservation)
  | linuxServices (value : LinuxServicesObservation)
  | linuxService (value : LinuxServiceObservation)
  | kubernetesWorkloads (value : KubernetesWorkloadsObservation)
  | kubernetesPod (value : KubernetesPodObservation)
  | kubernetesEvents (value : KubernetesEventsObservation)
  | log (value : OpsLogObservation)
  deriving DecidableEq

structure OpsObservation where
  request : OpsObservationRequest
  (startedAt completedAt : EventTimestamp)
  completeness : OpsObservationCompleteness
  omittedEntries : Option ℕ
  unsupportedEntries : ℕ
  sourceVersion : Option Bytes
  payload : OpsObservationPayload
  deriving DecidableEq

inductive OpsObservationErrorCode where
  | invalidRequest | requestMismatch | invalidPayload | sourceMismatch | invalidTimestamp
  | invalidCompleteness | resourceExhausted

structure OpsObservationError where
  code : OpsObservationErrorCode
  message : String

structure OpsObservationUsage where
  (evidenceBytes entries : ℕ := 0)

def opsObservationMaximumEvidenceBytes : ℕ := 64 * 1024

def maximumCounter : ℕ := 2 ^ 63 - 1

/-- Text as observations bound it; unlike the text of a target it may be empty where the caller
says so. -/
def observedText (value : Bytes) (maximum : ℕ) (empty : Bool := false) : Bool :=
  (empty || !value.isEmpty) && value.length ≤ maximum &&
    (value.isEmpty || isSafeUtf8Text value) && value.all fun c => 32 ≤ c && c != 127

def timestamp (value : EventTimestamp) : Bool := 0 ≤ value

def count (value : Option ℕ) : Bool := value.all (· ≤ 2 ^ 31 - 1)

def number (value : Option ℕ) : Bool := value.all (· ≤ maximumCounter)

def exitStatus (value : Option ℤ) : Bool := value.all fun status => 0 ≤ status && status ≤ 255

def OpsObservationPayload.index : OpsObservationPayload → ℕ
  | .linuxHealth _ => 0
  | .linuxServices _ => 1
  | .linuxService _ => 2
  | .kubernetesWorkloads _ => 3
  | .kubernetesPod _ => 4
  | .kubernetesEvents _ => 5
  | .log _ => 6

def payloadIndex : OpsObservationOperation → ℕ
  | .linuxHealth => 0
  | .linuxServices => 1
  | .linuxServiceHealth => 2
  | .kubernetesWorkloads => 3
  | .kubernetesPodHealth => 4
  | .kubernetesEvents => 5
  | .linuxServiceLogs => 6
  | .kubernetesPodLogs => 6

def envelope (request : OpsObservationRequest) (value : OpsObservation) :
    Except OpsObservationError Unit :=
  if value.request ≠ request then
    .error ⟨.requestMismatch, "Ops observation belongs to another captured request"⟩
  else if !timestamp value.startedAt || !timestamp value.completedAt ||
      value.completedAt < value.startedAt then
    .error ⟨.invalidTimestamp, "Ops observation receipt timestamps are invalid"⟩
  else if !number value.omittedEntries || maximumCounter < value.unsupportedEntries then
    .error ⟨.invalidCompleteness, "Ops completeness counters are invalid"⟩
  else if value.completeness = .complete ∧
      (value.omittedEntries ≠ some 0 ∨ value.unsupportedEntries ≠ 0) then
    .error ⟨.invalidCompleteness, "Complete Ops observations cannot hide omitted entries"⟩
  else if !value.sourceVersion.all (observedText · 128) then
    .error ⟨.invalidPayload, "Ops source version is invalid"⟩
  else if opsTargetKind request.target = .kubernetes ∧ logsOperation request.operation = false ∧
      value.sourceVersion = none then
    .error ⟨.invalidPayload, "Kubernetes structured observations require a source version"⟩
  else if value.payload.index ≠ payloadIndex request.operation then
    .error ⟨.invalidPayload, "Ops payload does not match its operation"⟩
  else .ok ()

def OpsObservationUsage.bytes (usage : OpsObservationUsage) (amount : ℕ) :
    Option OpsObservationUsage :=
  if opsObservationMaximumEvidenceBytes - usage.evidenceBytes < amount then none
  else some { usage with evidenceBytes := usage.evidenceBytes + amount }

def OpsObservationUsage.texts (usage : OpsObservationUsage) :
    List ℕ → Option OpsObservationUsage
  | [] => some usage
  | amount :: rest => do
    let usage ← usage.bytes amount
    usage.texts rest

def OpsObservationUsage.row (usage : OpsObservationUsage) (limits : OpsObservationLimits) :
    Option OpsObservationUsage :=
  if limits.maximumEntries ≤ usage.entries then none
  else do
    let usage ← usage.bytes 128
    return { usage with entries := usage.entries + 1 }

def optionSize (value : Option Bytes) : List ℕ := value.toList.map List.length

def serviceSizes (value : LinuxServiceIdentity) : List ℕ :=
  value.unitName.length :: optionSize (value.invocationId.map bytesOf)

def observedSizes (value : KubernetesObservedResource) : List ℕ :=
  [value.namespaceName.length, value.name.length, (bytesOf value.uid).length]

def podSizes (value : KubernetesPodIdentity) : List ℕ :=
  [value.namespaceName.length, value.name.length, (bytesOf value.uid).length] ++
    value.container.toList.flatMap fun container =>
      [container.name.length, container.runtimeIdentity.length]

def bounds : OpsObservationError :=
  ⟨.resourceExhausted, "Ops evidence exceeds aggregate entry or byte bounds"⟩

def malformed : OpsObservationError :=
  ⟨.invalidPayload, "Ops observation contains invalid status or numeric fields"⟩

def sourceError : OpsObservationError :=
  ⟨.sourceMismatch, "Ops observation source identity does not match its request"⟩

def charged (usage : Option OpsObservationUsage) : Except OpsObservationError OpsObservationUsage :=
  match usage with
  | some usage => .ok usage
  | none => .error bounds

section Validator

variable (request : OpsObservationRequest) (value : OpsObservation)

/-- `validate_ops_resource_identity` for the target of the request. -/
def resource (identity : OpsResourceIdentity) (logs : Bool := false) : Bool :=
  (validateTarget request.target).isOk && resourceMatches identity request.target logs

def observedResource (identity : KubernetesObservedResource) : Bool :=
  identity.namespaceName.length ≤ 63 && identity.name.length ≤ 253 &&
    resource request (.kubernetesPod ⟨identity.namespaceName, identity.name, identity.uid, none⟩)

def memoryMalformed (memory : LinuxMemoryObservation) : Bool :=
  (memory.scope != .kernel && memory.scope != .cgroup) || maximumCounter < memory.totalBytes ||
    memory.totalBytes < memory.availableBytes

def LinuxHealthObservation.factual (health : LinuxHealthObservation) : Bool :=
  health.kernelUptimeSeconds.isSome || health.memory.isSome || health.activeServices.isSome ||
    health.failedServices.isSome

def checkLinuxHealth (usage : OpsObservationUsage) (health : LinuxHealthObservation) :
    Except OpsObservationError OpsObservationUsage :=
  if !number health.kernelUptimeSeconds || !count health.activeServices ||
      !count health.failedServices then .error malformed
  else if health.memory.any memoryMalformed then .error malformed
  else if health.factual = false ∧
      (value.completeness = .complete ∨ health.health = .healthy) then .error malformed
  else if health.health = .healthy ∧ health.failedServices.getD 0 ≠ 0 then .error malformed
  else charged (usage.row request.limits)

def service (usage : OpsObservationUsage) (entry : LinuxServiceObservation) :
    Except OpsObservationError OpsObservationUsage :=
  if 255 < entry.identity.unitName.length || !resource request (.linuxService entry.identity) then
    .error sourceError
  else if !exitStatus entry.exitStatus || !count entry.restartCount then .error malformed
  else charged do
    let usage ← usage.row request.limits
    usage.texts (serviceSizes entry.identity)

def checkLinuxService (usage : OpsObservationUsage) (entry : LinuxServiceObservation) :
    Except OpsObservationError OpsObservationUsage :=
  match request.resource with
  | .linuxService expected =>
    if entry.identity.unitName ≠ expected.unitName ∨
        expected.invocationId.isSome ∧ entry.identity.invocationId ≠ expected.invocationId then
      .error sourceError
    else service request usage entry
  | _ => .error sourceError

def checkServices (usage : OpsObservationUsage) (names : List Bytes) :
    List LinuxServiceObservation → Except OpsObservationError OpsObservationUsage
  | [] => .ok usage
  | entry :: rest => do
    let usage ← service request usage entry
    if entry.identity.unitName ∈ names then .error sourceError
    else checkServices usage (entry.identity.unitName :: names) rest

def checkLinuxServices (usage : OpsObservationUsage) (services : LinuxServicesObservation) :
    Except OpsObservationError OpsObservationUsage :=
  if request.limits.maximumEntries < services.services.length then .error bounds
  else checkServices request usage [] services.services

def workload (usage : OpsObservationUsage) (entry : KubernetesWorkloadObservation) :
    Except OpsObservationError OpsObservationUsage :=
  if !observedResource request entry.identity then .error sourceError
  else if !count entry.desiredCount || !count entry.readyCount || !count entry.observedCount ||
      (match entry.readyCount, entry.observedCount with
        | some ready, some observed => decide (observed < ready)
        | _, _ => false) then .error malformed
  else charged do
    let usage ← usage.row request.limits
    usage.texts (observedSizes entry.identity)

def checkWorkloads (usage : OpsObservationUsage) (uids : List String)
    (names : List (OpsWorkloadKind × Bytes)) :
    List KubernetesWorkloadObservation → Except OpsObservationError OpsObservationUsage
  | [] => .ok usage
  | entry :: rest => do
    let usage ← workload request usage entry
    if entry.identity.uid ∈ uids ∨ (entry.identity.kind, entry.identity.name) ∈ names then
      .error sourceError
    else
      checkWorkloads usage (entry.identity.uid :: uids)
        ((entry.identity.kind, entry.identity.name) :: names) rest

def checkKubernetesWorkloads (usage : OpsObservationUsage)
    (workloads : KubernetesWorkloadsObservation) : Except OpsObservationError OpsObservationUsage :=
  if request.limits.maximumEntries < workloads.workloads.length then .error bounds
  else checkWorkloads request usage [] [] workloads.workloads

def container (usage : OpsObservationUsage) (entry : KubernetesContainerObservation) :
    Except OpsObservationError OpsObservationUsage :=
  if !label entry.name 63 || !entry.runtimeIdentity.all (observedText · 512) then
    .error sourceError
  else if !count entry.restartCount || !exitStatus entry.exitStatus ||
      (entry.readiness == .ready && entry.state != .running) then .error malformed
  else charged do
    let usage ← usage.row request.limits
    usage.texts (entry.name.length :: optionSize entry.runtimeIdentity)

def checkContainers (expected : KubernetesPodIdentity) (usage : OpsObservationUsage)
    (names runtimeIds : List Bytes) (requested : Bool) :
    List KubernetesContainerObservation → Except OpsObservationError OpsObservationUsage
  | [] => if requested then .ok usage else .error sourceError
  | entry :: rest => do
    let usage ← container request usage entry
    if entry.name ∈ names ∨ entry.runtimeIdentity.any (runtimeIds.contains ·) then
      .error sourceError
    else
      checkContainers expected usage (entry.name :: names)
        (entry.runtimeIdentity.toList ++ runtimeIds)
        (requested || expected.container.any fun identity =>
          entry.name == identity.name && entry.runtimeIdentity == some identity.runtimeIdentity)
        rest

def checkKubernetesPod (usage : OpsObservationUsage) (pod : KubernetesPodObservation) :
    Except OpsObservationError OpsObservationUsage :=
  match request.resource with
  | .kubernetesPod expected =>
    if pod.identity ≠ expected then .error sourceError
    else if request.limits.maximumEntries < pod.containers.length then .error bounds
    else do
      let usage ← charged do
        let usage ← usage.row request.limits
        usage.texts (podSizes pod.identity)
      checkContainers request expected usage [] [] expected.container.isNone pod.containers
  | _ => .error sourceError

def eventSource (entry : KubernetesEventObservation) : Bool :=
  observedResource request entry.regarding && observedText (bytesOf entry.eventUid) 128 &&
    match request.resource with
    | .kubernetesPod expected =>
      entry.regarding.kind == .pod && entry.regarding.namespaceName == expected.namespaceName &&
        entry.regarding.name == expected.name && entry.regarding.uid == expected.uid
    | _ => true

def event (usage : OpsObservationUsage) (entry : KubernetesEventObservation) :
    Except OpsObservationError OpsObservationUsage :=
  if !eventSource request entry then .error sourceError
  else if entry.occurrences = 0 ∨ maximumCounter < entry.occurrences then .error malformed
  else if !entry.firstObservedAt.all timestamp || !entry.lastObservedAt.all timestamp ||
      (match entry.firstObservedAt, entry.lastObservedAt with
        | some first, some last => decide (last < first)
        | _, _ => false) then
    .error ⟨.invalidTimestamp, "Ops source event timestamps are invalid"⟩
  else charged do
    let usage ← usage.row request.limits
    usage.texts (observedSizes entry.regarding ++ [(bytesOf entry.eventUid).length])

def checkEvents (usage : OpsObservationUsage) (uids : List String) :
    List KubernetesEventObservation → Except OpsObservationError OpsObservationUsage
  | [] => .ok usage
  | entry :: rest => do
    let usage ← event request usage entry
    if entry.eventUid ∈ uids then .error sourceError
    else checkEvents usage (entry.eventUid :: uids) rest

def checkKubernetesEvents (usage : OpsObservationUsage) (events : KubernetesEventsObservation) :
    Except OpsObservationError OpsObservationUsage :=
  if request.limits.maximumEntries < events.events.length then .error bounds
  else checkEvents request usage [] events.events

/-- Milliseconds of the requested window. -/
def logAge : ℤ := request.limits.maximumLogAge * 1000

def logLine (usage : OpsObservationUsage) (logBytes : ℕ) (entry : OpsLogLine) :
    Except OpsObservationError OpsObservationUsage :=
  if !timestamp entry.timestamp || value.completedAt < entry.timestamp ||
      logAge request < value.completedAt - entry.timestamp then
    .error ⟨.invalidTimestamp,
      "Ops log timestamp is outside the requested window or source clock is skewed"⟩
  else if request.limits.maximumLogBytes - logBytes < entry.text.length then .error bounds
  else if !observedText entry.text request.limits.maximumLogBytes true then .error malformed
  else charged do
    let usage ← usage.row request.limits
    usage.bytes entry.text.length

def checkLines (usage : OpsObservationUsage) (logBytes : ℕ) :
    List OpsLogLine → Except OpsObservationError OpsObservationUsage
  | [] => .ok usage
  | entry :: rest => do
    let usage ← logLine request value usage logBytes entry
    checkLines usage (logBytes + entry.text.length) rest

def sourceSizes : OpsResourceIdentity → Option (List ℕ)
  | .none => none
  | .linuxService identity => some (serviceSizes identity)
  | .kubernetesPod identity => some (podSizes identity)

def checkLog (usage : OpsObservationUsage) (log : OpsLogObservation) :
    Except OpsObservationError OpsObservationUsage :=
  if log.source ≠ request.resource ∨ resource request log.source true = false then
    .error sourceError
  else if request.limits.maximumLogLines < log.lines.length ∨
      request.limits.maximumEntries < log.lines.length then .error bounds
  else do
    let usage ← charged do
      let sizes ← sourceSizes log.source
      let usage ← usage.texts sizes
      usage.bytes 128
    checkLines request value usage 0 log.lines

def check (usage : OpsObservationUsage) :
    OpsObservationPayload → Except OpsObservationError OpsObservationUsage
  | .linuxHealth health => checkLinuxHealth request value usage health
  | .linuxServices services => checkLinuxServices request usage services
  | .linuxService entry => checkLinuxService request usage entry
  | .kubernetesWorkloads workloads => checkKubernetesWorkloads request usage workloads
  | .kubernetesPod pod => checkKubernetesPod request usage pod
  | .kubernetesEvents events => checkKubernetesEvents request usage events
  | .log log => checkLog request value usage log

/-- The first 4096 bytes stand for the request and the fields around the payload. -/
def runValidator : Except OpsObservationError OpsObservationUsage :=
  match OpsObservationUsage.bytes {} 4096 with
  | none => .error ⟨.resourceExhausted, "Ops evidence exceeds its neutral byte budget"⟩
  | some usage => check request value usage value.payload

end Validator

def validateRecordedOpsObservation (observation : OpsObservation) :
    Except OpsObservationError OpsObservationUsage :=
  if (validateRecordedOpsRequest observation.request).isOk then do
    envelope observation.request observation
    runValidator observation.request observation
  else .error ⟨.invalidRequest, "Recorded Ops request is invalid"⟩

/-! ## Names

The words under which the values are written out, in the text of a result and in documents. -/

def scopeName : LinuxExecutionScope → String
  | .host => "host"
  | .container => "container"
  | .unknown => "unknown"

def operationName : OpsObservationOperation → String
  | .linuxHealth => "linux_health"
  | .linuxServices => "linux_services"
  | .linuxServiceHealth => "linux_service_health"
  | .linuxServiceLogs => "linux_service_logs"
  | .kubernetesWorkloads => "kubernetes_workloads"
  | .kubernetesPodHealth => "kubernetes_pod_health"
  | .kubernetesEvents => "kubernetes_events"
  | .kubernetesPodLogs => "kubernetes_pod_logs"

def OpsObservationCompleteness.name : OpsObservationCompleteness → String
  | .complete => "complete"
  | .partialEntries => "partial"
  | .truncated => "truncated"

def OpsHealthState.name : OpsHealthState → String
  | .unknown => "unknown"
  | .healthy => "healthy"
  | .degraded => "degraded"
  | .unhealthy => "unhealthy"
  | .unavailable => "unavailable"

def OpsServiceState.name : OpsServiceState → String
  | .unknown => "unknown"
  | .active => "active"
  | .inactive => "inactive"
  | .activating => "activating"
  | .deactivating => "deactivating"
  | .failed => "failed"

def OpsPodPhase.name : OpsPodPhase → String
  | .unknown => "unknown"
  | .pending => "pending"
  | .running => "running"
  | .succeeded => "succeeded"
  | .failed => "failed"

def OpsContainerState.name : OpsContainerState → String
  | .unknown => "unknown"
  | .waiting => "waiting"
  | .running => "running"
  | .terminated => "terminated"

def OpsReadiness.name : OpsReadiness → String
  | .unknown => "unknown"
  | .notReady => "not_ready"
  | .ready => "ready"

def OpsEventSeverity.name : OpsEventSeverity → String
  | .unknown => "unknown"
  | .normal => "normal"
  | .warning => "warning"

def OpsObservationReason.name : OpsObservationReason → String
  | .unknown => "unknown"
  | .none => "none"
  | .notReady => "not_ready"
  | .crashLoop => "crash_loop"
  | .imagePullFailed => "image_pull_failed"
  | .outOfMemory => "out_of_memory"
  | .probeFailed => "probe_failed"
  | .schedulingFailed => "scheduling_failed"
  | .failedExit => "failed_exit"
  | .completed => "completed"
  | .unavailable => "unavailable"

def OpsWorkloadKind.name : OpsWorkloadKind → String
  | .pod => "pod"
  | .deployment => "deployment"
  | .statefulSet => "stateful_set"
  | .daemonSet => "daemon_set"
  | .job => "job"
  | .cronJob => "cron_job"

def OpsMemoryScope.name : OpsMemoryScope → String
  | .unknown => "unknown"
  | .kernel => "kernel"
  | .cgroup => "cgroup"

end OpsEvidence
