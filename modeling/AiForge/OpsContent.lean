import AiForge.OpsEvidence

/-! # Text of an observation

The content of an observation's result: one line for every field, in the order of the fields,
each under the path of its names. -/
namespace OpsContent

open Content OpsEvidence OpsTarget SafeText

def maximumOpsObservationContentBytes : ℕ := 256 * 1024

/-- The lines that a value adds to the text, given the path that leads to it. -/
abbrev Write (α : Type) := String → α → List Bytes

def scalar (key : String) (value : Bytes) : Bytes :=
  bytesOf key ++ bytesOf "=" ++ value ++ bytesOf "\n"

def quoted (value : Bytes) : Bytes :=
  bytesOf "\"" ++
    (value.flatMap fun c => if c == 92 || c == 34 then [92, c] else [c]) ++ bytesOf "\""

def writeWord : Write String := fun key value => [scalar key (bytesOf value)]

def writeText : Write Bytes := fun key value => [scalar key (quoted value)]

def writeId : Write String := fun key value => [scalar key (quoted (bytesOf value))]

def writeInt : Write ℤ := fun key value => [scalar key (bytesOf (toString value))]

def writeNat : Write ℕ := fun key value => [scalar key (bytesOf (toString value))]

def writeOption {α : Type} (write : Write α) : Write (Option α) := fun key value =>
  match value with
  | some value => write key value
  | none => writeWord key "unknown"

def writeList {α : Type} (write : Write α) : Write (List α) := fun key values =>
  writeNat (key ++ ".count") values.length ++
    values.zipIdx.flatMap fun (value, i) => write (key ++ "[" ++ toString i ++ "]") value

def writeLinuxOpsIdentity : Write LinuxOpsIdentity := fun key value =>
  writeWord (key ++ ".scope") (scopeName value.scope) ++
    writeText (key ++ ".boot_id") value.bootId ++
    writeNat (key ++ ".pid_namespace") value.pidNamespace ++
    writeNat (key ++ ".mount_namespace") value.mountNamespace

def writeOpsHttpsEndpoint : Write OpsHttpsEndpoint := fun key value =>
  writeText (key ++ ".host") value.host ++ writeNat (key ++ ".port") value.port

def writeKubernetesOpsIdentity : Write KubernetesOpsIdentity := fun key value =>
  writeText (key ++ ".context_name") value.contextName ++
    writeText (key ++ ".namespace_name") value.namespaceName ++
    writeOpsHttpsEndpoint (key ++ ".endpoint") value.endpoint ++
    writeText (key ++ ".trust_identity") value.trustIdentity

def writeOpsTargetIdentity : Write OpsTargetIdentity := fun key value =>
  match value with
  | .linux identity =>
    writeWord (key ++ ".kind") "linux_local" ++ writeLinuxOpsIdentity (key ++ ".value") identity
  | .kubernetes identity =>
    writeWord (key ++ ".kind") "kubernetes" ++
      writeKubernetesOpsIdentity (key ++ ".value") identity
  | .ceph identity =>
    writeWord (key ++ ".kind") "ceph" ++
      writeText (key ++ ".value" ++ ".cluster_identity") identity.clusterIdentity

def writeOpsTargetBinding : Write OpsTargetBinding := fun key value =>
  writeId (key ++ ".target_id") value.targetId ++
    writeId (key ++ ".configuration_revision") value.configurationRevision ++
    writeOpsTargetIdentity (key ++ ".identity") value.identity

def writeLinuxServiceIdentity : Write LinuxServiceIdentity := fun key value =>
  writeText (key ++ ".unit_name") value.unitName ++
    writeOption writeId (key ++ ".invocation_id") value.invocationId

def writeKubernetesContainerIdentity : Write KubernetesContainerIdentity := fun key value =>
  writeText (key ++ ".name") value.name ++
    writeText (key ++ ".runtime_identity") value.runtimeIdentity

def writeKubernetesPodIdentity : Write KubernetesPodIdentity := fun key value =>
  writeText (key ++ ".namespace_name") value.namespaceName ++
    writeText (key ++ ".name") value.name ++ writeId (key ++ ".uid") value.uid ++
    writeOption writeKubernetesContainerIdentity (key ++ ".container") value.container

def writeOpsResourceIdentity : Write OpsResourceIdentity := fun key value =>
  match value with
  | .none => writeWord (key ++ ".kind") "none" ++ writeWord (key ++ ".value") "none"
  | .linuxService identity =>
    writeWord (key ++ ".kind") "linux_service" ++
      writeLinuxServiceIdentity (key ++ ".value") identity
  | .kubernetesPod identity =>
    writeWord (key ++ ".kind") "kubernetes_pod" ++
      writeKubernetesPodIdentity (key ++ ".value") identity

def writeOpsObservationLimits : Write OpsObservationLimits := fun key value =>
  writeNat (key ++ ".maximum_entries") value.maximumEntries ++
    writeNat (key ++ ".maximum_bytes") value.maximumBytes ++
    writeInt (key ++ ".timeout_ms") value.timeout ++
    writeNat (key ++ ".maximum_log_lines") value.maximumLogLines ++
    writeNat (key ++ ".maximum_log_bytes") value.maximumLogBytes ++
    writeInt (key ++ ".maximum_log_age_seconds") value.maximumLogAge

def writeOpsObservationRequest : Write OpsObservationRequest := fun key value =>
  writeId (key ++ ".owner_id") value.ownerId ++ writeId (key ++ ".session_id") value.sessionId ++
    writeId (key ++ ".request_id") value.requestId ++
    writeOpsTargetBinding (key ++ ".target") value.target ++
    writeNat (key ++ ".selection_generation") value.selectionGeneration ++
    writeWord (key ++ ".operation") (operationName value.operation) ++
    writeOpsResourceIdentity (key ++ ".resource") value.resource ++
    writeNat (key ++ ".log_policy_revision") value.logPolicyRevision ++
    writeOpsObservationLimits (key ++ ".limits") value.limits

def writeLinuxMemoryObservation : Write LinuxMemoryObservation := fun key value =>
  writeWord (key ++ ".scope") value.scope.name ++
    writeNat (key ++ ".total_bytes") value.totalBytes ++
    writeNat (key ++ ".available_bytes") value.availableBytes

def writeLinuxHealthObservation : Write LinuxHealthObservation := fun key value =>
  writeWord (key ++ ".health") value.health.name ++
    writeOption writeNat (key ++ ".kernel_uptime_seconds") value.kernelUptimeSeconds ++
    writeOption writeLinuxMemoryObservation (key ++ ".memory") value.memory ++
    writeOption writeNat (key ++ ".active_services") value.activeServices ++
    writeOption writeNat (key ++ ".failed_services") value.failedServices

def writeLinuxServiceObservation : Write LinuxServiceObservation := fun key value =>
  writeLinuxServiceIdentity (key ++ ".identity") value.identity ++
    writeWord (key ++ ".state") value.state.name ++
    writeWord (key ++ ".reason") value.reason.name ++
    writeOption writeInt (key ++ ".exit_status") value.exitStatus ++
    writeOption writeNat (key ++ ".restart_count") value.restartCount

def writeKubernetesObservedResource : Write KubernetesObservedResource := fun key value =>
  writeWord (key ++ ".kind") value.kind.name ++
    writeText (key ++ ".namespace_name") value.namespaceName ++
    writeText (key ++ ".name") value.name ++ writeId (key ++ ".uid") value.uid

def writeKubernetesWorkloadObservation : Write KubernetesWorkloadObservation := fun key value =>
  writeKubernetesObservedResource (key ++ ".identity") value.identity ++
    writeWord (key ++ ".health") value.health.name ++
    writeOption writeNat (key ++ ".desired_count") value.desiredCount ++
    writeOption writeNat (key ++ ".ready_count") value.readyCount ++
    writeOption writeNat (key ++ ".observed_count") value.observedCount

def writeKubernetesContainerObservation : Write KubernetesContainerObservation :=
  fun key value =>
    writeText (key ++ ".name") value.name ++
      writeOption writeText (key ++ ".runtime_identity") value.runtimeIdentity ++
      writeWord (key ++ ".state") value.state.name ++
      writeWord (key ++ ".readiness") value.readiness.name ++
      writeWord (key ++ ".reason") value.reason.name ++
      writeOption writeNat (key ++ ".restart_count") value.restartCount ++
      writeOption writeInt (key ++ ".exit_status") value.exitStatus

def writeKubernetesPodObservation : Write KubernetesPodObservation := fun key value =>
  writeKubernetesPodIdentity (key ++ ".identity") value.identity ++
    writeWord (key ++ ".phase") value.phase.name ++
    writeList writeKubernetesContainerObservation (key ++ ".containers") value.containers

def writeKubernetesEventObservation : Write KubernetesEventObservation := fun key value =>
  writeId (key ++ ".event_uid") value.eventUid ++
    writeKubernetesObservedResource (key ++ ".regarding") value.regarding ++
    writeWord (key ++ ".severity") value.severity.name ++
    writeWord (key ++ ".reason") value.reason.name ++
    writeOption writeInt (key ++ ".first_observed_at_ms") value.firstObservedAt ++
    writeOption writeInt (key ++ ".last_observed_at_ms") value.lastObservedAt ++
    writeNat (key ++ ".occurrences") value.occurrences

def writeOpsLogLine : Write OpsLogLine := fun key value =>
  writeInt (key ++ ".timestamp_ms") value.timestamp ++ writeText (key ++ ".text") value.text

def writeOpsLogObservation : Write OpsLogObservation := fun key value =>
  writeOpsResourceIdentity (key ++ ".source") value.source ++
    writeList writeOpsLogLine (key ++ ".lines") value.lines

def writeOpsObservationPayload : Write OpsObservationPayload := fun key value =>
  match value with
  | .linuxHealth value =>
    writeWord (key ++ ".kind") "linux_health" ++
      writeLinuxHealthObservation (key ++ ".value") value
  | .linuxServices value =>
    writeWord (key ++ ".kind") "linux_services" ++
      writeList writeLinuxServiceObservation (key ++ ".value" ++ ".services") value.services
  | .linuxService value =>
    writeWord (key ++ ".kind") "linux_service" ++
      writeLinuxServiceObservation (key ++ ".value") value
  | .kubernetesWorkloads value =>
    writeWord (key ++ ".kind") "kubernetes_workloads" ++
      writeList writeKubernetesWorkloadObservation (key ++ ".value" ++ ".workloads")
        value.workloads
  | .kubernetesPod value =>
    writeWord (key ++ ".kind") "kubernetes_pod" ++
      writeKubernetesPodObservation (key ++ ".value") value
  | .kubernetesEvents value =>
    writeWord (key ++ ".kind") "kubernetes_events" ++
      writeList writeKubernetesEventObservation (key ++ ".value" ++ ".events") value.events
  | .log value =>
    writeWord (key ++ ".kind") "logs" ++ writeOpsLogObservation (key ++ ".value") value

def writeOpsObservation : Write OpsObservation := fun key value =>
  writeOpsObservationRequest (key ++ ".request") value.request ++
    writeInt (key ++ ".started_at_ms") value.startedAt ++
    writeInt (key ++ ".completed_at_ms") value.completedAt ++
    writeWord (key ++ ".completeness") value.completeness.name ++
    writeOption writeNat (key ++ ".omitted_entries") value.omittedEntries ++
    writeNat (key ++ ".unsupported_entries") value.unsupportedEntries ++
    writeOption writeText (key ++ ".source_version") value.sourceVersion ++
    writeOpsObservationPayload (key ++ ".payload") value.payload

def render (value : OpsObservation) : Bytes :=
  bytesOf "AIForge Ops observation v1\n" ++ (writeOpsObservation "observation" value).flatten

/-- Nothing when the observation is invalid or its text would exceed the limit. -/
def formatOpsObservationContent (observation : OpsObservation) : Option (List ContentBlock) :=
  if (validateRecordedOpsObservation observation).isOk then
    let text := render observation
    if text.length ≤ maximumOpsObservationContentBytes then some [.text text] else none
  else none

end OpsContent
