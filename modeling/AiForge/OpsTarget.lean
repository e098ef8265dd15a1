import AiForge.SafeText

/-! # Ops observation requests

A recorded observation request names its target, its resource and its limits. The checks are
structural: they accept a request as historical data and never grant authority. -/
namespace OpsTarget

open SafeText

inductive OpsTargetKind where
  | linuxLocal | kubernetes | ceph
  deriving DecidableEq

inductive LinuxExecutionScope where
  | host | container | unknown
  deriving DecidableEq

structure LinuxOpsIdentity where
  scope : LinuxExecutionScope
  bootId : Bytes
  (pidNamespace mountNamespace : ℕ)
  deriving DecidableEq

structure OpsHttpsEndpoint where
  host : Bytes
  port : ℕ
  deriving DecidableEq

structure KubernetesOpsIdentity where
  (contextName namespaceName : Bytes)
  endpoint : OpsHttpsEndpoint
  trustIdentity : Bytes
  deriving DecidableEq

structure CephOpsIdentity where
  clusterIdentity : Bytes
  deriving DecidableEq

inductive OpsTargetIdentity where
  | linux (identity : LinuxOpsIdentity)
  | kubernetes (identity : KubernetesOpsIdentity)
  | ceph (identity : CephOpsIdentity)
  deriving DecidableEq

structure OpsTargetBinding where
  (targetId configurationRevision : String)
  identity : OpsTargetIdentity
  deriving DecidableEq

inductive OpsObservationOperation where
  | linuxHealth | linuxServices | linuxServiceHealth | linuxServiceLogs | kubernetesWorkloads
  | kubernetesPodHealth | kubernetesEvents | kubernetesPodLogs
  deriving DecidableEq

structure LinuxServiceIdentity where
  unitName : Bytes
  invocationId : Option String
  deriving DecidableEq

structure KubernetesContainerIdentity where
  (name runtimeIdentity : Bytes)
  deriving DecidableEq

structure KubernetesPodIdentity where
  (namespaceName name : Bytes)
  uid : String
  container : Option KubernetesContainerIdentity
  deriving DecidableEq

inductive OpsResourceIdentity where
  | none
  | linuxService (identity : LinuxServiceIdentity)
  | kubernetesPod (identity : KubernetesPodIdentity)
  deriving DecidableEq

/-- The defaults are the hard bounds of the contract; a request may only narrow them. -/
structure OpsObservationLimits where
  maximumEntries : ℕ := 256
  maximumBytes : ℕ := 1024 * 1024
  timeout : ℤ := 5000
  maximumLogLines : ℕ := 200
  maximumLogBytes : ℕ := 32 * 1024
  maximumLogAge : ℤ := 600
  deriving DecidableEq

structure OpsObservationRequest where
  (ownerId sessionId requestId : String)
  target : OpsTargetBinding
  selectionGeneration : ℕ
  operation : OpsObservationOperation
  resource : OpsResourceIdentity
  logPolicyRevision : ℕ
  limits : OpsObservationLimits
  deriving DecidableEq

inductive OpsTargetErrorCode where
  | invalidTarget | invalidAuthority | invalidRequest | unavailable | foreignOwner | foreignSession
  | targetMismatch | staleSelection | staleLogPolicy | operationDenied | logsDisabled
  | resourceMismatch | resourceExhausted
  deriving DecidableEq

structure OpsTargetError where
  code : OpsTargetErrorCode
  message : String
  deriving DecidableEq

def text (value : Bytes) (maximum : ℕ) : Bool :=
  !value.isEmpty && value.length ≤ maximum && isSafeUtf8Text value &&
    value.all fun c => 32 ≤ c && c != 127

def identifier (value : String) : Bool := text (bytesOf value) 128

def sequence (value : ℕ) : Bool := value ≠ 0 && value ≤ 2 ^ 63 - 1

def between (low high : Char) (c : UInt8) : Bool := low.toUInt8 ≤ c && c ≤ high.toUInt8

def lowerAlnum (c : UInt8) : Bool := between 'a' 'z' c || between '0' '9' c

def hex (c : UInt8) : Bool := between '0' '9' c || between 'a' 'f' c

def label (value : Bytes) (maximum : ℕ) : Bool :=
  !value.isEmpty && value.length ≤ maximum && value.head?.all lowerAlnum &&
    value.getLast?.all lowerAlnum && value.all fun c => lowerAlnum c || c == '-'.toUInt8

def dns (value : Bytes) : Bool :=
  !value.isEmpty && value.length ≤ 253 && (value.splitOn '.'.toUInt8).all (label · 63)

def decimalByte (component : Bytes) : Bool :=
  !component.isEmpty && component.length ≤ 3 &&
    !(1 < component.length && component.head? == some '0'.toUInt8) &&
    component.all (between '0' '9') &&
    component.foldl (fun number c => number * 10 + (c.toNat - '0'.toNat)) 0 ≤ 255

def ipv4 (value : Bytes) : Bool :=
  let components := value.splitOn '.'.toUInt8
  components.length == 4 && components.all decimalByte

/-- Counts groups of hexadecimal digits; a dotted quad may close the list and counts twice. -/
def ipv6Components (allowIpv4 : Bool) : List Bytes → ℕ → Option ℕ
  | [], count => some count
  | component :: rest, count =>
    if component.contains '.'.toUInt8 then
      if allowIpv4 && rest.isEmpty && ipv4 component then some (count + 2) else none
    else if component.isEmpty || 4 < component.length || !component.all hex then none
    else if 8 < count + 1 then none
    else ipv6Components allowIpv4 rest (count + 1)

def ipv6Groups (value : Bytes) (allowIpv4 : Bool) : Option ℕ :=
  if value.isEmpty then some 0 else ipv6Components allowIpv4 (value.splitOn ':'.toUInt8) 0

/-- What stands before and after the first pair of colons. -/
def splitCompression : Bytes → Option (Bytes × Bytes)
  | a :: b :: rest =>
    if a == ':'.toUInt8 && b == ':'.toUInt8 then some ([], rest)
    else (splitCompression (b :: rest)).map fun (before, after) => (a :: before, after)
  | _ => none

def host (value : Bytes) : Bool :=
  if value.isEmpty || 253 < value.length then false
  else if !value.contains ':'.toUInt8 then
    if value.all (fun c => between '0' '9' c || c == '.'.toUInt8) then ipv4 value else dns value
  else
    match splitCompression value with
    | none => ipv6Groups value true == some 8
    | some (before, after) =>
      if (splitCompression after).isSome then false
      else
        match ipv6Groups before false, ipv6Groups after true with
        | some first, some second => first + second < 8
        | _, _ => false

def uuid (value : Bytes) : Bool :=
  value.length == 36 && value.zipIdx.all fun (c, i) =>
    if i == 8 || i == 13 || i == 18 || i == 23 then c == '-'.toUInt8 else hex c

def linuxIdentity (value : LinuxOpsIdentity) : Bool :=
  uuid value.bootId && value.pidNamespace != 0 && value.mountNamespace != 0

def kubernetesIdentity (value : KubernetesOpsIdentity) : Bool :=
  text value.contextName 256 && label value.namespaceName 63 && host value.endpoint.host &&
    value.endpoint.port != 0 && text value.trustIdentity 256

def validIdentity : OpsTargetIdentity → Bool
  | .linux identity => linuxIdentity identity
  | .kubernetes identity => kubernetesIdentity identity
  | .ceph identity => text identity.clusterIdentity 128

def validateTarget (value : OpsTargetBinding) : Except OpsTargetError Unit :=
  if !identifier value.targetId || !identifier value.configurationRevision then
    .error ⟨.invalidTarget, "Ops target identity is invalid"⟩
  else if validIdentity value.identity then .ok ()
  else .error ⟨.invalidTarget, "Ops target binding is malformed or unsupported"⟩

def opsTargetKind (target : OpsTargetBinding) : OpsTargetKind :=
  match target.identity with
  | .linux _ => .linuxLocal
  | .kubernetes _ => .kubernetes
  | .ceph _ => .ceph

def logsOperation (operation : OpsObservationOperation) : Bool :=
  operation == .linuxServiceLogs || operation == .kubernetesPodLogs

def localOperation : OpsObservationOperation → Bool
  | .linuxHealth | .linuxServices | .linuxServiceHealth | .linuxServiceLogs => true
  | _ => false

def matchesKind (operation : OpsObservationOperation) (kind : OpsTargetKind) : Bool :=
  kind != .ceph && (kind == .linuxLocal) == localOperation operation

def serviceName (value : Bytes) : Bool :=
  8 < value.length && value.length ≤ 255 && (bytesOf ".service").isSuffixOf value &&
    value.head? != some '-'.toUInt8 &&
    value.all fun c =>
      lowerAlnum c || between 'A' 'Z' c || c == '_'.toUInt8 || c == '-'.toUInt8 ||
        c == '.'.toUInt8 || c == '@'.toUInt8 || c == ':'.toUInt8

def serviceResource (value : LinuxServiceIdentity) (logs : Bool) : Bool :=
  serviceName value.unitName && (!logs || value.invocationId.isSome) &&
    value.invocationId.all identifier

def podResource (value : KubernetesPodIdentity) (binding : KubernetesOpsIdentity)
    (logs : Bool) : Bool :=
  if value.namespaceName != binding.namespaceName || !dns value.name || !identifier value.uid then
    false
  else
    match value.container with
    | none => !logs
    | some container => label container.name 63 && text container.runtimeIdentity 512

def resourceMatches (resource : OpsResourceIdentity) (binding : OpsTargetBinding)
    (logs : Bool) : Bool :=
  match binding.identity, resource with
  | .linux _, .linuxService value => serviceResource value logs
  | .kubernetes kube, .kubernetesPod value => podResource value kube logs
  | _, _ => false

def operationResource (request : OpsObservationRequest) : Bool :=
  match request.operation with
  | .linuxHealth | .linuxServices | .kubernetesWorkloads => request.resource == .none
  | .kubernetesEvents =>
    request.resource == .none || resourceMatches request.resource request.target false
  | operation => resourceMatches request.resource request.target (logsOperation operation)

def limitsWithin (value ceiling : OpsObservationLimits) : Bool :=
  value.maximumEntries != 0 && value.maximumEntries ≤ ceiling.maximumEntries &&
    value.maximumBytes != 0 && value.maximumBytes ≤ ceiling.maximumBytes &&
    0 < value.timeout && value.timeout ≤ ceiling.timeout &&
    value.maximumLogLines != 0 && value.maximumLogLines ≤ ceiling.maximumLogLines &&
    value.maximumLogBytes != 0 && value.maximumLogBytes ≤ ceiling.maximumLogBytes &&
    0 < value.maximumLogAge && value.maximumLogAge ≤ ceiling.maximumLogAge

def validateRecordedOpsRequest (request : OpsObservationRequest) : Except OpsTargetError Unit := do
  if !identifier request.ownerId || !identifier request.sessionId ||
      !identifier request.requestId || !sequence request.selectionGeneration ||
      !sequence request.logPolicyRevision then
    throw ⟨.invalidRequest, "Recorded Ops request identity is invalid"⟩
  validateTarget request.target
  if !matchesKind request.operation (opsTargetKind request.target) then
    throw ⟨.invalidRequest, "Recorded Ops operation does not match target"⟩
  if !limitsWithin request.limits {} then
    throw ⟨.resourceExhausted, "Recorded Ops request exceeds hard limits"⟩
  if !operationResource request then
    throw ⟨.resourceMismatch, "Recorded Ops resource is invalid"⟩

end OpsTarget
