import AiForge.EvidenceContext

/-! # Grants of local folders

A folder is granted by a lease. The request names the folder, and the result has to hold a lease
that was made for it. -/
namespace LocalSource

open Content EvidenceContext SafeText Staged

inductive LocalSourceErrorCode where
  | invalidRequest | invalidResult | unsupportedVersion | unavailable | permissionDenied
  | unsupportedEntry | invalidText | sourceMismatch | staleLease | concurrentChange
  | resourceExhausted | cancelled | timedOut | ioFailure | internalFailure
  deriving DecidableEq

structure LocalSourceError where
  code : LocalSourceErrorCode
  message : String

abbrev Status := Except LocalSourceError Unit

/-- The code among all codes of an error that a check of a source reports. -/
def codeOf : EvidenceContext.LocalSourceErrorCode → LocalSourceErrorCode
  | .invalidRequest => .invalidRequest
  | .unsupportedVersion => .unsupportedVersion
  | .unavailable => .unavailable
  | .unsupportedEntry => .unsupportedEntry
  | .resourceExhausted => .resourceExhausted

def checked (check : Except EvidenceContext.LocalSourceError Unit) : Status :=
  check.mapError fun error => ⟨codeOf error.code, error.message⟩

structure LocalFolderGrantToken where
  sessionId : SessionId
  (sessionEpoch requestId : ℕ)
  deriving DecidableEq

structure LocalFolderGrantRequest where
  token : LocalFolderGrantToken
  absolutePath : Bytes
  leaseGeneration : ℕ
  limits : LocalSourceLimits
  deriving DecidableEq

/-- A lease is an object; `object` tells it from every other one. -/
structure LocalSourceLease where
  object : ℕ
  guaranteesPinnedReadOnlySources : Bool
  rootIdentity : LocalRootIdentity
  sessionId : SessionId
  leaseGeneration : ℕ
  deriving DecidableEq

structure LocalFolderGrantResult where
  token : LocalFolderGrantToken
  root : LocalRootIdentity
  lease : Option LocalSourceLease
  deriving DecidableEq

def validateLocalFolderGrantRequest (request : LocalFolderGrantRequest) : Status := do
  checked (Local.validateLocalSourceLimits request.limits)
  ensure (request.token.sessionEpoch ≠ 0 ∧ request.token.requestId ≠ 0 ∧
      request.leaseGeneration ≠ 0 ∧ request.absolutePath.head? = some '/'.toUInt8 ∧
      request.absolutePath.length ≤ request.limits.maximumPathBytes ∧
      Local.supportedName request.absolutePath)
    ⟨.invalidRequest, "local folder grant request is invalid"⟩

/-- What a result of a grant has to be, whoever checks it. -/
def matchesGrant (request : LocalFolderGrantRequest) (result : LocalFolderGrantResult) : Bool :=
  result.token == request.token && result.lease.any fun lease =>
    (Local.validateLocalRootIdentity result.root).isOk &&
      lease.guaranteesPinnedReadOnlySources && lease.rootIdentity == result.root &&
      lease.sessionId == request.token.sessionId &&
      lease.leaseGeneration == request.leaseGeneration

end LocalSource
