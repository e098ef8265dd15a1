import AiForge.LaunchPolicy

/-! # Process launch requests

A launch names an executable, the directories it may use and the environment it gets. The
directories are held against the configured ones before anything is started: by their names
where one has to lie inside another, and by their spelling where two have to be the same. -/
namespace ProcessLauncher

open LaunchPolicy LexicalPaths SafeText Staged

/-- The longest string that can be built. -/
def maxSize : ℕ := 2 ^ 63 - 1

abbrev Text := { value : Bytes // value.length ≤ maxSize }

/-- The result of an addition of `std::size_t` or `std::uint64_t`. -/
def wrapped (value : ℕ) : ℕ := value % 2 ^ 64

inductive ProcessFilesystemAccess where
  | readOnly | readWrite
  | other (value : ℤ)
  deriving DecidableEq

structure ProcessFilesystemRoot where
  (path identity : Text)
  access : ProcessFilesystemAccess := .readOnly

structure ProcessEnvironmentVariable where
  (name value : Text)

structure ProcessLaunchLimits where
  wallTime : ℤ := 0
  (maximumOutputBytes maximumProgressChunkBytes : ℕ := 0)
  terminationGrace : ℤ := 0

structure ProcessLaunchRequest where
  (executable executableIdentity : Text)
  arguments : List Text
  (workingDirectory workingDirectoryIdentity : Text)
  (configuredRoots requestedRoots : List ProcessFilesystemRoot)
  environment : List ProcessEnvironmentVariable
  limits : ProcessLaunchLimits

structure ProcessLaunchBounds where
  maximumArguments : ℕ := 256
  maximumArgumentBytes : ℕ := 256 * 1024
  maximumRoots : ℕ := 128
  maximumEnvironmentVariables : ℕ := 64
  maximumPathBytes : ℕ := 4096
  maximumIdentityBytes : ℕ := 128
  maximumWallTime : ℤ := 120 * 1000
  maximumOutputBytes : ℕ := 8 * 1024 * 1024
  maximumProgressChunkBytes : ℕ := 4096
  maximumTerminationGrace : ℤ := 100

inductive ProcessLaunchStage where
  | validation | spawn | execution | termination | cleanup
  deriving DecidableEq

inductive ProcessLaunchErrorCode where
  | invalidRequest | unavailable | contractDrift | cancelled | timedOut | outputLimit | spawnFailed
  | cleanupFailed | protocolFailure | internalFailure
  deriving DecidableEq

structure ProcessLaunchError where
  code : ProcessLaunchErrorCode := .internalFailure
  stage : ProcessLaunchStage := .validation
  unavailableReason : Option RestrictionUnavailableReason
  message : String
  retryable : Bool := false
  deriving DecidableEq

def launchFailure (code : ProcessLaunchErrorCode) (stage : ProcessLaunchStage)
    (message : String) : ProcessLaunchError :=
  ⟨code, stage, none, message, false⟩

def invalidRequest (message : String) : ProcessLaunchError :=
  launchFailure .invalidRequest .validation message

def hasControl (value : Bytes) : Bool :=
  value.any fun character => character < 0x20 || character == 0x7f

def boundedText (value : Bytes) (maximum : ℕ) : Bool :=
  !value.isEmpty && value.length ≤ maximum && !hasControl value && !value.contains 0

def isLetter (character : UInt8) : Bool :=
  ('a'.toUInt8 ≤ character && character ≤ 'z'.toUInt8) ||
    ('A'.toUInt8 ≤ character && character ≤ 'Z'.toUInt8)

def isDigit (character : UInt8) : Bool :=
  '0'.toUInt8 ≤ character && character ≤ '9'.toUInt8

def validIdentity (value : Bytes) (maximum : ℕ) : Bool :=
  boundedText value maximum &&
    value.all fun character => isLetter character || isDigit character ||
      (bytesOf "._-:").contains character

def slash : UInt8 := '/'.toUInt8

def dot : UInt8 := '.'.toUInt8

def normalizedAbsolutePath (value : Bytes) (maximum : ℕ) : Bool :=
  boundedText value maximum && isAbsolute slash value && genericString slash value == value &&
    lexicallyNormal slash dot value == value

def pathIsWithin (parent child : Bytes) : Bool :=
  (elements slash parent).isPrefixOf (elements slash child)

def validEnvironmentName (value : Bytes) : Bool :=
  !value.isEmpty && value.length ≤ 255 && value.head? != some '='.toUInt8 &&
    !value.head?.any isDigit &&
    value.all fun character => isLetter character || isDigit character || character == '_'.toUInt8

def validAccess : ProcessFilesystemAccess → Bool
  | .readOnly | .readWrite => true
  | .other _ => false

def addBounded (total amount maximum : ℕ) : Option ℕ :=
  if amount > maximum ∨ total > maximum - amount then none else some (wrapped (total + amount))

def validateProcessLaunchBounds (bounds : ProcessLaunchBounds) :
    Except ProcessLaunchError PUnit :=
  let maximums : ProcessLaunchBounds := {}
  ensure (bounds.maximumArguments ≠ 0 ∧ bounds.maximumArguments ≤ maximums.maximumArguments ∧
      bounds.maximumArgumentBytes ≠ 0 ∧
      bounds.maximumArgumentBytes ≤ maximums.maximumArgumentBytes ∧
      bounds.maximumRoots ≠ 0 ∧ bounds.maximumRoots ≤ maximums.maximumRoots ∧
      bounds.maximumEnvironmentVariables ≠ 0 ∧
      bounds.maximumEnvironmentVariables ≤ maximums.maximumEnvironmentVariables ∧
      bounds.maximumPathBytes ≠ 0 ∧ bounds.maximumPathBytes ≤ maximums.maximumPathBytes ∧
      bounds.maximumIdentityBytes ≠ 0 ∧
      bounds.maximumIdentityBytes ≤ maximums.maximumIdentityBytes ∧
      0 < bounds.maximumWallTime ∧ bounds.maximumWallTime ≤ maximums.maximumWallTime ∧
      bounds.maximumOutputBytes ≠ 0 ∧
      bounds.maximumOutputBytes ≤ maximums.maximumOutputBytes ∧
      bounds.maximumProgressChunkBytes ≠ 0 ∧
      bounds.maximumProgressChunkBytes ≤ maximums.maximumProgressChunkBytes ∧
      bounds.maximumProgressChunkBytes ≤ bounds.maximumOutputBytes ∧
      0 < bounds.maximumTerminationGrace ∧
      bounds.maximumTerminationGrace ≤ maximums.maximumTerminationGrace)
    (invalidRequest "process launch bounds are invalid")

section Request

variable (request : ProcessLaunchRequest) (bounds : ProcessLaunchBounds)

def malformed : Bool :=
  !normalizedAbsolutePath request.executable bounds.maximumPathBytes ||
    !validIdentity request.executableIdentity bounds.maximumIdentityBytes ||
    !normalizedAbsolutePath request.workingDirectory bounds.maximumPathBytes ||
    !validIdentity request.workingDirectoryIdentity bounds.maximumIdentityBytes ||
    bounds.maximumArguments < request.arguments.length || request.configuredRoots.isEmpty ||
    bounds.maximumRoots < request.configuredRoots.length || request.requestedRoots.isEmpty ||
    bounds.maximumRoots < request.requestedRoots.length ||
    bounds.maximumEnvironmentVariables < request.environment.length

def validLimits (limits : ProcessLaunchLimits) : Bool :=
  0 < limits.wallTime && limits.wallTime ≤ bounds.maximumWallTime &&
    limits.maximumOutputBytes != 0 && limits.maximumOutputBytes ≤ bounds.maximumOutputBytes &&
    limits.maximumProgressChunkBytes != 0 &&
    limits.maximumProgressChunkBytes ≤ bounds.maximumProgressChunkBytes &&
    limits.maximumProgressChunkBytes ≤ limits.maximumOutputBytes &&
    0 < limits.terminationGrace && limits.terminationGrace ≤ bounds.maximumTerminationGrace

def argumentFailure : ProcessLaunchError :=
  invalidRequest "process arguments are malformed or overbound"

def addArgument (total : ℕ) (argument : Text) : Except ProcessLaunchError ℕ := do
  ensure (0 ∉ (argument.1 : List UInt8)) argumentFailure
  require (addBounded total (wrapped (argument.1.length + 1)) bounds.maximumArgumentBytes)
    argumentFailure

/-- The bytes of the executable and the arguments, each with its terminator. -/
def countArguments : Except ProcessLaunchError ℕ := do
  let started ← require
    (addBounded 0 (wrapped (request.executable.1.length + 1)) bounds.maximumArgumentBytes)
    argumentFailure
  request.arguments.foldlM (addArgument bounds) started

def validRoots (roots : List ProcessFilesystemRoot) : Bool :=
  (roots.all fun root =>
      normalizedAbsolutePath root.path bounds.maximumPathBytes &&
        validIdentity root.identity bounds.maximumIdentityBytes && validAccess root.access) &&
    decide (roots.map (·.path)).Nodup

def accessCovers (configured requested : ProcessFilesystemRoot) : Bool :=
  configured.access == .readWrite || requested.access == .readOnly

def configuredCovers (requested : ProcessFilesystemRoot) : Bool :=
  request.configuredRoots.any fun configured =>
    accessCovers configured requested && pathIsWithin configured.path requested.path

def conflictingIdentity : Bool :=
  request.requestedRoots.any fun requested => request.configuredRoots.any fun configured =>
    configured.path == requested.path && configured.identity != requested.identity

def conflictingWorkingIdentity : Bool :=
  request.requestedRoots.any fun root =>
    root.path == request.workingDirectory && root.identity != request.workingDirectoryIdentity

def widened : Bool :=
  conflictingIdentity request || conflictingWorkingIdentity request ||
    !request.requestedRoots.all (configuredCovers request) ||
    !request.requestedRoots.any fun root => pathIsWithin root.path request.workingDirectory

def environmentFailure : ProcessLaunchError := invalidRequest "process environment is invalid"

def addVariable (counted : Finset Text × ℕ) (entry : ProcessEnvironmentVariable) :
    Except ProcessLaunchError (Finset Text × ℕ) := do
  ensure (validEnvironmentName entry.name) environmentFailure
  ensure (0 ∉ (entry.value.1 : List UInt8)) environmentFailure
  ensure (entry.name ∉ counted.1) environmentFailure
  let total ← require (addBounded counted.2
    (wrapped (wrapped (entry.name.1.length + entry.value.1.length) + 2))
    bounds.maximumArgumentBytes) environmentFailure
  return (insert entry.name counted.1, total)

/-- The environment adds to the bytes of the arguments; its names are claimed one by one. -/
def countEnvironment (argumentBytes : ℕ) : Except ProcessLaunchError (Finset Text × ℕ) :=
  request.environment.foldlM (addVariable bounds) (∅, argumentBytes)

def validateProcessLaunchRequest : Except ProcessLaunchError PUnit := do
  validateProcessLaunchBounds bounds
  ensure (malformed request bounds = false)
    (invalidRequest "process launch request is malformed or overbound")
  ensure (validLimits bounds request.limits)
    (invalidRequest "process launch limits are invalid")
  let argumentBytes ← countArguments request bounds
  ensure (validRoots bounds request.configuredRoots ∧
      validRoots bounds request.requestedRoots)
    (invalidRequest "process filesystem roots are invalid")
  ensure (widened request = false)
    (invalidRequest "process filesystem authority is widened")
  let _ ← countEnvironment request bounds argumentBytes

end Request

end ProcessLauncher
