import AiForge.KernelState
import AiForge.Sha256

/-! # Automatic approvals

A matcher is compiled once from a list of rules and then answers requests: each rule approves a
bounded number of invocations, and an invocation that has been approved is answered from a
table as long as its request stays the same. The clock and the descriptor authorities are asked
anew by every call, and the JSON text of arguments is read by a library; both are parameters. -/
namespace ApprovalMatcher

open Capability Content Events KernelState SafeText

inductive AutomaticApprovalMatcherErrorCode where
  | invalidConfiguration | invalidRequest | pathUnavailable | internalFailure

structure AutomaticApprovalMatcherError where
  code : AutomaticApprovalMatcherErrorCode
  message : String

abbrev Matching := Except AutomaticApprovalMatcherError

def invalidConfiguration (message : String) : AutomaticApprovalMatcherError :=
  ⟨.invalidConfiguration, message⟩

def invalidMatchRequest (message : String) : AutomaticApprovalMatcherError :=
  ⟨.invalidRequest, message⟩

/-- Durations are counted in milliseconds, points in time in nanoseconds. -/
structure AutomaticApprovalMatcherLimits where
  maximumRules : ℕ := 256
  (maximumToolNameBytes maximumIdentityBytes : ℕ := 128)
  maximumCanonicalArgumentBytes : ℕ := 64 * 1024
  (maximumRelativePathBytes maximumProcessExecutableBytes : ℕ := 4096)
  maximumTotalRuleBytes : ℕ := 1024 * 1024
  maximumTotalMatches : ℕ := 1000000
  maximumExpiry : ℤ := 24 * 365 * 3600000

structure AutomaticApprovalRuleConstraints where
  allowedRestrictions : List RestrictionLevel
  maximumMatches : ℕ
  expiresAfter : Option ℤ := none
  precedence : ℕ := 0

/-- A pinned root, told apart from every other one. -/
abbrev PathAuthority := ℕ

inductive AutomaticApprovalRule where
  | exact (toolName : String) (arguments : CanonicalToolArguments)
      (constraints : AutomaticApprovalRuleConstraints)
  | repositoryRead (root : Option PathAuthority) (allowedRelativePath : String)
      (constraints : AutomaticApprovalRuleConstraints)
  | processExecutable (executable : String) (constraints : AutomaticApprovalRuleConstraints)

def AutomaticApprovalRule.constraints : AutomaticApprovalRule → AutomaticApprovalRuleConstraints
  | .exact _ _ constraints => constraints
  | .repositoryRead _ _ constraints => constraints
  | .processExecutable _ constraints => constraints

structure AutomaticApprovalMatchRequest where
  sessionId : SessionId
  runId : RunId
  invocationId : InvocationId
  toolName : String
  arguments : CanonicalToolArguments
  selectedRestriction : RestrictionLevel := .high
  effects : List Effect := []
  scopes : List CapabilityScope := []
  deriving DecidableEq

abbrev Key := SessionId × RunId × InvocationId

def AutomaticApprovalMatchRequest.key (request : AutomaticApprovalMatchRequest) : Key :=
  (request.sessionId, request.runId, request.invocationId)

inductive CompiledCondition where
  | exact (toolName : String) (arguments : CanonicalToolArguments)
  | repository (root : PathAuthority) (rootIdentity allowedRelativePath : String)
  | processExecutable (executable : String)

structure CompiledRule where
  condition : CompiledCondition
  allowedRestrictions : List RestrictionLevel
  remainingMatches : ℕ
  expiresAt : Option ℤ
  precedence : ℕ
  identity : String

structure Reservation where
  key : Key
  requestDigest : String
  evidence : AutomaticApprovalEvidence

structure Matcher where
  identity : String
  limits : AutomaticApprovalMatcherLimits
  rules : List CompiledRule
  toolNames : List String
  reservations : List Reservation := []

/-- A document as it is read; the members of an object keep their order and may repeat. -/
inductive Json where
  | null
  | boolean (value : Bool)
  | integer (value : ℤ)
  | float (text : String)
  | string (value : String)
  | array (items : List Json)
  | object (members : List (String × Json))

/-- The JSON library: reading a text and writing a document. -/
structure JsonLibrary where
  read : Bytes → Option Json
  dump : Json → Bytes

mutual

/-- No object has two members of one name. -/
def distinctKeys : Json → Bool
  | .array items => distinctKeysAll items
  | .object members => decide (members.map Prod.fst).Nodup && distinctKeysMembers members
  | _ => true

def distinctKeysAll : List Json → Bool
  | [] => true
  | item :: rest => distinctKeys item && distinctKeysAll rest

def distinctKeysMembers : List (String × Json) → Bool
  | [] => true
  | (_, item) :: rest => distinctKeys item && distinctKeysMembers rest

end

mutual

def hasOnlyExactNumbers : Json → Bool
  | .float _ => false
  | .array items => exactNumbersAll items
  | .object members => exactNumbersMembers members
  | _ => true

def exactNumbersAll : List Json → Bool
  | [] => true
  | item :: rest => hasOnlyExactNumbers item && exactNumbersAll rest

def exactNumbersMembers : List (String × Json) → Bool
  | [] => true
  | (_, item) :: rest => hasOnlyExactNumbers item && exactNumbersMembers rest

end

def parseJson (json : JsonLibrary) (text : Bytes) : Option Json :=
  (json.read text).filter distinctKeys

def textMember (name : String) : Json → Option String
  | .object members =>
    match members.lookup name with
    | some (.string value) => some value
    | _ => none
  | _ => none

def validRootIdentity (value : String) : Bool :=
  let text := value.toList
  text.length == 71 && "sha256:".toList.isPrefixOf text &&
    (text.drop 7).all Sha256.hexDigits.contains

def validText (value : String) (maximum : ℕ) : Bool :=
  value != "" && value.utf8ByteSize ≤ maximum && isSafeUtf8Text (bytesOf value) &&
    !hasControlCharacter value

/-- No component is empty, a dot, two dots or the repository's own directory. -/
def validRelativePath (value : String) (maximum : ℕ) (allowRoot : Bool) : Bool :=
  if value = "" then allowRoot
  else validText value maximum && !value.toList.contains '\\' &&
    (value.toList.splitOn '/').all fun part =>
      part != [] && part != ['.'] && part != ['.', '.'] && part != ".git".toList

def validProcessExecutable (value : String) (limits : AutomaticApprovalMatcherLimits) : Bool :=
  validText value limits.maximumProcessExecutableBytes && value.toList.head? == some '/' &&
    (value.toList.tail.splitOn '/').all fun part =>
      part != [] && part != ['.'] && part != ['.', '.']

section Library

variable (json : JsonLibrary)

def validCanonicalArguments (arguments : CanonicalToolArguments)
    (limits : AutomaticApprovalMatcherLimits) : Bool :=
  arguments.canonicalizationIdentity == "aiforge.canonical-tool-json.v1" &&
    arguments.value.mediaType == "application/json" && arguments.value.data != [] &&
    arguments.value.data.length ≤ limits.maximumCanonicalArgumentBytes &&
    (parseJson json arguments.value.data).any fun parsed =>
      hasOnlyExactNumbers parsed && json.dump parsed == arguments.value.data

def repositoryCandidatePath (arguments : CanonicalToolArguments)
    (limits : AutomaticApprovalMatcherLimits) : Option String :=
  if validCanonicalArguments json arguments limits = false then none
  else
    match parseJson json arguments.value.data with
    | some (.object [(name, value)]) =>
      (textMember "relative_path" (.object [(name, value)])).filter fun path =>
        validRelativePath path limits.maximumRelativePathBytes false
    | _ => none

def processCandidateExecutable (arguments : CanonicalToolArguments)
    (limits : AutomaticApprovalMatcherLimits) : Option String :=
  if validCanonicalArguments json arguments limits = false then none
  else (parseJson json arguments.value.data).bind fun parsed =>
    (textMember "executable" parsed).filter fun executable =>
      validProcessExecutable executable limits

end Library

def restrictionName : RestrictionLevel → String
  | .high => "high"
  | .medium => "medium"
  | .low => "low"
  | .unrestricted => "none"

def effectName : Effect → String
  | .read => "read"
  | .write => "write"
  | .remove => "remove"
  | .execute => "execute"
  | .network => "network"
  | .communicate => "communicate"
  | .spend => "spend"
  | .changeInfrastructure => "change_infrastructure"
  | .changePrivileges => "change_privileges"

def field (value : Bytes) : Bytes := Sha256.bigEndian 8 value.length ++ value

def fields (values : List Bytes) : Bytes := values.flatMap field

def matcherLimitsBytes (limits : AutomaticApprovalMatcherLimits) : Bytes :=
  field (bytesOf "aiforge.automatic-approval-limits.v1") ++
    ([limits.maximumRules, limits.maximumToolNameBytes, limits.maximumIdentityBytes,
      limits.maximumCanonicalArgumentBytes, limits.maximumRelativePathBytes,
      limits.maximumProcessExecutableBytes, limits.maximumTotalRuleBytes,
      limits.maximumTotalMatches].flatMap (Sha256.bigEndian 8)) ++
    Sha256.bigEndian 8 (limits.maximumExpiry % 2 ^ 64).toNat

def canonicalRequestDigest (request : AutomaticApprovalMatchRequest) : String :=
  let scopeTexts := request.scopes.flatMap fun scope =>
    [effectName scope.effect, scope.kind, scope.value]
  Sha256.digest (fields (["aiforge.automatic-approval-request.v1", request.sessionId,
      request.runId, request.toolName, request.arguments.canonicalizationIdentity,
      request.arguments.value.mediaType].map bytesOf ++ [request.arguments.value.data] ++
    (restrictionName request.selectedRestriction :: request.effects.map effectName ++
      scopeTexts).map bytesOf))

/-- The digest of a rule's own texts and of its constraints. -/
def ruleDigest (texts : List Bytes) (restrictions : List RestrictionLevel)
    (constraints : AutomaticApprovalRuleConstraints) : String :=
  Sha256.digest (fields (texts ++ restrictions.map fun level => bytesOf (restrictionName level)) ++
    Sha256.bigEndian 8 constraints.maximumMatches ++ Sha256.bigEndian 4 constraints.precedence ++
    Sha256.bigEndian 8 (constraints.expiresAfter.getD (-1) % 2 ^ 64).toNat)

def exactRuleIdentity (toolName : String) (arguments : CanonicalToolArguments)
    (restrictions : List RestrictionLevel) (constraints : AutomaticApprovalRuleConstraints) :
    String :=
  "aiforge.auto-rule.exact.v1.sha256:" ++ ruleDigest
    (["aiforge.automatic-approval-rule.exact.v1", toolName, arguments.canonicalizationIdentity,
      arguments.value.mediaType].map bytesOf ++ [arguments.value.data]) restrictions constraints

def repositoryRuleIdentity (rootIdentity allowedRelativePath : String)
    (restrictions : List RestrictionLevel) (constraints : AutomaticApprovalRuleConstraints) :
    String :=
  "aiforge.auto-rule.repository.v1.sha256:" ++ ruleDigest
    (["aiforge.automatic-approval-rule.repository-read.v1", "aiforge.canonical-tool-json.v1",
      rootIdentity, allowedRelativePath].map bytesOf) restrictions constraints

def processExecutableRuleIdentity (executable : String) (restrictions : List RestrictionLevel)
    (constraints : AutomaticApprovalRuleConstraints) : String :=
  "aiforge.auto-rule.process-executable.v1.sha256:" ++ ruleDigest
    (["aiforge.automatic-approval-rule.process-executable.v1", "run_process", "executable",
      executable].map bytesOf) restrictions constraints

def restrictionRank : RestrictionLevel → ℕ
  | .high => 0
  | .medium => 1
  | .low => 2
  | .unrestricted => 3

def validateConstraints (constraints : AutomaticApprovalRuleConstraints)
    (limits : AutomaticApprovalMatcherLimits) : Matching (List RestrictionLevel) :=
  if constraints.allowedRestrictions = [] ∨ 4 < constraints.allowedRestrictions.length ∨
      constraints.maximumMatches = 0 ∨
      (constraints.expiresAfter.any fun expiry =>
        decide (expiry ≤ 0) || decide (limits.maximumExpiry < expiry)) then
    .error (invalidConfiguration "automatic approval rule constraints are invalid")
  else if ¬ constraints.allowedRestrictions.Nodup then
    .error (invalidConfiguration "automatic approval rule restrictions must be unique")
  else .ok (constraints.allowedRestrictions.insertionSort
    fun a b => restrictionRank a ≤ restrictionRank b)

def validMatcherLimits (limits : AutomaticApprovalMatcherLimits) (ruleCount : ℕ) : Bool :=
  let maximums : AutomaticApprovalMatcherLimits := {}
  let within (value maximum : ℕ) : Bool := value != 0 && value ≤ maximum
  within limits.maximumRules maximums.maximumRules &&
    within limits.maximumToolNameBytes maximums.maximumToolNameBytes &&
    within limits.maximumIdentityBytes maximums.maximumIdentityBytes &&
    within limits.maximumCanonicalArgumentBytes maximums.maximumCanonicalArgumentBytes &&
    within limits.maximumRelativePathBytes maximums.maximumRelativePathBytes &&
    within limits.maximumProcessExecutableBytes maximums.maximumProcessExecutableBytes &&
    within limits.maximumTotalRuleBytes maximums.maximumTotalRuleBytes &&
    within limits.maximumTotalMatches maximums.maximumTotalMatches &&
    decide (0 < limits.maximumExpiry) && decide (limits.maximumExpiry ≤ maximums.maximumExpiry) &&
    ruleCount ≤ limits.maximumRules

/-- What a call finds outside of the matcher. -/
structure Surroundings where
  now : ℤ
  identity : PathAuthority → String
  contains : PathAuthority → String → String → Matching Bool

structure CompiledRuleResult where
  rule : CompiledRule
  bytes : ℕ
  toolName : String

def maximumTimePoint : ℤ := 2 ^ 63 - 1

def expiryOf (constraints : AutomaticApprovalRuleConstraints) (launchTime : ℤ) :
    Matching (Option ℤ) :=
  match constraints.expiresAfter with
  | none => .ok none
  | some expiry =>
    if maximumTimePoint - expiry * 1000000 < launchTime then
      .error (invalidConfiguration "automatic approval expiry cannot be represented")
    else .ok (some (launchTime + expiry * 1000000))

section Compile

variable (json : JsonLibrary) (world : Surroundings) (limits : AutomaticApprovalMatcherLimits)

/-- The condition, identity, size and tool name a rule is compiled to. -/
def compileCondition (restrictions : List RestrictionLevel) :
    AutomaticApprovalRule → Matching (CompiledCondition × String × ℕ × String)
  | .exact toolName arguments constraints =>
    if toolName = "read_repository_file" ∨
        validText toolName limits.maximumToolNameBytes = false ∨
        validCanonicalArguments json arguments limits = false then
      .error (invalidConfiguration "exact automatic approval rule is invalid")
    else .ok (.exact toolName arguments,
      exactRuleIdentity toolName arguments restrictions constraints,
      toolName.utf8ByteSize + arguments.canonicalizationIdentity.utf8ByteSize +
        arguments.value.mediaType.utf8ByteSize + arguments.value.data.length, toolName)
  | .repositoryRead none _ _ =>
    .error (invalidConfiguration "repository-read automatic approval rule is invalid")
  | .repositoryRead (some root) allowedRelativePath constraints =>
    let rootIdentity := world.identity root
    if validRootIdentity rootIdentity = false ∨
        limits.maximumIdentityBytes < rootIdentity.utf8ByteSize ∨
        validRelativePath allowedRelativePath limits.maximumRelativePathBytes true = false then
      .error (invalidConfiguration "repository-read automatic approval rule is invalid")
    else .ok (.repository root rootIdentity allowedRelativePath,
      repositoryRuleIdentity rootIdentity allowedRelativePath restrictions constraints,
      rootIdentity.utf8ByteSize + allowedRelativePath.utf8ByteSize, "read_repository_file")
  | .processExecutable executable constraints =>
    if validProcessExecutable executable limits = false then
      .error (invalidConfiguration "process-executable automatic approval rule is invalid")
    else .ok (.processExecutable executable,
      processExecutableRuleIdentity executable restrictions constraints,
      executable.utf8ByteSize, "run_process")

def compileRule (rule : AutomaticApprovalRule) : Matching CompiledRuleResult := do
  let restrictions ← validateConstraints rule.constraints limits
  let (condition, identity, bytes, toolName) ← compileCondition json world limits restrictions rule
  let expiresAt ← expiryOf rule.constraints world.now
  return ⟨⟨condition, restrictions, rule.constraints.maximumMatches, expiresAt,
    rule.constraints.precedence, identity⟩, bytes, toolName⟩

/-- The rules compiled so far and what they add up to. -/
structure Compilation where
  rules : List CompiledRule := []
  toolNames : List String := []
  (totalBytes totalMatches : ℕ := 0)

def compileNext (acc : Compilation) (rule : AutomaticApprovalRule) : Matching Compilation :=
  if limits.maximumTotalMatches - acc.totalMatches < rule.constraints.maximumMatches then
    .error (invalidConfiguration "automatic approval match count is overbound")
  else do
    let converted ← compileRule json world limits rule
    if limits.maximumTotalRuleBytes < acc.totalBytes + converted.bytes ∨
        converted.rule.identity ∈ acc.rules.map CompiledRule.identity then
      .error (invalidConfiguration "automatic approval rules are duplicate or overbound")
    else return {
      rules := acc.rules ++ [converted.rule]
      toolNames := acc.toolNames ++ [converted.toolName]
      totalBytes := acc.totalBytes + converted.bytes
      totalMatches := acc.totalMatches + rule.constraints.maximumMatches }

def ordered (texts : List String) : List String :=
  texts.dedup.insertionSort fun a b => a ≤ b

def compileAutomaticApprovalMatcher (rules : List AutomaticApprovalRule) : Matching Matcher :=
  if validMatcherLimits limits rules.length = false then
    .error (invalidConfiguration "automatic approval matcher limits are invalid")
  else do
    let compiled ← rules.foldlM (compileNext json world limits) {}
    let policyDigest := Sha256.digest (field (bytesOf "aiforge.automatic-approval-policy.v1") ++
      matcherLimitsBytes limits ++
      fields ((ordered (compiled.rules.map CompiledRule.identity)).map bytesOf))
    return {
      identity := "aiforge.auto-policy.v1.sha256:" ++ policyDigest
      limits
      rules := compiled.rules
      toolNames := ordered compiled.toolNames }

end Compile

section Match

variable (json : JsonLibrary) (world : Surroundings)

def conditionMatches (limits : AutomaticApprovalMatcherLimits) (rule : CompiledRule)
    (request : AutomaticApprovalMatchRequest) : Matching Bool :=
  match rule.condition with
  | .exact toolName arguments =>
    .ok (toolName == request.toolName && decide (arguments = request.arguments))
  | .processExecutable executable =>
    .ok (request.toolName == "run_process" &&
      processCandidateExecutable json request.arguments limits == some executable)
  | .repository root rootIdentity allowedRelativePath =>
    if request.toolName ≠ "read_repository_file" ∨ world.identity root ≠ rootIdentity then
      .ok false
    else
      match repositoryCandidatePath json request.arguments limits with
      | none => .ok false
      | some path => world.contains root allowedRelativePath path

/-- A rule that may be asked: not expired, and for the request's restriction. -/
def CompiledRule.current (rule : CompiledRule) (request : AutomaticApprovalMatchRequest) : Bool :=
  (rule.expiresAt.all fun expiry => decide (world.now < expiry)) &&
    rule.allowedRestrictions.contains request.selectedRestriction

/-- The best rule found so far and whether another one is as good. -/
structure Candidate where
  (index precedence : ℕ)
  ambiguous : Bool := false

def matchingRule (limits : AutomaticApprovalMatcherLimits)
    (request : AutomaticApprovalMatchRequest) :
    ℕ → List CompiledRule → Option Candidate → Matching (Option Candidate)
  | _, [], best => .ok best
  | index, rule :: rest, best =>
    if rule.remainingMatches = 0 ∨ rule.current world request = false then
      matchingRule limits request (index + 1) rest best
    else do
      let found ← conditionMatches json world limits rule request
      if found = false then matchingRule limits request (index + 1) rest best
      else
        match best with
        | none => matchingRule limits request (index + 1) rest (some ⟨index, rule.precedence, false⟩)
        | some candidate =>
          if candidate.precedence < rule.precedence then
            matchingRule limits request (index + 1) rest (some ⟨index, rule.precedence, false⟩)
          else if rule.precedence = candidate.precedence then
            matchingRule limits request (index + 1) rest (some { candidate with ambiguous := true })
          else matchingRule limits request (index + 1) rest best

def uniqueMatchingRule (limits : AutomaticApprovalMatcherLimits) (rules : List CompiledRule)
    (request : AutomaticApprovalMatchRequest) : Matching (Option ℕ) := do
  let best ← matchingRule json world limits request 0 rules none
  return (best.filter fun candidate => !candidate.ambiguous).map Candidate.index

def CompiledCondition.isRepository : CompiledCondition → Bool
  | .repository _ _ _ => true
  | _ => false

/-- Every other repository rule that could be asked still answers. -/
def verifyOtherRepositoryAuthorities (limits : AutomaticApprovalMatcherLimits)
    (selected : ℕ) (request : AutomaticApprovalMatchRequest) :
    ℕ → List CompiledRule → Matching Unit
  | _, [] => .ok ()
  | index, rule :: rest =>
    if index = selected ∨ rule.remainingMatches = 0 ∨ rule.current world request = false ∨
        rule.condition.isRepository = false then
      verifyOtherRepositoryAuthorities limits selected request (index + 1) rest
    else do
      let _ ← conditionMatches json world limits rule request
      verifyOtherRepositoryAuthorities limits selected request (index + 1) rest

def replayReservation (matcher : Matcher) (prior : Reservation)
    (request : AutomaticApprovalMatchRequest) : Matching (Option AutomaticApprovalEvidence) :=
  if prior.requestDigest ≠ canonicalRequestDigest request then
    .error (invalidMatchRequest "automatic approval invocation changed after reservation")
  else
    let index := matcher.rules.findIdx fun rule => rule.identity = prior.evidence.ruleIdentity
    match matcher.rules[index]? with
    | none => .ok none
    | some selected =>
      if selected.current world request = false then .ok none
      else do
        let found ← conditionMatches json world matcher.limits selected request
        if found = false then return none
        else do
          verifyOtherRepositoryAuthorities json world matcher.limits index request 0 matcher.rules
          return some prior.evidence

def validMatchRequest (matcher : Matcher) (request : AutomaticApprovalMatchRequest) : Bool :=
  validText request.toolName matcher.limits.maximumToolNameBytes &&
    validCanonicalArguments json request.arguments matcher.limits

def findReservation (matcher : Matcher) (key : Key) : Option Reservation :=
  KeyedList.lookup Reservation.key key matcher.reservations

def reserve (matcher : Matcher) (index : ℕ) (selected : CompiledRule)
    (request : AutomaticApprovalMatchRequest) : AutomaticApprovalEvidence × Matcher :=
  let evidence : AutomaticApprovalEvidence := ⟨matcher.identity, selected.identity⟩
  (evidence, { matcher with
    rules := matcher.rules.set index
      { selected with remainingMatches := selected.remainingMatches - 1 }
    reservations := matcher.reservations ++
      [⟨request.key, canonicalRequestDigest request, evidence⟩] })

/-- One request; the matcher changes only where a new invocation is approved. -/
def matchRequest (matcher : Matcher) (request : AutomaticApprovalMatchRequest) :
    Matching (Option AutomaticApprovalEvidence) × Matcher :=
  if validMatchRequest json matcher request = false then
    (.error (invalidMatchRequest "automatic approval request is invalid"), matcher)
  else
    match findReservation matcher request.key with
    | some prior => (replayReservation json world matcher prior request, matcher)
    | none =>
      match uniqueMatchingRule json world matcher.limits matcher.rules request with
      | .error err => (.error err, matcher)
      | .ok none => (.ok none, matcher)
      | .ok (some index) =>
        match matcher.rules[index]? with
        | none => (.ok none, matcher)
        | some selected =>
          let (evidence, next) := reserve matcher index selected request
          (.ok (some evidence), next)

end Match

end ApprovalMatcher
