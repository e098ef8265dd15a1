import AiForge.Content
import AiForge.DecimalDigits

/-! # Capability scopes

A scope names an effect on one resource. Scopes are compared in a normal form, and a grant
covers a request of the same effect and kind: a path covers what lies below it, an amount
every smaller one, and anything else only itself. -/
namespace Capability

open Content DecimalDigits SafeText

inductive ToolPolicyErrorCode where
  | invalidProfile | invalidRequest | scopeWidening | persistenceFailure | internalFailure
  deriving DecidableEq

structure ToolPolicyError where
  code : ToolPolicyErrorCode
  message : String
  retryable : Bool := false
  deriving DecidableEq

def invalidRequest (message : String) : ToolPolicyError := ⟨.invalidRequest, message, false⟩

def hasControlCharacter (value : String) : Bool :=
  (bytesOf value).any fun character => character < 0x20 || character == 0x7f

def effectAllowedForKind (effect : Effect) (kind : String) : Bool :=
  if kind = "filesystem.root" then [.read, .write, .remove].contains effect
  else if kind = "network.host" then [.network, .communicate].contains effect
  else if kind = "network.unrestricted" then effect = .network
  else if kind = "process.command" then effect = .execute
  else if kind = "ops.target" then [.read, .execute, .network].contains effect
  else if kind = "cluster.resource" then
    [.read, .write, .remove, .changeInfrastructure, .changePrivileges].contains effect
  else if kind = "artifact.id" then [.read, .write, .remove].contains effect
  else if kind = "spend.microunits" then effect = .spend
  else false

/-- The components that are left of an absolute path: `..` takes the one before it along. -/
def resolveComponents (components : List (List Char)) : List (List Char) :=
  components.foldl (fun resolved component =>
    if component = [] ∨ component = ['.'] then resolved
    else if component = ['.', '.'] then resolved.dropLast
    else resolved ++ [component]) []

/-- The lexically normal form of an absolute path; it keeps a separator at its end. -/
def lexicallyNormal (path : List Char) : List Char :=
  let components := path.splitOn '/'
  let resolved := resolveComponents components
  let trailing := components.getLast?.any fun last =>
    decide (last = [] ∨ last = ['.'] ∨ last = ['.', '.'])
  '/' :: ['/'].intercalate resolved ++ if trailing ∧ resolved ≠ [] then ['/'] else []

def normalizePath (value : String) : Except ToolPolicyError String :=
  if value = "" ∨ 4096 < value.utf8ByteSize ∨ hasControlCharacter value then
    .error (invalidRequest "filesystem capability path is invalid")
  else if value.toList.head? ≠ some '/' then
    .error (invalidRequest "filesystem capability path must be absolute")
  else if lexicallyNormal value.toList ≠ value.toList ∨
      ['.', '.'] ∈ (lexicallyNormal value.toList).splitOn '/' then
    .error (invalidRequest "filesystem capability path is ambiguous")
  else .ok value

def pathParts (path : List Char) : List (List Char) :=
  ['/'] :: if path.tail = [] then [] else path.tail.splitOn '/'

def hostCharacter (c : Char) : Bool :=
  decide ('a' ≤ c ∧ c ≤ 'z') || decide (IsDigit c) || ['.', '-', ':', '[', ']'].contains c

def normalizeHost (value : String) : Except ToolPolicyError String :=
  let host := value.toList
  let lower := host.map Char.toLower
  if host = [] ∨ 253 < value.utf8ByteSize ∨ hasControlCharacter value ∨
      host.any ['/', '@', '*'].contains ∨ host.head? = some '.' ∨ host.getLast? = some '.' ∨
      lower.any (fun c => !hostCharacter c) then
    .error (invalidRequest "network capability host is invalid")
  else .ok (String.ofList lower)

def normalizeExact (value label : String) : Except ToolPolicyError String :=
  if value = "" ∨ 4096 < value.utf8ByteSize ∨ hasControlCharacter value then
    .error (invalidRequest (label ++ " capability is invalid"))
  else .ok value

def parseMicrounits (value : String) : Option ℕ :=
  let digits := value.toList
  if digits ≠ [] ∧ (∀ c ∈ digits, IsDigit c) ∧ textValue digits < 2 ^ 64 then
    some (textValue digits)
  else none

def validArtifactId (value : String) : Bool :=
  value != "" && value.utf8ByteSize ≤ 128 && !hasControlCharacter value

def normalizeValue (kind value : String) : Except ToolPolicyError String :=
  if kind = "filesystem.root" ∨ kind = "process.command" then normalizePath value
  else if kind = "network.host" then normalizeHost value
  else if kind = "network.unrestricted" then
    if value = "new-sockets" then .ok value
    else .error (invalidRequest "unrestricted network capability is invalid")
  else if kind = "spend.microunits" then
    if (parseMicrounits value).isSome then .ok value
    else .error (invalidRequest "spend capability is invalid")
  else if kind = "artifact.id" then
    if validArtifactId value then .ok value
    else .error (invalidRequest "artifact capability is invalid")
  else normalizeExact value kind

def normalizeCapabilityScope (scope : CapabilityScope) :
    Except ToolPolicyError CapabilityScope :=
  let kind := if scope.kind = "root" then "filesystem.root" else scope.kind
  if effectAllowedForKind scope.effect kind = false then
    .error (invalidRequest "capability kind does not match its effect")
  else do
    let value ← normalizeValue kind scope.value
    return ⟨scope.effect, kind, value⟩

def normalizes (scope : CapabilityScope) : Bool := (normalizeCapabilityScope scope).isOk

def capabilityScopeCovers (grant requested : CapabilityScope) : Bool :=
  match normalizeCapabilityScope grant, normalizeCapabilityScope requested with
  | .ok grant, .ok requested =>
    if grant.effect ≠ requested.effect ∨ grant.kind ≠ requested.kind then false
    else if grant.kind = "filesystem.root" then
      decide (pathParts grant.value.toList <+: pathParts requested.value.toList)
    else if grant.kind = "spend.microunits" then
      match parseMicrounits grant.value, parseMicrounits requested.value with
      | some granted, some amount => amount ≤ granted
      | _, _ => false
    else grant.value = requested.value
  | _, _ => false

def normalizeScopes (scopes : List CapabilityScope) :
    Except ToolPolicyError (List CapabilityScope) := do
  let normalized ← scopes.mapM normalizeCapabilityScope
  if normalized.Nodup then .ok normalized
  else .error (invalidRequest "capability scopes must be unique")

def scopesCover (grants requested : List CapabilityScope) : Bool :=
  requested.all fun scope => grants.any fun grant => capabilityScopeCovers grant scope

def intersectCapabilityScopes (parent requested : List CapabilityScope) :
    Except ToolPolicyError (List CapabilityScope) := do
  let normalizedParent ← normalizeScopes parent
  let normalizedRequested ← normalizeScopes requested
  if scopesCover normalizedParent normalizedRequested then .ok normalizedRequested
  else .error ⟨.scopeWidening, "capability intersection would widen authority", false⟩

example : capabilityScopeCovers ⟨.read, "root", "/repo"⟩ ⟨.read, "filesystem.root", "/repo/src"⟩ =
    true := by decide +kernel

end Capability
