import AiForge.SchemaVersion

/-! # What a document tells of its payload

Two payloads of one kind that are stored as one document under one schema version agree in
everything that the version writes. Whatever a version has no room for is refused before it is
written, with one exception: the first version of a proposal leaves out validated arguments. -/
namespace PayloadCodec

open Content Events Json List PlanGraph SafeText SessionStore Staged RunEventPayload

/-- The documents of a part tell its values apart, and none is taken for a missing value. -/
structure Part.Distinct {α : Type} (part : Part α) : Prop where
  injective : ∀ first second document, part.write first = .ok document →
    part.write second = .ok document → first = second
  present : ∀ value, part.write value ≠ .ok .null

/-- What is asked of the parts: their writers write all that there is, and the reader of the
kinds with one version returns none of the opaque payloads. -/
structure Parts.Distinct (parts : Parts) : Prop where
  structured : parts.structured.Distinct
  effects : parts.effects.Distinct
  scopes : parts.scopes.Distinct
  spendQuote : parts.spendQuote.Distinct
  opsRequest : parts.opsRequest.Distinct
  memorySelection : parts.memorySelection.Distinct
  conversationAdmission : parts.conversationAdmission.Distinct
  snapshot : parts.snapshot.Distinct
  planTask : parts.planTask.Distinct
  planEvidenceBinding : parts.planEvidenceBinding.Distinct
  childRunContext : parts.childRunContext.Distinct
  childRunBudget : parts.childRunBudget.Distinct
  other : ∀ first second version document, payloadType first = payloadType second →
    payloadType first ∉ versionedTypes → isUnknown first = false → isUnknown second = false →
    parts.otherJson first version = .ok document →
    parts.otherJson second version = .ok document → first = second
  known : ∀ type value version payload, parts.parseOther type value version = .ok payload →
    isUnknown payload = false

/-- The first version has no room for these; the later ones write them. -/
def Fits (payload : RunEventPayload) (version : ℕ) : Prop :=
  version = 1 → match payload with
    | .toolProposed value => value.spendQuote = none ∧ value.validatedArguments = none
    | .toolPolicyDecided value => value.automaticApproval = none
    | .planRevisionProposed revision => revision.evidence = []
    | .childRunCreated _ descriptor => descriptor = none
    | _ => True

section Writers

end Writers

variable {parts : Parts} {version : ℕ} {document : Json}

section RunStart

variable {first second : RunStarted} {members others : List (Bytes × Json)}

end RunStart

section Proposal

variable {first second : ToolProposed} {members : List (Bytes × Json)}

end Proposal

section Decision

variable {first second : ToolPolicyDecided}

end Decision

section Plan

variable {first second : PlanRevision}

end Plan

section ChildRun

variable {first second : ChildRunDescriptor} {childRunId other : RunId}

end ChildRun

section ReadingBack

variable {library : Library} {payload decoded : RunEventPayload}

end ReadingBack

end PayloadCodec
