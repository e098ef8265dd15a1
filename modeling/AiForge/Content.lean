import AiForge.SafeText

/-! # Content and identities

The values that events carry. Identities are compared and ordered, never read, so each kind
of identity is a string; a block of structured data keeps its bytes. -/
namespace Content

open SafeText

abbrev SessionId := String
abbrev RunId := String
abbrev EventId := String
abbrev MessageId := String
abbrev InferenceId := String
abbrev InvocationId := String
abbrev QuestionId := String
abbrev ArtifactId := String
abbrev ModelId := String
abbrev SurfaceId := String
abbrev WorkspaceId := String
abbrev PersonaId := String
abbrev PermissionProfileId := String
abbrev EvidenceId := String
abbrev PlanId := String
abbrev PlanRevisionId := String
abbrev PlanTaskId := String

/-- Milliseconds since the epoch. -/
abbrev EventTimestamp := ℤ

structure StructuredDataBlock where
  mediaType : String
  data : Bytes
  deriving DecidableEq

inductive ContentBlock where
  | text (text : Bytes)
  | structuredData (block : StructuredDataBlock)
  | citation (uri : String) (title : Option String)
  | artifactReference (artifactId : ArtifactId) (label : Option String)
  | unknown (typeName : String)
  deriving DecidableEq

structure ToolCall where
  invocationId : InvocationId
  toolName : String
  arguments : StructuredDataBlock
  deriving DecidableEq

inductive Role where
  | system | user | assistant | tool | evidence
  deriving DecidableEq

structure Message where
  messageId : MessageId
  role : Role
  content : List ContentBlock
  invocationId : Option InvocationId
  toolCalls : List ToolCall
  deriving DecidableEq

structure Usage where
  (inputTokens outputTokens cachedInputTokens reasoningTokens : ℕ := 0)
  deriving DecidableEq

inductive FinishReason where
  | stop | length | toolCall | contentFilter | other
  deriving DecidableEq

inductive ErrorCode where
  | invalidEvent | invalidState | backend | policy | cancelled | unavailable
  deriving DecidableEq

structure DomainError where
  code : ErrorCode
  message : String
  retryable : Bool
  deriving DecidableEq

inductive Effect where
  | read | write | remove | execute | network | communicate | spend | changeInfrastructure
  | changePrivileges
  deriving DecidableEq

structure CapabilityScope where
  effect : Effect
  (kind value : String)
  deriving DecidableEq

inductive QuestionSelection where
  | one | many
  deriving DecidableEq

structure QuestionOption where
  (optionId label : String)
  description : Option String
  recommended : Bool
  deriving DecidableEq

structure QuestionOtherInput where
  label : String
  placeholder : Option String
  maximumBytes : ℕ
  deriving DecidableEq

structure QuestionDefinition where
  questionId : QuestionId
  prompt : String
  selection : QuestionSelection
  options : List QuestionOption
  required : Bool
  minimumSelections : ℕ
  maximumSelections : Option ℕ
  other : Option QuestionOtherInput
  deriving DecidableEq

structure QuestionAnswer where
  questionId : QuestionId
  selectedOptionIds : List String
  freeForm : Option String
  deriving DecidableEq

structure ContentDigest where
  (algorithm value : String)
  byteSize : ℕ
  deriving DecidableEq

end Content
