import AiForge.InferenceSpend
import AiForge.ApprovalDigest
import AiForge.OpenMessages
import AiForge.UsageViews
import AiForge.DecisionDigest
import AiForge.SummaryPreview
import AiForge.MemoryRecords
import AiForge.ProjectBacklog
import AiForge.ContextAdmitted
import AiForge.OpsSelection
import AiForge.EvidenceSeals
import AiForge.ReplayLimits
import AiForge.StoredEvents
import AiForge.DocumentReading
import AiForge.OpsPublication
import AiForge.OpsLogConsent
import AiForge.VideoReplay
import AiForge.KnowledgeUpdate
import AiForge.KnowledgeCitations
import AiForge.ProcessAuthority
import AiForge.ProcessLaunchStream
import AiForge.TranscriptStreaming
import AiForge.GrantRegistrySafety
import AiForge.ContextExactness
import AiForge.ConversationExactness
import AiForge.Utf8Checks
import AiForge.Sha256Standard
import AiForge.TaskDispatch
import AiForge.ApprovalOrder
import AiForge.CostMerge
import AiForge.CostEstimate
