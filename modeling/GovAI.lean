import GovAI.Adapters.Chaining
import GovAI.Adapters.Truncation
import GovAI.Audit.CanonicalForm
import GovAI.Audit.ExplicitId
import GovAI.Audit.TailWindow
import GovAI.Audit.TamperEvidence
import GovAI.Capture.OutboxSystem
import GovAI.Capture.SealingSystem
import GovAI.Codex.SchemaAgreement
import GovAI.Console.History
import GovAI.Console.MessagesReading
import GovAI.Conversation.ContentCrypto
import GovAI.Conversation.Freshness
import GovAI.Conversation.Hydration
import GovAI.Conversation.OutputFence
import GovAI.Conversation.Projection
import GovAI.Conversation.Replayable
import GovAI.Conversation.Schedules
import GovAI.Conversation.Sweep
import GovAI.Dispatch.Consumption
import GovAI.Dispatch.Duplicate
import GovAI.Dispatch.Evidence
import GovAI.Dispatch.Intent
import GovAI.Dispatch.RecoverySweep
import GovAI.Dlp.Actions
import GovAI.Dlp.BaselineDetectors
import GovAI.Dlp.Precedence
import GovAI.Dlp.Redaction
import GovAI.Evidence.Parity
import GovAI.Governance.Resolve
import GovAI.Governance.SegmentedText
import GovAI.Kms.SeedTiming
import GovAI.Library.KeysetPaging
import GovAI.Library.LockedTransactions
import GovAI.Library.MaskedNumber
import GovAI.Paging.ConversationList
import GovAI.Paging.RegulatoryLists
import GovAI.Parity.Format
import GovAI.Pool.Reuse
import GovAI.Provider.ExtractText
import GovAI.Provider.TerminalEmit
import GovAI.Regulatory.Attachments
import GovAI.Regulatory.Creation
import GovAI.Regulatory.History
import GovAI.Regulatory.Sources
import GovAI.Workroom.AuditSubview
import GovAI.Workroom.Separation
