import GovAI.Audit.Event
import GovAI.Json.Value
import GovAI.Library.Fallible
import GovAI.Library.TxProgram

/-!
# The tables of the governance workflows

The rows of `0023_regulatory_high_risk_review_workflow.sql` and of
`0024_regulatory_prohibited_use_governance_workflow.sql`.  High-risk reviews and prohibited-use cases
have tables of the same shape, so that a row of either is a subject of one of two kinds: a case calls its
status `case_status`, its decisions determinations and the time of the final one `determined_at`.  The
database is a store of items: a row by its primary key, an entry of a unique index, and the policy chain
of a tenant.
-/

namespace GovAI

/-! ## Calls

Every function of `regulatory/service.ts` runs in a transaction of `runTenant`, for the tenant and the
user of the caller, and ends with a row or with an error that rolls the transaction back. -/

/-- `Ctx`: the actor of a call, and the time at which its transaction has started (`now()`). -/
structure RegulatoryCtx where
  orgId : Uuid
  userId : Uuid
  now : ℤ
deriving DecidableEq

/-- How a call fails: with a `RegulatoryError`, which the route answers with its status and its code,
or with an error of the database, which it rethrows. -/
inductive RegulatoryFailure where
  | regulatory (status : ℕ) (code : String)
  | database (constraint : String)
deriving DecidableEq

/-! ## Enumerated columns -/

/-- The two workflows. -/
inductive GovernanceKind where
  | review
  | useCase
deriving DecidableEq

/-- The values of `review_status` and of `case_status`. -/
inductive GovernanceStatus where
  | opened
  | inReview
  | changesRequested
  | approved
  | rejected
  | underReview
  | denied
  | falsePositive
  | cancelled
  | superseded
deriving DecidableEq

/-- The values of `decision` and of `determination`. -/
inductive Verdict where
  | approve
  | reject
  | requestChanges
  | prohibitedConfirmed
  | falsePositive
  | needsMoreInformation
deriving DecidableEq

/-- The values of `denial_posture`. -/
inductive DenialPosture where
  | hardDenyExpected
  | governanceDenyRecorded
  | monitoringOnly
  | notApplicable
deriving DecidableEq

/-- The values of `inherent_risk_tier` and of `residual_risk_tier`. -/
inductive RiskTier where
  | minimal
  | low
  | moderate
  | high
  | prohibited
  | unknown
deriving DecidableEq

/-- The values of `risk_posture` of a capability. -/
inductive RiskPosture where
  | low
  | moderate
  | high
  | prohibited
  | unknown
deriving DecidableEq

/-- The values of `reviewer_role`. -/
inductive ReviewerRole where
  | businessOwner
  | dpo
  | legal
  | security
  | compliance
  | technicalOwner
  | riskOwner
  | other
deriving DecidableEq

/-- The values of `evidence_status`. -/
inductive EvidenceStatus where
  | draft
  | submitted
  | accepted
  | rejected
  | superseded
deriving DecidableEq

/-- The values of `assignment_status`. -/
inductive AssignmentStatus where
  | assigned
  | acknowledged
  | completed
  | cancelled
deriving DecidableEq

/-- The text columns of a subject that a patch may set; each table has some of them. -/
inductive SummaryColumn where
  | rationaleSummary
  | evidenceSummary
  | reviewerGuidance
  | decisionSummary
  | denialSummary
  | reviewNotes
deriving DecidableEq

/-- A `metadata` column. -/
abbrev Metadata : Type := List (String × JsonValue)

/-- `metadata || patch`. -/
def Metadata.merge (metadata patch : Metadata) : Metadata :=
  metadata.filter (fun e => ∀ e' ∈ patch, e'.1 ≠ e.1) ++ patch

/-! ## Statuses -/

namespace GovernanceStatus

/-- `TERMINAL_REVIEW_STATUSES` and `TERMINAL_PROHIBITED_USE_STATUSES`. -/
def terminal : GovernanceStatus → Bool
  | approved | rejected | denied | falsePositive | cancelled | superseded => true
  | opened | inReview | changesRequested | underReview => false

/-- The statuses that a final decision leads to. -/
def decided : GovernanceStatus → Bool
  | approved | rejected | denied | falsePositive => true
  | opened | inReview | changesRequested | underReview | cancelled | superseded => false

end GovernanceStatus

namespace Verdict

/-- The status that a decision leads to. -/
def status : Verdict → GovernanceStatus
  | approve => .approved
  | reject => .rejected
  | requestChanges => .changesRequested
  | prohibitedConfirmed => .denied
  | falsePositive => .falsePositive
  | needsMoreInformation => .underReview

/-- The decisions of the indexes `…_one_final_uq`. -/
def final : Verdict → Bool
  | approve | reject | prohibitedConfirmed | falsePositive => true
  | requestChanges | needsMoreInformation => false

end Verdict

namespace GovernanceKind

/-- The values that the column `review_status` or `case_status` admits. -/
def admits : GovernanceKind → GovernanceStatus → Bool
  | review, .opened | review, .inReview | review, .changesRequested | review, .approved
  | review, .rejected | review, .cancelled | review, .superseded => true
  | useCase, .opened | useCase, .underReview | useCase, .denied | useCase, .falsePositive
  | useCase, .cancelled | useCase, .superseded => true
  | _, _ => false

/-- The values that the column `decision` or `determination` admits. -/
def admitsVerdict : GovernanceKind → Verdict → Bool
  | review, .approve | review, .reject | review, .requestChanges => true
  | useCase, .prohibitedConfirmed | useCase, .falsePositive | useCase, .needsMoreInformation => true
  | _, _ => false

/-- The statuses from which a subject may be submitted. -/
def submittable : GovernanceKind → GovernanceStatus → Bool
  | review, .opened | review, .changesRequested | useCase, .opened => true
  | _, _ => false

/-- The status of a submitted subject. -/
def submitted : GovernanceKind → GovernanceStatus
  | review => .inReview
  | useCase => .underReview

/-- The statuses in which a subject may be decided. -/
def decidable : GovernanceKind → GovernanceStatus → Bool
  | review, .inReview | review, .changesRequested | useCase, .underReview => true
  | _, _ => false

/-- The decisions that the requester may not make: all on a review, the final ones on a case. -/
def dutyBound : GovernanceKind → Verdict → Bool
  | review, _ => true
  | useCase, v => v.final

end GovernanceKind

/-! ## Rows -/

/-- What a classification says about a use case. -/
structure RiskSnapshot where
  inherentRiskTier : RiskTier
  residualRiskTier : RiskTier
  riskScore : ℕ
  residualRiskScore : ℕ
  requiresHighRiskReview : Bool
  requiresProhibitedUseReview : Bool
  riskMethodId : Uuid
  useCaseId : Uuid
  aiSystemId : Uuid
  useCaseAssetLinkId : Option Uuid
  modelId : Option Uuid
  modelVersionId : Option Uuid
  agentId : Option Uuid
  agentVersionId : Option Uuid
deriving DecidableEq

/-- What a capability binding says about an agent. -/
structure CapabilityBinding where
  agentId : Uuid
  agentVersionId : Option Uuid
  capabilityKey : String
  riskPosture : RiskPosture
  hardDenyFloorExpected : Bool
deriving DecidableEq

/-- The columns that only `regulatory_high_risk_reviews` has. -/
structure ReviewDetail where
  riskClassificationId : Uuid
  snapshot : RiskSnapshot
  requiredApproverCount : ℕ
  workroomId : Option Uuid
  workroomApprovalRequestId : Option Uuid
deriving DecidableEq

/-- The columns that only `regulatory_prohibited_use_cases` has; those of the snapshot are all `NULL`
without a classification, those of the capability without a binding. -/
structure CaseDetail where
  prohibitedUsePolicyId : Option Uuid
  riskClassificationId : Option Uuid
  snapshot : Option RiskSnapshot
  agentId : Option Uuid
  agentVersionId : Option Uuid
  agentCapabilityBindingId : Option Uuid
  capabilityKey : Option String
  capabilityRiskPosture : Option RiskPosture
  hardDenyFloorExpected : Option Bool
deriving DecidableEq

/-- The columns of one of the tables. -/
abbrev SubjectDetail : GovernanceKind → Type
  | .review => ReviewDetail
  | .useCase => CaseDetail

instance : ∀ k, DecidableEq (SubjectDetail k)
  | .review => inferInstanceAs (DecidableEq ReviewDetail)
  | .useCase => inferInstanceAs (DecidableEq CaseDetail)

/-- The columns of a subject that `…_guarded_update` does not let an update change. -/
structure SubjectIdentity (k : GovernanceKind) where
  orgId : Uuid
  key : String
  requesterUserId : Option Uuid
  requestedByParticipantId : Option Uuid
  createdByUserId : Option Uuid
  detail : SubjectDetail k
deriving DecidableEq

/-- A row of `regulatory_high_risk_reviews` or of `regulatory_prohibited_use_cases`.  A review has no
`denial_posture`. -/
structure SubjectRow (k : GovernanceKind) where
  identity : SubjectIdentity k
  status : GovernanceStatus
  denialPosture : Option DenialPosture
  supersededById : Option Uuid
  cancellationReason : Option String
  dueAt : Option ℤ
  submittedAt : Option ℤ
  decidedAt : Option ℤ
  cancelledAt : Option ℤ
  summary : SummaryColumn → String
  metadata : Metadata
  updatedByUserId : Option Uuid

/-- The tenant of a subject. -/
abbrev SubjectRow.orgId {k : GovernanceKind} (row : SubjectRow k) : Uuid := row.identity.orgId

/-- The values of a row of `…_review_decisions` or of `…_use_determinations` that come from the
request.  A determination has a denial posture, required controls and perhaps a reference; a decision
has conditions and perhaps an expiry. -/
structure VerdictInput where
  verdict : Verdict
  denialPosture : Option DenialPosture
  rationale : String
  participantId : Option Uuid
  reviewerRole : ReviewerRole
  evidenceSnapshotSummary : String
  conditionsSummary : String
  expiryAt : Option ℤ
  futureEnforcementReference : Option String
  metadata : Metadata

/-- A decision or determination. -/
structure VerdictRow where
  orgId : Uuid
  subjectId : Uuid
  decidedByUserId : Option Uuid
  input : VerdictInput

/-- The values of an evidence row that a patch may set. -/
structure EvidenceContent where
  status : EvidenceStatus
  title : String
  summary : String
  evidenceReference : Option String
  sourceUri : Option String
  sourceHash : Option String
  regulatorySourceId : Option Uuid
  controlId : Option Uuid
  metadata : Metadata

/-- A row of `…_review_evidence` or of `…_use_evidence`. -/
structure EvidenceRow where
  orgId : Uuid
  subjectId : Uuid
  evidenceKey : String
  content : EvidenceContent
  createdByUserId : Option Uuid
  updatedByUserId : Option Uuid

/-- A row of `regulatory_high_risk_review_assignments`. -/
structure AssignmentRow where
  orgId : Uuid
  subjectId : Uuid
  assigneeUserId : Option Uuid
  assigneeParticipantId : Option Uuid
  reviewerRole : ReviewerRole
  status : AssignmentStatus
  assignedByUserId : Option Uuid
  acknowledgedAt : Option ℤ
  completedAt : Option ℤ
  metadata : Metadata

/-- The tables that the workflows only read. -/
inductive ReferenceTable where
  | riskClassification
  | agentCapabilityBinding
  | prohibitedUsePolicy
  | workroom
  | workroomApprovalRequest
  | workroomParticipant
  | regulatorySource
  | control
deriving DecidableEq

/-- The columns of such a table that are read: approval requests and participants belong to a
workroom. -/
abbrev ReferenceData : ReferenceTable → Type
  | .riskClassification => RiskSnapshot
  | .agentCapabilityBinding => CapabilityBinding
  | .workroomApprovalRequest => Uuid
  | .workroomParticipant => Uuid
  | .prohibitedUsePolicy => Unit
  | .workroom => Unit
  | .regulatorySource => Unit
  | .control => Unit

/-- A row of such a table; sources and controls of the system have no organisation. -/
structure ReferenceRow (t : ReferenceTable) where
  orgId : Option Uuid
  data : ReferenceData t

/-! ## Events -/

/-- The events that are appended to the policy chain of the tenant, with the row after the change. -/
inductive GovernanceEvent where
  | created (k : GovernanceKind) (id : Uuid) (row : SubjectRow k)
  | updated (k : GovernanceKind) (id : Uuid) (row : SubjectRow k)
  | submitted (k : GovernanceKind) (id : Uuid) (row : SubjectRow k) (previous : GovernanceStatus)
  | cancelled (k : GovernanceKind) (id : Uuid) (row : SubjectRow k) (previous : GovernanceStatus)
      (cancellationReason : String)
  | verdictCreated (k : GovernanceKind) (verdictId id : Uuid) (verdict : VerdictRow)
      (row : SubjectRow k)
  | decided (k : GovernanceKind) (id : Uuid) (row : SubjectRow k) (verdict : VerdictRow)
      (previous : GovernanceStatus)
  | statusChanged (k : GovernanceKind) (id : Uuid) (row : SubjectRow k)
      (previous : GovernanceStatus)
  | evidenceCreated (k : GovernanceKind) (evidenceId : Uuid) (row : EvidenceRow)
  | evidenceUpdated (k : GovernanceKind) (evidenceId : Uuid) (row : EvidenceRow)
      (previous : Option EvidenceStatus)
  | evidenceStatusChanged (k : GovernanceKind) (evidenceId : Uuid) (row : EvidenceRow)
      (previous : EvidenceStatus)
  | assignmentCreated (assignmentId : Uuid) (row : AssignmentRow)
  | assignmentUpdated (assignmentId : Uuid) (row : AssignmentRow)
      (previous : Option AssignmentStatus)
  | assignmentStatusChanged (assignmentId : Uuid) (row : AssignmentRow)
      (previous : AssignmentStatus)

/-! ## The store -/

/-- What an active subject is the only one for. -/
inductive Anchor where
  | classification (id : Uuid)
  | binding (id : Uuid)
deriving DecidableEq

/-- The items of the store: rows, the policy chain of a tenant, and the entries of the unique indexes
`…_tenant_key_uq`, `…_one_active_per_…_idx`, `…_one_final_uq`, `…_evidence_uq` and
`…_assignments_active_…_uq`. -/
inductive GovernanceItem where
  | subject (k : GovernanceKind) (id : Uuid)
  | verdict (k : GovernanceKind) (id : Uuid)
  | evidence (k : GovernanceKind) (id : Uuid)
  | assignment (id : Uuid)
  | reference (t : ReferenceTable) (id : Uuid)
  | chain (orgId : Uuid)
  | subjectKey (k : GovernanceKind) (orgId : Uuid) (key : String)
  | active (k : GovernanceKind) (orgId : Uuid) (anchor : Anchor)
  | finalVerdict (k : GovernanceKind) (orgId subjectId : Uuid)
  | evidenceKey (k : GovernanceKind) (orgId subjectId : Uuid) (key : String)
  | activeUser (orgId subjectId : Uuid) (role : ReviewerRole) (userId : Uuid)
  | activeParticipant (orgId subjectId : Uuid) (role : ReviewerRole) (participantId : Uuid)
deriving DecidableEq

/-- What an item holds. -/
abbrev GovernanceItem.Val : GovernanceItem → Type
  | subject k _ => Option (SubjectRow k)
  | verdict _ _ => Option VerdictRow
  | evidence _ _ => Option EvidenceRow
  | assignment _ => Option AssignmentRow
  | reference t _ => Option (ReferenceRow t)
  | chain _ => List GovernanceEvent
  | subjectKey _ _ _ => Option Uuid
  | active _ _ _ => Option Uuid
  | finalVerdict _ _ _ => Option Uuid
  | evidenceKey _ _ _ _ => Option Uuid
  | activeUser _ _ _ _ => Option Uuid
  | activeParticipant _ _ _ _ => Option Uuid

/-- The tables of the workflows. -/
abbrev GovernanceDb : Type := Store GovernanceItem.Val

/-- A transaction over these tables. -/
abbrev GovernanceTx (α : Type) : Type := TxProgram GovernanceItem.Val RegulatoryFailure α

end GovAI
