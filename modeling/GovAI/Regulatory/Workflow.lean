import GovAI.Regulatory.Statements

/-!
# The operations of the governance workflows

The functions of `regulatory/service.ts` on high-risk reviews and on prohibited-use cases.  Each reads
the subject without a lock, checks its status, and then writes.  The functions of the two workflows are
instances of common ones, with the statuses, the decisions and the error codes of their kind.
-/

namespace GovAI

open TxProgram
open scoped OptionConditions

/-- What a call has done: it has created a subject, it has edited a subject or its children, or it has
moved a subject.  With it goes the status that its first read of the subject has answered. -/
inductive GovernanceOutcome where
  | created (k : GovernanceKind) (id : Uuid)
  | edited (k : GovernanceKind) (id : Uuid) (observed : Option GovernanceStatus)
  | moved (k : GovernanceKind) (id : Uuid) (observed : GovernanceStatus)
  | other
deriving DecidableEq

/-! ## Error codes -/

namespace GovernanceKind

/-- `…_not_found`. -/
def notFound : GovernanceKind → RegulatoryFailure
  | review => .regulatory 404 "high_risk_review_not_found"
  | useCase => .regulatory 404 "prohibited_use_case_not_found"

/-- `…_terminal`. -/
def isTerminal : GovernanceKind → RegulatoryFailure
  | review => .regulatory 409 "high_risk_review_terminal"
  | useCase => .regulatory 409 "prohibited_use_case_terminal"

/-- `…_not_submittable`. -/
def notSubmittable : GovernanceKind → RegulatoryFailure
  | review => .regulatory 409 "high_risk_review_not_submittable"
  | useCase => .regulatory 409 "prohibited_use_case_not_submittable"

/-- `…_not_decidable`. -/
def notDecidable : GovernanceKind → RegulatoryFailure
  | review => .regulatory 409 "high_risk_review_not_decidable"
  | useCase => .regulatory 409 "prohibited_use_case_not_decidable"

/-- `superseded_by_…_not_found`. -/
def successorNotFound : GovernanceKind → RegulatoryFailure
  | review => .regulatory 404 "superseded_by_review_not_found"
  | useCase => .regulatory 404 "superseded_by_case_not_found"

/-- `…_sod_violation`. -/
def sodViolation : GovernanceKind → RegulatoryFailure
  | review => .regulatory 403 "high_risk_review_sod_violation"
  | useCase => .regulatory 403 "prohibited_use_determination_sod_violation"

/-- `…_final_decision_exists`, `…_final_determination_exists`. -/
def finalExists : GovernanceKind → RegulatoryFailure
  | review => .regulatory 409 "high_risk_review_final_decision_exists"
  | useCase => .regulatory 409 "prohibited_use_case_final_determination_exists"

/-- `…_evidence_not_found`. -/
def evidenceNotFound : GovernanceKind → RegulatoryFailure
  | review => .regulatory 404 "high_risk_review_evidence_not_found"
  | useCase => .regulatory 404 "prohibited_use_evidence_not_found"

/-- `…_evidence_key_conflict`. -/
def evidenceKeyConflict : GovernanceKind → RegulatoryFailure
  | review => .regulatory 409 "high_risk_review_evidence_key_conflict"
  | useCase => .regulatory 409 "prohibited_use_evidence_key_conflict"

end GovernanceKind

/-- The code for a denial posture that does not fit the determination. -/
def Verdict.postureMismatch : Verdict → RegulatoryFailure
  | .prohibitedConfirmed => .regulatory 400 "prohibited_confirmed_requires_deny_posture"
  | .falsePositive => .regulatory 400 "false_positive_requires_not_applicable_posture"
  | _ => .regulatory 400 "needs_more_information_requires_monitoring_or_not_applicable"

/-- The code for a posture that does not deny a prohibited capability. -/
def capabilityPosture : RegulatoryFailure :=
  .regulatory 400 "prohibited_capability_requires_deny_posture"

/-- The visible subject, unless it is terminal. -/
def requireOpen {k : GovernanceKind} (visible : Option (SubjectRow k)) :
    GovernanceTx (SubjectRow k) := do
  let existing ← orFail k.notFound visible
  failIf (existing.status.terminal = true) k.isTerminal
  pure existing

/-! ## Updates -/

/-- `UpdateHighRiskReviewInput` and `UpdateProhibitedUseCaseInput`: the fields that are given. -/
structure SubjectPatch where
  denialPosture : Option DenialPosture
  summary : SummaryColumn → Option String
  dueAt : Option (Option ℤ)
  supersededById : Option (Option Uuid)
  metadata : Option Metadata

/-- The row with the given columns replaced. -/
def SubjectPatch.assign {k : GovernanceKind} (patch : SubjectPatch) (ctx : RegulatoryCtx)
    (row : SubjectRow k) : SubjectRow k :=
  { row with
    denialPosture := patch.denialPosture.or row.denialPosture
    summary := fun c => (patch.summary c).getD (row.summary c)
    dueAt := patch.dueAt.getD row.dueAt
    supersededById := patch.supersededById.getD row.supersededById
    metadata := patch.metadata.getD row.metadata
    updatedByUserId := some ctx.userId }

/-- The new successor of a subject has to be visible. -/
def requireSuccessor (k : GovernanceKind) (ctx : RegulatoryCtx) :
    Option (Option Uuid) → GovernanceTx Unit
  | some (some successor) => do
    let next ← read (getVisibleSubject k ctx successor)
    failIf (next.isSome = false) k.successorNotFound
  | _ => pure ()

/-- An update of a subject, after its first read. -/
def updateSubjectSeen (k : GovernanceKind) (ctx : RegulatoryCtx) (id : Uuid) (patch : SubjectPatch)
    (visible : Option (SubjectRow k)) : GovernanceTx GovernanceOutcome := do
  let existing ← requireOpen visible
  requireSuccessor k ctx patch.supersededById
  failIf (SubjectDetail.capabilityProhibited existing.identity.detail = true ∧
    ∃ p ∈ patch.denialPosture, p.denies = false) capabilityPosture
  let row ← updateSubject k ctx id (patch.assign ctx) k.notFound
  appendAudit ctx (.updated k id row)
  pure (.edited k id (some existing.status))

/-- An update of a subject. -/
def updateSubjectFields (k : GovernanceKind) (ctx : RegulatoryCtx) (id : Uuid)
    (patch : SubjectPatch) : GovernanceTx GovernanceOutcome := do
  let visible ← read (getVisibleSubject k ctx id)
  updateSubjectSeen k ctx id patch visible

/-- `updateHighRiskReview`. -/
def updateHighRiskReview (ctx : RegulatoryCtx) (id : Uuid)
    (input : {patch : SubjectPatch // patch.denialPosture = none}) : GovernanceTx GovernanceOutcome :=
  updateSubjectFields .review ctx id input

/-- `updateProhibitedUseCase`. -/
def updateProhibitedUseCase (ctx : RegulatoryCtx) (id : Uuid) (input : SubjectPatch) :
    GovernanceTx GovernanceOutcome :=
  updateSubjectFields .useCase ctx id input

/-! ## Submission and cancellation -/

/-- The columns of a submitted subject.  A review keeps the time of its first submission, a case takes
the last one. -/
def assignSubmitted {k : GovernanceKind} (ctx : RegulatoryCtx) (existing row : SubjectRow k) :
    SubjectRow k :=
  { row with
    status := k.submitted
    submittedAt :=
      if k = .useCase ∨ existing.submittedAt = none then some ctx.now else row.submittedAt
    updatedByUserId := some ctx.userId }

/-- A submission, after its first read. -/
def submitSubjectSeen (k : GovernanceKind) (ctx : RegulatoryCtx) (id : Uuid)
    (visible : Option (SubjectRow k)) : GovernanceTx GovernanceOutcome := do
  let existing ← requireOpen visible
  failIf (k.submittable existing.status = false) k.notSubmittable
  let row ← updateSubject k ctx id (assignSubmitted ctx existing) k.notFound
  appendAudit ctx (.submitted k id row existing.status)
  appendAudit ctx (.statusChanged k id row existing.status)
  pure (.moved k id existing.status)

/-- A submission. -/
def submitSubject (k : GovernanceKind) (ctx : RegulatoryCtx) (id : Uuid) :
    GovernanceTx GovernanceOutcome := do
  let visible ← read (getVisibleSubject k ctx id)
  submitSubjectSeen k ctx id visible

/-- `submitHighRiskReview`. -/
def submitHighRiskReview (ctx : RegulatoryCtx) (id : Uuid) : GovernanceTx GovernanceOutcome :=
  submitSubject .review ctx id

/-- `submitProhibitedUseCase`. -/
def submitProhibitedUseCase (ctx : RegulatoryCtx) (id : Uuid) : GovernanceTx GovernanceOutcome :=
  submitSubject .useCase ctx id

/-- `CancelHighRiskReviewInput` and `CancelProhibitedUseCaseInput`. -/
structure CancelInput where
  cancellationReason : String
  metadata : Metadata
  nonempty : 0 < cancellationReason.length

/-- The columns of a cancelled subject. -/
def assignCancelled {k : GovernanceKind} (ctx : RegulatoryCtx) (input : CancelInput)
    (row : SubjectRow k) : SubjectRow k :=
  { row with
    status := .cancelled
    cancellationReason := some input.cancellationReason
    cancelledAt := some ctx.now
    metadata := row.metadata.merge input.metadata
    updatedByUserId := some ctx.userId }

/-- A cancellation, after its first read. -/
def cancelSubjectSeen (k : GovernanceKind) (ctx : RegulatoryCtx) (id : Uuid) (input : CancelInput)
    (visible : Option (SubjectRow k)) : GovernanceTx GovernanceOutcome := do
  let existing ← requireOpen visible
  let row ← updateSubject k ctx id (assignCancelled ctx input) k.notFound
  appendAudit ctx (.cancelled k id row existing.status input.cancellationReason)
  appendAudit ctx (.statusChanged k id row existing.status)
  pure (.moved k id existing.status)

/-- A cancellation. -/
def cancelSubject (k : GovernanceKind) (ctx : RegulatoryCtx) (id : Uuid) (input : CancelInput) :
    GovernanceTx GovernanceOutcome := do
  let visible ← read (getVisibleSubject k ctx id)
  cancelSubjectSeen k ctx id input visible

/-- `cancelHighRiskReview`. -/
def cancelHighRiskReview (ctx : RegulatoryCtx) (id : Uuid) (input : CancelInput) :
    GovernanceTx GovernanceOutcome :=
  cancelSubject .review ctx id input

/-- `cancelProhibitedUseCase`. -/
def cancelProhibitedUseCase (ctx : RegulatoryCtx) (id : Uuid) (input : CancelInput) :
    GovernanceTx GovernanceOutcome :=
  cancelSubject .useCase ctx id input

/-! ## Decisions -/

/-- The participant of a decision or of an assignment. -/
def requireParticipant (ctx : RegulatoryCtx) (workroomId : Option Uuid) :
    Option Uuid → GovernanceTx Unit
  | some id => do
    let visible ← read (getVisibleReference .workroomParticipant ctx id)
    let participant ← orFail (.regulatory 404 "workroom_participant_not_found") visible
    failIf (∃ w ∈ workroomId, participant.data ≠ w)
      (.regulatory 400 "workroom_participant_workroom_mismatch")
  | none => pure ()

/-- The columns of a decided subject. -/
def assignDecided {k : GovernanceKind} (ctx : RegulatoryCtx) (input : VerdictInput)
    (row : SubjectRow k) : SubjectRow k :=
  { row with
    status := input.verdict.status
    denialPosture := input.denialPosture.or row.denialPosture
    decidedAt := if input.verdict.final = true then some ctx.now else row.decidedAt
    updatedByUserId := some ctx.userId }

/-- The events of a decision; a determination logs a change of status only if there is one. -/
def appendDecided {k : GovernanceKind} (ctx : RegulatoryCtx) (verdictId id : Uuid)
    (verdict : VerdictRow) (row : SubjectRow k) (previous : GovernanceStatus) : GovernanceTx Unit := do
  appendAudit ctx (.verdictCreated k verdictId id verdict row)
  appendAudit ctx (.decided k id row verdict previous)
  if k = .review ∨ row.status ≠ previous then appendAudit ctx (.statusChanged k id row previous)
  else pure ()

/-- A decision, after its first read. -/
def createVerdictSeen (k : GovernanceKind) (ctx : RegulatoryCtx) (id verdictId : Uuid)
    (input : VerdictInput) (visible : Option (SubjectRow k)) : GovernanceTx GovernanceOutcome := do
  let existing ← requireOpen visible
  failIf (k.decidable existing.status = false) k.notDecidable
  failIf (k.dutyBound input.verdict = true ∧
    existing.DecidedByRequester ctx.userId input.participantId) k.sodViolation
  failIf (k = .useCase ∧ ∃ p ∈ input.denialPosture, input.verdict.admitsPosture p = false)
    input.verdict.postureMismatch
  requireParticipant ctx (SubjectDetail.workroomId? existing.identity.detail) input.participantId
  let verdict ← insertVerdict k ctx verdictId id input k.finalExists
  let row ← updateSubject k ctx id (assignDecided ctx input) (.database "TypeError")
  appendDecided ctx verdictId id verdict row existing.status
  pure (.moved k id existing.status)

/-- A decision. -/
def createVerdict (k : GovernanceKind) (ctx : RegulatoryCtx) (id verdictId : Uuid)
    (input : VerdictInput) : GovernanceTx GovernanceOutcome := do
  let visible ← read (getVisibleSubject k ctx id)
  createVerdictSeen k ctx id verdictId input visible

/-- `CreateHighRiskReviewDecisionInput`. -/
structure CreateHighRiskReviewDecisionInput extends VerdictInput where
  decision : GovernanceKind.review.admitsVerdict verdict = true
  noPosture : denialPosture = none
  rationale_required : verdict = .reject ∨ verdict = .requestChanges → 0 < rationale.length

/-- `createHighRiskReviewDecision`. -/
def createHighRiskReviewDecision (ctx : RegulatoryCtx) (reviewId decisionId : Uuid)
    (input : CreateHighRiskReviewDecisionInput) : GovernanceTx GovernanceOutcome :=
  createVerdict .review ctx reviewId decisionId input.toVerdictInput

/-- `CreateProhibitedUseDeterminationInput`. -/
structure CreateProhibitedUseDeterminationInput extends VerdictInput where
  determination : GovernanceKind.useCase.admitsVerdict verdict = true
  posture : denialPosture ≠ none
  rationale_required : verdict = .prohibitedConfirmed ∨ verdict = .falsePositive → 0 < rationale.length

/-- `createProhibitedUseDetermination`. -/
def createProhibitedUseDetermination (ctx : RegulatoryCtx) (caseId determinationId : Uuid)
    (input : CreateProhibitedUseDeterminationInput) : GovernanceTx GovernanceOutcome :=
  createVerdict .useCase ctx caseId determinationId input.toVerdictInput

end GovAI
