import GovAI.Regulatory.Workflow

/-!
# Evidence and assignments

The children of a subject that may be changed.  Each call reads the status of the subject before it
writes the child; an insert is also seen by the trigger, an update is not.
-/

namespace GovAI

open TxProgram
open scoped OptionConditions

/-! ## Evidence -/

/-- `requireVisibleParents`: the source and the control that an evidence row refers to. -/
def requireVisibleParents (ctx : RegulatoryCtx) (content : EvidenceContent) : GovernanceTx Unit := do
  let sourceVisible ← read fun db =>
    decide (∀ id ∈ content.regulatorySourceId, getVisibleReference .regulatorySource ctx id db ≠ none)
  failIf (sourceVisible = false) (.regulatory 404 "regulatory_source_not_found")
  let controlVisible ← read fun db =>
    decide (∀ id ∈ content.controlId, getVisibleReference .control ctx id db ≠ none)
  failIf (controlVisible = false) (.regulatory 404 "control_not_found")

/-- The policies of the inserts and of the updates of evidence. -/
def evidencePermitted (k : GovernanceKind) (ctx : RegulatoryCtx) (row : EvidenceRow)
    (db : GovernanceDb) : Bool :=
  decide (getVisibleSubject k ctx row.subjectId db ≠ none ∧
    (∀ id ∈ row.content.regulatorySourceId,
      getVisibleReference .regulatorySource ctx id db ≠ none) ∧
    ∀ id ∈ row.content.controlId, getVisibleReference .control ctx id db ≠ none)

/-- `INSERT INTO` the evidence of a subject. -/
def insertEvidence (k : GovernanceKind) (ctx : RegulatoryCtx) (id : Uuid) (row : EvidenceRow) :
    GovernanceTx Unit := do
  blockAfterTerminal k ctx row.subjectId
  let permitted ← read (evidencePermitted k ctx row)
  failIf (permitted = false) (.database "row-level security")
  let existing ← lockItem (GovernanceItem.evidence k id)
  failIf (existing.isSome = true) k.evidenceKeyConflict
  let owner ← lockItem (GovernanceItem.evidenceKey k row.orgId row.subjectId row.evidenceKey)
  failIf (owner.isSome = true) k.evidenceKeyConflict
  set (GovernanceItem.evidenceKey k row.orgId row.subjectId row.evidenceKey) (some id)
  set (GovernanceItem.evidence k id) (some row)

/-- New evidence, after the first read of the subject. -/
def createEvidenceSeen (k : GovernanceKind) (ctx : RegulatoryCtx) (subjectId id : Uuid) (key : String)
    (content : EvidenceContent) (visible : Option (SubjectRow k)) :
    GovernanceTx GovernanceOutcome := do
  let subject ← requireOpen visible
  requireVisibleParents ctx content
  insertEvidence k ctx id ⟨ctx.orgId, subjectId, key, content, some ctx.userId, some ctx.userId⟩
  appendAudit ctx (.evidenceCreated k id
    ⟨ctx.orgId, subjectId, key, content, some ctx.userId, some ctx.userId⟩)
  pure (.edited k subjectId (some subject.status))

/-- New evidence. -/
def createEvidence (k : GovernanceKind) (ctx : RegulatoryCtx) (subjectId id : Uuid) (key : String)
    (content : EvidenceContent) : GovernanceTx GovernanceOutcome := do
  let visible ← read (getVisibleSubject k ctx subjectId)
  createEvidenceSeen k ctx subjectId id key content visible

/-- `createHighRiskReviewEvidence`. -/
def createHighRiskReviewEvidence (ctx : RegulatoryCtx) (reviewId id : Uuid) (key : String)
    (content : EvidenceContent) : GovernanceTx GovernanceOutcome :=
  createEvidence .review ctx reviewId id key content

/-- `createProhibitedUseEvidence`. -/
def createProhibitedUseEvidence (ctx : RegulatoryCtx) (caseId id : Uuid) (key : String)
    (content : EvidenceContent) : GovernanceTx GovernanceOutcome :=
  createEvidence .useCase ctx caseId id key content

/-- `UpdateHighRiskReviewEvidenceInput` and `UpdateProhibitedUseEvidenceInput`. -/
structure EvidencePatch where
  status : Option EvidenceStatus
  title : Option String
  summary : Option String
  evidenceReference : Option (Option String)
  sourceUri : Option (Option String)
  sourceHash : Option (Option String)
  regulatorySourceId : Option (Option Uuid)
  controlId : Option (Option Uuid)
  metadata : Option Metadata

/-- The content with the given fields replaced. -/
def EvidencePatch.assign (patch : EvidencePatch) (content : EvidenceContent) : EvidenceContent :=
  ⟨patch.status.getD content.status, patch.title.getD content.title,
    patch.summary.getD content.summary, patch.evidenceReference.getD content.evidenceReference,
    patch.sourceUri.getD content.sourceUri, patch.sourceHash.getD content.sourceHash,
    patch.regulatorySourceId.getD content.regulatorySourceId,
    patch.controlId.getD content.controlId, patch.metadata.getD content.metadata⟩

/-- `getVisibleHighRiskReviewEvidence` and `getVisibleProhibitedUseEvidence`. -/
def getVisibleEvidence (k : GovernanceKind) (ctx : RegulatoryCtx) (id : Uuid) (db : GovernanceDb) :
    Option EvidenceRow :=
  (db (.evidence k id)).filter fun row => row.orgId = ctx.orgId

/-- The check of a source or a control that is given. -/
def requireNewParents (ctx : RegulatoryCtx) (patch : EvidencePatch) (content : EvidenceContent) :
    GovernanceTx Unit :=
  if patch.regulatorySourceId ≠ none ∨ patch.controlId ≠ none then
    requireVisibleParents ctx (patch.assign content)
  else pure ()

/-- `UPDATE` of an evidence row. -/
def writeEvidence (k : GovernanceKind) (ctx : RegulatoryCtx) (id : Uuid) (patch : EvidencePatch) :
    GovernanceTx EvidenceRow := do
  let current ← lockItem (GovernanceItem.evidence k id)
  let row ← orFail k.evidenceNotFound (current.filter fun row => row.orgId = ctx.orgId)
  let permitted ← read (evidencePermitted k ctx
    { row with content := patch.assign row.content, updatedByUserId := some ctx.userId })
  failIf (permitted = false) (.database "row-level security")
  set (GovernanceItem.evidence k id)
    (some { row with content := patch.assign row.content, updatedByUserId := some ctx.userId })
  pure { row with content := patch.assign row.content, updatedByUserId := some ctx.userId }

/-- The events of an update of evidence. -/
def appendEvidenceUpdated (k : GovernanceKind) (ctx : RegulatoryCtx) (id : Uuid) (row : EvidenceRow)
    (status : Option EvidenceStatus) (previous : EvidenceStatus) : GovernanceTx Unit :=
  if ∃ st ∈ status, st ≠ previous then do
    appendAudit ctx (.evidenceUpdated k id row (some previous))
    appendAudit ctx (.evidenceStatusChanged k id row previous)
  else appendAudit ctx (.evidenceUpdated k id row none)

/-- A subject that is visible is not terminal. -/
def requireNotTerminal {k : GovernanceKind} (visible : Option (SubjectRow k)) : GovernanceTx Unit :=
  failIf (∃ row ∈ visible, row.status.terminal = true) k.isTerminal

/-- An update of evidence, after the first read of the subject. -/
def updateEvidenceSeen (k : GovernanceKind) (ctx : RegulatoryCtx) (id : Uuid) (patch : EvidencePatch)
    (existing : EvidenceRow) (visible : Option (SubjectRow k)) : GovernanceTx GovernanceOutcome := do
  requireNotTerminal visible
  requireNewParents ctx patch existing.content
  let row ← writeEvidence k ctx id patch
  appendEvidenceUpdated k ctx id row patch.status existing.content.status
  pure (.edited k existing.subjectId (visible.map SubjectRow.status))

/-- An update of evidence. -/
def updateEvidence (k : GovernanceKind) (ctx : RegulatoryCtx) (id : Uuid) (patch : EvidencePatch) :
    GovernanceTx GovernanceOutcome := do
  let found ← read (getVisibleEvidence k ctx id)
  let existing ← orFail k.evidenceNotFound found
  let visible ← read (getVisibleSubject k ctx existing.subjectId)
  updateEvidenceSeen k ctx id patch existing visible

/-- `updateHighRiskReviewEvidence`. -/
def updateHighRiskReviewEvidence (ctx : RegulatoryCtx) (id : Uuid) (patch : EvidencePatch) :
    GovernanceTx GovernanceOutcome :=
  updateEvidence .review ctx id patch

/-- `updateProhibitedUseEvidence`. -/
def updateProhibitedUseEvidence (ctx : RegulatoryCtx) (id : Uuid) (patch : EvidencePatch) :
    GovernanceTx GovernanceOutcome :=
  updateEvidence .useCase ctx id patch

/-! ## Assignments -/

/-- The assignments that `…_assignments_active_user_uq` and `…_active_participant_uq` count. -/
def AssignmentStatus.active : AssignmentStatus → Bool
  | assigned | acknowledged => true
  | completed | cancelled => false

/-- The index entries of an assignment. -/
def AssignmentRow.entries (row : AssignmentRow) : List GovernanceItem :=
  (row.assigneeUserId.map (GovernanceItem.activeUser row.orgId row.subjectId row.reviewerRole)).toList ++
    (row.assigneeParticipantId.map
      (GovernanceItem.activeParticipant row.orgId row.subjectId row.reviewerRole)).toList

/-- One entry of these indexes becomes `owner`, after the check that it is free if there is a new
owner. -/
def setEntry (owner : Option Uuid) (duplicate : RegulatoryFailure) :
    GovernanceItem → GovernanceTx Unit
  | .activeUser orgId subjectId role userId => do
    let current ← lockItem (GovernanceItem.activeUser orgId subjectId role userId)
    failIf (owner.isSome = true ∧ current.isSome = true) duplicate
    set (GovernanceItem.activeUser orgId subjectId role userId) owner
  | .activeParticipant orgId subjectId role participantId => do
    let current ← lockItem (GovernanceItem.activeParticipant orgId subjectId role participantId)
    failIf (owner.isSome = true ∧ current.isSome = true) duplicate
    set (GovernanceItem.activeParticipant orgId subjectId role participantId) owner
  | _ => pure ()

/-- All entries of an assignment. -/
def setEntries (owner : Option Uuid) (duplicate : RegulatoryFailure) :
    List GovernanceItem → GovernanceTx Unit
  | [] => pure ()
  | i :: is => do
    setEntry owner duplicate i
    setEntries owner duplicate is

/-- The entries of an assignment whose status changes. -/
def reindexAssignment (id : Uuid) (row : AssignmentRow) (before after : Bool)
    (duplicate : RegulatoryFailure) : GovernanceTx Unit :=
  match before, after with
  | false, true => setEntries (some id) duplicate row.entries
  | true, false => setEntries none duplicate row.entries
  | _, _ => pure ()

/-- `CreateHighRiskReviewAssignmentInput`. -/
structure CreateAssignmentInput where
  assigneeUserId : Option Uuid
  assigneeParticipantId : Option Uuid
  reviewerRole : ReviewerRole
  assignmentStatus : AssignmentStatus
  metadata : Metadata
  assignee_required : assigneeUserId ≠ none ∨ assigneeParticipantId ≠ none

/-- The row that `createHighRiskReviewAssignment` inserts. -/
def newAssignment (ctx : RegulatoryCtx) (reviewId : Uuid) (input : CreateAssignmentInput) :
    AssignmentRow :=
  ⟨ctx.orgId, reviewId, input.assigneeUserId, input.assigneeParticipantId, input.reviewerRole,
    input.assignmentStatus, some ctx.userId, none, none, input.metadata⟩

/-- The code of a second active assignment. -/
def assignmentDuplicate : RegulatoryFailure :=
  .regulatory 409 "high_risk_review_assignment_active_duplicate"

/-- `INSERT INTO regulatory_high_risk_review_assignments`. -/
def insertAssignment (ctx : RegulatoryCtx) (id : Uuid) (row : AssignmentRow) : GovernanceTx Unit := do
  blockAfterTerminal .review ctx row.subjectId
  childVisible .review ctx row.subjectId row.assigneeParticipantId
  failIf (¬row.Checks) (.database "check")
  let existing ← lockItem (GovernanceItem.assignment id)
  failIf (existing.isSome = true) assignmentDuplicate
  set (GovernanceItem.assignment id) (some row)
  reindexAssignment id row false row.status.active assignmentDuplicate

/-- `createHighRiskReviewAssignment`, after its first read. -/
def createAssignmentSeen (ctx : RegulatoryCtx) (reviewId id : Uuid) (input : CreateAssignmentInput)
    (visible : Option (SubjectRow .review)) : GovernanceTx GovernanceOutcome := do
  let review ← requireOpen visible
  requireParticipant ctx review.identity.detail.workroomId input.assigneeParticipantId
  insertAssignment ctx id (newAssignment ctx reviewId input)
  appendAudit ctx (.assignmentCreated id (newAssignment ctx reviewId input))
  pure (.edited .review reviewId (some review.status))

/-- `createHighRiskReviewAssignment`. -/
def createHighRiskReviewAssignment (ctx : RegulatoryCtx) (reviewId id : Uuid)
    (input : CreateAssignmentInput) : GovernanceTx GovernanceOutcome := do
  let visible ← read (getVisibleSubject .review ctx reviewId)
  createAssignmentSeen ctx reviewId id input visible

/-- `UpdateHighRiskReviewAssignmentInput`. -/
structure AssignmentPatch where
  assignmentStatus : Option AssignmentStatus
  acknowledgedAt : Option (Option ℤ)
  completedAt : Option (Option ℤ)
  metadata : Option Metadata

/-- The row with the given columns replaced. -/
def AssignmentPatch.assign (patch : AssignmentPatch) (row : AssignmentRow) : AssignmentRow :=
  { row with
    status := patch.assignmentStatus.getD row.status
    acknowledgedAt := patch.acknowledgedAt.getD row.acknowledgedAt
    completedAt := patch.completedAt.getD row.completedAt
    metadata := patch.metadata.getD row.metadata }

/-- `getVisibleHighRiskReviewAssignment`. -/
def getVisibleAssignment (ctx : RegulatoryCtx) (id : Uuid) (db : GovernanceDb) :
    Option AssignmentRow :=
  (db (.assignment id)).filter fun row => row.orgId = ctx.orgId

/-- The code of an assignment that is not visible. -/
def assignmentNotFound : RegulatoryFailure :=
  .regulatory 404 "high_risk_review_assignment_not_found"

/-- `UPDATE regulatory_high_risk_review_assignments`. -/
def writeAssignment (ctx : RegulatoryCtx) (id : Uuid) (patch : AssignmentPatch) :
    GovernanceTx AssignmentRow := do
  let current ← lockItem (GovernanceItem.assignment id)
  let row ← orFail assignmentNotFound (current.filter fun row => row.orgId = ctx.orgId)
  let visible ← read (getVisibleSubject .review ctx row.subjectId)
  failIf (visible.isSome = false) (.database "row-level security")
  failIf (¬(patch.assign row).Checks) (.database "check")
  set (GovernanceItem.assignment id) (some (patch.assign row))
  reindexAssignment id row row.status.active (patch.assign row).status.active
    (.database "assignments_active_uq")
  pure (patch.assign row)

/-- The events of an update of an assignment. -/
def appendAssignmentUpdated (ctx : RegulatoryCtx) (id : Uuid) (row : AssignmentRow)
    (status : Option AssignmentStatus) (previous : AssignmentStatus) : GovernanceTx Unit :=
  if ∃ st ∈ status, st ≠ previous then do
    appendAudit ctx (.assignmentUpdated id row (some previous))
    appendAudit ctx (.assignmentStatusChanged id row previous)
  else appendAudit ctx (.assignmentUpdated id row none)

/-- `updateHighRiskReviewAssignment`, after the first read of the review. -/
def updateAssignmentSeen (ctx : RegulatoryCtx) (id : Uuid) (patch : AssignmentPatch)
    (existing : AssignmentRow) (visible : Option (SubjectRow .review)) :
    GovernanceTx GovernanceOutcome := do
  requireNotTerminal visible
  let row ← writeAssignment ctx id patch
  appendAssignmentUpdated ctx id row patch.assignmentStatus existing.status
  pure (.edited .review existing.subjectId (visible.map SubjectRow.status))

/-- `updateHighRiskReviewAssignment`. -/
def updateHighRiskReviewAssignment (ctx : RegulatoryCtx) (id : Uuid) (patch : AssignmentPatch) :
    GovernanceTx GovernanceOutcome := do
  let found ← read (getVisibleAssignment ctx id)
  let existing ← orFail assignmentNotFound found
  let visible ← read (getVisibleSubject .review ctx existing.subjectId)
  updateAssignmentSeen ctx id patch existing visible

end GovAI
