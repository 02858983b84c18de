import GovAI.Workroom.Routes

/-!
# Approvals

The transactions of `workroom-approvals.ts` that write, and the two steps of `run-orchestrator.ts` by
which a passthrough run consumes a granted request: `assertApprovalConsumable`, under the lock of the
row, and `consumeApproval`.
-/

namespace GovAI

open TxProgram

/-! ## The intended action -/

/-- `IntendedPassthroughAction`; the workspace is a uuid. -/
structure IntendedPassthroughAction where
  capability : String
  model : String
  input : String
  workspaceId : Uuid
deriving DecidableEq

/-- `canonicalizeIntendedAction`: the properties in the order of their names. -/
def canonicalizeIntendedAction (action : IntendedPassthroughAction) : List Char :=
  let text (s : String) : List Char := quoteString (jsString s)
  let property (name value : String) : List Char := text name ++ [':'] ++ text value
  ['{'] ++ joinComma [property "capability" action.capability, property "input" action.input,
    property "mode" "passthrough", property "model" action.model,
    property "workspace_id" action.workspaceId.toText] ++ ['}']

/-- `intendedActionHash`. -/
def intendedActionHash (sha256 : Bytes → Bytes) (action : IntendedPassthroughAction) : Bytes :=
  sha256 (utf8Bytes (canonicalizeIntendedAction action))

/-! ## Requests -/

/-- `CreateApprovalBody`. -/
structure CreateApprovalBody where
  capability : String
  model : String
  input : String
  riskClass : Option RiskClass
  expiresAt : Option ℤ

/-- `POST /v1/workrooms/:id/approvals`. -/
def requestApproval (sha256 : Bytes → Bytes) (identity : AuthIdentity) (workroomId : Uuid)
    (body : CreateApprovalBody) (approvalRequestId eventId : Uuid) (occurredAt : ℤ) :
    WorkroomTx Unit := do
  let workroom ← read (getWorkroom identity.orgId workroomId)
  let workroom ← orFail "workroom_not_found" workroom
  let participant ← read (getActiveHumanParticipant identity.orgId workroomId identity.userId)
  let participant ← orFail "forbidden" participant
  let actionHash := intendedActionHash sha256
    ⟨body.capability, body.model, body.input, workroom.workspaceId⟩
  let turnNumber ← nextTurnNumber workroomId
  let event ← Workroom.auditAppend (chainIdFor identity.orgId .policy) eventId
    .workroomApprovalRequested approvalRequestId occurredAt
  insertWorkroomTurn workroomId
    ⟨turnNumber, some participant.id, .approvalRequest, event.id, some approvalRequestId⟩
  let existing ← lockItem (WorkroomItem.approval approvalRequestId)
  failIf (existing.isSome = true) "workroom_approval_requests_pkey"
  set (WorkroomItem.approval approvalRequestId) (some
    { orgId := identity.orgId
      workroomId := workroomId
      requestedByParticipantId := participant.id
      riskClass := body.riskClass
      status := .pending
      intendedActionHash := actionHash
      workroomGovernanceMode := workroom.governanceMode
      expiresAt := body.expiresAt
      decidedAt := none
      consumedRunId := none
      consumedAt := none
      requestedAuditEventId := event.id })

/-! ## Decisions -/

/-- `SELECT … FROM workroom_approval_requests WHERE id AND workroom_id FOR UPDATE`. -/
def lockApprovalRequest (orgId workroomId approvalId : Uuid) : WorkroomTx ApprovalRow := do
  let row ← lockItem (WorkroomItem.approval approvalId)
  orFail "approval_request_not_found"
    (row.filter fun r => r.orgId = orgId ∧ r.workroomId = workroomId)

/-- `DecisionBody`. -/
structure DecisionBody where
  decision : ApprovalOutcome
  reason : Option String

/-- The event type of a decision. -/
def ApprovalOutcome.eventType : ApprovalOutcome → EventType
  | granted => .workroomApprovalGranted
  | denied => .workroomApprovalDenied

/-- `INSERT INTO workroom_approval_decisions`, with the unique `approval_request_id`, the check on
the reason and `workroom_approval_decisions_sod`. -/
def insertDecision (approvalId : Uuid) (row : DecisionRow) : WorkroomTx Unit := do
  failIf (row.decision = .denied ∧ row.reason = none) "workroom_approval_decisions_check"
  let requester ← read fun db =>
    (db (.approval approvalId)).map ApprovalRow.requestedByParticipantId
  failIf (requester = some row.decidedByParticipantId)
    "workroom_approval_decisions: separation of duties violated"
  let existing ← lockItem (WorkroomItem.decision approvalId)
  failIf (existing.isSome = true) "workroom_approval_decisions_approval_request_id_key"
  set (WorkroomItem.decision approvalId) (some row)

/-- `POST /v1/workrooms/:id/approvals/:approvalId/decisions`. -/
def decideApproval (identity : AuthIdentity) (workroomId approvalId : Uuid) (body : DecisionBody)
    (decisionId eventId : Uuid) (now occurredAt : ℤ) : WorkroomTx Unit := do
  failIf (body.decision = .denied ∧ (body.reason.getD "").length = 0) "reason_required_for_denial"
  let workroom ← read (getWorkroom identity.orgId workroomId)
  let _ ← orFail "workroom_not_found" workroom
  let decider ← read (getActiveHumanParticipant identity.orgId workroomId identity.userId)
  let decider ← orFail "forbidden" decider
  failIf (decider.role ≠ .humanOwner ∧ decider.role ≠ .humanApprover) "forbidden"
  let request ← lockApprovalRequest identity.orgId workroomId approvalId
  failIf (request.status ≠ .pending) "workroom_approval_not_pending"
  failIf (request.expiresAt.any (fun t => t ≤ now) = true) "workroom_approval_expired"
  failIf (request.requestedByParticipantId = decider.id) "workroom_separation_of_duties"
  let turnNumber ← nextTurnNumber workroomId
  let event ← Workroom.auditAppend (chainIdFor identity.orgId .policy) eventId
    body.decision.eventType decisionId occurredAt { approvalRequestId := some approvalId }
  insertDecision approvalId ⟨decisionId, decider.id, body.decision, body.reason, event.id⟩
  set (WorkroomItem.approval approvalId)
    (some { request with status := body.decision.status, decidedAt := some occurredAt })
  insertWorkroomTurn workroomId
    ⟨turnNumber, some decider.id, .approvalDecision, event.id, some decisionId⟩

/-- `POST /v1/workrooms/:id/approvals/:approvalId/revoke`. -/
def revokeApproval (identity : AuthIdentity) (workroomId approvalId eventId : Uuid)
    (occurredAt : ℤ) : WorkroomTx Unit := do
  let workroom ← read (getWorkroom identity.orgId workroomId)
  let _ ← orFail "workroom_not_found" workroom
  let revoker ← read (getActiveHumanParticipant identity.orgId workroomId identity.userId)
  let revoker ← orFail "forbidden" revoker
  let request ← lockApprovalRequest identity.orgId workroomId approvalId
  failIf (request.status ≠ .pending) "workroom_approval_not_pending"
  failIf (request.requestedByParticipantId ≠ revoker.id ∧ revoker.role ≠ .humanOwner) "forbidden"
  let turnNumber ← nextTurnNumber workroomId
  let event ← Workroom.auditAppend (chainIdFor identity.orgId .policy) eventId
    .workroomApprovalRevoked approvalId occurredAt { approvalRequestId := some approvalId }
  set (WorkroomItem.approval approvalId)
    (some { request with status := .revoked, decidedAt := some occurredAt })
  insertWorkroomTurn workroomId
    ⟨turnNumber, some revoker.id, .approvalDecision, event.id, some approvalId⟩

/-! ## Consumption -/

/-- `validateApprovalForRun`: the code of the error, or none. -/
def validateApprovalForRun (sha256 : Bytes → Bytes) (row : Option ApprovalRow) (workroomId : Uuid)
    (action : IntendedPassthroughAction) (now : ℤ) : Except String Unit :=
  match row with
  | none => .error "workroom_approval_not_found"
  | some row => do
    rejectIf (row.workroomId ≠ workroomId) "workroom_approval_wrong_workroom"
    rejectIf (row.consumedAt ≠ none) "workroom_approval_already_consumed"
    rejectIf (row.status = .revoked) "workroom_approval_revoked"
    rejectIf (row.status = .denied) "workroom_approval_denied"
    rejectIf (row.status = .expired) "workroom_approval_expired"
    rejectIf (row.status ≠ .granted) "workroom_approval_not_granted"
    rejectIf (row.expiresAt.any (fun t => t ≤ now) = true) "workroom_approval_expired"
    rejectIf (row.intendedActionHash ≠ intendedActionHash sha256 action)
      "workroom_approval_subject_mismatch"

/-- `assertApprovalConsumable`. -/
def assertApprovalConsumable (sha256 : Bytes → Bytes) (orgId workroomId approvalRequestId : Uuid)
    (action : IntendedPassthroughAction) (now : ℤ) : WorkroomTx Unit := do
  let row ← lockItem (WorkroomItem.approval approvalRequestId)
  ofExcept (validateApprovalForRun sha256 (row.filter fun r => r.orgId = orgId) workroomId action now)

/-- `consumeApproval`. -/
def consumeApproval (approvalRequestId runId : Uuid) (now : ℤ) : WorkroomTx Unit := do
  let row ← lockItem (WorkroomItem.approval approvalRequestId)
  let row ← orFail "workroom_approval_already_consumed" (row.filter fun r => r.consumedAt = none)
  set (WorkroomItem.approval approvalRequestId)
    (some { row with consumedRunId := some runId, consumedAt := some now })

end GovAI
