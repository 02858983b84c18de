import GovAI.Workroom.Approvals

/-!
# The preparation of a run

The transactions TX-A of `run-orchestrator.ts`, which insert the run row, reserve its idempotency key
and commit either a policy denial or a run that is ready to be dispatched.  What the capability
registry, the detectors and the policy answer is an argument.
-/

namespace GovAI

open TxProgram

/-! ## The run row -/

/-- Token, claim and deadline are set. -/
def RunRow.Claimed (r : RunRow) : Prop :=
  r.dispatchToken ≠ none ∧ r.dispatchClaimedAt ≠ none ∧ r.dispatchDeadlineAt ≠ none

/-- Token, claim and deadline are not set. -/
def RunRow.Unclaimed (r : RunRow) : Prop :=
  r.dispatchToken = none ∧ r.dispatchClaimedAt = none ∧ r.dispatchDeadlineAt = none

/-- The seven arms of `runs_dispatch_v1_state_check`; a status other than `failed` has one. -/
def RunRow.StateArm (r : RunRow) : Prop :=
  match r.status with
  | .queued => r.Unclaimed ∧ r.startedAt = none ∧ r.completedAt = none ∧ r.outcomeUnknownAt = none
  | .running => r.Claimed ∧ r.dispatchTimeoutMs ≠ none ∧ r.startedAt ≠ none ∧
      r.completedAt = none ∧ r.outcomeUnknownAt = none
  | .completed => r.Claimed ∧ r.completedAt ≠ none ∧ r.dispatchBoundaryCommittedAt ≠ none
  | .outcomeUnknown => r.Claimed ∧ r.outcomeUnknownAt ≠ none ∧ r.completedAt = none ∧
      r.dispatchErrorClass ≠ none ∧ r.dispatchBoundaryCommittedAt ≠ none
  | .failed => (r.Unclaimed ∧ r.completedAt ≠ none ∧ r.dispatchErrorClass ≠ none ∧
      r.dispatchBoundaryCommittedAt = none) ∨ (r.Claimed ∧ r.completedAt ≠ none)
  | .denied => r.Claimed ∧ r.completedAt ≠ none

/-- `runs_dispatch_v1_state_check`. -/
def RunRow.StateCheck (r : RunRow) : Prop :=
  (r.dispatchProtocolVersion = none ∧ r.status ≠ .outcomeUnknown ∧
    r.dispatchBoundaryCommittedAt = none) ∨
  (r.dispatchProtocolVersion = some 1 ∧ r.dispatchPreparedAt ≠ none ∧
    (r.dispatchBoundaryCommittedAt = none ∨ (r.Claimed ∧ r.dispatchTimeoutMs ≠ none)) ∧ r.StateArm)

/-- `runs_dispatch_timeout_ms_check`. -/
def RunRow.TimeoutCheck (r : RunRow) : Prop := ∀ t ∈ r.dispatchTimeoutMs, 1000 ≤ t ∧ t ≤ 900000

instance (r : RunRow) : Decidable r.Claimed := by unfold RunRow.Claimed; infer_instance

instance (r : RunRow) : Decidable r.Unclaimed := by unfold RunRow.Unclaimed; infer_instance

instance (r : RunRow) : Decidable r.StateArm := by
  unfold RunRow.StateArm
  split <;> infer_instance

instance (r : RunRow) : Decidable r.StateCheck := by unfold RunRow.StateCheck; infer_instance

instance (r : RunRow) : Decidable r.TimeoutCheck := Option.decidableForallMem _

/-- Write a row of `runs`, under its constraints. -/
def writeRun (runId : Uuid) (row : RunRow) : WorkroomTx Unit := do
  failIf (¬row.StateCheck) "runs_dispatch_v1_state_check"
  failIf (¬row.TimeoutCheck) "runs_dispatch_timeout_ms_check"
  set (WorkroomItem.run runId) (some row)

/-- `INSERT INTO runs`. -/
def insertRun (runId : Uuid) (row : RunRow) : WorkroomTx Unit := do
  let existing ← lockItem (WorkroomItem.run runId)
  failIf (existing.isSome = true) "runs_pkey"
  writeRun runId row

/-! ## Requests -/

/-- `RunRequest`, with the provider that the capability names. -/
structure RunRequest where
  workspaceId : Uuid
  capability : String
  model : String
  input : String
  provider : String

/-- `WorkroomRunContext`, the columns that are read back. -/
structure WorkroomRunContext where
  workroomId : Uuid
  createdByParticipantId : Uuid

/-- `ResolvedIdempotencyContext`. -/
structure ResolvedIdempotencyContext where
  keyHash : Bytes
  intentHash : Bytes
  routeScope : RunRouteScope

/-- What a transaction is told by the outside: the id of the run and of its event, the clocks of the
database and of the process, and the error of the capability check or of the request builder. -/
structure RunDraw where
  runId : Uuid
  eventId : Uuid
  now : ℤ
  appNow : ℤ
  capabilityError : Option String

/-- The columns of a candidate run, still queued and without a protocol version. -/
def candidateRun (identity : AuthIdentity) (body : RunRequest) (mode : RunMode)
    (ctx : Option WorkroomRunContext) (now : ℤ) : RunRow where
  orgId := identity.orgId
  actorUserId := identity.userId
  workspaceId := body.workspaceId
  provider := body.provider
  model := body.model
  mode := mode
  status := .queued
  createdAt := now
  workroomId := ctx.map WorkroomRunContext.workroomId
  createdByParticipantId := ctx.map WorkroomRunContext.createdByParticipantId

/-- `assertWorkroomRunContextStillValid`, for the participant; the task is checked likewise by the
request's own route. -/
def assertWorkroomRunContextStillValid (orgId : Uuid) :
    Option WorkroomRunContext → WorkroomTx Unit
  | none => pure ()
  | some ctx => do
    let participant ← read fun db => (db (.participant ctx.createdByParticipantId)).filter fun p =>
      p.orgId = orgId ∧ p.workroomId = ctx.workroomId ∧ p.status = .active
    failIf (participant = none) "workroom_participant_not_active"

/-- `reserveRunIdempotency`: `INSERT … ON CONFLICT DO NOTHING`. -/
def reserveRunIdempotency (orgId : Uuid) (idem : ResolvedIdempotencyContext) (runId : Uuid) :
    WorkroomTx Bool := do
  let existing ← lockItem (WorkroomItem.idempotency orgId idem.keyHash)
  if existing.isSome then
    pure false
  else do
    set (WorkroomItem.idempotency orgId idem.keyHash)
      (some ⟨idem.intentHash, idem.routeScope, runId⟩)
    pure true

/-- `reserveOrSignalLoser`: a loser rolls its candidate back. -/
def reserveOrSignalLoser (orgId : Uuid) (idem : ResolvedIdempotencyContext) (runId : Uuid) :
    WorkroomTx Unit := do
  let won ← reserveRunIdempotency orgId idem runId
  failIf (won = false) "RunIdempotencyLoserSignal"

/-- The reservation of a keyed request. -/
def reserveKey (orgId : Uuid) (idem : Option ResolvedIdempotencyContext) (runId : Uuid) :
    WorkroomTx Unit :=
  match idem with
  | some idem => reserveOrSignalLoser orgId idem runId
  | none => pure ()

/-! ## Events and turns -/

/-- `DispatchEventContext`. -/
structure DispatchEventContext where
  orgId : Uuid
  runId : Uuid
  workroom : Option WorkroomRunContext

/-- The chain of a run's events. -/
def DispatchEventContext.chainId (ctx : DispatchEventContext) : ChainId := chainIdFor ctx.orgId .run

/-- `maybeEnsureTurn`. -/
def maybeEnsureTurn (ctx : DispatchEventContext) (auditEventId : Uuid) : WorkroomTx Unit :=
  match ctx.workroom with
  | none => pure ()
  | some w => do
    let _ ← ensureRunEventTurn w.workroomId w.createdByParticipantId ctx.runId auditEventId
    pure ()

/-- An event of the run's chain about the run. -/
def appendRunEvent (ctx : DispatchEventContext) (eventId : Uuid) (eventType : EventType)
    (occurredAt : ℤ) (redaction : EventMeta := {}) : WorkroomTx ChainEvent :=
  Workroom.auditAppend ctx.chainId eventId eventType ctx.runId occurredAt redaction

/-! ## TX-A -/

/-- What the policy says of the scanned input. -/
structure PolicyAnswer where
  deny : Bool
  findings : List String

/-- The error of the capability check or of the request builder. -/
def failWith (error : Option String) : WorkroomTx Unit :=
  match error with
  | some e => fail e
  | none => pure ()

/-- The events of a run that TX-A appends. -/
def preparationContext (identity : AuthIdentity) (ctx : Option WorkroomRunContext) (runId : Uuid) :
    DispatchEventContext :=
  ⟨identity.orgId, runId, ctx⟩

/-- `governedTxA`: the run is denied by policy, without protocol version, or prepared. -/
def governedTxA (identity : AuthIdentity) (body : RunRequest) (ctx : Option WorkroomRunContext)
    (idem : Option ResolvedIdempotencyContext) (answer : PolicyAnswer) (draw : RunDraw) :
    WorkroomTx RunStatus := do
  assertWorkroomRunContextStillValid identity.orgId ctx
  failWith draw.capabilityError
  insertRun draw.runId (candidateRun identity body .governed ctx draw.now)
  reserveKey identity.orgId idem draw.runId
  set (WorkroomItem.policyDecision draw.runId) (some ⟨answer.deny, answer.findings⟩)
  if answer.deny then do
    writeRun draw.runId { candidateRun identity body .governed ctx draw.now with
      status := .denied, completedAt := some draw.now }
    let event ← appendRunEvent (preparationContext identity ctx draw.runId) draw.eventId .runDenied
      draw.now
    maybeEnsureTurn (preparationContext identity ctx draw.runId) event.id
    pure .denied
  else do
    writeRun draw.runId { candidateRun identity body .governed ctx draw.now with
      dispatchProtocolVersion := some 1, dispatchPreparedAt := some draw.now }
    let _ ← appendRunEvent (preparationContext identity ctx draw.runId) draw.eventId
      .runDispatchPrepared draw.now
    pure .queued

/-- The action that the approval of a passthrough run must have been given for. -/
def RunRequest.intendedAction (body : RunRequest) : IntendedPassthroughAction :=
  ⟨body.capability, body.model, body.input, body.workspaceId⟩

/-- `assertApprovalConsumable`, called when there are an approval and a workroom. -/
def assertApprovalOf (sha256 : Bytes → Bytes) (orgId : Uuid) (body : RunRequest)
    (ctx : Option WorkroomRunContext) (approval : Option Uuid) (appNow : ℤ) : WorkroomTx Unit :=
  match approval, ctx with
  | some approvalRequestId, some ctx =>
    assertApprovalConsumable sha256 orgId ctx.workroomId approvalRequestId body.intendedAction appNow
  | _, _ => pure ()

/-- `consumeApproval`, called when there is an approval. -/
def consumeApprovalOf (approval : Option Uuid) (runId : Uuid) (now : ℤ) : WorkroomTx Unit :=
  match approval with
  | some approvalRequestId => consumeApproval approvalRequestId runId now
  | none => pure ()

/-- `passthroughTxA`: the approval is revalidated under its lock and consumed with the preparation;
with an idempotency key only the winner of the reservation locks it. -/
def passthroughTxA (sha256 : Bytes → Bytes) (identity : AuthIdentity) (body : RunRequest)
    (ctx : Option WorkroomRunContext) (approval : Option Uuid)
    (idem : Option ResolvedIdempotencyContext) (draw : RunDraw) : WorkroomTx RunStatus := do
  assertWorkroomRunContextStillValid identity.orgId ctx
  assertApprovalOf sha256 identity.orgId body ctx (if idem.isNone then approval else none) draw.appNow
  failWith draw.capabilityError
  insertRun draw.runId { candidateRun identity body .passthrough ctx draw.now with
    dispatchProtocolVersion := some 1, dispatchPreparedAt := some draw.now }
  reserveKey identity.orgId idem draw.runId
  assertApprovalOf sha256 identity.orgId body ctx (if idem.isSome then approval else none) draw.appNow
  consumeApprovalOf approval draw.runId draw.now
  let _ ← appendRunEvent (preparationContext identity ctx draw.runId) draw.eventId
    .runDispatchPrepared draw.now { approvalRequestId := approval }
  pure .queued

end GovAI
