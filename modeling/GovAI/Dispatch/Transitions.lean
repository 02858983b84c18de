import GovAI.Dispatch.Preparation

/-!
# The transitions of a run

The transactions of `run-dispatch-state.ts`: claim, boundary, known and unknown outcomes, and the two
transitions of the recovery worker.  Times are microseconds of the database clock.
-/

namespace GovAI

open TxProgram

/-- The row that an `UPDATE runs … WHERE id = $1` of the tenant finds, with its lock. -/
def lockRun (ctx : DispatchEventContext) : WorkroomTx (Option RunRow) := do
  let row ← lockItem (WorkroomItem.run ctx.runId)
  pure (row.filter fun r => r.orgId = ctx.orgId)

/-! ## Claim -/

/-- `ClaimResult`. -/
inductive ClaimResult where
  | claimed (token : Uuid) (claimedAt deadlineAt : ℤ)
  | notClaimed (status : Option RunStatus)

/-- The row is queued under protocol 1 and nobody has claimed it. -/
def RunRow.Claimable (r : RunRow) : Prop :=
  r.status = .queued ∧ r.dispatchProtocolVersion = some 1 ∧ r.dispatchToken = none

instance (r : RunRow) : Decidable r.Claimable := by unfold RunRow.Claimable; infer_instance

/-- `claimDispatch`. -/
def claimDispatch (ctx : DispatchEventContext) (token eventId : Uuid) (timeoutMs now : ℤ) :
    WorkroomTx ClaimResult := do
  let row ← lockRun ctx
  match row.filter fun r => r.Claimable with
  | some r => do
    writeRun ctx.runId { r with
      status := .running
      dispatchToken := some token
      dispatchClaimedAt := some now
      startedAt := some now
      dispatchTimeoutMs := some timeoutMs
      dispatchDeadlineAt := some (now + 1000 * timeoutMs) }
    let _ ← appendRunEvent ctx eventId .runDispatchClaimed now
    pure (.claimed token now (now + 1000 * timeoutMs))
  | none => pure (.notClaimed (row.map RunRow.status))

/-! ## The boundary -/

/-- `BoundaryCommitFailureReason`. -/
inductive BoundaryCommitFailureReason where
  | wrongToken
  | notRunning
  | deadlineExpired
  | boundaryAlreadyCommitted
  | runMissing
deriving DecidableEq

/-- `BoundaryCommitResult`. -/
inductive BoundaryCommitResult where
  | committed (committedAt : ℤ)
  | notCommitted (reason : BoundaryCommitFailureReason)

/-- The claim `token` is live and has not crossed the boundary. -/
def RunRow.Crossable (r : RunRow) (token : Uuid) (clock : ℤ) : Prop :=
  r.dispatchToken = some token ∧ r.status = .running ∧ r.dispatchBoundaryCommittedAt = none ∧
    r.dispatchDeadlineAt.any (fun d => clock < d) = true

instance (r : RunRow) (token : Uuid) (clock : ℤ) : Decidable (r.Crossable token clock) := by
  unfold RunRow.Crossable; infer_instance

/-- `commitDispatchBoundary`; `clock` is the database clock at the statement. -/
def Dispatch.commitDispatchBoundary (ctx : DispatchEventContext) (token : Uuid) (clock : ℤ) :
    WorkroomTx BoundaryCommitResult := do
  let row ← lockRun ctx
  match row with
  | none => pure (.notCommitted .runMissing)
  | some r =>
    if r.Crossable token clock then do
      writeRun ctx.runId { r with dispatchBoundaryCommittedAt := some clock }
      pure (.committed clock)
    else if r.dispatchToken ≠ some token then
      pure (.notCommitted .wrongToken)
    else if r.dispatchBoundaryCommittedAt ≠ none then
      pure (.notCommitted .boundaryAlreadyCommitted)
    else if r.status ≠ .running then
      pure (.notCommitted .notRunning)
    else
      pure (.notCommitted .deadlineExpired)

/-- The claim `token` is running and has not crossed the boundary. -/
def RunRow.BeforeBoundary (r : RunRow) (token : Uuid) : Prop :=
  r.dispatchToken = some token ∧ r.status = .running ∧ r.dispatchBoundaryCommittedAt = none

instance (r : RunRow) (token : Uuid) : Decidable (r.BeforeBoundary token) := by
  unfold RunRow.BeforeBoundary; infer_instance

/-- The row of a run that ended before any provider call. -/
def RunRow.failedWith (r : RunRow) (errorClass : DispatchErrorClass) (now : ℤ) : RunRow :=
  { r with status := .failed, completedAt := some now, dispatchErrorClass := some errorClass }

/-- `failBoundaryNotEstablished`. -/
def failBoundaryNotEstablished (ctx : DispatchEventContext) (token eventId : Uuid) (now : ℤ) :
    WorkroomTx (Bool × Option RunStatus) := do
  let row ← lockRun ctx
  match row.filter fun r => r.BeforeBoundary token with
  | some r => do
    writeRun ctx.runId (r.failedWith .dispatchBoundaryPersistFailed now)
    let event ← appendRunEvent ctx eventId .runFailed now
      { errorClass := some "dispatch_boundary_persist_failed" }
    maybeEnsureTurn ctx event.id
    pure (true, some .failed)
  | none => pure (false, row.map RunRow.status)

/-! ## Failure before the claim -/

/-- `failPreclaim`. -/
def failPreclaim (ctx : DispatchEventContext) (eventId : Uuid) (message : JsString) (now : ℤ) :
    WorkroomTx Bool := do
  let row ← lockRun ctx
  match row.filter fun r => r.Claimable with
  | some r => do
    writeRun ctx.runId (r.failedWith .dispatchPreclaimFailed now)
    let event ← appendRunEvent ctx eventId .runFailed now
      { errorClass := some "dispatch_preclaim_failed", errorMessage := some (message.take 200) }
    maybeEnsureTurn ctx event.id
    pure true
  | none => pure false

/-! ## Invocations -/

/-- The request of an invocation, with the id that is drawn for a new row. -/
structure InvocationRequest where
  id : Uuid
  nativeEndpoint : String
  nativeRequestHash : Bytes

/-- `InvocationInsert`: a request, and its answer if there was one. -/
structure InvocationInsert extends InvocationRequest where
  nativeResponseHash : Option Bytes
  statusCode : Option ℕ

/-- The row that is inserted. -/
def InvocationInsert.row (inv : InvocationInsert) (now : ℤ) : InvocationRow :=
  ⟨inv.id, inv.nativeEndpoint, inv.nativeRequestHash, inv.nativeResponseHash, inv.statusCode, now⟩

/-- `insertOrReuseInvocation`: the row of `(run, token)`, which must carry the same request. -/
def insertOrReuseInvocation (ctx : DispatchEventContext) (token : Uuid) (inv : InvocationInsert)
    (now : ℤ) : WorkroomTx Uuid := do
  let existing ← lockItem (WorkroomItem.invocation ctx.runId token)
  match existing with
  | none => do
    set (WorkroomItem.invocation ctx.runId token) (some (inv.row now))
    pure inv.id
  | some row => do
    failIf (row.nativeEndpoint ≠ inv.nativeEndpoint ∨
      row.nativeRequestHash ≠ inv.nativeRequestHash) "DispatchOutcomeConflictError"
    pure row.id

/-! ## Unknown outcomes -/

/-- The classes that the executor gives an unknown outcome. -/
inductive UnknownClass where
  | providerTimeout
  | providerIoUnknown

/-- The class as a value of the column. -/
def UnknownClass.errorClass : UnknownClass → DispatchErrorClass
  | providerTimeout => .providerTimeout
  | providerIoUnknown => .providerIoUnknown

/-- The claim `token` is running and has crossed the boundary. -/
def RunRow.PastBoundary (r : RunRow) (token : Uuid) : Prop :=
  r.dispatchToken = some token ∧ r.status = .running ∧ r.dispatchBoundaryCommittedAt ≠ none

instance (r : RunRow) (token : Uuid) : Decidable (r.PastBoundary token) := by
  unfold RunRow.PastBoundary; infer_instance

/-- The row of a run whose outcome is not known. -/
def RunRow.unknownWith (r : RunRow) (errorClass : DispatchErrorClass) (now : ℤ) : RunRow :=
  { r with
    status := .outcomeUnknown, outcomeUnknownAt := some now, dispatchErrorClass := some errorClass }

/-- The invocation row of an observed forward, if there was one; it has no answer. -/
def ensureInvocation (ctx : DispatchEventContext) (token : Uuid)
    (observed : Option InvocationRequest) (now : ℤ) : WorkroomTx (Option Uuid) :=
  match observed with
  | none => pure none
  | some request => do
    let id ← insertOrReuseInvocation ctx token ⟨request, none, none⟩ now
    pure (some id)

/-- The row that a `SELECT` of the tenant sees. -/
def readRun (ctx : DispatchEventContext) : WorkroomTx (Option RunRow) :=
  read fun db => (db (.run ctx.runId)).filter fun r => r.orgId = ctx.orgId

/-- The row that an `UPDATE … WHERE p` changes: it waits for a row only when the version that it sees
matches, and looks at the row again when it has it. -/
def lockRunWhere (ctx : DispatchEventContext) (p : RunRow → Bool) : WorkroomTx (Option RunRow) := do
  let seen ← readRun ctx
  if seen.any p then do
    let row ← lockRun ctx
    pure (row.filter p)
  else pure none

/-- The trace of a forward whose run was marked by somebody else; the row is read without a lock. -/
def traceUnknown (ctx : DispatchEventContext) (token : Uuid) (observed : Option InvocationRequest)
    (now : ℤ) : WorkroomTx (Bool × Option RunStatus) := do
  let row ← readRun ctx
  if row.any (fun r => r.dispatchToken = some token ∧ r.status = .outcomeUnknown) then do
    let _ ← ensureInvocation ctx token observed now
    pure (false, row.map RunRow.status)
  else
    pure (false, row.map RunRow.status)

/-- `markOutcomeUnknown`; `observed` is the request when the process saw itself invoke the forwarder
(`observed_local_forward_invocation`). -/
def markOutcomeUnknown (ctx : DispatchEventContext) (token eventId : Uuid) (errorClass : UnknownClass)
    (observed : Option InvocationRequest) (now : ℤ) : WorkroomTx (Bool × Option RunStatus) := do
  let row ← lockRunWhere ctx fun r => r.PastBoundary token
  match row with
  | some r => do
    writeRun ctx.runId (r.unknownWith errorClass.errorClass now)
    let _ ← ensureInvocation ctx token observed now
    let event ← appendRunEvent ctx eventId .runOutcomeUnknown now
    maybeEnsureTurn ctx event.id
    pure (true, some .outcomeUnknown)
  | none => traceUnknown ctx token observed now

/-! ## Known outcomes -/

/-- `KnownOutcome`; `capturedV4` is the id drawn for the captured event, if there is one. -/
inductive KnownOutcome where
  | http (statusCode : ℕ) (request : InvocationRequest) (responseHash : Bytes)
      (capturedV4 : Option Uuid)
  | blocked (reason : String) (capturedV4 : Option Uuid)
  | localError (message : JsString)

/-- A status of `2xx`. -/
def httpOk (statusCode : ℕ) : Prop := 200 ≤ statusCode ∧ statusCode < 300

instance (statusCode : ℕ) : Decidable (httpOk statusCode) := by unfold httpOk; infer_instance

/-- The status that an outcome gives a run. -/
def KnownOutcome.terminal : KnownOutcome → RunStatus
  | http statusCode _ _ _ => if httpOk statusCode then .completed else .failed
  | blocked _ _ => .denied
  | localError _ => .failed

/-- The class that an outcome leaves in the row. -/
def KnownOutcome.errorClass : KnownOutcome → Option DispatchErrorClass
  | localError _ => some .dispatchPreForwardFailed
  | _ => none

/-- The terminal event of an outcome. -/
def KnownOutcome.eventType : KnownOutcome → EventType
  | http statusCode _ _ _ => if httpOk statusCode then .runCompleted else .runFailed
  | blocked _ _ => .runDenied
  | localError _ => .runFailed

/-- The metadata of the terminal event. -/
def KnownOutcome.redaction : KnownOutcome → EventMeta
  | http statusCode _ responseHash _ =>
    if httpOk statusCode then
      { statusCode := some statusCode, nativeResponseHash := some responseHash }
    else
      { errorStatus := some statusCode, nativeResponseHash := some responseHash,
        errorClass := some "provider_error" }
  | blocked reason _ => { governedBlockReason := some reason }
  | localError message =>
    { errorClass := some "dispatch_pre_forward_failed", errorMessage := some (message.take 200) }

/-- The captured event of an outcome. -/
def KnownOutcome.capturedV4 : KnownOutcome → Option Uuid
  | http _ _ _ v4 => v4
  | blocked _ v4 => v4
  | localError _ => none

/-- The statuses in which a run has ended. -/
def RunStatus.terminal : RunStatus → Bool
  | completed | failed | denied => true
  | queued | running | outcomeUnknown => false

/-- The events with which a run ends. -/
def EventType.terminalRun : EventType → Bool
  | runCompleted | runFailed | runDenied => true
  | _ => false

/-- `readTerminalEventMeta`: the last terminal event of the run. -/
def readTerminalEventMeta (ctx : DispatchEventContext) (db : WorkroomDb) : Option EventMeta :=
  ((db (.chain ctx.chainId)).filter fun e =>
    e.subjectId = ctx.runId ∧ e.eventType.terminalRun = true).getLast?.map ChainEvent.redaction

/-- The checks on a second finalization under the same token. -/
def checkDuplicate (ctx : DispatchEventContext) (token : Uuid) (outcome : KnownOutcome) :
    WorkroomTx Unit := do
  let terminalMeta ← read (readTerminalEventMeta ctx)
  match outcome with
  | .http statusCode request responseHash _ => do
    let row ← read fun db => db (.invocation ctx.runId token)
    let row ← orFail "DispatchOutcomeConflictError" row
    failIf (row.nativeEndpoint ≠ request.nativeEndpoint ∨
      row.nativeRequestHash ≠ request.nativeRequestHash) "DispatchOutcomeConflictError"
    -- An invocation of an unknown outcome has no result; the terminal event has it.
    let known := terminalMeta.bind fun m => m.statusCode.or m.errorStatus
    failIf (row.statusCode.or known ≠ some statusCode) "DispatchOutcomeConflictError"
    failIf (row.nativeResponseHash.or (terminalMeta.bind EventMeta.nativeResponseHash) ≠
      some responseHash) "DispatchOutcomeConflictError"
  | .blocked reason _ =>
    failIf (terminalMeta.bind EventMeta.governedBlockReason ≠ some reason)
      "DispatchOutcomeConflictError"
  | .localError message =>
    failIf (terminalMeta.bind EventMeta.errorClass ≠ some "dispatch_pre_forward_failed" ∨
      terminalMeta.bind EventMeta.errorMessage ≠ some (message.take 200))
      "DispatchOutcomeConflictError"

/-- `FinalizeResult`. -/
structure FinalizeResult where
  finalStatus : RunStatus
  reconciled : Bool
  duplicate : Bool

/-- The ids drawn for the events of a finalization. -/
structure FinalizeDraw where
  reconciledEventId : Uuid
  terminalEventId : Uuid
  now : ℤ

/-- The invocation row of an answered request. -/
def insertOutcomeInvocation (ctx : DispatchEventContext) (token : Uuid) (outcome : KnownOutcome)
    (now : ℤ) : WorkroomTx Unit :=
  match outcome with
  | .http statusCode request responseHash _ => do
    let _ ← insertOrReuseInvocation ctx token ⟨request, some responseHash, some statusCode⟩ now
    pure ()
  | _ => pure ()

/-- The captured event, under the id that was drawn for it. -/
def appendCaptured (ctx : DispatchEventContext) (capturedV4 : Option Uuid) (now : ℤ) :
    WorkroomTx Unit :=
  match capturedV4 with
  | some v4 => do
    let _ ← appendRunEvent ctx v4 .passthroughInvoked now
    pure ()
  | none => pure ()

/-- The outcome is an answer of the provider. -/
def KnownOutcome.isHttp : KnownOutcome → Bool
  | http _ _ _ _ => true
  | _ => false

/-- The event that an answer of the provider reconciles an unknown outcome. -/
def appendReconciled (ctx : DispatchEventContext) (reconciled : Bool) (eventId : Uuid) (now : ℤ) :
    WorkroomTx Unit :=
  if reconciled then do
    let _ ← appendRunEvent ctx eventId .runOutcomeReconciled now
    pure ()
  else pure ()

/-- The outcome is written: invocation, row, captured event, reconciliation, terminal event and
turn. -/
def writeOutcome (ctx : DispatchEventContext) (token : Uuid) (outcome : KnownOutcome) (row : RunRow)
    (draw : FinalizeDraw) : WorkroomTx FinalizeResult := do
  let reconciled := decide (row.status = .outcomeUnknown) && outcome.isHttp
  insertOutcomeInvocation ctx token outcome draw.now
  writeRun ctx.runId { row with
    status := outcome.terminal
    completedAt := some draw.now
    dispatchErrorClass := outcome.errorClass }
  appendCaptured ctx outcome.capturedV4 draw.now
  appendReconciled ctx reconciled draw.reconciledEventId draw.now
  let event ← appendRunEvent ctx draw.terminalEventId outcome.eventType draw.now outcome.redaction
  maybeEnsureTurn ctx event.id
  pure ⟨outcome.terminal, reconciled, false⟩

/-- `finalizeKnownOutcome`. -/
def finalizeKnownOutcome (ctx : DispatchEventContext) (token : Uuid) (outcome : KnownOutcome)
    (draw : FinalizeDraw) : WorkroomTx FinalizeResult := do
  let row ← lockRun ctx
  let row ← orFail "DispatchTokenMismatchError" row
  failIf (row.dispatchToken ≠ some token) "DispatchTokenMismatchError"
  if row.status.terminal then do
    failIf (row.status ≠ outcome.terminal) "DispatchOutcomeConflictError"
    checkDuplicate ctx token outcome
    pure ⟨row.status, false, true⟩
  else do
    failIf (row.status ≠ .running ∧ row.status ≠ .outcomeUnknown) "DispatchOutcomeConflictError"
    writeOutcome ctx token outcome row draw

/-! ## Recovery -/

/-- `recoveryEventCtx`. -/
def recoveryEventCtx (orgId runId : Uuid) (row : RunRow) : DispatchEventContext where
  orgId := orgId
  runId := runId
  workroom := do
    let workroomId ← row.workroomId
    let participantId ← row.createdByParticipantId
    pure ⟨workroomId, participantId⟩

/-- The row that the recovery worker finds and locks; a locked row is skipped. -/
def lockForRecovery (orgId runId : Uuid) (stale : RunRow → Bool) : WorkroomTx (Option RunRow) := do
  let row ← lockItem (WorkroomItem.run runId)
  pure (row.filter fun r => decide (r.orgId = orgId) && stale r)

/-- `recoverQueuedStale`. -/
def recoverQueuedStale (orgId runId eventId : Uuid) (preparedGraceMs now : ℤ) : WorkroomTx Bool := do
  let row ← lockForRecovery orgId runId fun r => decide r.Claimable &&
    r.dispatchPreparedAt.any fun t => t < now - 1000 * preparedGraceMs
  match row with
  | none => pure false
  | some r => do
    writeRun runId (r.failedWith .dispatchNeverClaimed now)
    let ctx := recoveryEventCtx orgId runId r
    let event ← appendRunEvent ctx eventId .runFailed now
      { errorClass := some "dispatch_never_claimed" }
    maybeEnsureTurn ctx event.id
    pure true

/-- `RunningStaleRecovery`. -/
inductive RunningStaleRecovery where
  | notRecovered
  | failedNeverStarted
  | outcomeUnknown

/-- `recoverRunningStale`: the boundary decides whether the run failed or its outcome is unknown. -/
def recoverRunningStale (orgId runId eventId : Uuid) (recoveryGraceMs now : ℤ) :
    WorkroomTx RunningStaleRecovery := do
  let row ← lockForRecovery orgId runId fun r =>
    decide (r.dispatchProtocolVersion = some 1 ∧ r.status = .running) &&
      r.dispatchDeadlineAt.any fun d => d + 1000 * recoveryGraceMs < now
  match row.filter fun r => r.dispatchToken.isSome with
  | none => pure .notRecovered
  | some r => do
    let ctx := recoveryEventCtx orgId runId r
    if r.dispatchBoundaryCommittedAt = none then do
      writeRun runId (r.failedWith .dispatchNeverStarted now)
      let event ← appendRunEvent ctx eventId .runFailed now
        { errorClass := some "dispatch_never_started" }
      maybeEnsureTurn ctx event.id
      pure .failedNeverStarted
    else do
      writeRun runId (r.unknownWith .staleDispatchClaim now)
      let event ← appendRunEvent ctx eventId .runOutcomeUnknown now
      maybeEnsureTurn ctx event.id
      pure .outcomeUnknown

end GovAI
