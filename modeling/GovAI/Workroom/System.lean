import GovAI.Audit.AppendSystem
import GovAI.Dispatch.Transitions
import GovAI.Workroom.Ledger

/-!
# The transactions of workrooms and runs together

Every transaction of the routes, of the two executors and of the recovery worker, in any number and
interleaved statement by statement at READ COMMITTED (`txSystem`).  A transaction may be rolled back
between any two statements, which also stands for crashes, deadlock victims and errors of the database
that the model does not spell out.
-/

namespace GovAI

open TxProgram

/-- A program whose result is not looked at. -/
def ignore {α : Type} (p : WorkroomTx α) : WorkroomTx Unit := do
  let _ ← p
  pure ()

/-- The transactions.  Only the workroom route passes an approval to `passthroughTxA`, and it passes
the workroom with it. -/
inductive WorkroomProgram (sha256 : Bytes → Bytes) : WorkroomTx Unit → Prop
  | createWorkroom (identity : AuthIdentity) (body : CreateWorkroomBody)
      (workroomId participantId eventId : Uuid) (occurredAt : ℤ) :
      WorkroomProgram sha256
        (createWorkroom identity body workroomId participantId eventId occurredAt)
  | addParticipant (identity : AuthIdentity) (workroomId : Uuid) (body : ParticipantBody)
      (participantId eventId : Uuid) (occurredAt : ℤ) :
      WorkroomProgram sha256
        (addParticipant identity workroomId body participantId eventId occurredAt)
  | removeParticipant (identity : AuthIdentity) (workroomId participantId eventId : Uuid)
      (now occurredAt : ℤ) :
      WorkroomProgram sha256
        (removeParticipant identity workroomId participantId eventId now occurredAt)
  | postMessage (identity : AuthIdentity) (workroomId messageId eventId : Uuid) (occurredAt : ℤ) :
      WorkroomProgram sha256 (postMessage identity workroomId messageId eventId occurredAt)
  | createTask (identity : AuthIdentity) (workroomId : Uuid) (assignedParticipantId : Option Uuid)
      (taskId eventId : Uuid) (occurredAt : ℤ) :
      WorkroomProgram sha256
        (createTask identity workroomId assignedParticipantId taskId eventId occurredAt)
  | requestApproval (identity : AuthIdentity) (workroomId : Uuid) (body : CreateApprovalBody)
      (approvalRequestId eventId : Uuid) (occurredAt : ℤ) :
      WorkroomProgram sha256
        (requestApproval sha256 identity workroomId body approvalRequestId eventId occurredAt)
  | decideApproval (identity : AuthIdentity) (workroomId approvalId : Uuid) (body : DecisionBody)
      (decisionId eventId : Uuid) (now occurredAt : ℤ) :
      WorkroomProgram sha256
        (decideApproval identity workroomId approvalId body decisionId eventId now occurredAt)
  | revokeApproval (identity : AuthIdentity) (workroomId approvalId eventId : Uuid)
      (occurredAt : ℤ) :
      WorkroomProgram sha256 (revokeApproval identity workroomId approvalId eventId occurredAt)
  | governedTxA (identity : AuthIdentity) (body : RunRequest) (ctx : Option WorkroomRunContext)
      (idem : Option ResolvedIdempotencyContext) (answer : PolicyAnswer) (draw : RunDraw) :
      WorkroomProgram sha256 (ignore (governedTxA identity body ctx idem answer draw))
  | passthroughTxA (identity : AuthIdentity) (body : RunRequest) (ctx : Option WorkroomRunContext)
      (approval : Option Uuid) (idem : Option ResolvedIdempotencyContext) (draw : RunDraw)
      (happroval : approval ≠ none → ctx ≠ none) :
      WorkroomProgram sha256 (ignore (passthroughTxA sha256 identity body ctx approval idem draw))
  | claimDispatch (ctx : DispatchEventContext) (token eventId : Uuid) (timeoutMs now : ℤ) :
      WorkroomProgram sha256 (ignore (claimDispatch ctx token eventId timeoutMs now))
  | commitDispatchBoundary (ctx : DispatchEventContext) (token : Uuid) (clock : ℤ) :
      WorkroomProgram sha256 (ignore (Dispatch.commitDispatchBoundary ctx token clock))
  | failBoundaryNotEstablished (ctx : DispatchEventContext) (token eventId : Uuid) (now : ℤ) :
      WorkroomProgram sha256 (ignore (failBoundaryNotEstablished ctx token eventId now))
  | failPreclaim (ctx : DispatchEventContext) (eventId : Uuid) (message : JsString) (now : ℤ) :
      WorkroomProgram sha256 (ignore (failPreclaim ctx eventId message now))
  | markOutcomeUnknown (ctx : DispatchEventContext) (token eventId : Uuid)
      (errorClass : UnknownClass) (observed : Option InvocationRequest) (now : ℤ) :
      WorkroomProgram sha256 (ignore (markOutcomeUnknown ctx token eventId errorClass observed now))
  | finalizeKnownOutcome (ctx : DispatchEventContext) (token : Uuid) (outcome : KnownOutcome)
      (draw : FinalizeDraw) :
      WorkroomProgram sha256 (ignore (finalizeKnownOutcome ctx token outcome draw))
  | recoverQueuedStale (orgId runId eventId : Uuid) (preparedGraceMs now : ℤ) :
      WorkroomProgram sha256 (ignore (recoverQueuedStale orgId runId eventId preparedGraceMs now))
  | recoverRunningStale (orgId runId eventId : Uuid) (recoveryGraceMs now : ℤ) :
      WorkroomProgram sha256 (ignore (recoverRunningStale orgId runId eventId recoveryGraceMs now))

/-- The database before any of these transactions: there are organisations and agent profiles. -/
def InitialWorkroomDb (db : WorkroomDb) : Prop :=
  ∀ k, (∃ id, k = .org id) ∨ (∃ id, k = .agentProfile id) ∨ db k = emptyWorkroomDb k

/-- All interleavings of these transactions, by any number of sessions. -/
abbrev workroomSystem (sha256 : Bytes → Bytes) :
    TransitionSystem (LockState WorkroomDb WorkroomItem (TxPoint WorkroomItem.Val String Unit) TxId)
      (TxId × LockAction (TxPoint WorkroomItem.Val String Unit)) :=
  txSystem TxId InitialWorkroomDb (WorkroomProgram sha256)

/-! ## A small organisation -/

/-- A uuid of the samples. -/
def workroomUuid (n : ℕ) : Uuid := BitVec.ofNat 128 n

/-- Two users of one organisation. -/
def sampleUser (n : ℕ) : AuthIdentity := ⟨workroomUuid 1, workroomUuid n, ["developer"]⟩

/-- User 2 opens a workroom, in which user 3 is an approver. -/
def sampleWorkroom : List (WorkroomTx Unit) :=
  [createWorkroom (sampleUser 2) ⟨workroomUuid 5, none⟩ (workroomUuid 10) (workroomUuid 12)
    (workroomUuid 100) 0,
  addParticipant (sampleUser 2) (workroomUuid 10) (.human .humanApprover (workroomUuid 3))
    (workroomUuid 13) (workroomUuid 101) 0]

/-- A passthrough run that needs an approval. -/
def sampleRunRequest : RunRequest := ⟨workroomUuid 5, "chat", "m", "hi", "openai"⟩

/-- The request for its approval by a user. -/
def sampleApproval (n : ℕ) : WorkroomTx Unit :=
  requestApproval (fun _ => []) (sampleUser n) (workroomUuid 10) ⟨"chat", "m", "hi", none, none⟩
    (workroomUuid 20) (workroomUuid 102) 0

/-- The decision of a user. -/
def sampleDecision (n : ℕ) : WorkroomTx Unit :=
  decideApproval (sampleUser n) (workroomUuid 10) (workroomUuid 20) ⟨.granted, none⟩
    (workroomUuid 21) (workroomUuid 103) 0 0

/-- The approved run of user 2. -/
def sampleRun : WorkroomTx Unit :=
  ignore (passthroughTxA (fun _ => []) (sampleUser 2) sampleRunRequest
    (some ⟨workroomUuid 10, workroomUuid 12⟩) (some (workroomUuid 20)) none
    ⟨workroomUuid 30, workroomUuid 104, 0, 0, none⟩)

/-- The empty database is one to start with. -/
lemma reachable_emptyWorkroomDb {sha256 : Bytes → Bytes} :
    (workroomSystem sha256).Reachable ⟨emptyWorkroomDb, fun _ => none⟩ :=
  .init ⟨fun _ => .inr (.inr rfl), fun _ => rfl⟩

end GovAI
