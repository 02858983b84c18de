import GovAI.Capture.Outbox
import GovAI.Library.TxProgram
import GovAI.Governance.RiskClass

/-!
# The tables of workrooms and runs

The rows of `0012_workrooms.sql` to `0015_workroom_approvals.sql`, of
`0029_durable_provider_dispatch.sql` and of `0030_run_idempotency.sql`, and the columns of the audit
events that the routes over them read back.  The database is a store of items: a row by its primary
key, an entry of a unique index, the turns of a workroom (numbered under one advisory lock) and the
events of a chain (numbered under another).
-/

namespace GovAI

/-! ## Enumerated columns -/

/-- The values of `governance_mode`. -/
inductive GovernanceMode where
  | governanceActive
  | auditOnly
deriving DecidableEq

/-- The values of `workroom_participants.kind`. -/
inductive ParticipantKind where
  | human
  | agent
deriving DecidableEq

/-- The values of `workroom_participants.role`. -/
inductive ParticipantRole where
  | humanOwner
  | humanApprover
  | humanReviewer
  | dpoReviewer
  | architectAgent
  | auditorAgent
  | executorAgent
  | observerAgent
  | toolAgent
  | externalAgent
deriving DecidableEq

/-- The values of `workroom_participants.status`. -/
inductive ParticipantStatus where
  | invited
  | active
  | removed
deriving DecidableEq

/-- The values of `workroom_turns.kind` that are written. -/
inductive TurnKind where
  | stateTransition
  | participantChange
  | message
  | task
  | runEvent
  | approvalRequest
  | approvalDecision
deriving DecidableEq

/-- The values of `workroom_approval_requests.status`. -/
inductive ApprovalStatus where
  | pending
  | granted
  | denied
  | expired
  | revoked
deriving DecidableEq

/-- The values of `workroom_approval_decisions.decision`. -/
inductive ApprovalOutcome where
  | granted
  | denied
deriving DecidableEq

/-- The status that a decision gives a request. -/
def ApprovalOutcome.status : ApprovalOutcome → ApprovalStatus
  | granted => .granted
  | denied => .denied

/-- The values of `runs.mode` that are executed. -/
inductive RunMode where
  | governed
  | passthrough
deriving DecidableEq

/-- The values of `runs.status` that are written. -/
inductive RunStatus where
  | queued
  | running
  | completed
  | failed
  | denied
  | outcomeUnknown
deriving DecidableEq

/-- The values of `runs.dispatch_error_class`. -/
inductive DispatchErrorClass where
  | dispatchNeverClaimed
  | dispatchPreclaimFailed
  | dispatchBoundaryPersistFailed
  | dispatchNeverStarted
  | dispatchPreForwardFailed
  | providerTimeout
  | providerIoUnknown
  | staleDispatchClaim
deriving DecidableEq

/-- The types of the audit events of workrooms and runs. -/
inductive EventType where
  | workroomLifecycle
  | workroomParticipant
  | workroomMessage
  | workroomTaskCreated
  | workroomApprovalRequested
  | workroomApprovalGranted
  | workroomApprovalDenied
  | workroomApprovalRevoked
  | runDispatchPrepared
  | runDispatchClaimed
  | runOutcomeUnknown
  | runOutcomeReconciled
  | runCompleted
  | runFailed
  | runDenied
  | passthroughInvoked
deriving DecidableEq

/-! ## Rows -/

/-- `chainIdFor`: the chain of an organisation and a category. -/
structure ChainId where
  orgId : Uuid
  category : ChainCategory
deriving DecidableEq

/-- The text `${orgId}:${category}`. -/
def ChainId.text (c : ChainId) : String := c.orgId.toText ++ ":" ++ c.category.text

/-- A row of `workrooms`. -/
structure WorkroomRow where
  orgId : Uuid
  workspaceId : Uuid
  governanceMode : GovernanceMode
deriving DecidableEq

/-- A row of `agent_profiles`. -/
structure AgentProfileRow where
  orgId : Uuid
  isDisabled : Bool
deriving DecidableEq

/-- A row of `workroom_participants`; `user_id` is set for humans and `agent_profile_id` for
agents. -/
structure ParticipantRow where
  id : Uuid
  orgId : Uuid
  workroomId : Uuid
  kind : ParticipantKind
  role : ParticipantRole
  userId : Option Uuid
  agentProfileId : Option Uuid
  addedByParticipantId : Option Uuid
  removedAt : Option ℤ
  status : ParticipantStatus
deriving DecidableEq

/-- A row of `workroom_turns`. -/
structure WorkroomTurnRow where
  turnNumber : ℕ
  actorParticipantId : Option Uuid
  kind : TurnKind
  auditEventId : Uuid
  payloadRef : Option Uuid
deriving DecidableEq

/-- What is read back of `redaction_metadata`: the approval request of a decision, and the safe
metadata of a terminal run event. -/
structure EventMeta where
  approvalRequestId : Option Uuid := none
  statusCode : Option ℕ := none
  errorStatus : Option ℕ := none
  nativeResponseHash : Option Bytes := none
  governedBlockReason : Option String := none
  errorClass : Option String := none
  errorMessage : Option JsString := none
deriving DecidableEq

/-- A row of `audit_events`. -/
structure ChainEvent where
  id : Uuid
  sequenceNumber : ℕ
  eventType : EventType
  subjectId : Uuid
  occurredAt : ℤ
  redaction : EventMeta
deriving DecidableEq

/-- A row of `workroom_approval_requests`.  The subject kind is always `passthrough_run`. -/
structure ApprovalRow where
  orgId : Uuid
  workroomId : Uuid
  requestedByParticipantId : Uuid
  riskClass : Option RiskClass
  status : ApprovalStatus
  intendedActionHash : Bytes
  workroomGovernanceMode : GovernanceMode
  expiresAt : Option ℤ
  decidedAt : Option ℤ
  consumedRunId : Option Uuid
  consumedAt : Option ℤ
  requestedAuditEventId : Uuid
deriving DecidableEq

/-- A row of `workroom_approval_decisions`. -/
structure DecisionRow where
  id : Uuid
  decidedByParticipantId : Uuid
  decision : ApprovalOutcome
  reason : Option String
  decisionAuditEventId : Uuid
deriving DecidableEq

/-- A row of `runs`. -/
structure RunRow where
  orgId : Uuid
  actorUserId : Uuid
  workspaceId : Uuid
  provider : String
  model : String
  mode : RunMode
  status : RunStatus
  createdAt : ℤ
  startedAt : Option ℤ := none
  completedAt : Option ℤ := none
  workroomId : Option Uuid := none
  createdByParticipantId : Option Uuid := none
  dispatchProtocolVersion : Option ℕ := none
  dispatchToken : Option Uuid := none
  dispatchPreparedAt : Option ℤ := none
  dispatchClaimedAt : Option ℤ := none
  dispatchDeadlineAt : Option ℤ := none
  dispatchTimeoutMs : Option ℤ := none
  dispatchErrorClass : Option DispatchErrorClass := none
  outcomeUnknownAt : Option ℤ := none
  dispatchBoundaryCommittedAt : Option ℤ := none
deriving DecidableEq

/-- A row of `provider_invocations`. -/
structure InvocationRow where
  id : Uuid
  nativeEndpoint : String
  nativeRequestHash : Bytes
  nativeResponseHash : Option Bytes
  statusCode : Option ℕ
  createdAt : ℤ
deriving DecidableEq

/-- The values of `route_scope`. -/
inductive RunRouteScope where
  | standalone
  | workroom
deriving DecidableEq

/-- A row of `run_idempotency`. -/
structure RunIdempotencyRow where
  requestCanonicalHash : Bytes
  routeScope : RunRouteScope
  runId : Uuid
deriving DecidableEq

/-- A row of `policy_decisions`, with the detectors of the rows of `dlp_findings` that go with it. -/
structure PolicyDecisionRow where
  deny : Bool
  findings : List String
deriving DecidableEq

/-! ## The database -/

/-- What a statement locks. -/
inductive WorkroomItem where
  /-- The column `workroom_audit_only_disallowed` of an organisation. -/
  | org (id : Uuid)
  | agentProfile (id : Uuid)
  | workroom (id : Uuid)
  | participant (id : Uuid)
  /-- An entry of `workroom_participants_active_human_unique`. -/
  | activeHuman (workroomId userId : Uuid)
  /-- An entry of `workroom_participants_active_agent_unique`. -/
  | activeAgent (workroomId agentProfileId : Uuid)
  /-- The turns of a workroom, under the advisory lock `workroom_turn:` and the unique index on
  `(workroom_id, turn_number)`. -/
  | turns (workroomId : Uuid)
  /-- An entry of the unique index on the `run_event` turns, by run. -/
  | runEventTurn (runId : Uuid)
  /-- The events of a chain, under the advisory lock of the chain. -/
  | chain (id : ChainId)
  /-- An entry of the primary key of `audit_events`. -/
  | event (id : Uuid)
  | approval (id : Uuid)
  /-- A decision, by the unique `approval_request_id`. -/
  | decision (approvalRequestId : Uuid)
  | run (id : Uuid)
  /-- The policy decision of a run and its findings. -/
  | policyDecision (runId : Uuid)
  /-- An invocation, by the unique `(run_id, dispatch_token)`. -/
  | invocation (runId dispatchToken : Uuid)
  | idempotency (orgId : Uuid) (idempotencyKeyHash : Bytes)
deriving DecidableEq

/-- The type of each item. -/
@[reducible] def WorkroomItem.Val : WorkroomItem → Type
  | org _ => Bool
  | agentProfile _ => Option AgentProfileRow
  | workroom _ => Option WorkroomRow
  | participant _ => Option ParticipantRow
  | activeHuman _ _ => Option Uuid
  | activeAgent _ _ => Option Uuid
  | turns _ => List WorkroomTurnRow
  | runEventTurn _ => Option Uuid
  | chain _ => List ChainEvent
  | event _ => Option ChainId
  | approval _ => Option ApprovalRow
  | decision _ => Option DecisionRow
  | run _ => Option RunRow
  | policyDecision _ => Option PolicyDecisionRow
  | invocation _ _ => Option InvocationRow
  | idempotency _ _ => Option RunIdempotencyRow

/-- The tables of workrooms and runs. -/
abbrev WorkroomDb : Type := Store WorkroomItem.Val

/-- The code of a transaction over these tables; an error is named as the source names it. -/
abbrev WorkroomTx (α : Type) : Type := TxProgram WorkroomItem.Val String α

/-- No rows. -/
def emptyWorkroomDb : WorkroomDb
  | .org _ => false
  | .agentProfile _ => none
  | .workroom _ => none
  | .participant _ => none
  | .activeHuman _ _ => none
  | .activeAgent _ _ => none
  | .turns _ => []
  | .runEventTurn _ => none
  | .chain _ => []
  | .event _ => none
  | .approval _ => none
  | .decision _ => none
  | .run _ => none
  | .policyDecision _ => none
  | .invocation _ _ => none
  | .idempotency _ _ => none

/-! ## Numbers -/

/-- `Number(…)` of a natural number: the nearest double, to even in a tie. -/
def jsNumber (n : ℕ) : ℕ :=
  let ulp := 2 ^ (n.log2 - 52)
  let low := n / ulp * ulp
  let rest := n % ulp
  if 2 * rest < ulp ∨ 2 * rest = ulp ∧ n / ulp % 2 = 0 then low else low + ulp

/-- Numbers up to `2 ^ 53` are doubles. -/
lemma jsNumber_eq_self {n : ℕ} (h : n ≤ 2 ^ 53) : jsNumber n = n := by
  rcases h.lt_or_eq with hlt | rfl
  · have hlog : n.log2 - 52 = 0 := by
      by_cases hn : n = 0
      · subst hn
        rfl
      · have := (Nat.log2_lt hn).mpr hlt
        omega
    simp [jsNumber, hlog, Nat.mod_one]
  · decide

/-- Larger numbers are not rounded below it. -/
lemma le_jsNumber {n : ℕ} (h : 2 ^ 53 ≤ n) : 2 ^ 53 ≤ jsNumber n := by
  have hn : n ≠ 0 := by rintro rfl; simp at h
  have hlog : 53 ≤ n.log2 := (Nat.le_log2 hn).mpr h
  obtain ⟨e, he⟩ : ∃ e, n.log2 - 52 = e + 1 := ⟨n.log2 - 53, by omega⟩
  have hlow : 2 ^ 53 ≤ n / 2 ^ (e + 1) * 2 ^ (e + 1) := by
    have hpow : 2 ^ (52 + (e + 1)) ≤ n := by
      have hself := Nat.log2_self_le hn
      rwa [show n.log2 = 52 + (e + 1) by omega] at hself
    have hdiv : 2 ^ 52 ≤ n / 2 ^ (e + 1) := by
      rw [Nat.le_div_iff_mul_le (by positivity), ← pow_add]
      exact hpow
    calc 2 ^ 53 = 2 ^ 52 * 2 := by norm_num
      _ ≤ n / 2 ^ (e + 1) * 2 ^ (e + 1) := by
        refine Nat.mul_le_mul hdiv ?_
        rw [pow_succ]
        exact Nat.le_mul_of_pos_left 2 (by positivity)
  simp only [jsNumber, he]
  split
  · exact hlow
  · exact hlow.trans (Nat.le_add_right _ _)

end GovAI
