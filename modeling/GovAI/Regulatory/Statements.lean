import GovAI.Regulatory.Schema

/-!
# The statements of the governance workflows

What a `SELECT`, an `INSERT` or an `UPDATE` on the tables of the workflows does, with the row level
security, the triggers, the `CHECK`s and the unique indexes of the migrations.  An `INSERT` of a child
takes a key share lock on its parent only, which no update of the parent conflicts with: the triggers
read the parent without locking it.
-/

namespace GovAI

open TxProgram
open scoped OptionConditions

/-! ## Checks -/

/-- A deny posture. -/
def DenialPosture.denies (p : DenialPosture) : Bool :=
  p = .hardDenyExpected ∨ p = .governanceDenyRecorded

/-- The postures that a determination may have. -/
def Verdict.admitsPosture : Verdict → DenialPosture → Bool
  | .prohibitedConfirmed, p => p.denies
  | .falsePositive, p => p = .notApplicable
  | .needsMoreInformation, p => p = .monitoringOnly ∨ p = .notApplicable
  | _, _ => true

/-- The decisions that need a rationale. -/
def Verdict.needsRationale : Verdict → Bool
  | .approve | .needsMoreInformation => false
  | .reject | .requestChanges | .prohibitedConfirmed | .falsePositive => true

/-- The `CHECK`s on the columns that an update of a subject does not change. -/
def SubjectDetail.Checks : {k : GovernanceKind} → SubjectDetail k → Prop
  | .review, d => d.snapshot.inherentRiskTier = .high ∧ d.snapshot.residualRiskTier = .high ∧
      d.snapshot.riskScore ≤ 100 ∧ d.snapshot.residualRiskScore = d.snapshot.riskScore ∧
      d.snapshot.requiresHighRiskReview = true ∧ d.snapshot.requiresProhibitedUseReview = false ∧
      1 ≤ d.requiredApproverCount ∧ d.requiredApproverCount ≤ 10 ∧
      (d.snapshot.modelVersionId ≠ none → d.snapshot.modelId ≠ none) ∧
      (d.snapshot.agentVersionId ≠ none → d.snapshot.agentId ≠ none)
  | .useCase, d => (d.riskClassificationId ≠ none ∨ d.agentCapabilityBindingId ≠ none ∨
        d.prohibitedUsePolicyId ≠ none) ∧
      (∀ x ∈ d.snapshot, x.riskScore ≤ 100 ∧ x.residualRiskScore ≤ 100 ∧
        (x.modelVersionId ≠ none → x.modelId ≠ none)) ∧
      (d.riskClassificationId ≠ none → ∃ x ∈ d.snapshot, x.residualRiskTier = .prohibited ∧
        x.inherentRiskTier = .prohibited ∧ x.requiresProhibitedUseReview = true ∧
        x.residualRiskScore = x.riskScore) ∧
      (d.agentCapabilityBindingId ≠ none → d.agentId ≠ none ∧ d.capabilityKey ≠ none ∧
        d.capabilityRiskPosture ≠ none) ∧
      (d.agentVersionId ≠ none → d.agentId ≠ none)

instance decidableDetailChecks : ∀ {k : GovernanceKind} (d : SubjectDetail k), Decidable (SubjectDetail.Checks d)
  | .review, d => by unfold SubjectDetail.Checks; infer_instance
  | .useCase, d => by unfold SubjectDetail.Checks; infer_instance

/-- The capability of a case is prohibited. -/
def SubjectDetail.capabilityProhibited : {k : GovernanceKind} → SubjectDetail k → Bool
  | .review, _ => false
  | .useCase, d => d.capabilityRiskPosture = some .prohibited

/-- The workroom that a participant of a decision has to belong to. -/
def SubjectDetail.workroomId? : {k : GovernanceKind} → SubjectDetail k → Option Uuid
  | .review, d => d.workroomId
  | .useCase, _ => none

/-- The `CHECK`s on the denial posture: it is a column of a case only, and a prohibited capability
admits the deny postures only. -/
def SubjectRow.PostureCheck {k : GovernanceKind} (row : SubjectRow k) : Prop :=
  match k with
  | .review => row.denialPosture = none
  | .useCase => ∃ p ∈ row.denialPosture,
      SubjectDetail.capabilityProhibited row.identity.detail = true → p.denies = true

instance decidablePostureCheck : ∀ {k : GovernanceKind} (row : SubjectRow k), Decidable row.PostureCheck
  | .review, row => by unfold SubjectRow.PostureCheck; infer_instance
  | .useCase, row => by unfold SubjectRow.PostureCheck; infer_instance

/-- The `CHECK`s of `regulatory_high_risk_reviews` and of `regulatory_prohibited_use_cases`. -/
structure SubjectRow.Checks {k : GovernanceKind} (row : SubjectRow k) : Prop where
  detail : SubjectDetail.Checks row.identity.detail
  status : k.admits row.status = true
  posture : row.PostureCheck
  /-- `…_decided_at_only_terminal`, `…_determined_at_only_terminal`. -/
  decidedAt : row.decidedAt ≠ none → row.status.decided = true
  /-- `…_cancelled_at_only_cancelled`. -/
  cancelledAt : row.cancelledAt = none ↔ row.status ≠ .cancelled
  /-- `…_cancellation_reason_required`. -/
  cancellationReason : row.status = .cancelled → ∃ reason ∈ row.cancellationReason, 0 < reason.length
  /-- `…_submitted_before_decided`, `…_submitted_before_determined`. -/
  submittedAt : ∀ s ∈ row.submittedAt, ∀ d ∈ row.decidedAt, s ≤ d

instance decidableSubjectRowChecks {k : GovernanceKind} (row : SubjectRow k) : Decidable row.Checks :=
  decidable_of_iff (SubjectDetail.Checks row.identity.detail ∧ k.admits row.status = true ∧
    row.PostureCheck ∧ (row.decidedAt ≠ none → row.status.decided = true) ∧
    (row.cancelledAt = none ↔ row.status ≠ .cancelled) ∧
    (row.status = .cancelled → ∃ reason ∈ row.cancellationReason, 0 < reason.length) ∧
    ∀ s ∈ row.submittedAt, ∀ d ∈ row.decidedAt, s ≤ d)
    ⟨fun ⟨h₁, h₂, h₃, h₄, h₅, h₆, h₇⟩ => ⟨h₁, h₂, h₃, h₄, h₅, h₆, h₇⟩,
      fun ⟨h₁, h₂, h₃, h₄, h₅, h₆, h₇⟩ => ⟨h₁, h₂, h₃, h₄, h₅, h₆, h₇⟩⟩

/-- The `CHECK`s of the decisions and of the determinations. -/
def VerdictRow.Checks (k : GovernanceKind) (row : VerdictRow) : Prop :=
  (row.decidedByUserId ≠ none ∨ row.input.participantId ≠ none) ∧
    k.admitsVerdict row.input.verdict = true ∧
    (row.input.verdict.needsRationale = true → 0 < row.input.rationale.length) ∧
    match k with
    | .review => row.input.denialPosture = none
    | .useCase => ∃ p ∈ row.input.denialPosture, row.input.verdict.admitsPosture p = true

instance decidableVerdictRowChecks : ∀ (k : GovernanceKind) (row : VerdictRow), Decidable (row.Checks k)
  | .review, row => by unfold VerdictRow.Checks; infer_instance
  | .useCase, row => by unfold VerdictRow.Checks; infer_instance

/-- The `CHECK`s of the assignments. -/
def AssignmentRow.Checks (row : AssignmentRow) : Prop :=
  (row.assigneeUserId ≠ none ∨ row.assigneeParticipantId ≠ none) ∧
    ∀ done ∈ row.completedAt, ∀ ack ∈ row.acknowledgedAt, ack ≤ done

instance decidableAssignmentRowChecks (row : AssignmentRow) : Decidable row.Checks := by
  unfold AssignmentRow.Checks
  infer_instance

/-! ## Reads -/

/-- `getVisibleHighRiskReview` and `getVisibleProhibitedUseCase`. -/
def getVisibleSubject (k : GovernanceKind) (ctx : RegulatoryCtx) (id : Uuid) (db : GovernanceDb) :
    Option (SubjectRow k) :=
  (db (.subject k id)).filter fun row => row.orgId = ctx.orgId

/-- A row of the tenant; sources and controls of the system are visible to every tenant. -/
def getVisibleReference (t : ReferenceTable) (ctx : RegulatoryCtx) (id : Uuid) (db : GovernanceDb) :
    Option (ReferenceRow t) :=
  (db (.reference t id)).filter fun row => row.orgId = some ctx.orgId ∨
    (row.orgId = none ∧ (t = .regulatorySource ∨ t = .control))

/-- A participant of the tenant, and of the workroom if there is one. -/
def participantFits (ctx : RegulatoryCtx) (workroomId participantId : Option Uuid)
    (db : GovernanceDb) : Bool :=
  decide (∀ id ∈ participantId, ∃ p ∈ getVisibleReference .workroomParticipant ctx id db,
    ∀ w ∈ workroomId, p.data = w)

/-! ## The audit chain -/

/-- `appendAudit`, on the policy chain of the tenant. -/
def appendAudit (ctx : RegulatoryCtx) (event : GovernanceEvent) : GovernanceTx Unit := do
  let events ← lockItem (GovernanceItem.chain ctx.orgId)
  set (GovernanceItem.chain ctx.orgId) (events ++ [event])

/-! ## Unique indexes -/

/-- The anchors of a subject: its classification, and for a case also its capability binding. -/
def SubjectIdentity.anchors : {k : GovernanceKind} → SubjectIdentity k → List Anchor
  | .review, i => [.classification i.detail.riskClassificationId]
  | .useCase, i => (i.detail.riskClassificationId.map Anchor.classification).toList ++
      (i.detail.agentCapabilityBindingId.map Anchor.binding).toList

/-- The index entries of a subject that becomes active. -/
def claimAnchors (k : GovernanceKind) (orgId id : Uuid) (conflict : Anchor → RegulatoryFailure) :
    List Anchor → GovernanceTx Unit
  | [] => pure ()
  | a :: as => do
    let owner ← lockItem (GovernanceItem.active k orgId a)
    failIf (owner.isSome = true) (conflict a)
    set (GovernanceItem.active k orgId a) (some id)
    claimAnchors k orgId id conflict as

/-- The index entries of a subject that becomes terminal. -/
def releaseAnchors (k : GovernanceKind) (orgId : Uuid) : List Anchor → GovernanceTx Unit
  | [] => pure ()
  | a :: as => do
    set (GovernanceItem.active k orgId a) none
    releaseAnchors k orgId as

/-- The index entries of an updated subject: they move with the predicate of the index. -/
def reindex (k : GovernanceKind) (id : Uuid) (identity : SubjectIdentity k)
    (before after : GovernanceStatus) : GovernanceTx Unit :=
  match before.terminal, after.terminal with
  | false, true => releaseAnchors k identity.orgId identity.anchors
  | true, false => claimAnchors k identity.orgId id
      (fun _ => .database "one_active_idx") identity.anchors
  | _, _ => pure ()

/-! ## Subjects -/

/-- The subject that is named as the successor is visible. -/
def successorVisible (k : GovernanceKind) (ctx : RegulatoryCtx) (successor : Option Uuid)
    (db : GovernanceDb) : Bool :=
  decide (∀ id ∈ successor, getVisibleSubject k ctx id db ≠ none)

/-- The new version of a locked row: the trigger, the policy, the `CHECK`s and the indexes. -/
def writeSubject {k : GovernanceKind} (ctx : RegulatoryCtx) (id : Uuid) (row row' : SubjectRow k) :
    GovernanceTx Unit := do
  failIf (row'.identity ≠ row.identity) (.database "guarded_update")
  let visible ← read (successorVisible k ctx row'.supersededById)
  failIf (visible = false) (.database "row-level security")
  failIf (¬row'.Checks) (.database "check")
  set (GovernanceItem.subject k id) (some row')
  reindex k id row.identity row.status row'.status

/-- `UPDATE … SET … WHERE id = … AND org_id = … RETURNING …`: waits for the row, and gives its newest
version the new columns. -/
def updateSubject (k : GovernanceKind) (ctx : RegulatoryCtx) (id : Uuid)
    (assign : SubjectRow k → SubjectRow k) (notFound : RegulatoryFailure) :
    GovernanceTx (SubjectRow k) := do
  let current ← lockItem (GovernanceItem.subject k id)
  let row ← orFail notFound (current.filter fun row => row.orgId = ctx.orgId)
  writeSubject ctx id row (assign row)
  pure (assign row)

/-- `INSERT INTO` a table of subjects, after its policy. -/
def insertSubject {k : GovernanceKind} (id : Uuid) (row : SubjectRow k) (keyConflict : RegulatoryFailure)
    (conflict : Anchor → RegulatoryFailure) : GovernanceTx Unit := do
  failIf (¬row.Checks) (.database "check")
  let existing ← lockItem (GovernanceItem.subject k id)
  failIf (existing.isSome = true) keyConflict
  let owner ← lockItem (GovernanceItem.subjectKey k row.orgId row.identity.key)
  failIf (owner.isSome = true) keyConflict
  set (GovernanceItem.subjectKey k row.orgId row.identity.key) (some id)
  set (GovernanceItem.subject k id) (some row)
  claimAnchors k row.orgId id conflict row.identity.anchors

/-! ## Children -/

/-- The requester has made this decision, as a user or as a participant. -/
def SubjectRow.DecidedByRequester {k : GovernanceKind} (row : SubjectRow k) (userId : Uuid)
    (participantId : Option Uuid) : Prop :=
  row.identity.requesterUserId = some userId ∨
    ∃ p ∈ participantId, row.identity.requestedByParticipantId = some p

instance {k : GovernanceKind} (row : SubjectRow k) (userId : Uuid) (participantId : Option Uuid) :
    Decidable (row.DecidedByRequester userId participantId) := by
  unfold SubjectRow.DecidedByRequester
  infer_instance

/-- The triggers `…_block_after_terminal`. -/
def blockAfterTerminal (k : GovernanceKind) (ctx : RegulatoryCtx) (subjectId : Uuid) :
    GovernanceTx Unit := do
  let parent ← read (getVisibleSubject k ctx subjectId)
  failIf (∃ row ∈ parent, row.status.terminal = true) (.database "block_after_terminal")

/-- The trigger `…_sod` on the decisions that it is about. -/
def separationOfDuties (k : GovernanceKind) (ctx : RegulatoryCtx) (subjectId : Uuid)
    (input : VerdictInput) : GovernanceTx Unit := do
  let parent ← read (getVisibleSubject k ctx subjectId)
  failIf (k.dutyBound input.verdict = true ∧
    ∃ row ∈ parent, row.DecidedByRequester ctx.userId input.participantId) (.database "sod")

/-- The policies of the inserts into the tables of the children. -/
def childVisible (k : GovernanceKind) (ctx : RegulatoryCtx) (subjectId : Uuid)
    (participantId : Option Uuid) : GovernanceTx Unit := do
  let parent ← read (getVisibleSubject k ctx subjectId)
  let row ← orFail (.database "row-level security") parent
  let fits ← read (participantFits ctx (SubjectDetail.workroomId? row.identity.detail) participantId)
  failIf (fits = false) (.database "row-level security")

/-- The entry of `…_one_final_uq`. -/
def claimFinal (k : GovernanceKind) (orgId subjectId id : Uuid) (final : Bool)
    (conflict : RegulatoryFailure) : GovernanceTx Unit :=
  if final = true then do
    let owner ← lockItem (GovernanceItem.finalVerdict k orgId subjectId)
    failIf (owner.isSome = true) conflict
    set (GovernanceItem.finalVerdict k orgId subjectId) (some id)
  else pure ()

/-- `INSERT INTO` the decisions or the determinations. -/
def insertVerdict (k : GovernanceKind) (ctx : RegulatoryCtx) (id subjectId : Uuid)
    (input : VerdictInput) (conflict : RegulatoryFailure) : GovernanceTx VerdictRow := do
  separationOfDuties k ctx subjectId input
  blockAfterTerminal k ctx subjectId
  childVisible k ctx subjectId input.participantId
  failIf (¬VerdictRow.Checks k ⟨ctx.orgId, subjectId, some ctx.userId, input⟩) (.database "check")
  let existing ← lockItem (GovernanceItem.verdict k id)
  failIf (existing.isSome = true) conflict
  set (GovernanceItem.verdict k id) (some ⟨ctx.orgId, subjectId, some ctx.userId, input⟩)
  claimFinal k ctx.orgId subjectId id input.verdict.final conflict
  pure ⟨ctx.orgId, subjectId, some ctx.userId, input⟩

end GovAI
