import GovAI.Regulatory.Workflow

/-!
# The creation of reviews and cases

A review copies the risk snapshot of its classification; a case is anchored at a classification, at a
capability binding or at a policy, and copies what they say.  The policies of the inserts compare the
copies with the rows that are committed at that moment.
-/

namespace GovAI

open TxProgram
open scoped OptionConditions

/-- A new row, which no one has submitted, decided or cancelled. -/
def newSubject {k : GovernanceKind} (identity : SubjectIdentity k) (posture : Option DenialPosture)
    (summary : SummaryColumn → String) (dueAt : Option ℤ) (metadata : Metadata) : SubjectRow k :=
  ⟨identity, .opened, posture, none, none, dueAt, none, none, none, summary, metadata,
    identity.createdByUserId⟩

/-- A row that an optional id refers to. -/
def readReference (t : ReferenceTable) (ctx : RegulatoryCtx) (notFound : RegulatoryFailure) :
    Option Uuid → GovernanceTx (Option (ReferenceRow t))
  | some id => do
    let visible ← read (getVisibleReference t ctx id)
    let row ← orFail notFound visible
    pure (some row)
  | none => pure none

/-- The policy of an insert on an optional id. -/
def referenceHolds (t : ReferenceTable) (ctx : RegulatoryCtx) (id : Option Uuid)
    (p : ReferenceData t → Bool) (db : GovernanceDb) : Bool :=
  decide (∀ i ∈ id, ∃ row ∈ getVisibleReference t ctx i db, p row.data = true)

/-! ## Reviews -/

/-- `CreateHighRiskReviewInput`. -/
structure CreateHighRiskReviewInput where
  reviewKey : String
  riskClassificationId : Uuid
  requiredApproverCount : Option {n : ℕ // 1 ≤ n ∧ n ≤ 10}
  workroomId : Option Uuid
  workroomApprovalRequestId : Option Uuid
  requestedByParticipantId : Option Uuid
  summary : SummaryColumn → String
  dueAt : Option ℤ
  metadata : Metadata

/-- The classification asks for a prohibited-use review. -/
def RiskSnapshot.asksProhibitedUse (x : RiskSnapshot) : Bool :=
  x.residualRiskTier = .prohibited ∨ x.requiresProhibitedUseReview = true

/-- The classification asks for a high-risk review. -/
def RiskSnapshot.asksHighRisk (x : RiskSnapshot) : Bool :=
  x.residualRiskTier = .high ∧ x.inherentRiskTier = .high ∧ x.requiresHighRiskReview = true

/-- The row that `createHighRiskReview` inserts. -/
def newReview (ctx : RegulatoryCtx) (input : CreateHighRiskReviewInput) (snapshot : RiskSnapshot) :
    SubjectRow .review :=
  newSubject ⟨ctx.orgId, input.reviewKey, some ctx.userId, input.requestedByParticipantId,
      some ctx.userId, ⟨input.riskClassificationId, snapshot,
        (input.requiredApproverCount.map Subtype.val).getD 1, input.workroomId,
        input.workroomApprovalRequestId⟩⟩
    none input.summary input.dueAt input.metadata

/-- The policy `regulatory_high_risk_reviews_insert_app`. -/
def reviewInsertable (ctx : RegulatoryCtx) (d : ReviewDetail) (db : GovernanceDb) : Bool :=
  referenceHolds .riskClassification ctx (some d.riskClassificationId)
      (fun x => x.asksHighRisk && !x.requiresProhibitedUseReview && decide (x = d.snapshot)) db &&
    referenceHolds .workroom ctx d.workroomId (fun _ => true) db &&
    referenceHolds .workroomApprovalRequest ctx d.workroomApprovalRequestId
      (fun w => decide (∀ w' ∈ d.workroomId, w = w')) db

/-- `createHighRiskReview`; `id` is the `gen_random_uuid()` of the row. -/
def createHighRiskReview (ctx : RegulatoryCtx) (id : Uuid) (input : CreateHighRiskReviewInput) :
    GovernanceTx GovernanceOutcome := do
  let visible ← read (getVisibleReference .riskClassification ctx input.riskClassificationId)
  let classification ← orFail (.regulatory 404 "risk_classification_not_found") visible
  failIf (classification.data.asksProhibitedUse = true)
    (.regulatory 400 "prohibited_classification_requires_future_workflow")
  failIf (classification.data.asksHighRisk = false) (.regulatory 400 "classification_not_high_risk")
  let _ ← readReference .workroom ctx (.regulatory 404 "workroom_not_found") input.workroomId
  let request ← readReference .workroomApprovalRequest ctx
    (.regulatory 404 "workroom_approval_request_not_found") input.workroomApprovalRequestId
  failIf (∃ r ∈ request, ∃ w ∈ input.workroomId, r.data ≠ w)
    (.regulatory 400 "workroom_approval_request_workroom_mismatch")
  let permitted ← read (reviewInsertable ctx (newReview ctx input classification.data).identity.detail)
  failIf (permitted = false) (.database "row-level security")
  insertSubject id (newReview ctx input classification.data)
    (.regulatory 409 "high_risk_review_key_conflict")
    (fun _ => .regulatory 409 "high_risk_review_active_for_classification")
  appendAudit ctx (.created .review id (newReview ctx input classification.data))
  pure (.created .review id)

/-! ## Cases -/

/-- `CreateProhibitedUseCaseInput`. -/
structure CreateProhibitedUseCaseInput where
  caseKey : String
  denialPosture : DenialPosture
  prohibitedUsePolicyId : Option Uuid
  riskClassificationId : Option Uuid
  agentCapabilityBindingId : Option Uuid
  requestedByParticipantId : Option Uuid
  summary : SummaryColumn → String
  dueAt : Option ℤ
  metadata : Metadata

/-- The classification is one of a prohibited use. -/
def RiskSnapshot.isProhibited (x : RiskSnapshot) : Bool :=
  x.residualRiskTier = .prohibited ∧ x.inherentRiskTier = .prohibited ∧
    x.requiresProhibitedUseReview = true

/-- The columns that a case copies from its classification and from its binding. -/
def caseDetail (input : CreateProhibitedUseCaseInput) (classification : Option RiskSnapshot)
    (binding : Option CapabilityBinding) : CaseDetail where
  prohibitedUsePolicyId := input.prohibitedUsePolicyId
  riskClassificationId := input.riskClassificationId
  snapshot := classification
  agentId := (binding.map CapabilityBinding.agentId).or (classification.bind RiskSnapshot.agentId)
  agentVersionId := (binding.bind CapabilityBinding.agentVersionId).or
    (classification.bind RiskSnapshot.agentVersionId)
  agentCapabilityBindingId := input.agentCapabilityBindingId
  capabilityKey := binding.map CapabilityBinding.capabilityKey
  capabilityRiskPosture := binding.map CapabilityBinding.riskPosture
  hardDenyFloorExpected := binding.map CapabilityBinding.hardDenyFloorExpected

/-- The row that `createProhibitedUseCase` inserts. -/
def newCase (ctx : RegulatoryCtx) (input : CreateProhibitedUseCaseInput)
    (classification : Option RiskSnapshot) (binding : Option CapabilityBinding) :
    SubjectRow .useCase :=
  newSubject ⟨ctx.orgId, input.caseKey, some ctx.userId, input.requestedByParticipantId,
      some ctx.userId, caseDetail input classification binding⟩
    (some input.denialPosture) input.summary input.dueAt input.metadata

/-- The policy `regulatory_prohibited_use_cases_insert_app`. -/
def caseInsertable (ctx : RegulatoryCtx) (d : CaseDetail) (db : GovernanceDb) : Bool :=
  referenceHolds .prohibitedUsePolicy ctx d.prohibitedUsePolicyId (fun _ => true) db &&
    referenceHolds .riskClassification ctx d.riskClassificationId
      (fun x => x.isProhibited && decide (some x = d.snapshot) && decide (x.agentId = d.agentId) &&
        decide (x.agentVersionId = d.agentVersionId)) db &&
    referenceHolds .agentCapabilityBinding ctx d.agentCapabilityBindingId
      (fun b => decide (some b.agentId = d.agentId) && decide (b.agentVersionId = d.agentVersionId) &&
        decide (some b.capabilityKey = d.capabilityKey) &&
        decide (some b.riskPosture = d.capabilityRiskPosture) &&
        decide (some b.hardDenyFloorExpected = d.hardDenyFloorExpected)) db

/-- The checks of the classification of a case. -/
def requireProhibited : Option (ReferenceRow .riskClassification) → GovernanceTx Unit
  | some c => do
    failIf (c.data.residualRiskTier = .high ∨ c.data.inherentRiskTier = .high)
      (.regulatory 400 "high_risk_review_required")
    failIf (c.data.isProhibited = false) (.regulatory 400 "classification_not_prohibited")
  | none => pure ()

/-- A classification and a binding of a case are about one agent. -/
def requireSameAgent (classification : Option RiskSnapshot) (binding : Option CapabilityBinding) :
    GovernanceTx Unit := do
  failIf (∃ c ∈ classification, ∃ b ∈ binding, c.agentId ≠ some b.agentId)
    (.regulatory 400 "prohibited_use_case_agent_mismatch")
  failIf (∃ c ∈ classification, ∃ b ∈ binding, c.agentVersionId ≠ b.agentVersionId)
    (.regulatory 400 "prohibited_use_case_agent_version_mismatch")

/-- The insert of `createProhibitedUseCase`, and its event. -/
def insertCase (ctx : RegulatoryCtx) (id : Uuid) (row : SubjectRow .useCase) :
    GovernanceTx GovernanceOutcome := do
  let permitted ← read (caseInsertable ctx row.identity.detail)
  failIf (permitted = false) (.database "row-level security")
  insertSubject id row (.regulatory 409 "prohibited_use_case_key_conflict")
    (fun a => match a with
      | .classification _ => .regulatory 409 "prohibited_use_case_active_for_classification"
      | .binding _ => .regulatory 409 "prohibited_use_case_active_for_binding")
  appendAudit ctx (.created .useCase id row)
  pure (.created .useCase id)

/-- `createProhibitedUseCase`; `id` is the `gen_random_uuid()` of the row. -/
def createProhibitedUseCase (ctx : RegulatoryCtx) (id : Uuid)
    (input : CreateProhibitedUseCaseInput) : GovernanceTx GovernanceOutcome := do
  failIf (input.riskClassificationId = none ∧ input.agentCapabilityBindingId = none ∧
    input.prohibitedUsePolicyId = none) (.regulatory 400 "prohibited_use_case_anchor_required")
  let _ ← readReference .prohibitedUsePolicy ctx
    (.regulatory 404 "prohibited_use_policy_not_found") input.prohibitedUsePolicyId
  let classification ← readReference .riskClassification ctx
    (.regulatory 404 "risk_classification_not_found") input.riskClassificationId
  requireProhibited classification
  let binding ← readReference .agentCapabilityBinding ctx
    (.regulatory 404 "agent_capability_binding_not_found") input.agentCapabilityBindingId
  failIf (∃ b ∈ binding, b.data.riskPosture ≠ .prohibited ∧ b.data.hardDenyFloorExpected = false)
    (.regulatory 400 "capability_not_prohibited_or_denied")
  requireSameAgent (classification.map ReferenceRow.data) (binding.map ReferenceRow.data)
  failIf ((∃ b ∈ binding, b.data.riskPosture = .prohibited) ∧ input.denialPosture.denies = false)
    capabilityPosture
  insertCase ctx id
    (newCase ctx input (classification.map ReferenceRow.data) (binding.map ReferenceRow.data))

end GovAI
