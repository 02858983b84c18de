import GovAI.Library.CommitCondition
import GovAI.Library.TxFrame
import GovAI.Regulatory.Attachments
import GovAI.Regulatory.Creation

/-!
# All calls of the governance workflows together

Every call on high-risk reviews and on prohibited-use cases, by any number of sessions of any tenants,
interleaved statement by statement at READ COMMITTED.  A transaction may be rolled back between any two
statements.  The tables that the workflows only read may change at any time.
-/

namespace GovAI

open TxProgram

/-- Another part of the service writes one of the tables that the workflows only read. -/
def writeReference (t : ReferenceTable) (id : Uuid) (row : Option (ReferenceRow t)) :
    GovernanceTx GovernanceOutcome := do
  set (GovernanceItem.reference t id) row
  pure .other

/-- The transactions. -/
inductive GovernanceProgram : GovernanceTx GovernanceOutcome → Prop
  | createHighRiskReview (ctx : RegulatoryCtx) (id : Uuid) (input : CreateHighRiskReviewInput) :
      GovernanceProgram (createHighRiskReview ctx id input)
  | createProhibitedUseCase (ctx : RegulatoryCtx) (id : Uuid) (input : CreateProhibitedUseCaseInput) :
      GovernanceProgram (createProhibitedUseCase ctx id input)
  | updateHighRiskReview (ctx : RegulatoryCtx) (id : Uuid)
      (input : {patch : SubjectPatch // patch.denialPosture = none}) :
      GovernanceProgram (updateHighRiskReview ctx id input)
  | updateProhibitedUseCase (ctx : RegulatoryCtx) (id : Uuid) (input : SubjectPatch) :
      GovernanceProgram (updateProhibitedUseCase ctx id input)
  | submitHighRiskReview (ctx : RegulatoryCtx) (id : Uuid) :
      GovernanceProgram (submitHighRiskReview ctx id)
  | submitProhibitedUseCase (ctx : RegulatoryCtx) (id : Uuid) :
      GovernanceProgram (submitProhibitedUseCase ctx id)
  | cancelHighRiskReview (ctx : RegulatoryCtx) (id : Uuid) (input : CancelInput) :
      GovernanceProgram (cancelHighRiskReview ctx id input)
  | cancelProhibitedUseCase (ctx : RegulatoryCtx) (id : Uuid) (input : CancelInput) :
      GovernanceProgram (cancelProhibitedUseCase ctx id input)
  | createHighRiskReviewDecision (ctx : RegulatoryCtx) (reviewId decisionId : Uuid)
      (input : CreateHighRiskReviewDecisionInput) :
      GovernanceProgram (createHighRiskReviewDecision ctx reviewId decisionId input)
  | createProhibitedUseDetermination (ctx : RegulatoryCtx) (caseId determinationId : Uuid)
      (input : CreateProhibitedUseDeterminationInput) :
      GovernanceProgram (createProhibitedUseDetermination ctx caseId determinationId input)
  | createHighRiskReviewEvidence (ctx : RegulatoryCtx) (reviewId id : Uuid) (key : String)
      (content : EvidenceContent) :
      GovernanceProgram (createHighRiskReviewEvidence ctx reviewId id key content)
  | createProhibitedUseEvidence (ctx : RegulatoryCtx) (caseId id : Uuid) (key : String)
      (content : EvidenceContent) :
      GovernanceProgram (createProhibitedUseEvidence ctx caseId id key content)
  | updateHighRiskReviewEvidence (ctx : RegulatoryCtx) (id : Uuid) (patch : EvidencePatch) :
      GovernanceProgram (updateHighRiskReviewEvidence ctx id patch)
  | updateProhibitedUseEvidence (ctx : RegulatoryCtx) (id : Uuid) (patch : EvidencePatch) :
      GovernanceProgram (updateProhibitedUseEvidence ctx id patch)
  | createHighRiskReviewAssignment (ctx : RegulatoryCtx) (reviewId id : Uuid)
      (input : CreateAssignmentInput) :
      GovernanceProgram (createHighRiskReviewAssignment ctx reviewId id input)
  | updateHighRiskReviewAssignment (ctx : RegulatoryCtx) (id : Uuid) (patch : AssignmentPatch) :
      GovernanceProgram (updateHighRiskReviewAssignment ctx id patch)
  | writeReference (t : ReferenceTable) (id : Uuid) (row : Option (ReferenceRow t)) :
      GovernanceProgram (writeReference t id row)

/-- No rows. -/
def noGovernance : GovernanceDb
  | .subject _ _ => none
  | .verdict _ _ => none
  | .evidence _ _ => none
  | .assignment _ => none
  | .reference _ _ => none
  | .chain _ => []
  | .subjectKey _ _ _ => none
  | .active _ _ _ => none
  | .finalVerdict _ _ _ => none
  | .evidenceKey _ _ _ _ => none
  | .activeUser _ _ _ _ => none
  | .activeParticipant _ _ _ _ => none

/-- The tables before any of these transactions. -/
def InitialGovernanceDb (db : GovernanceDb) : Prop :=
  ∀ i, (∃ t id, i = .reference t id) ∨ db i = noGovernance i

/-- A state of the system. -/
abbrev GovernanceState : Type :=
  LockState GovernanceDb GovernanceItem
    (TxPoint GovernanceItem.Val RegulatoryFailure GovernanceOutcome) ℕ

/-- All interleavings of these transactions. -/
abbrev governanceSystem : TransitionSystem GovernanceState
    (ℕ × LockAction (TxPoint GovernanceItem.Val RegulatoryFailure GovernanceOutcome)) :=
  txSystem ℕ InitialGovernanceDb GovernanceProgram

/-! ## What a transaction leaves -/

section Effects

variable {H : Set GovernanceDb} {s : GovernanceDb} {ws ws' : Pending GovernanceItem.Val}
  {k : GovernanceKind} {ctx : RegulatoryCtx} {id : Uuid}

/-- The policy chain of a tenant grows by these events. -/
def logged (orgId : Uuid) (events : List GovernanceEvent) (v : GovernanceDb) : GovernanceDb :=
  Function.update v (.chain orgId) (v (.chain orgId) ++ events)

lemma logged_of_ne {orgId : Uuid} {events : List GovernanceEvent} {v : GovernanceDb}
    {i : GovernanceItem} (h : i ≠ .chain orgId) : logged orgId events v i = v i :=
  Function.update_of_ne h ..

lemma logged_self (orgId : Uuid) (events : List GovernanceEvent) (v : GovernanceDb) :
    logged orgId events v (.chain orgId) = v (.chain orgId) ++ events :=
  Function.update_self ..

lemma logged_logged (orgId : Uuid) (events events' : List GovernanceEvent) (v : GovernanceDb) :
    logged orgId events' (logged orgId events v) = logged orgId (events ++ events') v := by
  simp [logged]

/-- The row of a new subject, with the entries of its anchors. -/
structure SubjectCreated (id : Uuid) (row : SubjectRow k) (v v' : GovernanceDb) : Prop where
  fresh : v (.subject k id) = none
  after : v' (.subject k id) = some row
  checks : row.Checks
  claimed : ∀ a ∈ row.identity.anchors,
    v (.active k row.orgId a) = none ∧ v' (.active k row.orgId a) = some id
  frame : ∀ i, i ≠ .subject k id → i ≠ .subjectKey k row.orgId row.identity.key →
    (∀ a ∈ row.identity.anchors, i ≠ .active k row.orgId a) → v' i = v i

/-- A new version of a subject, with the entries of its anchors. -/
structure SubjectWritten (id : Uuid) (row row' : SubjectRow k) (v v' : GovernanceDb) : Prop where
  before : v (.subject k id) = some row
  after : v' (.subject k id) = some row'
  identity : row'.identity = row.identity
  checks : row'.Checks
  released : row.status.terminal = false → row'.status.terminal = true →
    ∀ a ∈ row.identity.anchors, v' (.active k row.orgId a) = none
  held : row'.status.terminal = row.status.terminal →
    ∀ a, v' (.active k row.orgId a) = v (.active k row.orgId a)
  frame : ∀ i, i ≠ .subject k id → (∀ a ∈ row.identity.anchors, i ≠ .active k row.orgId a) →
    v' i = v i

/-- A new decision, with its entry of the index if it is final. -/
structure VerdictInserted (k : GovernanceKind) (id : Uuid) (row : VerdictRow)
    (v v' : GovernanceDb) : Prop where
  fresh : v (.verdict k id) = none
  after : v' (.verdict k id) = some row
  checks : row.Checks k
  claimed : row.input.verdict.final = true → v (.finalVerdict k row.orgId row.subjectId) = none ∧
    v' (.finalVerdict k row.orgId row.subjectId) = some id
  frame : ∀ i, i ≠ .verdict k id →
    (row.input.verdict.final = true → i ≠ .finalVerdict k row.orgId row.subjectId) → v' i = v i

/-! ### Statements -/

lemma exec_appendAudit {event : GovernanceEvent} {b : Unit}
    (h : Exec H s (appendAudit ctx event) ws b ws') :
    ws'.apply s = logged ctx.orgId [event] (ws.apply s) := by
  simp only [appendAudit, exec_bind, exec_lockItem, exec_set] at h
  obtain ⟨_, _, ⟨rfl, rfl⟩, rfl⟩ := h
  rfl

lemma exec_releaseAnchors {orgId : Uuid} {as : List Anchor} {b : Unit}
    (h : Exec H s (releaseAnchors k orgId as) ws b ws') :
    (∀ a ∈ as, ws'.apply s (.active k orgId a) = none) ∧
      ∀ i, (∀ a ∈ as, i ≠ .active k orgId a) → ws'.apply s i = ws.apply s i := by
  induction as generalizing ws with
  | nil =>
    obtain ⟨-, rfl⟩ := h
    exact ⟨fun _ ha => absurd ha List.not_mem_nil, fun _ _ => rfl⟩
  | cons a as ih =>
    simp only [releaseAnchors, exec_bind, exec_set] at h
    obtain ⟨_, _, rfl, h⟩ := h
    obtain ⟨hnone, hframe⟩ := ih h
    constructor
    · intro a' ha'
      by_cases hmem : a' ∈ as
      · exact hnone a' hmem
      · obtain rfl : a' = a := (List.mem_cons.mp ha').resolve_right hmem
        rw [hframe _ fun b hb heq => hmem (by cases heq; exact hb)]
        exact Function.update_self ..
    · intro i hi
      rw [hframe i fun b hb => hi b (List.mem_cons_of_mem _ hb)]
      exact Function.update_of_ne (hi a List.mem_cons_self) ..

lemma exec_claimAnchors {orgId : Uuid} {conflict : Anchor → RegulatoryFailure} {as : List Anchor}
    {b : Unit} (h : Exec H s (claimAnchors k orgId id conflict as) ws b ws') :
    (∀ a ∈ as, ws.apply s (.active k orgId a) = none ∧ ws'.apply s (.active k orgId a) = some id) ∧
      ∀ i, (∀ a ∈ as, i ≠ .active k orgId a) → ws'.apply s i = ws.apply s i := by
  induction as generalizing ws with
  | nil =>
    obtain ⟨-, rfl⟩ := h
    exact ⟨fun _ ha => absurd ha List.not_mem_nil, fun _ _ => rfl⟩
  | cons a as ih =>
    simp only [claimAnchors, exec_bind, exec_lockItem, exec_failIf, exec_set] at h
    obtain ⟨_, _, ⟨rfl, rfl⟩, _, _, ⟨hfree, rfl⟩, _, _, rfl, h⟩ := h
    obtain ⟨hclaimed, hframe⟩ := ih h
    have hne : ∀ a' ∈ as, a' ≠ a := by
      rintro a' ha' rfl
      have hnone := (hclaimed a' ha').1
      rw [Pending.apply, Function.update_self] at hnone
      cases hnone
    constructor
    · intro a' ha'
      by_cases hmem : a' ∈ as
      · obtain ⟨hnone, hsome⟩ := hclaimed a' hmem
        rw [Pending.apply, Function.update_of_ne (by simpa using hne a' hmem)] at hnone
        exact ⟨hnone, hsome⟩
      · obtain rfl : a' = a := (List.mem_cons.mp ha').resolve_right hmem
        refine ⟨by simpa using hfree, ?_⟩
        rw [hframe _ fun b hb heq => hmem (by cases heq; exact hb)]
        exact Function.update_self ..
    · intro i hi
      rw [hframe i fun b hb => hi b (List.mem_cons_of_mem _ hb)]
      exact Function.update_of_ne (hi a List.mem_cons_self) ..

/-- The index entries move with the predicate of the index. -/
lemma exec_reindex {identity : SubjectIdentity k} {before after : GovernanceStatus} {b : Unit}
    (h : Exec H s (reindex k id identity before after) ws b ws') :
    (before.terminal = false → after.terminal = true →
        ∀ a ∈ identity.anchors, ws'.apply s (.active k identity.orgId a) = none) ∧
      (after.terminal = before.terminal → ws' = ws) ∧
      ∀ i, (∀ a ∈ identity.anchors, i ≠ .active k identity.orgId a) →
        ws'.apply s i = ws.apply s i := by
  unfold reindex at h
  split at h
  · next hbefore hafter =>
    obtain ⟨hnone, hframe⟩ := exec_releaseAnchors h
    exact ⟨fun _ _ => hnone, fun heq => absurd heq (by simp [hbefore, hafter]), hframe⟩
  · next hbefore hafter =>
    obtain ⟨-, hframe⟩ := exec_claimAnchors h
    exact ⟨fun heq => absurd heq (by simp [hbefore]),
      fun heq => absurd heq (by simp [hbefore, hafter]), hframe⟩
  · next hclose _ =>
    obtain ⟨-, rfl⟩ := h
    exact ⟨fun hbefore hafter => (hclose hbefore hafter).elim, fun _ => rfl, fun _ _ => rfl⟩

/-- An update of a subject finds a row of the tenant, and writes its new version, whose successor is
visible. -/
lemma exec_updateSubject {assign : SubjectRow k → SubjectRow k} {notFound : RegulatoryFailure}
    {b : SubjectRow k} (h : Exec H s (updateSubject k ctx id assign notFound) ws b ws') :
    ∃ row, row.orgId = ctx.orgId ∧ b = assign row ∧
      (∃ r ∈ H, successorVisible k ctx (assign row).supersededById (ws.apply r) = true) ∧
      SubjectWritten id row (assign row) (ws.apply s) (ws'.apply s) := by
  simp only [updateSubject, writeSubject, exec_bind, exec_lockItem, exec_orFail, exec_failIf, exec_read,
    exec_set, exec_pure] at h
  obtain ⟨_, _, ⟨rfl, rfl⟩, row, _, ⟨hrow, rfl⟩, _, _, ⟨_, _, ⟨hid, rfl⟩, _, _, ⟨⟨r, hr, rfl⟩, rfl⟩, _, _,
    ⟨hvisible, rfl⟩, _, _, ⟨hchecks, rfl⟩, _, _, rfl, hindex⟩, rfl, rfl⟩ := h
  obtain ⟨hbefore, horg⟩ := Option.filter_eq_some_iff.mp hrow
  obtain ⟨hreleased, hheld, hframe⟩ := exec_reindex hindex
  refine ⟨row, by simpa using horg, rfl, ⟨r, hr, by simpa using hvisible⟩, hbefore, ?_,
    not_not.mp hid, not_not.mp hchecks, hreleased, fun heq a => ?_, fun i hi ha => ?_⟩
  · rw [hframe _ (fun a _ => by simp)]
    exact Function.update_self ..
  · rw [hheld heq]
    exact Function.update_of_ne (by simp) ..
  · rw [hframe i ha]
    exact Function.update_of_ne hi ..

/-- A new subject. -/
lemma exec_insertSubject {row : SubjectRow k} {keyConflict : RegulatoryFailure}
    {conflict : Anchor → RegulatoryFailure} {b : Unit}
    (h : Exec H s (insertSubject id row keyConflict conflict) ws b ws') :
    SubjectCreated id row (ws.apply s) (ws'.apply s) := by
  simp only [insertSubject, exec_bind, exec_failIf, exec_lockItem, exec_set] at h
  obtain ⟨_, _, ⟨hchecks, rfl⟩, _, _, ⟨rfl, rfl⟩, _, _, ⟨hfresh, rfl⟩, _, _, ⟨rfl, rfl⟩, _, _,
    ⟨-, rfl⟩, _, _, rfl, _, _, rfl, hclaim⟩ := h
  obtain ⟨hclaimed, hframe⟩ := exec_claimAnchors hclaim
  refine ⟨by simpa using hfresh, ?_, not_not.mp hchecks, fun a ha => ?_, fun i hi hkey ha => ?_⟩
  · rw [hframe _ (fun a _ => by simp)]
    exact Function.update_self ..
  · obtain ⟨hnone, hsome⟩ := hclaimed a ha
    refine ⟨?_, hsome⟩
    rwa [Pending.apply, Function.update_of_ne (by simp), Pending.apply,
      Function.update_of_ne (by simp)] at hnone
  · rw [hframe i ha, Pending.apply, Function.update_of_ne hi, Pending.apply,
      Function.update_of_ne hkey]

/-- The checks before the insert of a decision write nothing. -/
lemma readsOnly_childVisible (subjectId : Uuid) (participantId : Option Uuid) :
    ReadsOnly (childVisible k ctx subjectId participantId) :=
  (readsOnly_read _).bind fun _ => (readsOnly_orFail ..).bind fun _ => (readsOnly_read _).bind fun _ =>
    readsOnly_failIf ..

lemma readsOnly_blockAfterTerminal (subjectId : Uuid) :
    ReadsOnly (blockAfterTerminal k ctx subjectId) :=
  (readsOnly_read _).bind fun _ => readsOnly_failIf ..

lemma readsOnly_separationOfDuties (subjectId : Uuid) (input : VerdictInput) :
    ReadsOnly (separationOfDuties k ctx subjectId input) :=
  (readsOnly_read _).bind fun _ => readsOnly_failIf ..

/-- A new decision. -/
lemma exec_insertVerdict {subjectId : Uuid} {input : VerdictInput} {conflict : RegulatoryFailure}
    {b : VerdictRow} (h : Exec H s (insertVerdict k ctx id subjectId input conflict) ws b ws') :
    b = ⟨ctx.orgId, subjectId, some ctx.userId, input⟩ ∧
      VerdictInserted k id b (ws.apply s) (ws'.apply s) := by
  obtain ⟨_, -, h⟩ := (readsOnly_separationOfDuties ..).exec_bind h
  obtain ⟨_, -, h⟩ := (readsOnly_blockAfterTerminal ..).exec_bind h
  obtain ⟨_, -, h⟩ := (readsOnly_childVisible ..).exec_bind h
  simp only [exec_bind, exec_failIf, exec_lockItem, exec_set, exec_pure] at h
  obtain ⟨_, _, ⟨hchecks, rfl⟩, _, _, ⟨rfl, rfl⟩, _, _, ⟨hfresh, rfl⟩, _, _, rfl, _, _, hclaim, rfl,
    rfl⟩ := h
  refine ⟨rfl, ?_⟩
  unfold claimFinal at hclaim
  split at hclaim
  · simp only [exec_bind, exec_failIf, exec_lockItem, exec_set] at hclaim
    obtain ⟨_, _, ⟨rfl, rfl⟩, _, _, ⟨hfree, rfl⟩, rfl⟩ := hclaim
    rw [Pending.apply, Function.update_of_ne (by simp)] at hfree
    refine ⟨by simpa using hfresh, ?_, not_not.mp hchecks, fun _ => ⟨by simpa using hfree, ?_⟩,
      fun i hi hfinal => ?_⟩
    · rw [Pending.apply, Function.update_of_ne (by simp)]
      exact Function.update_self ..
    · exact Function.update_self ..
    · rw [Pending.apply, Function.update_of_ne (hfinal ‹_›), Pending.apply, Function.update_of_ne hi]
  · next hfinal =>
    obtain ⟨-, rfl⟩ := hclaim
    refine ⟨by simpa using hfresh, ?_, not_not.mp hchecks, fun h => absurd h hfinal, fun i hi _ => ?_⟩
    · exact Function.update_self ..
    · exact Function.update_of_ne hi ..

end Effects

end GovAI
