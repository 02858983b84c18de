import GovAI.Regulatory.System

/-!
# What a call of the governance workflows does

`GovernanceEffect` lists the ways in which a committed call changes the tables, as a function of the
committed states that its first read may have seen and of the state at its commit.  Each call has one
of these effects, so that an invariant of the workflows is a statement about the effects.
-/

namespace GovAI

open TxProgram
open scoped OptionConditions

/-! ## Effects -/

/-- The first read of a call has answered an open row of the tenant. -/
def Seen {k : GovernanceKind} (H : Set GovernanceDb) (ctx : RegulatoryCtx) (id : Uuid)
    (existing : SubjectRow k) : Prop :=
  (∃ r ∈ H, getVisibleSubject k ctx id r = some existing) ∧ existing.status.terminal = false

/-- The events about evidence and assignments. -/
def GovernanceEvent.ofChild : GovernanceEvent → Bool
  | evidenceCreated .. | evidenceUpdated .. | evidenceStatusChanged .. => true
  | assignmentCreated .. | assignmentUpdated .. | assignmentStatusChanged .. => true
  | created .. | updated .. | submitted .. | cancelled .. => false
  | verdictCreated .. | decided .. | statusChanged .. => false

/-- The events of a decision. -/
def decidedEvents {k : GovernanceKind} (verdictId id : Uuid) (verdict : VerdictRow)
    (row : SubjectRow k) (previous : GovernanceStatus) : List GovernanceEvent :=
  [GovernanceEvent.verdictCreated k verdictId id verdict row, .decided k id row verdict previous] ++
    if k = .review ∨ row.status ≠ previous then [.statusChanged k id row previous] else []

/-- The entries of the unique indexes of evidence and of assignments. -/
def GovernanceItem.childIndex : GovernanceItem → Bool
  | evidenceKey .. | activeUser .. | activeParticipant .. => true
  | subject .. | verdict .. | evidence .. | assignment .. | reference .. | chain .. => false
  | subjectKey .. | active .. | finalVerdict .. => false

/-- New evidence of a subject, or a new version of evidence that was read as evidence of it. -/
structure EvidenceWritten (H : Set GovernanceDb) (k : GovernanceKind) (id subjectId : Uuid)
    (v v' : GovernanceDb) : Prop where
  after : ∃ row, v' (.evidence k id) = some row ∧
    ((v (.evidence k id) = none ∧ row.subjectId = subjectId) ∨
      ∃ old, v (.evidence k id) = some old ∧ row.subjectId = old.subjectId ∧
        ∃ r ∈ H, ∃ seen, r (.evidence k id) = some seen ∧ seen.subjectId = subjectId)
  frame : ∀ i, i ≠ .evidence k id → i.childIndex = false → v' i = v i

/-- A new assignment of a review, or a new version of one that was read as an assignment of it. -/
structure AssignmentWritten (H : Set GovernanceDb) (id subjectId : Uuid) (v v' : GovernanceDb) :
    Prop where
  after : ∃ row, v' (.assignment id) = some row ∧
    ((v (.assignment id) = none ∧ row.subjectId = subjectId) ∨
      ∃ old, v (.assignment id) = some old ∧ row.subjectId = old.subjectId ∧
        ∃ r ∈ H, ∃ seen, r (.assignment id) = some seen ∧ seen.subjectId = subjectId)
  frame : ∀ i, i ≠ .assignment id → i.childIndex = false → v' i = v i

/-- What a call with this outcome makes of the tables. -/
inductive GovernanceEffect (H : Set GovernanceDb) (v : GovernanceDb) :
    GovernanceOutcome → GovernanceDb → Prop
  | created {k : GovernanceKind} {id : Uuid} {row : SubjectRow k} {v₁ : GovernanceDb}
      (hopened : row.status = .opened) (hsuccessor : row.supersededById = none)
      (h : SubjectCreated id row v v₁) :
      GovernanceEffect H v (.created k id) (logged row.orgId [.created k id row] v₁)
  | updated {k : GovernanceKind} {ctx : RegulatoryCtx} {id : Uuid} {patch : SubjectPatch}
      {existing row : SubjectRow k} {v₁ : GovernanceDb} (hseen : Seen H ctx id existing)
      (horg : row.orgId = ctx.orgId)
      (hsuccessor : ∃ r ∈ H, successorVisible k ctx (patch.assign ctx row).supersededById r = true)
      (h : SubjectWritten id row (patch.assign ctx row) v v₁) :
      GovernanceEffect H v (.edited k id (some existing.status))
        (logged ctx.orgId [.updated k id (patch.assign ctx row)] v₁)
  | submitted {k : GovernanceKind} {ctx : RegulatoryCtx} {id : Uuid}
      {existing row : SubjectRow k} {v₁ : GovernanceDb} (hseen : Seen H ctx id existing)
      (hstatus : k.submittable existing.status = true) (horg : row.orgId = ctx.orgId)
      (h : SubjectWritten id row (assignSubmitted ctx existing row) v v₁) :
      GovernanceEffect H v (.moved k id existing.status) (logged ctx.orgId
        [.submitted k id (assignSubmitted ctx existing row) existing.status,
          .statusChanged k id (assignSubmitted ctx existing row) existing.status] v₁)
  | cancelled {k : GovernanceKind} {ctx : RegulatoryCtx} {id : Uuid} {input : CancelInput}
      {existing row : SubjectRow k} {v₁ : GovernanceDb} (hseen : Seen H ctx id existing)
      (horg : row.orgId = ctx.orgId)
      (h : SubjectWritten id row (assignCancelled ctx input row) v v₁) :
      GovernanceEffect H v (.moved k id existing.status) (logged ctx.orgId
        [.cancelled k id (assignCancelled ctx input row) existing.status input.cancellationReason,
          .statusChanged k id (assignCancelled ctx input row) existing.status] v₁)
  | decided {k : GovernanceKind} {ctx : RegulatoryCtx} {id verdictId : Uuid} {input : VerdictInput}
      {existing row : SubjectRow k} {v₁ v₂ : GovernanceDb} (hseen : Seen H ctx id existing)
      (hstatus : k.decidable existing.status = true)
      (hduty : ¬(k.dutyBound input.verdict = true ∧
        existing.DecidedByRequester ctx.userId input.participantId))
      (horg : row.orgId = ctx.orgId)
      (hverdict : VerdictInserted k verdictId ⟨ctx.orgId, id, some ctx.userId, input⟩ v v₁)
      (h : SubjectWritten id row (assignDecided ctx input row) v₁ v₂) :
      GovernanceEffect H v (.moved k id existing.status) (logged ctx.orgId
        (decidedEvents verdictId id ⟨ctx.orgId, id, some ctx.userId, input⟩
          (assignDecided ctx input row) existing.status) v₂)
  | evidence {k : GovernanceKind} {ctx : RegulatoryCtx} {id subjectId : Uuid}
      {visible : Option (SubjectRow k)} {events : List GovernanceEvent} {v₁ : GovernanceDb}
      (hseen : ∃ r ∈ H, visible = getVisibleSubject k ctx subjectId r)
      (hopen : ∀ row ∈ visible, row.status.terminal = false)
      (hevents : ∀ e ∈ events, e.ofChild = true) (h : EvidenceWritten H k id subjectId v v₁) :
      GovernanceEffect H v (.edited k subjectId (visible.map SubjectRow.status))
        (logged ctx.orgId events v₁)
  | assignment {ctx : RegulatoryCtx} {id subjectId : Uuid}
      {visible : Option (SubjectRow .review)} {events : List GovernanceEvent} {v₁ : GovernanceDb}
      (hseen : ∃ r ∈ H, visible = getVisibleSubject .review ctx subjectId r)
      (hopen : ∀ row ∈ visible, row.status.terminal = false)
      (hevents : ∀ e ∈ events, e.ofChild = true) (h : AssignmentWritten H id subjectId v v₁) :
      GovernanceEffect H v (.edited .review subjectId (visible.map SubjectRow.status))
        (logged ctx.orgId events v₁)
  | reference {t : ReferenceTable} {id : Uuid} {row : Option (ReferenceRow t)} :
      GovernanceEffect H v .other (Function.update v (.reference t id) row)

section Calls

variable {H : Set GovernanceDb} {s : GovernanceDb} {ws ws' : Pending GovernanceItem.Val}
  {k : GovernanceKind} {ctx : RegulatoryCtx} {id : Uuid} {out : GovernanceOutcome}

/-! ## Calls on subjects -/

lemma exec_requireOpen {visible : Option (SubjectRow k)} {row : SubjectRow k}
    (h : Exec H s (requireOpen visible) ws row ws') :
    visible = some row ∧ row.status.terminal = false ∧ ws' = ws := by
  simp only [requireOpen, exec_bind, exec_orFail, exec_failIf, exec_pure] at h
  obtain ⟨_, _, ⟨hvisible, rfl⟩, _, _, ⟨hopen, rfl⟩, rfl, rfl⟩ := h
  exact ⟨hvisible, by simpa using hopen, rfl⟩

lemma readsOnly_requireSuccessor (successor : Option (Option Uuid)) :
    ReadsOnly (requireSuccessor k ctx successor) := by
  unfold requireSuccessor
  split
  · exact (readsOnly_read _).bind fun _ => readsOnly_failIf ..
  · exact readsOnly_pure ()

lemma readsOnly_requireParticipant (workroomId participantId : Option Uuid) :
    ReadsOnly (requireParticipant ctx workroomId participantId) := by
  unfold requireParticipant
  split
  · exact (readsOnly_read _).bind fun _ => (readsOnly_orFail ..).bind fun _ => readsOnly_failIf ..
  · exact readsOnly_pure ()

lemma updateSubjectFields_effect {patch : SubjectPatch}
    (h : Exec H s (updateSubjectFields k ctx id patch) [] out ws) :
    GovernanceEffect H s out (ws.apply s) := by
  simp only [updateSubjectFields, updateSubjectSeen, exec_bind, exec_read, exec_failIf, exec_pure] at h
  obtain ⟨_, _, ⟨⟨r, hr, rfl⟩, rfl⟩, existing, _, hexisting, _, _, hsuccessor, _, _, ⟨-, rfl⟩, _, _,
    hrow, _, _, haudit, rfl, rfl⟩ := h
  obtain ⟨hvisible, hopen, rfl⟩ := exec_requireOpen hexisting
  obtain rfl := readsOnly_requireSuccessor _ hsuccessor
  obtain ⟨row, horg, rfl, hnext, hwritten⟩ := exec_updateSubject hrow
  rw [exec_appendAudit haudit]
  exact .updated ⟨⟨r, hr, hvisible⟩, hopen⟩ horg hnext hwritten

lemma submitSubject_effect (h : Exec H s (submitSubject k ctx id) [] out ws) :
    GovernanceEffect H s out (ws.apply s) := by
  simp only [submitSubject, submitSubjectSeen, exec_bind, exec_read, exec_failIf, exec_pure] at h
  obtain ⟨_, _, ⟨⟨r, hr, rfl⟩, rfl⟩, existing, _, hexisting, _, _, ⟨hstatus, rfl⟩, _, _, hrow, _, _,
    haudit, _, _, haudit', rfl, rfl⟩ := h
  obtain ⟨hvisible, hopen, rfl⟩ := exec_requireOpen hexisting
  obtain ⟨row, horg, rfl, -, hwritten⟩ := exec_updateSubject hrow
  rw [exec_appendAudit haudit', exec_appendAudit haudit, logged_logged]
  exact .submitted ⟨⟨r, hr, hvisible⟩, hopen⟩ (by simpa using hstatus) horg hwritten

lemma cancelSubject_effect {input : CancelInput}
    (h : Exec H s (cancelSubject k ctx id input) [] out ws) :
    GovernanceEffect H s out (ws.apply s) := by
  simp only [cancelSubject, cancelSubjectSeen, exec_bind, exec_read, exec_pure] at h
  obtain ⟨_, _, ⟨⟨r, hr, rfl⟩, rfl⟩, existing, _, hexisting, _, _, hrow, _, _, haudit, _, _, haudit',
    rfl, rfl⟩ := h
  obtain ⟨hvisible, hopen, rfl⟩ := exec_requireOpen hexisting
  obtain ⟨row, horg, rfl, -, hwritten⟩ := exec_updateSubject hrow
  rw [exec_appendAudit haudit', exec_appendAudit haudit, logged_logged]
  exact .cancelled ⟨⟨r, hr, hvisible⟩, hopen⟩ horg hwritten

lemma exec_appendDecided {verdictId : Uuid} {verdict : VerdictRow} {row : SubjectRow k}
    {previous : GovernanceStatus} {b : Unit}
    (h : Exec H s (appendDecided ctx verdictId id verdict row previous) ws b ws') :
    ws'.apply s = logged ctx.orgId (decidedEvents verdictId id verdict row previous) (ws.apply s) := by
  unfold appendDecided at h
  simp only [exec_bind] at h
  obtain ⟨_, _, h₁, _, _, h₂, h⟩ := h
  unfold decidedEvents
  split at h
  · next hlog =>
    rw [exec_appendAudit h, exec_appendAudit h₂, exec_appendAudit h₁, logged_logged, logged_logged,
      if_pos hlog]
    rfl
  · next hlog =>
    obtain ⟨-, rfl⟩ := h
    rw [exec_appendAudit h₂, exec_appendAudit h₁, logged_logged, if_neg hlog]
    rfl

lemma createVerdict_effect {verdictId : Uuid} {input : VerdictInput}
    (h : Exec H s (createVerdict k ctx id verdictId input) [] out ws) :
    GovernanceEffect H s out (ws.apply s) := by
  simp only [createVerdict, createVerdictSeen, exec_bind, exec_read, exec_failIf, exec_pure] at h
  obtain ⟨_, _, ⟨⟨r, hr, rfl⟩, rfl⟩, existing, _, hexisting, _, _, ⟨hstatus, rfl⟩, _, _, ⟨hduty, rfl⟩,
    _, _, ⟨-, rfl⟩, _, _, hparticipant, _, _, hverdict, _, _, hrow, _, _, haudit, rfl, rfl⟩ := h
  obtain ⟨hvisible, hopen, rfl⟩ := exec_requireOpen hexisting
  obtain rfl := readsOnly_requireParticipant _ _ hparticipant
  obtain ⟨rfl, hinserted⟩ := exec_insertVerdict hverdict
  obtain ⟨row, horg, rfl, -, hwritten⟩ := exec_updateSubject hrow
  rw [exec_appendDecided haudit]
  exact .decided ⟨⟨r, hr, hvisible⟩, hopen⟩ (by simpa using hstatus) hduty horg hinserted hwritten

/-! ## Creation -/

lemma readsOnly_readReference {t : ReferenceTable} {notFound : RegulatoryFailure} (i : Option Uuid) :
    ReadsOnly (readReference t ctx notFound i) := by
  unfold readReference
  split
  · exact (readsOnly_read _).bind fun _ => (readsOnly_orFail ..).bind fun _ => readsOnly_pure _
  · exact readsOnly_pure _

lemma readsOnly_requireProhibited (classification : Option (ReferenceRow .riskClassification)) :
    ReadsOnly (requireProhibited classification) := by
  unfold requireProhibited
  split
  · exact (readsOnly_failIf ..).bind fun _ => readsOnly_failIf ..
  · exact readsOnly_pure ()

lemma readsOnly_requireSameAgent (classification : Option RiskSnapshot)
    (binding : Option CapabilityBinding) : ReadsOnly (requireSameAgent classification binding) :=
  (readsOnly_failIf ..).bind fun _ => readsOnly_failIf ..

lemma createHighRiskReview_effect {input : CreateHighRiskReviewInput}
    (h : Exec H s (createHighRiskReview ctx id input) [] out ws) :
    GovernanceEffect H s out (ws.apply s) := by
  obtain ⟨_, -, h⟩ := (readsOnly_read _).exec_bind h
  obtain ⟨classification, -, h⟩ := (readsOnly_orFail ..).exec_bind h
  obtain ⟨_, -, h⟩ := (readsOnly_failIf ..).exec_bind h
  obtain ⟨_, -, h⟩ := (readsOnly_failIf ..).exec_bind h
  obtain ⟨_, -, h⟩ := (readsOnly_readReference _).exec_bind h
  obtain ⟨_, -, h⟩ := (readsOnly_readReference _).exec_bind h
  obtain ⟨_, -, h⟩ := (readsOnly_failIf ..).exec_bind h
  obtain ⟨_, -, h⟩ := (readsOnly_read _).exec_bind h
  obtain ⟨_, -, h⟩ := (readsOnly_failIf ..).exec_bind h
  simp only [exec_bind, exec_pure] at h
  obtain ⟨_, _, hinsert, _, _, haudit, rfl, rfl⟩ := h
  rw [exec_appendAudit haudit]
  exact .created rfl rfl (exec_insertSubject hinsert)

lemma createProhibitedUseCase_effect {input : CreateProhibitedUseCaseInput}
    (h : Exec H s (createProhibitedUseCase ctx id input) [] out ws) :
    GovernanceEffect H s out (ws.apply s) := by
  obtain ⟨_, -, h⟩ := (readsOnly_failIf ..).exec_bind h
  obtain ⟨_, -, h⟩ := (readsOnly_readReference _).exec_bind h
  obtain ⟨classification, -, h⟩ := (readsOnly_readReference _).exec_bind h
  obtain ⟨_, -, h⟩ := (readsOnly_requireProhibited _).exec_bind h
  obtain ⟨binding, -, h⟩ := (readsOnly_readReference _).exec_bind h
  obtain ⟨_, -, h⟩ := (readsOnly_failIf ..).exec_bind h
  obtain ⟨_, -, h⟩ := (readsOnly_requireSameAgent ..).exec_bind h
  obtain ⟨_, -, h⟩ := (readsOnly_failIf ..).exec_bind h
  obtain ⟨_, -, h⟩ := (readsOnly_read _).exec_bind h
  obtain ⟨_, -, h⟩ := (readsOnly_failIf ..).exec_bind h
  simp only [exec_bind, exec_pure] at h
  obtain ⟨_, _, hinsert, _, _, haudit, rfl, rfl⟩ := h
  rw [exec_appendAudit haudit]
  exact .created rfl rfl (exec_insertSubject hinsert)

/-! ## Evidence -/

lemma readsOnly_requireVisibleParents (content : EvidenceContent) :
    ReadsOnly (requireVisibleParents ctx content) :=
  (readsOnly_read _).bind fun _ => (readsOnly_failIf ..).bind fun _ => (readsOnly_read _).bind fun _ =>
    readsOnly_failIf ..

lemma readsOnly_requireNewParents (patch : EvidencePatch) (content : EvidenceContent) :
    ReadsOnly (requireNewParents ctx patch content) :=
  readsOnly_ite (readsOnly_requireVisibleParents _) (readsOnly_pure ())

lemma createEvidence_effect {subjectId : Uuid} {key : String} {content : EvidenceContent}
    (h : Exec H s (createEvidence k ctx subjectId id key content) [] out ws) :
    GovernanceEffect H s out (ws.apply s) := by
  simp only [createEvidence, createEvidenceSeen, exec_bind, exec_read, exec_pure] at h
  obtain ⟨_, _, ⟨⟨r, hr, rfl⟩, rfl⟩, subject, _, hsubject, _, _, hparents, _, _, hinsert, _, _, haudit,
    rfl, rfl⟩ := h
  obtain ⟨hvisible, hopen, rfl⟩ := exec_requireOpen hsubject
  obtain rfl := readsOnly_requireVisibleParents _ hparents
  obtain ⟨_, -, hinsert⟩ := (readsOnly_blockAfterTerminal ..).exec_bind hinsert
  simp only [exec_bind, exec_read, exec_failIf, exec_lockItem, exec_set] at hinsert
  obtain ⟨_, _, ⟨-, rfl⟩, _, _, ⟨-, rfl⟩, _, _, ⟨rfl, rfl⟩, _, _, ⟨hfresh, rfl⟩, _, _, ⟨rfl, rfl⟩, _, _,
    ⟨-, rfl⟩, _, _, rfl, rfl⟩ := hinsert
  rw [exec_appendAudit haudit]
  have hseen : ∃ r ∈ H, some subject = getVisibleSubject k ctx subjectId r := ⟨r, hr, hvisible.symm⟩
  refine .evidence hseen ?_ ?_ ⟨⟨_, Function.update_self .., .inl
    ⟨Option.not_isSome_iff_eq_none.mp hfresh, rfl⟩⟩, fun i hi hindex => ?_⟩
  · rintro row ⟨⟩
    exact hopen
  · exact List.forall_mem_singleton.mpr rfl
  · have hkey : i ≠ .evidenceKey k ctx.orgId subjectId key := by
      rintro rfl
      cases hindex
    exact (Function.update_of_ne hi ..).trans (Function.update_of_ne hkey ..)

lemma exec_appendEvidenceUpdated {row : EvidenceRow} {status : Option EvidenceStatus}
    {previous : EvidenceStatus} {b : Unit}
    (h : Exec H s (appendEvidenceUpdated k ctx id row status previous) ws b ws') :
    ∃ events : List GovernanceEvent, (∀ e ∈ events, e.ofChild = true) ∧
      ws'.apply s = logged ctx.orgId events (ws.apply s) := by
  unfold appendEvidenceUpdated at h
  split at h
  · obtain ⟨_, _, h₁, h₂⟩ := exec_bind.mp h
    rw [exec_appendAudit h₂, exec_appendAudit h₁, logged_logged]
    exact ⟨_, List.forall_mem_cons.mpr ⟨rfl, List.forall_mem_singleton.mpr rfl⟩, rfl⟩
  · exact ⟨_, List.forall_mem_singleton.mpr rfl, exec_appendAudit h⟩

lemma updateEvidence_effect {patch : EvidencePatch}
    (h : Exec H s (updateEvidence k ctx id patch) [] out ws) :
    GovernanceEffect H s out (ws.apply s) := by
  simp only [updateEvidence, updateEvidenceSeen, writeEvidence, requireNotTerminal, exec_bind, exec_read,
    exec_orFail, exec_failIf, exec_lockItem, exec_set, exec_pure] at h
  obtain ⟨_, _, ⟨⟨r, hr, rfl⟩, rfl⟩, existing, _, ⟨hexisting, rfl⟩, _, _, ⟨⟨r', hr', rfl⟩, rfl⟩, _, _,
    ⟨hopen, rfl⟩, _, _, hparents, _, _, ⟨_, _, ⟨rfl, rfl⟩, old, _, ⟨hold, rfl⟩, _, _, ⟨-, rfl⟩, _, _,
    ⟨-, rfl⟩, _, _, rfl, rfl, rfl⟩, _, _, haudit, rfl, rfl⟩ := h
  obtain rfl := readsOnly_requireNewParents _ _ hparents
  obtain ⟨events, hevents, heq⟩ := exec_appendEvidenceUpdated haudit
  rw [heq]
  refine .evidence ⟨r', hr', rfl⟩ (fun row hrow => ?_) hevents ⟨⟨_, Function.update_self .., .inr
    ⟨old, (Option.filter_eq_some_iff.mp hold).1, rfl, r, hr, existing,
      (Option.filter_eq_some_iff.mp hexisting).1, rfl⟩⟩, fun i hi _ => Function.update_of_ne hi ..⟩
  exact Bool.eq_false_iff.mpr fun hterminal => hopen ⟨row, hrow, hterminal⟩

/-! ## Assignments -/

/-- Index entries only. -/
lemma exec_setEntries {owner : Option Uuid} {duplicate : RegulatoryFailure} {is : List GovernanceItem}
    {b : Unit} (h : Exec H s (setEntries owner duplicate is) ws b ws') (i : GovernanceItem)
    (hi : i.childIndex = false) : ws'.apply s i = ws.apply s i := by
  induction is generalizing ws with
  | nil =>
    obtain ⟨-, rfl⟩ := h
    rfl
  | cons j is ih =>
    obtain ⟨_, ws₁, h₁, h₂⟩ := exec_bind.mp h
    rw [ih h₂]
    unfold setEntry at h₁
    split at h₁
    all_goals
      first
        | simp only [exec_bind, exec_lockItem, exec_failIf, exec_set] at h₁
          obtain ⟨_, _, ⟨rfl, rfl⟩, _, _, ⟨-, rfl⟩, rfl⟩ := h₁
          refine Function.update_of_ne ?_ ..
          rintro rfl
          cases hi
        | obtain ⟨-, rfl⟩ := h₁
          rfl

lemma exec_reindexAssignment {row : AssignmentRow} {before after : Bool}
    {duplicate : RegulatoryFailure} {b : Unit}
    (h : Exec H s (reindexAssignment id row before after duplicate) ws b ws') (i : GovernanceItem)
    (hi : i.childIndex = false) : ws'.apply s i = ws.apply s i := by
  unfold reindexAssignment at h
  split at h
  · exact exec_setEntries h i hi
  · exact exec_setEntries h i hi
  · obtain ⟨-, rfl⟩ := h
    rfl

lemma createHighRiskReviewAssignment_effect {reviewId : Uuid} {input : CreateAssignmentInput}
    (h : Exec H s (createHighRiskReviewAssignment ctx reviewId id input) [] out ws) :
    GovernanceEffect H s out (ws.apply s) := by
  simp only [createHighRiskReviewAssignment, createAssignmentSeen, exec_bind, exec_read, exec_pure] at h
  obtain ⟨_, _, ⟨⟨r, hr, rfl⟩, rfl⟩, review, _, hreview, _, _, hparticipant, _, _, hinsert, _, _, haudit,
    rfl, rfl⟩ := h
  obtain ⟨hvisible, hopen, rfl⟩ := exec_requireOpen hreview
  obtain rfl := readsOnly_requireParticipant _ _ hparticipant
  obtain ⟨_, -, hinsert⟩ := (readsOnly_blockAfterTerminal ..).exec_bind hinsert
  obtain ⟨_, -, hinsert⟩ := (readsOnly_childVisible ..).exec_bind hinsert
  simp only [exec_bind, exec_failIf, exec_lockItem, exec_set] at hinsert
  obtain ⟨_, _, ⟨-, rfl⟩, _, _, ⟨rfl, rfl⟩, _, _, ⟨hfresh, rfl⟩, _, _, rfl, hindex⟩ := hinsert
  rw [exec_appendAudit haudit]
  have hseen : ∃ r ∈ H, some review = getVisibleSubject .review ctx reviewId r :=
    ⟨r, hr, hvisible.symm⟩
  refine .assignment hseen ?_ ?_ ⟨⟨newAssignment ctx reviewId input, ?_, .inl
    ⟨Option.not_isSome_iff_eq_none.mp hfresh, rfl⟩⟩, fun i hi hchild => ?_⟩
  · rintro row ⟨⟩
    exact hopen
  · exact List.forall_mem_singleton.mpr rfl
  · rw [exec_reindexAssignment hindex _ rfl]
    exact Function.update_self ..
  · rw [exec_reindexAssignment hindex i hchild]
    exact Function.update_of_ne hi ..

lemma exec_appendAssignmentUpdated {row : AssignmentRow} {status : Option AssignmentStatus}
    {previous : AssignmentStatus} {b : Unit}
    (h : Exec H s (appendAssignmentUpdated ctx id row status previous) ws b ws') :
    ∃ events : List GovernanceEvent, (∀ e ∈ events, e.ofChild = true) ∧
      ws'.apply s = logged ctx.orgId events (ws.apply s) := by
  unfold appendAssignmentUpdated at h
  split at h
  · obtain ⟨_, _, h₁, h₂⟩ := exec_bind.mp h
    rw [exec_appendAudit h₂, exec_appendAudit h₁, logged_logged]
    exact ⟨_, List.forall_mem_cons.mpr ⟨rfl, List.forall_mem_singleton.mpr rfl⟩, rfl⟩
  · exact ⟨_, List.forall_mem_singleton.mpr rfl, exec_appendAudit h⟩

lemma updateHighRiskReviewAssignment_effect {patch : AssignmentPatch}
    (h : Exec H s (updateHighRiskReviewAssignment ctx id patch) [] out ws) :
    GovernanceEffect H s out (ws.apply s) := by
  simp only [updateHighRiskReviewAssignment, updateAssignmentSeen, writeAssignment, requireNotTerminal,
    exec_bind, exec_read, exec_orFail, exec_failIf, exec_lockItem, exec_set, exec_pure] at h
  obtain ⟨_, _, ⟨⟨r, hr, rfl⟩, rfl⟩, existing, _, ⟨hexisting, rfl⟩, _, _, ⟨⟨r', hr', rfl⟩, rfl⟩, _, _,
    ⟨hopen, rfl⟩, _, _, ⟨_, _, ⟨rfl, rfl⟩, old, _, ⟨hold, rfl⟩, _, _, ⟨-, rfl⟩, _, _, ⟨-, rfl⟩, _, _,
    ⟨-, rfl⟩, _, _, rfl, _, _, hindex, rfl, rfl⟩, _, _, haudit, rfl, rfl⟩ := h
  obtain ⟨events, hevents, heq⟩ := exec_appendAssignmentUpdated haudit
  rw [heq]
  refine .assignment ⟨r', hr', rfl⟩ (fun row hrow => ?_) hevents ⟨⟨patch.assign old, ?_, .inr
    ⟨old, (Option.filter_eq_some_iff.mp hold).1, rfl, r, hr, existing,
      (Option.filter_eq_some_iff.mp hexisting).1, rfl⟩⟩, fun i hi hchild => ?_⟩
  · exact Bool.eq_false_iff.mpr fun hterminal => hopen ⟨row, hrow, hterminal⟩
  · rw [exec_reindexAssignment hindex _ rfl]
    exact Function.update_self ..
  · rw [exec_reindexAssignment hindex i hchild]
    exact Function.update_of_ne hi ..

/-! ## All calls -/

/-- **Every call has one of these effects.** -/
theorem GovernanceProgram.effect {p : GovernanceTx GovernanceOutcome} (hp : GovernanceProgram p)
    (h : Exec H s p [] out ws) : GovernanceEffect H s out (ws.apply s) := by
  cases hp with
  | createHighRiskReview ctx id input => exact createHighRiskReview_effect h
  | createProhibitedUseCase ctx id input => exact createProhibitedUseCase_effect h
  | updateHighRiskReview ctx id input => exact updateSubjectFields_effect h
  | updateProhibitedUseCase ctx id input => exact updateSubjectFields_effect h
  | submitHighRiskReview ctx id => exact submitSubject_effect h
  | submitProhibitedUseCase ctx id => exact submitSubject_effect h
  | cancelHighRiskReview ctx id input => exact cancelSubject_effect h
  | cancelProhibitedUseCase ctx id input => exact cancelSubject_effect h
  | createHighRiskReviewDecision ctx reviewId decisionId input => exact createVerdict_effect h
  | createProhibitedUseDetermination ctx caseId determinationId input => exact createVerdict_effect h
  | createHighRiskReviewEvidence ctx reviewId id key content => exact createEvidence_effect h
  | createProhibitedUseEvidence ctx caseId id key content => exact createEvidence_effect h
  | updateHighRiskReviewEvidence ctx id patch => exact updateEvidence_effect h
  | updateProhibitedUseEvidence ctx id patch => exact updateEvidence_effect h
  | createHighRiskReviewAssignment ctx reviewId id input =>
    exact createHighRiskReviewAssignment_effect h
  | updateHighRiskReviewAssignment ctx id patch => exact updateHighRiskReviewAssignment_effect h
  | writeReference t id row =>
    simp only [GovAI.writeReference, exec_bind, exec_set, exec_pure] at h
    obtain ⟨_, _, rfl, rfl, rfl⟩ := h
    exact .reference

end Calls

end GovAI
