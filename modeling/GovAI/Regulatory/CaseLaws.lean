import GovAI.Regulatory.Invariants

/-!
# The laws of reviews and cases

What holds in every reachable state and along every run of the governance workflows, whatever calls
overlap: the status follows the final decision, a closed subject stays closed, and decisions are made by
others than the requester.
-/

namespace GovAI

open TxProgram

variable {c c' : GovernanceState} {k : GovernanceKind} {id : Uuid}

/-! ## A small tenant -/

/-- A user of the tenant of the samples. -/
def governanceCtx (userId : Uuid) (now : ℤ) : RegulatoryCtx := ⟨1, userId, now⟩

/-- A high-risk classification. -/
def sampleHighRisk : RiskSnapshot :=
  ⟨.high, .high, 60, 60, true, false, 1, 1, 1, none, none, none, none, none⟩

/-- A review of it. -/
def sampleReviewInput : CreateHighRiskReviewInput :=
  ⟨"REV", 4, none, none, none, none, fun _ => "", none, []⟩

/-- An approval. -/
def sampleApprove : CreateHighRiskReviewDecisionInput :=
  ⟨⟨.approve, none, "", none, .dpo, "", "", none, none, []⟩, rfl, rfl, nofun⟩

/-- User 3 is to read it. -/
def sampleAssignment : CreateAssignmentInput :=
  ⟨some 3, none, .legal, .assigned, [], .inl (Option.some_ne_none 3)⟩

/-- User 2 opens review 7, assigns it and submits it, and user 3 approves it with decision 9. -/
def sampleApproved : List (GovernanceTx GovernanceOutcome) :=
  [writeReference .riskClassification 4 (some ⟨some 1, sampleHighRisk⟩),
    createHighRiskReview (governanceCtx 2 10) 7 sampleReviewInput,
    createHighRiskReviewAssignment (governanceCtx 2 15) 7 8 sampleAssignment,
    submitHighRiskReview (governanceCtx 2 20) 7,
    createHighRiskReviewDecision (governanceCtx 3 30) 7 9 sampleApprove]

lemma sampleApproved_programs : ∀ p ∈ sampleApproved, GovernanceProgram p := by
  simp only [sampleApproved, List.forall_mem_cons]
  exact ⟨.writeReference .., .createHighRiskReview .., .createHighRiskReviewAssignment ..,
    .submitHighRiskReview .., .createHighRiskReviewDecision .., fun _ h => absurd h List.not_mem_nil⟩

/-- A case on policy 5. -/
def sampleCaseInput : CreateProhibitedUseCaseInput :=
  ⟨"CASE", .hardDenyExpected, some 5, none, none, none, fun _ => "", none, []⟩

/-- The confirmation of a prohibition. -/
def sampleConfirmed : CreateProhibitedUseDeterminationInput :=
  ⟨⟨.prohibitedConfirmed, some .hardDenyExpected, "confirmed", none, .legal, "", "", none, none, []⟩,
    rfl, Option.some_ne_none _, fun _ => by decide⟩

/-- Later user 2 opens case 17 and submits it, and user 3 confirms the prohibition. -/
def sampleLater : List (GovernanceTx GovernanceOutcome) :=
  [writeReference .prohibitedUsePolicy 5 (some ⟨some 1, ()⟩),
    createProhibitedUseCase (governanceCtx 2 40) 17 sampleCaseInput,
    submitProhibitedUseCase (governanceCtx 2 50) 17,
    createProhibitedUseDetermination (governanceCtx 3 60) 17 19 sampleConfirmed]

lemma sampleLater_programs : ∀ p ∈ sampleLater, GovernanceProgram p := by
  simp only [sampleLater, List.forall_mem_cons]
  exact ⟨.writeReference .., .createProhibitedUseCase .., .submitProhibitedUseCase ..,
    .createProhibitedUseDetermination .., fun _ h => absurd h List.not_mem_nil⟩

/-- The empty tables are ones to start with. -/
lemma reachable_noGovernance {C : GovernanceOutcome → GovernanceDb → Prop} :
    (governanceSystem.restrict (CommitsMeet C)).Reachable ⟨noGovernance, fun _ => none⟩ :=
  .init ⟨fun _ => .inr rfl, fun _ => rfl⟩

/-- The state with the approved review. -/
def sampleApprovedState : GovernanceState := ⟨serialRun sampleApproved noGovernance, fun _ => none⟩

lemma reachable_sampleApproved : governanceSystem.Reachable sampleApprovedState :=
  reachable_serialRun 0 (reachable_noGovernance (C := fun _ _ => True)).of_restrict
    sampleApproved_programs

/-- The state after the later calls. -/
def sampleLaterState : GovernanceState :=
  ⟨serialRun sampleLater sampleApprovedState.committed, fun _ => none⟩

lemma sampleApproved_subject : ∃ row : SubjectRow .review,
    sampleApprovedState.committed (.subject .review 7) = some row ∧ row.status = .approved :=
  Option.map_eq_some_iff.mp (show (sampleApprovedState.committed (.subject .review 7)).map
    SubjectRow.status = some .approved by decide +kernel)

lemma sampleLater_subject : ∃ row : SubjectRow .useCase,
    sampleLaterState.committed (.subject .useCase 17) = some row ∧ row.status = .denied :=
  Option.map_eq_some_iff.mp (show (sampleLaterState.committed (.subject .useCase 17)).map
    SubjectRow.status = some .denied by decide +kernel)

/-! ## Status and decisions -/

/-- **The status follows the final decision.**  A review or a case is decided exactly when there is a
final decision on it; there is at most one, and it gives the status; and the times of decision and of
cancellation are set exactly in the matching statuses. -/
theorem governance_status_follows_decision (hc : governanceSystem.Reachable c) {row : SubjectRow k}
    (hrow : c.committed (.subject k id) = some row) :
    (row.status.decided = true ↔ ∃ i x, c.committed (.verdict k i) = some x ∧ x.subjectId = id ∧
        x.input.verdict.final = true) ∧
      (∀ i x, c.committed (.verdict k i) = some x → x.subjectId = id →
        x.input.verdict.final = true → row.status = x.input.verdict.status ∧
          ∀ j y, c.committed (.verdict k j) = some y → y.subjectId = id →
            y.input.verdict.final = true → j = i) ∧
      (row.decidedAt ≠ none ↔ row.status.decided = true) ∧
      (row.cancelledAt ≠ none ↔ row.status = .cancelled) := by
  obtain ⟨H, hsound, -⟩ := governanceSound_of_reachable hc
  have hrowSound := hsound.rows.sound k id row hrow
  have hfits : ∀ i x, c.committed (.verdict k i) = some x → x.subjectId = id → x.Fits row := by
    rintro i x hx rfl
    obtain ⟨row', hrow', hfits⟩ := hsound.decisions.verdict k i x hx
    obtain rfl := Option.some.inj (hrow.symm.trans hrow')
    exact hfits
  refine ⟨⟨fun hdecided => ?_, ?_⟩, fun i x hx hid hfinal => ⟨(hfits i x hx hid).status hfinal, ?_⟩,
    ⟨hrowSound.checks.decidedAt, hrowSound.decidedAt⟩, ?_⟩
  · obtain ⟨i, hi⟩ := hsound.decisions.decided k id row hrow hdecided
    obtain ⟨x, hx, -, hid, hfinal⟩ := (hsound.decisions.final ..).mp hi
    exact ⟨i, x, hx, hid, hfinal⟩
  · rintro ⟨i, x, hx, hid, hfinal⟩
    rw [(hfits i x hx hid).status hfinal, Verdict.decided_status, hfinal]
  · intro j y hy hid' hfinal'
    have hi := (hsound.decisions.final k row.orgId id i).mpr
      ⟨x, hx, (hfits i x hx hid).orgId.symm, hid, hfinal⟩
    have hj := (hsound.decisions.final k row.orgId id j).mpr
      ⟨y, hy, (hfits j y hy hid').orgId.symm, hid', hfinal'⟩
    exact Option.some.inj (hj.symm.trans hi)
  · rw [ne_eq, hrowSound.checks.cancelledAt, not_not]

/-- The approved review has one final decision. -/
theorem governance_status_follows_decision_sample : ∃ row : SubjectRow .review,
    sampleApprovedState.committed (.subject .review 7) = some row ∧ row.status = .approved ∧
      ∃ i x, sampleApprovedState.committed (.verdict .review i) = some x ∧ x.subjectId = 7 ∧
        x.input.verdict.final = true := by
  obtain ⟨row, hrow, hstatus⟩ := sampleApproved_subject
  refine ⟨row, hrow, hstatus, ?_⟩
  exact (governance_status_follows_decision reachable_sampleApproved hrow).1.mp (by rw [hstatus]; rfl)

/-- **Every decision fits its subject**: it is of the tenant of the subject and passes its checks,
neither as user nor as participant has the requester made it where the workflow separates the duties, a
final one is the present status, and on a case with a prohibited capability it confirms the prohibition.
The identity of a subject never changes, so that an overlapping call cannot change the requester. -/
theorem governance_decision_fits (hc : governanceSystem.Reachable c) {i : Uuid} {x : VerdictRow}
    (hx : c.committed (.verdict k i) = some x) :
    ∃ row : SubjectRow k, c.committed (.subject k x.subjectId) = some row ∧ x.Fits row := by
  obtain ⟨H, hsound, -⟩ := governanceSound_of_reachable hc
  exact hsound.decisions.verdict k i x hx

/-- The approval of the sample fits its review. -/
theorem governance_decision_fits_sample : ∃ x : VerdictRow,
    sampleApprovedState.committed (.verdict .review 9) = some x ∧ ∃ row : SubjectRow .review,
      sampleApprovedState.committed (.subject .review x.subjectId) = some row ∧ x.Fits row := by
  obtain ⟨x, hx, -⟩ : ∃ x : VerdictRow, sampleApprovedState.committed (.verdict .review 9) = some x ∧
      x.subjectId = 7 :=
    Option.map_eq_some_iff.mp (show (sampleApprovedState.committed (.verdict .review 9)).map
      VerdictRow.subjectId = some 7 by decide +kernel)
  exact ⟨x, hx, governance_decision_fits reachable_sampleApproved hx⟩

/-! ## Closed subjects -/

/-- **A closed subject stays closed**: along every run it keeps its status, the time of its decision and
its identity, and it gets no more decisions of any kind. -/
theorem governance_closed_stays_closed {as : List (ℕ × LockAction
      (TxPoint GovernanceItem.Val RegulatoryFailure GovernanceOutcome))}
    (hc : governanceSystem.Reachable c) (hrun : governanceSystem.Run c as c') {row : SubjectRow k}
    (hrow : c.committed (.subject k id) = some row) (hclosed : row.status.terminal = true) :
    ∃ row' : SubjectRow k, c'.committed (.subject k id) = some row' ∧ row'.status = row.status ∧
      row'.decidedAt = row.decidedAt ∧ row'.identity = row.identity ∧
      ∀ i x, x.subjectId = id →
        (c'.committed (.verdict k i) = some x ↔ c.committed (.verdict k i) = some x) := by
  have hevolves := evolves_of_run hc hrun
  obtain ⟨row', hrow', hidentity, hstatus⟩ := hevolves.subject k id row hrow
  obtain ⟨hstatus, htime⟩ := hstatus hclosed
  refine ⟨row', hrow', hstatus, htime, hidentity, ?_⟩
  rintro i x rfl
  exact ⟨fun hx => hevolves.closed k i x hx row hrow hclosed, hevolves.verdict k i x⟩

/-- The approved review while a case is opened, submitted and closed. -/
theorem governance_closed_stays_closed_sample : ∃ (row' : SubjectRow .review)
    (other : SubjectRow .useCase), sampleLaterState.committed (.subject .review 7) = some row' ∧
      row'.status = .approved ∧ sampleLaterState.committed (.subject .useCase 17) = some other ∧
      other.status = .denied := by
  obtain ⟨row, hrow, hstatus⟩ := sampleApproved_subject
  obtain ⟨other, hother, hdenied⟩ := sampleLater_subject
  obtain ⟨as, hrun⟩ : ∃ as, (governanceSystem.restrict (CommitsMeet fun _ _ => True)).Run
      sampleApprovedState as sampleLaterState :=
    run_serialRun_of_commits 0 sampleLater_programs (serialMeets_true _ _)
  obtain ⟨row', hrow', hsame, -⟩ := governance_closed_stays_closed reachable_sampleApproved
    hrun.of_restrict hrow (by rw [hstatus]; rfl)
  exact ⟨row', other, hrow', hsame.trans hstatus, hother, hdenied⟩

end GovAI
