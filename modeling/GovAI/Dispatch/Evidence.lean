import GovAI.Dispatch.RunLaw

/-!
# The completeness of the run evidence

The view `evidence_provider_without_audit`, which lists the invocations whose run has no lifecycle
event.  Migration 0027 accepts the terminal events only; migration 0029 replaces the view by one that
also accepts `run.outcome_unknown`, since the trace of an unknown outcome has no other event until a late
answer reconciles it.
-/

namespace GovAI

variable {db : WorkroomDb} {orgId r token : Uuid}

/-! ## The view -/

/-- The rows of `audit_events` that an organisation sees. -/
def auditEvents (db : WorkroomDb) (orgId : Uuid) : List ChainEvent :=
  [ChainCategory.auth, .run, .policy, .admin].flatMap fun category =>
    db (.chain (chainIdFor orgId category))

/-- The lifecycle events that the view of 0029 accepts. -/
def EventType.runLifecycle (t : EventType) : Bool := t.terminalRun || t.unknownRun

/-- The invocation is a row of the view, which an organisation reads under its own row level security;
`accepts` is the list of event types in its definition. -/
def EvidenceProviderWithoutAudit (accepts : EventType → Bool) (db : WorkroomDb)
    (orgId runId token : Uuid) : Prop :=
  db (.invocation runId token) ≠ none ∧ (db (.run runId)).map RunRow.orgId = some orgId ∧
    ∀ e ∈ auditEvents db orgId, ¬(e.subjectId = runId ∧ accepts e.eventType = true)

instance (accepts : EventType → Bool) (db : WorkroomDb) (orgId runId token : Uuid) :
    Decidable (EvidenceProviderWithoutAudit accepts db orgId runId token) := by
  unfold EvidenceProviderWithoutAudit; infer_instance

/-! ## Lifecycle events -/

/-- A counted event is an event that the organisation sees. -/
lemma exists_event_of_count {test : EventType → Bool}
    (h : 0 < runEventCount db r (chainIdFor orgId .run) test) :
    ∃ e ∈ auditEvents db orgId, e.subjectId = r ∧ test e.eventType = true := by
  obtain ⟨e, he, htest⟩ := List.countP_pos_iff.mp h
  rw [Bool.and_eq_true] at htest
  refine ⟨e, List.mem_flatMap.mpr ⟨.run, ?_, he⟩, of_decide_eq_true htest.1, htest.2⟩
  decide

/-- An accounted run has a lifecycle event. -/
lemma RunLaw.lifecycle (h : RunLaw db r) {row : RunRow} (hrow : db (.run r) = some row)
    (hacc : row.Accounted) :
    ∃ e ∈ auditEvents db row.orgId, e.subjectId = r ∧ e.eventType.runLifecycle = true := by
  rcases hacc with hended | hunknown
  · have hcount := h.ended (chainIdFor row.orgId .run)
    rw [hrow, countOn, if_pos rfl, RunRow.endedCount, if_pos hended] at hcount
    obtain ⟨e, he, hsubject, htest⟩ := exists_event_of_count (by rw [hcount]; exact one_pos)
    exact ⟨e, he, hsubject, by rw [EventType.runLifecycle, htest, Bool.true_or]⟩
  · have hcount := h.unknown (chainIdFor row.orgId .run)
    rw [hrow, countOn, if_pos rfl, RunRow.unknownCount, if_neg hunknown] at hcount
    obtain ⟨e, he, hsubject, htest⟩ := exists_event_of_count (by rw [hcount]; exact one_pos)
    exact ⟨e, he, hsubject, by rw [EventType.runLifecycle, htest, Bool.or_true]⟩

section System

variable {sha256 : Bytes → Bytes}
  {c : LockState WorkroomDb WorkroomItem (TxPoint WorkroomItem.Val String Unit) TxId}

/-- **No false alarm.**  In every reachable state every invocation belongs to a run that has ended or
whose outcome was declared unknown, with an event that says so; so the view is empty. -/
theorem evidence_provider_without_audit_empty (hc : (workroomSystem sha256).Reachable c) :
    (∀ r t, c.committed (.invocation r t) ≠ none → ∃ row, c.committed (.run r) = some row ∧
      ∃ e ∈ auditEvents c.committed row.orgId,
        e.subjectId = r ∧ e.eventType.runLifecycle = true) ∧
    ∀ orgId r t,
      ¬EvidenceProviderWithoutAudit EventType.runLifecycle c.committed orgId r t := by
  have hevent : ∀ r t, c.committed (.invocation r t) ≠ none →
      ∃ row, c.committed (.run r) = some row ∧ ∃ e ∈ auditEvents c.committed row.orgId,
        e.subjectId = r ∧ e.eventType.runLifecycle = true := by
    intro r t ht
    have hlaw := runLaws_of_reachable hc r
    obtain ⟨row, hrow, -, hacc⟩ := hlaw.invocation t ht
    exact ⟨row, hrow, hlaw.lifecycle hrow hacc⟩
  refine ⟨hevent, fun orgId r t ⟨ht, horg, hnone⟩ => ?_⟩
  obtain ⟨row, hrow, e, he, hmatch⟩ := hevent r t ht
  rw [hrow] at horg
  obtain rfl := Option.some.inj horg
  exact hnone e he hmatch

end System

/-- The invocation of the sample run, which the view does not list. -/
theorem evidence_provider_without_audit_sample :
    (serialRun sampleUnknownRun emptyWorkroomDb) (.invocation (workroomUuid 30) (workroomUuid 40)) ≠
      none ∧ ¬EvidenceProviderWithoutAudit EventType.runLifecycle
        (serialRun sampleUnknownRun emptyWorkroomDb) (workroomUuid 1) (workroomUuid 30)
        (workroomUuid 40) := by
  have hempty := (evidence_provider_without_audit_empty reachable_sampleUnknownRun).2
  dsimp only at hempty
  refine ⟨?_, hempty _ _ _⟩
  have hsome : ((serialRun sampleUnknownRun emptyWorkroomDb)
      (.invocation (workroomUuid 30) (workroomUuid 40))).isSome = true := by decide +kernel
  exact Option.isSome_iff_ne_none.mp hsome

/-- It has no terminal event: the view of 0027 would list it. -/
theorem invocation_without_terminal_event :
    ¬∀ c : LockState WorkroomDb WorkroomItem (TxPoint WorkroomItem.Val String Unit) TxId,
      (workroomSystem fun _ => []).Reachable c → ∀ orgId r t,
        ¬EvidenceProviderWithoutAudit EventType.terminalRun c.committed orgId r t := by
  intro hclaim
  have h := hclaim _ reachable_sampleUnknownRun (workroomUuid 1) (workroomUuid 30) (workroomUuid 40)
  dsimp only at h
  exact h (by decide +kernel)

end GovAI
