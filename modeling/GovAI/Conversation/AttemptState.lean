import GovAI.Conversation.Schedules
import GovAI.Conversation.Workers

/-!
# The state of an attempt

The statements of the workers ask PostgreSQL only for changes that the trigger and the CHECK matrix
admit, although the terminal transition takes its state from the executor: the program point that
sends it, and the row that carries the token, leave no other.  With the growth of the tables this
gives the state invariant of the attempts.
-/

namespace GovAI

variable {env : ConvEnv} {s s' : ConvState}

/-! ## What the trigger admits -/

/-- A change of a non-terminal row that the trigger admits. -/
structure LawfulChange (old new : AttemptRow) : Prop where
  nonTerminal : old.state.nonTerminal = true
  conv : new.conv = old.conv
  branchId : new.branchId = old.branchId
  turnId : new.turnId = old.turnId
  attemptSeq : new.attemptSeq = old.attemptSeq
  createdAt : new.createdAt = old.createdAt
  provenance : old.Provenance → new.providerCredentialId = old.providerCredentialId
  request : old.govaiRequestId ≠ none → new.govaiRequestId = old.govaiRequestId
  capture : new.captureId = old.captureId
  boundary : old.Crossed → new.dispatchBoundaryCommittedAt = old.dispatchBoundaryCommittedAt
  build : old.state = .accepted ∨ new.causalVersionAtBuild = old.causalVersionAtBuild ∧
    new.continuationParent = old.continuationParent
  excluded : new.contextExcluded = old.contextExcluded
  stop : new.stopRequested = old.stopRequested
  terminalAt : new.state.nonTerminal = true → new.terminalAt = old.terminalAt
  edge : lawfulEdge old.providerCredentialId.isSome old.state new.state = true

lemma LawfulChange.guardedUpdate_eq_ok {old new : AttemptRow} (h : LawfulChange old new) :
    guardedUpdate old new = .ok () := by
  have himmutable : ¬old.state.immutable = true := by
    intro hi
    have hold := h.nonTerminal
    cases hs : old.state <;> rw [hs] at hi hold <;>
      simp [AttemptState.immutable, AttemptState.nonTerminal] at hi hold
  have hunknown : old.state ≠ .outcomeUnknown := by
    intro hs
    have hold := h.nonTerminal
    rw [hs] at hold
    cases hold
  simp only [guardedUpdate, if_neg himmutable, if_neg hunknown, except_bind_eq_ok_iff,
    rejectIf_eq_ok_iff, exists_and_left, exists_const]
  refine ⟨?_, ?_, ?_, ?_, ?_, ?_, ?_, ?_, ?_, ?_⟩
  · simp [h.conv, h.branchId, h.turnId, h.attemptSeq, h.createdAt]
  · rintro ⟨hp, hne⟩
    exact hne (h.provenance hp)
  · rintro ⟨hr, hne⟩
    exact hne (h.request hr)
  · rintro ⟨_, hne⟩
    exact hne h.capture
  · rintro ⟨hb, hne⟩
    exact hne (h.boundary hb)
  · rintro ⟨hs, hne⟩
    obtain ⟨hversion, hcontinuation⟩ := h.build.resolve_left hs
    exact hne.elim (· hversion) (· hcontinuation)
  · rintro ⟨he, hne⟩
    exact hne (h.excluded ▸ he)
  · rintro ⟨hs, hne⟩
    exact hne (h.stop ▸ hs)
  · rintro ⟨hne, hn⟩
    exact hne (h.terminalAt hn)
  · exact not_not.mpr h.edge

/-- A lawful change to a row that satisfies the matrix passes. -/
lemma LawfulChange.checkUpdate_eq_ok {old new : AttemptRow} (h : LawfulChange old new)
    (hnew : new.Checks) : checkUpdate old new = .ok () := by
  simp only [checkUpdate, except_bind_eq_ok_iff, rejectIf_eq_ok_iff, not_not]
  exact ⟨(), h.guardedUpdate_eq_ok, hnew⟩

/-- A change of nothing that the trigger guards but the state. -/
lemma LawfulChange.of_state {a : AttemptRow} {state : AttemptState}
    {errorClass : Option AttemptErrorClass} {deadline heartbeat terminalAt : Option ℤ}
    (hnon : a.state.nonTerminal = true)
    (hterminal : state.nonTerminal = true → terminalAt = a.terminalAt)
    (hedge : lawfulEdge a.providerCredentialId.isSome a.state state = true) :
    LawfulChange a { a with
      state := state, errorClass := errorClass, claimDeadlineAt := deadline
      heartbeatAt := heartbeat, terminalAt := terminalAt } :=
  ⟨hnon, rfl, rfl, rfl, rfl, rfl, fun _ => rfl, fun _ => rfl, rfl, fun _ => rfl, .inr ⟨rfl, rfl⟩, rfl,
    rfl, hterminal, hedge⟩

/-! ## The changes of the workers are lawful -/

/-- What an operation needs of the row that it changes. -/
def Op.Permitted (a : AttemptRow) : Op → Prop
  | .markStreaming .. => a.Provenance
  | .finalize _ _ _ state errorClass =>
    (state = .failed ∧ errorClass ≠ none) ∨
    (state = .rejected ∧ errorClass = none ∧ a.state ≠ .streaming) ∨
    (state = .outcomeUnknown ∧ errorClass = none ∧ a.Provenance) ∨
    (state = .completed ∧ errorClass = none ∧ a.state = .streaming)
  | _ => True

/-- An operation in flight has what it needs. -/
lemma ConvState.Workers.permitted (h : s.Workers) (hshape : s.db.Shape) {st : Statement} {op : Op}
    {x : Uuid} {a a' : AttemptRow} (hwrite : AttemptWrite env.deps st op x a a')
    (hrow : s.db.attempts.lookup x = some a) (hlegal : op.Legal s.drives) : op.Permitted a := by
  have hpassed : ∀ {t : Uuid} {d : Drive}, s.drives t = some d → d.attemptId = x →
      d.Reached .gatePassed → a.Provenance ∧ (d.Reached .streaming → a.state ≠ .dispatching) := by
    intro t d hd hx hreached
    obtain ⟨b, hb, -, hprov, hstate⟩ := h.rowsOk.passed t d hd hreached
    obtain rfl : a = b := Option.some.inj (hrow.symm.trans (hx ▸ hb))
    exact ⟨hprov, hstate⟩
  cases hwrite with
  | markStreaming =>
    obtain ⟨d, hd, hx, hreached⟩ := hlegal
    exact (hpassed hd hx (le_trans (by decide) hreached)).1
  | finalize hstate htoken =>
    obtain ⟨d, hd, hx, hfinalizes⟩ := hlegal
    rcases hfinalizes with hfailed | ⟨hs, hclass, hstage, -⟩ | ⟨hs, hclass, hreached⟩ |
      ⟨hs, hclass, hreached⟩
    · exact .inl hfailed
    · refine .inr (.inl ⟨hs, hclass, fun hstreaming => ?_⟩)
      obtain ⟨d', hd', -, hw⟩ := h.rowsOk.rows x a _ hrow htoken
      obtain rfl : d = d' := Option.some.inj (hd.symm.trans hd')
      exact absurd (le_trans (hw.streaming hstreaming) hstage) (by decide)
    · exact .inr (.inr (.inl ⟨hs, hclass, (hpassed hd hx hreached).1⟩))
    · obtain ⟨hprov, hnot⟩ := hpassed hd hx (le_trans (by decide) hreached)
      refine .inr (.inr (.inr ⟨hs, hclass, ?_⟩))
      have haccepted : a.state ≠ .accepted := fun ha =>
        (hshape.checks x a hrow).acceptedNoProvenance ha hprov
      have hdispatching := hnot hreached
      cases hcase : a.state <;> simp_all [AttemptState.nonTerminal]
  | _ => trivial

/-- **Lawful writes.** A permitted change of a row passes the trigger and the constraints. -/
theorem AttemptWrite.checkUpdate_eq_ok {deps : ExecutorDeps} {st : Statement} {op : Op} {x : Uuid}
    {a a' : AttemptRow} (h : AttemptWrite deps st op x a a') (ha : a.Checks)
    (hperm : op.Permitted a) : checkUpdate a a' = .ok () := by
  have hnon := h.nonTerminal
  cases h with
  | claim hstate =>
    refine LawfulChange.checkUpdate_eq_ok ⟨hnon, rfl, rfl, rfl, rfl, rfl, fun _ => rfl, fun _ => rfl,
      rfl, fun _ => rfl, .inr ⟨rfl, rfl⟩, rfl, rfl, fun _ => rfl, ?_⟩ { ha with
        claimShape := by simp [AttemptRow.claimedBy]
        postBoundaryClaim := fun hs => ⟨(by rintro ⟨⟩), (ha.postBoundaryClaim hs).2⟩ }
    simp [AttemptRow.claimedBy, hstate, lawfulEdge]
  | rotate hstate =>
    refine LawfulChange.checkUpdate_eq_ok ⟨hnon, rfl, rfl, rfl, rfl, rfl, fun _ => rfl, fun _ => rfl,
      rfl, fun _ => rfl, .inr ⟨rfl, rfl⟩, rfl, rfl, fun _ => rfl, ?_⟩ { ha with
        claimShape := by simp [AttemptRow.claimedBy]
        postBoundaryClaim := fun hs => ⟨(by rintro ⟨⟩), (ha.postBoundaryClaim hs).2⟩ }
    simp [AttemptRow.claimedBy, hstate, lawfulEdge]
  | reclaim hstate htoken hprov =>
    refine LawfulChange.checkUpdate_eq_ok ⟨hnon, rfl, rfl, rfl, rfl, rfl, fun _ => rfl, fun _ => rfl,
      rfl, fun _ => rfl, .inr ⟨rfl, rfl⟩, rfl, rfl, fun _ => rfl, ?_⟩ { ha with
        claimShape := by simp [AttemptRow.claimedBy]
        postBoundaryClaim := by simp
        completedBoundary := (by rintro ⟨⟩)
        postDispatchProvenance := by simp
        unknownProvenance := (by rintro ⟨⟩)
        acceptedNoProvenance := fun _ => hprov
        terminalAt := (by rintro ⟨⟩)
        failedClass := (by rintro ⟨⟩)
        errorClassFailed := fun hc => absurd ((hstate.symm.trans (ha.errorClassFailed hc))) (by rintro ⟨⟩)
        unknownBoundary := (by rintro ⟨⟩) }
    simp only [AttemptRow.Provenance, not_not] at hprov
    simp [hstate, hprov, lawfulEdge]
  | ratchet hstate htoken hprov =>
    refine (LawfulChange.of_state hnon (fun h => by cases h) ?_).checkUpdate_eq_ok { ha with
        postBoundaryClaim := by simp
        completedBoundary := (by rintro ⟨⟩)
        postDispatchProvenance := by simp
        unknownProvenance := fun _ => hprov
        acceptedNoProvenance := (by rintro ⟨⟩)
        terminalAt := fun _ => by rintro ⟨⟩
        failedClass := (by rintro ⟨⟩)
        errorClassFailed := fun hc => ?_
        unknownBoundary := fun _ => ha.provenanceBoundary hprov }
    · rcases hstate with hstate | hstate <;> rw [hstate] <;> rfl
    · have hfailed := ha.errorClassFailed hc
      rcases hstate with hstate | hstate <;> exact absurd (hstate.symm.trans hfailed) (by rintro ⟨⟩)
  | @boundary b _ hstate htoken =>
    have hprov := ha.acceptedNoProvenance hstate
    refine LawfulChange.checkUpdate_eq_ok ⟨hnon, rfl, rfl, rfl, rfl, rfl, fun _ => rfl, ?_,
      rfl, ?_, .inl hstate, rfl, rfl, fun _ => rfl, ?_⟩ { ha with
        claimShape := ⟨⟨fun h => absurd (htoken.symm.trans h) (by rintro ⟨⟩),
          fun h => absurd (htoken.symm.trans (ha.claimShape.1.mpr h)) (by rintro ⟨⟩)⟩,
          fun h => absurd (htoken.symm.trans h) (by rintro ⟨⟩), (by rintro ⟨⟩)⟩
        postBoundaryClaim := fun _ => ⟨htoken ▸ (by rintro ⟨⟩), ?_⟩
        completedBoundary := (by rintro ⟨⟩)
        postDispatchProvenance := by simp
        unknownProvenance := (by rintro ⟨⟩)
        acceptedNoProvenance := (by rintro ⟨⟩)
        captureRequiresRequest := fun _ => ?_
        requestBoundary := fun _ => ?_
        terminalAt := (by rintro ⟨⟩)
        failedClass := (by rintro ⟨⟩)
        errorClassFailed := fun hc => absurd (hstate.symm.trans (ha.errorClassFailed hc)) (by rintro ⟨⟩)
        unknownBoundary := (by rintro ⟨⟩)
        provenanceBoundary := fun hp => absurd hp hprov
        continuationGroup := ?_ }
    · intro hr
      obtain ⟨r, hr⟩ := Option.ne_none_iff_exists'.mp hr
      simp [hr]
    · intro hb
      obtain ⟨b, hb⟩ := Option.ne_none_iff_exists'.mp hb
      simp [hb]
    · rw [hstate]
      rfl
    · simp [AttemptRow.Crossed]
    · simp
    · simp [AttemptRow.Crossed]
    · cases hc : b.continuationParent <;>
        simp [BoundaryArgs.continuationColumns, ContinuationParent.absent, hc]
  | provenance hstate htoken hlease hprov =>
    have hclaim := ha.postBoundaryClaim (.inl hstate)
    refine LawfulChange.checkUpdate_eq_ok ⟨hnon, rfl, rfl, rfl, rfl, rfl, fun hp => absurd hp hprov,
      fun _ => rfl, rfl, fun _ => rfl, .inr ⟨rfl, rfl⟩, rfl, rfl, fun _ => rfl, ?_⟩ { ha with
        postDispatchProvenance := fun _ => (by rintro ⟨⟩)
        unknownProvenance := fun _ => (by rintro ⟨⟩)
        acceptedNoProvenance := fun hs => absurd (hstate.symm.trans hs) (by rintro ⟨⟩)
        provenanceBoundary := fun _ => hclaim.2 }
    rw [hstate]
    rfl
  | restore hstate htoken hlease hprov =>
    refine (LawfulChange.of_state hnon (fun _ => rfl) ?_).checkUpdate_eq_ok { ha with
        claimShape := ⟨ha.claimShape.1, fun h => absurd (htoken.symm.trans h) (by rintro ⟨⟩), (by rintro ⟨⟩)⟩
        postBoundaryClaim := by simp
        completedBoundary := (by rintro ⟨⟩)
        postDispatchProvenance := by simp
        unknownProvenance := (by rintro ⟨⟩)
        acceptedNoProvenance := fun _ => hprov
        terminalAt := (by rintro ⟨⟩)
        failedClass := (by rintro ⟨⟩)
        errorClassFailed := fun hc => absurd (hstate.symm.trans (ha.errorClassFailed hc)) (by rintro ⟨⟩)
        unknownBoundary := (by rintro ⟨⟩) }
    simp only [AttemptRow.Provenance, not_not] at hprov
    rw [hstate, hprov]
    rfl
  | heartbeat hstate htoken =>
    refine (LawfulChange.of_state hnon (fun _ => rfl) ?_).checkUpdate_eq_ok { ha with
        claimShape := ⟨ha.claimShape.1, fun h => absurd (htoken.symm.trans h) (by rintro ⟨⟩), (by rintro ⟨⟩)⟩ }
    cases a.state <;> simp [lawfulEdge]
  | markStreaming hstate htoken =>
    refine (LawfulChange.of_state hnon (fun _ => rfl) ?_).checkUpdate_eq_ok { ha with
        postBoundaryClaim := fun _ => ha.postBoundaryClaim (.inl hstate)
        completedBoundary := (by rintro ⟨⟩)
        postDispatchProvenance := fun _ => hperm
        unknownProvenance := (by rintro ⟨⟩)
        acceptedNoProvenance := (by rintro ⟨⟩)
        terminalAt := (by rintro ⟨⟩)
        failedClass := (by rintro ⟨⟩)
        errorClassFailed := fun hc => absurd (hstate.symm.trans (ha.errorClassFailed hc)) (by rintro ⟨⟩)
        unknownBoundary := (by rintro ⟨⟩) }
    rw [hstate]
    rfl
  | finalize hstate htoken =>
    rcases hperm with ⟨rfl, hclass⟩ | ⟨rfl, rfl, hnot⟩ | ⟨rfl, rfl, hprov⟩ | ⟨rfl, rfl, hstreaming⟩
    · refine (LawfulChange.of_state hnon (fun h => by cases h) ?_).checkUpdate_eq_ok { ha with
        postBoundaryClaim := by simp
        completedBoundary := (by rintro ⟨⟩)
        postDispatchProvenance := by simp
        unknownProvenance := (by rintro ⟨⟩)
        acceptedNoProvenance := (by rintro ⟨⟩)
        terminalAt := fun _ => by rintro ⟨⟩
        failedClass := fun _ => hclass
        errorClassFailed := fun _ => rfl
        unknownBoundary := (by rintro ⟨⟩) }
      cases hs : a.state <;> first | rfl | (rw [hs] at hstate; cases hstate)
    · refine (LawfulChange.of_state hnon (fun h => by cases h) ?_).checkUpdate_eq_ok { ha with
        postBoundaryClaim := by simp
        completedBoundary := (by rintro ⟨⟩)
        postDispatchProvenance := by simp
        unknownProvenance := (by rintro ⟨⟩)
        acceptedNoProvenance := (by rintro ⟨⟩)
        terminalAt := fun _ => by rintro ⟨⟩
        failedClass := (by rintro ⟨⟩)
        errorClassFailed := by simp
        unknownBoundary := (by rintro ⟨⟩) }
      cases hs : a.state <;> first | rfl | exact absurd hs hnot | (rw [hs] at hstate; cases hstate)
    · have haccepted : a.state ≠ .accepted := fun hs => ha.acceptedNoProvenance hs hprov
      refine (LawfulChange.of_state hnon (fun h => by cases h) ?_).checkUpdate_eq_ok { ha with
        postBoundaryClaim := by simp
        completedBoundary := (by rintro ⟨⟩)
        postDispatchProvenance := by simp
        unknownProvenance := fun _ => hprov
        acceptedNoProvenance := (by rintro ⟨⟩)
        terminalAt := fun _ => by rintro ⟨⟩
        failedClass := (by rintro ⟨⟩)
        errorClassFailed := by simp
        unknownBoundary := fun _ => ha.provenanceBoundary hprov }
      cases hs : a.state <;>
        first | rfl | exact absurd hs haccepted | (rw [hs] at hstate; cases hstate)
    · have hprov := ha.postDispatchProvenance (.inl hstreaming)
      refine (LawfulChange.of_state hnon (fun h => by cases h) ?_).checkUpdate_eq_ok { ha with
        postBoundaryClaim := by simp
        completedBoundary := fun _ => ha.provenanceBoundary hprov
        postDispatchProvenance := fun _ => hprov
        unknownProvenance := (by rintro ⟨⟩)
        acceptedNoProvenance := (by rintro ⟨⟩)
        terminalAt := fun _ => by rintro ⟨⟩
        failedClass := (by rintro ⟨⟩)
        errorClassFailed := by simp
        unknownBoundary := (by rintro ⟨⟩) }
      rw [hstreaming]
      rfl

/-- **No refusal.** In a reachable state no statement of a worker is refused by the trigger or the
constraints of the attempts. -/
theorem not_refused (hs : (conversationSystem env).Reachable s) {owner : OwnerScope} {op : Op}
    {st : Statement} {e : String} (hflight : s.InFlight owner op)
    (hexec : op.exec env.deps st s.db = .error e) : ∃ p i, op = .commitItem p i := by
  have hworkers := reachable_workers hs
  have hist := reachable_history hs
  have hshape := hist.shape s.db hist.current
  rcases Op.exec_error hexec with ⟨x, a, a', e', hwrite, hrow, hcheck⟩ | hitem
  · have hperm := hworkers.permitted hshape hwrite hrow (hworkers.legal owner op hflight)
    rw [hwrite.checkUpdate_eq_ok (hshape.checks x a hrow) hperm] at hcheck
    cases hcheck
  · exact hitem

/-! ## Provenance -/

/-- A row gets a credential in the provenance commit only. -/
lemma AttemptWrite.provenance_cases {deps : ExecutorDeps} {st : Statement} {op : Op} {x : Uuid}
    {a a' : AttemptRow} (h : AttemptWrite deps st op x a a') (hprov : a'.Provenance) :
    a.Provenance ∨ a'.state = .dispatching := by
  cases h with
  | provenance hstate => exact .inr hstate
  | _ => exact .inl hprov

/-- The provenance commit of every credential that a row carries: a committed row of the attempt in
state `dispatching` with the same token and credential. -/
def ConvState.ProvenanceCommitted (s : ConvState) : Prop :=
  ∀ x a, s.db.attempts.lookup x = some a → a.Provenance → ∃ db₀ a₀, s.Past db₀ ∧
    db₀.attempts.lookup x = some a₀ ∧ a₀.state = .dispatching ∧ a₀.claimToken = a.claimToken ∧
    a₀.providerCredentialId = a.providerCredentialId

lemma ConvStep.provenanceCommitted {label : ConvLabel} (step : ConvStep env s label s')
    (hist : s.History env) (hist' : s'.History env) (h : s.ProvenanceCommitted) :
    s'.ProvenanceCommitted := by
  intro x a' ha' hprov
  have hold : ∀ a, s.db.attempts.lookup x = some a → a.Provenance →
      a'.claimToken = a.claimToken → a'.providerCredentialId = a.providerCredentialId →
      ∃ db₀ a₀, s'.Past db₀ ∧ db₀.attempts.lookup x = some a₀ ∧ a₀.state = .dispatching ∧
        a₀.claimToken = a'.claimToken ∧ a₀.providerCredentialId = a'.providerCredentialId := by
    intro a ha hp htoken hcredential
    obtain ⟨db₀, a₀, hpast, ha₀, hstate, htoken₀, hcredential₀⟩ := h x a ha hp
    exact ⟨db₀, a₀, step.past hpast, ha₀, hstate, htoken₀.trans htoken.symm,
      hcredential₀.trans hcredential.symm⟩
  rcases step.commit_cases with ⟨hdb, -⟩ | ⟨hcommit, -⟩
  · exact hold a' (hdb ▸ ha') hprov rfl rfl
  · rcases hcommit.exec_or_quiet hist with ⟨_, _, _, _, -, -, hout⟩ | hquiet
    · generalize hdb' : s'.db = db' at ha' hout
      cases hout with
      | idle => exact hold a' ha' hprov rfl rfl
      | item _ _ hdb =>
        rw [hdb] at ha'
        exact hold a' ha' hprov rfl rfl
      | @write _ _ y _ a b _ hwrite _ hrow _ hdb =>
        have hlookup := ha'
        rw [lookup_of_write hdb] at hlookup
        split at hlookup
        · next hy =>
          subst hy
          cases hlookup
          rcases hwrite.provenance_cases hprov with hp | hstate
          · obtain ⟨hcredential, htoken⟩ :=
              (hwrite.grows ((hist.shape _ hist.current).checks x a hrow)).provenance hp
            exact hold a hrow hp htoken hcredential
          · exact ⟨db', a', hdb' ▸ hist'.current, ha', hstate, rfl, rfl⟩
        · exact hold a' hlookup hprov rfl rfl
    · rcases hquiet x a' ha' with hnone | ⟨a, ha, htoken, -, hcredential⟩
      · have hshape := hist'.shape s'.db hist'.current
        exact absurd hnone (hshape.claimed x a' ha' (.inl fun hs =>
          (hshape.checks x a' ha').acceptedNoProvenance hs hprov))
      · exact hold a ha (by rwa [AttemptRow.Provenance, ← hcredential]) htoken hcredential

/-- Every credential of a row was committed while the attempt was `dispatching`. -/
theorem reachable_provenanceCommitted (hs : (conversationSystem env).Reachable s) :
    s.ProvenanceCommitted := by
  refine hs.invariant ?_ ?_
  · rintro _ ⟨orgs, credentials, rfl⟩ x a ha
    cases ha
  · intro s label s' hs h step
    exact step.provenanceCommitted (reachable_history hs) (reachable_history (hs.step step)) h

/-! ## The state invariant -/

/-- The state invariant of the attempts: every row satisfies the CHECK matrix and is stamped exactly
when it is terminal. -/
structure ConvDb.AttemptsLawful (db : ConvDb) : Prop where
  checks : ∀ x a, db.attempts.lookup x = some a → a.Checks
  terminalAt : ∀ x a, db.attempts.lookup x = some a →
    (a.state.nonTerminal = false ↔ a.terminalAt ≠ none)
  errorClass : ∀ x a, db.attempts.lookup x = some a → (a.state = .failed ↔ a.errorClass ≠ none)

/-- **Attempt state invariant.** In every reachable state all attempts are lawful; no statement that
writes an attempt is refused, whatever committed states its predicates read; a `completed`, `failed`,
`stopped` or `rejected` row is the same in every continuation; and an `outcome_unknown` row had its
credential committed while it was `dispatching`. -/
theorem attempt_state_invariant (hs : (conversationSystem env).Reachable s) :
    s.db.AttemptsLawful ∧
    (∀ owner op st, s.InFlight owner op → s.Runs owner st → (∀ p i, op ≠ .commitItem p i) →
      ∃ r, op.exec env.deps st s.db = .ok r) ∧
    (∀ x a, s.db.attempts.lookup x = some a → a.state.immutable = true →
      ∀ labels s', (conversationSystem env).Run s labels s' → s'.db.attempts.lookup x = some a) ∧
    (∀ x a, s.db.attempts.lookup x = some a → a.state = .outcomeUnknown →
      ∃ db₀ a₀, s.Past db₀ ∧ db₀.attempts.lookup x = some a₀ ∧ a₀.state = .dispatching ∧
        a₀.claimToken = a.claimToken ∧ a₀.providerCredentialId = a.providerCredentialId ∧
        a₀.Provenance) := by
  have hist := reachable_history hs
  have hshape := hist.shape s.db hist.current
  refine ⟨⟨hshape.checks, fun x a ha => ⟨(hshape.checks x a ha).terminalAt, fun hstamp => ?_⟩,
    fun x a ha => ⟨(hshape.checks x a ha).failedClass, (hshape.checks x a ha).errorClassFailed⟩⟩,
    ?_, ?_, ?_⟩
  · by_contra hnon
    exact hstamp (hshape.timed x a ha (by simpa using hnon))
  · intro owner op st hflight _ hitem
    cases hexec : op.exec env.deps st s.db with
    | ok r => exact ⟨r, rfl⟩
    | error e =>
      obtain ⟨p, i, rfl⟩ := not_refused hs hflight hexec
      exact absurd rfl (hitem p i)
  · intro x a ha himmutable labels s' hrun
    refine (Run.conversation_grows hs hrun).terminal ha ?_
    cases hstate : a.state <;> rw [hstate] at himmutable <;> first | rfl | cases himmutable
  · intro x a ha hstate
    have hprov := (hshape.checks x a ha).unknownProvenance hstate
    obtain ⟨db₀, a₀, hpast, ha₀, hstate₀, htoken, hcredential⟩ :=
      reachable_provenanceCommitted hs x a ha hprov
    exact ⟨db₀, a₀, hpast, ha₀, hstate₀, htoken, hcredential,
      by rwa [AttemptRow.Provenance, hcredential]⟩

/-- The theorem at a run that completes an attempt. -/
theorem attempt_state_invariant_sample :
    ∃ s a, (conversationSystem sampleConvEnv).Reachable s ∧ s.db.AttemptsLawful ∧
      s.db.attempts.lookup (sampleUuid 200) = some a ∧ a.state = .completed ∧
      ∀ labels s', (conversationSystem sampleConvEnv).Run s labels s' →
        s'.db.attempts.lookup (sampleUuid 200) = some a := by
  obtain ⟨s, hs, htest⟩ := @samplePlay_reachable' sampleFirstTurn
    (fun s => s.db.attemptIs (sampleUuid 200) .completed) (by decide +kernel)
  obtain ⟨a, ha, hstate⟩ := ConvDb.exists_of_attemptIs htest
  obtain ⟨hlawful, -, hfrozen, -⟩ := attempt_state_invariant hs
  exact ⟨s, a, hs, hlawful, ha, hstate, hfrozen _ a ha (by rw [hstate]; rfl)⟩

end GovAI
