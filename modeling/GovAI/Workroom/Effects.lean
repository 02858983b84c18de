import GovAI.Workroom.Membership

/-!
# What each transaction does

The transactions of the approvals move one request, with one event on the policy chain and one turn
(`Moves`); a passthrough run may consume a granted request; and every other transaction leaves the
requests alone.  `workroomProgram_effect` says this of every program, with the participants that it
read in earlier committed states.
-/

namespace GovAI

open TxProgram Function

variable {H : Set WorkroomDb} {s s₀ v db : WorkroomDb} {ws ws' : Pending WorkroomItem.Val}

/-! ## Events about a request -/

/-- The event is about the request: it was raised, decided or revoked. -/
def ChainEvent.About (e : ChainEvent) (a : Uuid) : Prop :=
  (e.eventType = .workroomApprovalRequested ∧ e.subjectId = a) ∨
    (e.eventType.approvalOutcome = true ∧ e.redaction.approvalRequestId = some a)

instance (e : ChainEvent) (a : Uuid) : Decidable (e.About a) := by
  unfold ChainEvent.About; infer_instance

/-- An event that raises a request is about this one. -/
lemma about_raised {e : ChainEvent} {a : Uuid} (he : e.eventType = .workroomApprovalRequested)
    (ha : e.subjectId = a) (a' : Uuid) : e.About a' ↔ a' = a := by
  simp [ChainEvent.About, he, ha, EventType.approvalOutcome, eq_comm]

/-- An event that ends a request is about this one. -/
lemma about_ended {e : ChainEvent} {a : Uuid} (he : e.eventType.approvalOutcome = true)
    (ha : e.redaction.approvalRequestId = some a) (a' : Uuid) : e.About a' ↔ a' = a := by
  have hraised : e.eventType ≠ .workroomApprovalRequested := by
    intro heq
    rw [heq] at he
    cases he
  simp [ChainEvent.About, he, ha, hraised, eq_comm]
/-- A request row is as before, or it was granted and is now consumed. -/
def SameOrConsumed (o o' : Option ApprovalRow) : Prop :=
  o' = o ∨ ∃ r runId now, o = some r ∧ r.status = .granted ∧ r.consumedAt = none ∧
    o' = some { r with consumedRunId := some runId, consumedAt := some now }

/-! ## Transactions about one request -/

/-- From `v` to `v'` the request `a` got the row `r`, with one event on the policy chain and one turn
for it. -/
structure Moves (v v' : WorkroomDb) (a : Uuid) (r : ApprovalRow) (e : ChainEvent) (w : Uuid)
    (t : WorkroomTurnRow) : Prop where
  approval : ∀ a', v' (.approval a') = if a' = a then some r else v (.approval a')
  decision : ∀ a' ≠ a, v' (.decision a') = v (.decision a')
  chain : ∀ c, v' (.chain c) =
    if c = chainIdFor r.orgId .policy then v (.chain c) ++ [e] else v (.chain c)
  turns : ∀ w', v' (.turns w') = if w' = w then v (.turns w') ++ [t] else v (.turns w')
  free : v (.event e.id) = none
  anchor : t.auditEventId = e.id
  about : ∀ a', e.About a' ↔ a' = a

section Moves

variable {v' : WorkroomDb} {a : Uuid} {r r₀ : ApprovalRow} {e : ChainEvent} {w : Uuid}
  {t : WorkroomTurnRow}

/-- The writes of `requestApproval` are such a move. -/
lemma moves_raise (hfree : v (.event e.id) = none) (hanchor : t.auditEventId = e.id)
    (habout : ∀ a', e.About a' ↔ a' = a) :
    Moves v (update (addTurn (addEvent v (chainIdFor r.orgId .policy) e) w t) (.approval a) (some r))
      a r e w t where
  approval a' := by rw [update_approval, addTurn_row rfl, addEvent_row rfl]
  decision a' _ := by rw [update_of_ne (by simp), addTurn_row rfl, addEvent_row rfl]
  chain c := by rw [update_of_ne (by simp), addTurn_chain, addEvent_chain]
  turns w' := by rw [update_of_ne (by simp), addTurn_turns, addEvent_turns]
  free := hfree
  anchor := hanchor
  about := habout

/-- The writes of `revokeApproval` are such a move. -/
lemma moves_revoke (hfree : v (.event e.id) = none) (hanchor : t.auditEventId = e.id)
    (habout : ∀ a', e.About a' ↔ a' = a) :
    Moves v (addTurn (update (addEvent v (chainIdFor r.orgId .policy) e) (.approval a) (some r)) w t)
      a r e w t where
  approval a' := by rw [addTurn_row rfl, update_approval, addEvent_row rfl]
  decision a' _ := by rw [addTurn_row rfl, update_of_ne (by simp), addEvent_row rfl]
  chain c := by rw [addTurn_chain, update_of_ne (by simp), addEvent_chain]
  turns w' := by rw [addTurn_turns, update_of_ne (by simp), addEvent_turns]
  free := hfree
  anchor := hanchor
  about := habout

/-- The writes of `decideApproval` are such a move. -/
lemma moves_decide {d : DecisionRow} (hfree : v (.event e.id) = none)
    (hanchor : t.auditEventId = e.id) (habout : ∀ a', e.About a' ↔ a' = a) :
    Moves v (addTurn (update (update (addEvent v (chainIdFor r.orgId .policy) e) (.decision a)
      (some d)) (.approval a) (some r)) w t) a r e w t where
  approval a' := by
    rw [addTurn_row rfl, update_approval, update_of_ne (by simp), addEvent_row rfl]
  decision a' ha := by
    rw [addTurn_row rfl, update_of_ne (by simp), update_decision, if_neg ha, addEvent_row rfl]
  chain c := by
    rw [addTurn_chain, update_of_ne (by simp), update_of_ne (by simp), addEvent_chain]
  turns w' := by
    rw [addTurn_turns, update_of_ne (by simp), update_of_ne (by simp), addEvent_turns]
  free := hfree
  anchor := hanchor
  about := habout

end Moves

/-! ## The transactions -/

section Programs

variable {sha256 : Bytes → Bytes} {identity : AuthIdentity} {workroomId a eventId : Uuid}
  {occurredAt now : ℤ} {u : Unit}

/-- **What `requestApproval` does**, with the participant that it read. -/
lemma requestApproval_spec {body : CreateApprovalBody}
    (hrun : Exec H s (requestApproval sha256 identity workroomId body a eventId occurredAt) ws u ws') :
    ∃ db ∈ H, ∃ p r e t,
      getActiveHumanParticipant identity.orgId workroomId identity.userId (ws.apply db) = some p ∧
      Moves (ws.apply s) (ws'.apply s) a r e workroomId t ∧ ws.apply s (.approval a) = none ∧
      ws'.apply s (.decision a) = ws.apply s (.decision a) ∧
      e.eventType = .workroomApprovalRequested ∧
      (r.status = .pending ∧ r.decidedAt = none ∧ r.consumedRunId = none ∧ r.consumedAt = none) ∧
      r.requestedByParticipantId = p.id ∧ r.workroomId = workroomId := by
  simp only [requestApproval, exec_bind, exec_read, exec_orFail, exec_lockItem, exec_failIf,
    exec_set] at hrun
  obtain ⟨_, _, ⟨-, rfl⟩, workroom, _, ⟨-, rfl⟩, _, _, ⟨⟨db, hdb, rfl⟩, rfl⟩, p, _, ⟨hp, rfl⟩, n, _,
    hn, e, _, he, _, _, ht, _, _, ⟨rfl, rfl⟩, _, _, ⟨hnone, rfl⟩, rfl⟩ := hrun
  obtain ⟨-, rfl⟩ := nextTurnNumber_spec hn
  obtain ⟨hfree, rfl, hevent⟩ := auditAppend_spec he
  obtain ⟨-, hturn⟩ := insertWorkroomTurn_spec ht
  rw [hturn, hevent] at hnone
  simp only [Pending.apply, hturn, hevent]
  refine ⟨db, hdb, p, _, _, _, hp, moves_raise hfree rfl (about_raised rfl rfl), ?_, ?_, rfl,
    ⟨rfl, rfl, rfl, rfl⟩, rfl, rfl⟩
  · rw [addTurn_row rfl, addEvent_row rfl] at hnone
    simpa using hnone
  · rw [update_of_ne (by simp), addTurn_row rfl, addEvent_row rfl]

lemma lockApprovalRequest_spec {orgId : Uuid} {r : ApprovalRow}
    (h : Exec H s (lockApprovalRequest orgId workroomId a) ws r ws') :
    ws.apply s (.approval a) = some r ∧ r.orgId = orgId ∧ r.workroomId = workroomId ∧ ws' = ws := by
  simp only [lockApprovalRequest, exec_bind, exec_lockItem, exec_orFail, Option.filter_eq_some_iff]
    at h
  obtain ⟨_, _, ⟨rfl, rfl⟩, ⟨hr, horg⟩, rfl⟩ := h
  obtain ⟨horg, hworkroom⟩ := of_decide_eq_true horg
  exact ⟨hr, horg, hworkroom, rfl⟩

lemma insertDecision_spec {row : DecisionRow} (h : Exec H s (insertDecision a row) ws u ws') :
    (∃ r ∈ H, (ws.apply r (.approval a)).map ApprovalRow.requestedByParticipantId ≠
      some row.decidedByParticipantId) ∧
      ws'.apply s = update (ws.apply s) (.decision a) (some row) := by
  simp only [insertDecision, exec_bind, exec_failIf, exec_read, exec_lockItem, exec_set] at h
  obtain ⟨_, _, ⟨-, rfl⟩, _, _, ⟨⟨r, hr, rfl⟩, rfl⟩, _, _, ⟨hne, rfl⟩, _, _, ⟨-, rfl⟩, _, _, ⟨-, rfl⟩,
    rfl⟩ := h
  exact ⟨⟨r, hr, hne⟩, rfl⟩

/-- **What `decideApproval` does**, with the participant that it read. -/
lemma decideApproval_spec {body : DecisionBody} {decisionId : Uuid}
    (hrun : Exec H s (decideApproval identity workroomId a body decisionId eventId now occurredAt)
      ws u ws') :
    ∃ db ∈ H, ∃ p r d e t,
      getActiveHumanParticipant identity.orgId workroomId identity.userId (ws.apply db) = some p ∧
      (p.role = .humanOwner ∨ p.role = .humanApprover) ∧ ws.apply s (.approval a) = some r ∧
      r.workroomId = workroomId ∧ r.status = .pending ∧ r.requestedByParticipantId ≠ p.id ∧
      Moves (ws.apply s) (ws'.apply s) a
        { r with status := body.decision.status, decidedAt := some occurredAt } e workroomId t ∧
      e.eventType = body.decision.eventType ∧ ws'.apply s (.decision a) = some d ∧
      d.decision = body.decision ∧ d.decidedByParticipantId = p.id := by
  simp only [decideApproval, exec_bind, exec_read, exec_orFail, exec_failIf, exec_set] at hrun
  obtain ⟨_, _, ⟨-, rfl⟩, _, _, ⟨-, rfl⟩, _, _, ⟨-, rfl⟩, _, _, ⟨⟨db, hdb, rfl⟩, rfl⟩, p, _,
    ⟨hp, rfl⟩, _, _, ⟨hrole, rfl⟩, r, _, hr, _, _, ⟨hpending, rfl⟩, _, _, ⟨-, rfl⟩, _, _,
    ⟨hduty, rfl⟩, n, _, hn, e, _, he, _, _, hd, _, _, rfl, ht⟩ := hrun
  obtain ⟨hr, horg, hworkroom, rfl⟩ := lockApprovalRequest_spec hr
  obtain ⟨-, rfl⟩ := nextTurnNumber_spec hn
  obtain ⟨hfree, rfl, hevent⟩ := auditAppend_spec he
  obtain ⟨-, hdecision⟩ := insertDecision_spec hd
  obtain ⟨-, hturn⟩ := insertWorkroomTurn_spec ht
  simp only [Pending.apply, hdecision, hevent] at hturn
  have hended : body.decision.eventType.approvalOutcome = true := by cases body.decision <;> rfl
  have hchain : chainIdFor identity.orgId .policy = chainIdFor r.orgId .policy := by rw [horg]
  rw [hturn, hchain]
  refine ⟨db, hdb, p, r, ⟨decisionId, p.id, body.decision, body.reason, eventId⟩, _, _, hp, by tauto,
    hr, hworkroom, not_not.mp hpending, hduty, moves_decide hfree rfl (about_ended hended rfl), rfl,
    ?_, rfl, rfl⟩
  rw [addTurn_row rfl, update_of_ne (by simp), update_decision, if_pos rfl]

/-- **What `revokeApproval` does.** -/
lemma revokeApproval_spec
    (hrun : Exec H s (revokeApproval identity workroomId a eventId occurredAt) ws u ws') :
    ∃ r e t, ws.apply s (.approval a) = some r ∧ r.status = .pending ∧
      Moves (ws.apply s) (ws'.apply s) a
        { r with status := .revoked, decidedAt := some occurredAt } e workroomId t ∧
      e.eventType = .workroomApprovalRevoked ∧
      ws'.apply s (.decision a) = ws.apply s (.decision a) := by
  simp only [revokeApproval, exec_bind, exec_read, exec_orFail, exec_failIf, exec_set] at hrun
  obtain ⟨_, _, ⟨-, rfl⟩, _, _, ⟨-, rfl⟩, _, _, ⟨-, rfl⟩, revoker, _, ⟨-, rfl⟩, r, _, hr, _, _,
    ⟨hpending, rfl⟩, _, _, ⟨-, rfl⟩, n, _, hn, e, _, he, _, _, rfl, ht⟩ := hrun
  obtain ⟨hr, horg, -, rfl⟩ := lockApprovalRequest_spec hr
  obtain ⟨-, rfl⟩ := nextTurnNumber_spec hn
  obtain ⟨hfree, rfl, hevent⟩ := auditAppend_spec he
  obtain ⟨-, hturn⟩ := insertWorkroomTurn_spec ht
  simp only [Pending.apply, hevent] at hturn
  have hchain : chainIdFor identity.orgId .policy = chainIdFor r.orgId .policy := by rw [horg]
  rw [hturn, hchain]
  refine ⟨r, _, _, hr, not_not.mp hpending, moves_revoke hfree rfl (about_ended rfl rfl), rfl, ?_⟩
  rw [addTurn_row rfl, update_of_ne (by simp), addEvent_row rfl]

/-! ## A passthrough run -/

/-- The approval of the request, if there is one, is granted and not consumed. -/
def Consumable (approval : Option Uuid) (db : WorkroomDb) : Prop :=
  ∀ a ∈ approval, ∃ r, db (.approval a) = some r ∧ r.status = .granted ∧ r.consumedAt = none

/-- Approvals are still as in `s₀`. -/
def SameApprovals (s₀ v : WorkroomDb) : Prop := ∀ a, v (.approval a) = s₀ (.approval a)

/-- A statement of a run leaves the approvals as they are. -/
lemma keeps_sameApprovals {α : Type} {p : WorkroomTx α} {r : Uuid}
    (hp : ∀ v₀, Keeps (RunFootprint idempotencyItems r v₀) p) :
    Keeps (fun v => Ledger v ∧ SameApprovals s₀ v) p := by
  rintro H s ws b ws' ⟨hledger, hsame⟩ hrun
  have hfoot := hp _ (Footprint.refl hledger) hrun
  refine ⟨hfoot.ledger, fun a => ?_⟩
  rw [hfoot.rows _ rfl, hsame]
  simp [runItems, WorkroomItem.runId, idempotencyItems]

/-- `assertApprovalConsumable` accepts granted requests that are not consumed. -/
lemma validateApprovalForRun_ok {row : Option ApprovalRow} {action : IntendedPassthroughAction}
    (h : validateApprovalForRun sha256 row workroomId action now = .ok ()) :
    ∃ r, row = some r ∧ r.status = .granted ∧ r.consumedAt = none := by
  cases row with
  | none => cases h
  | some r =>
    simp only [validateApprovalForRun, except_bind_eq_ok_iff, rejectIf_eq_ok_iff] at h
    obtain ⟨_, -, _, hconsumed, _, -, _, -, _, -, _, hgranted, -⟩ := h
    exact ⟨r, rfl, not_not.mp hgranted, not_not.mp hconsumed⟩

variable {body : RunRequest} {ctx : Option WorkroomRunContext} {approval : Option Uuid}
  {idem : Option ResolvedIdempotencyContext} {draw : RunDraw}

lemma assertApprovalOf_consumable (hctx : approval ≠ none → ctx ≠ none)
    (orgId : Uuid) (appNow : ℤ) :
    Triple (fun v => Ledger v ∧ SameApprovals s₀ v)
      (assertApprovalOf sha256 orgId body ctx approval appNow)
      fun _ v => (Ledger v ∧ SameApprovals s₀ v) ∧ Consumable approval s₀ := by
  rintro H s ws b ws' ⟨hledger, hsame⟩ hrun
  cases approval with
  | none =>
    obtain ⟨-, rfl⟩ := (exec_pure () b).mp hrun
    exact ⟨⟨hledger, hsame⟩, nofun⟩
  | some a =>
    cases ctx with
    | none => exact absurd rfl (hctx nofun)
    | some ctx =>
      simp only [assertApprovalOf, assertApprovalConsumable, exec_bind, exec_lockItem,
        exec_ofExcept] at hrun
      obtain ⟨_, _, ⟨rfl, rfl⟩, hok, rfl⟩ := hrun
      obtain ⟨r, hr, hgranted, hconsumed⟩ := validateApprovalForRun_ok hok
      have hrow : s₀ (.approval a) = some r := by
        rw [← hsame a]
        exact (Option.filter_eq_some_iff.mp hr).1
      refine ⟨⟨hledger, hsame⟩, fun a' ha' => ⟨r, ?_, hgranted, hconsumed⟩⟩
      obtain rfl := Option.some.inj ha'
      exact hrow

lemma consumeApprovalOf_consumed {runId : Uuid} (h : Consumable approval s₀) :
    Triple (fun v => Ledger v ∧ SameApprovals s₀ v) (consumeApprovalOf approval runId now)
      fun _ v => Ledger v ∧ ∀ a, SameOrConsumed (s₀ (.approval a)) (v (.approval a)) := by
  rintro H s ws b ws' ⟨hledger, hsame⟩ hrun
  cases approval with
  | none =>
    obtain ⟨-, rfl⟩ := (exec_pure () b).mp hrun
    exact ⟨hledger, fun a => .inl (hsame a)⟩
  | some a =>
    simp only [consumeApprovalOf, consumeApproval, exec_bind, exec_lockItem, exec_orFail,
      exec_set] at hrun
    obtain ⟨_, _, ⟨rfl, rfl⟩, r, _, ⟨hr, rfl⟩, rfl⟩ := hrun
    obtain ⟨r₀, hr₀, hgranted, hfree⟩ := h a rfl
    have hrr : r = r₀ := by
      have hrow := (Option.filter_eq_some_iff.mp hr).1
      rw [hsame a, hr₀] at hrow
      exact (Option.some.inj hrow).symm
    subst hrr
    refine ⟨ledger_update rfl hledger, fun a' => ?_⟩
    by_cases ha : a' = a
    · subst ha
      exact .inr ⟨r, runId, now, hr₀, hgranted, hfree, by simp [Pending.apply]⟩
    · left
      rw [Pending.apply, update_approval, if_neg ha, hsame a']

/-- `passthroughTxA` at most consumes a granted request. -/
lemma passthroughTxA_consumes (hctx : approval ≠ none → ctx ≠ none) :
    Triple (fun v => Ledger v ∧ SameApprovals s₀ v)
      (passthroughTxA sha256 identity body ctx approval idem draw)
      fun _ v => ∀ a, SameOrConsumed (s₀ (.approval a)) (v (.approval a)) := by
  have hfinish : Consumable approval s₀ → Triple (fun v => Ledger v ∧ SameApprovals s₀ v) (do
      consumeApprovalOf approval draw.runId draw.now
      let _ ← appendRunEvent (preparationContext identity ctx draw.runId) draw.eventId
        .runDispatchPrepared draw.now { approvalRequestId := approval }
      pure RunStatus.queued)
      fun _ v => ∀ a, SameOrConsumed (s₀ (.approval a)) (v (.approval a)) := by
    intro hconsumable
    refine triple_bind (consumeApprovalOf_consumed hconsumable) fun _ => ?_
    refine triple_bind (Q := fun _ v => ∀ a, SameOrConsumed (s₀ (.approval a)) (v (.approval a))) ?_
      fun _ => triple_pure fun v h => h
    rintro H s ws e ws' ⟨-, hrows⟩ hrun
    obtain ⟨-, rfl, heq⟩ := auditAppend_spec hrun
    intro a
    rw [heq, addEvent_row rfl]
    exact hrows a
  unfold passthroughTxA
  refine triple_bind (assertWorkroomRunContextStillValid_keeps _ _) fun _ => ?_
  cases idem with
  | none =>
    refine triple_bind (assertApprovalOf_consumable hctx _ _) fun _ => triple_of_and fun hc => ?_
    refine triple_bind (failWith_keeps _ _) fun _ => ?_
    refine triple_bind (keeps_sameApprovals fun v₀ => insertRun_footprint _) fun _ => ?_
    refine triple_bind (keeps_sameApprovals fun v₀ => reserveKey_footprint subset_rfl _) fun _ => ?_
    exact triple_bind (assertApprovalOf_keeps _ _ _ _) fun _ => hfinish hc
  | some idem =>
    refine triple_bind (assertApprovalOf_keeps _ _ _ _) fun _ => ?_
    refine triple_bind (failWith_keeps _ _) fun _ => ?_
    refine triple_bind (keeps_sameApprovals fun v₀ => insertRun_footprint _) fun _ => ?_
    refine triple_bind (keeps_sameApprovals fun v₀ => reserveKey_footprint subset_rfl _) fun _ => ?_
    exact triple_bind (assertApprovalOf_consumable hctx _ _) fun _ => triple_of_and hfinish

end Programs

/-! ## Every transaction -/

/-- The rows of all requests. -/
def approvalRows : Set WorkroomItem := {k | ∃ a, k = .approval a}

/-- **What a transaction does** from `s` to `s'`, after it has read participants in states of `H`. -/
inductive WorkroomEffect (H : Set WorkroomDb) (s s' : WorkroomDb) : Prop
  | route (hfoot : RouteFootprint s s') (hmembers : Members s → MembersSince s s')
  | raised {a orgId user w : Uuid} {db : WorkroomDb} {p : ParticipantRow} {r : ApprovalRow}
      {e : ChainEvent} {t : WorkroomTurnRow} (hfoot : ApprovalFootprint a s s') (hdb : db ∈ H)
      (hactive : getActiveHumanParticipant orgId w user db = some p) (hmove : Moves s s' a r e w t)
      (hnone : s (.approval a) = none) (hdecision : s' (.decision a) = s (.decision a))
      (he : e.eventType = .workroomApprovalRequested)
      (hrow : r.status = .pending ∧ r.decidedAt = none ∧ r.consumedRunId = none ∧
        r.consumedAt = none)
      (hrequester : r.requestedByParticipantId = p.id) (hworkroom : r.workroomId = w)
  | decided {a orgId user w : Uuid} {db : WorkroomDb} {p : ParticipantRow} {r : ApprovalRow}
      {d : DecisionRow} {e : ChainEvent} {t : WorkroomTurnRow} {now : ℤ}
      (hfoot : ApprovalFootprint a s s') (hdb : db ∈ H)
      (hactive : getActiveHumanParticipant orgId w user db = some p)
      (hrole : p.role = .humanOwner ∨ p.role = .humanApprover) (hr : s (.approval a) = some r)
      (hworkroom : r.workroomId = w) (hpending : r.status = .pending)
      (hduty : r.requestedByParticipantId ≠ p.id)
      (hmove : Moves s s' a { r with status := d.decision.status, decidedAt := some now } e w t)
      (he : e.eventType = d.decision.eventType) (hd : s' (.decision a) = some d)
      (hdecider : d.decidedByParticipantId = p.id)
  | revoked {a w : Uuid} {r : ApprovalRow} {e : ChainEvent} {t : WorkroomTurnRow} {now : ℤ}
      (hfoot : ApprovalFootprint a s s') (hr : s (.approval a) = some r) (hpending : r.status = .pending)
      (hmove : Moves s s' a { r with status := .revoked, decidedAt := some now } e w t)
      (he : e.eventType = .workroomApprovalRevoked) (hdecision : s' (.decision a) = s (.decision a))
  | run {r : Uuid} (hfoot : RunFootprint (idempotencyItems ∪ approvalRows) r s s')
      (hrows : ∀ a, SameOrConsumed (s (.approval a)) (s' (.approval a)))

section Effects

variable {sha256 : Bytes → Bytes} {u : Unit}

lemma exec_ignore {α : Type} {p : WorkroomTx α} (h : Exec H s (ignore p) ws u ws') :
    ∃ a, Exec H s p ws a ws' := by
  simp only [ignore, exec_bind, exec_pure] at h
  obtain ⟨a, _, h, -, rfl⟩ := h
  exact ⟨a, h⟩

/-- A run that has no approval. -/
lemma effect_of_runFootprint {r : Uuid} {K : Set WorkroomItem} (h : RunFootprint K r s v)
    (hK : K ⊆ idempotencyItems) : WorkroomEffect H s v := by
  refine .run (h.mono ?_ subset_rfl subset_rfl) fun a => .inl (h.rows _ rfl ?_)
  · exact Set.union_subset_union_right _ (hK.trans Set.subset_union_left)
  · rintro (hk | hk)
    · cases hk
    · obtain ⟨_, _, hk⟩ := hK hk
      cases hk

/-- **Every transaction has such an effect.** -/
theorem workroomProgram_effect {p : WorkroomTx Unit} (hp : WorkroomProgram sha256 p)
    (hledger : Ledger s) (hrun : Exec H s p [] u ws) : WorkroomEffect H s (ws.apply s) := by
  have hroute : Keeps (RouteFootprint s) p → Keeps (MembersSince s) p →
      WorkroomEffect H s (ws.apply s) := fun hfoot hmembers =>
    .route (hfoot.exec (Footprint.refl hledger) hrun) fun h => hmembers.exec ⟨h, .refl s⟩ hrun
  have hignored : ∀ {α : Type} {q : WorkroomTx α} {r : Uuid} {K : Set WorkroomItem},
      p = ignore q → Keeps (RunFootprint K r s) q → K ⊆ idempotencyItems →
      WorkroomEffect H s (ws.apply s) := by
    rintro α q r K rfl hkeeps hK
    obtain ⟨a, hrun⟩ := exec_ignore hrun
    exact effect_of_runFootprint (hkeeps.exec (Footprint.refl hledger) hrun) hK
  cases hp with
  | createWorkroom => exact hroute (createWorkroom_footprint _) (createWorkroom_members _)
  | addParticipant => exact hroute (addParticipant_footprint _) (addParticipant_members _)
  | removeParticipant => exact hroute removeParticipant_footprint removeParticipant_members
  | postMessage => exact hroute postMessage_footprint postMessage_members
  | createTask => exact hroute (createTask_footprint _) (createTask_members _)
  | requestApproval =>
    have hfoot := (requestApproval_footprint _).exec (Footprint.refl hledger) hrun
    obtain ⟨db, hdb, p, r, e, t, hp, hmove, hnone, hdecision, he, hrow, hrequester, hworkroom⟩ :=
      requestApproval_spec hrun
    exact .raised hfoot hdb hp hmove hnone hdecision he hrow hrequester hworkroom
  | decideApproval =>
    have hfoot := (decideApproval_footprint _).exec (Footprint.refl hledger) hrun
    obtain ⟨db, hdb, p, r, d, e, t, hp, hrole, hr, hworkroom, hpending, hduty, hmove, he, hd, houtcome,
      hdecider⟩ := decideApproval_spec hrun
    rw [← houtcome] at hmove he
    exact .decided hfoot hdb hp hrole hr hworkroom hpending hduty hmove he hd hdecider
  | revokeApproval =>
    have hfoot := revokeApproval_footprint.exec (Footprint.refl hledger) hrun
    obtain ⟨r, e, t, hr, hpending, hmove, he, hdecision⟩ := revokeApproval_spec hrun
    exact .revoked hfoot hr hpending hmove he hdecision
  | governedTxA => exact hignored rfl (governedTxA_footprint _) subset_rfl
  | passthroughTxA _ _ _ approval _ _ hctx =>
    obtain ⟨a, hrun⟩ := exec_ignore hrun
    have hfoot := (passthroughTxA_footprint approval).exec (Footprint.refl hledger) hrun
    have hrows := (passthroughTxA_consumes hctx).exec ⟨hledger, fun _ => rfl⟩ hrun
    refine .run (hfoot.mono ?_ subset_rfl subset_rfl) hrows
    refine Set.union_subset_union_right _ (Set.union_subset_union_right _ ?_)
    rintro k ⟨a, -, rfl⟩
    exact ⟨a, rfl⟩
  | claimDispatch => exact hignored (K := ∅) rfl claimDispatch_footprint (Set.empty_subset _)
  | commitDispatchBoundary =>
    exact hignored (K := ∅) rfl commitDispatchBoundary_footprint (Set.empty_subset _)
  | failBoundaryNotEstablished =>
    exact hignored (K := ∅) rfl failBoundaryNotEstablished_footprint (Set.empty_subset _)
  | failPreclaim => exact hignored (K := ∅) rfl (failPreclaim_footprint _) (Set.empty_subset _)
  | markOutcomeUnknown =>
    exact hignored (K := ∅) rfl (markOutcomeUnknown_footprint _ _) (Set.empty_subset _)
  | finalizeKnownOutcome =>
    exact hignored (K := ∅) rfl (finalizeKnownOutcome_footprint _ _) (Set.empty_subset _)
  | recoverQueuedStale =>
    exact hignored (K := ∅) rfl recoverQueuedStale_footprint (Set.empty_subset _)
  | recoverRunningStale =>
    exact hignored (K := ∅) rfl recoverRunningStale_footprint (Set.empty_subset _)

end Effects

end GovAI
