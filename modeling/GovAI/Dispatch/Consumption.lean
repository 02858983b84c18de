import GovAI.Dispatch.RunLaw
import GovAI.Workroom.Lifecycle

/-!
# The consumption of an approval

A passthrough run that names an approval consumes it in the transaction that inserts the run and reserves
its key.  `Consumption` says what such a transaction found and what it leaves; a transaction that fails,
or loses the reservation, leaves everything as it was, and no other transaction consumes a request.
-/

namespace GovAI

open TxProgram Function

variable {s s' : WorkroomDb} {sha256 : Bytes → Bytes} {identity : AuthIdentity} {body : RunRequest}
  {ctx : WorkroomRunContext} {a : Uuid} {idem : Option ResolvedIdempotencyContext} {draw : RunDraw}

/-! ## What a transaction consumes -/

/-- The request authorizes this run of the workroom: it was granted, it has not expired or been
consumed, and it was raised for this action. -/
structure ApprovalRow.Authorizes (r : ApprovalRow) (sha256 : Bytes → Bytes) (orgId workroomId : Uuid)
    (action : IntendedPassthroughAction) (now : ℤ) : Prop where
  org : r.orgId = orgId
  workroom : r.workroomId = workroomId
  granted : r.status = .granted
  unexpired : ∀ t ∈ r.expiresAt, now < t
  unconsumed : r.consumedAt = none
  action : r.intendedActionHash = GovAI.intendedActionHash sha256 action

/-- The run row that `passthroughTxA` inserts. -/
def preparedRun (identity : AuthIdentity) (body : RunRequest) (ctx : WorkroomRunContext)
    (now : ℤ) : RunRow :=
  { candidateRun identity body .passthrough (some ctx) now with
    dispatchProtocolVersion := some 1, dispatchPreparedAt := some now }

/-- From `s` to `s'` a passthrough run was prepared, and consumed the request `a`. -/
structure Consumption (sha256 : Bytes → Bytes) (identity : AuthIdentity) (body : RunRequest)
    (ctx : WorkroomRunContext) (a : Uuid) (idem : Option ResolvedIdempotencyContext)
    (draw : RunDraw) (s s' : WorkroomDb) : Prop where
  /-- The request authorized the run, and is now bound to it. -/
  approval : ∃ r, s (.approval a) = some r ∧
    r.Authorizes sha256 identity.orgId ctx.workroomId body.intendedAction draw.appNow ∧
    s' (.approval a) = some { r with consumedRunId := some draw.runId, consumedAt := some draw.now }
  others : ∀ a' ≠ a, s' (.approval a') = s (.approval a')
  /-- The run is new. -/
  run : s (.run draw.runId) = none ∧
    s' (.run draw.runId) = some (preparedRun identity body ctx draw.now)
  /-- So is the reservation of its key. -/
  key : ∀ k ∈ idem, s (.idempotency identity.orgId k.keyHash) = none ∧
    s' (.idempotency identity.orgId k.keyHash) = some ⟨k.intentHash, k.routeScope, draw.runId⟩

/-- The organisation, the workroom and the run of a consumed request. -/
def consumption (db : WorkroomDb) (a : Uuid) : Option (Uuid × Uuid × Uuid) :=
  (db (.approval a)).bind fun r => r.consumedRunId.map fun run => (r.orgId, r.workroomId, run)

/-! ## The transaction -/

section Programs

variable {H : Set WorkroomDb} {ws ws' : Pending WorkroomItem.Val} {u : Unit} {runId : Uuid}

lemma exec_failWith {error : Option String} :
    Exec H s (failWith error) ws u ws' ↔ error = none ∧ ws' = ws := by
  cases error with
  | none => simp [failWith]
  | some e => simp [failWith]

lemma exec_assertContext {orgId : Uuid} {ctx : Option WorkroomRunContext}
    (hrun : Exec H s (assertWorkroomRunContextStillValid orgId ctx) ws u ws') : ws' = ws := by
  cases ctx with
  | none => exact hrun.2
  | some ctx =>
    simp only [assertWorkroomRunContextStillValid, exec_bind, exec_read, exec_failIf] at hrun
    obtain ⟨_, _, ⟨-, rfl⟩, -, rfl⟩ := hrun
    rfl

/-- `insertRun` finds no run and leaves the given one. -/
lemma exec_insertRun {row : RunRow} (hrun : Exec H s (insertRun runId row) ws u ws') :
    ws.apply s (.run runId) = none ∧ ws'.apply s = update (ws.apply s) (.run runId) (some row) := by
  simp only [insertRun, writeRun, exec_bind, exec_lockItem, exec_failIf, exec_set] at hrun
  obtain ⟨_, _, ⟨rfl, rfl⟩, _, _, ⟨hnone, rfl⟩, _, _, ⟨-, rfl⟩, _, _, ⟨-, rfl⟩, rfl⟩ := hrun
  refine ⟨?_, rfl⟩
  simpa using hnone

/-- The winner of a reservation finds none. -/
lemma exec_reserveOrSignalLoser {orgId : Uuid} {k : ResolvedIdempotencyContext}
    (hrun : Exec H s (reserveOrSignalLoser orgId k runId) ws u ws') :
    ws.apply s (.idempotency orgId k.keyHash) = none ∧
      ws'.apply s = update (ws.apply s) (.idempotency orgId k.keyHash)
        (some ⟨k.intentHash, k.routeScope, runId⟩) := by
  simp only [reserveOrSignalLoser, reserveRunIdempotency, exec_bind, exec_lockItem, exec_failIf] at hrun
  obtain ⟨won, ws₁, ⟨_, _, ⟨rfl, rfl⟩, hreserve⟩, hwon, rfl⟩ := hrun
  split at hreserve
  · obtain ⟨rfl, -⟩ := (exec_pure _ _).mp hreserve
    exact absurd rfl hwon
  · next hnone =>
    simp only [exec_bind, exec_set, exec_pure] at hreserve
    obtain ⟨_, _, rfl, -, rfl⟩ := hreserve
    refine ⟨?_, rfl⟩
    simpa using hnone

/-- `assertApprovalConsumable` accepts only a request that authorizes the run. -/
lemma exec_assertApproval {orgId : Uuid} {now : ℤ}
    (hrun : Exec H s (assertApprovalOf sha256 orgId body (some ctx) (some a) now) ws u ws') :
    ws' = ws ∧ ∃ r, ws.apply s (.approval a) = some r ∧
      r.Authorizes sha256 orgId ctx.workroomId body.intendedAction now := by
  simp only [assertApprovalOf, assertApprovalConsumable, exec_bind, exec_lockItem,
    exec_ofExcept] at hrun
  obtain ⟨row, _, ⟨rfl, rfl⟩, hok, rfl⟩ := hrun
  refine ⟨rfl, ?_⟩
  cases hrow : (ws'.apply s (.approval a)).filter fun r => r.orgId = orgId with
  | none =>
    rw [hrow] at hok
    cases hok
  | some r =>
    obtain ⟨hr, horg⟩ := Option.filter_eq_some_iff.mp hrow
    rw [hrow] at hok
    simp only [validateApprovalForRun, except_bind_eq_ok_iff, rejectIf_eq_ok_iff] at hok
    obtain ⟨_, hworkroom, _, hconsumed, _, -, _, -, _, -, _, hgranted, _, hexpires, haction⟩ := hok
    refine ⟨r, hr, of_decide_eq_true horg, not_not.mp hworkroom, not_not.mp hgranted, fun t ht => ?_,
      not_not.mp hconsumed, not_not.mp haction⟩
    rw [Option.mem_def.mp ht] at hexpires
    simpa using hexpires

lemma exec_assertApproval_none {orgId : Uuid} {ctx : Option WorkroomRunContext} {now : ℤ}
    (hrun : Exec H s (assertApprovalOf sha256 orgId body ctx none now) ws u ws') : ws' = ws :=
  hrun.2

/-- `consumeApproval` binds the request to the run. -/
lemma exec_consumeApproval {now : ℤ} {r : ApprovalRow} (hr : ws.apply s (.approval a) = some r)
    (hrun : Exec H s (consumeApprovalOf (some a) runId now) ws u ws') :
    ws'.apply s = update (ws.apply s) (.approval a)
      (some { r with consumedRunId := some runId, consumedAt := some now }) := by
  simp only [consumeApprovalOf, consumeApproval, exec_bind, exec_lockItem, exec_orFail,
    exec_set] at hrun
  obtain ⟨_, _, ⟨rfl, rfl⟩, r', _, ⟨hr', rfl⟩, rfl⟩ := hrun
  obtain rfl := Option.some.inj (hr.symm.trans (Option.filter_eq_some_iff.mp hr').1)
  rfl

/-- **What `passthroughTxA` consumes**, with a key and without one. -/
lemma passthroughTxA_consumption {status : RunStatus}
    (hrun : Exec H s (passthroughTxA sha256 identity body (some ctx) (some a) idem draw) [] status ws) :
    Consumption sha256 identity body ctx a idem draw s (ws.apply s) := by
  unfold passthroughTxA at hrun
  simp only [exec_bind] at hrun
  obtain ⟨_, _, hcontext, _, ws₁, hfirst, _, _, herror, _, ws₂, hinsert, _, ws₃, hreserve, _, ws₅, hsecond,
    _, ws₄, hconsume, e, _, hevent, -, rfl⟩ := hrun
  obtain rfl := exec_assertContext hcontext
  obtain ⟨-, -, hevent⟩ := auditAppend_spec hevent
  obtain ⟨-, rfl⟩ := exec_failWith.mp herror
  have hsame : Pending.apply (K := WorkroomItem) [] s = s := rfl
  cases idem with
  | none =>
    obtain ⟨rfl, r, hr, hauthorizes⟩ := exec_assertApproval hfirst
    obtain ⟨hnone, hinsert⟩ : _ ∧ ws₂.apply s =
      update s (.run draw.runId) (some (preparedRun identity body ctx draw.now)) := exec_insertRun hinsert
    obtain ⟨-, rfl⟩ := hreserve
    obtain rfl := exec_assertApproval_none hsecond
    have hr₂ : ws₅.apply s (.approval a) = some r := by rw [hinsert, update_of_ne (by simp), ← hr, hsame]
    rw [hevent, exec_consumeApproval hr₂ hconsume, hinsert]
    refine ⟨⟨r, hr, hauthorizes, ?_⟩, fun a' ha' => ?_, ⟨hnone, ?_⟩, fun k hk => ?_⟩
    · rw [addEvent_row rfl, update_self]
    · rw [addEvent_row rfl, update_approval, if_neg ha', update_of_ne (by simp)]
    · rw [addEvent_row rfl, update_of_ne (by simp), update_self]
    · cases hk
  | some k =>
    obtain rfl := exec_assertApproval_none hfirst
    obtain ⟨hnone, hinsert⟩ : _ ∧ ws₂.apply s =
      update s (.run draw.runId) (some (preparedRun identity body ctx draw.now)) := exec_insertRun hinsert
    obtain ⟨hfree, hreserve⟩ := exec_reserveOrSignalLoser hreserve
    obtain ⟨rfl, r, hr, hauthorizes⟩ := exec_assertApproval hsecond
    rw [hevent, exec_consumeApproval hr hconsume, hreserve, hinsert]
    rw [hreserve, hinsert, update_of_ne (by simp), update_of_ne (by simp)] at hr
    rw [hinsert, update_of_ne (by simp)] at hfree
    refine ⟨⟨r, hr, hauthorizes, ?_⟩, fun a' ha' => ?_, ⟨hnone, ?_⟩, fun k' hk' => ?_⟩
    · rw [addEvent_row rfl, update_self]
    · rw [addEvent_row rfl, update_approval, if_neg ha', update_of_ne (by simp),
        update_of_ne (by simp)]
    · rw [addEvent_row rfl, update_of_ne (by simp), update_of_ne (by simp), update_self]
    · obtain rfl := Option.some.inj hk'
      refine ⟨hfree, ?_⟩
      rw [addEvent_row rfl, update_of_ne (by simp), update_self]

/-- A transaction of a run without approval leaves the consumptions. -/
lemma consumption_of_rows (h : ∀ a, s' (.approval a) = s (.approval a)) (a : Uuid) :
    consumption s' a = consumption s a := by
  rw [consumption, h, consumption]

/-- A move of a request that keeps its organisation, workroom and run. -/
lemma Moves.consumption {r : ApprovalRow} {e : ChainEvent} {w : Uuid} {t : WorkroomTurnRow}
    (h : Moves s s' a r e w t)
    (ha : consumption s a = r.consumedRunId.map fun run => (r.orgId, r.workroomId, run))
    (a' : Uuid) : consumption s' a' = consumption s a' := by
  by_cases heq : a' = a
  · subst heq
    rw [ha, GovAI.consumption, h.approval, if_pos rfl]
    rfl
  · rw [GovAI.consumption, h.approval, if_neg heq, GovAI.consumption]

/-- **Only such transactions consume requests.** -/
lemma workroomProgram_consumption {p : WorkroomTx Unit} (hp : WorkroomProgram sha256 p)
    (hledger : Ledger s) (hrun : Exec H s p [] u ws) :
    (∀ a, consumption (ws.apply s) a = consumption s a) ∨
      ∃ identity body ctx a idem draw,
        Consumption sha256 identity body ctx a idem draw s (ws.apply s) := by
  have hroute : Keeps (RouteFootprint s) p → ∀ a, consumption (ws.apply s) a = consumption s a :=
    fun hfoot => consumption_of_rows fun a =>
      (hfoot.exec (Footprint.refl hledger) hrun).rows _ rfl (by simp [membershipItems])
  have hignored : ∀ {α : Type} {q : WorkroomTx α} {r : Uuid} {K : Set WorkroomItem},
      p = ignore q → Keeps (RunFootprint K r s) q → K ⊆ idempotencyItems →
      ∀ a, consumption (ws.apply s) a = consumption s a := by
    rintro α q r K rfl hkeeps hK
    obtain ⟨b, hrun⟩ := exec_ignore hrun
    refine consumption_of_rows fun a => (hkeeps.exec (Footprint.refl hledger) hrun).rows _ rfl ?_
    rintro (hk | hk)
    · cases hk
    · obtain ⟨_, _, hk⟩ := hK hk
      cases hk
  have hempty := Set.empty_subset idempotencyItems
  cases hp with
  | createWorkroom => exact .inl (hroute (createWorkroom_footprint _))
  | addParticipant => exact .inl (hroute (addParticipant_footprint _))
  | removeParticipant => exact .inl (hroute removeParticipant_footprint)
  | postMessage => exact .inl (hroute postMessage_footprint)
  | createTask => exact .inl (hroute (createTask_footprint _))
  | requestApproval =>
    obtain ⟨db, -, p, r, e, t, -, hmove, hnone, -, -, ⟨-, -, hfree, -⟩, -⟩ := requestApproval_spec hrun
    refine .inl (hmove.consumption ?_)
    rw [consumption, hnone, hfree]
    rfl
  | decideApproval =>
    obtain ⟨db, -, p, r, d, e, t, -, -, hr, -, -, -, hmove, -⟩ := decideApproval_spec hrun
    refine .inl (hmove.consumption ?_)
    rw [consumption, hr]
    rfl
  | revokeApproval =>
    obtain ⟨r, e, t, hr, -, hmove, -⟩ := revokeApproval_spec hrun
    refine .inl (hmove.consumption ?_)
    rw [consumption, hr]
    rfl
  | governedTxA => exact .inl (hignored rfl (governedTxA_footprint _) subset_rfl)
  | passthroughTxA identity body ctx approval idem draw hctx =>
    cases approval with
    | none =>
      refine .inl (hignored rfl (passthroughTxA_footprint none) ?_)
      rintro k (hk | ⟨a, ha, -⟩)
      · exact hk
      · cases ha
    | some a =>
      cases ctx with
      | none => exact absurd rfl (hctx (Option.some_ne_none a))
      | some ctx =>
        obtain ⟨status, hrun⟩ := exec_ignore hrun
        exact .inr ⟨_, _, _, _, _, _, passthroughTxA_consumption hrun⟩
  | claimDispatch => exact .inl (hignored rfl claimDispatch_footprint hempty)
  | commitDispatchBoundary => exact .inl (hignored rfl commitDispatchBoundary_footprint hempty)
  | failBoundaryNotEstablished =>
    exact .inl (hignored rfl failBoundaryNotEstablished_footprint hempty)
  | failPreclaim => exact .inl (hignored rfl (failPreclaim_footprint _) hempty)
  | markOutcomeUnknown => exact .inl (hignored rfl (markOutcomeUnknown_footprint _ _) hempty)
  | finalizeKnownOutcome => exact .inl (hignored rfl (finalizeKnownOutcome_footprint _ _) hempty)
  | recoverQueuedStale => exact .inl (hignored rfl recoverQueuedStale_footprint hempty)
  | recoverRunningStale => exact .inl (hignored rfl recoverRunningStale_footprint hempty)

end Programs

/-! ## The law of the consumptions -/

/-- The run is a passthrough run of this organisation and workroom. -/
def PassthroughRun (db : WorkroomDb) (org w run : Uuid) : Prop :=
  ∃ row, db (.run run) = some row ∧ row.orgId = org ∧ row.mode = .passthrough ∧
    row.workroomId = some w

/-- What holds of all consumptions. -/
structure ConsumptionLaw (db : WorkroomDb) : Prop where
  /-- The run that has consumed a request is a passthrough run of its workroom. -/
  run : ∀ a org w run, consumption db a = some (org, w, run) → PassthroughRun db org w run
  /-- A run has consumed at most one request. -/
  one : ∀ a a' x x', consumption db a = some x → consumption db a' = some x' →
    x.2.2 = x'.2.2 → a = a'

/-- A transition keeps the origin of the run. -/
lemma RunTransition.origin {org : Uuid} {x : RunRow} {n : Option RunRow} {types : List EventType}
    {traced : Option (Uuid × InvocationInsert)} (h : RunTransition org (some x) n types traced) :
    ∃ y, n = some y ∧ y.orgId = x.orgId ∧ y.mode = x.mode ∧ y.workroomId = x.workroomId := by
  cases h <;> exact ⟨_, rfl, rfl, rfl, rfl⟩

lemma RunsEffect.passthroughRun {org w run : Uuid} (h : RunsEffect s s')
    (hrun : PassthroughRun s org w run) : PassthroughRun s' org w run := by
  obtain ⟨row, hrow, horg, hmode, hworkroom⟩ := hrun
  cases h with
  | elsewhere hfoot =>
    refine ⟨row, ?_, horg, hmode, hworkroom⟩
    rwa [hfoot.rows _ rfl fun hk => hk (Option.some_ne_none run)]
  | @moved org' r hfoot hmoved =>
    by_cases hr : run = r
    · subst hr
      obtain ⟨n, types, traced, htransition, hprogress⟩ := hmoved
      rw [hrow] at htransition
      obtain ⟨y, rfl, horg', hmode', hworkroom'⟩ := htransition.origin
      exact ⟨y, hprogress.row, horg'.trans horg, hmode'.trans hmode, hworkroom'.trans hworkroom⟩
    · refine ⟨row, ?_, horg, hmode, hworkroom⟩
      rwa [hfoot.rows _ rfl ?_]
      rintro (hk | hk)
      · exact hr (Option.some.inj hk)
      · exact hk (Option.some_ne_none run)

/-- A request that is consumed was not consumed before, and is bound to the new run. -/
lemma Consumption.binds (h : Consumption sha256 identity body ctx a idem draw s s')
    (happrovals : Approvals s) : consumption s a = none ∧
      consumption s' a = some (identity.orgId, ctx.workroomId, draw.runId) := by
  obtain ⟨r, hr, hauthorizes, hr'⟩ := h.approval
  have hfree := (happrovals.law a r hr).consumedAt.mp hauthorizes.unconsumed
  constructor
  · rw [consumption, hr, Option.bind_some, hfree]
    rfl
  · rw [consumption, hr', Option.bind_some, Option.map_some, hauthorizes.org, hauthorizes.workroom]

lemma Consumption.other (h : Consumption sha256 identity body ctx a idem draw s s') {a' : Uuid}
    (ha' : a' ≠ a) : consumption s' a' = consumption s a' := by
  rw [consumption, h.others a' ha', consumption]

/-- **A consumption keeps the law.** -/
lemma ConsumptionLaw.consume (h : ConsumptionLaw s) (happrovals : Approvals s)
    (heffect : RunsEffect s s') (hc : Consumption sha256 identity body ctx a idem draw s s') :
    ConsumptionLaw s' := by
  obtain ⟨-, hnew⟩ := hc.binds happrovals
  have hfresh : ∀ a' x, a' ≠ a → consumption s' a' = some x → x.2.2 ≠ draw.runId := by
    rintro a' ⟨org, w, run⟩ ha' hx rfl
    rw [hc.other ha'] at hx
    obtain ⟨row, hrow, -⟩ := h.run a' org w _ hx
    rw [hc.run.1] at hrow
    cases hrow
  refine ⟨fun a' org w run hx => ?_, fun a₁ a₂ x₁ x₂ h₁ h₂ hrun => ?_⟩
  · by_cases ha' : a' = a
    · subst ha'
      rw [hnew] at hx
      cases hx
      exact ⟨_, hc.run.2, rfl, rfl, rfl⟩
    · rw [hc.other ha'] at hx
      exact heffect.passthroughRun (h.run a' org w run hx)
  · by_cases ha₁ : a₁ = a
    · by_cases ha₂ : a₂ = a
      · rw [ha₁, ha₂]
      · rw [ha₁, hnew] at h₁
        obtain rfl := Option.some.inj h₁
        exact absurd hrun.symm (hfresh a₂ x₂ ha₂ h₂)
    · by_cases ha₂ : a₂ = a
      · rw [ha₂, hnew] at h₂
        obtain rfl := Option.some.inj h₂
        exact absurd hrun (hfresh a₁ x₁ ha₁ h₁)
      · rw [hc.other ha₁] at h₁
        rw [hc.other ha₂] at h₂
        exact h.one a₁ a₂ x₁ x₂ h₁ h₂ hrun

/-- A transaction that consumes nothing keeps the law. -/
lemma ConsumptionLaw.keep (h : ConsumptionLaw s) (heffect : RunsEffect s s')
    (hsame : ∀ a, consumption s' a = consumption s a) : ConsumptionLaw s' := by
  refine ⟨fun a org w run hx => ?_, fun a₁ a₂ x₁ x₂ h₁ h₂ hrun => ?_⟩
  · rw [hsame] at hx
    exact heffect.passthroughRun (h.run a org w run hx)
  · rw [hsame] at h₁ h₂
    exact h.one a₁ a₂ x₁ x₂ h₁ h₂ hrun

/-! ## Every interleaving -/

section System

variable {c c₁ c₂ : LockState WorkroomDb WorkroomItem (TxPoint WorkroomItem.Val String Unit) TxId}

/-- Between transactions: the laws of the runs, of the approvals and of the consumptions. -/
def ConsumptionHistory (H : Set WorkroomDb) (s : WorkroomDb) : Prop :=
  RunsInvariant H s ∧ ApprovalHistory H s ∧ ConsumptionLaw s

/-- At the start nothing is consumed. -/
lemma consumptionHistory_of_initial (h : InitialWorkroomDb s) : ConsumptionHistory {s} s := by
  have hnone : ∀ a, consumption s a = none := by
    intro a
    have happroval : s (.approval a) = none := by simpa [emptyWorkroomDb] using h (.approval a)
    rw [consumption, happroval, Option.bind_none]
  refine ⟨.start h, approvals_of_initial h, fun a org w run hx => ?_, fun a a' x x' hx => ?_⟩
  · rw [hnone] at hx
    cases hx
  · rw [hnone] at hx
    cases hx

/-- A transaction carries it on. -/
lemma ConsumptionHistory.exec {H : Set WorkroomDb} {p : WorkroomTx Unit} {u : Unit}
    {ws : Pending WorkroomItem.Val} (h : ConsumptionHistory H s) (hp : WorkroomProgram sha256 p)
    (hrun : Exec H s p [] u ws) : ConsumptionHistory (insert (ws.apply s) H) (ws.apply s) := by
  obtain ⟨hruns, happrovals, hlaw⟩ := h
  refine ⟨hruns.exec hp hrun, happrovals.exec hp hrun, ?_⟩
  have heffect := hruns.effect hp hrun
  rcases workroomProgram_consumption hp hruns.ledger hrun with hsame | ⟨_, _, _, _, _, _, hconsume⟩
  · exact hlaw.keep heffect hsame
  · exact hlaw.consume happrovals.1.2 heffect hconsume

/-- A step leaves the consumptions, or it is the commit of a run that consumes one request. -/
lemma consumption_step {action : TxId × LockAction (TxPoint WorkroomItem.Val String Unit)}
    (hc : (workroomSystem sha256).Reachable c) (hstep : (workroomSystem sha256).step c action c₁) :
    (∀ a, consumption c₁.committed a = consumption c.committed a) ∨
      ∃ identity body ctx a idem draw,
        Consumption sha256 identity body ctx a idem draw c.committed c₁.committed ∧
        consumption c.committed a = none := by
  obtain ⟨H, ⟨hruns, happrovals, -⟩, -, heq | ⟨p, b, ws, hp, hrun, heq⟩⟩ :=
    txSystem_exec (I := ConsumptionHistory) (fun s hs => consumptionHistory_of_initial hs)
      (fun H s p b ws h _ hp hrun => h.exec hp hrun) hc hstep
  · exact .inl fun a => by rw [heq]
  · rw [heq]
    refine (workroomProgram_consumption hp hruns.ledger hrun).imp_right ?_
    rintro ⟨_, _, _, _, _, _, hconsume⟩
    exact ⟨_, _, _, _, _, _, hconsume, (hconsume.binds happrovals.1.2).1⟩

/-- A consumption is final. -/
lemma consumption_final {as : List (TxId × LockAction (TxPoint WorkroomItem.Val String Unit))}
    (hc : (workroomSystem sha256).Reachable c) (hrun : (workroomSystem sha256).Run c as c₁) {a : Uuid}
    {x : Uuid × Uuid × Uuid} (hx : consumption c.committed a = some x) :
    consumption c₁.committed a = some x := by
  refine TransitionSystem.Run.stable (P := fun c => consumption c.committed a = some x) ?_ hc hrun hx
  intro c action c' hc hx hstep
  rcases consumption_step hc hstep with hsame | ⟨_, _, _, a', _, _, hconsume, hnone⟩
  · rw [hsame, hx]
  · have hne : a ≠ a' := by
      rintro rfl
      rw [hx] at hnone
      cases hnone
    rw [hconsume.other hne, hx]

/-- **Approvals are consumed once, and by their own runs.**  In every reachable state a consumed request
is bound to one passthrough run of its workroom, no two requests to the same run, and for good.  A
consumption is the commit of a run that named the request, which authorized it at that moment.  The
transaction of a run that names a request commits such a consumption, with the run and the reservation
of its key, or leaves everything as it was. -/
theorem approval_consumption (hc : (workroomSystem sha256).Reachable c) :
    ConsumptionLaw c.committed ∧
      (∀ as c', (workroomSystem sha256).Run c as c' → ∀ a x, consumption c.committed a = some x →
        consumption c'.committed a = some x) ∧
      (∀ action c', (workroomSystem sha256).step c action c' →
        (∀ a, consumption c'.committed a = consumption c.committed a) ∨
          ∃ identity body ctx a idem draw,
            Consumption sha256 identity body ctx a idem draw c.committed c'.committed ∧
            consumption c.committed a = none) ∧
      ∀ t identity body ctx a idem draw c₁ c₂,
        (txProtocol InitialWorkroomDb (WorkroomProgram sha256)).TransactionStep t
          (.running (ignore (passthroughTxA sha256 identity body (some ctx) (some a) idem draw)) [])
          c c₁ c₂ →
        c₂.committed = c₁.committed ∨
          Consumption sha256 identity body ctx a idem draw c₁.committed c₂.committed ∧
          consumption c₂.committed a = some (identity.orgId, ctx.workroomId, draw.runId) := by
  have hinit := fun s (hs : InitialWorkroomDb s) => consumptionHistory_of_initial hs
  have hexec := fun H s p b ws (h : ConsumptionHistory H s) (_ : s ∈ H)
    (hp : WorkroomProgram sha256 p) (hrun : Exec H s p [] b ws) => h.exec hp hrun
  obtain ⟨H, ⟨-, -, hlaw⟩, -⟩ := txSystem_invariant (I := ConsumptionHistory) hinit hexec hc
  refine ⟨hlaw, fun as c' hrun a x hx => consumption_final hc hrun hx,
    fun action c' hstep => consumption_step hc hstep, ?_⟩
  intro t identity body ctx a idem draw c₁ c₂ htx
  obtain ⟨H', ⟨-, happrovals, -⟩, -, hdone⟩ :=
    txSystem_transaction (I := ConsumptionHistory) hinit hexec hc htx
  refine hdone.imp_right fun ⟨b, ws, hrun, heq⟩ => ?_
  obtain ⟨status, hrun⟩ := exec_ignore hrun
  rw [heq]
  have hconsume := passthroughTxA_consumption hrun
  exact ⟨hconsume, (hconsume.binds happrovals.1.2).2⟩

/-- The granted request is consumed by the run that names it. -/
theorem approval_consumption_sample : ∃ c, (workroomSystem fun _ => []).Reachable c ∧
    consumption c.committed (workroomUuid 20) =
      some (workroomUuid 1, workroomUuid 10, workroomUuid 30) ∧
    PassthroughRun c.committed (workroomUuid 1) (workroomUuid 10) (workroomUuid 30) := by
  have hc := reachable_serialRun 0 reachable_emptyWorkroomDb sampleLifecycle_programs
  have hrow : consumption (serialRun sampleLifecycle emptyWorkroomDb) (workroomUuid 20) =
      some (workroomUuid 1, workroomUuid 10, workroomUuid 30) := by
    decide +kernel
  exact ⟨_, hc, hrow, (approval_consumption hc).1.run _ _ _ _ hrow⟩

end System

end GovAI
