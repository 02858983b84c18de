import GovAI.Workroom.Effects

/-!
# The lifecycle of an approval request

In every interleaving a request leaves the status `pending` at most once; its decision row, its
events on the policy chain and their turns agree with its status; it is consumed only when granted;
and the turns of every workroom have the numbers `1..n`.
-/

namespace GovAI

open TxProgram Function

variable {H : Set WorkroomDb} {s s₀ v db : WorkroomDb} {ws ws' : Pending WorkroomItem.Val}

/-! ## What is said of a request -/
/-- The events of a chain about a request. -/
def approvalEvents (db : WorkroomDb) (c : ChainId) (a : Uuid) : List ChainEvent :=
  (db (.chain c)).filter fun e => e.About a

/-- The events about a request in a status, in their order. -/
def ApprovalStatus.history : ApprovalStatus → List EventType
  | pending => [.workroomApprovalRequested]
  | granted => [.workroomApprovalRequested, .workroomApprovalGranted]
  | denied => [.workroomApprovalRequested, .workroomApprovalDenied]
  | revoked => [.workroomApprovalRequested, .workroomApprovalRevoked]
  | expired => [.workroomApprovalRequested]

/-- The outcome of the decision that gave a request its status. -/
def ApprovalStatus.outcome : ApprovalStatus → Option ApprovalOutcome
  | granted => some .granted
  | denied => some .denied
  | _ => none

/-- Exactly one turn of all workrooms is anchored to the event. -/
def OneTurn (db : WorkroomDb) (eventId : Uuid) : Prop :=
  ∃ w t, ∀ w', (db (.turns w')).filter (fun t' => t'.auditEventId = eventId) =
    if w' = w then [t] else []

/-- What holds of a request at any time. -/
structure ApprovalLaw (db : WorkroomDb) (a : Uuid) (r : ApprovalRow) : Prop where
  /-- No request is stored as expired. -/
  status : r.status ≠ .expired
  decidedAt : r.decidedAt ≠ none ↔ r.status ≠ .pending
  /-- There is a decision row, with the outcome, exactly for a granted or denied request. -/
  decision : (db (.decision a)).map DecisionRow.decision = r.status.outcome
  /-- Only a granted request is consumed. -/
  consumed : r.consumedRunId ≠ none → r.status = .granted
  consumedAt : r.consumedAt = none ↔ r.consumedRunId = none
  /-- The policy chain has one event for the request and one for its end; no other chain has any. -/
  events : ∀ c, (approvalEvents db c a).map ChainEvent.eventType =
    if c = chainIdFor r.orgId .policy then r.status.history else []

/-- What holds of all requests. -/
structure Approvals (db : WorkroomDb) : Prop where
  law : ∀ a r, db (.approval a) = some r → ApprovalLaw db a r
  /-- Nothing is known of a request that was not raised. -/
  fresh : ∀ a, db (.approval a) = none →
    db (.decision a) = none ∧ ∀ c, approvalEvents db c a = []
  turns : ∀ c a, ∀ e ∈ approvalEvents db c a, OneTurn db e.id

/-- A request is never deleted; a status other than `pending` and a consumption are final. -/
def ApprovalGrows (db db' : WorkroomDb) : Prop :=
  ∀ a r, db (.approval a) = some r → ∃ r', db' (.approval a) = some r' ∧
    (r.status ≠ .pending → r'.status = r.status ∧ r'.decidedAt = r.decidedAt) ∧
    (r.consumedRunId ≠ none → r'.consumedRunId = r.consumedRunId)

lemma ApprovalGrows.refl (db : WorkroomDb) : ApprovalGrows db db :=
  fun _ r h => ⟨r, h, fun _ => ⟨rfl, rfl⟩, fun _ => rfl⟩

lemma ApprovalGrows.trans {db₁ db₂ db₃ : WorkroomDb} (h : ApprovalGrows db₁ db₂)
    (h' : ApprovalGrows db₂ db₃) : ApprovalGrows db₁ db₃ := by
  intro a r hr
  obtain ⟨r', hr', hstatus, hconsumed⟩ := h a r hr
  obtain ⟨r'', hr'', hstatus', hconsumed'⟩ := h' a r' hr'
  refine ⟨r'', hr'', fun hne => ?_, fun hne => ?_⟩
  · obtain ⟨hs, hd⟩ := hstatus hne
    obtain ⟨hs', hd'⟩ := hstatus' (hs ▸ hne)
    exact ⟨hs'.trans hs, hd'.trans hd⟩
  · have hc := hconsumed hne
    exact (hconsumed' (hc ▸ hne)).trans hc

/-! ## Transactions that are not about approvals -/

lemma not_about_of_quiet {e : ChainEvent} (h : e.eventType.approval = false) (a : Uuid) :
    ¬e.About a := by
  simp only [EventType.approval, Bool.or_eq_false_iff, decide_eq_false_iff_not] at h
  rintro (⟨hraised, -⟩ | ⟨hended, -⟩)
  · exact h.1 hraised
  · simp [h.2] at hended

/-- Events of other types are not about requests. -/
lemma approvalEvents_of_footprint {K : Set WorkroomItem} {E : Set (EventType × Uuid)}
    {U : Set (TurnKind × Option Uuid)} (hfoot : Footprint K E U s₀ v)
    (hE : ∀ p ∈ E, p.1.approval = false) (c : ChainId) (a : Uuid) :
    approvalEvents v c a = approvalEvents s₀ c a := by
  obtain ⟨es, heq, hes⟩ := hfoot.chain c
  have hnone : es.filter (fun e => e.About a) = [] :=
    List.filter_eq_nil_iff.mpr fun e he => by
      simpa using not_about_of_quiet (hE _ (hes e he).1) a
  rw [approvalEvents, heq, List.filter_append, hnone, List.append_nil, approvalEvents]

/-- New turns are anchored to new events. -/
lemma OneTurn.of_footprint {K : Set WorkroomItem} {E : Set (EventType × Uuid)}
    {U : Set (TurnKind × Option Uuid)} (hfoot : Footprint K E U s₀ v) {i : Uuid}
    (hi : s₀ (.event i) ≠ none) (h : OneTurn s₀ i) : OneTurn v i := by
  obtain ⟨w, t, hone⟩ := h
  refine ⟨w, t, fun w' => ?_⟩
  obtain ⟨ts, heq, hts⟩ := hfoot.turns w'
  have hnone : ts.filter (fun t' => t'.auditEventId = i) = [] :=
    List.filter_eq_nil_iff.mpr fun t' ht' => by
      have hfree := (hts t' ht').2
      simp only [decide_eq_true_eq]
      rintro rfl
      exact hi hfree
  rw [heq, List.filter_append, hnone, List.append_nil, hone]

/-- **Such transactions keep the law**, whether or not they consume requests. -/
lemma Approvals.of_footprint {K : Set WorkroomItem} {E : Set (EventType × Uuid)}
    {U : Set (TurnKind × Option Uuid)} (h : Approvals s₀) (hledger : Ledger s₀)
    (hfoot : Footprint K E U s₀ v) (hE : ∀ p ∈ E, p.1.approval = false)
    (hK : ∀ a, .decision a ∉ K)
    (hrows : ∀ a, SameOrConsumed (s₀ (.approval a)) (v (.approval a))) :
    Approvals v ∧ ApprovalGrows s₀ v := by
  have hevents := approvalEvents_of_footprint hfoot hE
  have hdecision : ∀ a, v (.decision a) = s₀ (.decision a) := fun a => hfoot.rows _ rfl (hK a)
  refine ⟨⟨fun a r hr => ?_, fun a ha => ?_, fun c a e he => ?_⟩, fun a r hr => ?_⟩
  · rcases hrows a with hsame | ⟨r₀, runId, now, hr₀, hgranted, -, hnew⟩
    · obtain ⟨h₁, h₂, h₃, h₄, h₅, h₆⟩ := h.law a r (by rw [← hsame, hr])
      exact ⟨h₁, h₂, by rw [hdecision, h₃], h₄, h₅, fun c => by rw [hevents, h₆]⟩
    · obtain ⟨h₁, h₂, h₃, -, -, h₆⟩ := h.law a r₀ hr₀
      rw [hnew] at hr
      obtain rfl := Option.some.inj hr
      exact ⟨h₁, h₂, by rw [hdecision, h₃], fun _ => hgranted, by simp,
        fun c => by rw [hevents, h₆]⟩
  · rcases hrows a with hsame | ⟨r₀, runId, now, -, -, -, hnew⟩
    · obtain ⟨hd, hc⟩ := h.fresh a (by rw [← hsame, ha])
      exact ⟨by rw [hdecision, hd], fun c => by rw [hevents, hc]⟩
    · rw [hnew] at ha
      cases ha
  · rw [hevents] at he
    have hindex := hledger.indexed c e (List.mem_of_mem_filter he)
    exact (h.turns c a e he).of_footprint hfoot (by rw [hindex]; exact Option.some_ne_none c)
  · rcases hrows a with hsame | ⟨r₀, runId, now, hr₀, -, hfree, hnew⟩
    · exact ⟨r, by rw [hsame, hr], fun _ => ⟨rfl, rfl⟩, fun _ => rfl⟩
    · obtain rfl := Option.some.inj (hr.symm.trans hr₀)
      exact ⟨_, hnew, fun _ => ⟨rfl, rfl⟩, fun hne => absurd ((h.law a r hr).consumedAt.mp hfree) hne⟩

/-! ## Transactions about one request -/

section Moves

variable {v' : WorkroomDb} {a : Uuid} {r r₀ : ApprovalRow} {e : ChainEvent} {w : Uuid}
  {t : WorkroomTurnRow}

lemma Moves.events (h : Moves v v' a r e w t) (c : ChainId) (a' : Uuid) :
    approvalEvents v' c a' = approvalEvents v c a' ++
      if c = chainIdFor r.orgId .policy ∧ a' = a then [e] else [] := by
  rw [approvalEvents, h.chain]
  by_cases hc : c = chainIdFor r.orgId .policy
  · by_cases ha : a' = a
    · simp [approvalEvents, hc, ha, h.about]
    · simp [approvalEvents, hc, ha, h.about]
  · simp [approvalEvents, hc]

/-- The turns of the new event. -/
lemma Moves.oneTurn_new (h : Moves v v' a r e w t) (hledger : Ledger v) : OneTurn v' e.id := by
  refine ⟨w, t, fun w' => ?_⟩
  have hnone : (v (.turns w')).filter (fun t' => t'.auditEventId = e.id) = [] :=
    List.filter_eq_nil_iff.mpr fun t' ht' => by
      have hanchor := hledger.anchored w' t' ht'
      simp only [decide_eq_true_eq]
      intro heq
      rw [heq] at hanchor
      exact hanchor h.free
  rw [h.turns]
  by_cases hw : w' = w
  · subst hw
    simp [hnone, h.anchor]
  · simp [hw, hnone]

/-- The turns of an earlier event. -/
lemma Moves.oneTurn_old (h : Moves v v' a r e w t) {i : Uuid} (hi : v (.event i) ≠ none)
    (hone : OneTurn v i) : OneTurn v' i := by
  obtain ⟨w₀, t₀, hone⟩ := hone
  refine ⟨w₀, t₀, fun w' => ?_⟩
  have hne : t.auditEventId ≠ i := by
    rw [h.anchor]
    rintro rfl
    exact hi h.free
  rw [← hone w', h.turns]
  by_cases hw : w' = w
  · simp [hw, hne]
  · simp [hw]

/-- **A move keeps the law** if the new row does. -/
lemma Approvals.move (h : Approvals v) (hledger : Ledger v) (hmove : Moves v v' a r e w t)
    (hlaw : ApprovalLaw v' a r) : Approvals v' := by
  refine ⟨fun a' r' hr' => ?_, fun a' ha' => ?_, fun c a' e' he' => ?_⟩
  · rw [hmove.approval] at hr'
    by_cases ha : a' = a
    · subst ha
      obtain rfl := Option.some.inj ((if_pos rfl).symm.trans hr')
      exact hlaw
    · rw [if_neg ha] at hr'
      obtain ⟨h₁, h₂, h₃, h₄, h₅, h₆⟩ := h.law a' r' hr'
      refine ⟨h₁, h₂, by rw [hmove.decision a' ha, h₃], h₄, h₅, fun c => ?_⟩
      rw [hmove.events, if_neg fun h => ha h.2, List.append_nil, h₆]
  · rw [hmove.approval] at ha'
    by_cases ha : a' = a
    · rw [if_pos ha] at ha'
      cases ha'
    · rw [if_neg ha] at ha'
      obtain ⟨hd, hc⟩ := h.fresh a' ha'
      refine ⟨by rw [hmove.decision a' ha, hd], fun c => ?_⟩
      rw [hmove.events, if_neg fun h => ha h.2, List.append_nil, hc]
  · rw [hmove.events] at he'
    rcases List.mem_append.mp he' with hold | hnew
    · have hindex := hledger.indexed c e' (List.mem_of_mem_filter hold)
      exact hmove.oneTurn_old (by rw [hindex]; exact Option.some_ne_none c) (h.turns c a' e' hold)
    · split at hnew
      · obtain rfl := List.mem_singleton.mp hnew
        exact hmove.oneTurn_new hledger
      · cases hnew

/-- The events of a pending request after it has ended. -/
lemma Moves.history (hmove : Moves v v' a r e w t) (before : List EventType)
    (h : ∀ c, (approvalEvents v c a).map ChainEvent.eventType =
      if c = chainIdFor r.orgId .policy then before else [])
    (hafter : before ++ [e.eventType] = r.status.history) (c : ChainId) :
    (approvalEvents v' c a).map ChainEvent.eventType =
      if c = chainIdFor r.orgId .policy then r.status.history else [] := by
  rw [hmove.events, List.map_append, h]
  by_cases hc : c = chainIdFor r.orgId .policy
  · simp [hc, ← hafter]
  · simp [hc]

/-- A new request. -/
lemma Approvals.raise (h : Approvals v) (hledger : Ledger v) (hmove : Moves v v' a r e w t)
    (hnone : v (.approval a) = none) (hdecision : v' (.decision a) = v (.decision a))
    (hpending : r.status = .pending) (hdecided : r.decidedAt = none) (hrun : r.consumedRunId = none)
    (hat : r.consumedAt = none) (he : e.eventType = .workroomApprovalRequested) :
    Approvals v' ∧ ApprovalGrows v v' := by
  obtain ⟨hd, hc⟩ := h.fresh a hnone
  refine ⟨h.move hledger hmove ?_, fun a' r' hr' => ?_⟩
  · refine ⟨by simp [hpending], by simp [hpending, hdecided], by simp [hdecision, hd, hpending,
      ApprovalStatus.outcome], by simp [hrun], by simp [hrun, hat], ?_⟩
    refine hmove.history [] (fun c => by simp [hc c]) ?_
    rw [he, hpending]
    rfl
  · have hne : a' ≠ a := by
      rintro rfl
      rw [hnone] at hr'
      cases hr'
    exact ⟨r', by rw [hmove.approval, if_neg hne, hr'], fun _ => ⟨rfl, rfl⟩, fun _ => rfl⟩

/-- The end of a pending request. -/
lemma Approvals.settle (h : Approvals v) (hledger : Ledger v) (hmove : Moves v v' a r e w t)
    (hr₀ : v (.approval a) = some r₀) (hpending : r₀.status = .pending)
    (hne : r.status ≠ .pending) (hexpired : r.status ≠ .expired) (hdecided : r.decidedAt ≠ none)
    (hrun : r.consumedRunId = r₀.consumedRunId) (hat : r.consumedAt = r₀.consumedAt)
    (horg : r.orgId = r₀.orgId)
    (hdecision : (v' (.decision a)).map DecisionRow.decision = r.status.outcome)
    (he : [.workroomApprovalRequested, e.eventType] = r.status.history) :
    Approvals v' ∧ ApprovalGrows v v' := by
  obtain ⟨-, -, -, hconsumed, hconsumedAt, hevents⟩ := h.law a r₀ hr₀
  have hnone : r₀.consumedRunId = none := by
    by_contra hsome
    exact absurd (hconsumed hsome) (by simp [hpending])
  refine ⟨h.move hledger hmove ?_, fun a' r' hr' => ?_⟩
  · refine ⟨hexpired, by simp [hne, hdecided], hdecision, fun hsome => ?_, by rw [hat, hrun, hconsumedAt],
      hmove.history [.workroomApprovalRequested] (fun c => ?_) he⟩
    · rw [hrun] at hsome
      exact absurd hnone hsome
    · rw [hevents, horg, hpending]
      rfl
  · by_cases ha : a' = a
    · subst ha
      obtain rfl := Option.some.inj (hr'.symm.trans hr₀)
      exact ⟨r, by rw [hmove.approval, if_pos rfl], fun hs => absurd hpending hs, fun hs => absurd hnone hs⟩
    · exact ⟨r', by rw [hmove.approval, if_neg ha, hr'], fun _ => ⟨rfl, rfl⟩, fun _ => rfl⟩

end Moves

/-! ## Every transaction -/

section Runs

variable {sha256 : Bytes → Bytes} {u : Unit}

/-- **Every transaction keeps the law of the approvals.** -/
lemma WorkroomEffect.approvals (h : WorkroomEffect H s v) (happrovals : Approvals s)
    (hledger : Ledger s) : Ledger v ∧ Approvals v ∧ ApprovalGrows s v := by
  cases h with
  | route hfoot hmembers =>
    refine ⟨hfoot.ledger, happrovals.of_footprint hledger hfoot ?_ (by simp [membershipItems])
      fun a => .inl (hfoot.rows _ rfl (by simp [membershipItems]))⟩
    rintro ⟨t, i⟩ ht
    cases t <;> first | rfl | cases ht
  | raised hfoot _ _ hmove hnone hdecision he hrow =>
    obtain ⟨hstatus, hdecided, hrun, hat⟩ := hrow
    exact ⟨hfoot.ledger, happrovals.raise hledger hmove hnone hdecision hstatus hdecided hrun hat he⟩
  | @decided a _ _ _ _ _ r d _ _ _ hfoot _ _ _ hr _ hpending _ hmove he hd =>
    have hstatus : d.decision.status ≠ .pending ∧ d.decision.status ≠ .expired ∧
        some d.decision = d.decision.status.outcome ∧
        [.workroomApprovalRequested, d.decision.eventType] = d.decision.status.history := by
      cases d.decision <;> exact ⟨nofun, nofun, rfl, rfl⟩
    obtain ⟨hne, hexpired, hdecision, hhistory⟩ := hstatus
    refine ⟨hfoot.ledger, happrovals.settle hledger hmove hr hpending hne hexpired
      (Option.some_ne_none _) rfl rfl rfl ?_ ?_⟩
    · rw [hd, Option.map_some]
      exact hdecision
    · rw [he]
      exact hhistory
  | @revoked a _ r _ _ _ hfoot hr hpending hmove he hdecision =>
    refine ⟨hfoot.ledger, happrovals.settle hledger hmove hr hpending nofun nofun
      (Option.some_ne_none _) rfl rfl rfl ?_ ?_⟩
    · rw [hdecision, (happrovals.law a r hr).decision, hpending]
      rfl
    · rw [he]
      rfl
  | run hfoot hrows =>
    refine ⟨hfoot.ledger, happrovals.of_footprint hledger hfoot ?_ (fun a => ?_) hrows⟩
    · rintro ⟨t, i⟩ ⟨ht, -⟩
      cases t <;> first | rfl | cases ht
    · simp [runItems, WorkroomItem.runId, idempotencyItems, approvalRows]

/-- Between runs: the law, and every earlier state grew into this one. -/
def ApprovalHistory (H : Set WorkroomDb) (s : WorkroomDb) : Prop :=
  (Ledger s ∧ Approvals s) ∧ ∀ h ∈ H, ApprovalGrows h s

/-- At the start there are no requests, events and turns. -/
lemma approvals_of_initial {s : WorkroomDb} (h : InitialWorkroomDb s) : ApprovalHistory {s} s := by
  have hempty : ∀ k, (∀ id, k ≠ .org id) → (∀ id, k ≠ .agentProfile id) → s k = emptyWorkroomDb k := by
    intro k horg hprofile
    rcases h k with ⟨id, rfl⟩ | ⟨id, rfl⟩ | heq
    · exact absurd rfl (horg id)
    · exact absurd rfl (hprofile id)
    · exact heq
  have happroval : ∀ a, s (.approval a) = none := fun a => hempty _ nofun nofun
  have hchain : ∀ c, s (.chain c) = [] := fun c => hempty _ nofun nofun
  refine ⟨⟨ledger_empty.congr (fun w => hempty _ nofun nofun) (fun c => hempty _ nofun nofun)
    fun i => hempty _ nofun nofun, ?_, ?_, ?_⟩, ?_⟩
  · intro a r hr
    rw [happroval] at hr
    cases hr
  · intro a _
    refine ⟨hempty _ nofun nofun, fun c => ?_⟩
    rw [approvalEvents, hchain]
    rfl
  · intro c a e he
    rw [approvalEvents, hchain] at he
    cases he
  · rintro _ rfl
    exact ApprovalGrows.refl _

/-- A transaction carries it on. -/
lemma ApprovalHistory.exec {p : WorkroomTx Unit} (h : ApprovalHistory H s)
    (hp : WorkroomProgram sha256 p) (hrun : Exec H s p [] u ws) :
    ApprovalHistory (insert (ws.apply s) H) (ws.apply s) := by
  obtain ⟨hledger, happrovals, hgrows⟩ :=
    (workroomProgram_effect hp h.1.1 hrun).approvals h.1.2 h.1.1
  refine ⟨⟨hledger, happrovals⟩, ?_⟩
  rintro s' (rfl | hs')
  · exact ApprovalGrows.refl _
  · exact (h.2 s' hs').trans hgrows

/-- **The lifecycle of the approvals.**  In every reachable state every request obeys the law, each of
its events has exactly one turn, and the turns of every workroom have the numbers `1..n`; and no step
undoes the end or the consumption of a request. -/
theorem approval_lifecycle
    {c : LockState WorkroomDb WorkroomItem (TxPoint WorkroomItem.Val String Unit) TxId}
    (hc : (workroomSystem sha256).Reachable c) :
    (∀ a r, c.committed (.approval a) = some r → ApprovalLaw c.committed a r) ∧
      (∀ chain a, ∀ e ∈ approvalEvents c.committed chain a, OneTurn c.committed e.id) ∧
      (∀ w, (c.committed (.turns w)).map WorkroomTurnRow.turnNumber =
        List.range' 1 (c.committed (.turns w)).length) ∧
      ∀ action c', (workroomSystem sha256).step c action c' →
        ApprovalGrows c.committed c'.committed := by
  have hinit := fun s (hs : InitialWorkroomDb s) => approvals_of_initial hs
  have hexec := fun H s p b ws (h : ApprovalHistory H s) (_ : s ∈ H)
    (hp : WorkroomProgram sha256 p) (hrun : Exec H s p [] b ws) => h.exec hp hrun
  obtain ⟨H, h, -⟩ := txSystem_invariant (I := ApprovalHistory) hinit hexec hc
  refine ⟨h.1.2.law, h.1.2.turns, h.1.1.numbered, fun action c' hstep => ?_⟩
  obtain ⟨H', -, hmem, h'⟩ := txSystem_step (I := ApprovalHistory) hinit hexec hc hstep
  exact h'.2 _ (Set.mem_insert_of_mem _ hmem)

/-- A request that was granted and consumed. -/
def sampleLifecycle : List (WorkroomTx Unit) :=
  sampleWorkroom ++ [sampleApproval 2, sampleDecision 3, sampleRun]

lemma sampleLifecycle_programs : ∀ p ∈ sampleLifecycle, WorkroomProgram (fun _ => []) p := by
  simp only [sampleLifecycle, sampleWorkroom, sampleApproval, sampleDecision, sampleRun,
    List.cons_append, List.nil_append, List.forall_mem_cons, List.not_mem_nil, false_imp_iff,
    implies_true, and_true]
  exact ⟨.createWorkroom .., .addParticipant .., .requestApproval .., .decideApproval ..,
    .passthroughTxA _ _ _ _ _ _ nofun⟩

/-- Such a request is granted and consumed, and it obeys the law. -/
theorem approval_lifecycle_sample :
    ∃ c r, (workroomSystem fun _ => []).Reachable c ∧
      c.committed (.approval (workroomUuid 20)) = some r ∧ r.status = .granted ∧
      r.consumedRunId = some (workroomUuid 30) ∧
      ApprovalLaw c.committed (workroomUuid 20) r := by
  have hc := reachable_serialRun 0 reachable_emptyWorkroomDb
    sampleLifecycle_programs
  have hrow : ((serialRun sampleLifecycle emptyWorkroomDb) (.approval (workroomUuid 20))).map
      (fun r => (r.status, r.consumedRunId)) = some (.granted, some (workroomUuid 30)) := by
    decide +kernel
  obtain ⟨r, hr, heq⟩ := Option.map_eq_some_iff.mp hrow
  obtain ⟨hstatus, hconsumed⟩ := Prod.mk.inj heq
  exact ⟨_, r, hc, hr, hstatus, hconsumed, (approval_lifecycle hc).1 _ r hr⟩

end Runs

end GovAI
