import GovAI.Dispatch.Progress
import GovAI.Workroom.Effects

/-!
# The law of a run

`RunLaw` ties the row of a run to its events, its invocations and its turn.  A transition of the row
keeps it (`RunTransition`), every other transaction leaves the run alone, and so it holds in every
reachable state of the workrooms and runs.
-/

namespace GovAI

open TxProgram Function

variable {s s' v₀ v : WorkroomDb} {r org : Uuid} {o n : Option RunRow} {types : List EventType}
  {traced : Option (Uuid × InvocationInsert)} {K : Set WorkroomItem} {E : Set (EventType × Uuid)}
  {U : Set (TurnKind × Option Uuid)}

/-! ## What the transactions do to runs -/

/-- The items that no transaction outside the run protocol changes. -/
def runOwnedItems : Set WorkroomItem := {k | k.runId ≠ none}

/-- What a transaction does to the runs: it leaves them alone, or one of them makes a transition. -/
inductive RunsEffect (s s' : WorkroomDb) : Prop
  | elsewhere (hfoot : Footprint (compl runOwnedItems) {p | p.1.ofRun = false} {p | p.1 ≠ .runEvent} s s')
  | moved {org r : Uuid} (hfoot : RunFootprint (compl runOwnedItems) r s s')
      (hmoved : RunMoved org r s s')

lemma elsewhere_of_route (h : RouteFootprint s s') : RunsEffect s s' := by
  refine .elsewhere (h.mono ?_ ?_ ?_)
  · rintro k ⟨id, rfl | rfl | ⟨user, rfl⟩ | ⟨profile, rfl⟩⟩ <;> exact fun hk => hk rfl
  · rintro ⟨t, i⟩ (ht : t.ofRoute = true)
    simp [EventType.ofRun, ht]
  · rintro ⟨k, i⟩ (hk : k.ofRoute = true) rfl
    cases hk

lemma elsewhere_of_approval {a : Uuid} (h : ApprovalFootprint a s s') : RunsEffect s s' := by
  refine .elsewhere (h.mono ?_ ?_ ?_)
  · rintro k (rfl | rfl) <;> exact fun hk => hk rfl
  · rintro ⟨t, i⟩ (ht : t.approval = true)
    simp [EventType.ofRun, ht]
  · rintro ⟨k, i⟩ hk rfl
    cases hk

/-- A transaction of the run protocol that has made a transition. -/
lemma runsEffect_of_moved {α : Type} {p : WorkroomTx α} {H : Set WorkroomDb} {u : Unit}
    {ws : Pending WorkroomItem.Val} (hledger : Ledger s)
    (hfoot : Keeps (RunFootprint K r s) p) (hK : K ⊆ compl runOwnedItems)
    (hmoved : Triple (RunAt org r s) p fun _ => RunMoved org r s)
    (hrun : Exec H s (ignore p) [] u ws) : RunsEffect s (ws.apply s) := by
  obtain ⟨a, hrun⟩ := exec_ignore hrun
  refine .moved ((hfoot.exec (Footprint.refl hledger) hrun).mono ?_ subset_rfl subset_rfl)
    (hmoved.exec .start hrun)
  exact Set.union_subset_union_right _ hK

lemma idempotencyItems_subset : idempotencyItems ⊆ compl runOwnedItems := by
  rintro k ⟨orgId, key, rfl⟩ hk
  exact hk rfl

lemma passthroughItems_subset (approval : Option Uuid) :
    passthroughItems approval ⊆ compl runOwnedItems := by
  rintro k (hk | ⟨a, -, rfl⟩)
  · exact idempotencyItems_subset hk
  · exact fun hk => hk rfl

/-- **Every transaction leaves the runs alone, or moves one of them.**  An earlier state that it reads
has no settled run that is not settled now. -/
theorem workroomProgram_runs {sha256 : Bytes → Bytes} {p : WorkroomTx Unit} {H : Set WorkroomDb}
    {u : Unit} {ws : Pending WorkroomItem.Val} (hp : WorkroomProgram sha256 p) (hledger : Ledger s)
    (hH : ∀ h ∈ H, SettledSince h s) (hrun : Exec H s p [] u ws) : RunsEffect s (ws.apply s) := by
  have hroute : Keeps (RouteFootprint s) p → RunsEffect s (ws.apply s) := fun hfoot =>
    elsewhere_of_route (hfoot.exec (Footprint.refl hledger) hrun)
  have happroval : ∀ a, Keeps (ApprovalFootprint a s) p → RunsEffect s (ws.apply s) := fun a hfoot =>
    elsewhere_of_approval (hfoot.exec (Footprint.refl hledger) hrun)
  have hempty : ∅ ⊆ compl runOwnedItems := Set.empty_subset _
  cases hp with
  | createWorkroom => exact hroute (createWorkroom_footprint _)
  | addParticipant => exact hroute (addParticipant_footprint _)
  | removeParticipant => exact hroute removeParticipant_footprint
  | postMessage => exact hroute postMessage_footprint
  | createTask => exact hroute (createTask_footprint _)
  | requestApproval => exact happroval _ (requestApproval_footprint _)
  | decideApproval => exact happroval _ (decideApproval_footprint _)
  | revokeApproval => exact happroval _ revokeApproval_footprint
  | governedTxA =>
    exact runsEffect_of_moved hledger (governedTxA_footprint _) idempotencyItems_subset
      (governedTxA_moved _) hrun
  | passthroughTxA =>
    exact runsEffect_of_moved hledger (passthroughTxA_footprint _) (passthroughItems_subset _)
      (passthroughTxA_moved _) hrun
  | claimDispatch =>
    exact runsEffect_of_moved hledger claimDispatch_footprint hempty claimDispatch_moved hrun
  | commitDispatchBoundary =>
    exact runsEffect_of_moved hledger commitDispatchBoundary_footprint hempty
      commitDispatchBoundary_moved hrun
  | failBoundaryNotEstablished =>
    exact runsEffect_of_moved hledger failBoundaryNotEstablished_footprint hempty
      failBoundaryNotEstablished_moved hrun
  | failPreclaim =>
    exact runsEffect_of_moved hledger (failPreclaim_footprint _) hempty (failPreclaim_moved _) hrun
  | markOutcomeUnknown ctx token eventId errorClass observed now =>
    obtain ⟨a, hrun⟩ := exec_ignore hrun
    have hfoot : RunFootprint (compl runOwnedItems) ctx.runId s (ws.apply s) :=
      (markOutcomeUnknown_footprint errorClass observed).exec (Footprint.refl hledger) hrun
    exact .moved hfoot (markOutcomeUnknown_moved hH hrun)
  | finalizeKnownOutcome =>
    exact runsEffect_of_moved hledger (finalizeKnownOutcome_footprint _ _) hempty
      (finalizeKnownOutcome_moved _ _) hrun
  | recoverQueuedStale =>
    exact runsEffect_of_moved hledger recoverQueuedStale_footprint hempty recoverQueuedStale_moved hrun
  | recoverRunningStale =>
    exact runsEffect_of_moved hledger recoverRunningStale_footprint hempty recoverRunningStale_moved
      hrun

/-! ## Counting events -/

/-- How many events of some types a chain has about a run. -/
def runEventCount (db : WorkroomDb) (r : Uuid) (c : ChainId) (test : EventType → Bool) : ℕ :=
  (db (.chain c)).countP fun e => decide (e.subjectId = r) && test e.eventType

/-- The event says that the outcome is not known. -/
def EventType.unknownRun (t : EventType) : Bool := decide (t = .runOutcomeUnknown)

/-- The new events are counted by their types. -/
lemma RunProgress.runEventCount {c : ChainId} {row : Option RunRow}
    (h : RunProgress r c v₀ row types traced v) (c' : ChainId) (test : EventType → Bool) :
    runEventCount v r c' test =
      runEventCount v₀ r c' test + if c' = c then types.countP test else 0 := by
  obtain ⟨es, rfl, hsubject, hchain⟩ := h.events
  rw [GovAI.runEventCount, hchain, List.countP_append, GovAI.runEventCount]
  congr 1
  split
  · rw [List.countP_map]
    refine List.countP_congr fun e he => ?_
    simp [hsubject e he]
  · rfl

/-- Events of other types or about other subjects are not counted. -/
lemma Footprint.runEventCount (h : Footprint K E U s s') {test : EventType → Bool}
    (hE : ∀ t, (t, r) ∈ E → test t = false) (c : ChainId) :
    runEventCount s' r c test = runEventCount s r c test := by
  obtain ⟨es, heq, hes⟩ := h.chain c
  rw [GovAI.runEventCount, heq, List.countP_append, GovAI.runEventCount, Nat.add_eq_left,
    List.countP_eq_zero]
  intro e he
  by_cases hr : e.subjectId = r
  · have hmem := (hes e he).1
    rw [hr] at hmem
    simp [hE _ hmem]
  · simp [hr]

/-- The turns of a run do not change when no `run_event` turn of it is added. -/
lemma Footprint.runTurns (h : Footprint K E U s s') (hU : (.runEvent, some r) ∉ U) (w : Uuid) :
    runTurns s' r w = runTurns s r w := by
  obtain ⟨ts, heq, hts⟩ := h.turns w
  rw [GovAI.runTurns, heq, List.filter_append, GovAI.runTurns]
  refine List.append_right_eq_self.mpr (List.filter_eq_nil_iff.mpr fun t ht hrun => ?_)
  obtain ⟨hkind, hpayload⟩ := of_decide_eq_true hrun
  have hmem := (hts t ht).1
  rw [hkind, hpayload] at hmem
  exact hU hmem

/-! ## The law -/

/-- One for a row that has ended. -/
def RunRow.endedCount (row : RunRow) : ℕ := if row.status.terminal = true then 1 else 0

/-- One for a row whose outcome was declared unknown. -/
def RunRow.unknownCount (row : RunRow) : ℕ := if row.outcomeUnknownAt = none then 0 else 1

/-- What a row counts for, on the chain of its organisation. -/
def countOn (count : RunRow → ℕ) (o : Option RunRow) (c : ChainId) : ℕ :=
  match o with
  | none => 0
  | some row => if c = chainIdFor row.orgId .run then count row else 0

/-- The run has ended, or its outcome was declared unknown. -/
def RunRow.Accounted (row : RunRow) : Prop :=
  row.status.terminal = true ∨ row.outcomeUnknownAt ≠ none

/-- What holds of a row: the matrix of the states, and a run without protocol was denied. -/
structure RowLaw (o : Option RunRow) : Prop where
  checked : ∀ row ∈ o, row.StateCheck
  version : ∀ row ∈ o, row.dispatchProtocolVersion = none →
    row.status = .denied ∧ row.dispatchToken = none

/-- The row has no answer. -/
def InvocationRow.IsTrace (x : InvocationRow) : Prop :=
  x.nativeResponseHash = none ∧ x.statusCode = none

/-- **The law of a run.** -/
structure RunLaw (db : WorkroomDb) (r : Uuid) : Prop where
  row : RowLaw (db (.run r))
  ended : ∀ c, runEventCount db r c EventType.terminalRun = countOn RunRow.endedCount (db (.run r)) c
  unknown : ∀ c,
    runEventCount db r c EventType.unknownRun = countOn RunRow.unknownCount (db (.run r)) c
  invocation : ∀ t, db (.invocation r t) ≠ none →
    ∃ row ∈ db (.run r), row.dispatchToken = some t ∧ row.Accounted
  trace : ∀ t, ∀ x ∈ db (.invocation r t), x.IsTrace ∨
    ∃ row ∈ db (.run r), row.status.terminal = true
  turn : OneRunTurn db r

/-! ## Rows -/

section Rows

/-- A row that is not denied is under the protocol. -/
lemma RowLaw.version_ne {row : RunRow} (h : RowLaw (some row)) (hstatus : row.status ≠ .denied) :
    row.dispatchProtocolVersion ≠ none := fun hnone => hstatus (h.version row rfl hnone).1

/-- Of a queued or running row nothing is declared unknown; a queued one has no token. -/
lemma RowLaw.active {row : RunRow} (h : RowLaw (some row))
    (hstatus : row.status = .queued ∨ row.status = .running) : row.outcomeUnknownAt = none := by
  obtain ⟨hnone, -⟩ | ⟨-, -, -, harm⟩ := h.checked row rfl
  · rcases hstatus with hs | hs
    · exact absurd hnone (h.version_ne (by rw [hs]; decide))
    · exact absurd hnone (h.version_ne (by rw [hs]; decide))
  · unfold RunRow.StateArm at harm
    rcases hstatus with hs | hs
    · rw [hs] at harm
      exact harm.2.2.2
    · rw [hs] at harm
      exact harm.2.2.2.2

/-- The outcome of a row with an unknown outcome was declared unknown. -/
lemma RowLaw.unknown {row : RunRow} (h : RowLaw (some row)) (hstatus : row.status = .outcomeUnknown) :
    row.outcomeUnknownAt ≠ none := by
  obtain ⟨-, hne, -⟩ | ⟨-, -, -, harm⟩ := h.checked row rfl
  · exact absurd hstatus hne
  · unfold RunRow.StateArm at harm
    rw [hstatus] at harm
    exact harm.2.1

/-- What the law needs to know of a transition to a row. -/
structure RowStep (org : Uuid) (o : Option RunRow) (row : RunRow) (types : List EventType)
    (traced : Option (Uuid × InvocationInsert)) : Prop where
  orgId : row.orgId = org
  old : ∀ x ∈ o, x.orgId = org ∧ x.status.terminal = false
  ended : row.endedCount = types.countP EventType.terminalRun
  unknown : row.unknownCount =
    (o.elim 0 RunRow.unknownCount) + types.countP EventType.unknownRun
  version : row.dispatchProtocolVersion ≠ none ∨ row.status = .denied ∧ row.dispatchToken = none
  kept : ∀ x ∈ o, ∀ t, x.dispatchToken = some t → x.Accounted →
    row.dispatchToken = some t ∧ row.Accounted
  traced : ∀ x ∈ traced, row.dispatchToken = some x.1 ∧ row.Accounted ∧
    (x.2.IsTrace ∨ row.status.terminal = true)

/-- An outcome has one terminal event, and none that says that it is unknown. -/
lemma KnownOutcome.countP_eventTypes (outcome : KnownOutcome) (reconciled : Bool) :
    (outcome.eventTypes reconciled).countP EventType.terminalRun = 1 ∧
      (outcome.eventTypes reconciled).countP EventType.unknownRun = 0 := by
  have hcaptured : ∀ b : Bool, (if b then [EventType.passthroughInvoked] else []).countP
      EventType.terminalRun = 0 ∧ (if b then [EventType.passthroughInvoked] else []).countP
      EventType.unknownRun = 0 := by decide
  have hreconciled : ∀ b : Bool, (if b then [EventType.runOutcomeReconciled] else []).countP
      EventType.terminalRun = 0 ∧ (if b then [EventType.runOutcomeReconciled] else []).countP
      EventType.unknownRun = 0 := by decide
  have hlast : [outcome.eventType].countP EventType.terminalRun = 1 ∧
      [outcome.eventType].countP EventType.unknownRun = 0 := by
    unfold KnownOutcome.eventType
    split
    · split <;> exact ⟨rfl, rfl⟩
    · exact ⟨rfl, rfl⟩
    · exact ⟨rfl, rfl⟩
  rw [KnownOutcome.eventTypes, List.countP_append, List.countP_append, List.countP_append,
    List.countP_append, (hcaptured _).1, (hcaptured _).2, (hreconciled _).1, (hreconciled _).2,
    hlast.1, hlast.2]
  exact ⟨rfl, rfl⟩

lemma KnownOutcome.terminal_terminal (outcome : KnownOutcome) :
    outcome.terminal.terminal = true := by
  unfold KnownOutcome.terminal
  split
  · split <;> rfl
  · rfl
  · rfl

/-- Nothing is in `none`. -/
lemma forall_mem_none {P : RunRow → Prop} : ∀ x ∈ (none : Option RunRow), P x :=
  fun x hx => absurd hx (Option.not_mem_none x)

lemma forall_mem_some {P : RunRow → Prop} {row : RunRow} (h : P row) : ∀ x ∈ some row, P x := by
  intro x hx
  rwa [← Option.some.inj hx]

/-- A step of a row that is there already. -/
lemma rowStep_some {x row : RunRow} (horg : x.orgId = org) (horg' : row.orgId = org)
    (hold : x.status.terminal = false)
    (hended : row.endedCount = types.countP EventType.terminalRun)
    (hunknown : row.unknownCount = x.unknownCount + types.countP EventType.unknownRun)
    (hversion : row.dispatchProtocolVersion ≠ none)
    (htoken : ∀ t, x.dispatchToken = some t → row.dispatchToken = some t)
    (haccounted : x.outcomeUnknownAt ≠ none → row.Accounted)
    (htraced : ∀ y ∈ traced, row.dispatchToken = some y.1 ∧ row.Accounted ∧
      (y.2.IsTrace ∨ row.status.terminal = true)) :
    RowStep org (some x) row types traced where
  orgId := horg'
  old := forall_mem_some ⟨horg, hold⟩
  ended := hended
  unknown := hunknown
  version := .inl hversion
  kept := by
    refine forall_mem_some fun t ht hacc => ⟨htoken t ht, haccounted ?_⟩
    rcases hacc with hterminal | hne
    · rw [hold] at hterminal
      cases hterminal
    · exact hne
  traced := htraced

/-- **Each transition is such a step**, or nothing happened but the trace of a forward. -/
lemma RunTransition.rowStep (h : RunTransition org o n types traced) (hlaw : RowLaw o)
    (hcheck : ∀ row ∈ n, row.StateCheck) :
    (n = o ∧ types = [] ∧ ∀ x ∈ traced, x.2.IsTrace ∧
      ∃ row ∈ o, row.dispatchToken = some x.1 ∧ row.Accounted) ∨
    ∃ row, n = some row ∧ RowStep org o row types traced := by
  have htraceless : ∀ {row : RunRow}, ∀ x ∈ (none : Option (Uuid × InvocationInsert)),
      row.dispatchToken = some x.1 ∧ row.Accounted ∧ (x.2.IsTrace ∨ row.status.terminal = true) :=
    fun x hx => absurd hx (Option.not_mem_none x)
  cases h with
  | idle => exact .inl ⟨rfl, rfl, fun x hx => absurd hx (Option.not_mem_none x)⟩
  | @denied row horg hstatus hversion htoken hunknown =>
    refine .inr ⟨row, rfl, horg, forall_mem_none, ?_, ?_, .inr ⟨hstatus, htoken⟩, forall_mem_none,
      htraceless⟩
    · simp [RunRow.endedCount, hstatus, RunStatus.terminal, EventType.terminalRun]
    · simp [RunRow.unknownCount, hunknown, EventType.unknownRun]
  | @prepared row horg hstatus hversion =>
    have hlaw' : RowLaw (some row) := ⟨hcheck, forall_mem_some fun hnone => by
      rw [hversion] at hnone
      cases hnone⟩
    refine .inr ⟨row, rfl, horg, forall_mem_none, ?_, ?_, .inl (by simp [hversion]),
      forall_mem_none, htraceless⟩
    · simp [RunRow.endedCount, hstatus, RunStatus.terminal, EventType.terminalRun]
    · simp [RunRow.unknownCount, hlaw'.active (.inl hstatus), EventType.unknownRun]
  | @claimed row horg hclaim token timeoutMs now =>
    have hnone := hlaw.active (.inl hclaim.1)
    refine .inr ⟨_, rfl, rowStep_some horg horg (by rw [hclaim.1]; rfl) rfl ?_ ?_ ?_ ?_ htraceless⟩
    · simp [RunRow.unknownCount, RunRow.claimedBy, hnone, EventType.unknownRun]
    · exact hlaw.version_ne (by rw [hclaim.1]; decide)
    · intro t ht
      rw [hclaim.2.2] at ht
      cases ht
    · exact fun hne => absurd hnone hne
  | @crossed row horg token clock hcross =>
    have hnone := hlaw.active (.inr hcross.2.1)
    refine .inr ⟨_, rfl, rowStep_some horg horg (by rw [hcross.2.1]; rfl) ?_ rfl ?_ (fun t ht => ht)
      ?_ htraceless⟩
    · simp [RunRow.endedCount, hcross.2.1, RunStatus.terminal]
    · exact hlaw.version_ne (by rw [hcross.2.1]; decide)
    · exact fun hne => absurd hnone hne
  | @neverClaimed row horg hclaim errorClass hclass now =>
    refine .inr ⟨_, rfl, rowStep_some horg horg (by rw [hclaim.1]; rfl) rfl rfl ?_ (fun t ht => ht)
      (fun _ => .inl rfl) htraceless⟩
    exact hlaw.version_ne (by rw [hclaim.1]; decide)
  | @neverStarted row horg token hbefore errorClass hclass now =>
    refine .inr ⟨_, rfl, rowStep_some horg horg (by rw [hbefore.2.1]; rfl) rfl rfl ?_
      (fun t ht => ht) (fun _ => .inl rfl) htraceless⟩
    exact hlaw.version_ne (by rw [hbefore.2.1]; decide)
  | @unknown row horg token hpast errorClass now traced htraced =>
    have hnone := hlaw.active (.inr hpast.2.1)
    have hne : (row.unknownWith errorClass now).Accounted := .inr (Option.some_ne_none now)
    refine .inr ⟨_, rfl, rowStep_some horg horg (by rw [hpast.2.1]; rfl) rfl ?_ ?_ (fun t ht => ht)
      (fun _ => hne) fun x hx => ?_⟩
    · simp [RunRow.unknownCount, RunRow.unknownWith, hnone, EventType.unknownRun]
    · exact hlaw.version_ne (by rw [hpast.2.1]; decide)
    · obtain ⟨htoken, htrace⟩ := htraced x hx
      exact ⟨htoken ▸ hpast.1, hne, .inl htrace⟩
  | @traced row horg token htoken hsettled traced htraced =>
    refine .inl ⟨rfl, rfl, fun x hx => ?_⟩
    obtain ⟨hx, htrace⟩ := htraced x hx
    refine ⟨htrace, row, rfl, hx ▸ htoken, ?_⟩
    rcases hsettled with hended | hstatus
    · exact .inl hended
    · exact .inr (hlaw.unknown hstatus)
  | @finished row horg token htoken hstatus outcome reconciled now =>
    have hended : (row.finishedWith outcome now).status.terminal = true := outcome.terminal_terminal
    obtain ⟨hterminal, hunknown⟩ := outcome.countP_eventTypes reconciled
    refine .inr ⟨_, rfl, rowStep_some horg horg ?_ ?_ ?_ ?_ (fun t ht => ht)
      (fun _ => .inl hended) fun x hx => ⟨?_, .inl hended, .inr hended⟩⟩
    · rcases hstatus with hs | hs
      · rw [hs]
        rfl
      · rw [hs]
        rfl
    · rw [RunRow.endedCount, if_pos hended, hterminal]
    · rw [hunknown]
      rfl
    · rcases hstatus with hs | hs
      · exact hlaw.version_ne (by rw [hs]; decide)
      · exact hlaw.version_ne (by rw [hs]; decide)
    · cases outcome with
      | http statusCode request responseHash v4 =>
        obtain rfl := Option.some.inj hx
        exact htoken
      | blocked => exact absurd hx (Option.not_mem_none x)
      | localError => exact absurd hx (Option.not_mem_none x)

/-- A settled run stays settled, under its token. -/
lemma RunTransition.settled (h : RunTransition org o n types traced) :
    ∀ x ∈ o, x.Settled → ∃ y ∈ n, y.Settled ∧ y.orgId = x.orgId ∧
      y.dispatchToken = x.dispatchToken := by
  intro x hx hsettled
  have hopen : x.status ≠ .queued ∧ x.status ≠ .running := by
    constructor <;> intro hs <;> rcases hsettled with h | h <;> rw [hs] at h <;> cases h
  cases h with
  | idle => exact ⟨x, hx, hsettled, rfl, rfl⟩
  | denied => exact absurd hx (Option.not_mem_none x)
  | prepared => exact absurd hx (Option.not_mem_none x)
  | claimed _ hclaim =>
    obtain rfl := Option.some.inj hx
    exact absurd hclaim.1 hopen.1
  | crossed _ hcross =>
    obtain rfl := Option.some.inj hx
    exact absurd hcross.2.1 hopen.2
  | neverClaimed _ hclaim =>
    obtain rfl := Option.some.inj hx
    exact absurd hclaim.1 hopen.1
  | neverStarted _ hbefore =>
    obtain rfl := Option.some.inj hx
    exact absurd hbefore.2.1 hopen.2
  | unknown _ hpast =>
    obtain rfl := Option.some.inj hx
    exact absurd hpast.2.1 hopen.2
  | traced => exact ⟨x, hx, hsettled, rfl, rfl⟩
  | finished _ _ _ outcome =>
    obtain rfl := Option.some.inj hx
    exact ⟨_, rfl, .inl outcome.terminal_terminal, rfl, rfl⟩

end Rows

/-! ## The law is kept -/

section Kept

/-- What a row counts for after a step. -/
lemma countOn_step {count : RunRow → ℕ} {test : EventType → Bool} {row : RunRow}
    (horg : row.orgId = org) (hold : ∀ x ∈ o, x.orgId = org)
    (hcount : count row = o.elim 0 count + types.countP test) (c : ChainId) :
    countOn count (some row) c =
      countOn count o c + if c = chainIdFor org .run then types.countP test else 0 := by
  cases o with
  | none =>
    simp only [Option.elim, Nat.zero_add] at hcount
    simp [countOn, horg, hcount]
  | some x =>
    simp only [countOn, horg, hold x rfl, hcount, Option.elim]
    split
    · rfl
    · rfl

/-- **A transition keeps the law of its run.** -/
theorem RunLaw.moved (h : RunLaw s r) (hmoved : RunMoved org r s s') : RunLaw s' r := by
  obtain ⟨n, types, traced, htransition, hprogress⟩ := hmoved
  have hrow := hprogress.row
  have hcheck := hprogress.checked h.row.checked
  have hinvocation : ∀ t, ∀ x ∈ s' (.invocation r t), x ∈ s (.invocation r t) ∨
      ∃ inv now, traced = some (t, inv) ∧ x = inv.row now := by
    intro t x hx
    rcases hprogress.invocation t with heq | ⟨-, inv, now, htraced, hnew⟩
    · exact .inl (heq ▸ hx)
    · rw [hnew] at hx
      exact .inr ⟨inv, now, htraced, (Option.some.inj hx).symm⟩
  rcases htransition.rowStep h.row (hrow ▸ hcheck) with ⟨hn, rfl, htraced⟩ | ⟨row, rfl, hstep⟩
  · rw [hn] at hrow
    refine ⟨hrow ▸ h.row, fun c => ?_, fun c => ?_, fun t ht => ?_, fun t x hx => ?_,
      hprogress.turn h.turn⟩
    · rw [hprogress.runEventCount, h.ended, hrow]
      simp
    · rw [hprogress.runEventCount, h.unknown, hrow]
      simp
    · rw [hrow]
      obtain ⟨x, hx⟩ := Option.ne_none_iff_exists'.mp ht
      rcases hinvocation t x hx with hold | ⟨inv, now, hinv, -⟩
      · exact h.invocation t (Option.ne_none_iff_exists'.mpr ⟨x, hold⟩)
      · exact (htraced _ hinv).2
    · rw [hrow]
      rcases hinvocation t x hx with hold | ⟨inv, now, hinv, rfl⟩
      · exact h.trace t x hold
      · exact .inl (htraced _ hinv).1
  · have hold : ∀ x ∈ s (.run r), x.orgId = org := fun x hx => (hstep.old x hx).1
    refine ⟨⟨hcheck, ?_⟩, fun c => ?_, fun c => ?_, fun t ht => ?_, fun t x hx => ?_,
      hprogress.turn h.turn⟩
    · rw [hrow]
      exact forall_mem_some fun hnone => hstep.version.resolve_left fun hne => hne hnone
    · rw [hprogress.runEventCount, h.ended, hrow, countOn_step hstep.orgId hold ?_]
      have hzero : (s (.run r)).elim 0 RunRow.endedCount = 0 := by
        cases hs : s (.run r) with
        | none => rfl
        | some x => simp [RunRow.endedCount, (hstep.old x hs).2]
      rw [hzero, Nat.zero_add, hstep.ended]
    · rw [hprogress.runEventCount, h.unknown, hrow, countOn_step hstep.orgId hold hstep.unknown]
    · rw [hrow]
      refine ⟨row, rfl, ?_⟩
      obtain ⟨x, hx⟩ := Option.ne_none_iff_exists'.mp ht
      rcases hinvocation t x hx with hold | ⟨inv, now, hinv, -⟩
      · obtain ⟨y, hy, htoken, hacc⟩ := h.invocation t (Option.ne_none_iff_exists'.mpr ⟨x, hold⟩)
        exact hstep.kept y hy t htoken hacc
      · exact ⟨(hstep.traced _ hinv).1, (hstep.traced _ hinv).2.1⟩
    · rw [hrow]
      rcases hinvocation t x hx with hold | ⟨inv, now, hinv, rfl⟩
      · refine (h.trace t x hold).imp_right fun ⟨y, hy, hended⟩ => ?_
        rw [(hstep.old y hy).2] at hended
        cases hended
      · exact (hstep.traced _ hinv).2.2.imp_right fun hended => ⟨row, rfl, hended⟩

/-- A transaction that does not touch a run keeps its law. -/
lemma RunLaw.frame (h : RunLaw s r) (hfoot : Footprint K E U s s')
    (hK : ∀ k ∈ K, k.runId ≠ some r) (hE : ∀ t, (t, r) ∈ E → t.ofRun = false)
    (hU : (.runEvent, some r) ∉ U) : RunLaw s' r := by
  have hrow : s' (.run r) = s (.run r) := hfoot.rows _ rfl fun hk => hK _ hk rfl
  have hinvocation : ∀ t, s' (.invocation r t) = s (.invocation r t) := fun t =>
    hfoot.rows _ rfl fun hk => hK _ hk rfl
  have hindex : s' (.runEventTurn r) = s (.runEventTurn r) :=
    hfoot.rows _ rfl fun hk => hK _ hk rfl
  have hterminal : ∀ t, (t, r) ∈ E → EventType.terminalRun t = false := by
    intro t ht
    have hrun := hE t ht
    revert hrun
    cases t <;> decide
  have hunknown : ∀ t, (t, r) ∈ E → EventType.unknownRun t = false := by
    intro t ht
    have hrun := hE t ht
    revert hrun
    cases t <;> decide
  refine ⟨by rw [hrow]; exact h.row, fun c => ?_, fun c => ?_, fun t ht => ?_, fun t x hx => ?_, ?_⟩
  · rw [hfoot.runEventCount hterminal, h.ended, hrow]
  · rw [hfoot.runEventCount hunknown, h.unknown, hrow]
  · rw [hrow]
    exact h.invocation t (hinvocation t ▸ ht)
  · rw [hrow]
    exact h.trace t x (hinvocation t ▸ hx)
  · have hturn := h.turn
    simpa only [OneRunTurn, hindex, hfoot.runTurns hU] using hturn

/-- The law of every run. -/
def RunLaws (db : WorkroomDb) : Prop := ∀ r, RunLaw db r

/-- **Every transaction keeps the law of every run.** -/
theorem RunLaws.effect (h : RunLaws s) (heffect : RunsEffect s s') : RunLaws s' := by
  intro r
  cases heffect with
  | elsewhere hfoot =>
    refine (h r).frame hfoot (fun k hk hr => hk ?_) (fun t ht => ht) fun hU => hU rfl
    show k.runId ≠ none
    rw [hr]
    exact Option.some_ne_none r
  | @moved org r' hfoot hmoved =>
    by_cases hr : r = r'
    · subst hr
      exact (h r).moved hmoved
    · refine (h r).frame hfoot ?_ ?_ ?_
      · rintro k (hk | hk) hkr
        · exact hr (Option.some.inj (hkr.symm.trans hk))
        · refine hk ?_
          show k.runId ≠ none
          rw [hkr]
          exact Option.some_ne_none r
      · rintro t ⟨-, rfl⟩
        exact absurd rfl hr
      · intro hU
        have heq := (Prod.mk.inj (Set.mem_singleton_iff.mp hU)).2
        exact hr (Option.some.inj heq)

/-- There are no runs at the start. -/
lemma runLaws_of_initial (h : InitialWorkroomDb s) : RunLaws s := by
  intro r
  have hrow : s (.run r) = none := by simpa [emptyWorkroomDb] using h (.run r)
  have hchain : ∀ c, s (.chain c) = [] := fun c => by simpa [emptyWorkroomDb] using h (.chain c)
  have hinvocation : ∀ t, s (.invocation r t) = none := fun t => by
    simpa [emptyWorkroomDb] using h (.invocation r t)
  have hturns : ∀ w, s (.turns w) = [] := fun w => by simpa [emptyWorkroomDb] using h (.turns w)
  have hindex : s (.runEventTurn r) = none := by simpa [emptyWorkroomDb] using h (.runEventTurn r)
  refine ⟨⟨?_, ?_⟩, fun c => ?_, fun c => ?_, fun t ht => absurd (hinvocation t) ht, fun t x hx => ?_,
    .inl ⟨hindex, fun w => by rw [runTurns, hturns, List.filter_nil]⟩⟩
  · rw [hrow]
    exact forall_mem_none
  · rw [hrow]
    exact forall_mem_none
  · rw [runEventCount, hchain, hrow]
    rfl
  · rw [runEventCount, hchain, hrow]
    rfl
  · rw [hinvocation] at hx
    exact absurd hx (Option.not_mem_none x)

/-- Every transaction leaves settled runs settled. -/
lemma RunsEffect.settled (heffect : RunsEffect s s') : SettledSince s s' := by
  intro r x hx hsettled
  cases heffect with
  | elsewhere hfoot =>
    refine ⟨x, ?_, hsettled, rfl, rfl⟩
    rwa [hfoot.rows _ rfl fun hk => hk (Option.some_ne_none r)]
  | @moved org r' hfoot hmoved =>
    by_cases hr : r = r'
    · subst hr
      obtain ⟨n, types, traced, htransition, hprogress⟩ := hmoved
      rw [hprogress.row]
      exact htransition.settled x hx hsettled
    · refine ⟨x, ?_, hsettled, rfl, rfl⟩
      rwa [hfoot.rows _ rfl ?_]
      rintro (hk | hk)
      · exact hr (Option.some.inj hk)
      · exact hk (Option.some_ne_none r)

lemma SettledSince.refl (s : WorkroomDb) : SettledSince s s :=
  fun _ x hx hsettled => ⟨x, hx, hsettled, rfl, rfl⟩

lemma SettledSince.trans {s₁ s₂ s₃ : WorkroomDb} (h : SettledSince s₁ s₂)
    (h' : SettledSince s₂ s₃) : SettledSince s₁ s₃ := by
  intro r x hx hsettled
  obtain ⟨y, hy, hys, horg, htoken⟩ := h r x hx hsettled
  obtain ⟨z, hz, hzs, horg', htoken'⟩ := h' r y hy hys
  exact ⟨z, hz, hzs, horg'.trans horg, htoken'.trans htoken⟩

end Kept

/-! ## Reachable states -/

section System

variable {sha256 : Bytes → Bytes}
  {c c' : LockState WorkroomDb WorkroomItem (TxPoint WorkroomItem.Val String Unit) TxId}

lemma RunsEffect.ledger (h : RunsEffect s s') : Ledger s' := by
  cases h with
  | elsewhere hfoot => exact hfoot.ledger
  | moved hfoot _ => exact hfoot.ledger

/-- What holds after every transaction: the ledger, the law of every run, and that no committed state
had a settled run which is not settled now. -/
structure RunsInvariant (H : Set WorkroomDb) (s : WorkroomDb) : Prop where
  ledger : Ledger s
  laws : RunLaws s
  settled : ∀ h ∈ H, SettledSince h s

lemma RunsInvariant.effect {H : Set WorkroomDb} {p : WorkroomTx Unit} {u : Unit}
    {ws : Pending WorkroomItem.Val} (h : RunsInvariant H s) (hp : WorkroomProgram sha256 p)
    (hrun : Exec H s p [] u ws) : RunsEffect s (ws.apply s) :=
  workroomProgram_runs hp h.ledger h.settled hrun

/-- It is kept by a program that runs alone. -/
lemma RunsInvariant.exec {H : Set WorkroomDb} {p : WorkroomTx Unit} {u : Unit}
    {ws : Pending WorkroomItem.Val} (h : RunsInvariant H s) (hp : WorkroomProgram sha256 p)
    (hrun : Exec H s p [] u ws) : RunsInvariant (insert (ws.apply s) H) (ws.apply s) := by
  have heffect := h.effect hp hrun
  refine ⟨heffect.ledger, h.laws.effect heffect, ?_⟩
  rintro t (rfl | ht)
  · exact .refl _
  · exact (h.settled t ht).trans heffect.settled

lemma ledger_of_initial (h : InitialWorkroomDb s) : Ledger s :=
  ledger_empty.congr (fun w => by simpa using h (.turns w)) (fun c => by simpa using h (.chain c))
    fun i => by simpa using h (.event i)

/-- There are no runs at the start. -/
lemma RunsInvariant.start (h : InitialWorkroomDb s) : RunsInvariant {s} s :=
  ⟨ledger_of_initial h, runLaws_of_initial h, fun _ ht => Set.mem_singleton_iff.mp ht ▸ .refl s⟩

/-- In every reachable state every run keeps its law. -/
theorem runLaws_of_reachable (hc : (workroomSystem sha256).Reachable c) : RunLaws c.committed := by
  obtain ⟨H, h, -⟩ := txSystem_invariant (I := RunsInvariant) (fun s hs => .start hs)
    (fun H s p b ws h _ hp hrun => h.exec hp hrun) hc
  exact h.laws

/-- A step leaves the committed state, or has an effect on the runs. -/
lemma runsEffect_of_step {a : TxId × LockAction (TxPoint WorkroomItem.Val String Unit)}
    (hc : (workroomSystem sha256).Reachable c) (hstep : (workroomSystem sha256).step c a c') :
    c'.committed = c.committed ∨ RunsEffect c.committed c'.committed := by
  obtain ⟨H, h, -, heq | ⟨p, b, ws, hp, hrun, heq⟩⟩ :=
    txSystem_exec (I := RunsInvariant) (fun s hs => .start hs)
      (fun H s p b ws h _ hp hrun => h.exec hp hrun) hc hstep
  · exact .inl heq
  · rw [heq]
    exact .inr (h.effect hp hrun)

/-- A transaction that touches runs does not change a run that has ended. -/
lemma RunsEffect.absorbing (h : RunsEffect s s') (hlaw : RunLaws s) {row : RunRow}
    (hrow : s (.run r) = some row) (hended : row.status.terminal = true) :
    s' (.run r) = some row := by
  cases h with
  | elsewhere hfoot => rw [hfoot.rows _ rfl fun hk => hk (Option.some_ne_none r), hrow]
  | @moved org r' hfoot hmoved =>
    by_cases hr : r = r'
    · subst hr
      obtain ⟨n, types, traced, htransition, hprogress⟩ := hmoved
      have hcheck := hprogress.checked (hlaw r).row.checked
      rw [hprogress.row] at hcheck ⊢
      rcases htransition.rowStep (hlaw r).row hcheck with ⟨rfl, -⟩ | ⟨new, -, hstep⟩
      · exact hrow
      · have hactive := (hstep.old row hrow).2
        rw [hended] at hactive
        cases hactive
    · rw [hfoot.rows _ rfl ?_, hrow]
      rintro (hk | hk)
      · exact hr (Option.some.inj hk)
      · exact hk (Option.some_ne_none r)

/-- What the protocol promises of the runs of a database: the matrix of the states, one terminal event
if the run has ended and none otherwise, one event for an outcome that was declared unknown, the
invocations of one token only, and at most one turn. -/
def RunStates (db : WorkroomDb) : Prop :=
  ∀ r row, db (.run r) = some row → row.dispatchProtocolVersion = some 1 →
    row.StateCheck ∧
    (∀ c, runEventCount db r c EventType.terminalRun =
      if c = chainIdFor row.orgId .run ∧ row.status.terminal = true then 1 else 0) ∧
    (∀ c, runEventCount db r c EventType.unknownRun =
      if c = chainIdFor row.orgId .run ∧ row.outcomeUnknownAt ≠ none then 1 else 0) ∧
    (∀ t, db (.invocation r t) ≠ none → row.dispatchToken = some t) ∧
    OneRunTurn db r

lemma RunLaws.runStates (h : RunLaws s) : RunStates s := by
  intro r row hrow _
  have hlaw := h r
  have hended := hlaw.ended
  have hunknown := hlaw.unknown
  rw [hrow] at hended hunknown
  refine ⟨hlaw.row.checked row hrow, fun c => ?_, fun c => ?_, fun t ht => ?_, hlaw.turn⟩
  · rw [hended, countOn, RunRow.endedCount, ite_and]
  · rw [hunknown, countOn, RunRow.unknownCount, ite_and]
    simp only [ne_eq, ite_not]
  · obtain ⟨x, hx, htoken, -⟩ := hlaw.invocation t ht
    rw [hrow] at hx
    rwa [← Option.some.inj hx] at htoken

/-- **The state invariant of the runs.**  It holds in every reachable state; and every step leaves the
committed state as it is, or commits a state in which it holds and in which every run that had ended is
unchanged. -/
theorem run_state_invariant (hc : (workroomSystem sha256).Reachable c) :
    RunStates c.committed ∧ ∀ a c', (workroomSystem sha256).step c a c' →
      c'.committed = c.committed ∨
        (RunStates c'.committed ∧ ∀ r row, c.committed (.run r) = some row →
          row.status.terminal = true → c'.committed (.run r) = some row) := by
  refine ⟨(runLaws_of_reachable hc).runStates, fun a c' hstep => ?_⟩
  refine (runsEffect_of_step hc hstep).imp_right fun heffect => ?_
  refine ⟨(runLaws_of_reachable (hc.step hstep)).runStates, fun r row hrow hended => ?_⟩
  exact heffect.absorbing (runLaws_of_reachable hc) hrow hended

end System

/-! ## A run with an unknown outcome -/

/-- The context of the sample run. -/
def sampleRunCtx : DispatchEventContext := ⟨workroomUuid 1, workroomUuid 30, none⟩

/-- A governed run is claimed, crosses the boundary, and its forward is observed without an answer. -/
def sampleUnknownRun : List (WorkroomTx Unit) :=
  [ignore (governedTxA (sampleUser 2) sampleRunRequest none none ⟨false, []⟩
    ⟨workroomUuid 30, workroomUuid 200, 0, 0, none⟩),
  ignore (claimDispatch sampleRunCtx (workroomUuid 40) (workroomUuid 201) 60000 1),
  ignore (Dispatch.commitDispatchBoundary sampleRunCtx (workroomUuid 40) 2),
  ignore (markOutcomeUnknown sampleRunCtx (workroomUuid 40) (workroomUuid 202) .providerTimeout
    (some ⟨workroomUuid 50, "/v1/chat/completions", []⟩) 3)]

lemma reachable_sampleUnknownRun : (workroomSystem fun _ => []).Reachable
    ⟨serialRun sampleUnknownRun emptyWorkroomDb, fun _ => none⟩ :=
  reachable_serialRun 0 reachable_emptyWorkroomDb (by
    simp only [sampleUnknownRun, List.forall_mem_cons, List.not_mem_nil, false_imp_iff, implies_true,
      and_true]
    exact ⟨.governedTxA .., .claimDispatch .., .commitDispatchBoundary .., .markOutcomeUnknown ..⟩)

/-- The sample ends with an unknown outcome and one event that says so. -/
theorem run_state_invariant_sample : ∃ row,
    (serialRun sampleUnknownRun emptyWorkroomDb) (.run (workroomUuid 30)) = some row ∧
      row.status = .outcomeUnknown ∧
      runEventCount (serialRun sampleUnknownRun emptyWorkroomDb) (workroomUuid 30)
        (chainIdFor (workroomUuid 1) .run) EventType.unknownRun = 1 := by
  have hrow : ((serialRun sampleUnknownRun emptyWorkroomDb) (.run (workroomUuid 30))).map
      (fun r => (r.status, r.dispatchProtocolVersion, r.orgId, r.outcomeUnknownAt)) =
        some (.outcomeUnknown, some 1, workroomUuid 1, some 3) := by
    decide +kernel
  obtain ⟨row, hr, heq⟩ := Option.map_eq_some_iff.mp hrow
  simp only [Prod.mk.injEq] at heq
  obtain ⟨hstatus, hversion, horg, hunknown⟩ := heq
  have hstates := (run_state_invariant reachable_sampleUnknownRun).1
  dsimp only at hstates
  obtain ⟨-, -, hcount, -⟩ := hstates _ row hr hversion
  refine ⟨row, hr, hstatus, ?_⟩
  rw [hcount, horg, hunknown]
  exact if_pos ⟨rfl, Option.some_ne_none 3⟩

end GovAI
