import GovAI.Workroom.Footprint

/-!
# The transitions of a run row

What a transaction does to the run it is about, apart from its footprint: the row, the types of the new
events, the invocation and the turn (`RunProgress`).  `RunTransition` lists what the ten transactions
can do, and each of them has one lemma that says so.
-/

namespace GovAI

open TxProgram Function

variable {v₀ v v' : WorkroomDb} {r : Uuid} {c : ChainId} {row : Option RunRow}
  {types : List EventType} {traced : Option (Uuid × InvocationInsert)}

/-! ## The turn of a run -/

/-- The `run_event` turns of a run in a workroom. -/
def runTurns (db : WorkroomDb) (r w : Uuid) : List WorkroomTurnRow :=
  (db (.turns w)).filter fun t => t.kind = .runEvent ∧ t.payloadRef = some r

/-- There is no `run_event` turn of the run, or exactly one, as its unique index says. -/
def OneRunTurn (db : WorkroomDb) (r : Uuid) : Prop :=
  (db (.runEventTurn r) = none ∧ ∀ w, runTurns db r w = []) ∨
    ∃ w t, db (.runEventTurn r) = some t.auditEventId ∧ runTurns db r w = [t] ∧
      ∀ w' ≠ w, runTurns db r w' = []

/-- A new turn of the run in one workroom. -/
lemma runTurns_addTurn {w : Uuid} {t : WorkroomTurnRow} (hkind : t.kind = .runEvent)
    (hpayload : t.payloadRef = some r) (w' : Uuid) : runTurns (addTurn v w t) r w' =
      if w' = w then runTurns v r w' ++ [t] else runTurns v r w' := by
  by_cases hw : w' = w
  · simp [runTurns, List.filter_append, hw, hkind, hpayload]
  · simp [runTurns, hw]

/-- Other items do not matter. -/
lemma runTurns_update {k : WorkroomItem} {x : k.Val} (hk : k.isLedger = false) (w : Uuid) :
    runTurns (update v k x) r w = runTurns v r w := by
  rw [runTurns, update_of_ne (by rintro rfl; cases hk), runTurns]

/-- The first turn of a run. -/
lemma OneRunTurn.insert {w : Uuid} {t : WorkroomTurnRow} (h : OneRunTurn v r)
    (hnone : v (.runEventTurn r) = none) (hkind : t.kind = .runEvent)
    (hpayload : t.payloadRef = some r) :
    OneRunTurn (update (addTurn v w t) (.runEventTurn r) (some t.auditEventId)) r := by
  obtain ⟨-, hfree⟩ | ⟨_, _, hsome, -⟩ := h
  · refine .inr ⟨w, t, update_self _ _ _, ?_, fun w' hw => ?_⟩
    · rw [runTurns_update rfl, runTurns_addTurn hkind hpayload, if_pos rfl, hfree, List.nil_append]
    · rw [runTurns_update rfl, runTurns_addTurn hkind hpayload, if_neg hw, hfree]
  · rw [hnone] at hsome
    cases hsome

/-! ## Progress -/

/-- What has happened to a run since `v₀`: its row, the types of the events that were appended to its
chain, and the invocation that was inserted or found there, with its token. -/
structure RunProgress (r : Uuid) (c : ChainId) (v₀ : WorkroomDb) (row : Option RunRow)
    (types : List EventType) (traced : Option (Uuid × InvocationInsert)) (v : WorkroomDb) :
    Prop where
  row : v (.run r) = row
  checked : (∀ x ∈ v₀ (.run r), x.StateCheck) → ∀ x ∈ v (.run r), x.StateCheck
  events : ∃ es : List ChainEvent, es.map ChainEvent.eventType = types ∧
    (∀ e ∈ es, e.subjectId = r) ∧ ∀ c', v (.chain c') = v₀ (.chain c') ++ if c' = c then es else []
  invocation : ∀ t, v (.invocation r t) = v₀ (.invocation r t) ∨
    v₀ (.invocation r t) = none ∧
      ∃ inv now, traced = some (t, inv) ∧ v (.invocation r t) = some (inv.row now)
  request : ∀ x ∈ traced, ∃ y ∈ v (.invocation r x.1),
    y.nativeEndpoint = x.2.nativeEndpoint ∧ y.nativeRequestHash = x.2.nativeRequestHash
  turn : OneRunTurn v₀ r → OneRunTurn v r

/-- The items that it is about. -/
def progressItems (r : Uuid) : Set WorkroomItem :=
  {k | k.isLedger = true ∨ k = .run r ∨ k = .runEventTurn r ∨ ∃ t, k = .invocation r t}

/-- At the start. -/
lemma RunProgress.start : RunProgress r c v (v (.run r)) [] none v where
  row := rfl
  checked h := h
  events := ⟨[], rfl, List.forall_mem_nil _, fun c' => by split <;> simp⟩
  invocation _ := .inl rfl
  request x hx := absurd hx (Option.not_mem_none x)
  turn h := h

/-- Only these items matter. -/
lemma RunProgress.congr (h : RunProgress r c v₀ row types traced v)
    (hsame : ∀ k ∈ progressItems r, v' k = v k) : RunProgress r c v₀ row types traced v' where
  row := by rw [hsame _ (.inr (.inl rfl)), h.row]
  checked hv := by rw [hsame _ (.inr (.inl rfl))]; exact h.checked hv
  events := by
    obtain ⟨es, htypes, hsubject, hchain⟩ := h.events
    exact ⟨es, htypes, hsubject, fun c' => by rw [hsame _ (.inl rfl), hchain]⟩
  invocation t := by rw [hsame _ (.inr (.inr (.inr ⟨t, rfl⟩)))]; exact h.invocation t
  request x hx := by rw [hsame _ (.inr (.inr (.inr ⟨x.1, rfl⟩)))]; exact h.request x hx
  turn hv := by
    have hturns : ∀ w, runTurns v' r w = runTurns v r w := fun w => by
      rw [runTurns, hsame _ (.inl rfl), runTurns]
    simpa only [OneRunTurn, hturns, hsame _ (.inr (.inr (.inl rfl)))] using h.turn hv

lemma keeps_set_progress {k : WorkroomItem} {x : k.Val} (hk : k ∉ progressItems r) :
    Keeps (RunProgress r c v₀ row types traced) (set k x : WorkroomTx Unit) := by
  refine keeps_set fun v h => h.congr fun k' hk' => update_of_ne ?_ _ _
  rintro rfl
  exact hk hk'

lemma writeRun_progress (new : RunRow) :
    Triple (RunProgress r c v₀ row types traced) (writeRun r new)
      fun _ => RunProgress r c v₀ (some new) types traced := by
  unfold writeRun
  refine triple_bind (Q := fun _ v => RunProgress r c v₀ row types traced v ∧ new.StateCheck)
    (triple_failIf fun v h hcheck => ⟨h, not_not.mp hcheck⟩) fun _ => ?_
  refine triple_bind (keeps_failIf _ _) fun _ => triple_set fun v ⟨h, hcheck⟩ => ?_
  refine ⟨by simp, fun _ x hx => ?_, ?_, fun t => ?_, fun x hx => ?_, fun hv => ?_⟩
  · obtain rfl : new = x := by simpa using hx
    exact hcheck
  · obtain ⟨es, htypes, hsubject, hchain⟩ := h.events
    exact ⟨es, htypes, hsubject, fun c' => by rw [update_of_ne (by simp), hchain]⟩
  · rw [update_of_ne (by simp)]
    exact h.invocation t
  · rw [update_of_ne (by simp)]
    exact h.request x hx
  · simpa [OneRunTurn, runTurns] using h.turn hv

variable {ctx : DispatchEventContext} {token eventId : Uuid} {now timeoutMs clock : ℤ}

/-- One more event about the run. -/
lemma RunProgress.addEvent (h : RunProgress r c v₀ row types traced v) {e : ChainEvent}
    {eventType : EventType} (he : e.subjectId = r) (htype : e.eventType = eventType) :
    RunProgress r c v₀ row (types ++ [eventType]) traced (addEvent v c e) where
  row := by rw [addEvent_row rfl, h.row]
  checked := by rw [addEvent_row rfl]; exact h.checked
  events := by
    obtain ⟨es, htypes, hsubject, hchain⟩ := h.events
    refine ⟨es ++ [e], by simp [htypes, htype], fun e' he' => ?_, fun c' => ?_⟩
    · rcases List.mem_append.mp he' with he' | he'
      · exact hsubject e' he'
      · rw [List.mem_singleton.mp he', he]
    · rw [addEvent_chain, hchain]
      split
      · rw [List.append_assoc]
      · rfl
  invocation t := by rw [addEvent_row rfl]; exact h.invocation t
  request x hx := by rw [addEvent_row rfl]; exact h.request x hx
  turn hv := by
    simpa only [OneRunTurn, runTurns, addEvent_turns,
      addEvent_row (k := WorkroomItem.runEventTurn r) rfl] using h.turn hv

lemma appendRunEvent_progress (ctx : DispatchEventContext) {eventType : EventType} {redaction : EventMeta} :
    Triple (RunProgress ctx.runId ctx.chainId v₀ row types traced)
      (appendRunEvent ctx eventId eventType now redaction)
      fun _ => RunProgress ctx.runId ctx.chainId v₀ row (types ++ [eventType]) traced := by
  intro H s ws e ws' h hrun
  obtain ⟨-, rfl, heq⟩ := auditAppend_spec hrun
  rw [heq]
  exact h.addEvent rfl rfl

lemma ensureRunEventTurn_progress {w participantId auditEventId : Uuid} :
    Keeps (RunProgress r c v₀ row types traced)
      (ensureRunEventTurn w participantId r auditEventId) := by
  unfold ensureRunEventTurn
  refine keeps_bind (keeps_lockItem _) fun _ => keeps_bind (keeps_read _) fun existing => ?_
  split
  · exact keeps_pure _
  · intro H s ws b ws' h hrun
    simp only [exec_bind, exec_lockItem, exec_failIf, exec_set, exec_pure] at hrun
    obtain ⟨n, _, hn, _, _, ⟨rfl, rfl⟩, _, _, ⟨hfree, rfl⟩, _, _, hturn, _, _, rfl, rfl, rfl⟩ := hrun
    obtain ⟨-, rfl⟩ := nextTurnNumber_spec hn
    obtain ⟨-, heq⟩ := insertWorkroomTurn_spec hturn
    rw [Pending.apply, heq]
    refine ⟨?_, ?_, ?_, fun t => ?_, fun x hx => ?_, fun hv => ?_⟩
    · rw [update_of_ne (by simp), addTurn_row rfl, h.row]
    · rw [update_of_ne (by simp), addTurn_row rfl]
      exact h.checked
    · obtain ⟨es, htypes, hsubject, hchain⟩ := h.events
      exact ⟨es, htypes, hsubject, fun c' => by
        rw [update_of_ne (by simp), addTurn_chain, hchain]⟩
    · rw [update_of_ne (by simp), addTurn_row rfl]
      exact h.invocation t
    · rw [update_of_ne (by simp), addTurn_row rfl]
      exact h.request x hx
    · exact (h.turn hv).insert (by simpa using hfree) rfl rfl

lemma maybeEnsureTurn_progress :
    Keeps (RunProgress ctx.runId c v₀ row types traced) (maybeEnsureTurn ctx eventId) := by
  unfold maybeEnsureTurn
  split
  · exact keeps_pure _
  · exact keeps_bind ensureRunEventTurn_progress fun _ => keeps_pure _

lemma insertOrReuseInvocation_progress (inv : InvocationInsert) :
    Triple (RunProgress ctx.runId c v₀ row types none) (insertOrReuseInvocation ctx token inv now)
      fun _ => RunProgress ctx.runId c v₀ row types (some (token, inv)) := by
  unfold insertOrReuseInvocation
  intro H s ws b ws' h hrun
  obtain ⟨existing, ws, ⟨rfl, rfl⟩, hrun⟩ := exec_bind.mp hrun
  have hsame : ∀ t, ws.apply s (.invocation ctx.runId t) = v₀ (.invocation ctx.runId t) :=
    fun t => by simpa using h.invocation t
  split at hrun
  · next hnone =>
    simp only [exec_bind, exec_set, exec_pure] at hrun
    obtain ⟨_, _, rfl, rfl, rfl⟩ := hrun
    rw [Pending.apply]
    refine ⟨by rw [update_of_ne (by simp), h.row], by rw [update_of_ne (by simp)]; exact h.checked,
      ?_, fun t => ?_, fun x hx => ?_, fun hv => ?_⟩
    · obtain ⟨es, htypes, hsubject, hchain⟩ := h.events
      exact ⟨es, htypes, hsubject, fun c' => by rw [update_of_ne (by simp), hchain]⟩
    · by_cases ht : t = token
      · subst ht
        rw [← hsame]
        exact .inr ⟨hnone, inv, now, rfl, update_self _ _ _⟩
      · rw [update_of_ne (by simp [ht])]
        exact .inl (hsame t)
    · obtain rfl := Option.some.inj hx
      exact ⟨_, update_self _ _ _, rfl, rfl⟩
    · simpa only [OneRunTurn, runTurns_update (k := WorkroomItem.invocation ctx.runId token) rfl,
        ne_eq, reduceCtorEq, not_false_eq_true, update_of_ne] using h.turn hv
  · next y hy =>
    simp only [exec_bind, exec_failIf, exec_pure] at hrun
    obtain ⟨_, _, ⟨hrequest, rfl⟩, rfl, rfl⟩ := hrun
    rw [not_or, not_not, not_not] at hrequest
    refine ⟨h.row, h.checked, h.events, fun t => .inl (hsame t), fun x hx => ?_, h.turn⟩
    obtain rfl := Option.some.inj hx
    exact ⟨y, hy, hrequest⟩

/-- The invocation of an observed forward, which has no answer. -/
def observedUnder (token : Uuid) (observed : Option InvocationRequest) :
    Option (Uuid × InvocationInsert) :=
  observed.map fun request => (token, ⟨request, none, none⟩)

lemma ensureInvocation_progress (observed : Option InvocationRequest) :
    Triple (RunProgress ctx.runId c v₀ row types none) (ensureInvocation ctx token observed now)
      fun _ => RunProgress ctx.runId c v₀ row types (observedUnder token observed) := by
  cases observed with
  | none => exact keeps_pure _
  | some request => exact triple_bind (insertOrReuseInvocation_progress _) fun _ => keeps_pure _

/-! ## Transitions -/

/-- The row after a claim. -/
def RunRow.claimedBy (r : RunRow) (token : Uuid) (timeoutMs now : ℤ) : RunRow :=
  { r with
    status := .running
    dispatchToken := some token
    dispatchClaimedAt := some now
    startedAt := some now
    dispatchTimeoutMs := some timeoutMs
    dispatchDeadlineAt := some (now + 1000 * timeoutMs) }

/-- The row after a known outcome. -/
def RunRow.finishedWith (r : RunRow) (outcome : KnownOutcome) (now : ℤ) : RunRow :=
  { r with
    status := outcome.terminal
    completedAt := some now
    dispatchErrorClass := outcome.errorClass }

/-- The events of a known outcome. -/
def KnownOutcome.eventTypes (outcome : KnownOutcome) (reconciled : Bool) : List EventType :=
  (if outcome.capturedV4.isSome then [.passthroughInvoked] else []) ++
    (if reconciled then [.runOutcomeReconciled] else []) ++ [outcome.eventType]

/-- The invocation of a known outcome. -/
def KnownOutcome.answeredUnder (outcome : KnownOutcome) (token : Uuid) :
    Option (Uuid × InvocationInsert) :=
  match outcome with
  | .http statusCode request responseHash _ =>
    some (token, ⟨request, some responseHash, some statusCode⟩)
  | _ => none

/-- The invocation has no answer. -/
def InvocationInsert.IsTrace (inv : InvocationInsert) : Prop :=
  inv.nativeResponseHash = none ∧ inv.statusCode = none

/-- A row whose run has ended or has an unknown outcome. -/
def RunRow.Settled (row : RunRow) : Prop :=
  row.status.terminal = true ∨ row.status = .outcomeUnknown

/-- What a transaction can do to a run of the organisation `org`: its row before and after, the types
of the events, and the invocation that it may insert. -/
inductive RunTransition (org : Uuid) :
    Option RunRow → Option RunRow → List EventType → Option (Uuid × InvocationInsert) → Prop
  | idle (row : Option RunRow) : RunTransition org row row [] none
  | denied {row : RunRow} (horg : row.orgId = org) (hstatus : row.status = .denied)
      (hversion : row.dispatchProtocolVersion = none) (htoken : row.dispatchToken = none)
      (hunknown : row.outcomeUnknownAt = none) : RunTransition org none (some row) [.runDenied] none
  | prepared {row : RunRow} (horg : row.orgId = org) (hstatus : row.status = .queued)
      (hversion : row.dispatchProtocolVersion = some 1) :
      RunTransition org none (some row) [.runDispatchPrepared] none
  | claimed {row : RunRow} (horg : row.orgId = org) (hclaim : row.Claimable)
      (token : Uuid) (timeoutMs now : ℤ) :
      RunTransition org (some row) (some (row.claimedBy token timeoutMs now)) [.runDispatchClaimed]
        none
  | crossed {row : RunRow} (horg : row.orgId = org) {token : Uuid} {clock : ℤ}
      (hcross : row.Crossable token clock) :
      RunTransition org (some row) (some { row with dispatchBoundaryCommittedAt := some clock }) []
        none
  | neverClaimed {row : RunRow} (horg : row.orgId = org) (hclaim : row.Claimable)
      {errorClass : DispatchErrorClass}
      (hclass : errorClass = .dispatchNeverClaimed ∨ errorClass = .dispatchPreclaimFailed)
      (now : ℤ) :
      RunTransition org (some row) (some (row.failedWith errorClass now)) [.runFailed] none
  | neverStarted {row : RunRow} (horg : row.orgId = org) {token : Uuid}
      (hbefore : row.BeforeBoundary token) {errorClass : DispatchErrorClass}
      (hclass : errorClass = .dispatchBoundaryPersistFailed ∨ errorClass = .dispatchNeverStarted)
      (now : ℤ) :
      RunTransition org (some row) (some (row.failedWith errorClass now)) [.runFailed] none
  | unknown {row : RunRow} (horg : row.orgId = org) {token : Uuid} (hpast : row.PastBoundary token)
      (errorClass : DispatchErrorClass) (now : ℤ) {traced : Option (Uuid × InvocationInsert)}
      (htraced : ∀ x ∈ traced, x.1 = token ∧ x.2.IsTrace) :
      RunTransition org (some row) (some (row.unknownWith errorClass now)) [.runOutcomeUnknown]
        traced
  | traced {row : RunRow} (horg : row.orgId = org) {token : Uuid}
      (htoken : row.dispatchToken = some token) (hsettled : row.Settled)
      {traced : Option (Uuid × InvocationInsert)} (htraced : ∀ x ∈ traced, x.1 = token ∧ x.2.IsTrace) :
      RunTransition org (some row) (some row) [] traced
  | finished {row : RunRow} (horg : row.orgId = org) {token : Uuid}
      (htoken : row.dispatchToken = some token)
      (hstatus : row.status = .running ∨ row.status = .outcomeUnknown) (outcome : KnownOutcome)
      (reconciled : Bool) (now : ℤ) :
      RunTransition org (some row) (some (row.finishedWith outcome now))
        (outcome.eventTypes reconciled) (outcome.answeredUnder token)

/-- A run of the organisation made a transition between two databases. -/
def RunMoved (org r : Uuid) (v₀ v : WorkroomDb) : Prop :=
  ∃ row types traced, RunTransition org (v₀ (.run r)) row types traced ∧
    RunProgress r (chainIdFor org .run) v₀ row types traced v

/-! ## The transactions -/

section Programs

/-- A transaction has not yet done anything to the run. -/
abbrev RunAt (org r : Uuid) (v₀ : WorkroomDb) : WorkroomDb → Prop :=
  RunProgress r (chainIdFor org .run) v₀ (v₀ (.run r)) [] none

lemma RunMoved.idle {org : Uuid} (h : RunAt org r v₀ v) : RunMoved org r v₀ v :=
  ⟨_, _, _, .idle _, h⟩

/-- A row that was found under its lock. -/
def Found (ctx : DispatchEventContext) (v₀ : WorkroomDb) (row : Option RunRow) : Prop :=
  ∀ x ∈ row, v₀ (.run ctx.runId) = some x ∧ x.orgId = ctx.orgId

lemma lockRun_progress : Triple (RunAt ctx.orgId ctx.runId v₀) (lockRun ctx)
    fun b v => RunAt ctx.orgId ctx.runId v₀ v ∧ Found ctx v₀ b := by
  unfold lockRun
  refine triple_bind (Q := fun b v => RunAt ctx.orgId ctx.runId v₀ v ∧ b = v₀ (.run ctx.runId))
    (triple_lockItem fun v h => ⟨h, h.row⟩) fun b => triple_pure fun v ⟨h, hb⟩ => ⟨h, ?_⟩
  intro x hx
  obtain ⟨hrow, horg⟩ := Option.filter_eq_some_iff.mp (Option.mem_def.mp hx)
  exact ⟨hb ▸ hrow, of_decide_eq_true horg⟩

/-- A transaction that gives the run a row and appends events ends in a transition. -/
lemma triple_moved {α : Type} {P : WorkroomDb → Prop} {org : Uuid} {old : Option RunRow}
    {p : WorkroomTx α} (hrow : v₀ (.run r) = old) (h : RunTransition org old row types traced)
    (hp : Triple P p fun _ => RunProgress r (chainIdFor org .run) v₀ row types traced) :
    Triple P p fun _ => RunMoved org r v₀ :=
  hp.imp (fun _ h => h) fun _ _ hv => ⟨_, _, _, hrow ▸ h, hv⟩

lemma claimDispatch_moved : Triple (RunAt ctx.orgId ctx.runId v₀)
    (claimDispatch ctx token eventId timeoutMs now) fun _ => RunMoved ctx.orgId ctx.runId v₀ := by
  unfold claimDispatch
  refine triple_bind lockRun_progress fun b => triple_of_and fun hfound => ?_
  split
  · next x hx =>
    obtain ⟨hb, hclaim⟩ := Option.filter_eq_some_iff.mp hx
    obtain ⟨hrow, horg⟩ := hfound x hb
    refine triple_moved hrow (.claimed horg (of_decide_eq_true hclaim) token timeoutMs now) ?_
    refine triple_bind (writeRun_progress _) fun _ => ?_
    exact triple_bind (appendRunEvent_progress ctx) fun _ => keeps_pure _
  · exact triple_pure fun v h => .idle h

lemma commitDispatchBoundary_moved : Triple (RunAt ctx.orgId ctx.runId v₀)
    (Dispatch.commitDispatchBoundary ctx token clock) fun _ => RunMoved ctx.orgId ctx.runId v₀ := by
  unfold Dispatch.commitDispatchBoundary
  refine triple_bind lockRun_progress fun b => triple_of_and fun hfound => ?_
  have hidle : ∀ reason, Triple (RunAt ctx.orgId ctx.runId v₀)
      (pure (.notCommitted reason) : WorkroomTx BoundaryCommitResult)
      fun _ => RunMoved ctx.orgId ctx.runId v₀ := fun reason => triple_pure fun v h => .idle h
  split
  · exact hidle _
  · next x =>
    obtain ⟨hrow, horg⟩ := hfound x rfl
    split
    · next hcross =>
      refine triple_moved hrow (.crossed horg hcross) ?_
      exact triple_bind (writeRun_progress _) fun _ => keeps_pure _
    · split
      · exact hidle _
      · split
        · exact hidle _
        · split
          · exact hidle _
          · exact hidle _

/-- A row is written, one event is appended, and the run gets its turn. -/
lemma triple_endRun (ctx : DispatchEventContext) {α : Type} {new : RunRow} {eventType : EventType} {redaction : EventMeta} {a : α} :
    Triple (RunAt ctx.orgId ctx.runId v₀) (do
      writeRun ctx.runId new
      let event ← appendRunEvent ctx eventId eventType now redaction
      maybeEnsureTurn ctx event.id
      pure a)
      fun _ => RunProgress ctx.runId ctx.chainId v₀ (some new) [eventType] none := by
  refine triple_bind (writeRun_progress _) fun _ => triple_bind (appendRunEvent_progress ctx) fun event => ?_
  exact triple_bind maybeEnsureTurn_progress fun _ => keeps_pure _

lemma failBoundaryNotEstablished_moved : Triple (RunAt ctx.orgId ctx.runId v₀)
    (failBoundaryNotEstablished ctx token eventId now) fun _ => RunMoved ctx.orgId ctx.runId v₀ := by
  unfold failBoundaryNotEstablished
  refine triple_bind lockRun_progress fun b => triple_of_and fun hfound => ?_
  split
  · next x hx =>
    obtain ⟨hb, hbefore⟩ := Option.filter_eq_some_iff.mp hx
    obtain ⟨hrow, horg⟩ := hfound x hb
    exact triple_moved hrow (.neverStarted horg (of_decide_eq_true hbefore) (.inl rfl) now)
      (triple_endRun ctx)
  · exact triple_pure fun v h => .idle h

lemma failPreclaim_moved (message : JsString) : Triple (RunAt ctx.orgId ctx.runId v₀)
    (failPreclaim ctx eventId message now) fun _ => RunMoved ctx.orgId ctx.runId v₀ := by
  unfold failPreclaim
  refine triple_bind lockRun_progress fun b => triple_of_and fun hfound => ?_
  split
  · next x hx =>
    obtain ⟨hb, hclaim⟩ := Option.filter_eq_some_iff.mp hx
    obtain ⟨hrow, horg⟩ := hfound x hb
    exact triple_moved hrow (.neverClaimed horg (of_decide_eq_true hclaim) (.inr rfl) now)
      (triple_endRun ctx)
  · exact triple_pure fun v h => .idle h

lemma observedUnder_isTrace (observed : Option InvocationRequest) :
    ∀ x ∈ observedUnder token observed, x.1 = token ∧ x.2.IsTrace := by
  intro x hx
  obtain ⟨request, -, rfl⟩ := Option.map_eq_some_iff.mp (Option.mem_def.mp hx)
  exact ⟨rfl, rfl, rfl⟩

/-- The runs that had settled when `h` was committed are settled still, under the same token. -/
def SettledSince (h s : WorkroomDb) : Prop :=
  ∀ r, ∀ x ∈ h (.run r), x.Settled → ∃ y ∈ s (.run r), y.Settled ∧ y.orgId = x.orgId ∧
    y.dispatchToken = x.dispatchToken

/-- The transaction that only leaves the trace of a forward may have read an earlier state. -/
lemma traceUnknown_moved {observed : Option InvocationRequest} {H : Set WorkroomDb}
    {b : Bool × Option RunStatus} {ws : Pending WorkroomItem.Val}
    (hH : ∀ h ∈ H, SettledSince h v₀)
    (hrun : Exec H v₀ (traceUnknown ctx token observed now) [] b ws) :
    RunMoved ctx.orgId ctx.runId v₀ (ws.apply v₀) := by
  have hstart : RunAt ctx.orgId ctx.runId v₀ (Pending.apply [] v₀) := .start
  unfold traceUnknown at hrun
  obtain ⟨seen, ws₁, hread, hrun⟩ := exec_bind.mp hrun
  obtain ⟨⟨h, hh, rfl⟩, rfl⟩ := (exec_read _ _).mp hread
  split at hrun
  · next hunknown =>
    obtain ⟨x, hx, hmatch⟩ := (Option.any_eq_true _ _).mp hunknown
    obtain ⟨htoken, hstatus⟩ := of_decide_eq_true hmatch
    obtain ⟨hrow, horg⟩ := Option.filter_eq_some_iff.mp hx
    obtain ⟨y, hy, hsettled, horg', htoken'⟩ := hH h hh ctx.runId x hrow (.inr hstatus)
    have horgy : y.orgId = ctx.orgId := horg'.trans (of_decide_eq_true horg)
    have hprogress : Triple (RunAt ctx.orgId ctx.runId v₀) (do
        let _ ← ensureInvocation ctx token observed now
        pure (false, Option.map RunRow.status (some x)))
        fun _ => RunProgress ctx.runId ctx.chainId v₀ (v₀ (.run ctx.runId)) []
          (observedUnder token observed) :=
      triple_bind (ensureInvocation_progress _) fun _ => keeps_pure _
    refine ⟨_, _, _, ?_, hprogress hstart (by rwa [hx] at hrun)⟩
    rw [Option.mem_def.mp hy]
    exact .traced horgy (htoken'.trans htoken) hsettled (observedUnder_isTrace observed)
  · obtain ⟨rfl, rfl⟩ := hrun
    exact .idle hstart

/-- The row that is found matches, and nothing is written. -/
lemma lockRunWhere_spec {p : RunRow → Bool} {H : Set WorkroomDb} {b : Option RunRow}
    {ws : Pending WorkroomItem.Val} (hrun : Exec H v₀ (lockRunWhere ctx p) [] b ws) :
    ws = [] ∧ ∀ x ∈ b, v₀ (.run ctx.runId) = some x ∧ x.orgId = ctx.orgId ∧ p x = true := by
  have hstart : RunAt ctx.orgId ctx.runId v₀ (Pending.apply [] v₀) := .start
  unfold lockRunWhere at hrun
  obtain ⟨seen, ws₁, hread, hrun⟩ := exec_bind.mp hrun
  obtain ⟨-, rfl⟩ := (exec_read _ _).mp hread
  split at hrun
  · obtain ⟨row, ws₂, hlock, rfl, rfl⟩ := exec_bind.mp hrun
    obtain ⟨-, hfound⟩ := lockRun_progress hstart hlock
    obtain ⟨_, _, ⟨-, rfl⟩, -, rfl⟩ := exec_bind.mp hlock
    refine ⟨rfl, fun x hx => ?_⟩
    obtain ⟨hrow, hp⟩ := Option.filter_eq_some_iff.mp (Option.mem_def.mp hx)
    exact ⟨(hfound x hrow).1, (hfound x hrow).2, hp⟩
  · obtain ⟨rfl, rfl⟩ := hrun
    exact ⟨rfl, fun x hx => absurd hx (Option.not_mem_none x)⟩

/-- An unknown outcome is recorded, or only the trace of the forward is left. -/
lemma markOutcomeUnknown_moved {errorClass : UnknownClass} {observed : Option InvocationRequest}
    {H : Set WorkroomDb} {b : Bool × Option RunStatus} {ws : Pending WorkroomItem.Val}
    (hH : ∀ h ∈ H, SettledSince h v₀)
    (hrun : Exec H v₀ (markOutcomeUnknown ctx token eventId errorClass observed now) [] b ws) :
    RunMoved ctx.orgId ctx.runId v₀ (ws.apply v₀) := by
  have hstart : RunAt ctx.orgId ctx.runId v₀ (Pending.apply [] v₀) := .start
  unfold markOutcomeUnknown at hrun
  obtain ⟨row, ws₁, hlock, hrun⟩ := exec_bind.mp hrun
  obtain ⟨rfl, hfound⟩ := lockRunWhere_spec hlock
  split at hrun
  · next x =>
    obtain ⟨hrow, horg, hpast⟩ := hfound x rfl
    have hmoved : Triple (RunAt ctx.orgId ctx.runId v₀) (do
        writeRun ctx.runId (x.unknownWith errorClass.errorClass now)
        let _ ← ensureInvocation ctx token observed now
        let event ← appendRunEvent ctx eventId .runOutcomeUnknown now
        maybeEnsureTurn ctx event.id
        pure (true, some RunStatus.outcomeUnknown))
        fun _ => RunMoved ctx.orgId ctx.runId v₀ := by
      refine triple_moved hrow (.unknown horg (of_decide_eq_true hpast) errorClass.errorClass now
        (observedUnder_isTrace observed)) ?_
      refine triple_bind (writeRun_progress _) fun _ => ?_
      refine triple_bind (ensureInvocation_progress _) fun _ => ?_
      refine triple_bind (appendRunEvent_progress ctx) fun event => ?_
      exact triple_bind maybeEnsureTurn_progress fun _ => keeps_pure _
    exact hmoved hstart hrun
  · exact traceUnknown_moved hH hrun

lemma insertOutcomeInvocation_progress (outcome : KnownOutcome) :
    Triple (RunProgress ctx.runId c v₀ row types none)
      (insertOutcomeInvocation ctx token outcome now)
      fun _ => RunProgress ctx.runId c v₀ row types (outcome.answeredUnder token) := by
  cases outcome with
  | http => exact triple_bind (insertOrReuseInvocation_progress _) fun _ => keeps_pure _
  | blocked => exact keeps_pure _
  | localError => exact keeps_pure _

lemma appendCaptured_progress (capturedV4 : Option Uuid) :
    Triple (RunProgress ctx.runId ctx.chainId v₀ row [] traced) (appendCaptured ctx capturedV4 now)
      fun _ => RunProgress ctx.runId ctx.chainId v₀ row
        (if capturedV4.isSome then [.passthroughInvoked] else []) traced := by
  unfold appendCaptured
  cases capturedV4 with
  | none => exact keeps_pure _
  | some v4 => exact triple_bind (appendRunEvent_progress ctx) fun _ => keeps_pure _

lemma appendReconciled_progress (reconciled : Bool) :
    Triple (RunProgress ctx.runId ctx.chainId v₀ row types traced)
      (appendReconciled ctx reconciled eventId now)
      fun _ => RunProgress ctx.runId ctx.chainId v₀ row
        (types ++ if reconciled then [.runOutcomeReconciled] else []) traced := by
  unfold appendReconciled
  cases reconciled with
  | false =>
    refine (keeps_pure _).imp (fun v h => ?_) fun _ _ h => h
    simpa using h
  | true => exact triple_bind (appendRunEvent_progress ctx) fun _ => keeps_pure _

lemma writeOutcome_progress (outcome : KnownOutcome) (x : RunRow) (draw : FinalizeDraw) :
    Triple (RunAt ctx.orgId ctx.runId v₀) (writeOutcome ctx token outcome x draw)
      fun _ => RunProgress ctx.runId ctx.chainId v₀ (some (x.finishedWith outcome draw.now))
        (outcome.eventTypes (decide (x.status = .outcomeUnknown) && outcome.isHttp))
        (outcome.answeredUnder token) := by
  unfold writeOutcome
  refine triple_bind (insertOutcomeInvocation_progress _) fun _ => triple_bind (writeRun_progress _) fun _ => ?_
  refine triple_bind (appendCaptured_progress _) fun _ => ?_
  refine triple_bind (appendReconciled_progress _) fun _ => ?_
  refine triple_bind (appendRunEvent_progress ctx) fun event => ?_
  exact triple_bind maybeEnsureTurn_progress fun _ => keeps_pure _

lemma writeOutcome_moved (outcome : KnownOutcome) {x : RunRow} (draw : FinalizeDraw)
    (hrow : v₀ (.run ctx.runId) = some x) (horg : x.orgId = ctx.orgId)
    (htoken : x.dispatchToken = some token)
    (hstatus : x.status = .running ∨ x.status = .outcomeUnknown) :
    Triple (RunAt ctx.orgId ctx.runId v₀) (writeOutcome ctx token outcome x draw)
      fun _ => RunMoved ctx.orgId ctx.runId v₀ :=
  triple_moved hrow (.finished horg htoken hstatus outcome _ draw.now)
    (writeOutcome_progress outcome x draw)

lemma finalizeKnownOutcome_moved (outcome : KnownOutcome) (draw : FinalizeDraw) :
    Triple (RunAt ctx.orgId ctx.runId v₀) (finalizeKnownOutcome ctx token outcome draw)
      fun _ => RunMoved ctx.orgId ctx.runId v₀ := by
  unfold finalizeKnownOutcome
  refine triple_bind lockRun_progress fun b => triple_of_and fun hfound => ?_
  cases b with
  | none => exact triple_bind (triple_orFail (Q := fun _ _ => False) fun _ _ _ h => nomatch h) fun _ =>
      fun _ _ _ _ _ h _ => h.elim
  | some x =>
    obtain ⟨hrow, horg⟩ := hfound x rfl
    refine triple_bind (Q := fun y v => RunAt ctx.orgId ctx.runId v₀ v ∧ y = x)
      (triple_orFail fun y v hv hy => ⟨hv, (Option.some.inj hy).symm⟩) fun y => triple_of_and ?_
    rintro rfl
    refine triple_bind (Q := fun _ v => RunAt ctx.orgId ctx.runId v₀ v ∧ y.dispatchToken = some token)
      (triple_failIf fun v hv ht => ⟨hv, not_not.mp ht⟩) fun _ => triple_of_and fun htoken => ?_
    split
    · refine triple_bind (keeps_failIf _ _) fun _ => ?_
      exact triple_bind (checkDuplicate_keeps _ _) fun _ => triple_pure fun v h => .idle h
    · refine triple_bind (Q := fun _ v => RunAt ctx.orgId ctx.runId v₀ v ∧
        (y.status = .running ∨ y.status = .outcomeUnknown))
        (triple_failIf fun v hv hs => ⟨hv, by tauto⟩) fun _ => triple_of_and fun hstatus => ?_
      exact writeOutcome_moved outcome draw hrow horg htoken hstatus

/-! ### Recovery -/

variable {orgId runId : Uuid}

lemma lockForRecovery_progress (stale : RunRow → Bool) :
    Triple (RunAt orgId runId v₀) (lockForRecovery orgId runId stale) fun b v =>
      RunAt orgId runId v₀ v ∧
        ∀ x ∈ b, v₀ (.run runId) = some x ∧ x.orgId = orgId ∧ stale x = true := by
  unfold lockForRecovery
  refine triple_bind (Q := fun b v => RunAt orgId runId v₀ v ∧ b = v₀ (.run runId))
    (triple_lockItem fun v h => ⟨h, h.row⟩) fun b => triple_pure fun v ⟨h, hb⟩ => ⟨h, ?_⟩
  intro x hx
  obtain ⟨hrow, hstale⟩ := Option.filter_eq_some_iff.mp (Option.mem_def.mp hx)
  rw [Bool.and_eq_true] at hstale
  exact ⟨hb ▸ hrow, of_decide_eq_true hstale.1, hstale.2⟩

lemma recoverQueuedStale_moved {preparedGraceMs : ℤ} : Triple (RunAt orgId runId v₀)
    (recoverQueuedStale orgId runId eventId preparedGraceMs now)
    fun _ => RunMoved orgId runId v₀ := by
  unfold recoverQueuedStale
  refine triple_bind (lockForRecovery_progress _) fun b => triple_of_and fun hfound => ?_
  split
  · exact triple_pure fun v h => .idle h
  · next x =>
    obtain ⟨hrow, horg, hstale⟩ := hfound x rfl
    rw [Bool.and_eq_true] at hstale
    exact triple_moved hrow (.neverClaimed horg (of_decide_eq_true hstale.1) (.inl rfl) now)
      (triple_endRun (recoveryEventCtx orgId runId x))

lemma recoverRunningStale_moved {recoveryGraceMs : ℤ} : Triple (RunAt orgId runId v₀)
    (recoverRunningStale orgId runId eventId recoveryGraceMs now)
    fun _ => RunMoved orgId runId v₀ := by
  unfold recoverRunningStale
  refine triple_bind (lockForRecovery_progress _) fun b => triple_of_and fun hfound => ?_
  split
  · exact triple_pure fun v h => .idle h
  · next x hx =>
    obtain ⟨hb, hsome⟩ := Option.filter_eq_some_iff.mp hx
    obtain ⟨token, htoken⟩ := Option.isSome_iff_exists.mp hsome
    obtain ⟨hrow, horg, hstale⟩ := hfound x hb
    rw [Bool.and_eq_true] at hstale
    obtain ⟨-, hrunning⟩ := of_decide_eq_true hstale.1
    split
    · next hnone =>
      exact triple_moved hrow (.neverStarted horg ⟨htoken, hrunning, hnone⟩ (.inr rfl) now)
        (triple_endRun (recoveryEventCtx orgId runId x))
    · next hsome =>
      exact triple_moved hrow
        (.unknown horg ⟨htoken, hrunning, hsome⟩ .staleDispatchClaim now
          fun x hx => absurd hx (Option.not_mem_none x))
        (triple_endRun (recoveryEventCtx orgId runId x))

/-! ### Preparation -/

variable {sha256 : Bytes → Bytes} {identity : AuthIdentity} {body : RunRequest}
  {wctx : Option WorkroomRunContext} {idem : Option ResolvedIdempotencyContext} {draw : RunDraw}

lemma insertRun_progress (new : RunRow) : Triple (RunAt orgId runId v₀) (insertRun runId new)
    fun _ v => RunProgress runId (chainIdFor orgId .run) v₀ (some new) [] none v ∧
      v₀ (.run runId) = none := by
  unfold insertRun
  refine triple_bind (Q := fun b v => RunAt orgId runId v₀ v ∧ b = v₀ (.run runId))
    (triple_lockItem fun v h => ⟨h, h.row⟩) fun b => triple_of_and fun hb => ?_
  refine triple_bind (Q := fun _ v => RunAt orgId runId v₀ v ∧ b = none)
    (triple_failIf fun v h hsome => ⟨h, by simpa using hsome⟩) fun _ => triple_of_and fun hnone => ?_
  exact (writeRun_progress new).imp (fun _ h => h) fun _ _ h => ⟨h, by rw [← hb, hnone]⟩

lemma reserveKey_progress (org : Uuid) :
    Keeps (RunProgress r c v₀ row types traced) (reserveKey org idem r) := by
  unfold reserveKey
  split
  · unfold reserveOrSignalLoser reserveRunIdempotency
    refine keeps_bind (keeps_bind (keeps_lockItem _) fun _ => keeps_ite (keeps_pure _) ?_)
      fun _ => keeps_failIf _ _
    refine keeps_bind (keeps_set_progress ?_) fun _ => keeps_pure _
    simp [progressItems, WorkroomItem.isLedger]
  · exact keeps_pure _

lemma consumeApprovalOf_progress (approval : Option Uuid) :
    Keeps (RunProgress r c v₀ row types traced) (consumeApprovalOf approval r now) := by
  unfold consumeApprovalOf
  split
  · refine keeps_bind (keeps_lockItem _) fun _ => keeps_bind (keeps_orFail _ _) fun _ => ?_
    refine keeps_set_progress ?_
    simp [progressItems, WorkroomItem.isLedger]
  · exact keeps_pure _

lemma governedTxA_moved (answer : PolicyAnswer) : Triple (RunAt identity.orgId draw.runId v₀)
    (governedTxA identity body wctx idem answer draw)
    fun _ => RunMoved identity.orgId draw.runId v₀ := by
  unfold governedTxA
  refine triple_bind (assertWorkroomRunContextStillValid_keeps _ _) fun _ => ?_
  refine triple_bind (failWith_keeps _ _) fun _ => triple_bind (insertRun_progress _) fun _ => ?_
  refine triple_of_and fun hnone => triple_bind (reserveKey_progress _) fun _ => ?_
  refine triple_bind (keeps_set_progress (by simp [progressItems, WorkroomItem.isLedger])) fun _ => ?_
  split
  · refine triple_moved hnone ?_ (triple_bind (writeRun_progress _) fun _ =>
      triple_bind (appendRunEvent_progress (preparationContext identity wctx draw.runId)) fun _ =>
        triple_bind maybeEnsureTurn_progress fun _ => keeps_pure _)
    exact .denied rfl rfl rfl rfl rfl
  · refine triple_moved hnone ?_ (triple_bind (writeRun_progress _) fun _ =>
      triple_bind (appendRunEvent_progress (preparationContext identity wctx draw.runId)) fun _ =>
        keeps_pure _)
    exact .prepared rfl rfl rfl

lemma passthroughTxA_moved (approval : Option Uuid) : Triple (RunAt identity.orgId draw.runId v₀)
    (passthroughTxA sha256 identity body wctx approval idem draw)
    fun _ => RunMoved identity.orgId draw.runId v₀ := by
  unfold passthroughTxA
  refine triple_bind (assertWorkroomRunContextStillValid_keeps _ _) fun _ => ?_
  refine triple_bind (assertApprovalOf_keeps _ _ _ _) fun _ => triple_bind (failWith_keeps _ _) fun _ => ?_
  refine triple_bind (insertRun_progress _) fun _ => triple_of_and fun hnone => ?_
  refine triple_moved hnone ?_ (triple_bind (reserveKey_progress _) fun _ =>
    triple_bind (assertApprovalOf_keeps _ _ _ _) fun _ =>
      triple_bind (consumeApprovalOf_progress _) fun _ =>
        triple_bind (appendRunEvent_progress (preparationContext identity wctx draw.runId)) fun _ =>
          keeps_pure _)
  exact .prepared rfl rfl rfl

end Programs

end GovAI
