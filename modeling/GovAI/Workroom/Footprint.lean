import GovAI.Dispatch.Transitions
import GovAI.Workroom.Ledger

/-!
# Footprints

What a transaction may change: the rows in a set `K`, new events whose types and subjects are in `E`
and new turns whose kinds and payloads are in `U`, each anchored to a new event.  Every transaction keeps the ledger, and has a footprint
(`Footprint`); what it does not touch is then unchanged, whatever it read.
-/

namespace GovAI

open TxProgram Function

variable {v₀ v db : WorkroomDb} {K K' : Set WorkroomItem} {E E' : Set (EventType × Uuid)}
  {U U' : Set (TurnKind × Option Uuid)} {c : ChainId} {w : Uuid}

/-- The items of the ledger. -/
def WorkroomItem.isLedger : WorkroomItem → Bool
  | turns _ | chain _ | event _ => true
  | _ => false

/-! ## Items after an event or a turn -/

section Items

variable {e : ChainEvent} {t : WorkroomTurnRow} {k : WorkroomItem}

@[simp] lemma addEvent_chain (c' : ChainId) : addEvent db c e (.chain c') =
    if c' = c then db (.chain c') ++ [e] else db (.chain c') := by
  by_cases h : c' = c
  · subst h
    simp [addEvent]
  · simp [addEvent, h]

@[simp] lemma addEvent_event (i : Uuid) :
    addEvent db c e (.event i) = if i = e.id then some c else db (.event i) := by
  simp [addEvent]

@[simp] lemma addEvent_turns : addEvent db c e (.turns w) = db (.turns w) := by simp [addEvent]

lemma addEvent_row (hk : k.isLedger = false) : addEvent db c e k = db k := by
  cases k <;> simp_all [addEvent, WorkroomItem.isLedger]

@[simp] lemma addTurn_turns (w' : Uuid) : addTurn db w t (.turns w') =
    if w' = w then db (.turns w') ++ [t] else db (.turns w') := by
  by_cases h : w' = w
  · subst h
    simp [addTurn]
  · simp [addTurn, h]

@[simp] lemma addTurn_chain (c' : ChainId) : addTurn db w t (.chain c') = db (.chain c') := by
  simp [addTurn]

@[simp] lemma addTurn_event (i : Uuid) : addTurn db w t (.event i) = db (.event i) := by
  simp [addTurn]

lemma addTurn_row (hk : k.isLedger = false) : addTurn db w t k = db k := by
  cases k <;> simp_all [addTurn, WorkroomItem.isLedger]

/-- A row is not part of the ledger. -/
lemma ledger_update {x : k.Val} (hk : k.isLedger = false) (h : Ledger db) : Ledger (update db k x) := by
  refine h.congr (fun w => ?_) (fun c => ?_) fun i => ?_ <;>
  · apply update_of_ne
    rintro rfl
    cases hk

end Items

/-! ## The footprint -/

/-- From `v₀` to `v` only rows in `K` were changed, only events with types and subjects in `E` were
appended, and only turns with kinds and payloads in `U` were added, anchored to such events. -/
structure Footprint (K : Set WorkroomItem) (E : Set (EventType × Uuid))
    (U : Set (TurnKind × Option Uuid)) (v₀ v : WorkroomDb) : Prop where
  ledger : Ledger v
  rows : ∀ k, k.isLedger = false → k ∉ K → v k = v₀ k
  event : ∀ i c, v₀ (.event i) = some c → v (.event i) = some c
  chain : ∀ c, ∃ es, v (.chain c) = v₀ (.chain c) ++ es ∧
    ∀ e ∈ es, (e.eventType, e.subjectId) ∈ E ∧ v₀ (.event e.id) = none
  turns : ∀ w, ∃ ts, v (.turns w) = v₀ (.turns w) ++ ts ∧
    ∀ t ∈ ts, (t.kind, t.payloadRef) ∈ U ∧ v₀ (.event t.auditEventId) = none

/-- The event was appended on the way from `v₀` to `v`. -/
def Fresh (v₀ v : WorkroomDb) (i : Uuid) : Prop := v₀ (.event i) = none ∧ v (.event i) ≠ none

lemma Footprint.refl (h : Ledger v) : Footprint K E U v v where
  ledger := h
  rows _ _ _ := rfl
  event _ _ h := h
  chain _ := ⟨[], by simp⟩
  turns _ := ⟨[], by simp⟩

lemma Footprint.mono (h : Footprint K E U v₀ v) (hK : K ⊆ K') (hE : E ⊆ E') (hU : U ⊆ U') :
    Footprint K' E' U' v₀ v where
  ledger := h.ledger
  rows k hk hout := h.rows k hk fun hin => hout (hK hin)
  event := h.event
  chain c := by
    obtain ⟨es, heq, hes⟩ := h.chain c
    exact ⟨es, heq, fun e he => ⟨hE (hes e he).1, (hes e he).2⟩⟩
  turns w := by
    obtain ⟨ts, heq, hts⟩ := h.turns w
    exact ⟨ts, heq, fun t ht => ⟨hU (hts t ht).1, (hts t ht).2⟩⟩

/-- A write of a row in `K`. -/
lemma Footprint.set (h : Footprint K E U v₀ v) {k : WorkroomItem} (x : k.Val) (hk : k ∈ K)
    (hrow : k.isLedger = false) : Footprint K E U v₀ (update v k x) := by
  have hother : ∀ k', k'.isLedger = true → update v k x k' = v k' := by
    intro k' hk'
    apply update_of_ne
    rintro rfl
    rw [hrow] at hk'
    cases hk'
  refine ⟨ledger_update hrow h.ledger, fun k' hk' hout => ?_, fun i c hi => ?_, fun c => ?_,
    fun w => ?_⟩
  · rw [update_of_ne fun heq => hout (by rwa [heq])]
    exact h.rows k' hk' hout
  · rw [hother _ rfl]
    exact h.event i c hi
  · rw [hother _ rfl]
    exact h.chain c
  · rw [hother _ rfl]
    exact h.turns w

/-- What was free at the end was free at the start. -/
lemma Footprint.event_eq_none (h : Footprint K E U v₀ v) {i : Uuid} (hi : v (.event i) = none) :
    v₀ (.event i) = none := by
  cases hold : v₀ (.event i) with
  | none => rfl
  | some c => rw [h.event i c hold] at hi; cases hi

lemma Footprint.addEvent (h : Footprint K E U v₀ v) {e : ChainEvent} (hE : (e.eventType, e.subjectId) ∈ E)
    (hfree : v (.event e.id) = none)
    (hseq : e.sequenceNumber = nextSequenceNumber (v (.chain c))) :
    Footprint K E U v₀ (addEvent v c e) ∧ Fresh v₀ (GovAI.addEvent v c e) e.id := by
  refine ⟨⟨h.ledger.addEvent hfree hseq, fun k hk hout => ?_, fun i c' hi => ?_, fun c' => ?_,
    fun w => ?_⟩, h.event_eq_none hfree, by simp⟩
  · rw [addEvent_row hk]
    exact h.rows k hk hout
  · have hi' := h.event i c' hi
    rw [addEvent_event, if_neg, hi']
    rintro rfl
    rw [hfree] at hi'
    cases hi'
  · obtain ⟨es, heq, hes⟩ := h.chain c'
    by_cases hc : c' = c
    · subst hc
      refine ⟨es ++ [e], by rw [addEvent_chain, if_pos rfl, heq, List.append_assoc], ?_⟩
      intro e' he'
      rcases List.mem_append.mp he' with he' | he'
      · exact hes e' he'
      · obtain rfl := List.mem_singleton.mp he'
        exact ⟨hE, h.event_eq_none hfree⟩
    · exact ⟨es, by rw [addEvent_chain, if_neg hc, heq], hes⟩
  · rw [addEvent_turns]
    exact h.turns w

lemma Footprint.addTurn (h : Footprint K E U v₀ v) {t : WorkroomTurnRow} (hU : (t.kind, t.payloadRef) ∈ U)
    (hnext : NextTurn (v (.turns w)) t.turnNumber)
    (hfree : t.turnNumber ∉ (v (.turns w)).map WorkroomTurnRow.turnNumber)
    (hfresh : Fresh v₀ v t.auditEventId) : Footprint K E U v₀ (addTurn v w t) := by
  refine ⟨h.ledger.addTurn hnext hfree hfresh.2, fun k hk hout => ?_, fun i c' hi => ?_,
    fun c' => ?_, fun w' => ?_⟩
  · rw [addTurn_row hk]
    exact h.rows k hk hout
  · rw [addTurn_event]
    exact h.event i c' hi
  · rw [addTurn_chain]
    exact h.chain c'
  · obtain ⟨ts, heq, hts⟩ := h.turns w'
    by_cases hw : w' = w
    · subst hw
      refine ⟨ts ++ [t], by rw [addTurn_turns, if_pos rfl, heq, List.append_assoc], ?_⟩
      intro t' ht'
      rcases List.mem_append.mp ht' with ht' | ht'
      · exact hts t' ht'
      · obtain rfl := List.mem_singleton.mp ht'
        exact ⟨hU, hfresh.1⟩
    · exact ⟨ts, by rw [addTurn_turns, if_neg hw, heq], hts⟩

/-! ## The shared statements -/

/-- A turn may now be inserted: its number was drawn and its event was appended. -/
def TurnReady (K : Set WorkroomItem) (E : Set (EventType × Uuid))
    (U : Set (TurnKind × Option Uuid)) (v₀ : WorkroomDb) (w : Uuid) (n : ℕ) (i : Uuid)
    (v : WorkroomDb) : Prop :=
  (Footprint K E U v₀ v ∧ NextTurn (v (.turns w)) n) ∧ Fresh v₀ v i

lemma keeps_set_footprint {k : WorkroomItem} {x : k.Val} (hk : k ∈ K) (hrow : k.isLedger = false) :
    Keeps (Footprint K E U v₀) (set k x : WorkroomTx Unit) :=
  keeps_set fun _ h => h.set x hk hrow

lemma keeps_set_turnReady {n : ℕ} {i : Uuid} {k : WorkroomItem} {x : k.Val} (hk : k ∈ K)
    (hrow : k.isLedger = false) : Keeps (TurnReady K E U v₀ w n i) (set k x : WorkroomTx Unit) := by
  refine keeps_set fun v h => ⟨⟨h.1.1.set x hk hrow, ?_⟩, h.2.1, ?_⟩
  · rw [update_of_ne (by rintro rfl; cases hrow)]
    exact h.1.2
  · rw [update_of_ne (by rintro rfl; cases hrow)]
    exact h.2.2

/-- An event is appended; `R` is anything that does not depend on the chains. -/
lemma auditAppend_footprint {R : WorkroomDb → Prop} (hR : ∀ v c e, R v → R (addEvent v c e))
    {id subjectId : Uuid} {eventType : EventType} {occurredAt : ℤ} {redaction : EventMeta}
    (hE : (eventType, subjectId) ∈ E) :
    Triple (fun v => Footprint K E U v₀ v ∧ R v)
      (Workroom.auditAppend c id eventType subjectId occurredAt redaction)
      fun e v => (Footprint K E U v₀ v ∧ R v) ∧ Fresh v₀ v e.id := by
  rintro H s ws e ws' ⟨hfoot, hr⟩ hrun
  obtain ⟨hfree, rfl, heq⟩ := auditAppend_spec hrun
  rw [heq]
  obtain ⟨hfoot', hfresh⟩ := hfoot.addEvent (c := c) (e := ⟨id, _, eventType, subjectId, occurredAt,
    redaction⟩) hE hfree rfl
  exact ⟨⟨hfoot', hR _ _ _ hr⟩, hfresh⟩

/-- An event is appended. -/
lemma auditAppend_event {id subjectId : Uuid} {eventType : EventType} {occurredAt : ℤ}
    {redaction : EventMeta} (hE : (eventType, subjectId) ∈ E) :
    Triple (Footprint K E U v₀) (Workroom.auditAppend c id eventType subjectId occurredAt redaction)
      fun e v => Footprint K E U v₀ v ∧ Fresh v₀ v e.id :=
  (auditAppend_footprint (R := fun _ => True) (fun _ _ _ h => h) hE).imp (fun _ h => ⟨h, trivial⟩)
    fun _ _ h => ⟨h.1.1, h.2⟩

/-- An event is appended for a turn whose number was drawn. -/
lemma auditAppend_turnReady {id subjectId : Uuid} {eventType : EventType} {occurredAt : ℤ}
    {redaction : EventMeta} {n : ℕ} (hE : (eventType, subjectId) ∈ E) :
    Triple (fun v => Footprint K E U v₀ v ∧ NextTurn (v (.turns w)) n)
      (Workroom.auditAppend c id eventType subjectId occurredAt redaction)
      fun e => TurnReady K E U v₀ w n e.id :=
  auditAppend_footprint (fun v c e h => by rwa [addEvent_turns]) hE

lemma nextTurnNumber_footprint {P : WorkroomDb → Prop} :
    Triple P (nextTurnNumber w) fun n v => P v ∧ NextTurn (v (.turns w)) n := by
  intro H s ws n ws' hP hrun
  obtain ⟨rfl, rfl⟩ := nextTurnNumber_spec hrun
  exact ⟨hP, .inl rfl⟩

lemma insertWorkroomTurn_footprint {n : ℕ} {actor : Option Uuid} {kind : TurnKind} {i : Uuid}
    {ref : Option Uuid} (hU : (kind, ref) ∈ U) :
    Triple (TurnReady K E U v₀ w n i) (insertWorkroomTurn w ⟨n, actor, kind, i, ref⟩)
      fun _ => Footprint K E U v₀ := by
  rintro H s ws u ws' ⟨⟨hfoot, hnext⟩, hfresh⟩ hrun
  obtain ⟨hfree, heq⟩ := insertWorkroomTurn_spec hrun
  rw [heq]
  exact hfoot.addTurn hU hnext hfree hfresh

/-- The same when the number was drawn after the event. -/
lemma insertWorkroomTurn_afterEvent {n : ℕ} {actor : Option Uuid} {kind : TurnKind} {i : Uuid}
    {ref : Option Uuid} (hU : (kind, ref) ∈ U) :
    Triple (fun v => (Footprint K E U v₀ v ∧ Fresh v₀ v i) ∧ NextTurn (v (.turns w)) n)
      (insertWorkroomTurn w ⟨n, actor, kind, i, ref⟩) fun _ => Footprint K E U v₀ :=
  (insertWorkroomTurn_footprint hU).imp (fun _ h => ⟨⟨h.1.1, h.2⟩, h.1.2⟩) fun _ _ h => h

lemma ensureRunEventTurn_footprint {participantId runId auditEventId : Uuid}
    (hK : .runEventTurn runId ∈ K) (hU : (.runEvent, some runId) ∈ U) :
    Triple (fun v => Footprint K E U v₀ v ∧ Fresh v₀ v auditEventId)
      (ensureRunEventTurn w participantId runId auditEventId) fun _ => Footprint K E U v₀ := by
  unfold ensureRunEventTurn
  refine triple_bind (keeps_lockItem _) fun _ => triple_bind (keeps_read _) fun existing => ?_
  split
  · exact triple_pure fun v h => h.1
  · refine triple_bind nextTurnNumber_footprint fun n => ?_
    refine triple_bind (keeps_lockItem _) fun _ => triple_bind (keeps_failIf _ _) fun _ => ?_
    refine triple_bind (insertWorkroomTurn_afterEvent hU) fun _ => ?_
    exact triple_bind (keeps_set_footprint hK rfl) fun _ => keeps_pure _

/-! ## What the routes change -/

/-- The rows of workrooms and participants. -/
def membershipItems : Set WorkroomItem :=
  {k | ∃ id, k = .workroom id ∨ k = .participant id ∨
    (∃ user, k = .activeHuman id user) ∨ ∃ profile, k = .activeAgent id profile}

/-- The types of the events of workrooms and their transcripts. -/
def EventType.ofRoute : EventType → Bool
  | workroomLifecycle | workroomParticipant | workroomMessage | workroomTaskCreated => true
  | _ => false

/-- The kinds of the turns of these events. -/
def TurnKind.ofRoute : TurnKind → Bool
  | stateTransition | participantChange | message | task => true
  | _ => false

/-- The footprint of a route of a workroom. -/
abbrev RouteFootprint : WorkroomDb → WorkroomDb → Prop :=
  Footprint membershipItems {p | p.1.ofRoute = true} {p | p.1.ofRoute = true}

section Routes

variable {identity : AuthIdentity} {workroomId participantId eventId messageId taskId : Uuid}
  {occurredAt now : ℤ}

lemma insertParticipant_footprint (row : ParticipantRow) :
    Keeps (RouteFootprint v₀) (insertParticipant row) := by
  unfold insertParticipant
  refine keeps_bind (keeps_lockItem _) fun _ => keeps_bind (keeps_failIf _ _) fun _ => ?_
  split
  · refine keeps_bind (keeps_lockItem _) fun _ => keeps_bind (keeps_failIf _ _) fun _ => ?_
    refine keeps_bind (keeps_set_footprint ⟨_, .inr (.inl rfl)⟩ rfl) fun _ => ?_
    exact keeps_set_footprint ⟨_, .inr (.inr (.inl ⟨_, rfl⟩))⟩ rfl
  · refine keeps_bind (keeps_lockItem _) fun _ => keeps_bind (keeps_failIf _ _) fun _ => ?_
    refine keeps_bind (keeps_set_footprint ⟨_, .inr (.inl rfl)⟩ rfl) fun _ => ?_
    exact keeps_set_footprint ⟨_, .inr (.inr (.inr ⟨_, rfl⟩))⟩ rfl
  · exact keeps_fail _

lemma createWorkroom_footprint (body : CreateWorkroomBody) :
    Keeps (RouteFootprint v₀)
      (createWorkroom identity body workroomId participantId eventId occurredAt) := by
  unfold createWorkroom
  refine keeps_bind (keeps_failIf _ _) fun _ => keeps_bind (keeps_read _) fun _ => ?_
  refine keeps_bind (keeps_failIf _ _) fun _ => keeps_bind (keeps_lockItem _) fun _ => ?_
  refine keeps_bind (keeps_failIf _ _) fun _ => ?_
  refine keeps_bind (keeps_set_footprint ⟨_, .inl rfl⟩ rfl) fun _ => ?_
  refine keeps_bind (insertParticipant_footprint _) fun _ => ?_
  refine triple_bind (auditAppend_event rfl) fun event => ?_
  refine (insertWorkroomTurn_afterEvent ?_).imp (fun v h => ⟨h, .inr rfl⟩) fun _ _ h => h
  rfl

lemma checkAgentProfile_footprint (orgId : Uuid) (body : ParticipantBody) :
    Keeps (RouteFootprint v₀) (checkAgentProfile orgId body) := by
  cases body with
  | human role userId => exact keeps_pure _
  | agent role profile =>
    refine keeps_bind (keeps_read _) fun _ => keeps_bind (keeps_orFail _ _) fun _ => ?_
    exact keeps_failIf _ _

lemma addParticipant_footprint (body : ParticipantBody) :
    Keeps (RouteFootprint v₀)
      (addParticipant identity workroomId body participantId eventId occurredAt) := by
  unfold addParticipant
  refine keeps_bind (keeps_read _) fun _ => keeps_bind (keeps_orFail _ _) fun _ => ?_
  refine keeps_bind (keeps_read _) fun _ => keeps_bind (keeps_failIf _ _) fun _ => ?_
  refine keeps_bind (checkAgentProfile_footprint _ _) fun _ => ?_
  refine keeps_bind (insertParticipant_footprint _) fun _ => ?_
  refine triple_bind (auditAppend_event rfl) fun event => ?_
  refine triple_bind nextTurnNumber_footprint fun n => ?_
  exact insertWorkroomTurn_afterEvent rfl

lemma softRemove_footprint (row : ParticipantRow) : Keeps (RouteFootprint v₀) (softRemove row now) := by
  unfold softRemove
  refine keeps_bind (keeps_failIf _ _) fun _ => ?_
  refine keeps_bind (keeps_set_footprint ⟨_, .inr (.inl rfl)⟩ rfl) fun _ => ?_
  split
  · exact keeps_set_footprint ⟨_, .inr (.inr (.inl ⟨_, rfl⟩))⟩ rfl
  · exact keeps_set_footprint ⟨_, .inr (.inr (.inr ⟨_, rfl⟩))⟩ rfl
  · exact keeps_pure _

lemma removeParticipant_footprint :
    Keeps (RouteFootprint v₀)
      (removeParticipant identity workroomId participantId eventId now occurredAt) := by
  unfold removeParticipant
  refine keeps_bind (keeps_read _) fun _ => keeps_bind (keeps_orFail _ _) fun _ => ?_
  refine keeps_bind (keeps_read _) fun _ => keeps_bind (keeps_orFail _ _) fun _ => ?_
  refine keeps_bind (keeps_read _) fun _ => keeps_bind (keeps_orFail _ _) fun _ => ?_
  refine keeps_bind (keeps_failIf _ _) fun _ => keeps_bind (keeps_lockItem _) fun _ => ?_
  refine keeps_bind (keeps_orFail _ _) fun row => keeps_bind (softRemove_footprint _) fun _ => ?_
  refine triple_bind (auditAppend_event rfl) fun event => ?_
  refine triple_bind nextTurnNumber_footprint fun n => ?_
  exact insertWorkroomTurn_afterEvent rfl

lemma activeCaller_keeps (P : WorkroomDb → Prop) : Keeps P (activeCaller identity workroomId) := by
  unfold activeCaller
  refine keeps_bind (keeps_read _) fun _ => keeps_bind (keeps_orFail _ _) fun _ => ?_
  exact keeps_bind (keeps_read _) fun _ => keeps_orFail _ _

lemma postMessage_footprint :
    Keeps (RouteFootprint v₀) (postMessage identity workroomId messageId eventId occurredAt) := by
  unfold postMessage
  refine keeps_bind (activeCaller_keeps _) fun participant => ?_
  refine triple_bind nextTurnNumber_footprint fun n => ?_
  refine triple_bind (auditAppend_turnReady rfl) fun event => ?_
  exact insertWorkroomTurn_footprint rfl

lemma createTask_footprint (assigned : Option Uuid) :
    Keeps (RouteFootprint v₀) (createTask identity workroomId assigned taskId eventId occurredAt) := by
  unfold createTask
  refine keeps_bind (activeCaller_keeps _) fun participant => keeps_bind (keeps_read _) fun _ => ?_
  refine keeps_bind (keeps_failIf _ _) fun _ => ?_
  refine triple_bind nextTurnNumber_footprint fun n => ?_
  refine triple_bind (auditAppend_turnReady rfl) fun event => ?_
  exact insertWorkroomTurn_footprint rfl

end Routes

/-! ## What the approvals change -/

/-- The rows of an approval request. -/
def approvalItems (a : Uuid) : Set WorkroomItem := {.approval a, .decision a}

/-- The types of the events that end a pending request. -/
def EventType.approvalOutcome : EventType → Bool
  | workroomApprovalGranted | workroomApprovalDenied | workroomApprovalRevoked => true
  | _ => false

/-- The types of the events of approvals. -/
def EventType.approval (t : EventType) : Bool := t = .workroomApprovalRequested || t.approvalOutcome

/-- The kinds of the turns of approvals. -/
def TurnKind.approval : TurnKind → Bool
  | approvalRequest | approvalDecision => true
  | _ => false

/-- The footprint of a route of an approval. -/
abbrev ApprovalFootprint (a : Uuid) : WorkroomDb → WorkroomDb → Prop :=
  Footprint (approvalItems a) {p | p.1.approval = true} {p | p.1.approval = true}

section Approvals

variable {sha256 : Bytes → Bytes} {identity : AuthIdentity} {workroomId a eventId decisionId : Uuid}
  {occurredAt now : ℤ}

lemma requestApproval_footprint (body : CreateApprovalBody) :
    Keeps (ApprovalFootprint a v₀)
      (requestApproval sha256 identity workroomId body a eventId occurredAt) := by
  unfold requestApproval
  refine keeps_bind (keeps_read _) fun _ => keeps_bind (keeps_orFail _ _) fun _ => ?_
  refine keeps_bind (keeps_read _) fun _ => keeps_bind (keeps_orFail _ _) fun _ => ?_
  refine triple_bind nextTurnNumber_footprint fun n => ?_
  refine triple_bind (auditAppend_turnReady rfl) fun event => ?_
  refine triple_bind (insertWorkroomTurn_footprint rfl) fun _ => ?_
  refine keeps_bind (keeps_lockItem _) fun _ => keeps_bind (keeps_failIf _ _) fun _ => ?_
  exact keeps_set_footprint (.inl rfl) rfl

lemma insertDecision_turnReady {n : ℕ} {i : Uuid} (row : DecisionRow) :
    Keeps (TurnReady (approvalItems a) E U v₀ w n i) (insertDecision a row) := by
  unfold insertDecision
  refine keeps_bind (keeps_failIf _ _) fun _ => keeps_bind (keeps_read _) fun _ => ?_
  refine keeps_bind (keeps_failIf _ _) fun _ => keeps_bind (keeps_lockItem _) fun _ => ?_
  exact keeps_bind (keeps_failIf _ _) fun _ => keeps_set_turnReady (.inr rfl) rfl

lemma lockApprovalRequest_keeps (P : WorkroomDb → Prop) (orgId : Uuid) :
    Keeps P (lockApprovalRequest orgId workroomId a) := by
  unfold lockApprovalRequest
  exact keeps_bind (keeps_lockItem _) fun _ => keeps_orFail _ _

lemma ApprovalOutcome.eventType_approval (outcome : ApprovalOutcome) :
    outcome.eventType.approval = true := by
  cases outcome <;> rfl

lemma decideApproval_footprint (body : DecisionBody) :
    Keeps (ApprovalFootprint a v₀)
      (decideApproval identity workroomId a body decisionId eventId now occurredAt) := by
  unfold decideApproval
  refine keeps_bind (keeps_failIf _ _) fun _ => ?_
  refine keeps_bind (keeps_read _) fun _ => keeps_bind (keeps_orFail _ _) fun _ => ?_
  refine keeps_bind (keeps_read _) fun _ => keeps_bind (keeps_orFail _ _) fun _ => ?_
  refine keeps_bind (keeps_failIf _ _) fun _ => ?_
  refine keeps_bind (lockApprovalRequest_keeps _ _) fun request => ?_
  refine keeps_bind (keeps_failIf _ _) fun _ => keeps_bind (keeps_failIf _ _) fun _ => ?_
  refine keeps_bind (keeps_failIf _ _) fun _ => ?_
  refine triple_bind nextTurnNumber_footprint fun n => ?_
  refine triple_bind (auditAppend_turnReady body.decision.eventType_approval) fun event => ?_
  refine triple_bind (insertDecision_turnReady _) fun _ => ?_
  refine triple_bind (keeps_set_turnReady (.inl rfl) rfl) fun _ => ?_
  exact insertWorkroomTurn_footprint rfl

lemma revokeApproval_footprint :
    Keeps (ApprovalFootprint a v₀) (revokeApproval identity workroomId a eventId occurredAt) := by
  unfold revokeApproval
  refine keeps_bind (keeps_read _) fun _ => keeps_bind (keeps_orFail _ _) fun _ => ?_
  refine keeps_bind (keeps_read _) fun _ => keeps_bind (keeps_orFail _ _) fun _ => ?_
  refine keeps_bind (lockApprovalRequest_keeps _ _) fun request => ?_
  refine keeps_bind (keeps_failIf _ _) fun _ => keeps_bind (keeps_failIf _ _) fun _ => ?_
  refine triple_bind nextTurnNumber_footprint fun n => ?_
  refine triple_bind (auditAppend_turnReady rfl) fun event => ?_
  refine triple_bind (keeps_set_turnReady (.inl rfl) rfl) fun _ => ?_
  exact insertWorkroomTurn_footprint rfl

end Approvals

/-! ## What the runs change -/

/-- The run that an item is about. -/
def WorkroomItem.runId : WorkroomItem → Option Uuid
  | runEventTurn r | run r | policyDecision r | invocation r _ => some r
  | _ => none

/-- The rows of a run. -/
def runItems (r : Uuid) : Set WorkroomItem := {k | k.runId = some r}

/-- The types of the events of runs. -/
def EventType.ofRun (t : EventType) : Bool := !t.ofRoute && !t.approval

/-- The footprint of a transition of a run. -/
abbrev RunFootprint (K : Set WorkroomItem) (r : Uuid) : WorkroomDb → WorkroomDb → Prop :=
  Footprint (runItems r ∪ K) {p | p.1.ofRun = true ∧ p.2 = r} {(.runEvent, some r)}

section Runs

variable {ctx : DispatchEventContext} {token eventId : Uuid} {now timeoutMs clock : ℤ}

lemma maybeEnsureTurn_footprint :
    Triple (fun v => RunFootprint K ctx.runId v₀ v ∧ Fresh v₀ v eventId) (maybeEnsureTurn ctx eventId)
      fun _ => RunFootprint K ctx.runId v₀ := by
  unfold maybeEnsureTurn
  split
  · exact triple_pure fun v h => h.1
  · exact triple_bind (ensureRunEventTurn_footprint (.inl rfl) rfl) fun _ => keeps_pure _

lemma appendRunEvent_footprint {eventType : EventType} {redaction : EventMeta}
    (h : eventType.ofRun = true) :
    Triple (RunFootprint K ctx.runId v₀) (appendRunEvent ctx eventId eventType now redaction)
      fun e v => RunFootprint K ctx.runId v₀ v ∧ Fresh v₀ v e.id :=
  auditAppend_event ⟨h, rfl⟩

lemma appendRunEvent_keeps {eventType : EventType} {redaction : EventMeta}
    (h : eventType.ofRun = true) :
    Keeps (RunFootprint K ctx.runId v₀) (appendRunEvent ctx eventId eventType now redaction) :=
  (appendRunEvent_footprint h).imp (fun _ h => h) fun _ _ h => h.1

lemma lockRun_keeps (P : WorkroomDb → Prop) : Keeps P (lockRun ctx) := by
  unfold lockRun
  exact keeps_bind (keeps_lockItem _) fun _ => keeps_pure _

lemma writeRun_footprint {r : Uuid} (row : RunRow) : Keeps (RunFootprint K r v₀) (writeRun r row) := by
  unfold writeRun
  refine keeps_bind (keeps_failIf _ _) fun _ => keeps_bind (keeps_failIf _ _) fun _ => ?_
  exact keeps_set_footprint (.inl rfl) rfl

lemma claimDispatch_footprint :
    Keeps (RunFootprint K ctx.runId v₀) (claimDispatch ctx token eventId timeoutMs now) := by
  unfold claimDispatch
  refine keeps_bind (lockRun_keeps _) fun row => ?_
  split
  · refine keeps_bind (writeRun_footprint _) fun _ => ?_
    exact keeps_bind (appendRunEvent_keeps rfl) fun _ => keeps_pure _
  · exact keeps_pure _

lemma commitDispatchBoundary_footprint :
    Keeps (RunFootprint K ctx.runId v₀) (Dispatch.commitDispatchBoundary ctx token clock) := by
  unfold Dispatch.commitDispatchBoundary
  refine keeps_bind (lockRun_keeps _) fun row => ?_
  split
  · exact keeps_pure _
  · refine keeps_ite (keeps_bind (writeRun_footprint _) fun _ => keeps_pure _) ?_
    exact keeps_ite (keeps_pure _) (keeps_ite (keeps_pure _) (keeps_ite (keeps_pure _) (keeps_pure _)))

lemma failBoundaryNotEstablished_footprint :
    Keeps (RunFootprint K ctx.runId v₀) (failBoundaryNotEstablished ctx token eventId now) := by
  unfold failBoundaryNotEstablished
  refine keeps_bind (lockRun_keeps _) fun row => ?_
  split
  · refine keeps_bind (writeRun_footprint _) fun _ => ?_
    refine triple_bind (appendRunEvent_footprint rfl) fun event => ?_
    exact triple_bind maybeEnsureTurn_footprint fun _ => keeps_pure _
  · exact keeps_pure _

lemma failPreclaim_footprint (message : JsString) :
    Keeps (RunFootprint K ctx.runId v₀) (failPreclaim ctx eventId message now) := by
  unfold failPreclaim
  refine keeps_bind (lockRun_keeps _) fun row => ?_
  split
  · refine keeps_bind (writeRun_footprint _) fun _ => ?_
    refine triple_bind (appendRunEvent_footprint rfl) fun event => ?_
    exact triple_bind maybeEnsureTurn_footprint fun _ => keeps_pure _
  · exact keeps_pure _

lemma insertOrReuseInvocation_footprint (inv : InvocationInsert) :
    Keeps (RunFootprint K ctx.runId v₀) (insertOrReuseInvocation ctx token inv now) := by
  unfold insertOrReuseInvocation
  refine keeps_bind (keeps_lockItem _) fun existing => ?_
  split
  · exact keeps_bind (keeps_set_footprint (.inl rfl) rfl) fun _ => keeps_pure _
  · exact keeps_bind (keeps_failIf _ _) fun _ => keeps_pure _

lemma ensureInvocation_footprint (observed : Option InvocationRequest) :
    Keeps (RunFootprint K ctx.runId v₀) (ensureInvocation ctx token observed now) := by
  unfold ensureInvocation
  split
  · exact keeps_pure _
  · exact keeps_bind (insertOrReuseInvocation_footprint _) fun _ => keeps_pure _

lemma readRun_keeps (P : WorkroomDb → Prop) : Keeps P (readRun ctx) := keeps_read _

lemma lockRunWhere_keeps (P : WorkroomDb → Prop) (p : RunRow → Bool) :
    Keeps P (lockRunWhere ctx p) := by
  unfold lockRunWhere
  refine keeps_bind (readRun_keeps _) fun seen => keeps_ite ?_ (keeps_pure _)
  exact keeps_bind (lockRun_keeps _) fun _ => keeps_pure _

lemma traceUnknown_footprint (observed : Option InvocationRequest) :
    Keeps (RunFootprint K ctx.runId v₀) (traceUnknown ctx token observed now) := by
  unfold traceUnknown
  refine keeps_bind (readRun_keeps _) fun row => ?_
  exact keeps_ite (keeps_bind (ensureInvocation_footprint _) fun _ => keeps_pure _) (keeps_pure _)

lemma markOutcomeUnknown_footprint (errorClass : UnknownClass)
    (observed : Option InvocationRequest) :
    Keeps (RunFootprint K ctx.runId v₀)
      (markOutcomeUnknown ctx token eventId errorClass observed now) := by
  unfold markOutcomeUnknown
  refine keeps_bind (lockRunWhere_keeps _ _) fun row => ?_
  split
  · refine keeps_bind (writeRun_footprint _) fun _ => ?_
    refine keeps_bind (ensureInvocation_footprint _) fun _ => ?_
    refine triple_bind (appendRunEvent_footprint rfl) fun event => ?_
    exact triple_bind maybeEnsureTurn_footprint fun _ => keeps_pure _
  · exact traceUnknown_footprint _

lemma KnownOutcome.eventType_ofRun (outcome : KnownOutcome) : outcome.eventType.ofRun = true := by
  unfold KnownOutcome.eventType
  split
  · split <;> rfl
  · rfl
  · rfl

lemma checkDuplicate_keeps (P : WorkroomDb → Prop) (outcome : KnownOutcome) :
    Keeps P (checkDuplicate ctx token outcome) := by
  unfold checkDuplicate
  refine keeps_bind (keeps_read _) fun _ => ?_
  split
  · refine keeps_bind (keeps_read _) fun _ => keeps_bind (keeps_orFail _ _) fun _ => ?_
    refine keeps_bind (keeps_failIf _ _) fun _ => keeps_bind (keeps_failIf _ _) fun _ => ?_
    exact keeps_failIf _ _
  · exact keeps_failIf _ _
  · exact keeps_failIf _ _

lemma insertOutcomeInvocation_footprint (outcome : KnownOutcome) :
    Keeps (RunFootprint K ctx.runId v₀) (insertOutcomeInvocation ctx token outcome now) := by
  unfold insertOutcomeInvocation
  split
  · exact keeps_bind (insertOrReuseInvocation_footprint _) fun _ => keeps_pure _
  · exact keeps_pure _

lemma appendCaptured_footprint (capturedV4 : Option Uuid) :
    Keeps (RunFootprint K ctx.runId v₀) (appendCaptured ctx capturedV4 now) := by
  unfold appendCaptured
  split
  · exact keeps_bind (appendRunEvent_keeps rfl) fun _ => keeps_pure _
  · exact keeps_pure _

lemma appendReconciled_footprint (reconciled : Bool) :
    Keeps (RunFootprint K ctx.runId v₀) (appendReconciled ctx reconciled eventId now) :=
  keeps_ite (keeps_bind (appendRunEvent_keeps rfl) fun _ => keeps_pure _) (keeps_pure _)

lemma writeOutcome_footprint (outcome : KnownOutcome) (row : RunRow) (draw : FinalizeDraw) :
    Keeps (RunFootprint K ctx.runId v₀) (writeOutcome ctx token outcome row draw) := by
  unfold writeOutcome
  refine keeps_bind (insertOutcomeInvocation_footprint _) fun _ => ?_
  refine keeps_bind (writeRun_footprint _) fun _ => keeps_bind (appendCaptured_footprint _) fun _ => ?_
  refine keeps_bind (appendReconciled_footprint _) fun _ => ?_
  refine triple_bind (appendRunEvent_footprint outcome.eventType_ofRun) fun event => ?_
  exact triple_bind maybeEnsureTurn_footprint fun _ => keeps_pure _

lemma finalizeKnownOutcome_footprint (outcome : KnownOutcome) (draw : FinalizeDraw) :
    Keeps (RunFootprint K ctx.runId v₀) (finalizeKnownOutcome ctx token outcome draw) := by
  unfold finalizeKnownOutcome
  refine keeps_bind (lockRun_keeps _) fun _ => keeps_bind (keeps_orFail _ _) fun row => ?_
  refine keeps_bind (keeps_failIf _ _) fun _ => keeps_ite ?_ ?_
  · refine keeps_bind (keeps_failIf _ _) fun _ => ?_
    exact keeps_bind (checkDuplicate_keeps _ _) fun _ => keeps_pure _
  · exact keeps_bind (keeps_failIf _ _) fun _ => writeOutcome_footprint _ _ _

lemma lockForRecovery_keeps (P : WorkroomDb → Prop) {orgId runId : Uuid} (stale : RunRow → Bool) :
    Keeps P (lockForRecovery orgId runId stale) := by
  unfold lockForRecovery
  exact keeps_bind (keeps_lockItem _) fun _ => keeps_pure _

/-- A transition of the recovery worker: the row, an event and a turn. -/
lemma recovery_footprint {orgId runId : Uuid} {row r : RunRow} {eventType : EventType}
    {redaction : EventMeta} {α : Type} (a : α) (h : eventType.ofRun = true) :
    Keeps (RunFootprint K runId v₀) (do
      writeRun runId row
      let event ← appendRunEvent (recoveryEventCtx orgId runId r) eventId eventType now redaction
      maybeEnsureTurn (recoveryEventCtx orgId runId r) event.id
      pure a) := by
  refine keeps_bind (writeRun_footprint _) fun _ => ?_
  refine triple_bind (@appendRunEvent_footprint _ _ (recoveryEventCtx orgId runId r) _ _ _ _ h) fun event => ?_
  exact triple_bind maybeEnsureTurn_footprint fun _ => keeps_pure _

lemma recoverQueuedStale_footprint {orgId runId : Uuid} {preparedGraceMs : ℤ} :
    Keeps (RunFootprint K runId v₀) (recoverQueuedStale orgId runId eventId preparedGraceMs now) := by
  unfold recoverQueuedStale
  refine keeps_bind (lockForRecovery_keeps _ _) fun row => ?_
  split
  · exact keeps_pure _
  · exact recovery_footprint _ rfl

lemma recoverRunningStale_footprint {orgId runId : Uuid} {recoveryGraceMs : ℤ} :
    Keeps (RunFootprint K runId v₀) (recoverRunningStale orgId runId eventId recoveryGraceMs now) := by
  unfold recoverRunningStale
  refine keeps_bind (lockForRecovery_keeps _ _) fun row => ?_
  split
  · exact keeps_pure _
  · exact keeps_ite (recovery_footprint _ rfl) (recovery_footprint _ rfl)

end Runs

/-! ## What the preparation of a run changes -/

/-- The idempotency keys. -/
def idempotencyItems : Set WorkroomItem := {k | ∃ orgId key, k = .idempotency orgId key}

section Preparation

variable {sha256 : Bytes → Bytes} {identity : AuthIdentity} {body : RunRequest}
  {ctx : Option WorkroomRunContext} {idem : Option ResolvedIdempotencyContext} {draw : RunDraw}
  {r : Uuid}

lemma assertWorkroomRunContextStillValid_keeps (P : WorkroomDb → Prop) (orgId : Uuid) :
    Keeps P (assertWorkroomRunContextStillValid orgId ctx) := by
  unfold assertWorkroomRunContextStillValid
  split
  · exact keeps_pure _
  · exact keeps_bind (keeps_read _) fun _ => keeps_failIf _ _

lemma failWith_keeps (P : WorkroomDb → Prop) (error : Option String) : Keeps P (failWith error) := by
  unfold failWith
  split
  · exact keeps_fail _
  · exact keeps_pure _

lemma insertRun_footprint (row : RunRow) : Keeps (RunFootprint K r v₀) (insertRun r row) := by
  unfold insertRun
  refine keeps_bind (keeps_lockItem _) fun _ => keeps_bind (keeps_failIf _ _) fun _ => ?_
  exact writeRun_footprint _

lemma reserveKey_footprint (hK : idempotencyItems ⊆ K) (orgId : Uuid) :
    Keeps (RunFootprint K r v₀) (reserveKey orgId idem r) := by
  unfold reserveKey
  split
  · unfold reserveOrSignalLoser reserveRunIdempotency
    refine keeps_bind (keeps_bind (keeps_lockItem _) fun _ => keeps_ite (keeps_pure _) ?_)
      fun _ => keeps_failIf _ _
    exact keeps_bind (keeps_set_footprint (.inr (hK ⟨_, _, rfl⟩)) rfl) fun _ => keeps_pure _
  · exact keeps_pure _

lemma governedTxA_footprint (answer : PolicyAnswer) :
    Keeps (RunFootprint idempotencyItems draw.runId v₀)
      (governedTxA identity body ctx idem answer draw) := by
  unfold governedTxA
  refine keeps_bind (assertWorkroomRunContextStillValid_keeps _ _) fun _ => ?_
  refine keeps_bind (failWith_keeps _ _) fun _ => keeps_bind (insertRun_footprint _) fun _ => ?_
  refine keeps_bind (reserveKey_footprint subset_rfl _) fun _ => ?_
  refine keeps_bind (keeps_set_footprint (.inl rfl) rfl) fun _ => keeps_ite ?_ ?_
  · refine keeps_bind (writeRun_footprint _) fun _ => ?_
    refine triple_bind (@appendRunEvent_footprint _ _ (preparationContext identity ctx draw.runId)
      _ _ _ _ rfl) fun event => ?_
    exact triple_bind maybeEnsureTurn_footprint fun _ => keeps_pure _
  · refine keeps_bind (writeRun_footprint _) fun _ => ?_
    exact keeps_bind (@appendRunEvent_keeps _ _ (preparationContext identity ctx draw.runId) _ _ _ _ rfl)
      fun _ => keeps_pure _

lemma assertApprovalOf_keeps (P : WorkroomDb → Prop) (orgId : Uuid) (approval : Option Uuid)
    (appNow : ℤ) : Keeps P (assertApprovalOf sha256 orgId body ctx approval appNow) := by
  unfold assertApprovalOf
  split
  · unfold assertApprovalConsumable
    exact keeps_bind (keeps_lockItem _) fun _ => keeps_ofExcept _
  · exact keeps_pure _

/-- The rows that a passthrough run may change beside its own. -/
def passthroughItems (approval : Option Uuid) : Set WorkroomItem :=
  idempotencyItems ∪ {k | ∃ a ∈ approval, k = .approval a}

lemma passthroughTxA_footprint (approval : Option Uuid) :
    Keeps (RunFootprint (passthroughItems approval) draw.runId v₀)
      (passthroughTxA sha256 identity body ctx approval idem draw) := by
  unfold passthroughTxA
  refine keeps_bind (assertWorkroomRunContextStillValid_keeps _ _) fun _ => ?_
  refine keeps_bind (assertApprovalOf_keeps _ _ _ _) fun _ => keeps_bind (failWith_keeps _ _) fun _ => ?_
  refine keeps_bind (insertRun_footprint _) fun _ => ?_
  refine keeps_bind (reserveKey_footprint Set.subset_union_left _) fun _ => ?_
  refine keeps_bind (assertApprovalOf_keeps _ _ _ _) fun _ => keeps_bind ?_ fun _ => ?_
  · unfold consumeApprovalOf
    split
    · refine keeps_bind (keeps_lockItem _) fun _ => keeps_bind (keeps_orFail _ _) fun _ => ?_
      exact keeps_set_footprint (.inr (.inr ⟨_, rfl, rfl⟩)) rfl
    · exact keeps_pure _
  · exact keeps_bind (@appendRunEvent_keeps _ _ (preparationContext identity ctx draw.runId) _ _ _ _ rfl)
      fun _ => keeps_pure _

end Preparation

end GovAI
