import GovAI.Workroom.Lifecycle

/-!
# Separation of duties

The route and the trigger compare the participant rows of the requester and of the decider.  A user who
is removed and added again has two rows.  As long as nobody with a pending request has another row with
a deciding role in the workroom, no decision is made by the user who raised the request
(`separation_of_steady`); without this the user can decide (`separation_violated`).
-/

namespace GovAI

variable {H : Set WorkroomDb} {s s' : WorkroomDb}

/-- The roles that may decide. -/
def ParticipantRow.Decides (p : ParticipantRow) : Prop :=
  p.role = .humanOwner ∨ p.role = .humanApprover

/-- **Separation of duties**: the people who raised and who decided a request are different. -/
def SeparatedDuties (s : WorkroomDb) : Prop :=
  ∀ a r d, s (.approval a) = some r → s (.decision a) = some d → ∃ p p' user user',
    s (.participant r.requestedByParticipantId) = some p ∧
      s (.participant d.decidedByParticipantId) = some p' ∧
      p.userId = some user ∧ p'.userId = some user' ∧ user' ≠ user

/-- No user who raised a pending request has another row with a deciding role in the workroom. -/
def SteadyRequesters (s : WorkroomDb) : Prop :=
  ∀ a r p, s (.approval a) = some r → r.status = .pending →
    s (.participant r.requestedByParticipantId) = some p →
    ∀ id p', s (.participant id) = some p' → p'.workroomId = r.workroomId → p'.userId = p.userId →
      p'.Decides → id = r.requestedByParticipantId

/-! ## The parties of requests and decisions -/

/-- A request and a decision refer to rows of people in the workroom. -/
structure Parties (s : WorkroomDb) : Prop where
  requester : ∀ a r, s (.approval a) = some r → ∃ p user,
    s (.participant r.requestedByParticipantId) = some p ∧ p.workroomId = r.workroomId ∧
      p.userId = some user
  decider : ∀ a d, s (.decision a) = some d → ∃ p user,
    s (.participant d.decidedByParticipantId) = some p ∧ p.userId = some user

/-- How a transaction changes the parties: a new request is raised by an active participant that was
read in a state of `H`, and so is a decision made, of a pending request of another row. -/
structure PartyStep (H : Set WorkroomDb) (s s' : WorkroomDb) : Prop where
  request : ∀ a r', s' (.approval a) = some r' →
    (∃ r, s (.approval a) = some r ∧ r'.requestedByParticipantId = r.requestedByParticipantId ∧
      r'.workroomId = r.workroomId) ∨
    (s (.approval a) = none ∧ ∃ db ∈ H, ∃ orgId user p,
      getActiveHumanParticipant orgId r'.workroomId user db = some p ∧
        r'.requestedByParticipantId = p.id)
  decision : ∀ a d', s' (.decision a) = some d' → s (.decision a) = some d' ∨
    ∃ db ∈ H, ∃ orgId user p r, s (.approval a) = some r ∧ r.status = .pending ∧
      getActiveHumanParticipant orgId r.workroomId user db = some p ∧ p.Decides ∧
      d'.decidedByParticipantId = p.id ∧ r.requestedByParticipantId ≠ p.id

/-- A move that leaves the parties of its request. -/
lemma Moves.request {a : Uuid} {r r₀ : ApprovalRow} {e : ChainEvent} {w : Uuid}
    {t : WorkroomTurnRow} (h : Moves s s' a r e w t) (hr₀ : s (.approval a) = some r₀)
    (hrequester : r.requestedByParticipantId = r₀.requestedByParticipantId)
    (hworkroom : r.workroomId = r₀.workroomId) {a' : Uuid} {r' : ApprovalRow}
    (hr' : s' (.approval a') = some r') :
    ∃ r, s (.approval a') = some r ∧ r'.requestedByParticipantId = r.requestedByParticipantId ∧
      r'.workroomId = r.workroomId := by
  rw [h.approval] at hr'
  split at hr'
  · next ha =>
    obtain rfl := Option.some.inj hr'
    exact ⟨r₀, by rw [ha, hr₀], hrequester, hworkroom⟩
  · exact ⟨r', hr', rfl, rfl⟩

/-- Transactions that leave requests and decisions, or consume. -/
lemma partyStep_of_rows (happroval : ∀ a, SameOrConsumed (s (.approval a)) (s' (.approval a)))
    (hdecision : ∀ a, s' (.decision a) = s (.decision a)) : PartyStep H s s' where
  request a r' hr' := by
    left
    rcases happroval a with hsame | ⟨r, runId, now, hr, -, -, hnew⟩
    · exact ⟨r', by rw [← hsame, hr'], rfl, rfl⟩
    · obtain rfl := Option.some.inj (hnew.symm.trans hr')
      exact ⟨r, hr, rfl, rfl⟩
  decision a d' hd' := .inl (by rw [← hdecision, hd'])

/-- The rows of other decisions. -/
lemma ApprovalFootprint.decision {a a' : Uuid} (h : ApprovalFootprint a s s') (ha : a' ≠ a) :
    s' (.decision a') = s (.decision a') :=
  h.rows _ rfl (by simp [approvalItems, ha])

/-- **Every transaction changes the parties in this way.** -/
lemma WorkroomEffect.partyStep (h : WorkroomEffect H s s') : PartyStep H s s' := by
  cases h with
  | route hfoot =>
    exact partyStep_of_rows (fun a => .inl (hfoot.rows _ rfl (by simp [membershipItems])))
      fun a => hfoot.rows _ rfl (by simp [membershipItems])
  | @raised a orgId user w db p r e t hfoot hdb hactive hmove hnone hdecision he hrow hrequester
      hworkroom =>
    refine ⟨fun a' r' hr' => ?_, fun a' d' hd' => .inl ?_⟩
    · rw [hmove.approval] at hr'
      split at hr'
      · next ha =>
        obtain rfl := Option.some.inj hr'
        rw [← hworkroom] at hactive
        exact .inr ⟨by rw [ha, hnone], db, hdb, orgId, user, p, hactive, hrequester⟩
      · exact .inl ⟨r', hr', rfl, rfl⟩
    · by_cases ha : a' = a
      · rw [ha, ← hdecision, ← ha, hd']
      · rw [← hfoot.decision ha, hd']
  | @decided a orgId user w db p r d e t now hfoot hdb hactive hrole hr hworkroom hpending hduty hmove
      he hd hdecider =>
    refine ⟨fun a' r' hr' => .inl (hmove.request hr rfl rfl hr'), fun a' d' hd' => ?_⟩
    by_cases ha : a' = a
    · subst ha
      obtain rfl := Option.some.inj (hd.symm.trans hd')
      rw [← hworkroom] at hactive
      exact .inr ⟨db, hdb, orgId, user, p, r, hr, hpending, hactive, hrole, hdecider, hduty⟩
    · exact .inl (by rw [← hfoot.decision ha, hd'])
  | @revoked a w r e t now hfoot hr hpending hmove he hdecision =>
    refine ⟨fun a' r' hr' => .inl (hmove.request hr rfl rfl hr'), fun a' d' hd' => .inl ?_⟩
    by_cases ha : a' = a
    · rw [ha, ← hdecision, ← ha, hd']
    · rw [← hfoot.decision ha, hd']
  | run hfoot hrows =>
    refine partyStep_of_rows hrows fun a => hfoot.rows _ rfl ?_
    simp [runItems, WorkroomItem.runId, idempotencyItems, approvalRows]

/-- The participants after a transaction. -/
lemma WorkroomEffect.members (h : WorkroomEffect H s s') (hmembers : Members s) :
    MembersSince s s' := by
  have hsame : (∀ id, s' (.participant id) = s (.participant id)) →
      (∀ w user, s' (.activeHuman w user) = s (.activeHuman w user)) → MembersSince s s' :=
    MembersSince.congr ⟨hmembers, .refl s⟩
  have happroval : ∀ {a : Uuid}, ApprovalFootprint a s s' → MembersSince s s' := fun hfoot =>
    hsame (fun _ => hfoot.rows _ rfl (by simp [approvalItems]))
      fun _ _ => hfoot.rows _ rfl (by simp [approvalItems])
  cases h with
  | route _ h => exact h hmembers
  | raised hfoot => exact happroval hfoot
  | decided hfoot => exact happroval hfoot
  | revoked hfoot => exact happroval hfoot
  | run hfoot _ =>
    refine hsame (fun _ => hfoot.rows _ rfl ?_) fun _ _ => hfoot.rows _ rfl ?_ <;>
      simp [runItems, WorkroomItem.runId, idempotencyItems, approvalRows]

/-! ## The invariant -/

/-- Between transactions: the law of the approvals, the rows of the parties, and every earlier state
grew into this one. -/
structure PartyHistory (H : Set WorkroomDb) (s : WorkroomDb) : Prop where
  approvals : ApprovalHistory H s
  parties : Parties s
  members : ∀ db ∈ H, Members db ∧ MemberGrows db s

/-- Who was active in an earlier state has a row now. -/
lemma PartyHistory.active (h : PartyHistory H s) {db : WorkroomDb} (hdb : db ∈ H)
    {orgId w user : Uuid} {p : ParticipantRow}
    (hp : getActiveHumanParticipant orgId w user db = some p) :
    ∃ p', s (.participant p.id) = some p' ∧ p'.workroomId = w ∧ p'.userId = some user ∧
      p'.role = p.role := by
  obtain ⟨hmembers, hgrows⟩ := h.members db hdb
  obtain ⟨hrow, hw, huser⟩ := hmembers.active hp
  obtain ⟨p', hp', hsame⟩ := hgrows _ p hrow
  exact ⟨p', hp', hsame.workroomId.trans hw, hsame.userId.trans huser, hsame.role⟩

/-- A transaction carries it on. -/
lemma PartyHistory.exec {sha256 : Bytes → Bytes} {p : WorkroomTx Unit} {u : Unit}
    {ws : Pending WorkroomItem.Val} (h : PartyHistory H s) (hmem : s ∈ H)
    (hp : WorkroomProgram sha256 p) (hrun : TxProgram.Exec H s p [] u ws) :
    PartyHistory (insert (ws.apply s) H) (ws.apply s) := by
  have heffect := workroomProgram_effect hp h.approvals.1.1 hrun
  obtain ⟨hmembers, hgrows⟩ := heffect.members (h.members s hmem).1
  have hstep := heffect.partyStep
  refine ⟨h.approvals.exec hp hrun, ⟨fun a r' hr' => ?_, fun a d' hd' => ?_⟩, ?_⟩
  · rcases hstep.request a r' hr' with ⟨r, hr, hrequester, hworkroom⟩ |
      ⟨-, db, hdb, orgId, user, p, hactive, hrequester⟩
    · obtain ⟨p, user, hp, hw, huser⟩ := h.parties.requester a r hr
      obtain ⟨p', hp', hsame⟩ := hgrows _ p hp
      rw [hrequester, hworkroom]
      exact ⟨p', user, hp', hsame.workroomId.trans hw, hsame.userId.trans huser⟩
    · obtain ⟨p', hp', hw, huser, -⟩ := h.active hdb hactive
      obtain ⟨p'', hp'', hsame⟩ := hgrows _ p' hp'
      rw [hrequester]
      exact ⟨p'', user, hp'', hsame.workroomId.trans hw, hsame.userId.trans huser⟩
  · rcases hstep.decision a d' hd' with hd | ⟨db, hdb, orgId, user, p, r, -, -, hactive, -, hdecider, -⟩
    · obtain ⟨p, user, hp, huser⟩ := h.parties.decider a d' hd
      obtain ⟨p', hp', hsame⟩ := hgrows _ p hp
      exact ⟨p', user, hp', hsame.userId.trans huser⟩
    · obtain ⟨p', hp', -, huser, -⟩ := h.active hdb hactive
      obtain ⟨p'', hp'', hsame⟩ := hgrows _ p' hp'
      rw [hdecider]
      exact ⟨p'', user, hp'', hsame.userId.trans huser⟩
  · rintro db (rfl | hdb)
    · exact ⟨hmembers, .refl _⟩
    · obtain ⟨hdb, hold⟩ := h.members db hdb
      exact ⟨hdb, hold.trans hgrows⟩

/-- At the start there are no participants, requests and decisions. -/
lemma partyHistory_of_initial (h : InitialWorkroomDb s) : PartyHistory {s} s := by
  have hempty : ∀ k, (∀ id, k ≠ .org id) → (∀ id, k ≠ .agentProfile id) → s k = emptyWorkroomDb k := by
    intro k horg hprofile
    rcases h k with ⟨id, rfl⟩ | ⟨id, rfl⟩ | heq
    · exact absurd rfl (horg id)
    · exact absurd rfl (hprofile id)
    · exact heq
  have hnone : ∀ k o, (∀ id, k ≠ .org id) → (∀ id, k ≠ .agentProfile id) → s k = o →
      emptyWorkroomDb k = o := fun k o h₁ h₂ ho => (hempty k h₁ h₂).symm.trans ho
  refine ⟨approvals_of_initial h, ⟨fun a r hr => ?_, fun a d hd => ?_⟩, ?_⟩
  · cases hnone (.approval a) _ nofun nofun hr
  · cases hnone (.decision a) _ nofun nofun hd
  · rintro _ rfl
    refine ⟨⟨fun id p hp => ?_, fun w user id hid => ?_⟩, .refl _⟩
    · cases hnone (.participant id) _ nofun nofun hp
    · cases hnone (.activeHuman w user) _ nofun nofun hid

/-- A transaction that begins with steady requesters keeps the duties separated. -/
lemma PartyHistory.separated (h : PartyHistory H s) (hgrows : MemberGrows s s')
    (hstep : PartyStep H s s') (hsteady : SteadyRequesters s) (hduties : SeparatedDuties s) :
    SeparatedDuties s' := by
  intro a r' d' hr' hd'
  rcases hstep.decision a d' hd' with hd |
    ⟨db, hdb, orgId, user, p, r, hr, hpending, hactive, hrole, hdecider, hduty⟩
  · -- The decision is old, and so is its request.
    rcases hstep.request a r' hr' with ⟨r, hr, hrequester, -⟩ | ⟨hnone, -⟩
    · obtain ⟨p, p', user, user', hp, hp', huser, huser', hne⟩ := hduties a r d' hr hd
      obtain ⟨q, hq, hsame⟩ := hgrows _ p hp
      obtain ⟨q', hq', hsame'⟩ := hgrows _ p' hp'
      rw [hrequester]
      exact ⟨q, q', user, user', hq, hq', hsame.userId.trans huser, hsame'.userId.trans huser', hne⟩
    · have hfresh := (h.approvals.1.2.fresh a hnone).1
      rw [hfresh] at hd
      cases hd
  · -- The decision is new: its maker has a row now, and only one.
    rcases hstep.request a r' hr' with ⟨r₀, hr₀, hrequester, -⟩ | ⟨hnone, -⟩
    · obtain rfl := Option.some.inj (hr.symm.trans hr₀)
      obtain ⟨q, user₀, hq, hw, huser₀⟩ := h.parties.requester a r hr
      obtain ⟨p', hp', hw', huser', hrole'⟩ := h.active hdb hactive
      obtain ⟨q₁, hq₁, hsame⟩ := hgrows _ q hq
      obtain ⟨p₁, hp₁, hsame'⟩ := hgrows _ p' hp'
      rw [hrequester, hdecider]
      refine ⟨q₁, p₁, user₀, user, hq₁, hp₁, hsame.userId.trans huser₀,
        hsame'.userId.trans huser', ?_⟩
      rintro rfl
      refine hduty (hsteady a r q hr hpending hq p.id p' hp' hw' (huser'.trans huser₀.symm) ?_).symm
      rwa [ParticipantRow.Decides, hrole']
    · rw [hnone] at hr
      cases hr

/-- The runs in which the requesters are steady whenever a step is taken. -/
abbrev steadySystem (sha256 : Bytes → Bytes) :=
  (workroomSystem sha256).restrict fun c _ => SteadyRequesters c.committed

/-- **Separation of duties in steady runs.**  In every run in which, before each step, no user with a
pending request has another row with a deciding role in the workroom, no decision is made by the user
who raised the request. -/
theorem separation_of_steady {sha256 : Bytes → Bytes}
    {c : LockState WorkroomDb WorkroomItem (TxPoint WorkroomItem.Val String Unit) TxId}
    (hc : (steadySystem sha256).Reachable c) : SeparatedDuties c.committed := by
  refine hc.invariant (I := fun c => SeparatedDuties c.committed) (fun c hinit => ?_)
    fun c action c' hreach hduties hstep => ?_
  · intro a r d hr
    rcases hinit.1 (.approval a) with ⟨_, h⟩ | ⟨_, h⟩ | h
    · cases h
    · cases h
    · rw [h] at hr
      cases hr
  · obtain ⟨H, h, hmem, heq | ⟨p, u, ws, hp, hrun, heq⟩⟩ := txSystem_exec (I := PartyHistory)
      (fun s hs => partyHistory_of_initial hs) (fun H s p b ws h hmem hp hrun => h.exec hmem hp hrun)
      hreach.of_restrict hstep.2
    · rwa [heq]
    · have heffect := workroomProgram_effect hp h.approvals.1.1 hrun
      rw [heq]
      exact h.separated (heffect.members (h.members _ hmem).1).2 heffect.partyStep hstep.1 hduties

/-! ## Two runs -/

/-- User 2 requests, user 3 decides. -/
def sampleSeparated : List (WorkroomTx Unit) := sampleWorkroom ++ [sampleApproval 2, sampleDecision 3]

/-- User 3 requests, is removed and added again, and decides. -/
def sampleReadded : List (WorkroomTx Unit) :=
  sampleWorkroom ++ [sampleApproval 3,
    removeParticipant (sampleUser 2) (workroomUuid 10) (workroomUuid 13) (workroomUuid 105) 0 0,
    addParticipant (sampleUser 2) (workroomUuid 10) (.human .humanApprover (workroomUuid 3))
      (workroomUuid 14) (workroomUuid 106) 0,
    sampleDecision 3]

lemma sampleSeparated_programs : ∀ p ∈ sampleSeparated, WorkroomProgram (fun _ => []) p := by
  simp only [sampleSeparated, sampleWorkroom, sampleApproval, sampleDecision, List.cons_append,
    List.nil_append, List.forall_mem_cons, List.not_mem_nil, false_imp_iff, implies_true, and_true]
  exact ⟨.createWorkroom .., .addParticipant .., .requestApproval .., .decideApproval ..⟩

lemma sampleReadded_programs : ∀ p ∈ sampleReadded, WorkroomProgram (fun _ => []) p := by
  simp only [sampleReadded, sampleWorkroom, sampleApproval, sampleDecision, List.cons_append,
    List.nil_append, List.forall_mem_cons, List.not_mem_nil, false_imp_iff, implies_true, and_true]
  exact ⟨.createWorkroom .., .addParticipant .., .requestApproval .., .removeParticipant ..,
    .addParticipant .., .decideApproval ..⟩

/-- A new organisation. -/
lemma reachable_emptyWorkroomDb_steady {sha256 : Bytes → Bytes} :
    (steadySystem sha256).Reachable ⟨emptyWorkroomDb, fun _ => none⟩ :=
  .init ⟨fun _ => .inr (.inr rfl), fun _ => rfl⟩

/-- The rows that a serial run of a new organisation has are those that it wrote. -/
lemma mem_serialKeys {ps : List (WorkroomTx Unit)} {k : WorkroomItem}
    (h : serialRun ps emptyWorkroomDb k ≠ emptyWorkroomDb k) : k ∈ serialKeys ps emptyWorkroomDb := by
  by_contra hk
  exact h (serialRun_of_notMem hk)

/-- The request that an item is. -/
def WorkroomItem.approvalId : WorkroomItem → Option Uuid
  | approval a => some a
  | _ => none

/-- The participant that an item is. -/
def WorkroomItem.participantId : WorkroomItem → Option Uuid
  | participant id => some id
  | _ => none

/-- Where no request was written, the requesters are steady. -/
lemma steady_of_noApproval {ps : List (WorkroomTx Unit)}
    (h : (serialKeys ps emptyWorkroomDb).filterMap WorkroomItem.approvalId = []) :
    SteadyRequesters (serialRun ps emptyWorkroomDb) := by
  intro a r p hr
  have hkey : .approval a ∈ serialKeys ps emptyWorkroomDb :=
    mem_serialKeys fun heq => by rw [heq] at hr; cases hr
  have hmem : a ∈ (serialKeys ps emptyWorkroomDb).filterMap WorkroomItem.approvalId :=
    List.mem_filterMap.mpr ⟨_, hkey, rfl⟩
  rw [h] at hmem
  cases hmem

/-- In the first run the requesters are steady before every transaction. -/
lemma sampleSeparated_steady :
    ∀ n < sampleSeparated.length,
      SteadyRequesters (serialRun (sampleSeparated.take n) emptyWorkroomDb) := by
  intro n hn
  have hlength : sampleSeparated.length = 4 := rfl
  obtain hn | rfl : n < 3 ∨ n = 3 := by omega
  · refine steady_of_noApproval ?_
    interval_cases n <;> decide +kernel
  · have happroval : (serialKeys (sampleSeparated.take 3) emptyWorkroomDb).filterMap
        WorkroomItem.approvalId = [workroomUuid 20] := by decide +kernel
    have hparticipant : (serialKeys (sampleSeparated.take 3) emptyWorkroomDb).filterMap
        WorkroomItem.participantId = [workroomUuid 12, workroomUuid 13] := by decide +kernel
    have hrow : (serialRun (sampleSeparated.take 3) emptyWorkroomDb (.approval (workroomUuid 20))).map
        ApprovalRow.requestedByParticipantId = some (workroomUuid 12) := by decide +kernel
    have hfirst : (serialRun (sampleSeparated.take 3) emptyWorkroomDb
        (.participant (workroomUuid 12))).map ParticipantRow.userId =
          some (some (workroomUuid 2)) := by decide +kernel
    have hsecond : (serialRun (sampleSeparated.take 3) emptyWorkroomDb
        (.participant (workroomUuid 13))).map ParticipantRow.userId =
          some (some (workroomUuid 3)) := by decide +kernel
    have hkeys : ∀ k, serialRun (sampleSeparated.take 3) emptyWorkroomDb k ≠ emptyWorkroomDb k →
        k ∈ serialKeys (sampleSeparated.take 3) emptyWorkroomDb := fun _ => mem_serialKeys
    generalize serialRun (sampleSeparated.take 3) emptyWorkroomDb = s at *
    intro a r p hr _ hp id p' hp' _ huser _
    have ha : a ∈ [workroomUuid 20] := by
      rw [← happroval]
      exact List.mem_filterMap.mpr ⟨_, hkeys (.approval a) (by rw [hr]; nofun), rfl⟩
    have hid : id ∈ [workroomUuid 12, workroomUuid 13] := by
      rw [← hparticipant]
      exact List.mem_filterMap.mpr ⟨_, hkeys (.participant id) (by rw [hp']; nofun), rfl⟩
    obtain rfl := List.mem_singleton.mp ha
    rw [hr, Option.map_some, Option.some.injEq] at hrow
    rw [hrow] at hp ⊢
    rw [hp, Option.map_some, Option.some.injEq] at hfirst
    simp only [List.mem_cons, List.not_mem_nil, or_false] at hid
    rcases hid with rfl | rfl
    · rfl
    · rw [hp', Option.map_some, Option.some.injEq, huser, hfirst] at hsecond
      exact absurd hsecond (by decide)

/-- Such a run grants a request, with separate duties. -/
theorem separation_of_steady_sample :
    ∃ c, (steadySystem fun _ => []).Reachable c ∧
      c.committed (.decision (workroomUuid 20)) ≠ none ∧ SeparatedDuties c.committed := by
  have hc := reachable_serialRun_restrict 0 reachable_emptyWorkroomDb_steady sampleSeparated_programs
    (serialSafe_of_take sampleSeparated_steady)
  have hdecision : (serialRun sampleSeparated emptyWorkroomDb (.decision (workroomUuid 20))).isSome =
      true := by decide +kernel
  exact ⟨_, hc, Option.isSome_iff_ne_none.mp hdecision, separation_of_steady hc⟩

/-- **The duties are not separated in every reachable state**: user 3 decides their own request with
the row of their second membership. -/
theorem separation_violated :
    ¬∀ c, (workroomSystem fun _ => []).Reachable c → SeparatedDuties c.committed := by
  intro hclaim
  have hduties := hclaim _ (reachable_serialRun 0 reachable_emptyWorkroomDb sampleReadded_programs)
  dsimp only at hduties
  have happroval : (serialRun sampleReadded emptyWorkroomDb (.approval (workroomUuid 20))).map
      ApprovalRow.requestedByParticipantId = some (workroomUuid 13) := by decide +kernel
  have hdecision : (serialRun sampleReadded emptyWorkroomDb (.decision (workroomUuid 20))).map
      DecisionRow.decidedByParticipantId = some (workroomUuid 14) := by decide +kernel
  have hfirst : (serialRun sampleReadded emptyWorkroomDb (.participant (workroomUuid 13))).map
      ParticipantRow.userId = some (some (workroomUuid 3)) := by decide +kernel
  have hsecond : (serialRun sampleReadded emptyWorkroomDb (.participant (workroomUuid 14))).map
      ParticipantRow.userId = some (some (workroomUuid 3)) := by decide +kernel
  generalize serialRun sampleReadded emptyWorkroomDb = s at *
  obtain ⟨r, hr, hrequester⟩ := Option.map_eq_some_iff.mp happroval
  obtain ⟨d, hd, hdecider⟩ := Option.map_eq_some_iff.mp hdecision
  obtain ⟨p, p', user, user', hp, hp', hpu, hpu', hne⟩ := hduties _ r d hr hd
  rw [hrequester] at hp
  rw [hdecider] at hp'
  rw [hp, Option.map_some, hpu] at hfirst
  rw [hp', Option.map_some, hpu'] at hsecond
  exact hne (Option.some.inj (Option.some.inj (hsecond.trans hfirst.symm)))


end GovAI
