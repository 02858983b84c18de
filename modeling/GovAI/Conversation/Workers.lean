import GovAI.Conversation.Drives

/-!
# The workers and the rows that they claim

The invariant that ties the row of an attempt to the drive whose token it carries: what the row
records, the drive has sent; and what the drive has had acknowledged past the provenance gate, the
row still records.  With it every operation in flight asks only for a lawful change of its row.
-/

namespace GovAI

variable {env : ConvEnv} {s s' : ConvState} {label : ConvLabel}
variable {drives drives' : Uuid → Option Drive} {db db' : ConvDb}

/-! ## Rows and drives -/

/-- What a row records, the drive has sent. -/
structure AttemptRow.Witnessed (a : AttemptRow) (d : Drive) : Prop where
  dispatching : a.state = .dispatching → d.Reached .boundarySent
  provenance : a.Provenance → d.Reached .gateEntered
  streaming : a.state = .streaming → d.Reached .streamingSent

/-- The row of the attempt of a drive that has passed the gate. -/
def PassedRow (db : ConvDb) (token : Uuid) (d : Drive) : Prop :=
  ∃ a, db.attempts.lookup d.attemptId = some a ∧ a.claimToken = some token ∧ a.Provenance ∧
    (d.Reached .streaming → a.state ≠ .dispatching)

/-- The rows and the drives agree. -/
structure RowsOk (drives : Uuid → Option Drive) (db : ConvDb) : Prop where
  rows : ∀ x a t, db.attempts.lookup x = some a → a.claimToken = some t →
    DriveOf drives t x a.Witnessed
  passed : ∀ t d, drives t = some d → d.Reached .gatePassed → PassedRow db t d

/-- The lookups after the change of an attempt with or without a bump. -/
lemma lookup_of_write {x : Uuid} {a' : AttemptRow} {st : Statement}
    (hdb : db' = db.setAttempt x a' ∨ ∃ conv branchId,
      db' = bumpBranchCausalVersion st conv branchId (db.setAttempt x a')) (y : Uuid) :
    db'.attempts.lookup y = if y = x then some a' else db.attempts.lookup y := by
  rcases hdb with rfl | ⟨conv, branchId, rfl⟩
  · exact ConvDb.setAttempt_attempts ..
  · rw [bumpBranchCausalVersion_attempts]
    exact ConvDb.setAttempt_attempts ..

lemma AttemptRow.Witnessed.of_eq {a a' : AttemptRow} {d : Drive} (h : a.Witnessed d)
    (hstate : a'.state = a.state) (hprov : a'.providerCredentialId = a.providerCredentialId) :
    a'.Witnessed d where
  dispatching hs := h.dispatching (hstate.symm.trans hs)
  provenance hp := h.provenance (by rwa [AttemptRow.Provenance, ← hprov])
  streaming hs := h.streaming (hstate.symm.trans hs)

/-- A terminal transition of a drive leads to a terminal state. -/
lemma Drive.Finalizes.terminal {d : Drive} {state : AttemptState}
    {errorClass : Option AttemptErrorClass} (h : d.Finalizes state errorClass) :
    state.nonTerminal = false := by
  rcases h with ⟨rfl, -⟩ | ⟨rfl, -⟩ | ⟨rfl, -⟩ | ⟨rfl, -⟩ <;> rfl

/-- The row that a legal operation writes is witnessed by the drive of its token. -/
lemma AttemptWrite.witnessed {deps : ExecutorDeps} {st : Statement} {op : Op} {x : Uuid}
    {a a' : AttemptRow} (h : AttemptWrite deps st op x a a') (hlegal : op.Legal drives)
    (ha : a.Checks) (hrows : ∀ t, a.claimToken = some t → DriveOf drives t x a.Witnessed) {t : Uuid}
    (ht : a'.claimToken = some t) : DriveOf drives t x a'.Witnessed := by
  cases h with
  | claim hstate | rotate hstate =>
    cases ht
    obtain ⟨d, hd, hx, -⟩ := hlegal
    exact ⟨d, hd, hx, fun hs => absurd (hstate.symm.trans hs) nofun,
      fun hp => absurd hp (ha.acceptedNoProvenance hstate),
      fun hs => absurd (hstate.symm.trans hs) nofun⟩
  | reclaim _ _ hprov =>
    cases ht
    obtain ⟨d, hd, hx, -⟩ := hlegal
    exact ⟨d, hd, hx, nofun, fun hp => absurd hp hprov, nofun⟩
  | ratchet =>
    obtain ⟨d, hd, hx, hw⟩ := hrows t ht
    exact ⟨d, hd, hx, nofun, hw.provenance, nofun⟩
  | boundary hstate htoken =>
    obtain ⟨d, hd, hx, hreached, -⟩ := hlegal
    cases htoken.symm.trans ht
    exact ⟨d, hd, hx, fun _ => hreached, fun hp => absurd hp (ha.acceptedNoProvenance hstate), nofun⟩
  | provenance hstate htoken =>
    obtain ⟨d, hd, hx, hreached⟩ := hlegal
    cases htoken.symm.trans ht
    exact ⟨d, hd, hx, fun _ => le_trans (by decide) hreached, fun _ => hreached,
      fun hs => absurd (hstate.symm.trans hs) nofun⟩
  | restore _ _ _ hprov =>
    obtain ⟨d, hd, hx, -⟩ := hrows t ht
    exact ⟨d, hd, hx, nofun, fun hp => absurd hp hprov, nofun⟩
  | heartbeat =>
    obtain ⟨d, hd, hx, hw⟩ := hrows t ht
    exact ⟨d, hd, hx, hw.dispatching, hw.provenance, hw.streaming⟩
  | markStreaming hstate htoken =>
    obtain ⟨d, hd, hx, hreached⟩ := hlegal
    cases htoken.symm.trans ht
    exact ⟨d, hd, hx, nofun, fun _ => le_trans (by decide) hreached, fun _ => hreached⟩
  | finalize hstate htoken =>
    obtain ⟨d, hd, hx, hfinalizes⟩ := hlegal
    obtain ⟨d', hd', -, hw⟩ := hrows t ht
    cases htoken.symm.trans ht
    obtain rfl : d = d' := Option.some.inj (hd.symm.trans hd')
    refine ⟨d, hd, hx, fun hs => ?_, hw.provenance, fun hs => ?_⟩
    · exact absurd (congrArg AttemptState.nonTerminal hs) (by rw [hfinalizes.terminal]; decide)
    · exact absurd (congrArg AttemptState.nonTerminal hs) (by rw [hfinalizes.terminal]; decide)

/-- No legal operation takes a row with provenance back to `dispatching`. -/
lemma AttemptWrite.not_dispatching {deps : ExecutorDeps} {st : Statement} {op : Op} {x : Uuid}
    {a a' : AttemptRow} (h : AttemptWrite deps st op x a a') (hlegal : op.Legal drives)
    (ha : a.Checks) (hprov : a.Provenance) (hstate : a.state ≠ .dispatching) :
    a'.state ≠ .dispatching := by
  cases h with
  | claim hs | rotate hs | boundary hs => exact absurd hprov (ha.acceptedNoProvenance hs)
  | reclaim _ _ hp | provenance _ _ _ hp | restore _ _ _ hp => exact absurd hprov hp
  | ratchet | markStreaming => exact nofun
  | heartbeat => exact hstate
  | finalize =>
    obtain ⟨d, -, -, hfinalizes⟩ := hlegal
    intro hs
    exact absurd (congrArg AttemptState.nonTerminal hs) (by rw [hfinalizes.terminal]; decide)

/-- A legal operation keeps the rows and the drives in agreement. -/
lemma RowsOk.exec {deps : ExecutorDeps} {st : Statement} {op : Op} {reply : Bool}
    (h : RowsOk drives db) (hshape : db.Shape) (hlegal : op.Legal drives)
    (hout : ExecOutcome deps st db op reply db') : RowsOk drives db' := by
  cases hout with
  | idle => exact h
  | item _ _ hdb =>
    subst hdb
    exact ⟨h.rows, h.passed⟩
  | @write _ _ x _ a a' _ hwrite _ hrow _ hdb =>
    have hlookup := lookup_of_write hdb
    have ha := hshape.checks x a hrow
    constructor
    · intro y b t hb ht
      rw [hlookup] at hb
      split at hb
      · next hy =>
        subst hy
        cases hb
        exact hwrite.witnessed hlegal ha (fun t ht => h.rows y a t hrow ht) ht
      · exact h.rows y b t hb ht
    · intro t d hd hreached
      obtain ⟨b, hb, htoken, hprov, hstate⟩ := h.passed t d hd hreached
      rw [PassedRow, hlookup]
      split
      · next hx =>
        obtain rfl : a = b := Option.some.inj (hrow.symm.trans (hx ▸ hb))
        obtain ⟨hprov', htoken'⟩ := (hwrite.grows ha).provenance hprov
        refine ⟨a', rfl, htoken'.trans htoken, ?_, fun hstreaming => ?_⟩
        · rw [AttemptRow.Provenance, hprov']
          exact hprov
        · exact hwrite.not_dispatching hlegal ha hprov (hstate hstreaming)
      · exact ⟨b, hb, htoken, hprov, hstate⟩

/-- Rows that nobody claims are new, and claimed rows keep their token, state and provenance. -/
def QuietRows (db db' : ConvDb) : Prop :=
  ∀ x a', db'.attempts.lookup x = some a' → a'.claimToken = none ∨
    ∃ a, db.attempts.lookup x = some a ∧ a'.claimToken = a.claimToken ∧ a'.state = a.state ∧
      a'.providerCredentialId = a.providerCredentialId

lemma QuietRows.of_attempts (h : db'.attempts = db.attempts) : QuietRows db db' :=
  fun _ a ha => .inr ⟨a, h ▸ ha, rfl, rfl, rfl⟩

lemma Minted.quiet {turnId attemptId : Uuid} {t : TurnRow} {now : ℤ}
    (m : Minted db db' turnId attemptId t now) : QuietRows db db' := by
  intro x a ha
  rw [m.attempts] at ha
  rcases lookup_insert_cases ha with ⟨-, rfl⟩ | ⟨-, ha⟩
  · exact .inl rfl
  · exact .inr ⟨a, ha, rfl, rfl, rfl⟩

/-- A quiet commit keeps the rows and the drives in agreement. -/
lemma RowsOk.quiet (h : RowsOk drives db) (hg : db.Grows db') (hq : QuietRows db db') :
    RowsOk drives db' := by
  constructor
  · intro x a' t ha' ht
    rcases hq x a' ha' with hnone | ⟨a, ha, htoken, hstate, hprov⟩
    · exact absurd (ht.symm.trans hnone) nofun
    · obtain ⟨d, hd, hx, hw⟩ := h.rows x a t ha (htoken.symm.trans ht)
      exact ⟨d, hd, hx, hw.of_eq hstate hprov⟩
  · intro t d hd hreached
    obtain ⟨a, ha, htoken, hprov, hstate⟩ := h.passed t d hd hreached
    obtain ⟨a', ha', hag⟩ := hg.attempts _ a ha
    obtain ⟨hprov', htoken'⟩ := hag.provenance hprov
    refine ⟨a', ha', htoken'.trans htoken, by rwa [AttemptRow.Provenance, hprov'], fun hs => ?_⟩
    rcases hq _ a' ha' with hnone | ⟨b, hb, -, hstate', -⟩
    · exact absurd ((htoken'.trans htoken).symm.trans hnone) nofun
    · obtain rfl : a = b := Option.some.inj (ha.symm.trans hb)
      exact hstate'.symm ▸ hstate hs

/-- What the other components write is quiet. -/
lemma ExternalWrite.quiet (h : ExternalWrite db db') : QuietRows db db' := by
  cases h with
  | tables => exact .of_attempts rfl
  | create h =>
    simp only [createConversation, except_bind_eq_ok_iff, rejectIf_eq_ok_iff, exists_and_left,
      exists_const] at h
    obtain ⟨-, -, rfl⟩ := insertBranch_eq_ok h.2.2.2
    exact .of_attempts rfl
  | patch => exact .of_attempts rfl
  | requestStop ha =>
    intro x a' ha'
    rcases lookup_insert_cases ha' with ⟨rfl, rfl⟩ | ⟨-, ha'⟩
    · exact .inr ⟨_, ha, rfl, rfl, rfl⟩
    · exact .inr ⟨a', ha', rfl, rfl, rfl⟩

/-- A commit is the end of an operation in flight, or it is quiet. -/
lemma Committed.exec_or_quiet (h : Committed env s db') (hist : s.History env) :
    (∃ owner op st reply, s.InFlight owner op ∧ s.Runs owner st ∧
      ExecOutcome env.deps st s.db op reply db') ∨ QuietRows s.db db' := by
  cases h with
  | exec hflight hst hexec => exact .inl ⟨_, _, _, _, hflight, hst, Op.exec_done hexec⟩
  | send hc hp hr => exact .inr (hist.send_minted hc hp hr).quiet
  | fork hc hp hr =>
    rcases (hist.fork_committed hc hp hr).child with ⟨-, rfl⟩ | ⟨child, -, hminted⟩
    · exact .inr (.of_attempts rfl)
    · exact .inr hminted.quiet
  | external h => exact .inr h.quiet

/-! ## Drives that move -/

lemma PassedRow.of_reached {token : Uuid} {d d' : Drive} (h : PassedRow db token d)
    (hx : d'.attemptId = d.attemptId) (hs : d'.Reached .streaming → d.Reached .streaming) :
    PassedRow db token d' := by
  obtain ⟨a, ha, htoken, hprov, hstate⟩ := h
  exact ⟨a, hx ▸ ha, htoken, hprov, fun hreached => hstate (hs hreached)⟩

/-- A drive that moves forward keeps the rows and the drives in agreement. -/
lemma RowsOk.update {token : Uuid} {d d' : Drive} (h : RowsOk drives db)
    (hd : drives token = some d) (hle : d.Le d')
    (hpassed : d'.Reached .gatePassed → PassedRow db token d') :
    RowsOk (Function.update drives token (some d')) db := by
  constructor
  · intro x a t ha ht
    exact (h.rows x a t ha ht).mono (.update hd hle) fun e e' hee' hw =>
      ⟨fun hs => hee'.reached (hw.dispatching hs), fun hp => hee'.reached (hw.provenance hp),
        fun hs => hee'.reached (hw.streaming hs)⟩
  · intro t e he hreached
    by_cases ht : t = token
    · subst ht
      rw [Function.update_self, Option.some.injEq] at he
      subst he
      exact hpassed hreached
    · rw [Function.update_of_ne ht] at he
      exact h.passed t e he hreached

/-- A new drive keeps the rows and the drives in agreement. -/
lemma RowsOk.start {token : Uuid} (h : RowsOk drives db) (hnew : drives token = none)
    (owner : OwnerScope) (x : Uuid) (op : Op) :
    RowsOk (Function.update drives token (some (.start owner x op))) db := by
  constructor
  · intro y a t ha ht
    exact (h.rows y a t ha ht).mono (.new hnew _) fun e e' hee' hw =>
      ⟨fun hs => hee'.reached (hw.dispatching hs), fun hp => hee'.reached (hw.provenance hp),
        fun hs => hee'.reached (hw.streaming hs)⟩
  · intro t e he hreached
    by_cases ht : t = token
    · subst ht
      rw [Function.update_self, Option.some.injEq] at he
      subst he
      exact absurd hreached (by simp [Drive.Reached, Drive.start, Stage.rank])
    · rw [Function.update_of_ne ht] at he
      exact h.passed t e he hreached

lemma Drive.finalize_stage (d : Drive) (token : Uuid) (kind : TerminalCall) (state : AttemptState)
    (errorClass : Option AttemptErrorClass) :
    (d.finalize token kind state errorClass).stage = d.stage := by
  rcases d.finalize_cases token kind state errorClass with ⟨_, -, h⟩ | h <;> rw [h] <;> rfl

/-- A drive does not pass the gate or begin to stream on its own. -/
lemma DriveMove.reached {deps : ExecutorDeps} {token : Uuid} {d d' : Drive}
    (h : DriveMove deps token db d d') (hc : d.Coherent token) :
    (d'.Reached .gatePassed → d.Reached .gatePassed) ∧
      (d'.Reached .streaming → d.Reached .streaming) := by
  have hawaits := hc.awaits
  cases h with
  | build | enterGate => simp [Drive.Reached, Stage.rank]
  | response _ hp =>
    simp only [Drive.Awaits, hp] at hawaits
    simp [Drive.Reached, hawaits.1, Stage.rank]
  | reject | noCredential | blocked | localError | noResponse | evidenceLost | upstreamErrorLost
  | encryptFails | evidenceEmitted | evidenceFails =>
    simp only [Drive.Reached, Drive.finalizeKnown, Drive.persistenceFailed, Drive.localFailed,
      Drive.unprovable, Drive.finalize_stage]
    exact ⟨id, id⟩
  | _ => exact ⟨id, id⟩

/-- An exception does not change the stage of a drive. -/
lemma Drive.raise_stage (token : Uuid) (d : Drive) : (d.raise token).stage = d.stage := by
  unfold Drive.raise
  split <;> first | exact d.finalize_stage .. | rfl

/-- The stage of a drive after an answer. -/
lemma Drive.resume_stage (token : Uuid) (d : Drive) (reply : Bool) :
    (d.resume token reply).stage = d.stage ∨
    (d.point = .boundary ∧ (d.resume token reply).stage = .dispatching) ∨
    (d.point = .gate ∧ reply = true ∧ (d.resume token reply).stage = .gatePassed) ∨
    (∃ response, d.point = .marking response ∧ reply = true ∧
      (d.resume token reply).stage = .streaming) := by
  unfold Drive.resume
  split
  case h_2 hp => exact .inr (.inl ⟨hp, rfl⟩)
  case h_3 hp => exact .inr (.inr (.inl ⟨hp, rfl, rfl⟩))
  case h_5 hp => exact .inr (.inr (.inr ⟨_, hp, rfl, rfl⟩))
  case h_6 | h_9 => exact .inl (d.finalize_stage ..)
  all_goals exact .inl rfl

/-- **The gate.** When the transaction of the gate answers positively, the row carries the token and
the credential, and is `dispatching`. -/
lemma ExecOutcome.gate {deps : ExecutorDeps} {st : Statement} {op : Op} {token : Uuid} {d : Drive}
    (hout : ExecOutcome deps st db op true db') (hc : d.Coherent token) (hp : d.point = .gate)
    (hcall : d.call = some op) : ∃ a, db'.attempts.lookup d.attemptId = some a ∧
      a.claimToken = some token ∧ a.Provenance ∧ a.state = .dispatching := by
  have hawaits := hc.awaits
  simp only [Drive.Awaits, hp, hcall, Option.some.injEq] at hawaits
  obtain ⟨-, c, p, rfl | rfl⟩ := hawaits
  · cases hout with
    | write hwrite => cases hwrite
  · cases hout with
    | write hwrite _ hrow _ hdb =>
      cases hwrite with
      | provenance hstate htoken =>
        have hrow' := lookup_of_write hdb d.attemptId
        rw [if_pos rfl] at hrow'
        exact ⟨_, hrow', htoken, (by rintro ⟨⟩), hstate⟩

/-- When `markStreaming` answers positively, the row is `streaming`. -/
lemma ExecOutcome.marking {deps : ExecutorDeps} {st : Statement} {op : Op} {token : Uuid} {d : Drive}
    (hout : ExecOutcome deps st db op true db') (hc : d.Coherent token) {response}
    (hp : d.point = .marking response) (hcall : d.call = some op) :
    ∃ a, db'.attempts.lookup d.attemptId = some a ∧ a.state = .streaming := by
  have hawaits := hc.awaits
  simp only [Drive.Awaits, hp, hcall, Option.some.injEq] at hawaits
  obtain ⟨-, rfl⟩ := hawaits
  cases hout with
  | write hwrite _ hrow _ hdb =>
    cases hwrite with
    | markStreaming =>
      have hrow' := lookup_of_write hdb d.attemptId
      rw [if_pos rfl] at hrow'
      exact ⟨_, hrow', rfl⟩

/-! ## The invariant -/

/-- The invariant of the workers. -/
structure ConvState.Workers (s : ConvState) : Prop where
  coherent : ∀ t d, s.drives t = some d → d.Coherent t
  legal : ∀ owner op, s.InFlight owner op → op.Legal s.drives
  rowsOk : RowsOk s.drives s.db

/-- A step that moves one drive forward. -/
lemma ConvState.Workers.update (h : s.Workers) {token : Uuid} {d d' : Drive}
    (hd : s.drives token = some d) (hdrives : s'.drives = Function.update s.drives token (some d'))
    (hprogress : d.Le d' ∧ d'.Coherent token)
    (horphans : ∀ owner op, (owner, op) ∈ s'.orphans → s.InFlight owner op)
    (hlegal : ∀ op, d'.call = some op → op.Legal s'.drives) (hrows : RowsOk s.drives s'.db)
    (hpassed : d'.Reached .gatePassed → PassedRow s'.db token d') : s'.Workers where
  coherent t e he := by
    rw [hdrives] at he
    by_cases ht : t = token
    · subst ht
      rw [Function.update_self, Option.some.injEq] at he
      exact he ▸ hprogress.2
    · rw [Function.update_of_ne ht] at he
      exact h.coherent t e he
  legal owner op hf := by
    rcases hf.of_update hdrives (horphans owner op) with hold | ⟨-, hcall⟩
    · exact (h.legal owner op hold).mono (hdrives ▸ .update hd hprogress.1)
    · exact hlegal op hcall
  rowsOk := hdrives ▸ hrows.update hd hprogress.1 hpassed

/-- A step that leaves the drives. -/
lemma ConvState.Workers.frame (h : s.Workers) (hdrives : s'.drives = s.drives)
    (hlegal : ∀ owner op, (owner, op) ∈ s'.orphans → op.Legal s.drives)
    (hrows : RowsOk s.drives s'.db) : s'.Workers where
  coherent := hdrives ▸ h.coherent
  legal owner op hf := by
    rw [hdrives]
    rcases hf with ho | ⟨t, d, hd, howner, hcall⟩
    · exact hlegal owner op ho
    · exact h.legal owner op (.inr ⟨t, d, hdrives ▸ hd, howner, hcall⟩)
  rowsOk := hdrives ▸ hrows

/-- The invariant of the workers is preserved by every step. -/
theorem ConvStep.workers (step : ConvStep env s label s') (hist : s.History env) (h : s.Workers) :
    s'.Workers := by
  have hshape := hist.shape s.db hist.current
  -- What a drive has passed before the step, it has passed after it.
  have hstill : ∀ {token : Uuid} {d d' : Drive}, s.drives token = some d →
      d'.attemptId = d.attemptId → ((d'.Reached .gatePassed → d.Reached .gatePassed) ∧
        (d'.Reached .streaming → d.Reached .streaming)) →
      d'.Reached .gatePassed → PassedRow s.db token d' := fun hd hx hs hreached =>
    (h.rowsOk.passed _ _ hd (hs.1 hreached)).of_reached hx hs.2
  have hquiet : ∀ {db' : ConvDb}, Committed env s db' → QuietRows s.db db' →
      RowsOk s.drives db' := fun hcommit hq => h.rowsOk.quiet (hcommit.steps hist).grows hq
  cases step with
  | @arm token x owner op hfresh hop =>
    have hle : DrivesLe s.drives _ := .new hfresh (.start owner x op)
    refine ⟨fun t e he => ?_, fun owner' op' hf => ?_, h.rowsOk.start hfresh owner x op⟩
    · change Function.update s.drives token (some (.start owner x op)) t = some e at he
      by_cases ht : t = token
      · subst ht
        rw [Function.update_self, Option.some.injEq] at he
        exact he ▸ ⟨⟨rfl, op, rfl, .inl hop⟩, fun _ => rfl, fun _ => rfl⟩
      · rw [Function.update_of_ne ht] at he
        exact h.coherent t e he
    · rcases hf.of_update (s := s) rfl .inl with hold | ⟨-, hcall⟩
      · exact (h.legal owner' op' hold).mono hle
      · cases hcall
        have hself : DriveOf (s.setDrive token (.start owner x op)).drives token x fun _ => True :=
          ⟨_, Function.update_self .., rfl, trivial⟩
        cases op with
        | claim | rotate | reclaim =>
          obtain ⟨rfl, rfl⟩ := hop
          exact hself
        | _ => exact hop.elim
  | @move token d d' hd hmove =>
    have hc := h.coherent token d hd
    exact h.update hd rfl (hmove.progress hc) (fun _ _ => .inl)
      (fun op hop => hmove.legal hc (Function.update_self ..) hop) h.rowsOk
      (hstill hd (hmove.progress hc).1.attemptId (hmove.reached hc))
  | @fetch token d hd hp =>
    have hc := h.coherent token d hd
    have hawaits := hc.awaits
    simp only [Drive.Awaits, hp] at hawaits
    have hle : d.Le (d.goto .fetched) :=
      .of_not_ended rfl rfl le_rfl (fun _ => id) (by simp [Drive.Ended, hp])
    exact h.update hd rfl ⟨hle, ⟨hawaits.1, rfl⟩, hc.request⟩ (fun _ _ => .inl)
      (fun _ hop => by cases hop) h.rowsOk (hstill hd rfl ⟨id, id⟩)
  | @serveNext token d op op' st hd hcall hst hexec =>
    have hc := h.coherent token d hd
    have hnext := Op.exec_next hexec
    have hle : d.Le { d with call := some op' } := ⟨rfl, rfl, le_rfl, fun _ => id, fun h => ⟨h, rfl⟩⟩
    refine h.update hd rfl ⟨hle, hnext.coherent hcall hc⟩ (fun _ _ => .inl) (fun op'' hop => ?_)
      h.rowsOk (hstill hd rfl ⟨id, id⟩)
    cases hop
    exact (hnext.legal (h.legal _ _ (.inr ⟨token, d, hd, rfl, hcall⟩))).mono (.update hd hle)
  | @serveDone token d op st reply db' hd hcall hst hexec =>
    have hc := h.coherent token d hd
    have hprogress := Drive.resume_progress hc reply
    have hout := Op.exec_done hexec
    have hlegal := h.legal _ _ (.inr ⟨token, d, hd, rfl, hcall⟩)
    have hrows := h.rowsOk.exec hshape hlegal hout
    refine h.update hd rfl hprogress (fun _ _ => .inl)
      (fun op' hop => Drive.resume_legal hc (Function.update_self ..) hop) hrows fun hreached => ?_
    rcases d.resume_stage token reply with hstage | ⟨-, hstage⟩ | ⟨hp, rfl, hstage⟩ |
      ⟨response, hp, rfl, hstage⟩
    · rw [Drive.Reached, hstage] at hreached
      exact (hrows.passed token d hd hreached).of_reached hprogress.1.attemptId
        (by rw [Drive.Reached, hstage]; exact id)
    · rw [Drive.Reached, hstage] at hreached
      exact absurd hreached (by decide)
    · obtain ⟨a, ha, htoken, hprov, -⟩ := hout.gate hc hp hcall
      refine ⟨a, hprogress.1.attemptId ▸ ha, htoken, hprov, fun hs => ?_⟩
      rw [Drive.Reached, hstage] at hs
      exact absurd hs (by decide)
    · have hawaits := hc.awaits
      simp only [Drive.Awaits, hp] at hawaits
      obtain ⟨a, ha, htoken, hprov, -⟩ :=
        hrows.passed token d hd (by rw [Drive.Reached, hawaits.1]; decide)
      obtain ⟨a', ha', hstate⟩ := hout.marking hc hp hcall
      obtain rfl : a = a' := Option.some.inj (ha.symm.trans ha')
      exact ⟨a, hprogress.1.attemptId ▸ ha, htoken, hprov, fun _ => by rw [hstate]; rintro ⟨⟩⟩
  | @raise token d op hd hcall =>
    have hc := h.coherent token d hd
    have hstage : ∀ stage, (d.raise token).Reached stage → d.Reached stage := fun stage => by
      rw [Drive.Reached, Drive.raise_stage]
      exact id
    exact h.update hd rfl (Drive.raise_progress hc) (fun _ _ => .of_raise hd hcall)
      (fun op' hop => Drive.raise_legal hc (Function.update_self ..) hop) h.rowsOk
      (hstill hd (Drive.raise_progress hc).1.attemptId ⟨hstage _, hstage _⟩)
  | @crash token d hd =>
    have hc := h.coherent token d hd
    exact h.update hd rfl ⟨d.le_finish, hc.finish⟩ (fun _ _ => .of_crash hd)
      (fun _ hop => by cases hop) h.rowsOk (hstill hd rfl ⟨id, id⟩)
  | @spawn owner op hop =>
    refine h.frame rfl (fun owner' op' ho => ?_) h.rowsOk
    rcases List.mem_cons.mp ho with heq | ho
    · cases heq
      cases op with
      | ratchet => trivial
      | heartbeat =>
        obtain ⟨d, hd, hx, -⟩ := hop
        exact ⟨d, hd, hx, trivial⟩
      | _ => exact hop.elim
    · exact h.legal owner' op' (.inl ho)
  | @orphanNext owner op op' st before after ho hst hexec =>
    refine h.frame rfl (fun owner' op'' ho' => ?_) h.rowsOk
    rcases mem_orphans_of_replaced ho ho' with heq | hmem
    · cases heq
      refine (Op.exec_next hexec).legal (h.legal owner op (.inl ?_))
      rw [ho]
      exact List.mem_append_right _ (List.mem_cons_self ..)
    · exact h.legal owner' op'' (.inl hmem)
  | @orphanDone owner op st reply db' before after ho hst hexec =>
    have hflight : s.InFlight owner op := .inl (by
      rw [ho]
      exact List.mem_append_right _ (List.mem_cons_self ..))
    exact h.frame rfl (fun owner' op' ho' => h.legal owner' op' (.inl (mem_orphans_of_removed ho ho')))
      (h.rowsOk.exec hshape (h.legal owner op hflight) (Op.exec_done hexec))
  | orphanLost ho =>
    exact h.frame rfl (fun _ _ ho' => h.legal _ _ (.inl (mem_orphans_of_removed ho ho'))) h.rowsOk
  | sendCommit _ hc hp hr =>
    exact h.frame rfl (fun _ _ ho => h.legal _ _ (.inl ho))
      (hquiet (.send hc hp hr) (hist.send_minted hc hp hr).quiet)
  | @forkCommit n c r db' _ hc hp hr =>
    refine h.frame rfl (fun _ _ ho => h.legal _ _ (.inl ho)) (hquiet (.fork hc hp hr) ?_)
    rcases (hist.fork_committed hc hp hr).child with ⟨-, rfl⟩ | ⟨child, -, hminted⟩
    · exact .of_attempts rfl
    · exact hminted.quiet
  | external hext =>
    exact h.frame rfl (fun _ _ ho => h.legal _ _ (.inl ho))
      (hquiet (.external hext) hext.quiet)
  | _ => exact h.frame rfl (fun _ _ ho => h.legal _ _ (.inl ho)) h.rowsOk

/-- The invariant of the workers holds in every reachable state. -/
theorem reachable_workers (hs : (conversationSystem env).Reachable s) : s.Workers := by
  refine hs.invariant ?_ ?_
  · rintro _ ⟨orgs, credentials, rfl⟩
    refine ⟨fun t d hd => ?_, ?_, fun x a t ha => ?_, fun t d hd => ?_⟩
    · cases hd
    · rintro owner op (ho | ⟨t, d, hd, -⟩)
      · cases ho
      · cases hd
    · cases ha
    · cases hd
  · intro s label s' hs h step
    exact step.workers (reachable_history hs) h

/-- Every step lets the drives move forward. -/
lemma ConvStep.drivesLe (step : ConvStep env s label s') (h : s.Workers) :
    DrivesLe s.drives s'.drives := by
  cases step with
  | arm hfresh => exact .new hfresh _
  | move hd hmove => exact .update hd (hmove.progress (h.coherent _ _ hd)).1
  | @fetch _ d hd hp =>
    exact .update hd (.of_not_ended rfl rfl le_rfl (fun _ => id) (by simp [Drive.Ended, hp]))
  | serveNext hd => exact .update hd ⟨rfl, rfl, le_rfl, fun _ => id, fun h => ⟨h, rfl⟩⟩
  | serveDone hd => exact .update hd (Drive.resume_progress (h.coherent _ _ hd) _).1
  | raise hd => exact .update hd (Drive.raise_progress (h.coherent _ _ hd)).1
  | crash hd => exact .update hd (Drive.le_finish _)
  | _ => exact .refl _

end GovAI
