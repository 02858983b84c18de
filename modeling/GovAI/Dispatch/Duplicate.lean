import GovAI.Dispatch.RunLaw

/-!
# A second finalization

`finalizeKnownOutcome` under the token of a run that has ended compares the offered result with the one
that is recorded.  The record is spread over the run row, the invocation, which may be the trace of an
unknown outcome without an answer, and the metadata of the terminal event.  `RecordedOutcome` says what
it consists of; the first finalization writes it, and no transaction changes it.
-/

namespace GovAI

open TxProgram Function

variable {s s' v₀ v : WorkroomDb} {r org token : Uuid} {outcome : KnownOutcome}

/-! ## The record of an outcome -/

/-- The two outcomes have the same result, as far as it is recorded. -/
def KnownOutcome.SameResult : KnownOutcome → KnownOutcome → Prop
  | .http statusCode request responseHash _, .http statusCode' request' responseHash' _ =>
    request.nativeEndpoint = request'.nativeEndpoint ∧
      request.nativeRequestHash = request'.nativeRequestHash ∧
      statusCode = statusCode' ∧ responseHash = responseHash'
  | .blocked reason _, .blocked reason' _ => reason = reason'
  | .localError message, .localError message' => message.take 200 = message'.take 200
  | _, _ => False

instance (o₁ o₂ : KnownOutcome) : Decidable (o₁.SameResult o₂) := by
  unfold KnownOutcome.SameResult; split <;> infer_instance

/-- What an outcome leaves at the invocation of its token: an answer has a row for its request, with the
answer or as the trace of an earlier unknown outcome; another outcome has at most such a trace. -/
def KnownOutcome.RecordedAt (outcome : KnownOutcome) (x : Option InvocationRow) : Prop :=
  match outcome with
  | .http statusCode request responseHash _ =>
    ∃ y ∈ x, y.nativeEndpoint = request.nativeEndpoint ∧
      y.nativeRequestHash = request.nativeRequestHash ∧
      (y.IsTrace ∨ y.nativeResponseHash = some responseHash ∧ y.statusCode = some statusCode)
  | _ => ∀ y ∈ x, y.IsTrace

/-- The terminal events of a run. -/
def terminalEvents (db : WorkroomDb) (org r : Uuid) : List ChainEvent :=
  (db (.chain (chainIdFor org .run))).filter fun e =>
    e.subjectId = r ∧ e.eventType.terminalRun = true

/-- The run ended with this outcome under this token. -/
structure RecordedOutcome (org r token : Uuid) (outcome : KnownOutcome) (db : WorkroomDb) :
    Prop where
  row : ∃ row ∈ db (.run r), row.orgId = org ∧ row.dispatchToken = some token ∧
    row.status = outcome.terminal
  event : ∃ e, (terminalEvents db org r).getLast? = some e ∧ e.redaction = outcome.redaction
  invocation : outcome.RecordedAt (db (.invocation r token))

/-! ## The record is kept -/

/-- A run that has ended gets no further terminal event. -/
lemma RunsEffect.terminalEvents (h : RunsEffect s s') (hlaw : RunLaws s) {row : RunRow}
    (hrow : s (.run r) = some row) (hended : row.status.terminal = true) :
    terminalEvents s' org r = terminalEvents s org r := by
  have happend : ∀ es : List ChainEvent, (∀ e ∈ es, e.subjectId = r → e.eventType.ofRun = false) →
      s' (.chain (chainIdFor org .run)) = s (.chain (chainIdFor org .run)) ++ es →
      GovAI.terminalEvents s' org r = GovAI.terminalEvents s org r := by
    intro es hes heq
    rw [GovAI.terminalEvents, heq, List.filter_append, GovAI.terminalEvents]
    refine List.append_right_eq_self.mpr (List.filter_eq_nil_iff.mpr fun e he hterminal => ?_)
    obtain ⟨hsubject, hterminal⟩ := of_decide_eq_true hterminal
    have hrun := hes e he hsubject
    revert hterminal hrun
    cases e.eventType <;> decide
  cases h with
  | elsewhere hfoot =>
    obtain ⟨es, heq, hes⟩ := hfoot.chain (chainIdFor org .run)
    exact happend es (fun e he _ => (hes e he).1) heq
  | @moved org' r' hfoot hmoved =>
    by_cases hr : r = r'
    · subst hr
      obtain ⟨n, types, traced, htransition, hprogress⟩ := hmoved
      have hcheck := hprogress.checked (hlaw r).row.checked
      rw [hprogress.row] at hcheck
      obtain ⟨es, htypes, -, hchain⟩ := hprogress.events
      rcases htransition.rowStep (hlaw r).row hcheck with ⟨-, rfl, -⟩ | ⟨new, -, hstep⟩
      · obtain rfl : es = [] := List.map_eq_nil_iff.mp htypes
        refine happend [] (List.forall_mem_nil _) ?_
        rw [hchain]
        split <;> rfl
      · rw [(hstep.old row hrow).2] at hended
        cases hended
    · obtain ⟨es, heq, hes⟩ := hfoot.chain (chainIdFor org .run)
      refine happend es (fun e he hsubject => ?_) heq
      exact absurd (hsubject.symm.trans (hes e he).1.2) hr

/-- The invocation of a run that has ended keeps its content; a new one is the trace of a forward. -/
lemma RunsEffect.invocation (h : RunsEffect s s') (hlaw : RunLaws s) {row : RunRow}
    (hrow : s (.run r) = some row) (hended : row.status.terminal = true) (token : Uuid) :
    s' (.invocation r token) = s (.invocation r token) ∨
      s (.invocation r token) = none ∧ ∀ y ∈ s' (.invocation r token), y.IsTrace := by
  cases h with
  | elsewhere hfoot => exact .inl (hfoot.rows _ rfl fun hk => hk (Option.some_ne_none r))
  | @moved org' r' hfoot hmoved =>
    by_cases hr : r = r'
    · subst hr
      obtain ⟨n, types, traced, htransition, hprogress⟩ := hmoved
      have hcheck := hprogress.checked (hlaw r).row.checked
      rw [hprogress.row] at hcheck
      rcases htransition.rowStep (hlaw r).row hcheck with ⟨-, -, htraced⟩ | ⟨new, -, hstep⟩
      · refine (hprogress.invocation token).imp_right fun ⟨hnone, inv, now, hinv, hnew⟩ => ?_
        refine ⟨hnone, fun y hy => ?_⟩
        rw [hnew] at hy
        obtain rfl := Option.some.inj hy
        exact (htraced _ hinv).1
      · rw [(hstep.old row hrow).2] at hended
        cases hended
    · refine .inl (hfoot.rows _ rfl ?_)
      rintro (hk | hk)
      · exact hr (Option.some.inj hk)
      · exact hk (Option.some_ne_none r)

/-- **No transaction changes the record of an outcome.** -/
lemma RecordedOutcome.effect (h : RecordedOutcome org r token outcome s) (hlaw : RunLaws s)
    (heffect : RunsEffect s s') : RecordedOutcome org r token outcome s' := by
  obtain ⟨row, hrow, horg, htoken, hstatus⟩ := h.row
  have hended : row.status.terminal = true := by rw [hstatus]; exact outcome.terminal_terminal
  refine ⟨⟨row, heffect.absorbing hlaw hrow hended, horg, htoken, hstatus⟩, ?_, ?_⟩
  · rw [heffect.terminalEvents hlaw hrow hended]
    exact h.event
  · have hold := h.invocation
    rcases heffect.invocation hlaw hrow hended token with heq | ⟨hnone, htrace⟩
    · rwa [heq]
    · cases outcome with
      | http =>
        obtain ⟨y, hy, -⟩ := hold
        rw [hnone] at hy
        exact absurd hy (Option.not_mem_none y)
      | blocked => exact htrace
      | localError => exact htrace

/-! ## The first finalization -/

section Programs

variable {ctx : DispatchEventContext} {eventId : Uuid} {now : ℤ}

/-- The turn of a run does not touch the chains. -/
lemma maybeEnsureTurn_terminalEvents {es : List ChainEvent} :
    Keeps (fun v => terminalEvents v org r = es) (maybeEnsureTurn ctx eventId) := by
  intro H s ws b ws' h hrun
  have hprogress := maybeEnsureTurn_progress (c := chainIdFor org .run) .start hrun
  obtain ⟨new, htypes, -, hchain⟩ := hprogress.events
  obtain rfl : new = [] := List.map_eq_nil_iff.mp htypes
  have hsame : ws'.apply s (.chain (chainIdFor org .run)) =
      ws.apply s (.chain (chainIdFor org .run)) := by
    rw [hchain]
    split <;> simp
  rw [terminalEvents, hsame]
  exact h

/-- The last terminal event of a written outcome has its metadata. -/
lemma writeOutcome_event (outcome : KnownOutcome) (x : RunRow) (draw : FinalizeDraw) :
    Triple (fun _ => True) (writeOutcome ctx token outcome x draw) fun res v =>
      res.finalStatus = outcome.terminal ∧
        ∃ e, (terminalEvents v ctx.orgId ctx.runId).getLast? = some e ∧
          e.redaction = outcome.redaction := by
  have hskip : ∀ {α : Type} (p : WorkroomTx α), Triple (fun _ => True) p fun _ _ => True :=
    fun p _ _ _ _ _ _ _ => trivial
  have hterminal : outcome.eventType.terminalRun = true := by
    unfold KnownOutcome.eventType
    split
    · split <;> rfl
    · rfl
    · rfl
  unfold writeOutcome
  refine triple_bind (hskip _) fun _ => triple_bind (hskip _) fun _ => ?_
  refine triple_bind (hskip _) fun _ => triple_bind (hskip _) fun _ => ?_
  refine triple_bind (Q := fun _ v => ∃ es e, terminalEvents v ctx.orgId ctx.runId = es ++ [e] ∧
    e.redaction = outcome.redaction) ?_ fun event => ?_
  · intro H s ws e ws' _ hrun
    obtain ⟨-, he, heq⟩ := auditAppend_spec hrun
    refine ⟨terminalEvents (ws.apply s) ctx.orgId ctx.runId, e, ?_, by rw [he]⟩
    have hmatch : e.subjectId = ctx.runId ∧ e.eventType.terminalRun = true := by
      rw [he]
      exact ⟨rfl, hterminal⟩
    rw [terminalEvents, heq, addEvent_chain,
      if_pos (show chainIdFor ctx.orgId .run = ctx.chainId from rfl), List.filter_append, terminalEvents]
    simp [hmatch]
  · intro H s ws b ws' hv hrun
    obtain ⟨es, e, hes, hredaction⟩ := hv
    obtain ⟨_, ws₁, hturn, rfl, rfl⟩ := exec_bind.mp hrun
    have hlast := maybeEnsureTurn_terminalEvents hes hturn
    exact ⟨rfl, e, by rw [hlast, List.getLast?_concat], hredaction⟩

/-- **The first finalization records its outcome.** -/
lemma finalizeKnownOutcome_recorded {draw : FinalizeDraw} {H : Set WorkroomDb}
    {res : FinalizeResult} {ws : Pending WorkroomItem.Val} (hlaw : RunLaws s)
    (hrun : Exec H s (finalizeKnownOutcome ctx token outcome draw) [] res ws)
    (hnew : res.duplicate = false) :
    res.finalStatus = outcome.terminal ∧
      RecordedOutcome ctx.orgId ctx.runId token outcome (ws.apply s) := by
  have hstart : RunAt ctx.orgId ctx.runId s (Pending.apply [] s) := .start
  unfold finalizeKnownOutcome at hrun
  obtain ⟨b, ws₁, hlock, hrun⟩ := exec_bind.mp hrun
  obtain ⟨-, hfound⟩ := lockRun_progress hstart hlock
  obtain ⟨_, _, ⟨-, rfl⟩, -, rfl⟩ := exec_bind.mp hlock
  simp only [exec_bind, exec_orFail, exec_failIf] at hrun
  obtain ⟨x, _, ⟨rfl, rfl⟩, _, _, ⟨htoken, rfl⟩, hrun⟩ := hrun
  obtain ⟨hrow, horg⟩ := hfound x rfl
  rw [not_not] at htoken
  split at hrun
  · simp only [exec_bind, exec_failIf, exec_pure] at hrun
    obtain ⟨_, _, -, _, _, -, rfl, -⟩ := hrun
    cases hnew
  · next hended =>
    simp only [exec_bind, exec_failIf] at hrun
    obtain ⟨_, _, ⟨-, rfl⟩, hrun⟩ := hrun
    have hprogress := writeOutcome_progress outcome x draw hstart hrun
    obtain ⟨hfinal, hevent⟩ := writeOutcome_event outcome x draw trivial hrun
    refine ⟨hfinal, ⟨_, hprogress.row, horg, htoken, rfl⟩, hevent, ?_⟩
    -- What is at the token now was there before, as a trace, or is the answer.
    have htrace : ∀ y ∈ s (.invocation ctx.runId token), y.IsTrace := by
      intro y hy
      refine ((hlaw ctx.runId).trace token y hy).resolve_right ?_
      rintro ⟨z, hz, hterminal⟩
      rw [hrow] at hz
      exact hended (Option.some.inj hz ▸ hterminal)
    cases outcome with
    | http statusCode request responseHash v4 =>
      obtain ⟨y, hy, hendpoint, hhash⟩ := hprogress.request _ rfl
      refine ⟨y, hy, hendpoint, hhash, ?_⟩
      rcases hprogress.invocation token with heq | ⟨-, inv, now, hinv, hinserted⟩
      · exact .inl (htrace y (heq ▸ hy))
      · obtain ⟨-, rfl⟩ := Prod.mk.inj (Option.some.inj hinv)
        rw [hinserted] at hy
        obtain rfl := Option.some.inj hy
        exact .inr ⟨rfl, rfl⟩
    | blocked reason v4 =>
      rcases hprogress.invocation token with heq | ⟨-, inv, now, hinv, -⟩
      · exact fun y hy => htrace y (heq ▸ hy)
      · cases hinv
    | localError message =>
      rcases hprogress.invocation token with heq | ⟨-, inv, now, hinv, -⟩
      · exact fun y hy => htrace y (heq ▸ hy)
      · cases hinv

/-! ## The second finalization -/

/-- The check of `checkDuplicate`, for the metadata of the terminal event and the invocation that it
reads. -/
def KnownOutcome.Matches (outcome : KnownOutcome) (m : Option EventMeta) (x : Option InvocationRow) :
    Prop :=
  match outcome with
  | .http statusCode request responseHash _ =>
    ∃ y ∈ x, y.nativeEndpoint = request.nativeEndpoint ∧
      y.nativeRequestHash = request.nativeRequestHash ∧
      y.statusCode.or (m.bind fun m => m.statusCode.or m.errorStatus) = some statusCode ∧
      y.nativeResponseHash.or (m.bind EventMeta.nativeResponseHash) = some responseHash
  | .blocked reason _ => m.bind EventMeta.governedBlockReason = some reason
  | .localError message => m.bind EventMeta.errorClass = some "dispatch_pre_forward_failed" ∧
      m.bind EventMeta.errorMessage = some (message.take 200)

/-- **The check recovers the result** from the metadata of an outcome and what it left at its
invocation, for all combinations of kinds. -/
lemma KnownOutcome.matches_iff {o₁ : KnownOutcome} {x : Option InvocationRow}
    (hx : o₁.RecordedAt x) (o₂ : KnownOutcome) :
    o₂.Matches (some o₁.redaction) x ↔ o₁.SameResult o₂ := by
  cases o₁ with
  | http c₁ q₁ h₁ v₁ =>
    obtain ⟨y, hy, hendpoint, hhash, hanswer⟩ := hx
    obtain rfl := Option.mem_def.mp hy
    have hstatus : (KnownOutcome.http c₁ q₁ h₁ v₁).redaction.statusCode.or
        (KnownOutcome.http c₁ q₁ h₁ v₁).redaction.errorStatus = some c₁ := by
      by_cases hok : httpOk c₁ <;> simp [redaction, hok]
    have hresponse : (KnownOutcome.http c₁ q₁ h₁ v₁).redaction.nativeResponseHash = some h₁ := by
      by_cases hok : httpOk c₁ <;> simp [redaction, hok]
    cases o₂ with
    | http c₂ q₂ h₂ v₂ =>
      rcases hanswer with ⟨hnone, hnone'⟩ | ⟨hsome, hsome'⟩
      · simp [Matches, SameResult, hendpoint, hhash, hnone, hnone', hstatus, hresponse]
      · simp [Matches, SameResult, hendpoint, hhash, hsome, hsome']
    | blocked => by_cases hok : httpOk c₁ <;> simp [Matches, SameResult, redaction, hok]
    | localError => by_cases hok : httpOk c₁ <;> simp [Matches, SameResult, redaction, hok]
  | blocked reason v₁ =>
    cases o₂ with
    | http c₂ q₂ h₂ v₂ =>
      simp only [Matches, SameResult, iff_false]
      rintro ⟨y, hy, -, -, hstatus, -⟩
      simp [(hx y hy).2, redaction] at hstatus
    | blocked => simp [Matches, SameResult, redaction]
    | localError => simp [Matches, SameResult, redaction]
  | localError message =>
    cases o₂ with
    | http c₂ q₂ h₂ v₂ =>
      simp only [Matches, SameResult, iff_false]
      rintro ⟨y, hy, -, -, hstatus, -⟩
      simp [(hx y hy).2, redaction] at hstatus
    | blocked => simp [Matches, SameResult, redaction]
    | localError => simp [Matches, SameResult, redaction]

/-- Outcomes with the same result end a run in the same status. -/
lemma KnownOutcome.SameResult.terminal_eq {o₁ o₂ : KnownOutcome} (h : o₁.SameResult o₂) :
    o₁.terminal = o₂.terminal := by
  cases o₁ <;> cases o₂ <;> simp_all [SameResult, terminal]

section Evaluation

variable {H : Set WorkroomDb} {db : WorkroomDb} {ws : Pending WorkroomItem.Val}

/-- When every state that may be read passes the check, the duplicate is accepted. -/
lemma checkDuplicate_evaluates_ok (hH : H.Nonempty)
    (h : ∀ d ∈ H, ∀ d' ∈ H, outcome.Matches (readTerminalEventMeta ctx d)
      (d' (.invocation ctx.runId token))) :
    Evaluates H db (checkDuplicate ctx token outcome) [] (.ok ((), [])) := by
  unfold checkDuplicate
  refine evaluates_read_bind hH fun d hd => ?_
  cases outcome with
  | http statusCode request responseHash v4 =>
    refine evaluates_read_bind hH fun d' hd' => ?_
    obtain ⟨y, hy, hendpoint, hhash, hstatus, hresponse⟩ := h d hd d' hd'
    have hrow : Pending.apply [] d' (.invocation ctx.runId token) = some y := hy
    rw [hrow]
    refine (evaluates_orFail_some y _).bind ?_
    refine (evaluates_failIf_neg (by simp [hendpoint, hhash]) _).bind ?_
    refine (evaluates_failIf_neg ?_ _).bind (evaluates_failIf_neg ?_ _)
    · exact not_not.mpr hstatus
    · exact not_not.mpr hresponse
  | blocked reason v4 =>
    refine evaluates_failIf_neg ?_ _
    exact not_not.mpr (h d hd d hd)
  | localError message =>
    obtain ⟨hclass, hmessage⟩ := h d hd d hd
    refine evaluates_failIf_neg ?_ _
    rw [not_or]
    exact ⟨not_not.mpr hclass, not_not.mpr hmessage⟩

/-- When no state that may be read passes it, the duplicate is refused. -/
lemma checkDuplicate_evaluates_error (hH : H.Nonempty)
    (h : ∀ d ∈ H, ∀ d' ∈ H, ¬outcome.Matches (readTerminalEventMeta ctx d)
      (d' (.invocation ctx.runId token))) :
    Evaluates H db (checkDuplicate ctx token outcome) []
      (.error "DispatchOutcomeConflictError") := by
  unfold checkDuplicate
  refine evaluates_read_bind hH fun d hd => ?_
  cases outcome with
  | http statusCode request responseHash v4 =>
    refine evaluates_read_bind hH fun d' hd' => ?_
    have hno := h d hd d' hd'
    cases hx : d' (.invocation ctx.runId token) with
    | none =>
      have hrow : Pending.apply [] d' (.invocation ctx.runId token) = none := hx
      rw [hrow]
      exact (evaluates_orFail_none _).bind_error
    | some y =>
      have hrow : Pending.apply [] d' (.invocation ctx.runId token) = some y := hx
      rw [hrow]
      refine (evaluates_orFail_some y _).bind ?_
      by_cases hrequest : y.nativeEndpoint ≠ request.nativeEndpoint ∨
          y.nativeRequestHash ≠ request.nativeRequestHash
      · exact (evaluates_failIf_pos hrequest _).bind_error
      refine (evaluates_failIf_neg hrequest _).bind ?_
      by_cases hstatus : y.statusCode.or ((readTerminalEventMeta ctx d).bind
          fun m => m.statusCode.or m.errorStatus) ≠ some statusCode
      · exact (evaluates_failIf_pos hstatus _).bind_error
      refine (evaluates_failIf_neg hstatus _).bind (evaluates_failIf_pos ?_ _)
      intro hresponse
      rw [not_or, not_not, not_not] at hrequest
      exact hno ⟨y, hx, hrequest.1, hrequest.2, not_not.mp hstatus, hresponse⟩
  | blocked reason v4 =>
    refine evaluates_failIf_pos ?_ _
    exact h d hd d hd
  | localError message => exact evaluates_failIf_pos (not_and_or.mp (h d hd d hd)) _

/-- The row of the run is found. -/
lemma lockRun_evaluates {row : RunRow} (hrow : db (.run ctx.runId) = some row)
    (horg : row.orgId = ctx.orgId) : Evaluates H db (lockRun ctx) [] (.ok (some row, [])) := by
  have hlock := @evaluates_lockItem _ _ String _ H db []
    (WorkroomItem.run ctx.runId)
  refine hlock.bind ?_
  have hfilter : (Pending.apply [] db (.run ctx.runId)).filter (fun r => r.orgId = ctx.orgId) =
      some row := by
    rw [Pending.apply, hrow]
    simp [horg]
  rw [hfilter]
  exact evaluates_pure _

/-- A finalization under another token is refused. -/
lemma finalizeKnownOutcome_mismatch {row : RunRow} (hrow : db (.run ctx.runId) = some row)
    (horg : row.orgId = ctx.orgId) (htoken : row.dispatchToken ≠ some token) (draw : FinalizeDraw) :
    Evaluates H db (finalizeKnownOutcome ctx token outcome draw) []
      (.error "DispatchTokenMismatchError") := by
  unfold finalizeKnownOutcome
  refine (lockRun_evaluates hrow horg).bind ((evaluates_orFail_some row _).bind ?_)
  exact (evaluates_failIf_pos htoken _).bind_error

/-- **A second finalization is accepted exactly when it has the recorded result**, and writes
nothing. -/
lemma RecordedOutcome.finalize {o₁ o₂ : KnownOutcome} (hH : H.Nonempty)
    (hdb : RecordedOutcome ctx.orgId ctx.runId token o₁ db)
    (h : ∀ d ∈ H, RecordedOutcome ctx.orgId ctx.runId token o₁ d) (draw : FinalizeDraw) :
    (o₁.SameResult o₂ → Evaluates H db (finalizeKnownOutcome ctx token o₂ draw) []
      (.ok (⟨o₁.terminal, false, true⟩, []))) ∧
    (¬o₁.SameResult o₂ → Evaluates H db (finalizeKnownOutcome ctx token o₂ draw) []
      (.error "DispatchOutcomeConflictError")) := by
  obtain ⟨row, hrow, horg, htoken, hstatus⟩ := hdb.row
  have hended : row.status.terminal = true := by rw [hstatus]; exact o₁.terminal_terminal
  have hmeta : ∀ d ∈ H, readTerminalEventMeta ctx d = some o₁.redaction := by
    intro d hd
    obtain ⟨e, hlast, hredaction⟩ := (h d hd).event
    rw [← hredaction]
    exact congrArg (Option.map ChainEvent.redaction) hlast
  have hmatch : ∀ d ∈ H, ∀ d' ∈ H, (o₂.Matches (readTerminalEventMeta ctx d)
      (d' (.invocation ctx.runId token)) ↔ o₁.SameResult o₂) := by
    intro d hd d' hd'
    rw [hmeta d hd]
    exact KnownOutcome.matches_iff (h d' hd').invocation o₂
  unfold finalizeKnownOutcome
  constructor
  · intro hsame
    refine (lockRun_evaluates hrow horg).bind ((evaluates_orFail_some row _).bind ?_)
    refine (evaluates_failIf_neg (not_not.mpr htoken) _).bind ?_
    rw [if_pos hended, ← hstatus]
    refine (evaluates_failIf_neg (not_not.mpr (hstatus.trans hsame.terminal_eq)) _).bind ?_
    refine (checkDuplicate_evaluates_ok hH fun d hd d' hd' => ?_).bind (evaluates_pure _)
    exact (hmatch d hd d' hd').mpr hsame
  · intro hdiffers
    refine (lockRun_evaluates hrow horg).bind ((evaluates_orFail_some row _).bind ?_)
    refine (evaluates_failIf_neg (not_not.mpr htoken) _).bind ?_
    rw [if_pos hended]
    by_cases hterminal : row.status ≠ o₂.terminal
    · exact (evaluates_failIf_pos hterminal _).bind_error
    refine (evaluates_failIf_neg hterminal _).bind ?_
    refine (checkDuplicate_evaluates_error hH fun d hd d' hd' => ?_).bind_error
    exact fun hm => hdiffers ((hmatch d hd d' hd').mp hm)

end Evaluation

end Programs

/-! ## In every run -/

section System

variable {sha256 : Bytes → Bytes}
  {c c' d : LockState WorkroomDb WorkroomItem (TxPoint WorkroomItem.Val String Unit) TxId}
  {as : List (TxId × LockAction (TxPoint WorkroomItem.Val String Unit))}

/-- The record stays through every run. -/
lemma RecordedOutcome.run (h : RecordedOutcome org r token outcome c.committed)
    (hc : (workroomSystem sha256).Reachable c) (hrun : (workroomSystem sha256).Run c as d) :
    RecordedOutcome org r token outcome d.committed := by
  refine hrun.stable (P := fun c => RecordedOutcome org r token outcome c.committed) ?_ hc h
  intro s a s' hs h hstep
  rcases runsEffect_of_step hs hstep with heq | heffect
  · rwa [heq]
  · exact h.effect (runLaws_of_reachable hs) heffect

/-- **Duplicate finalization.**  A transaction `finalizeKnownOutcome` with the token `token` and the
outcome `o₁` has ended a run on the way to the state `c'`.  In every later state a call with this token
returns a duplicate with the same status if its outcome has the same result, and is refused otherwise;
a call with another token is refused; and nothing is written.  The call reads any states that were
committed since. -/
theorem duplicate_finalization {ctx ctx' : DispatchEventContext} {o₁ : KnownOutcome}
    {draw : FinalizeDraw} {H H' : Set WorkroomDb} {res : FinalizeResult}
    {ws : Pending WorkroomItem.Val} (hc : (workroomSystem sha256).Reachable c)
    (hfirst : Exec H c.committed (finalizeKnownOutcome ctx token o₁ draw) [] res ws)
    (hnew : res.duplicate = false) (hc' : (workroomSystem sha256).Reachable c')
    (hcommit : c'.committed = ws.apply c.committed) (hrun : (workroomSystem sha256).Run c' as d)
    (horg : ctx'.orgId = ctx.orgId) (hid : ctx'.runId = ctx.runId) (hH : H'.Nonempty)
    (hlater : ∀ h ∈ H', ∃ bs e, (workroomSystem sha256).Run c' bs e ∧ e.committed = h) :
    (∀ o₂ draw',
      (o₁.SameResult o₂ → Evaluates H' d.committed (finalizeKnownOutcome ctx' token o₂ draw') []
        (.ok (⟨res.finalStatus, false, true⟩, []))) ∧
      (¬o₁.SameResult o₂ → Evaluates H' d.committed (finalizeKnownOutcome ctx' token o₂ draw') []
        (.error "DispatchOutcomeConflictError"))) ∧
    ∀ token' ≠ token, ∀ o₂ draw', Evaluates H' d.committed
      (finalizeKnownOutcome ctx' token' o₂ draw') [] (.error "DispatchTokenMismatchError") := by
  obtain ⟨hfinal, hrecorded⟩ := finalizeKnownOutcome_recorded (runLaws_of_reachable hc) hfirst hnew
  rw [← hcommit, ← horg, ← hid] at hrecorded
  have hd := hrecorded.run hc' hrun
  have hH' : ∀ h ∈ H', RecordedOutcome ctx'.orgId ctx'.runId token o₁ h := by
    intro h hh
    obtain ⟨bs, e, he, rfl⟩ := hlater h hh
    exact hrecorded.run hc' he
  refine ⟨fun o₂ draw' => ?_, fun token' hne o₂ draw' => ?_⟩
  · rw [hfinal]
    exact hd.finalize hH hH' draw'
  · obtain ⟨row, hrow, hrowOrg, htoken, -⟩ := hd.row
    refine finalizeKnownOutcome_mismatch hrow hrowOrg ?_ draw'
    rw [htoken]
    exact fun h => hne (Option.some.inj h).symm

end System

/-- The late answer of the sample run. -/
def sampleAnswer : KnownOutcome :=
  .http 200 ⟨workroomUuid 51, "/v1/chat/completions", []⟩ [1] none

/-- The late answer ends the sample run; the same answer is then a duplicate. -/
theorem duplicate_finalization_sample : ∃ db : WorkroomDb,
    Evaluates {db} db (finalizeKnownOutcome sampleRunCtx (workroomUuid 40) sampleAnswer
      ⟨workroomUuid 203, workroomUuid 204, 4⟩) [] (.ok (⟨.completed, false, true⟩, [])) := by
  obtain ⟨s, hc, hends⟩ : ∃ s, (workroomSystem fun _ => []).Reachable ⟨s, fun _ => none⟩ ∧
      (match (finalizeKnownOutcome sampleRunCtx (workroomUuid 40) sampleAnswer
          ⟨workroomUuid 203, workroomUuid 204, 4⟩).run s [] with
        | .ok x => decide (x.1.duplicate = false ∧ x.1.finalStatus = .completed)
        | .error _ => false) = true :=
    ⟨_, reachable_sampleUnknownRun, by decide +kernel⟩
  cases hp : (finalizeKnownOutcome sampleRunCtx (workroomUuid 40) sampleAnswer
    ⟨workroomUuid 203, workroomUuid 204, 4⟩).run s [] with
  | error e =>
    rw [hp] at hends
    cases hends
  | ok x =>
    rw [hp] at hends
    obtain ⟨hnew, hfinal⟩ := of_decide_eq_true hends
    have hfirst := exec_of_run (Set.mem_singleton s) hp
    have hc' := reachable_exec 0 hc (WorkroomProgram.finalizeKnownOutcome ..)
      (exec_bind.mpr ⟨x.1, x.2, hfirst, rfl, rfl⟩)
    refine ⟨x.2.apply s, ?_⟩
    have hdup := duplicate_finalization hc hfirst hnew hc' rfl (.nil _) rfl rfl
      (Set.singleton_nonempty _) (fun h hh => ⟨[], _, .nil _, (Set.mem_singleton_iff.mp hh).symm⟩)
    rw [← hfinal]
    exact (hdup.1 _ _).1 ⟨rfl, rfl, rfl, rfl⟩

end GovAI
