import GovAI.Conversation.Contents
import GovAI.Conversation.Schedules

/-!
# The output fence

`appendFencedOutputItem` reads the row of the attempt in the snapshot of its statement and does not
lock it, so that a terminal transition may commit between that statement and the commit of the item.
The results are about runs in which no terminal transition overtakes an item in this way
(`fencedSystem`).
-/

namespace GovAI

variable {env : ConvEnv} {s s' : ConvState} {label : ConvLabel} {db db' : ConvDb}

/-! ## Terminal transitions -/

/-- The statement finds the row of the attempt for a terminal transition. -/
def Op.Terminates (deps : ExecutorDeps) (st : Statement) (x : Uuid) (a : AttemptRow) : Op → Prop
  | .ratchet y e => y = x ∧ (a.state = .dispatching ∨ a.state = .streaming) ∧
      a.claimToken = some e ∧ a.Provenance ∧ a.DeadlineBefore (st.now - 1000 * deps.recoveryGraceMs)
  | .finalize _ y t _ _ => y = x ∧ a.claimToken = some t ∧ a.state.nonTerminal = true
  | _ => False

/-- The operation whose statement a step runs. -/
def ConvState.Serves (s : ConvState) (label : ConvLabel) (st : Statement) (op : Op) : Prop :=
  (∃ token d, label = .serve token st ∧ s.drives token = some d ∧ d.call = some op) ∨
    ∃ owner, label = .orphan owner op st

/-- An item of the attempt has passed its fence and waits for its commit. -/
def ConvState.ItemPending (s : ConvState) (x : Uuid) : Prop :=
  ∃ owner p i, s.InFlight owner (.commitItem p i) ∧ p.attemptId = x

/-- A terminal transition of an attempt runs while an item of the attempt waits for its commit. -/
def Overtakes (env : ConvEnv) (s : ConvState) (label : ConvLabel) : Prop :=
  ∃ st op x a, s.Serves label st op ∧ s.db.attempts.lookup x = some a ∧
    op.Terminates env.deps st x a ∧ s.ItemPending x

/-- The conversation system in which no terminal transition overtakes an item. -/
def fencedSystem (env : ConvEnv) : TransitionSystem ConvState ConvLabel :=
  (conversationSystem env).restrict fun s label => ¬Overtakes env s label

lemma AttemptWrite.terminates {deps : ExecutorDeps} {st : Statement} {op : Op} {x : Uuid}
    {a a' : AttemptRow} (h : AttemptWrite deps st op x a a') (hnon : a.state.nonTerminal = true)
    (hterminal : a'.state.nonTerminal = false) : op.Terminates deps st x a := by
  cases h with
  | ratchet hstate htoken hprov hdeadline => exact ⟨rfl, hstate, htoken, hprov, hdeadline⟩
  | finalize hstate htoken => exact ⟨rfl, htoken, hstate⟩
  | claim hstate | rotate hstate | provenance hstate | heartbeat hstate =>
    exact absurd hterminal (by simp [AttemptRow.claimedBy, hnon])
  | reclaim | boundary | restore | markStreaming => cases hterminal

lemma ExecOutcome.terminates {deps : ExecutorDeps} {st : Statement} {op : Op} {reply : Bool}
    (h : ExecOutcome deps st db op reply db') {x : Uuid} {a a' : AttemptRow}
    (ha : db.attempts.lookup x = some a) (hnon : a.state.nonTerminal = true)
    (ha' : db'.attempts.lookup x = some a') (hterminal : a'.state.nonTerminal = false) :
    op.Terminates deps st x a := by
  have hsame : db'.attempts.lookup x = some a → op.Terminates deps st x a := by
    intro h
    obtain rfl : a = a' := Option.some.inj (h.symm.trans ha')
    rw [hnon] at hterminal
    cases hterminal
  cases h with
  | idle => exact hsame ha
  | item _ _ hdb => exact hsame (by rw [hdb]; exact ha)
  | write hwrite _ hrow _ hdb =>
    have hlookup := lookup_of_write hdb x
    split at hlookup
    · next hx =>
      subst hx
      obtain rfl := Option.some.inj (ha.symm.trans hrow)
      obtain rfl := Option.some.inj (hlookup.symm.trans ha')
      exact hwrite.terminates hnon hterminal
    · exact hsame (hlookup.trans ha)

/-- What makes an attempt terminal. -/
lemma ConvStep.terminates (hs : (conversationSystem env).Reachable s)
    (step : ConvStep env s label s') {x : Uuid}
    {a a' : AttemptRow} (ha : s.db.attempts.lookup x = some a) (hnon : a.state.nonTerminal = true)
    (ha' : s'.db.attempts.lookup x = some a') (hterminal : a'.state.nonTerminal = false) :
    ∃ st op, s.Serves label st op ∧ op.Terminates env.deps st x a := by
  have hist := reachable_history hs
  have hshape := (reachable_history (hs.step step)).shape _
    (reachable_history (hs.step step)).current
  have hquiet : QuietRows s.db s'.db → ∃ st op, s.Serves label st op ∧
      op.Terminates env.deps st x a := by
    intro hquiet
    rcases hquiet x a' ha' with hnone | ⟨b, hb, -, hstate, -⟩
    · refine absurd hnone (hshape.claimed x a' ha' (.inl fun hstate => ?_))
      rw [hstate] at hterminal
      cases hterminal
    · obtain rfl : a = b := Option.some.inj (ha.symm.trans hb)
      rw [hstate, hnon] at hterminal
      cases hterminal
  cases step with
  | serveDone hd hcall hst hexec =>
    exact ⟨_, _, .inl ⟨_, _, rfl, hd, hcall⟩,
      (Op.exec_done hexec).terminates ha hnon ha' hterminal⟩
  | orphanDone ho hst hexec =>
    exact ⟨_, _, .inr ⟨_, rfl⟩, (Op.exec_done hexec).terminates ha hnon ha' hterminal⟩
  | sendCommit _ hc hp hr => exact hquiet (hist.send_minted hc hp hr).quiet
  | forkCommit _ hc hp hr =>
    rcases (hist.fork_committed hc hp hr).child with ⟨-, rfl⟩ | ⟨child, -, hminted⟩
    · exact hquiet (.of_attempts rfl)
    · exact hquiet hminted.quiet
  | external h => exact hquiet h.quiet
  | _ => exact hquiet (.of_attempts rfl)

/-! ## The fence -/

/-- No item of a terminal attempt waits for its commit. -/
def ConvState.Fenced (s : ConvState) : Prop :=
  ∀ x a, s.db.attempts.lookup x = some a → a.state.nonTerminal = false → ¬s.ItemPending x

/-- An item that is pending after a step was so before, or the step is its fence. -/
lemma ConvStep.item_origin (step : ConvStep env s label s') {owner : OwnerScope} {p : OutputArgs}
    {i : ItemRow} (hf : s'.InFlight owner (.commitItem p i)) :
    s.InFlight owner (.commitItem p i) ∨ s'.db = s.db ∧ ∃ a, s.db.attempts.lookup p.attemptId = some a ∧
      a.state.nonTerminal = true := by
  have hflight := step.flight hf
  have hsilent : s'.db = s.db → s.InFlight owner (.commitItem p i) ∨ s'.db = s.db ∧
      ∃ a, s.db.attempts.lookup p.attemptId = some a ∧ a.state.nonTerminal = true := by
    intro hdb
    rcases hflight with hold | hinitial | ⟨op, st, -, hst, hexec⟩
    · exact .inl hold
    · exact hinitial.elim
    · cases Op.exec_next hexec with
      | append hitem =>
        simp only [fencedOutputItem, Option.map_eq_some_iff, Option.filter_eq_some_iff,
          decide_eq_true_eq] at hitem
        obtain ⟨a, ⟨ha, -, -, hreceiving⟩, -⟩ := hitem
        refine .inr ⟨hdb, a, ha, ?_⟩
        rcases hreceiving with hstate | hstate <;> rw [hstate] <;> rfl
  cases step with
  | serveDone hd hcall hst hexec =>
    left
    rcases hf.of_update (s := s) rfl .inl with hold | ⟨-, hcall'⟩
    · exact hold
    · cases Drive.resume_output hcall'
  | orphanDone ho hst hexec =>
    left
    rcases hf with ho' | hd
    · exact .inl (mem_orphans_of_removed ho ho')
    · exact .inr hd
  | sendCommit | forkCommit | external => exact .inl hf
  | _ => exact hsilent rfl

lemma ConvStep.fenced (hs : (conversationSystem env).Reachable s)
    (step : ConvStep env s label s') (hfence : ¬Overtakes env s label) (h : s.Fenced) :
    s'.Fenced := by
  rintro x a' ha' hterminal ⟨owner, p, i, hflight, rfl⟩
  rcases step.item_origin hflight with hold | ⟨hdb, a, ha, hnon⟩
  · -- The item was pending before: then the step is no terminal transition of its attempt.
    obtain ⟨d, hd, hx, hreached⟩ := (reachable_workers hs).legal owner _ hold
    obtain ⟨a, ha, -⟩ := (reachable_workers hs).rowsOk.passed _ d hd (le_trans (by decide) hreached)
    rw [hx] at ha
    have hpending : s.ItemPending p.attemptId := ⟨owner, p, i, hold, rfl⟩
    by_cases hnon : a.state.nonTerminal = true
    · obtain ⟨st, op, hserves, hterminates⟩ := step.terminates hs ha hnon ha' hterminal
      exact hfence ⟨st, op, _, a, hserves, ha, hterminates, hpending⟩
    · exact h _ a ha (by simpa using hnon) hpending
  · rw [hdb] at ha'
    obtain rfl : a = a' := Option.some.inj (ha.symm.trans ha')
    rw [hnon] at hterminal
    cases hterminal

theorem reachable_fenced (hs : (fencedSystem env).Reachable s) : s.Fenced := by
  refine hs.invariant (I := ConvState.Fenced) ?_ ?_
  · rintro _ ⟨orgs, credentials, rfl⟩ x a ha
    cases ha
  · intro s label s' hs h step
    exact ConvStep.fenced hs.of_restrict step.2 step.1 h

/-! ## The outputs of terminal attempts -/

/-- The outputs of an attempt that is terminal in a state are final from then on. -/
def ConvDb.OutputsFinal (db db' : ConvDb) : Prop :=
  ∀ x a, db.attempts.lookup x = some a → a.state.nonTerminal = false → db'.outputs x = db.outputs x

/-- What a step adds to the outputs of an attempt. -/
lemma ConvStep.appended (step : ConvStep env s label s') (hist : s.History env) (x : Uuid) :
    s'.db.outputs x = s.db.outputs x ∨ ∃ owner p i, s.InFlight owner (.commitItem p i) ∧
      p.attemptId = x ∧ s'.db.outputs x = s.db.outputs x ++ [i] := by
  rcases step.commit_cases with ⟨hdb, -⟩ | ⟨hcommit, -⟩
  · exact .inl (by rw [hdb])
  · rcases hcommit.items hist with ⟨new, hitems, hnew⟩ | ⟨owner, p, i, hflight, -, hdb⟩
    · left
      have hnone : (new.filter fun i => i.attemptId = some x) = [] :=
        List.filter_eq_nil_iff.mpr fun i hi => by simp [(hnew i hi).1]
      rw [ConvDb.outputs, hitems, List.filter_append, hnone, List.append_nil]
      rfl
    · obtain ⟨st, seq, db₀, -, hitem⟩ := hist.calls.item owner p i hflight
      simp only [fencedOutputItem, Option.map_eq_some_iff] at hitem
      obtain ⟨a, -, hi⟩ := hitem
      have hattempt : i.attemptId = some p.attemptId := by rw [← hi]
      by_cases hx : p.attemptId = x
      · refine .inr ⟨owner, p, i, hflight, hx, ?_⟩
        rw [hdb, ConvDb.outputs, List.filter_append]
        simp [ConvDb.outputs, hattempt, hx]
      · left
        rw [hdb, ConvDb.outputs, List.filter_append]
        simp [ConvDb.outputs, hattempt, hx]

/-- **The output fence.** In every run in which no terminal transition runs while an item of its
attempt has passed the fence and waits for its commit: once a terminal transition of an attempt is
committed, no output item of the attempt is committed any more.  And in every run, whenever an item
is committed, the attempt carries the claim token under which a drive that streams this attempt has
sent it. -/
theorem outputs_final :
    (∀ s, (fencedSystem env).Reachable s → ∀ db, s.Past db → db.OutputsFinal s.db) ∧
    ∀ s, (conversationSystem env).Reachable s → ∀ label s' x,
      (conversationSystem env).step s label s' → s'.db.outputs x ≠ s.db.outputs x →
      ∃ p i d a, s'.db.outputs x = s.db.outputs x ++ [i] ∧ p.attemptId = x ∧
        (∃ owner, s.InFlight owner (.commitItem p i)) ∧ s.drives p.claimToken = some d ∧
        d.attemptId = x ∧ d.Reached .streaming ∧
        s.db.attempts.lookup x = some a ∧ a.claimToken = some p.claimToken := by
  constructor
  · intro s hs
    refine hs.invariant (I := fun s => ∀ db, s.Past db → db.OutputsFinal s.db) ?_ ?_
    · rintro _ ⟨orgs, credentials, rfl⟩ db hdb x a _ _
      have hinit := TraceEvent.commit.inj (List.mem_singleton.mp hdb)
      subst hinit
      rfl
    · rintro s label s' hs h ⟨-, step⟩ db hpast
      have hall := hs.of_restrict
      have hist := reachable_history hall
      rcases ConvStep.past_cases step hpast with hold | ⟨rfl, -⟩
      · intro x a ha hterminal
        rcases ConvStep.appended step hist x with hsame | ⟨owner, p, i, hflight, rfl, -⟩
        · rw [hsame, h db hold x a ha hterminal]
        · have hrow := (hist.grows db hold).terminal ha hterminal
          exact absurd ⟨owner, p, i, hflight, rfl⟩ (reachable_fenced hs _ a hrow hterminal)
      · exact fun x a _ _ => rfl
  · intro s hall label s' x step hne
    have hworkers := reachable_workers hall
    rcases ConvStep.appended step (reachable_history hall) x with hsame | ⟨owner, p, i, hflight, rfl,
      happend⟩
    · exact absurd hsame hne
    · obtain ⟨d, hd, hx, hreached⟩ := hworkers.legal owner _ hflight
      obtain ⟨a, ha, htoken, -⟩ := hworkers.rowsOk.passed _ d hd (le_trans (by decide) hreached)
      exact ⟨p, i, d, a, happend, rfl, ⟨owner, hflight⟩, hd, hx, hreached, hx ▸ ha, htoken⟩

/-! ## The runs -/

/-- A check that implies the condition of `fencedSystem`: no statement of a terminal transition runs
but that of a drive which completes its attempt. -/
def ConvState.completesOnly (s : ConvState) : ConvLabel → Bool
  | .serve token _ =>
    match (s.drives token).bind (·.call) with
    | some (.ratchet ..) => false
    | some (.finalize _ _ _ state _) => state = .completed
    | _ => true
  | .orphan .. => false
  | _ => true

lemma not_overtakes (hs : (conversationSystem env).Reachable s)
    (h : s.completesOnly label = true) : ¬Overtakes env s label := by
  rintro ⟨st, op, x, a, hserves, ha, hterminates, owner, p, i, hflight, rfl⟩
  rcases hserves with ⟨token, d, rfl, hd, hcall⟩ | ⟨owner, rfl⟩
  · simp only [ConvState.completesOnly, hd, Option.bind_some, hcall] at h
    cases op with
    | ratchet => cases h
    | finalize context y t state errorClass =>
      obtain ⟨rfl, htoken, -⟩ := hterminates
      obtain rfl : state = .completed := by simpa using h
      have hworkers := reachable_workers hs
      obtain ⟨d', hd', hx, hreached⟩ := hworkers.legal owner _ hflight
      obtain ⟨b, hb, htoken', -⟩ :=
        hworkers.rowsOk.passed _ d' hd' (le_trans (by decide) hreached)
      obtain rfl : a = b := Option.some.inj (ha.symm.trans (hx ▸ hb))
      obtain rfl : t = p.claimToken := Option.some.inj (htoken.symm.trans htoken')
      exact ((reachable_stores hs).output_open hworkers hflight rfl).1 _ _
        (.inr ⟨token, d, hd, rfl, hcall⟩) ⟨rfl, rfl⟩
    | _ => exact hterminates
  · cases h

/-- The theorem at a run that completes an attempt. -/
theorem outputs_final_sample :
    ∃ s a, (fencedSystem sampleConvEnv).Reachable s ∧
      s.db.attempts.lookup (sampleUuid 200) = some a ∧ a.state = .completed ∧
      s.db.outputs (sampleUuid 200) ≠ [] ∧ ∀ db, s.Past db → db.OutputsFinal s.db := by
  obtain ⟨s, hs, htest⟩ := @samplePlay_reachable _
    (fun s label => ¬Overtakes sampleConvEnv s label) (fun s label hs h => not_overtakes hs h)
    sampleFirstTurn (fun s => s.db.attemptIs (sampleUuid 200) .completed &&
      decide (s.db.outputs (sampleUuid 200) ≠ [])) (by decide +kernel)
  obtain ⟨hcompleted, hne⟩ := Bool.and_eq_true_iff.mp htest
  obtain ⟨a, ha, hstate⟩ := ConvDb.exists_of_attemptIs hcompleted
  exact ⟨s, a, hs, ha, hstate, of_decide_eq_true hne, outputs_final.1 s hs⟩

/-- The item of a stalled worker has passed its fence when its attempt is ratcheted. -/
def overtakenSchedule : List Action :=
  samplePosted ++ sampleRespond (sampleUuid 500) 1 ++
    [Action.move (sampleUuid 500) (.chunk [1]),
     .move (sampleUuid 500) (.eof (sampleUuid 700) (sampleContentRow [1])),
     .serve (sampleUuid 500) 1, .serve (sampleUuid 500) 1,
     .ratchet sampleOwner (sampleUuid 200) (sampleUuid 500), .orphan 1000000000,
     .serve (sampleUuid 500) 1000000000]

/-- **A late item.** An output item is committed after the terminal transition of its attempt. -/
theorem item_after_terminal :
    ∃ s db a, (conversationSystem sampleConvEnv).Reachable s ∧ s.Past db ∧
      db.attempts.lookup (sampleUuid 200) = some a ∧ a.state = .outcomeUnknown ∧
      db.outputs (sampleUuid 200) = [] ∧ s.db.outputs (sampleUuid 200) ≠ [] := by
  obtain ⟨s, hs, htest⟩ := @samplePlay_reachable' overtakenSchedule
    (fun s => decide (s.db.outputs (sampleUuid 200) ≠ []) && s.trace.any fun e =>
      match e with
      | .commit db => db.attemptIs (sampleUuid 200) .outcomeUnknown &&
          decide (db.outputs (sampleUuid 200) = [])
      | .fetch .. => false)
    (by decide +kernel)
  obtain ⟨hne, hany⟩ := Bool.and_eq_true_iff.mp htest
  obtain ⟨e, he, hcommit⟩ := List.any_eq_true.mp hany
  cases e with
  | fetch => cases hcommit
  | commit db =>
    obtain ⟨hunknown, hnone⟩ := Bool.and_eq_true_iff.mp hcommit
    obtain ⟨a, ha, hstate⟩ := ConvDb.exists_of_attemptIs hunknown
    exact ⟨s, db, a, hs, he, ha, hstate, of_decide_eq_true hnone, of_decide_eq_true hne⟩

end GovAI
