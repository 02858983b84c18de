import GovAI.Conversation.AttemptState

/-!
# At most one POST for an attempt

Whatever the order of claims, rotations, restores, stalls, crashes and lost acknowledgements: a POST
needs a positive answer of the gate, the gate leaves the token of its drive and a credential in the
row, and a row with a credential never changes its token nor goes back to `accepted`.
-/

namespace GovAI

variable {env : ConvEnv} {s s' : ConvState} {label : ConvLabel}

/-! ## The log of POSTs -/

/-- The event is a POST for the attempt. -/
def TraceEvent.posts (x : Uuid) : TraceEvent → Bool
  | .fetch y _ => x = y
  | .commit _ => false

/-- The drive has sent its POST. -/
def Drive.Posted (d : Drive) : Prop := d.Reached .gatePassed ∧ d.point ≠ .gatePassed

/-- A row from which a POST may be sent. -/
def AttemptRow.MayPost (a : AttemptRow) (token : Uuid) : Prop :=
  a.claimToken = some token ∧ a.state = .dispatching ∧ a.Provenance

/-- What holds of the POSTs and commits so far. -/
structure ConvState.PostLog (s : ConvState) : Prop where
  once : ∀ x, s.trace.countP (·.posts x) ≤ 1
  posted : ∀ x t, .fetch x t ∈ s.trace → DriveOf s.drives t x Drive.Posted
  before : ∀ newer older x t, s.trace = newer ++ TraceEvent.fetch x t :: older →
    ∃ db a, .commit db ∈ older ∧ db.attempts.lookup x = some a ∧ a.MayPost t
  after : ∀ newer older db x t, s.trace = newer ++ TraceEvent.commit db :: older →
    .fetch x t ∈ older → ∃ a, db.attempts.lookup x = some a ∧ a.Provenance

/-- A position of a trace that has grown by one event. -/
lemma cons_eq_append_cons {α : Type} {e e' : α} {l newer older : List α}
    (h : e :: l = newer ++ e' :: older) :
    (newer = [] ∧ e' = e ∧ older = l) ∨ ∃ newer', newer = e :: newer' ∧ l = newer' ++ e' :: older := by
  cases newer with
  | nil =>
    simp only [List.nil_append, List.cons.injEq] at h
    exact .inl ⟨rfl, h.1.symm, h.2.symm⟩
  | cons e'' newer' =>
    simp only [List.cons_append, List.cons.injEq] at h
    exact .inr ⟨newer', by rw [h.1], h.2⟩

lemma Drive.Ended.ne_gatePassed {d : Drive} (h : d.Ended) : d.point ≠ .gatePassed := by
  rcases h with ⟨kind, h⟩ | h | h <;> rw [h] <;> exact nofun

/-- A move of a drive that has posted leads to no second POST. -/
lemma DriveMove.posted {deps : ExecutorDeps} {token : Uuid} {db : ConvDb} {d d' : Drive}
    (h : DriveMove deps token db d d') (hc : d.Coherent token) (hp : d.Posted) : d'.Posted := by
  refine ⟨(h.progress hc).1.reached hp.1, ?_⟩
  cases h with
  | reject | noCredential | blocked | localError | noResponse | evidenceLost | upstreamErrorLost
  | encryptFails | evidenceEmitted | evidenceFails => exact (d.finalize_ended ..).ne_gatePassed
  | _ => exact nofun

/-- An answer to a drive that has posted leads to no second POST. -/
lemma Drive.resume_posted {token : Uuid} {d : Drive} (hc : d.Coherent token) (hp : d.Posted)
    (reply : Bool) : (d.resume token reply).Posted := by
  refine ⟨(Drive.resume_progress hc reply).1.reached hp.1, ?_⟩
  have hawaits := hc.awaits
  unfold Drive.resume
  split
  case h_3 hgate =>
    simp only [Drive.Awaits, hgate] at hawaits
    have hreached := hp.1
    rw [Drive.Reached, hawaits.1] at hreached
    exact absurd hreached (by decide)
  case h_6 | h_9 => exact (d.finalize_ended ..).ne_gatePassed
  all_goals rintro ⟨⟩

/-- An exception for a drive that has posted leads to no second POST. -/
lemma Drive.raise_posted {token : Uuid} {d : Drive} (hc : d.Coherent token) (hp : d.Posted) :
    (d.raise token).Posted := by
  refine ⟨(Drive.raise_progress hc).1.reached hp.1, ?_⟩
  unfold Drive.raise
  split <;> first | exact (d.finalize_ended ..).ne_gatePassed | exact nofun

/-- A drive that has posted has posted after every step. -/
lemma ConvStep.posted (step : ConvStep env s label s') (h : s.Workers) {x t : Uuid}
    (hp : DriveOf s.drives t x Drive.Posted) : DriveOf s'.drives t x Drive.Posted := by
  obtain ⟨e, he, hx, hposted⟩ := hp
  have hupdate : ∀ {token : Uuid} {d d' : Drive}, s.drives token = some d →
      s'.drives = Function.update s.drives token (some d') → d'.attemptId = d.attemptId →
      (d.Posted → d'.Posted) → DriveOf s'.drives t x Drive.Posted := by
    intro token d d' hd hdrives hattempt hkeep
    rw [hdrives]
    by_cases ht : t = token
    · subst ht
      obtain rfl : d = e := Option.some.inj (hd.symm.trans he)
      exact ⟨d', Function.update_self .., hattempt.trans hx, hkeep hposted⟩
    · exact ⟨e, by rw [Function.update_of_ne ht]; exact he, hx, hposted⟩
  cases step with
  | arm hfresh =>
    refine ⟨e, (Function.update_of_ne ?_ ..).trans he, hx, hposted⟩
    rintro rfl
    rw [hfresh] at he
    cases he
  | move hd hmove =>
    have hc := h.coherent _ _ hd
    exact hupdate hd rfl (hmove.progress hc).1.attemptId (hmove.posted hc)
  | fetch hd => exact hupdate hd rfl rfl fun hp => ⟨hp.1, nofun⟩
  | serveNext hd => exact hupdate hd rfl rfl id
  | @serveDone _ _ _ _ reply _ hd =>
    have hc := h.coherent _ _ hd
    exact hupdate hd rfl (Drive.resume_progress hc reply).1.attemptId
      fun hp => Drive.resume_posted hc hp reply
  | raise hd =>
    have hc := h.coherent _ _ hd
    exact hupdate hd rfl (Drive.raise_progress hc).1.attemptId (Drive.raise_posted hc)
  | crash hd => exact hupdate hd rfl rfl fun hp => ⟨hp.1, nofun⟩
  | _ => exact ⟨e, he, hx, hposted⟩

/-- The log after a step. -/
lemma ConvStep.postLog (step : ConvStep env s label s') (hworkers : s.Workers)
    (hworkers' : s'.Workers) (hprov : s.ProvenanceCommitted) (h : s.PostLog) : s'.PostLog := by
  have hposted : ∀ x t, .fetch x t ∈ s.trace → DriveOf s'.drives t x Drive.Posted :=
    fun x t hmem => step.posted hworkers (h.posted x t hmem)
  rcases step.commit_cases with ⟨-, htrace | ⟨token, d, rfl, hd, hp, htrace⟩⟩ | ⟨-, htrace⟩
  · exact ⟨htrace ▸ h.once, htrace ▸ hposted, htrace ▸ h.before, htrace ▸ h.after⟩
  · have hawaits := (hworkers.coherent token d hd).awaits
    simp only [Drive.Awaits, hp] at hawaits
    obtain ⟨a, ha, htoken, hprovenance, -⟩ :=
      hworkers.rowsOk.passed token d hd (by rw [Drive.Reached, hawaits.1])
    -- An earlier POST for the attempt would have left another token in its row.
    have hfirst : ∀ t, .fetch d.attemptId t ∉ s.trace := by
      intro t hmem
      obtain ⟨e, he, hx, hreached, hnot⟩ := h.posted d.attemptId t hmem
      obtain ⟨b, hb, htoken', -⟩ := hworkers.rowsOk.passed t e he hreached
      obtain rfl : a = b := Option.some.inj (ha.symm.trans (hx ▸ hb))
      obtain rfl : token = t := Option.some.inj (htoken.symm.trans htoken')
      obtain rfl : d = e := Option.some.inj (hd.symm.trans he)
      exact hnot hp
    refine ⟨fun x => ?_, fun x t hmem => ?_, fun newer older x t heq => ?_,
      fun newer older db x t heq hmem => ?_⟩
    · rw [htrace, List.countP_cons]
      by_cases hx : x = d.attemptId
      · subst hx
        have hzero : s.trace.countP (·.posts d.attemptId) = 0 := by
          rw [List.countP_eq_zero]
          intro e he hposts
          cases e with
          | commit => cases hposts
          | fetch y t =>
            simp only [TraceEvent.posts, decide_eq_true_eq] at hposts
            exact hfirst t (hposts ▸ he)
        rw [hzero]
        split <;> omega
      · have hnot : ¬(TraceEvent.fetch d.attemptId token).posts x = true := by
          simpa [TraceEvent.posts] using hx
        rw [if_neg hnot]
        exact h.once x
    · rw [htrace] at hmem
      rcases List.mem_cons.mp hmem with heq | hmem
      · cases heq
        cases step with
        | fetch hd' =>
          obtain rfl := Option.some.inj (hd.symm.trans hd')
          exact ⟨_, Function.update_self .., rfl, by
            rw [Drive.Reached, Drive.goto]
            exact hawaits.1 ▸ le_rfl, (by rintro ⟨⟩)⟩
      · exact hposted x t hmem
    · rw [htrace] at heq
      rcases cons_eq_append_cons heq with ⟨-, hevent, rfl⟩ | ⟨newer', -, heq⟩
      · cases hevent
        obtain ⟨db₀, a₀, hpast, ha₀, hstate, htoken₀, hcredential⟩ :=
          hprov d.attemptId a ha hprovenance
        exact ⟨db₀, a₀, hpast, ha₀, htoken₀.trans htoken, hstate,
          by rwa [AttemptRow.Provenance, hcredential]⟩
      · exact h.before newer' older x t heq
    · rw [htrace] at heq
      rcases cons_eq_append_cons heq with ⟨-, hevent, -⟩ | ⟨newer', -, heq⟩
      · cases hevent
      · exact h.after newer' older db x t heq hmem
  · refine ⟨fun x => ?_, fun x t hmem => ?_, fun newer older x t heq => ?_,
      fun newer older db x t heq hmem => ?_⟩
    · rw [htrace, List.countP_cons]
      simpa [TraceEvent.posts] using h.once x
    · rw [htrace] at hmem
      exact hposted x t ((List.mem_cons.mp hmem).resolve_left (by rintro ⟨⟩))
    · rw [htrace] at heq
      rcases cons_eq_append_cons heq with ⟨-, hevent, -⟩ | ⟨newer', -, heq⟩
      · cases hevent
      · exact h.before newer' older x t heq
    · rw [htrace] at heq
      rcases cons_eq_append_cons heq with ⟨-, hevent, rfl⟩ | ⟨newer', -, heq⟩
      · cases hevent
        obtain ⟨e, he, hx, hreached, -⟩ := hposted x t hmem
        obtain ⟨a, ha, -, hprovenance, -⟩ := hworkers'.rowsOk.passed t e he hreached
        exact ⟨a, hx ▸ ha, hprovenance⟩
      · exact h.after newer' older db x t heq hmem

/-- The log of every reachable state. -/
theorem reachable_postLog (hs : (conversationSystem env).Reachable s) : s.PostLog := by
  refine hs.invariant ?_ ?_
  · rintro _ ⟨orgs, credentials, rfl⟩
    refine ⟨fun x => le_of_eq_of_le rfl zero_le_one, fun x t hmem => ?_,
      fun newer older x t heq => ?_, fun newer older db x t heq hmem => ?_⟩
    · cases List.mem_singleton.mp hmem
    · rcases cons_eq_append_cons heq with ⟨-, hevent, -⟩ | ⟨newer', -, heq⟩
      · cases hevent
      · simp at heq
    · rcases cons_eq_append_cons heq with ⟨-, -, rfl⟩ | ⟨newer', -, heq⟩
      · cases hmem
      · simp at heq
  · intro s label s' hs h step
    exact step.postLog (reachable_workers hs) (reachable_workers (hs.step step))
      (reachable_provenanceCommitted hs) h

/-- **At most one POST.** In every reachable state, at most one POST has been sent for an attempt;
each was preceded by a commit in which the row carried the token of the worker and a credential and
was `dispatching`; and a commit in which the attempt is back in `accepted` after `dispatching` has no
POST before it. -/
theorem at_most_one_post (hs : (conversationSystem env).Reachable s) (x : Uuid) :
    s.trace.countP (·.posts x) ≤ 1 ∧
    (∀ newer older t, s.trace = newer ++ TraceEvent.fetch x t :: older →
      ∃ db a, .commit db ∈ older ∧ db.attempts.lookup x = some a ∧ a.MayPost t) ∧
    (∀ newer older db db' a a', s.trace = newer ++ TraceEvent.commit db' :: older →
      .commit db ∈ older → db.attempts.lookup x = some a → a.state = .dispatching →
      db'.attempts.lookup x = some a' → a'.state = .accepted → ∀ t, .fetch x t ∉ older) := by
  have hlog := reachable_postLog hs
  refine ⟨hlog.once x, fun newer older t heq => hlog.before newer older x t heq, ?_⟩
  intro newer older db db' a a' heq _ _ _ ha' hstate t hmem
  obtain ⟨b, hb, hprov⟩ := hlog.after newer older db' x t heq hmem
  obtain rfl : a' = b := Option.some.inj (ha'.symm.trans hb)
  have hpast : s.Past db' := by
    rw [ConvState.Past, heq]
    exact List.mem_append_right _ (List.mem_cons_self ..)
  exact (((reachable_history hs).shape db' hpast).checks x a' ha').acceptedNoProvenance hstate hprov

/-- The theorem at a run with a POST. -/
theorem at_most_one_post_sample :
    ∃ s, (conversationSystem sampleConvEnv).Reachable s ∧
      s.trace.countP (·.posts (sampleUuid 200)) = 1 := by
  obtain ⟨s, hs, htest⟩ := @samplePlay_reachable' samplePosted
    (fun s => decide (0 < s.trace.countP (·.posts (sampleUuid 200)))) (by decide +kernel)
  have hpos : 0 < s.trace.countP (·.posts (sampleUuid 200)) := by simpa using htest
  exact ⟨s, hs, le_antisymm (at_most_one_post hs _).1 hpos⟩

end GovAI
