import GovAI.Conversation.Outputs

/-!
# What the load transactions read

In every step the tables *advance*: they grow, no item is added to a turn that exists or to an
attempt that is `completed`, and every item keeps its content.  A drive carries along what its load
transaction ensures under such changes (`ConvStep.loads`); first of all, that its execution context
names its attempt.
-/

namespace GovAI

variable {env : ConvEnv} {s s' : ConvState} {label : ConvLabel} {db db' : ConvDb}

/-! ## Advancing tables -/

/-- The tables grow, and the items of the turns that exist and of the attempts that are `completed`
stay the same. -/
structure ConvDb.Advances (db db' : ConvDb) : Prop where
  grows : db.Grows db'
  newItems : ∃ new, db'.items = db.items ++ new ∧ ∀ i ∈ new,
    (i.attemptId = none → i.turnId ∉ db.turns) ∧
    ∀ x a, i.attemptId = some x → db.attempts.lookup x = some a → a.state ≠ .completed

lemma ConvDb.Advances.refl (db : ConvDb) : db.Advances db :=
  ⟨.refl db, [], (List.append_nil _).symm, nofun⟩

lemma ConvDb.Advances.trans {db₁ db₂ db₃ : ConvDb} (h : db₁.Advances db₂) (h' : db₂.Advances db₃) :
    db₁.Advances db₃ := by
  obtain ⟨new, hnew, hold⟩ := h.newItems
  obtain ⟨new', hnew', hold'⟩ := h'.newItems
  refine ⟨h.grows.trans h'.grows, new ++ new', by rw [hnew', hnew, List.append_assoc], ?_⟩
  intro i hi
  rcases List.mem_append.mp hi with hi | hi
  · exact hold i hi
  · refine ⟨fun hnone hmem => (hold' i hi).1 hnone ?_, fun x a hx ha hstate => ?_⟩
    · obtain ⟨t, ht⟩ := Option.isSome_iff_exists.mp (AList.lookup_isSome.mpr hmem)
      exact AList.lookup_isSome.mp (h.grows.turn ht ▸ rfl)
    · exact (hold' i hi).2 x a hx (h.grows.terminal ha (by rw [hstate]; rfl)) hstate

/-- The tables advance in every step. -/
lemma ConvStep.advances (hs : (conversationSystem env).Reachable s)
    (step : ConvStep env s label s') : s.db.Advances s'.db := by
  have hist := reachable_history hs
  refine ⟨step.grows hist, ?_⟩
  rcases step.commit_cases with ⟨hdb, -⟩ | ⟨hcommit, -⟩
  · exact ⟨[], by rw [hdb, List.append_nil], fun _ hi => absurd hi List.not_mem_nil⟩
  · rcases hcommit.items hist with ⟨new, hnew, hturns⟩ | ⟨owner, p, i, hflight, -, hdb⟩
    · refine ⟨new, hnew, fun i hi => ⟨fun _ => (hturns i hi).2, fun x a hx _ => ?_⟩⟩
      rw [(hturns i hi).1] at hx
      cases hx
    · refine ⟨[i], by rw [hdb], fun j hj => ?_⟩
      obtain rfl := List.mem_singleton.mp hj
      obtain ⟨st, seq, db₀, -, hitem⟩ := hist.calls.item owner p j hflight
      simp only [fencedOutputItem, Option.map_eq_some_iff] at hitem
      obtain ⟨a₀, -, rfl⟩ := hitem
      refine ⟨(by rintro ⟨⟩), fun x a hx ha => ?_⟩
      cases hx
      exact ((reachable_stores hs).output_open (reachable_workers hs) hflight rfl).2 a ha

/-- The outputs of a completed attempt are final. -/
lemma ConvDb.Advances.outputs (h : db.Advances db') {x : Uuid} {a : AttemptRow}
    (ha : db.attempts.lookup x = some a) (hstate : a.state = .completed) :
    db'.outputs x = db.outputs x := by
  obtain ⟨new, hnew, hold⟩ := h.newItems
  have hnone : (new.filter fun i => i.attemptId = some x) = [] :=
    List.filter_eq_nil_iff.mpr fun i hi hx => (hold i hi).2 x a (by simpa using hx) ha hstate
  rw [ConvDb.outputs, hnew, List.filter_append, hnone, List.append_nil]
  rfl

/-! ## What a load ensures -/

/-- The value of a program as a value ensures what the program ensures. -/
lemma ReadProgram.Ensures.attempt {D ε ε' α : Type} {R : D → D → Prop} {d : D}
    {Q : D → Except ε' (Except ε α) → Prop} {p : ReadProgram D ε α}
    (h : p.Ensures R (fun d r => Q d (.ok r)) d) : p.attempt.Ensures R Q d := by
  induction p generalizing d with
  | done r => exact h
  | stmt next ih => exact fun d' hd => ih d' (h d' hd)

/-- What holds of a drive if its load transaction ensures `Q`. -/
structure Drive.Loads (R : ConvDb → ConvDb → Prop)
    (Q : ConvDb → Except Empty (Option Loaded) → Prop) (db : ConvDb) (d : Drive) : Prop where
  loading : ∀ rest, d.point = .loading rest → rest.Ensures R Q db
  loaded : ∀ l, d.point = .loaded l → Q db (.ok (some l))
  context : ∀ c, d.context = some c → ∃ l : Loaded, l.inputs.context = c ∧ Q db (.ok (some l))
  request : ∀ r, d.request = some r → Q db (.ok (some ⟨r.inputs, some (.ok r.contextPlan)⟩))

section
variable {R : ConvDb → ConvDb → Prop} {Q : ConvDb → Except Empty (Option Loaded) → Prop}
  {d d' : Drive}

lemma Drive.Loads.later (htrans : ∀ d₁ d₂ d₃, R d₁ d₂ → R d₂ d₃ → R d₁ d₃)
    (hQ : ∀ db db' r, R db db' → Q db r → Q db' r) (h : d.Loads R Q db) (hdb : R db db') :
    d.Loads R Q db' where
  loading rest hp := (h.loading rest hp).later htrans hQ hdb
  loaded l hp := hQ _ _ _ hdb (h.loaded l hp)
  context c hc := by
    obtain ⟨l, hl, hq⟩ := h.context c hc
    exact ⟨l, hl, hQ _ _ _ hdb hq⟩
  request r hr := hQ _ _ _ hdb (h.request r hr)

/-- A drive that is past its load. -/
lemma Drive.Loads.past (h : d.Loads R Q db) (hcontext : d'.context = d.context)
    (hrequest : d'.request = d.request) (hloading : ∀ rest, d'.point ≠ .loading rest)
    (hloaded : ∀ l, d'.point ≠ .loaded l) : d'.Loads R Q db where
  loading rest hp := absurd hp (hloading rest)
  loaded l hp := absurd hp (hloaded l)
  context c hc := h.context c (hcontext ▸ hc)
  request r hr := h.request r (hrequest ▸ hr)

lemma Drive.Loads.finalize (h : d.Loads R Q db) (token : Uuid) (kind : TerminalCall) (state : AttemptState)
    (errorClass : Option AttemptErrorClass) :
    (d.finalize token kind state errorClass).Loads R Q db := by
  rcases d.finalize_cases token kind state errorClass with ⟨context, -, heq⟩ | heq
  · rw [heq]
    exact h.past rfl rfl (fun _ => nofun) (fun _ => nofun)
  · rw [heq]
    exact h.past rfl rfl (fun _ => nofun) (fun _ => nofun)

/-- A move carries on what a load ensures. -/
lemma DriveMove.loads {deps : ExecutorDeps} {token : Uuid} (hmove : DriveMove deps token db d d')
    (hrefl : R db db) (h : d.Loads R Q db) : d'.Loads R Q db := by
  cases hmove with
  | read hp =>
    refine ⟨fun rest hrest => ?_, fun l => nofun, h.context, h.request⟩
    cases hrest
    exact (h.loading _ hp).next hrefl
  | @load l hp =>
    have hl : Q db (.ok (some l)) := h.loading _ hp
    refine ⟨fun rest => nofun, fun l' hl' => ?_, fun c hc => ?_, h.request⟩
    · cases hl'
      exact hl
    · exact ⟨l, Option.some.inj hc, hl⟩
  | @build l _ _ _ _ _ hp _ hplan =>
    refine ⟨fun rest => nofun, fun l => nofun, h.context, fun r hr => ?_⟩
    obtain rfl := Option.some.inj hr
    have hl := h.loaded _ hp
    obtain ⟨inputs, contextPlan⟩ := l
    dsimp only at hplan ⊢
    rwa [hplan] at hl
  | reject | noCredential | blocked | localError | noResponse | evidenceLost | upstreamErrorLost
  | encryptFails | evidenceEmitted | evidenceFails => exact h.finalize ..
  | _ => exact h.past rfl rfl (fun _ => nofun) (fun _ => nofun)

/-- An answer carries on what a load ensures; the answer of the arm starts the load. -/
lemma Drive.resume_loads (token : Uuid) (reply : Bool) (h : d.Loads R Q db)
    (hstart : (d.resume token reply).point = .loading (loadTransaction d.owner d.attemptId) →
      (loadTransaction d.owner d.attemptId).Ensures R Q db) : (d.resume token reply).Loads R Q db := by
  revert hstart
  unfold Drive.resume
  split
  case h_1 =>
    intro hstart
    refine ⟨fun rest hrest => ?_, fun l => nofun, h.context, h.request⟩
    cases hrest
    exact hstart rfl
  case h_6 | h_9 =>
    intro
    exact h.finalize ..
  all_goals
    intro
    exact h.past rfl rfl (fun _ => nofun) (fun _ => nofun)

lemma Drive.raise_loads (token : Uuid) (h : d.Loads R Q db) : (d.raise token).Loads R Q db := by
  unfold Drive.raise
  split
  case h_8 => exact h.past rfl rfl (fun _ => nofun) (fun _ => nofun)
  all_goals exact h.finalize ..

end

/-- What the load of every drive ensures, and what follows from it for the rest of the drive. -/
def ConvState.LoadsEnsure (s : ConvState) (R : ConvDb → ConvDb → Prop)
    (Q : OwnerScope → Uuid → ConvDb → Except Empty (Option Loaded) → Prop) : Prop :=
  ∀ t d, s.drives t = some d → d.Loads R (Q d.owner d.attemptId) s.db

/-- **Loads.** If the tables change by `R` and every load ensures `Q` when it starts, a step carries
on what the loads ensure. -/
theorem ConvStep.loads {R : ConvDb → ConvDb → Prop}
    {Q : OwnerScope → Uuid → ConvDb → Except Empty (Option Loaded) → Prop}
    (htrans : ∀ d₁ d₂ d₃, R d₁ d₂ → R d₂ d₃ → R d₁ d₃)
    (hQ : ∀ owner x db db' r, R db db' → Q owner x db r → Q owner x db' r)
    (step : ConvStep env s label s') (hworkers : s.Workers) (hrefl : R s.db s.db)
    (hR : R s.db s'.db)
    (hstart : ∀ t d, s'.drives t = some d →
      d.point = .loading (loadTransaction d.owner d.attemptId) →
      (loadTransaction d.owner d.attemptId).Ensures R (Q d.owner d.attemptId) s'.db)
    (h : s.LoadsEnsure R Q) : s'.LoadsEnsure R Q := by
  intro t e he
  have hold : ∀ {d}, s.drives t = some d → d.Loads R (Q d.owner d.attemptId) s'.db :=
    fun hd => (h t _ hd).later htrans (hQ _ _) hR
  have hmoved : ∀ {d}, s.drives t = some d → d.Le e → e.Loads R (Q d.owner d.attemptId) s'.db →
      e.Loads R (Q e.owner e.attemptId) s'.db := by
    intro d _ hle hloads
    rw [hle.owner, hle.attemptId]
    exact hloads
  cases step.drive_origin he with
  | kept hd => exact hold hd
  | started _ heq =>
    subst heq
    exact ⟨fun _ => nofun, fun _ => nofun, fun _ => nofun, fun _ => nofun⟩
  | moved hd hmove _ =>
    exact hmoved hd (hmove.progress (hworkers.coherent _ _ hd)).1
      ((hmove.loads hrefl (h _ _ hd)).later htrans (hQ _ _) hR)
  | @fetched d hd hp heq =>
    subst heq
    exact (hold hd).past rfl rfl (fun _ => nofun) (fun _ => nofun)
  | @waiting d _ _ _ hd hcall hnext heq =>
    subst heq
    exact ⟨(hold hd).loading, (hold hd).loaded, (hold hd).context, (hold hd).request⟩
  | @answered d op st reply hd hcall hexec heq =>
    subst heq
    have hle := (Drive.resume_progress (hworkers.coherent _ _ hd) reply).1
    refine hmoved hd hle (Drive.resume_loads t reply (hold hd) fun hp => ?_)
    have hnew := hstart t (d.resume t reply) he (by rw [hle.owner, hle.attemptId]; exact hp)
    rwa [hle.owner, hle.attemptId] at hnew
  | raised hd heq =>
    subst heq
    exact hmoved hd (Drive.raise_progress (hworkers.coherent _ _ hd)).1 (Drive.raise_loads _ (hold hd))
  | @crashed d hd heq =>
    subst heq
    exact (hold hd).past rfl rfl (fun _ => nofun) (fun _ => nofun)

/-! ## The execution context -/

/-- What a load transaction ensures, from what the context plan ensures for the execution context
that it has read first. -/
lemma loadTransaction_ensures {R : ConvDb → ConvDb → Prop}
    {Q : ConvDb → Except Empty (Option Loaded) → Prop} {owner : OwnerScope} {x : Uuid}
    (htrans : ∀ d₁ d₂ d₃, R d₁ d₂ → R d₂ d₃ → R d₁ d₃)
    (hnone : ∀ db', R db db' → Q db' (.ok none))
    (hsome : ∀ db₁ context, R db db₁ → readExecutionContext owner x db₁ = some context →
      ∀ (inputs : RequestInputs) db₂, inputs.context = context → R db₁ db₂ →
        Q db₂ (.ok (some ⟨inputs, none⟩)) ∧
        (contextPlanOf context).Ensures R (fun d r => Q d (.ok (some ⟨inputs, some r⟩))) db₂) :
    (loadTransaction owner x).Ensures R Q db := by
  unfold loadTransaction
  refine .bind (.read fun db₁ h₁ => ?_)
  dsimp only
  split
  · exact .pure (hnone db₁ h₁)
  · next context hcontext =>
    refine .bind (.read fun db₂ h₂ => .bind (.read fun db₃ h₃ => ?_))
    have h₁₃ := htrans _ _ _ h₂ h₃
    dsimp only
    split
    · exact .pure (hsome db₁ context h₁ hcontext _ db₃ rfl h₁₃).1
    · refine .bind (.read fun db₄ h₄ => .bind (.attempt ?_))
      exact (hsome db₁ context h₁ hcontext _ db₄ rfl (htrans _ _ _ h₁₃ h₄)).2

/-- The execution context names the attempt and its turn. -/
def ExecutionContext.Of (c : ExecutionContext) (x : Uuid) (db : ConvDb) : Prop :=
  ∃ a t, db.attempts.lookup x = some a ∧ db.turns.lookup a.turnId = some t ∧ t.conv = a.conv ∧
    t.branchId = a.branchId ∧ c.conv = a.conv ∧ c.branchId = a.branchId ∧ c.turnId = a.turnId ∧
    c.turnSeq = t.turnSeq

lemma ExecutionContext.Of.mono {c : ExecutionContext} {x : Uuid} (h : c.Of x db)
    (hg : db.Grows db') : c.Of x db' := by
  obtain ⟨a, t, ha, ht, htconv, htbranch, hconv, hbranch, hturn, hseq⟩ := h
  obtain ⟨a', ha', hag⟩ := hg.attempts x a ha
  exact ⟨a', t, ha', hag.turnId ▸ hg.turn ht, htconv.trans hag.conv.symm,
    htbranch.trans hag.branchId.symm, hconv.trans hag.conv.symm, hbranch.trans hag.branchId.symm,
    hturn.trans hag.turnId.symm, hseq⟩

lemma readExecutionContext_of {owner : OwnerScope} {x : Uuid} {c : ExecutionContext}
    (h : readExecutionContext owner x db = some c) : c.Of x db := by
  simp only [readExecutionContext, bind, Option.bind_eq_some_iff, Option.filter_eq_some_iff,
    decide_eq_true_eq, pure, Option.some.injEq] at h
  obtain ⟨a, ⟨ha, -⟩, t, ⟨ht, hconv, hbranch⟩, b, -, conv, -, rfl⟩ := h
  exact ⟨a, t, ha, ht, hconv, hbranch, rfl, rfl, rfl, rfl⟩

/-- The loaded context names the attempt. -/
def NamesAttempt (_owner : OwnerScope) (x : Uuid) (db : ConvDb)
    (r : Except Empty (Option Loaded)) : Prop :=
  ∀ l, r = .ok (some l) → l.inputs.context.Of x db

/-- **Execution contexts.** The context that a drive has loaded names its attempt. -/
theorem reachable_contexts (hs : (conversationSystem env).Reachable s) :
    s.LoadsEnsure ConvDb.Grows NamesAttempt := by
  have htrans : ∀ d₁ d₂ d₃ : ConvDb, d₁.Grows d₂ → d₂.Grows d₃ → d₁.Grows d₃ :=
    fun _ _ _ h h' => h.trans h'
  refine hs.invariant (I := fun s => s.LoadsEnsure ConvDb.Grows NamesAttempt) ?_ ?_
  · rintro _ ⟨orgs, credentials, rfl⟩ t d hd
    cases hd
  · intro s label s' hs h step
    refine step.loads htrans (fun _ _ _ _ _ hg hq l hl => (hq l hl).mono hg) (reachable_workers hs)
      (.refl _) (step.grows (reachable_history hs)) (fun t d _ _ => ?_) h
    refine loadTransaction_ensures htrans (fun _ _ l hl => by cases hl) ?_
    intro db₁ context _ hcontext inputs db₂ hinputs h₂
    have hof : ∀ db', db₂.Grows db' → inputs.context.Of d.attemptId db' := fun db' hg =>
      hinputs ▸ (readExecutionContext_of hcontext).mono (h₂.trans hg)
    refine ⟨fun l hl => ?_, .of_always htrans (.refl _) fun db' r hg l hl => ?_⟩
    · cases hl
      exact hof db₂ (.refl _)
    · cases hl
      exact hof db' hg

end GovAI
