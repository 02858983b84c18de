import GovAI.Conversation.Commits

/-!
# The committed states of a run

Which transactions commit in a step, where the rows they write come from, and the history of the
tables: all the states that were ever committed have the right shape, and each has grown into the
current one.
-/

namespace GovAI

variable {env : ConvEnv} {s s' : ConvState} {label : ConvLabel}

/-! ## Commits -/

/-- An operation that is in flight: a drive waits for it, or nobody does any more. -/
def ConvState.InFlight (s : ConvState) (owner : OwnerScope) (op : Op) : Prop :=
  (owner, op) ∈ s.orphans ∨ ∃ token d, s.drives token = some d ∧ d.owner = owner ∧ d.call = some op

/-- The commits of a state. -/
inductive Committed (env : ConvEnv) (s : ConvState) : ConvDb → Prop
  | exec {owner : OwnerScope} {op : Op} {st : Statement} {reply : Bool} {db' : ConvDb}
      (hflight : s.InFlight owner op) (hst : s.Runs owner st)
      (hexec : op.exec env.deps st s.db = .ok (.done reply db')) : Committed env s db'
  | send {n : ℕ} {c : SendCall} {r : Reservation} {db' : ConvDb} (hc : s.sends n = some c)
      (hp : c.point = .reserved r) (hr : r.commit s.db = .ok db') : Committed env s db'
  | fork {n : ℕ} {c : ForkCall} {r : ForkReservation} {db' : ConvDb} (hc : s.forks n = some c)
      (hp : c.point = .reserved r) (hr : r.commit s.db = .ok db') : Committed env s db'
  | external {db' : ConvDb} (h : ExternalWrite s.db db') : Committed env s db'

/-- A step that leaves the tables; it may be a POST. -/
def ConvState.Silent (s : ConvState) (label : ConvLabel) (s' : ConvState) : Prop :=
  s'.db = s.db ∧ (s'.trace = s.trace ∨ ∃ token d, label = .fetch token ∧
    s.drives token = some d ∧ d.point = .gatePassed ∧
    s'.trace = .fetch d.attemptId token :: s.trace)

/-- A step leaves the tables, or it is one commit. -/
theorem ConvStep.commit_cases (h : ConvStep env s label s') :
    s.Silent label s' ∨ Committed env s s'.db ∧ s'.trace = .commit s'.db :: s.trace := by
  cases h with
  | fetch hd hp => exact .inl ⟨rfl, .inr ⟨_, _, rfl, hd, hp, rfl⟩⟩
  | serveDone hd hcall hst hexec => exact .inr ⟨.exec (.inr ⟨_, _, hd, rfl, hcall⟩) hst hexec, rfl⟩
  | orphanDone ho hst hexec =>
    refine .inr ⟨.exec (.inl ?_) hst hexec, rfl⟩
    rw [ho]
    exact List.mem_append_right _ (List.mem_cons_self ..)
  | sendCommit _ hc hp hr => exact .inr ⟨.send hc hp hr, rfl⟩
  | forkCommit _ hc hp hr => exact .inr ⟨.fork hc hp hr, rfl⟩
  | external h => exact .inr ⟨.external h, rfl⟩
  | _ => exact .inl ⟨rfl, .inl rfl⟩

/-- What was committed once stays committed. -/
lemma ConvStep.past (h : ConvStep env s label s') {db : ConvDb} (hpast : s.Past db) :
    s'.Past db := by
  rcases h.commit_cases with ⟨-, htrace | ⟨_, _, -, -, -, htrace⟩⟩ | ⟨-, htrace⟩
  all_goals rw [ConvState.Past, htrace]
  · exact hpast
  · exact List.mem_cons_of_mem _ hpast
  · exact List.mem_cons_of_mem _ hpast

/-- The committed states after a step. -/
lemma ConvStep.past_cases (h : ConvStep env s label s') {db : ConvDb} (hpast : s'.Past db) :
    s.Past db ∨ db = s'.db ∧ Committed env s s'.db := by
  rcases h.commit_cases with ⟨-, htrace | ⟨_, _, -, -, -, htrace⟩⟩ | ⟨hcommit, htrace⟩
  all_goals rw [ConvState.Past, htrace] at hpast
  · exact .inl hpast
  · exact .inl ((List.mem_cons.mp hpast).resolve_left nofun)
  · rcases List.mem_cons.mp hpast with heq | hpast
    · exact .inr ⟨TraceEvent.commit.inj heq, hcommit⟩
    · exact .inl hpast

/-! ## Where the operations in flight come from -/

/-- The operations that a transaction begins with. -/
def Op.Initial : Op → Prop
  | .boundary _ | .provenance .. | .append .. | .commitItem .. => False
  | _ => True

/-- A drive that sends a terminal transition. -/
lemma Drive.finalize_call {d : Drive} {token : Uuid} {kind : TerminalCall} {state : AttemptState}
    {errorClass : Option AttemptErrorClass} {op : Op}
    (h : (d.finalize token kind state errorClass).call = some op) :
    ∃ context ∈ d.context, op = .finalize context d.attemptId token state errorClass := by
  unfold Drive.finalize at h
  split at h
  · next context hcontext => exact ⟨context, hcontext, (Option.some.inj h).symm⟩
  · cases h

/-- The operations that a drive sends begin a transaction. -/
lemma DriveMove.initial {token : Uuid} {db : ConvDb} {d d' : Drive} {deps : ExecutorDeps}
    (h : DriveMove deps token db d d') {op : Op} (hop : d'.call = some op) : op.Initial := by
  cases h with
  | reject | noCredential | blocked | localError | noResponse | evidenceLost | upstreamErrorLost
  | encryptFails | evidenceEmitted | evidenceFails =>
    obtain ⟨_, -, rfl⟩ := Drive.finalize_call hop
    trivial
  | read | load | give | drain | chunk | eofEmpty | fencedOut => cases hop
  | build | enterGate | response | persist | fullChunk | eof | upstreamError =>
    cases hop
    trivial

/-- The operation that a drive sends on an answer begins a transaction. -/
lemma Drive.resume_initial {token : Uuid} {d : Drive} {reply : Bool} {op : Op}
    (hop : (d.resume token reply).call = some op) : op.Initial := by
  unfold Drive.resume at hop
  split at hop
  any_goals cases hop
  all_goals first
    | trivial
    | (obtain ⟨_, -, rfl⟩ := Drive.finalize_call hop; trivial)

/-- The operation that a drive sends on an exception begins a transaction. -/
lemma Drive.raise_initial {token : Uuid} {d : Drive} {op : Op}
    (hop : (d.raise token).call = some op) : op.Initial := by
  unfold Drive.raise at hop
  split at hop
  any_goals cases hop
  all_goals
    obtain ⟨_, -, rfl⟩ := Drive.finalize_call hop
    trivial

/-- The operations in flight after a step that overwrites one drive. -/
lemma ConvState.InFlight.of_update {owner : OwnerScope} {op : Op} (hf : s'.InFlight owner op)
    {token : Uuid} {d' : Drive} (hdrives : s'.drives = Function.update s.drives token (some d'))
    (horphans : (owner, op) ∈ s'.orphans → s.InFlight owner op) :
    s.InFlight owner op ∨ d'.owner = owner ∧ d'.call = some op := by
  rcases hf with ho | ⟨t, d, hd, howner, hcall⟩
  · exact .inl (horphans ho)
  · rw [hdrives] at hd
    by_cases ht : t = token
    · subst ht
      rw [Function.update_self, Option.some.injEq] at hd
      exact .inr (hd ▸ ⟨howner, hcall⟩)
    · rw [Function.update_of_ne ht] at hd
      exact .inl (.inr ⟨t, d, hd, howner, hcall⟩)

/-- The orphans after an exception. -/
lemma ConvState.InFlight.of_raise {token : Uuid} {d : Drive} {op' : Op}
    (hd : s.drives token = some d) (hcall : d.call = some op') {owner : OwnerScope} {op : Op}
    (ho : (owner, op) ∈ (d.owner, op') :: s.orphans) : s.InFlight owner op := by
  rcases List.mem_cons.mp ho with heq | ho
  · cases heq
    exact .inr ⟨token, d, hd, rfl, hcall⟩
  · exact .inl ho

/-- The orphans after the end of a process. -/
lemma ConvState.InFlight.of_crash {token : Uuid} {d : Drive} (hd : s.drives token = some d)
    {owner : OwnerScope} {op : Op}
    (ho : (owner, op) ∈ (d.call.toList.map fun op => (d.owner, op)) ++ s.orphans) :
    s.InFlight owner op := by
  rcases List.mem_append.mp ho with ho | ho
  · obtain ⟨op', hop', heq⟩ := List.mem_map.mp ho
    cases heq
    exact .inr ⟨token, d, hd, rfl, Option.mem_toList.mp hop'⟩
  · exact .inl ho

/-- The orphans without one of them. -/
lemma mem_orphans_of_removed {s : ConvState} {before after : List (OwnerScope × Op)}
    {o o' : OwnerScope × Op} (ho : s.orphans = before ++ o :: after) (h : o' ∈ before ++ after) :
    o' ∈ s.orphans := by
  rw [ho]
  rcases List.mem_append.mp h with h | h
  · exact List.mem_append_left _ h
  · exact List.mem_append_right _ (List.mem_cons_of_mem _ h)

/-- The orphans with one of them replaced. -/
lemma mem_orphans_of_replaced {s : ConvState} {before after : List (OwnerScope × Op)}
    {o o' o'' : OwnerScope × Op} (ho : s.orphans = before ++ o :: after)
    (h : o'' ∈ before ++ o' :: after) : o'' = o' ∨ o'' ∈ s.orphans := by
  rcases List.mem_append.mp h with h | h
  · exact .inr (ho ▸ List.mem_append_left _ h)
  · rcases List.mem_cons.mp h with rfl | h
    · exact .inl rfl
    · exact .inr (ho ▸ List.mem_append_right _ (List.mem_cons_of_mem _ h))

/-- Where an operation in flight after a step comes from: it was in flight, it begins a transaction,
or it follows another one in its transaction. -/
theorem ConvStep.flight (h : ConvStep env s label s') {owner : OwnerScope} {op : Op}
    (hf : s'.InFlight owner op) : s.InFlight owner op ∨ op.Initial ∨
      ∃ op₀ st, s.InFlight owner op₀ ∧ s.Runs owner st ∧
        op₀.exec env.deps st s.db = .ok (.next op) := by
  cases h with
  | arm hfresh hop =>
    rcases hf.of_update (s := s) rfl .inl with hold | ⟨-, hcall⟩
    · exact .inl hold
    · cases hcall
      exact .inr (.inl (by cases op <;> trivial))
  | move hd hmove =>
    rcases hf.of_update (s := s) rfl .inl with hold | ⟨-, hcall⟩
    · exact .inl hold
    · exact .inr (.inl (hmove.initial hcall))
  | fetch hd hp =>
    rcases hf.of_update (s := s) rfl .inl with hold | ⟨-, hcall⟩
    · exact .inl hold
    · cases hcall
  | serveNext hd hcall hst hexec =>
    rcases hf.of_update (s := s) rfl .inl with hold | ⟨howner, hcall'⟩
    · exact .inl hold
    · cases hcall'
      exact .inr (.inr ⟨_, _, .inr ⟨_, _, hd, howner, hcall⟩, howner ▸ hst, hexec⟩)
  | serveDone hd hcall hst hexec =>
    rcases hf.of_update (s := s) rfl .inl with hold | ⟨-, hcall'⟩
    · exact .inl hold
    · exact .inr (.inl (Drive.resume_initial hcall'))
  | raise hd hcall =>
    rcases hf.of_update (s := s) rfl (.of_raise hd hcall) with hold | ⟨-, hcall'⟩
    · exact .inl hold
    · exact .inr (.inl (Drive.raise_initial hcall'))
  | crash hd =>
    rcases hf.of_update (s := s) rfl (.of_crash hd) with hold | ⟨-, hcall'⟩
    · exact .inl hold
    · cases hcall'
  | spawn hop =>
    rcases hf with ho | hd
    · rcases List.mem_cons.mp ho with heq | ho
      · cases heq
        exact .inr (.inl (by cases op <;> trivial))
      · exact .inl (.inl ho)
    · exact .inl (.inr hd)
  | orphanNext ho hst hexec =>
    rcases hf with ho' | hd
    · rcases mem_orphans_of_replaced ho ho' with heq | hmem
      · cases heq
        refine .inr (.inr ⟨_, _, .inl ?_, hst, hexec⟩)
        rw [ho]
        exact List.mem_append_right _ (List.mem_cons_self ..)
      · exact .inl (.inl hmem)
    · exact .inl (.inr hd)
  | orphanDone ho | orphanLost ho =>
    rcases hf with ho' | hd
    · exact .inl (.inl (mem_orphans_of_removed ho ho'))
    · exact .inl (.inr hd)
  | _ => exact .inl hf

/-! ## The rows that a call writes -/

/-- A send has encrypted its request as `content`. -/
structure SendCall.Prepared (env : ConvEnv) (c : SendCall) (content : ContentRow) : Prop where
  conv : content.conv = c.conv
  active : content.status = .active
  size : (nativeRequestBytes c.input.nativeRequest).length ≤ nativeRequestMaxBytes
  decrypts : env.decrypt c.conv.orgId ⟨content.toContentEnvelope, content.status⟩ =
    some (nativeRequestBytes c.input.nativeRequest)

/-- What the calls are about to write comes from committed states. -/
structure ConvState.CallsPast (env : ConvEnv) (s : ConvState) : Prop where
  prepared : ∀ n c content, s.sends n = some c →
    c.point = .prepared content ∨ c.point = .locked content → c.Prepared env content
  send : ∀ n c r, s.sends n = some c → c.point = .reserved r →
    ∃ content ids now db₀, s.Past db₀ ∧ c.Prepared env content ∧
      reserveTurn c.conv c.input content ids now db₀ = .reserved r
  fork : ∀ n c r, s.forks n = some c → c.point = .reserved r →
    ∃ ids now db₀, s.Past db₀ ∧ reserveFork env.sha256 c.conv c.input ids now db₀ = .reserved r
  item : ∀ owner p i, s.InFlight owner (.commitItem p i) → ∃ st seq db₀, s.Past db₀ ∧
    fencedOutputItem st p.attemptId p.claimToken seq p.itemType p.contentId db₀ = some i

/-- A call after the update of one of the calls. -/
lemma update_call_cases {γ : Type} {calls : ℕ → Option γ} {n m : ℕ} {c c' : γ}
    (h : Function.update calls n (some c) m = some c') : m = n ∧ c' = c ∨ calls m = some c' := by
  rw [Function.update_apply] at h
  split at h
  · next hm => exact .inl ⟨hm, (Option.some.inj h).symm⟩
  · exact .inr h

/-- A send that holds an encrypted request after a step. -/
lemma ConvStep.prepared (h : ConvStep env s label s') (hp : s.CallsPast env) {n : ℕ} {c : SendCall}
    {content : ContentRow} (hc : s'.sends n = some c)
    (hpoint : c.point = .prepared content ∨ c.point = .locked content) : c.Prepared env content := by
  cases h with
  | sendStart hfresh hconv hactive hsize henc =>
    rcases update_call_cases hc with ⟨-, rfl⟩ | hc
    · simp only [SendPoint.prepared.injEq, reduceCtorEq, or_false] at hpoint
      exact hpoint ▸ ⟨hconv, hactive, hsize, henc⟩
    · exact hp.prepared n c content hc hpoint
  | sendLock hc' hp' =>
    rcases update_call_cases hc with ⟨-, rfl⟩ | hc
    · simp only [SendPoint.locked.injEq, reduceCtorEq, false_or] at hpoint
      obtain ⟨hconv, hactive, hsize, henc⟩ := hp.prepared _ _ _ hc' (.inl hp')
      exact hpoint ▸ ⟨hconv, hactive, hsize, henc⟩
    · exact hp.prepared n c content hc hpoint
  | sendTooLarge | sendReserve | sendRefuse | sendLose | sendRollback | sendRead | sendAnswer
  | sendFail =>
    rcases update_call_cases hc with ⟨-, rfl⟩ | hc
    · simp at hpoint
    · exact hp.prepared n c content hc hpoint
  | sendCommit acknowledged =>
    rcases update_call_cases hc with ⟨-, rfl⟩ | hc
    · cases acknowledged <;> simp at hpoint
    · exact hp.prepared n c content hc hpoint
  | _ => exact hp.prepared n c content hc hpoint

/-- A send that is about to commit after a step. -/
lemma ConvStep.sendReserved (h : ConvStep env s label s') (hp : s.CallsPast env)
    (hcurrent : s.Past s.db) {n : ℕ} {c : SendCall} {r : Reservation} (hc : s'.sends n = some c)
    (hpoint : c.point = .reserved r) : ∃ content ids now db₀, s.Past db₀ ∧ c.Prepared env content ∧
      reserveTurn c.conv c.input content ids now db₀ = .reserved r := by
  cases h with
  | sendReserve hc' hp' hr =>
    rcases update_call_cases hc with ⟨-, rfl⟩ | hc
    · obtain ⟨hconv, hactive, hsize, henc⟩ := hp.prepared _ _ _ hc' (.inr hp')
      cases hpoint
      exact ⟨_, _, _, s.db, hcurrent, ⟨hconv, hactive, hsize, henc⟩, hr⟩
    · exact hp.send n c r hc hpoint
  | sendStart | sendTooLarge | sendLock | sendRefuse | sendLose | sendRollback | sendRead
  | sendAnswer | sendFail =>
    rcases update_call_cases hc with ⟨-, rfl⟩ | hc
    · simp at hpoint
    · exact hp.send n c r hc hpoint
  | sendCommit acknowledged =>
    rcases update_call_cases hc with ⟨-, rfl⟩ | hc
    · cases acknowledged <;> simp at hpoint
    · exact hp.send n c r hc hpoint
  | _ => exact hp.send n c r hc hpoint

/-- A fork that is about to commit after a step. -/
lemma ConvStep.forkReserved (h : ConvStep env s label s') (hp : s.CallsPast env)
    (hcurrent : s.Past s.db) {n : ℕ} {c : ForkCall} {r : ForkReservation} (hc : s'.forks n = some c)
    (hpoint : c.point = .reserved r) : ∃ ids now db₀, s.Past db₀ ∧
      reserveFork env.sha256 c.conv c.input ids now db₀ = .reserved r := by
  cases h with
  | forkReserve hc' hp' hr =>
    rcases update_call_cases hc with ⟨-, rfl⟩ | hc
    · cases hpoint
      exact ⟨_, _, s.db, hcurrent, hr⟩
    · exact hp.fork n c r hc hpoint
  | forkStart | forkLock | forkRefuse | forkLose | forkRollback | forkRead | forkAnswer | forkFail =>
    rcases update_call_cases hc with ⟨-, rfl⟩ | hc
    · simp at hpoint
    · exact hp.fork n c r hc hpoint
  | forkCommit acknowledged =>
    rcases update_call_cases hc with ⟨-, rfl⟩ | hc
    · cases acknowledged <;> simp at hpoint
    · exact hp.fork n c r hc hpoint
  | _ => exact hp.fork n c r hc hpoint

/-- The rows that the calls are about to write still come from committed states after a step. -/
lemma ConvStep.callsPast (h : ConvStep env s label s') (hp : s.CallsPast env)
    (hcurrent : s.Past s.db) : s'.CallsPast env where
  prepared _ _ _ hc hpoint := h.prepared hp hc hpoint
  send n c r hc hpoint := by
    obtain ⟨content, ids, now, db₀, hpast, hrest⟩ := h.sendReserved hp hcurrent hc hpoint
    exact ⟨content, ids, now, db₀, h.past hpast, hrest⟩
  fork n c r hc hpoint := by
    obtain ⟨ids, now, db₀, hpast, hrest⟩ := h.forkReserved hp hcurrent hc hpoint
    exact ⟨ids, now, db₀, h.past hpast, hrest⟩
  item owner p i hf := by
    rcases h.flight hf with hold | hinitial | ⟨op₀, st, -, -, hexec⟩
    · obtain ⟨st, seq, db₀, hpast, hitem⟩ := hp.item owner p i hold
      exact ⟨st, seq, db₀, h.past hpast, hitem⟩
    · exact hinitial.elim
    · cases Op.exec_next hexec with
      | append hitem => exact ⟨st, _, s.db, h.past hcurrent, hitem⟩

/-! ## The history -/

/-- What holds of the committed states of a run. -/
structure ConvState.History (env : ConvEnv) (s : ConvState) : Prop where
  current : s.Past s.db
  calls : s.CallsPast env
  shape : ∀ db, s.Past db → db.Shape
  grows : ∀ db, s.Past db → db.Grows s.db
  settled : ∀ db, s.Past db → db.ClaimsSettled

/-- An item that a statement has fenced in an earlier state belongs to an attempt of the current
one. -/
lemma fencedOutputItem_owned {st : Statement} {x token contentId : Uuid} {seq : ℕ}
    {itemType : ConversationItemType} {db₀ db : ConvDb} {i : ItemRow} (hg : db₀.Grows db)
    (h : fencedOutputItem st x token seq itemType contentId db₀ = some i) :
    ∃ y a, i.attemptId = some y ∧ db.attempts.lookup y = some a ∧ a.conv = i.conv ∧
      a.branchId = i.branchId ∧ a.turnId = i.turnId := by
  simp only [fencedOutputItem, Option.map_eq_some_iff, Option.filter_eq_some_iff] at h
  obtain ⟨a, ⟨ha, -⟩, rfl⟩ := h
  obtain ⟨a', ha', hag⟩ := hg.attempts x a ha
  exact ⟨x, a', rfl, ha', hag.conv, hag.branchId, hag.turnId⟩

/-- The commit of a send mints its turn. -/
lemma ConvState.History.send_minted (hist : s.History env) {n : ℕ} {c : SendCall} {r : Reservation}
    {db' : ConvDb} (hc : s.sends n = some c) (hp : c.point = .reserved r)
    (hr : r.commit s.db = .ok db') :
    Minted s.db db' r.ids.turnId r.ids.attemptId r.turn r.now := by
  obtain ⟨content, ids, now, db₀, hpast, -, hreserve⟩ := hist.calls.send n c r hc hp
  obtain ⟨-, rfl⟩ := reserveTurn_eq_reserved hreserve
  refine Reservation.commit_minted hr fun k hk hlt => ?_
  obtain ⟨y, u, hu, hrest⟩ := exists_turn_of_lt_nextTurnSeq (hist.shape db₀ hpast) hk hlt
  exact ⟨y, u, (hist.grows db₀ hpast).turn hu, hrest⟩

/-- The commit of a fork. -/
lemma ConvState.History.fork_committed (hist : s.History env) {n : ℕ} {c : ForkCall}
    {r : ForkReservation} {db' : ConvDb} (hc : s.forks n = some c) (hp : c.point = .reserved r)
    (hr : r.commit s.db = .ok db') : ForkCommitted r s.db db' := by
  obtain ⟨ids, now, db₀, hpast, hreserve⟩ := hist.calls.fork n c r hc hp
  obtain ⟨parent, hreserved⟩ := reserveFork_eq_reserved hreserve
  exact ForkReservation.commit_eq_ok hreserved hr

/-- Every commit is a sequence of primitive steps. -/
theorem Committed.steps {db' : ConvDb} (h : Committed env s db') (hist : s.History env) :
    DbSteps s.Past s.db db' := by
  have hshape := hist.shape s.db hist.current
  cases h with
  | exec hflight hst hexec =>
    cases Op.exec_done hexec with
    | idle => exact .refl
    | write hwrite hseen hrow hcheck hdb =>
      refine .single (.attempt hrow (hwrite.grows (hshape.checks _ _ hrow))
        hcheck (fun _ => hwrite.claimed) (fun _ => ?_)
        (hdb.imp_right fun ⟨conv, branchId, h⟩ => ⟨_, conv, branchId, h⟩))
      exact hwrite.firstClaim.imp_right fun hhead => ⟨_, hst.snapshot, ⟨_, hseen⟩, hhead⟩
    | item hnew hslot hdb =>
      obtain ⟨st, seq, db₀, hpast, hitem⟩ := hist.calls.item _ _ _ hflight
      rw [hdb]
      exact .single (.item hnew hslot (fencedOutputItem_owned (hist.grows db₀ hpast) hitem))
  | send hc hp hr => exact .single (.mint (hist.send_minted hc hp hr))
  | fork hc hp hr => exact (hist.fork_committed hc hp hr).steps
  | external h =>
    cases h with
    | tables orgs credentials => exact .single (.tables orgs credentials s.db.conversations)
    | create h => exact createConversation_steps h
    | patch status hc hold hnew => exact .single (.tables s.db.orgs s.db.credentials _)
    | @requestStop x a ha hstate hcheck =>
      have hgrows : a.Grows { a with stopRequested := true } :=
        ⟨rfl, rfl, rfl, rfl, rfl, fun hf => absurd (hstate.symm.trans hf) nofun,
          fun _ => ⟨rfl, rfl⟩, id⟩
      exact .single (.attempt ha hgrows hcheck (hshape.claimed x a ha)
        .inl (.inl rfl))

/-- The tables before the first conversation are well shaped. -/
lemma ConvDb.initial_shape (orgs : Table TenantFacts) (credentials : Table CredentialRow) :
    (ConvDb.initial orgs credentials).Shape := by
  constructor <;> intros <;> first | contradiction | skip
  · exact List.Pairwise.nil

/-- No call is about to write before the first step. -/
lemma ConvState.initial_callsPast (orgs : Table TenantFacts) (credentials : Table CredentialRow) :
    (ConvState.initial orgs credentials).CallsPast env := by
  constructor
  · intro n c content hc
    cases hc
  · intro n c r hc
    cases hc
  · intro n c r hc
    cases hc
  · rintro owner p i (ho | ⟨token, d, hd, -⟩)
    · cases ho
    · cases hd

/-- **History.** In every reachable state the committed states are well shaped, have grown into the
current one, and keep the turns below every claimed attempt settled. -/
theorem reachable_history (hs : (conversationSystem env).Reachable s) : s.History env := by
  refine hs.invariant ?_ ?_
  · rintro _ ⟨orgs, credentials, rfl⟩
    have hpast : ∀ db, (ConvState.initial orgs credentials).Past db →
        db = .initial orgs credentials := fun db hdb => by
      have := List.mem_singleton.mp hdb
      exact TraceEvent.commit.inj this
    refine ⟨List.mem_singleton.mpr rfl, ConvState.initial_callsPast orgs credentials, ?_, ?_, ?_⟩
    · intro db hdb
      rw [hpast db hdb]
      exact ConvDb.initial_shape orgs credentials
    · intro db hdb
      rw [hpast db hdb]
      exact .refl _
    · intro db hdb
      rw [hpast db hdb]
      intro x a t ha
      cases ha
  · intro s label s' _ hist step
    have hcalls := step.callsPast hist.calls hist.current
    have hgrow : s.db.Grows s'.db := by
      rcases step.commit_cases with ⟨hdb, -⟩ | ⟨hcommit, -⟩
      · exact hdb ▸ .refl _
      · exact (hcommit.steps hist).grows
    refine ⟨?_, hcalls, ?_, ?_, ?_⟩
    · rcases step.commit_cases with ⟨hdb, -⟩ | ⟨-, htrace⟩
      · exact hdb ▸ step.past hist.current
      · rw [ConvState.Past, htrace]
        exact List.mem_cons_self ..
    · intro db hdb
      rcases step.past_cases hdb with hold | ⟨rfl, hcommit⟩
      · exact hist.shape db hold
      · exact (hcommit.steps hist).shape (hist.shape _ hist.current)
    · intro db hdb
      rcases step.past_cases hdb with hold | ⟨rfl, -⟩
      · exact (hist.grows db hold).trans hgrow
      · exact .refl _
    · intro db hdb
      rcases step.past_cases hdb with hold | ⟨rfl, hcommit⟩
      · exact hist.settled db hold
      · exact (hcommit.steps hist).claimsSettled
          (fun db₀ hdb₀ => ⟨hist.shape db₀ hdb₀, hist.grows db₀ hdb₀⟩)
          (hist.shape _ hist.current) (hist.settled _ hist.current)

/-- The tables only grow in a step. -/
lemma ConvStep.grows (hist : s.History env) (h : ConvStep env s label s') : s.db.Grows s'.db := by
  rcases h.commit_cases with ⟨hdb, -⟩ | ⟨hcommit, -⟩
  · exact hdb ▸ .refl _
  · exact (hcommit.steps hist).grows

/-- **Growth.** The tables only grow along a run. -/
theorem Run.conversation_grows (hs : (conversationSystem env).Reachable s) {labels : List ConvLabel}
    (hrun : (conversationSystem env).Run s labels s') : s.db.Grows s'.db := by
  refine hrun.relates (R := fun s s' => s.db.Grows s'.db) (fun s => .refl s.db)
    (fun _ _ _ h h' => h.trans h') ?_ hs
  intro s label s' hs step
  exact step.grows (reachable_history hs)

end GovAI
