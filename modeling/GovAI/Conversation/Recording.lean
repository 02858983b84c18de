import GovAI.Conversation.Loads

/-!
# What a completed attempt has stored

What the drive of an attempt has stored when it comes to each of its program points
(`Drive.Recorded`), and with it what is stored when an attempt becomes `completed`: one whole response,
or the chunks of a stream.  The writer does not look at what it has stored; a stream that ends
normally without having delivered a byte is flushed nowhere.  The results are about runs in which a
provider that answers with success delivers something (`deliveringSystem`).
-/

namespace GovAI

variable {env : ConvEnv} {s s' : ConvState} {label : ConvLabel} {db db' : ConvDb}

/-! ## The shape of an output -/

/-- The items are chunks of a stream. -/
def Chunks (outputs : List ItemRow) : Prop := ∀ i ∈ outputs, i.itemType = .nativeStreamChunk

/-- An output from which a later turn can be built: one response, or at least one chunk. -/
def ReplayableOutput (outputs : List ItemRow) : Prop :=
  outputs.map (·.itemType) = [.nativeResponse] ∨ outputs ≠ [] ∧ Chunks outputs

/-- The outputs of the completed attempts can be replayed. -/
def ConvDb.Replayable (db : ConvDb) : Prop :=
  ∀ x a, db.attempts.lookup x = some a → a.state = .completed → ReplayableOutput (db.outputs x)

lemma Chunks.append {outputs : List ItemRow} {i : ItemRow} (h : Chunks outputs)
    (hi : i.itemType = .nativeStreamChunk) : Chunks (outputs ++ [i]) := by
  intro j hj
  rcases List.mem_append.mp hj with hj | hj
  · exact h j hj
  · exact List.mem_singleton.mp hj ▸ hi

/-! ## What a drive has stored -/

/-- What is stored for an attempt when its drive comes to a program point. -/
def Drive.Recorded (d : Drive) (outputs : List ItemRow) : Prop :=
  match d.point with
  | .recording _ => outputs = [] ∧ d.received = 0
  | .persisting _ => outputs = []
  | .draining _ buffer => Chunks outputs ∧ (d.received ≠ 0 → outputs ≠ [] ∨ buffer ≠ [])
  | .flushing .. => Chunks outputs
  | .evidence status => Chunks outputs ∧ ((classifyStatus status).1 = .completed → outputs ≠ [])
  | _ => True

lemma Drive.Recorded.of_ended {d : Drive} (h : d.Ended) (outputs : List ItemRow) :
    d.Recorded outputs := by
  unfold Drive.Recorded
  rcases h with ⟨kind, hp⟩ | hp | hp <;> rw [hp] <;> trivial

/-- Before its response a drive has stored nothing. -/
lemma Drive.Coherent.recorded {token : Uuid} {d : Drive} (hc : d.Coherent token)
    (h : ¬d.Reached .streaming) (outputs : List ItemRow) : d.Recorded outputs := by
  have hawaits := hc.awaits
  have hstage : d.stage ≠ .streaming := fun hs => h (by rw [Drive.Reached, hs])
  unfold Drive.Awaits at hawaits
  unfold Drive.Recorded
  split at hawaits
  case h_10 | h_11 | h_12 | h_14 | h_15 => exact absurd hawaits.1 hstage
  all_goals simp only [*]

/-- At most one drive of an attempt passes the gate. -/
lemma RowsOk.unique {drives : Uuid → Option Drive} (h : RowsOk drives db) {x t t' : Uuid}
    (hd : DriveOf drives t x fun d => d.Reached .gatePassed)
    (hd' : DriveOf drives t' x fun d => d.Reached .gatePassed) : t = t' := by
  obtain ⟨d, hd, rfl, hreached⟩ := hd
  obtain ⟨d', hd', hx, hreached'⟩ := hd'
  obtain ⟨a, ha, htoken, -⟩ := h.passed t d hd hreached
  obtain ⟨a', ha', htoken', -⟩ := h.passed t' d' hd' hreached'
  obtain rfl : a = a' := Option.some.inj (ha.symm.trans (hx ▸ ha'))
  exact Option.some.inj (htoken.symm.trans htoken')

/-- The drive whose output is in flight has come to stream. -/
lemma ConvState.Workers.output_drive (h : s.Workers) {owner : OwnerScope} {op : Op} {p : OutputArgs}
    (hflight : s.InFlight owner op) (hp : op.output = some p) :
    DriveOf s.drives p.claimToken p.attemptId fun d => d.Reached .streaming := by
  have hlegal := h.legal owner op hflight
  cases op <;> cases hp <;> exact hlegal

lemma DriveOf.passed {drives : Uuid → Option Drive} {t x : Uuid}
    (h : DriveOf drives t x fun d => d.Reached .streaming) :
    DriveOf drives t x fun d => d.Reached .gatePassed := by
  obtain ⟨d, hd, hx, hreached⟩ := h
  exact ⟨d, hd, hx, le_trans (by decide) hreached⟩

/-- The outputs with one more item, which is in flight. -/
lemma outputs_of_item (hist : s.History env) {owner : OwnerScope} {p : OutputArgs} {i : ItemRow}
    (hflight : s.InFlight owner (.commitItem p i)) (hitems : db'.items = s.db.items ++ [i])
    (x : Uuid) : i.itemType = p.itemType ∧
      db'.outputs x = if p.attemptId = x then s.db.outputs x ++ [i] else s.db.outputs x := by
  obtain ⟨st, seq, db₀, -, hitem⟩ := hist.calls.item owner p i hflight
  simp only [fencedOutputItem, Option.map_eq_some_iff] at hitem
  obtain ⟨a, -, rfl⟩ := hitem
  refine ⟨rfl, ?_⟩
  rw [ConvDb.outputs, hitems, List.filter_append]
  by_cases hx : p.attemptId = x <;> simp [hx, ConvDb.outputs]

/-- What a statement of a transaction does to the outputs of an attempt. -/
lemma ExecOutcome.outputs {deps : ExecutorDeps} {st : Statement} {op : Op} {reply : Bool}
    (hist : s.History env) {owner : OwnerScope} (hflight : s.InFlight owner op)
    (hout : ExecOutcome deps st s.db op reply db') (x : Uuid) :
    db'.outputs x = s.db.outputs x ∨ ∃ p i, op = .commitItem p i ∧ p.attemptId = x ∧
      db'.outputs x = s.db.outputs x ++ [i] := by
  cases hout with
  | idle => exact .inl rfl
  | write _ _ _ _ hdb =>
    rcases hdb with rfl | ⟨conv, branchId, rfl⟩
    · exact .inl rfl
    · exact .inl (by rw [ConvDb.outputs, bumpBranchCausalVersion_items]; rfl)
  | @item p i _ _ _ hdb =>
    have houtputs := (outputs_of_item hist hflight (congrArg ConvDb.items hdb) x).2
    split at houtputs
    · next hx => exact .inr ⟨p, i, rfl, hx, houtputs⟩
    · exact .inl houtputs

/-- New input items leave the outputs. -/
lemma ConvDb.outputs_of_inputs {new : List ItemRow} (hitems : db'.items = db.items ++ new)
    (hnew : ∀ i ∈ new, i.attemptId = none) (x : Uuid) : db'.outputs x = db.outputs x := by
  have hnone : (new.filter fun i => i.attemptId = some x) = [] :=
    List.filter_eq_nil_iff.mpr fun i hi => by simp [hnew i hi]
  rw [ConvDb.outputs, hitems, List.filter_append, hnone, List.append_nil]
  rfl

lemma Minted.outputs {turnId attemptId : Uuid} {t : TurnRow} {now : ℤ}
    (m : Minted db db' turnId attemptId t now) (x : Uuid) : db'.outputs x = db.outputs x := by
  obtain ⟨new, hitems, hnew⟩ := m.items
  exact ConvDb.outputs_of_inputs hitems (fun i hi => (hnew i hi).2.2.2) x

lemma ForkCommitted.outputs {r : ForkReservation} (h : ForkCommitted r db db') (x : Uuid) :
    db'.outputs x = db.outputs x := by
  rcases h.child with ⟨-, rfl⟩ | ⟨child, -, m⟩
  · rfl
  · exact m.outputs x

lemma ExternalWrite.outputs (h : ExternalWrite db db') (x : Uuid) :
    db'.outputs x = db.outputs x := by
  cases h with
  | create h =>
    simp only [createConversation, except_bind_eq_ok_iff, rejectIf_eq_ok_iff, exists_and_left,
      exists_const] at h
    obtain ⟨-, -, rfl⟩ := insertBranch_eq_ok h.2.2.2
    rfl
  | _ => rfl

/-! ## Moves and answers -/

/-- The end of a stream on which a provider that answers with success has delivered nothing. -/
def EmptyStreamEnd (s : ConvState) (label : ConvLabel) : Prop :=
  ∃ token d d' status, label = .move token d' ∧ s.drives token = some d ∧
    d.point = .draining status [] ∧ d'.point = .evidence status ∧ d.received = 0 ∧
    (classifyStatus status).1 = .completed

/-- The conversation system with providers that deliver something when they answer with success. -/
def deliveringSystem (env : ConvEnv) : TransitionSystem ConvState ConvLabel :=
  (conversationSystem env).restrict fun s label => ¬EmptyStreamEnd s label

lemma Drive.Recorded.finalize {d : Drive} {outputs : List ItemRow} (token : Uuid) (kind : TerminalCall)
    (state : AttemptState) (errorClass : Option AttemptErrorClass) :
    (d.finalize token kind state errorClass).Recorded outputs :=
  .of_ended (d.finalize_ended ..) outputs

/-- A move keeps what is recorded, unless it is the end of an empty stream. -/
lemma DriveMove.recorded {deps : ExecutorDeps} {token : Uuid} {d d' : Drive}
    (h : DriveMove deps token db d d') {outputs : List ItemRow} (hd : d.Recorded outputs)
    (hempty : ∀ status, d.point = .draining status [] → d'.point = .evidence status →
      d.received = 0 → (classifyStatus status).1 ≠ .completed) : d'.Recorded outputs := by
  unfold Drive.Recorded at hd
  cases h with
  | persist hp =>
    rw [hp] at hd
    exact hd.1
  | drain hp =>
    rw [hp] at hd
    refine ⟨?_, fun hne => absurd hd.2 hne⟩
    rw [hd.1]
    exact fun _ => nofun
  | @chunk _ buffer bytes hp =>
    rw [hp] at hd
    refine ⟨hd.1, fun hne => ?_⟩
    dsimp only at hne
    by_cases hbytes : bytes = []
    · subst hbytes
      rw [List.append_nil]
      exact hd.2 hne
    · exact .inr fun h => hbytes (List.append_eq_nil_iff.mp h).2
  | fullChunk hp | eof hp | upstreamError hp =>
    rw [hp] at hd
    exact hd.1
  | eofEmpty hp =>
    have hpoint := hp
    rw [hp] at hd
    refine ⟨hd.1, fun hcompleted => (hd.2 fun hzero => ?_).resolve_right (fun h => h rfl)⟩
    exact hempty _ hpoint rfl hzero hcompleted
  | reject | noCredential | blocked | localError | noResponse | evidenceLost | upstreamErrorLost
  | encryptFails | evidenceEmitted | evidenceFails => exact .finalize ..
  | _ => trivial

lemma Drive.finalize_received (d : Drive) (token : Uuid) (kind : TerminalCall) (state : AttemptState)
    (errorClass : Option AttemptErrorClass) :
    (d.finalize token kind state errorClass).received = d.received := by
  rcases d.finalize_cases token kind state errorClass with ⟨_, -, h⟩ | h <;> rw [h] <;> rfl

lemma Drive.resume_received (token : Uuid) (d : Drive) (reply : Bool) :
    (d.resume token reply).received = d.received := by
  unfold Drive.resume
  split <;> first | exact d.finalize_received .. | rfl

lemma Drive.raise_received (token : Uuid) (d : Drive) : (d.raise token).received = d.received := by
  unfold Drive.raise
  split <;> first | exact d.finalize_received .. | rfl

/-- The bytes of a stream are counted while it is drained. -/
lemma DriveMove.received {deps : ExecutorDeps} {token : Uuid} {d d' : Drive}
    (h : DriveMove deps token db d d') (hc : d.Coherent token) :
    d'.received = d.received ∨ d'.Reached .streaming := by
  have hawaits := hc.awaits
  cases h with
  | chunk hp | fullChunk hp =>
    simp only [Drive.Awaits, hp] at hawaits
    right
    change Stage.streaming.rank ≤ d.stage.rank
    rw [hawaits.1]
  | reject | noCredential | blocked | localError | noResponse | evidenceLost | upstreamErrorLost
  | encryptFails | evidenceEmitted | evidenceFails => exact .inl (d.finalize_received ..)
  | _ => exact .inl rfl

/-- A drive sends the transition to `completed` on its own after the evidence of a stream. -/
lemma DriveMove.completing {deps : ExecutorDeps} {token : Uuid} {d d' : Drive}
    (h : DriveMove deps token db d d') {context : ExecutionContext} {x t : Uuid}
    {errorClass : Option AttemptErrorClass}
    (hcall : d'.call = some (.finalize context x t .completed errorClass)) :
    x = d.attemptId ∧ ∃ status, d.point = .evidence status ∧
      (classifyStatus status).1 = .completed := by
  cases h with
  | evidenceEmitted hp =>
    obtain ⟨context', -, hop⟩ := Drive.finalize_call hcall
    simp only [Op.finalize.injEq] at hop
    obtain ⟨-, rfl, -, hstate, -⟩ := hop
    exact ⟨rfl, _, hp, hstate.symm⟩
  | reject | noCredential | blocked | localError | noResponse | evidenceLost | upstreamErrorLost
  | encryptFails | evidenceFails =>
    obtain ⟨context', -, hop⟩ := Drive.finalize_call hcall
    cases hop
  | _ => cases hcall

/-- A drive sends the transition to `completed` on an answer after a whole response. -/
lemma Drive.resume_completing {token : Uuid} {d : Drive} {reply : Bool} {context : ExecutionContext}
    {x t : Uuid} {errorClass : Option AttemptErrorClass}
    (hcall : (d.resume token reply).call = some (.finalize context x t .completed errorClass)) :
    x = d.attemptId ∧ reply = true ∧ ∃ status, d.point = .persisting status := by
  unfold Drive.resume at hcall
  split at hcall
  case h_6 hp =>
    obtain ⟨context', -, hop⟩ := Drive.finalize_call hcall
    simp only [Op.finalize.injEq] at hop
    exact ⟨hop.2.1, rfl, _, hp⟩
  case h_9 =>
    obtain ⟨context', -, hop⟩ := Drive.finalize_call hcall
    cases hop
  all_goals cases hcall

/-- The answer of a transaction that stores output is positive exactly when it has stored it. -/
lemma ExecOutcome.stored {deps : ExecutorDeps} {st : Statement} {op : Op} {reply : Bool}
    (hist : s.History env) {owner : OwnerScope} (hflight : s.InFlight owner op)
    (hout : ExecOutcome deps st s.db op reply db') {d : Drive} {token : Uuid}
    {itemType : ConversationItemType} (hop : op.Stores d token itemType) (hreply : reply = true) :
    ∃ i : ItemRow, i.itemType = itemType ∧
      db'.outputs d.attemptId = s.db.outputs d.attemptId ++ [i] := by
  cases hout with
  | idle => cases hreply
  | write hwrite => cases hwrite <;> exact hop.elim
  | @item p i _ _ _ hdb =>
    obtain ⟨htype, houtputs⟩ := outputs_of_item hist hflight (congrArg ConvDb.items hdb) d.attemptId
    rw [if_pos hop.1] at houtputs
    exact ⟨i, htype.trans hop.2.2, houtputs⟩

/-! ## The invariant -/

/-- What the drives have stored. -/
structure ConvState.Recorded (s : ConvState) : Prop where
  started : ∀ x, s.db.outputs x ≠ [] →
    ∃ t, DriveOf s.drives t x fun d => d.Reached .streaming
  early : ∀ t d, s.drives t = some d → ¬d.Reached .streaming → d.received = 0
  recorded : ∀ t d, s.drives t = some d → d.Recorded (s.db.outputs d.attemptId)
  completing : ∀ owner context x t errorClass,
    s.InFlight owner (.finalize context x t .completed errorClass) →
    ReplayableOutput (s.db.outputs x)
  completed : s.db.Replayable

/-- Before the drive of an attempt streams, nothing is stored for it. -/
lemma ConvState.Recorded.empty (h : s.Recorded) (hworkers : s.Workers) {t : Uuid} {d : Drive}
    (hd : s.drives t = some d) (hpassed : d.Reached .gatePassed) (hnot : ¬d.Reached .streaming) :
    s.db.outputs d.attemptId = [] := by
  by_contra hne
  obtain ⟨t', hstreaming⟩ := h.started _ hne
  obtain rfl : t = t' := hworkers.rowsOk.unique ⟨d, hd, rfl, hpassed⟩ hstreaming.passed
  obtain ⟨e, he, -, hreached⟩ := hstreaming
  exact hnot (Option.some.inj (hd.symm.trans he) ▸ hreached)

/-- The outputs after an answer are what is recorded at the next program point. -/
lemma Drive.resume_recorded {deps : ExecutorDeps} {st : Statement} {token : Uuid} {d : Drive}
    {op : Op} {reply : Bool} (hist : s.History env) (hworkers : s.Workers) (h : s.Recorded)
    (hd : s.drives token = some d) (hcall : d.call = some op)
    (hout : ExecOutcome deps st s.db op reply db') :
    (d.resume token reply).Recorded (db'.outputs d.attemptId) := by
  have hawaits := (hworkers.coherent token d hd).awaits
  have hrecorded := h.recorded token d hd
  have hflight : s.InFlight d.owner op := .inr ⟨token, d, hd, rfl, hcall⟩
  have houtputs := hout.outputs hist hflight d.attemptId
  unfold Drive.resume
  split
  case h_5 hp =>
    -- The first response: nothing has been stored.
    simp only [Drive.Awaits, hp, hcall, Option.some.injEq] at hawaits
    obtain ⟨hstage, rfl⟩ := hawaits
    have hnot : ¬d.Reached .streaming := by
      rw [Drive.Reached, hstage]
      decide
    have hpassed : d.Reached .gatePassed := by
      rw [Drive.Reached, hstage]
      decide
    rcases houtputs with hsame | ⟨p, i, hop, -⟩
    · exact ⟨hsame.trans (h.empty hworkers hd hpassed hnot), h.early token d hd hnot⟩
    · cases hop
  case h_7 hp | h_8 hp =>
    simp only [Drive.Awaits, hp] at hawaits
    obtain ⟨-, op', hop', hstores⟩ := hawaits
    obtain rfl : op = op' := Option.some.inj (hcall.symm.trans hop')
    simp only [Drive.Recorded, hp] at hrecorded
    obtain ⟨i, htype, happend⟩ := hout.stored hist hflight hstores rfl
    have hchunk := hrecorded.append htype
    rw [← happend] at hchunk
    first
    | exact ⟨hchunk, fun _ => .inl (by rw [happend]; simp)⟩
    | exact ⟨hchunk, fun _ => by rw [happend]; simp⟩
  case h_6 | h_9 => exact .finalize ..
  all_goals trivial

/-- A drive that a step leaves, after a statement of a transaction that it does not wait for. -/
lemma ConvState.Recorded.frame {deps : ExecutorDeps} {st : Statement} {op : Op} {reply : Bool}
    (hist : s.History env) (hworkers : s.Workers) (hstores : s.Stores) (h : s.Recorded)
    (hout : ExecOutcome deps st s.db op reply db') {t : Uuid} {d : Drive} (hd : s.drives t = some d)
    {owner : OwnerScope} (hother : (owner, op) ∈ s.orphans ∨
      ∃ t' d', t' ≠ t ∧ s.drives t' = some d' ∧ d'.owner = owner ∧ d'.call = some op) :
    d.Recorded (db'.outputs d.attemptId) := by
  have hflight : s.InFlight owner op :=
    hother.imp_right fun ⟨t', d', _, hd', howner, hcall⟩ => ⟨t', d', hd', howner, hcall⟩
  rcases hout.outputs hist hflight d.attemptId with hsame | ⟨p, i, rfl, hx, -⟩
  · rw [hsame]
    exact h.recorded t d hd
  · by_cases hreached : d.Reached .streaming
    · -- The output is that of the drive itself.
      have hdrive := hworkers.output_drive hflight rfl
      obtain rfl : t = p.claimToken := hworkers.rowsOk.unique
        ⟨d, hd, rfl, le_trans (by decide) hreached⟩ (hx ▸ hdrive.passed)
      rcases hother with ho | ⟨t', d', hne, hd', -, hcall⟩
      · obtain ⟨e, he, -, hended⟩ := (hstores.orphan _ _ p ho rfl).ended
        exact .of_ended (Option.some.inj (hd.symm.trans he) ▸ hended) _
      · exact absurd ((hworkers.coherent t' d' hd').output hcall rfl).1.symm hne
    · exact (hworkers.coherent t d hd).recorded hreached _

/-- An attempt that is becoming `completed` keeps its outputs. -/
lemma ConvState.Recorded.completing_frame {deps : ExecutorDeps} {st : Statement} {op : Op}
    {reply : Bool} (hist : s.History env) (hworkers : s.Workers) (hstores : s.Stores)
    (h : s.Recorded) {owner : OwnerScope} (hflight : s.InFlight owner op)
    (hout : ExecOutcome deps st s.db op reply db') {owner' : OwnerScope} {context : ExecutionContext}
    {x t : Uuid} {errorClass : Option AttemptErrorClass}
    (hcompleting : s.InFlight owner' (.finalize context x t .completed errorClass)) :
    ReplayableOutput (db'.outputs x) := by
  rcases hout.outputs hist hflight x with hsame | ⟨p, i, rfl, hx, -⟩
  · rw [hsame]
    exact h.completing _ _ _ _ _ hcompleting
  · exfalso
    have hdrive := hworkers.output_drive hflight rfl
    obtain ⟨d, hd, hdx, hfinalizes⟩ := hworkers.legal _ _ hcompleting
    have hreached : d.Reached .streaming := by
      rcases hfinalizes with ⟨hs, -⟩ | ⟨hs, -⟩ | ⟨hs, -⟩ | ⟨-, -, hreached⟩
      · cases hs
      · cases hs
      · cases hs
      · exact hreached
    obtain rfl : t = p.claimToken := hworkers.rowsOk.unique
      ⟨d, hd, hdx, le_trans (by decide) hreached⟩ (hx ▸ hdrive.passed)
    exact (hstores.output_open hworkers hflight rfl).1 _ _ hcompleting ⟨rfl, rfl⟩

/-- The outputs after a step that serves no transaction. -/
lemma ConvStep.outputs (step : ConvStep env s label s') (hist : s.History env) (x : Uuid) :
    s'.db.outputs x = s.db.outputs x ∨ ∃ owner op st reply, s.InFlight owner op ∧
      ExecOutcome env.deps st s.db op reply s'.db := by
  rcases step.commit_cases with ⟨hdb, -⟩ | ⟨hcommit, -⟩
  · exact .inl (by rw [hdb])
  · generalize s'.db = db' at hcommit
    cases hcommit with
    | exec hflight _ hexec => exact .inr ⟨_, _, _, _, hflight, Op.exec_done hexec⟩
    | send hc hp hr => exact .inl ((hist.send_minted hc hp hr).outputs x)
    | fork hc hp hr => exact .inl ((hist.fork_committed hc hp hr).outputs x)
    | external h => exact .inl (h.outputs x)

/-- A transition to `completed` that is in flight after a step was so before, or its drive has just
stored a whole response, or has emitted the evidence of a stream. -/
lemma ConvStep.completing_origin (step : ConvStep env s label s') (hworkers : s.Workers)
    {owner : OwnerScope} {context : ExecutionContext} {x t : Uuid}
    {errorClass : Option AttemptErrorClass}
    (hf : s'.InFlight owner (.finalize context x t .completed errorClass)) :
    s.InFlight owner (.finalize context x t .completed errorClass) ∨
    ∃ token d, s.drives token = some d ∧ x = d.attemptId ∧
      ((s'.db = s.db ∧ ∃ status, d.point = .evidence status ∧
          (classifyStatus status).1 = .completed) ∨
        ∃ op st status, d.call = some op ∧ d.point = .persisting status ∧
          op.exec env.deps st s.db = .ok (.done true s'.db)) := by
  rcases hf with ho | ⟨token, e, he, howner, hcall⟩
  · cases step.orphan_origin hworkers ho with
    | old ho => exact .inl (.inl ho)
    | left hd howner hcall => exact .inl (.inr ⟨_, _, hd, howner, hcall⟩)
    | spawned hspawns => exact hspawns.elim
    | next _ hnext => exact absurd rfl hnext.not_finalize
  · cases step.drive_origin he with
    | kept hd => exact .inl (.inr ⟨token, e, hd, howner, hcall⟩)
    | started hop heq =>
      subst heq
      cases hcall
      exact hop.elim
    | moved hd hmove hdb =>
      obtain ⟨hx, hpoint⟩ := hmove.completing hcall
      exact .inr ⟨token, _, hd, hx, .inl ⟨hdb, hpoint⟩⟩
    | fetched _ _ heq | crashed _ heq =>
      subst heq
      cases hcall
    | waiting _ _ hnext heq =>
      subst heq
      cases hcall
      exact absurd rfl hnext.not_finalize
    | @answered d op st reply hd hcall' hexec heq =>
      subst heq
      obtain ⟨hx, rfl, status, hp⟩ := Drive.resume_completing hcall
      exact .inr ⟨token, d, hd, hx, .inr ⟨op, st, status, hcall', hp, hexec⟩⟩
    | raised hd heq =>
      subst heq
      exact absurd ⟨rfl, rfl⟩ (Drive.raise_completes (t := t) hcall)

/-- **Recording.** A step in which no empty stream ends keeps what the drives have stored. -/
theorem ConvStep.recorded (hs : (conversationSystem env).Reachable s)
    (step : ConvStep env s label s') (hempty : ¬EmptyStreamEnd s label) (h : s.Recorded) :
    s'.Recorded := by
  have hist := reachable_history hs
  have hworkers := reachable_workers hs
  have hstores := reachable_stores hs
  have hle := step.drivesLe hworkers
  constructor
  case started =>
    intro x hne
    have hold : s.db.outputs x ≠ [] → ∃ t, DriveOf s'.drives t x fun d => d.Reached .streaming := by
      intro hne
      obtain ⟨t, hdrive⟩ := h.started x hne
      exact ⟨t, hdrive.mono hle fun _ _ hdd' => hdd'.reached⟩
    rcases step.outputs hist x with hsame | ⟨owner, op, st, reply, hflight, hout⟩
    · exact hold (hsame ▸ hne)
    · rcases hout.outputs hist hflight x with hsame | ⟨p, i, rfl, rfl, -⟩
      · exact hold (hsame ▸ hne)
      · exact ⟨_, (hworkers.output_drive hflight rfl).mono hle fun _ _ hdd' => hdd'.reached⟩
  case completed =>
    intro x a' ha' hstate
    rcases step.completed_row hist ha' hstate with hold | ⟨owner, context, t, errorClass, a, hflight,
      ha, htoken, -⟩
    · rw [(step.advances hs).outputs hold hstate]
      exact h.completed x a' hold hstate
    · have hreplayable := h.completing _ _ _ _ _ hflight
      rcases step.outputs hist x with hsame | ⟨owner', op, st, reply, hflight', hout⟩
      · rwa [hsame]
      · exact h.completing_frame hist hworkers hstores hflight' hout hflight
  case early =>
    intro t e he hnot
    have hkeep : ∀ {d}, s.drives t = some d → d.Le e → e.received = d.received → e.received = 0 := by
      intro d hd hde hsame
      rw [hsame]
      exact h.early t d hd fun hreached => hnot (hde.reached hreached)
    cases step.drive_origin he with
    | kept hd => exact h.early t e hd hnot
    | started _ heq =>
      subst heq
      rfl
    | moved hd hmove _ =>
      have hc := hworkers.coherent t _ hd
      exact hkeep hd (hmove.progress hc).1 ((hmove.received hc).resolve_right hnot)
    | fetched hd _ heq | waiting hd _ _ heq | crashed hd heq =>
      subst heq
      have hzero := h.early t _ hd hnot
      exact hzero
    | answered hd _ _ heq =>
      subst heq
      exact hkeep hd (Drive.resume_progress (hworkers.coherent t _ hd) _).1
        (Drive.resume_received ..)
    | raised hd heq =>
      subst heq
      exact hkeep hd (Drive.raise_progress (hworkers.coherent t _ hd)).1 (Drive.raise_received ..)
  case completing =>
    intro owner context x t errorClass hf
    rcases step.completing_origin hworkers hf with hold | ⟨token, d, hd, rfl, ⟨hdb, status, hp,
      hcompleted⟩ | ⟨op, st, status, hcall, hp, hexec⟩⟩
    · rcases step.outputs hist x with hsame | ⟨owner', op, st, reply, hflight, hout⟩
      · rw [hsame]
        exact h.completing _ _ _ _ _ hold
      · exact h.completing_frame hist hworkers hstores hflight hout hold
    · have hrecorded := h.recorded token d hd
      simp only [Drive.Recorded, hp] at hrecorded
      rw [hdb]
      exact .inr ⟨hrecorded.2 hcompleted, hrecorded.1⟩
    · have hrecorded := h.recorded token d hd
      have hawaits := (hworkers.coherent token d hd).awaits
      simp only [Drive.Recorded, hp] at hrecorded
      simp only [Drive.Awaits, hp] at hawaits
      obtain ⟨-, op', hop', hstored⟩ := hawaits
      obtain rfl : op = op' := Option.some.inj (hcall.symm.trans hop')
      obtain ⟨i, htype, happend⟩ :=
        (Op.exec_done hexec).stored hist (.inr ⟨token, d, hd, rfl, hcall⟩) hstored rfl
      rw [happend, hrecorded]
      exact .inl (by simp [htype])
  case recorded =>
    intro t e he
    have hkeep : (∀ x, s'.db.outputs x = s.db.outputs x) → s.drives t = some e →
        e.Recorded (s'.db.outputs e.attemptId) := fun hsame hd => by
      rw [hsame]
      exact h.recorded t e hd
    have hupdate : ∀ {token : Uuid} {d' : Drive},
        s'.drives = Function.update s.drives token (some d') →
        d'.Recorded (s'.db.outputs d'.attemptId) →
        (t ≠ token → s.drives t = some e → e.Recorded (s'.db.outputs e.attemptId)) →
        e.Recorded (s'.db.outputs e.attemptId) := by
      intro token d' hdrives hmoved hother
      rw [hdrives] at he
      by_cases ht : t = token
      · subst ht
        rw [Function.update_self, Option.some.injEq] at he
        exact he ▸ hmoved
      · rw [Function.update_of_ne ht] at he
        exact hother ht he
    cases step with
    | arm => exact hupdate rfl trivial fun _ => hkeep fun _ => rfl
    | fetch => exact hupdate rfl trivial fun _ => hkeep fun _ => rfl
    | @move token d d' hd hmove =>
      refine hupdate rfl ?_ fun _ => hkeep fun _ => rfl
      have hrecorded := hmove.recorded (h.recorded token d hd) fun status hp hp' hzero hcompleted =>
        hempty ⟨token, d, d', status, rfl, hd, hp, hp', hzero, hcompleted⟩
      rw [← (hmove.progress (hworkers.coherent token d hd)).1.attemptId] at hrecorded
      exact hrecorded
    | @serveNext token d op op' st hd =>
      have hrecorded := h.recorded token d hd
      exact hupdate rfl hrecorded fun _ => hkeep fun _ => rfl
    | @serveDone token d op st reply db' hd hcall hst hexec =>
      have hout := Op.exec_done hexec
      refine hupdate rfl ?_ fun ht hd' =>
        h.frame hist hworkers hstores hout hd' (.inr ⟨token, d, Ne.symm ht, hd, rfl, hcall⟩)
      rw [(Drive.resume_progress (hworkers.coherent token d hd) reply).1.attemptId]
      exact Drive.resume_recorded hist hworkers h hd hcall hout
    | raise => exact hupdate rfl (.of_ended (Drive.raise_ended ..) _) fun _ => hkeep fun _ => rfl
    | crash => exact hupdate rfl trivial fun _ => hkeep fun _ => rfl
    | @orphanDone owner op st reply db' before after ho hst hexec =>
      exact ConvState.Recorded.frame hist hworkers hstores h (Op.exec_done hexec) he
        (.inl (ho ▸ List.mem_append_right _ (List.mem_cons_self ..)))
    | sendCommit _ hc hp hr => exact hkeep (hist.send_minted hc hp hr).outputs he
    | forkCommit _ hc hp hr => exact hkeep (hist.fork_committed hc hp hr).outputs he
    | external hwrite => exact hkeep hwrite.outputs he
    | _ => exact hkeep (fun _ => rfl) he

/-- In every run in which no empty stream ends, the drives store what completes their attempts. -/
theorem reachable_recorded (hs : (deliveringSystem env).Reachable s) : s.Recorded := by
  refine hs.invariant (I := fun s => s.Recorded) ?_ ?_
  · rintro _ ⟨orgs, credentials, rfl⟩
    constructor
    case started => exact fun x hne => absurd rfl hne
    case early | recorded => exact fun _ _ => nofun
    case completing =>
      rintro _ _ _ _ _ (hf | ⟨_, _, hd, _⟩)
      · cases hf
      · cases hd
    case completed =>
      intro x a ha
      cases ha
  · intro s label s' hs h step
    exact step.2.recorded hs.of_restrict step.1 h

end GovAI
