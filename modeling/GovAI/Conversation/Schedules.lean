import GovAI.Conversation.History

/-!
# Schedules

An interpreter for concrete runs of the conversation system: a schedule is a list of actions, each of
which determines the next state (`ConvState.act`), and what a schedule plays is a run
(`ConvState.play_reachable`).  The statements of a schedule run on the current rows.  At the end of
the module stands the conversation that the concrete runs of this development are about.
-/

namespace GovAI

variable {env : ConvEnv} {s s' : ConvState} {label : ConvLabel}

/-! ## Actions -/

/-- What a drive does on its own. -/
inductive DriveAction where
  | read
  | load
  | build (requestId : Uuid) (nowMs : ℤ)
  | enterGate
  | respond (response : ProviderResponse)
  | drain
  | chunk (bytes : Bytes)
  | eof (contentId : Uuid) (content : ContentRow)
  | eofEmpty
  | evidenceEmitted

/-- The drive after an action, if the action is possible. -/
def Drive.act (deps : ExecutorDeps) (token : Uuid) (db : ConvDb) (d : Drive) :
    DriveAction → Option Drive
  | .read =>
    match d.point with
    | .loading (.stmt next) => some (d.goto (.loading (next db)))
    | _ => none
  | .load =>
    match d.point with
    | .loading (.done (.ok (some l))) =>
      if l.inputs.tenant = none then none
      else some { d.goto (.loaded l) with context := some l.inputs.context }
    | _ => none
  | .build requestId nowMs =>
    match d.point with
    | .loaded l =>
      match l.inputs.credential, l.contextPlan with
      | some _, some (.ok plan) =>
        (deps.buildRequest l.inputs plan nowMs).map fun built =>
          { d.send .boundary (d.boundaryOp deps token requestId ⟨l.inputs, plan, nowMs, built⟩) with
            stage := .boundarySent
            request := some ⟨l.inputs, plan, nowMs, built⟩ }
      | _, _ => none
    | _ => none
  | .enterGate =>
    match d.point, d.request with
    | .dispatching, some r =>
      match r.inputs.credential, r.inputs.plan with
      | some credential, some plan =>
        some { d.send .gate (.authority d.attemptId token credential.1 plan.provider) with
          stage := .gateEntered }
      | _, _ => none
    | _, _ => none
  | .respond response =>
    match d.point, d.request with
    | .fetched, some r =>
      if response.body.isNone = r.built.isStream then
        some { d.send (.marking response) (.markStreaming d.attemptId token) with
          stage := .streamingSent }
      else none
    | _, _ => none
  | .drain =>
    match d.point with
    | .recording response =>
      if response.body = none then some (d.goto (.draining response.status [])) else none
    | _ => none
  | .chunk bytes =>
    match d.point with
    | .draining status buffer =>
      if (buffer ++ bytes).length < deps.streamFlushBytes then
        some { d.goto (.draining status (buffer ++ bytes)) with received := d.received + bytes.length }
      else none
    | _ => none
  | .eof contentId content =>
    match d.point with
    | .draining status buffer =>
      if buffer ≠ [] ∧ content.status = .active ∧ content.dekWrapped ≠ none ∧
          ∃ context ∈ d.context, content.conv = context.conv then
        some (d.send (.flushing status .evidence)
          (.itemSeq (d.outputArgs token .nativeStreamChunk contentId content)))
      else none
    | _ => none
  | .eofEmpty =>
    match d.point with
    | .draining status [] => some (d.goto (.evidence status))
    | _ => none
  | .evidenceEmitted =>
    match d.point with
    | .evidence status => some (d.finalizeKnown token status)
    | _ => none

lemma Drive.act_sound {deps : ExecutorDeps} {token : Uuid} {db : ConvDb} {d d' : Drive}
    {m : DriveAction} (h : d.act deps token db m = some d') : DriveMove deps token db d d' := by
  cases m with
  | read =>
    simp only [Drive.act] at h
    split at h
    · next hp =>
      cases h
      exact .read hp
    · cases h
  | load =>
    simp only [Drive.act] at h
    split at h
    · next hp =>
      split at h
      · cases h
      · next ht =>
        cases h
        exact .load hp ht
    · cases h
  | build requestId nowMs =>
    simp only [Drive.act] at h
    split at h
    · next hp =>
      split at h
      · next hcredential hplan =>
        obtain ⟨built, hbuilt, rfl⟩ := Option.map_eq_some_iff.mp h
        exact .build hp hcredential hplan hbuilt
      · cases h
    · cases h
  | enterGate =>
    simp only [Drive.act] at h
    split at h
    · next hp hr =>
      split at h
      · next hcredential hplan =>
        cases h
        exact .enterGate hp hr hcredential hplan
      · cases h
    · cases h
  | respond response =>
    simp only [Drive.act] at h
    split at h
    · next hp hr =>
      split at h
      · next hstream =>
        cases h
        exact .response response hp hr hstream
      · cases h
    · cases h
  | drain =>
    simp only [Drive.act] at h
    split at h
    · next hp =>
      split at h
      · next hbody =>
        cases h
        exact .drain hp hbody
      · cases h
    · cases h
  | chunk bytes =>
    simp only [Drive.act] at h
    split at h
    · next hp =>
      split at h
      · next hsmall =>
        cases h
        exact .chunk hp (.inl hsmall)
      · cases h
    · cases h
  | eof contentId content =>
    simp only [Drive.act] at h
    split at h
    · next hp =>
      split at h
      · next hcontent =>
        cases h
        exact .eof hp hcontent.1 hcontent.2
      · cases h
    · cases h
  | eofEmpty =>
    simp only [Drive.act] at h
    split at h
    · next hp =>
      cases h
      exact .eofEmpty hp
    · cases h
  | evidenceEmitted =>
    simp only [Drive.act] at h
    split at h
    · next hp =>
      cases h
      exact .evidenceEmitted hp
    · cases h

/-- The operations that arm a drive, as a test. -/
instance (attemptId token : Uuid) (op : Op) : Decidable (op.Arms attemptId token) := by
  cases op <;> unfold Op.Arms <;> infer_instance

/-- An action of a schedule. -/
inductive Action where
  | tables (orgs : Table TenantFacts) (credentials : Table CredentialRow)
  | create (conversationId branchId : Uuid) (c : ConversationRow) (now : ℤ)
  | requestStop (attemptId : Uuid)
  | sendStart (n : ℕ) (conv : Lineage) (input : SendTurnInput) (content : ContentRow)
  | sendLock (n : ℕ)
  | sendReserve (n : ℕ) (ids : ReservationIds) (now : ℤ)
  | sendCommit (n : ℕ)
  | sendRead (n : ℕ)
  | sendAnswer (n : ℕ)
  | forkStart (n : ℕ) (conv : Lineage) (input : CreateForkInput)
  | forkLock (n : ℕ)
  | forkReserve (n : ℕ) (ids : ForkIds) (now : ℤ)
  | forkCommit (n : ℕ)
  | forkRead (n : ℕ)
  | forkAnswer (n : ℕ)
  | arm (token attemptId : Uuid) (owner : OwnerScope) (op : Op)
  | move (token : Uuid) (m : DriveAction)
  | fetch (token : Uuid)
  /-- The next statement that a drive waits for. -/
  | serve (token : Uuid) (now : ℤ)
  | crash (token : Uuid)
  | ratchet (owner : OwnerScope) (attemptId expectedToken : Uuid)
  /-- The next statement of the first transaction that nobody waits for. -/
  | orphan (now : ℤ)

/-- The label and the state after an action, if the action is possible. -/
def ConvState.act (env : ConvEnv) (s : ConvState) : Action → Option (ConvLabel × ConvState)
  | .tables orgs credentials =>
    some (.external, s.commit { s.db with orgs := orgs, credentials := credentials })
  | .create conversationId branchId c now =>
    (createConversation conversationId branchId c now s.db).toOption.map fun db =>
      (.external, s.commit db)
  | .requestStop x => do
    let a ← s.db.attempts.lookup x
    if a.state.nonTerminal then
      (checkUpdate a { a with stopRequested := true }).toOption.map fun _ =>
        (.external, s.commit (s.db.setAttempt x { a with stopRequested := true }))
    else none
  | .sendStart n conv input content =>
    if (s.sends n).isNone ∧ content.conv = conv ∧ content.status = .active ∧
        (nativeRequestBytes input.nativeRequest).length ≤ nativeRequestMaxBytes ∧
        env.decrypt conv.orgId ⟨content.toContentEnvelope, content.status⟩ =
          some (nativeRequestBytes input.nativeRequest) then
      some (.send n, s.setSend n ⟨conv, input, .failed⟩ (.prepared content))
    else none
  | .sendLock n => do
    let c ← s.sends n
    match c.point with
    | .prepared content =>
      if s.rootLock c.conv.conversationId = none then
        some (.send n, (s.setSend n c (.locked content)).setLock c.conv.conversationId (some (.inl n)))
      else none
    | _ => none
  | .sendReserve n ids now => do
    let c ← s.sends n
    match c.point with
    | .locked content =>
      match reserveTurn c.conv c.input content ids now s.db with
      | .reserved r => some (.send n, s.setSend n c (.reserved r))
      | .refused e =>
        some (.send n, (s.setSend n c (.done (.error e))).setLock c.conv.conversationId none)
      | .lost => some (.send n, (s.setSend n c (.resolving (readCommittedSend c.conv c.input))).setLock
          c.conv.conversationId none)
    | _ => none
  | .sendCommit n => do
    let c ← s.sends n
    match c.point with
    | .reserved r => (r.commit s.db).toOption.map fun db =>
        (.send n, ((s.setSend n c (.done (.ok (r.ids.turnId, false)))).setLock
          c.conv.conversationId none).commit db)
    | _ => none
  | .sendRead n => do
    let c ← s.sends n
    match c.point with
    | .resolving (.stmt next) => some (.send n, s.setSend n c (.resolving (next s.db)))
    | _ => none
  | .sendAnswer n => do
    let c ← s.sends n
    match c.point with
    | .resolving (.done r) => some (.send n, s.setSend n c (.done
        (r.bind fun t => compareCommittedSend env c.conv c.input t.1 t.2.1 t.2.2)))
    | _ => none
  | .forkStart n conv input =>
    if (s.forks n).isNone then some (.fork n, s.setFork n ⟨conv, input, .failed⟩ .started) else none
  | .forkLock n => do
    let c ← s.forks n
    match c.point with
    | .started =>
      if s.rootLock c.conv.conversationId = none then
        some (.fork n, (s.setFork n c .locked).setLock c.conv.conversationId (some (.inr n)))
      else none
    | _ => none
  | .forkReserve n ids now => do
    let c ← s.forks n
    match c.point with
    | .locked =>
      match reserveFork env.sha256 c.conv c.input ids now s.db with
      | .reserved r => some (.fork n, s.setFork n c (.reserved r))
      | .refused e =>
        some (.fork n, (s.setFork n c (.done (.error e))).setLock c.conv.conversationId none)
      | .lost intentHash => some (.fork n, (s.setFork n c (.resolving
          (resolveCommittedFork c.conv c.input.clientForkId.value intentHash))).setLock
          c.conv.conversationId none)
    | _ => none
  | .forkCommit n => do
    let c ← s.forks n
    match c.point with
    | .reserved r => (r.commit s.db).toOption.map fun db =>
        (.fork n, ((s.setFork n c (.done (.ok (r.projection, false)))).setLock
          c.conv.conversationId none).commit db)
    | _ => none
  | .forkRead n => do
    let c ← s.forks n
    match c.point with
    | .resolving (.stmt next) => some (.fork n, s.setFork n c (.resolving (next s.db)))
    | _ => none
  | .forkAnswer n => do
    let c ← s.forks n
    match c.point with
    | .resolving (.done r) =>
      some (.fork n, s.setFork n c (.done (r.map fun p => (p, true))))
    | _ => none
  | .arm token x owner op =>
    if (s.drives token).isNone ∧ op.Arms x token then
      some (.arm token, s.setDrive token (.start owner x op))
    else none
  | .move token m => do
    let d ← s.drives token
    let d' ← d.act env.deps token s.db m
    return (.move token d', s.setDrive token d')
  | .fetch token => do
    let d ← s.drives token
    match d.point with
    | .gatePassed => some (.fetch token, { s.setDrive token (d.goto .fetched) with
        trace := .fetch d.attemptId token :: s.trace })
    | _ => none
  | .serve token now => do
    let d ← s.drives token
    let op ← d.call
    match op.exec env.deps ⟨d.owner, s.db, now⟩ s.db with
    | .ok (.next op') =>
      some (.serve token ⟨d.owner, s.db, now⟩, s.setDrive token { d with call := some op' })
    | .ok (.done reply db) => some (.serve token ⟨d.owner, s.db, now⟩,
        (s.setDrive token (d.resume token reply)).commit db)
    | .error _ => none
  | .crash token => do
    let d ← s.drives token
    return (.crash token, { s.setDrive token d.finish with
      orphans := (d.call.toList.map fun op => (d.owner, op)) ++ s.orphans })
  | .ratchet owner x e =>
    some (.spawn owner (.ratchet x e), { s with orphans := (owner, .ratchet x e) :: s.orphans })
  | .orphan now =>
    match s.orphans with
    | (owner, op) :: rest =>
      match op.exec env.deps ⟨owner, s.db, now⟩ s.db with
      | .ok (.next op') =>
        some (.orphan owner op ⟨owner, s.db, now⟩, { s with orphans := (owner, op') :: rest })
      | .ok (.done _ db) =>
        some (.orphan owner op ⟨owner, s.db, now⟩, { s with orphans := rest }.commit db)
      | .error _ => none
    | [] => none

/-- **Actions are steps.** -/
theorem ConvState.act_sound (hcurrent : s.Past s.db) {a : Action}
    (h : s.act env a = some (label, s')) : ConvStep env s label s' := by
  cases a with
  | tables orgs credentials =>
    cases h
    exact .external (.tables orgs credentials)
  | create conversationId branchId c now =>
    simp only [ConvState.act, Option.map_eq_some_iff, except_toOption_eq_some_iff] at h
    obtain ⟨db, hdb, heq⟩ := h
    cases heq
    exact .external (.create hdb)
  | requestStop x =>
    simp only [ConvState.act, bind, Option.bind_eq_some_iff] at h
    obtain ⟨a, ha, h⟩ := h
    split at h
    · next hstate =>
      simp only [Option.map_eq_some_iff, except_toOption_eq_some_iff] at h
      obtain ⟨_, hcheck, heq⟩ := h
      cases heq
      exact .external (.requestStop ha hstate hcheck)
    · cases h
  | sendStart n conv input content =>
    simp only [ConvState.act] at h
    split at h
    · next hstart =>
      cases h
      obtain ⟨hfresh, hconv, hactive, hsize, henc⟩ := hstart
      exact .sendStart (Option.isNone_iff_eq_none.mp hfresh) hconv hactive hsize henc
    · cases h
  | sendLock n =>
    simp only [ConvState.act, bind, Option.bind_eq_some_iff] at h
    obtain ⟨c, hc, h⟩ := h
    split at h
    · next hp =>
      split at h
      · next hlock =>
        cases h
        exact .sendLock hc hp hlock
      · cases h
    · cases h
  | sendReserve n ids now =>
    simp only [ConvState.act, bind, Option.bind_eq_some_iff] at h
    obtain ⟨c, hc, h⟩ := h
    split at h
    · next hp =>
      split at h <;> next hr => cases h; first
        | exact .sendReserve hc hp hr
        | exact .sendRefuse hc hp hr
        | exact .sendLose hc hp hr
    · cases h
  | sendCommit n =>
    simp only [ConvState.act, bind, Option.bind_eq_some_iff] at h
    obtain ⟨c, hc, h⟩ := h
    split at h
    · next hp =>
      simp only [Option.map_eq_some_iff, except_toOption_eq_some_iff] at h
      obtain ⟨db, hr, heq⟩ := h
      cases heq
      exact .sendCommit true hc hp hr
    · cases h
  | sendRead n =>
    simp only [ConvState.act, bind, Option.bind_eq_some_iff] at h
    obtain ⟨c, hc, h⟩ := h
    split at h
    · next hp =>
      cases h
      exact .sendRead hc hp
    · cases h
  | sendAnswer n =>
    simp only [ConvState.act, bind, Option.bind_eq_some_iff] at h
    obtain ⟨c, hc, h⟩ := h
    split at h
    · next hp =>
      cases h
      exact .sendAnswer hc hp
    · cases h
  | forkStart n conv input =>
    simp only [ConvState.act] at h
    split at h
    · next hfresh =>
      cases h
      exact .forkStart (Option.isNone_iff_eq_none.mp hfresh)
    · cases h
  | forkLock n =>
    simp only [ConvState.act, bind, Option.bind_eq_some_iff] at h
    obtain ⟨c, hc, h⟩ := h
    split at h
    · next hp =>
      split at h
      · next hlock =>
        cases h
        exact .forkLock hc hp hlock
      · cases h
    · cases h
  | forkReserve n ids now =>
    simp only [ConvState.act, bind, Option.bind_eq_some_iff] at h
    obtain ⟨c, hc, h⟩ := h
    split at h
    · next hp =>
      split at h <;> next hr => cases h; first
        | exact .forkReserve hc hp hr
        | exact .forkRefuse hc hp hr
        | exact .forkLose hc hp hr
    · cases h
  | forkCommit n =>
    simp only [ConvState.act, bind, Option.bind_eq_some_iff] at h
    obtain ⟨c, hc, h⟩ := h
    split at h
    · next hp =>
      simp only [Option.map_eq_some_iff, except_toOption_eq_some_iff] at h
      obtain ⟨db, hr, heq⟩ := h
      cases heq
      exact .forkCommit true hc hp hr
    · cases h
  | forkRead n =>
    simp only [ConvState.act, bind, Option.bind_eq_some_iff] at h
    obtain ⟨c, hc, h⟩ := h
    split at h
    · next hp =>
      cases h
      exact .forkRead hc hp
    · cases h
  | forkAnswer n =>
    simp only [ConvState.act, bind, Option.bind_eq_some_iff] at h
    obtain ⟨c, hc, h⟩ := h
    split at h
    · next hp =>
      cases h
      exact .forkAnswer hc hp
    · cases h
  | arm token x owner op =>
    simp only [ConvState.act] at h
    split at h
    · next harm =>
      cases h
      exact .arm (Option.isNone_iff_eq_none.mp harm.1) harm.2
    · cases h
  | move token m =>
    simp only [ConvState.act, bind, Option.bind_eq_some_iff] at h
    obtain ⟨d, hd, d', hmove, h⟩ := h
    cases h
    exact .move hd (Drive.act_sound hmove)
  | fetch token =>
    simp only [ConvState.act, bind, Option.bind_eq_some_iff] at h
    obtain ⟨d, hd, h⟩ := h
    split at h
    · next hp =>
      cases h
      exact .fetch hd hp
    · cases h
  | serve token now =>
    simp only [ConvState.act, bind, Option.bind_eq_some_iff] at h
    obtain ⟨d, hd, op, hcall, h⟩ := h
    split at h
    · next hexec =>
      cases h
      exact .serveNext hd hcall ⟨rfl, hcurrent⟩ hexec
    · next hexec =>
      cases h
      exact .serveDone hd hcall ⟨rfl, hcurrent⟩ hexec
    · cases h
  | crash token =>
    simp only [ConvState.act, bind, Option.bind_eq_some_iff] at h
    obtain ⟨d, hd, h⟩ := h
    cases h
    exact .crash hd
  | ratchet owner x e =>
    cases h
    exact .spawn trivial
  | orphan now =>
    simp only [ConvState.act] at h
    split at h
    · next ho =>
      split at h
      · next hexec =>
        cases h
        exact .orphanNext (show _ = [] ++ _ from ho) ⟨rfl, hcurrent⟩ hexec
      · next hexec =>
        cases h
        exact .orphanDone (show _ = [] ++ _ from ho) ⟨rfl, hcurrent⟩ hexec
      · cases h
    · cases h

/-! ## Playing a schedule -/

/-- Play the actions in order; `ok` checks each step. -/
def ConvState.play (env : ConvEnv) (ok : ConvState → ConvLabel → Bool) :
    ConvState → List Action → Option ConvState
  | s, [] => some s
  | s, a :: rest =>
    (s.act env a).bind fun r => if ok s r.1 then ConvState.play env ok r.2 rest else none

/-- A schedule plays a run of the system restricted by what its check allows. -/
theorem ConvState.play_reachable {ok : ConvState → ConvLabel → Bool}
    {C : ConvState → ConvLabel → Prop}
    (hok : ∀ s label, (conversationSystem env).Reachable s → ok s label = true → C s label)
    (hs : ((conversationSystem env).restrict C).Reachable s) {schedule : List Action}
    (h : s.play env ok schedule = some s') :
    ((conversationSystem env).restrict C).Reachable s' := by
  induction schedule generalizing s with
  | nil =>
    cases h
    exact hs
  | cons a rest ih =>
    obtain ⟨⟨label, s₁⟩, hact, h⟩ := Option.bind_eq_some_iff.mp h
    split at h
    · next hlabel =>
      exact ih (hs.step ⟨hok s label hs.of_restrict hlabel, ConvState.act_sound
        (reachable_history hs.of_restrict).current hact⟩) h
    · cases h

/-! ## The sample conversation -/

/-- The uuids of the sample. -/
def sampleUuid (n : ℕ) : Uuid := BitVec.ofNat 128 n

/-- The canonical spelling of a uuid. -/
def UuidText.canonical (u : Uuid) : UuidText := ⟨u.toText, u, lowerCase_toText u⟩

/-- The owner of the sample conversation. -/
def sampleOwner : OwnerScope := ⟨sampleUuid 1, sampleUuid 2⟩

/-- The sample conversation. -/
def sampleConv : Lineage := ⟨sampleOwner, sampleUuid 3⟩

/-- A native request that asks for a stream. -/
def sampleRequest : JsonValue := .obj [(jsString "stream", .bool true)]

/-- Stand-ins for what the model takes as given: a content row holds its plaintext, the parser knows
the sample request, and a request is built from the stored config. -/
def sampleConvEnv : ConvEnv where
  deps :=
    { claimant := "worker", leaseMs := 60000, recoveryGraceMs := 60000, streamFlushBytes := 16384
      buildRequest := fun inputs _ _ => inputs.config.map fun config =>
        ⟨config.ciphertext, true, none⟩ }
  sha256 := id
  decrypt _ content := some content.ciphertext
  parse bytes := if bytes = nativeRequestBytes sampleRequest then some sampleRequest else none

/-- The content row of some bytes. -/
def sampleContentRow (bytes : Bytes) : ContentRow where
  ciphertext := bytes
  dekWrapped := some [1]
  kmsKeyId := "key"
  kmsKeyVersion := 1
  conv := sampleConv
  contentHmac := []
  status := .active

/-- The root branch of the sample conversation. -/
def sampleBranch : Uuid := sampleUuid 4

/-- The sample conversation is created, with a credential for its provider. -/
def sampleSetup : List Action :=
  [.tables (AList.singleton sampleOwner.orgId ⟨"standard", "standard"⟩)
    (AList.singleton (sampleUuid 5) ⟨sampleOwner.orgId, "anthropic", true, [1], [1], "key", 1⟩),
   .create sampleConv.conversationId sampleBranch
    ⟨sampleOwner, .governed, "anthropic", "anthropic_messages", "claude-sonnet-4-5", .active⟩ 0]

/-- The input of the sample sends. -/
def sampleSend (clientTurnId : Uuid) : SendTurnInput :=
  ⟨.canonical clientTurnId, .canonical sampleBranch, sampleRequest⟩

/-- Send number `n` commits the turn `100 + n` with the attempt `200 + n`. -/
def sampleSendTurn (n : ℕ) : List Action :=
  [.sendStart n sampleConv (sampleSend (sampleUuid (400 + n)))
    (sampleContentRow (nativeRequestBytes sampleRequest)),
   .sendLock n, .sendReserve n ⟨sampleUuid (100 + n), sampleUuid (200 + n), sampleUuid (300 + n)⟩ 0,
   .sendCommit n]

/-- The drive under `token` claims the attempt, loads in `reads` statements, and builds. -/
def samplePrepare (token x : Uuid) (reads : ℕ) (now : ℤ) : List Action :=
  [Action.arm token x sampleOwner (.claim x token), .serve token now] ++
    List.replicate reads (Action.move token .read) ++
    [Action.move token .load, .move token (.build (sampleUuid 600) 0)]

/-- The drive crosses the boundary and the gate, and POSTs. -/
def samplePost (token : Uuid) (now : ℤ) : List Action :=
  [.serve token now, .serve token now, .move token .enterGate, .serve token now, .serve token now,
   .fetch token]

/-- The provider answers with a stream. -/
def sampleRespond (token : Uuid) (now : ℤ) : List Action :=
  [.move token (.respond ⟨200, none⟩), .serve token now, .move token .drain]

/-- The stream ends without having delivered a byte. -/
def sampleEmptyEnd (token : Uuid) (now : ℤ) : List Action :=
  [.move token .eofEmpty, .move token .evidenceEmitted, .serve token now]

/-- The stream delivers a chunk and ends. -/
def sampleChunkEnd (token contentId : Uuid) (now : ℤ) : List Action :=
  [.move token (.chunk [1]), .move token (.eof contentId (sampleContentRow [1])), .serve token now,
   .serve token now, .serve token now, .move token .evidenceEmitted, .serve token now]

/-- A first turn, up to its POST. -/
def samplePosted : List Action :=
  sampleSetup ++ sampleSendTurn 0 ++ samplePrepare (sampleUuid 500) (sampleUuid 200) 6 1 ++
    samplePost (sampleUuid 500) 1

/-- A first turn, whose answer is a stream of one chunk. -/
def sampleFirstTurn : List Action :=
  samplePosted ++ sampleRespond (sampleUuid 500) 1 ++
    sampleChunkEnd (sampleUuid 500) (sampleUuid 700) 1

/-- After it a second turn, up to the statement that commits its boundary. -/
def sampleSecondTurn : List Action :=
  sampleFirstTurn ++ sampleSendTurn 1 ++ samplePrepare (sampleUuid 501) (sampleUuid 201) 9 1 ++
    [Action.serve (sampleUuid 501) 1]

/-- The state of a sample schedule, from the empty tables on. -/
def samplePlay (ok : ConvState → ConvLabel → Bool) (schedule : List Action) : Option ConvState :=
  (ConvState.initial ∅ ∅).play sampleConvEnv ok schedule

/-- A state that a sample schedule ends in. -/
lemma samplePlay_reachable {ok : ConvState → ConvLabel → Bool} {C : ConvState → ConvLabel → Prop}
    (hok : ∀ s label, (conversationSystem sampleConvEnv).Reachable s → ok s label = true → C s label)
    {schedule : List Action} {test : ConvState → Bool} (h : (samplePlay ok schedule).any test = true) :
    ∃ s, ((conversationSystem sampleConvEnv).restrict C).Reachable s ∧ test s = true := by
  obtain ⟨s, hs, htest⟩ := Option.any_eq_true _ _ |>.mp h
  exact ⟨s, ConvState.play_reachable hok (.init ⟨∅, ∅, rfl⟩) hs, htest⟩

/-- A state that a sample schedule ends in, in the unrestricted system. -/
lemma samplePlay_reachable' {schedule : List Action} {test : ConvState → Bool}
    (h : (samplePlay (fun _ _ => true) schedule).any test = true) :
    ∃ s, (conversationSystem sampleConvEnv).Reachable s ∧ test s = true := by
  obtain ⟨s, hs, htest⟩ := samplePlay_reachable (C := fun _ _ => True) (fun _ _ _ _ => trivial) h
  exact ⟨s, hs.of_restrict, htest⟩

/-- The attempt has a row in the given state. -/
def ConvDb.attemptIs (db : ConvDb) (x : Uuid) (state : AttemptState) : Bool :=
  (db.attempts.lookup x).any fun a => a.state = state

lemma ConvDb.exists_of_attemptIs {db : ConvDb} {x : Uuid} {state : AttemptState}
    (h : db.attemptIs x state = true) : ∃ a, db.attempts.lookup x = some a ∧ a.state = state := by
  obtain ⟨a, ha, hstate⟩ := Option.any_eq_true _ _ |>.mp h
  exact ⟨a, ha, by simpa using hstate⟩

/-- The boundary commit of the second turn. -/
lemma sample_boundary : ∃ s label s' a a', (conversationSystem sampleConvEnv).Reachable s ∧
    (conversationSystem sampleConvEnv).step s label s' ∧
    s.db.attempts.lookup (sampleUuid 201) = some a ∧ a.state = .accepted ∧
    s'.db.attempts.lookup (sampleUuid 201) = some a' ∧ a'.state = .dispatching := by
  obtain ⟨s, hs, htest⟩ := @samplePlay_reachable' sampleSecondTurn
    (fun s => s.db.attemptIs (sampleUuid 201) .accepted &&
      (s.act sampleConvEnv (.serve (sampleUuid 501) 1)).any fun r =>
        r.2.db.attemptIs (sampleUuid 201) .dispatching)
    (by decide +kernel)
  obtain ⟨haccepted, hact⟩ := Bool.and_eq_true_iff.mp htest
  obtain ⟨⟨label, s'⟩, hact, hdispatching⟩ := Option.any_eq_true _ _ |>.mp hact
  obtain ⟨a, ha, hstate⟩ := ConvDb.exists_of_attemptIs haccepted
  obtain ⟨a', ha', hstate'⟩ := ConvDb.exists_of_attemptIs hdispatching
  exact ⟨s, label, s', a, a', hs, ConvState.act_sound (reachable_history hs).current hact, ha, hstate,
    ha', hstate'⟩

end GovAI
