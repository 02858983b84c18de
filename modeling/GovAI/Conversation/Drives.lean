import GovAI.Conversation.History

/-!
# The program points of the drives

What a drive waits for at each of its program points (`Drive.Coherent`), which operations may be in
flight for it (`Op.Legal`), and that a drive only moves forward (`Drive.Le`): its stage does not go
back, and once its last transaction is out it stays where it is.
-/

namespace GovAI

variable {env : ConvEnv} {s s' : ConvState} {label : ConvLabel}

/-! ## Progress -/

/-- The drive has come to a stage. -/
abbrev Drive.Reached (d : Drive) (stage : Stage) : Prop := stage.rank ≤ d.stage.rank

/-- The last transaction of the drive is out, or it has finished. -/
def Drive.Ended (d : Drive) : Prop :=
  (∃ kind, d.point = .finalizing kind) ∨ d.point = .restoring ∨ d.point = .finished

/-- A drive moves forward. -/
structure Drive.Le (d d' : Drive) : Prop where
  owner : d'.owner = d.owner
  attemptId : d'.attemptId = d.attemptId
  stage : d'.Reached d.stage
  request : ∀ r, d.request = some r → d'.request = some r
  ended : d.Ended → d'.Ended ∧ d'.stage = d.stage

lemma Drive.Le.refl (d : Drive) : d.Le d := ⟨rfl, rfl, le_rfl, fun _ => id, fun h => ⟨h, rfl⟩⟩

/-- Every drive is still there, and has moved forward. -/
def DrivesLe (drives drives' : Uuid → Option Drive) : Prop :=
  ∀ t d, drives t = some d → ∃ d', drives' t = some d' ∧ d.Le d'

lemma DrivesLe.refl (drives : Uuid → Option Drive) : DrivesLe drives drives :=
  fun _ d hd => ⟨d, hd, .refl d⟩

lemma DrivesLe.update {drives : Uuid → Option Drive} {token : Uuid} {d d' : Drive}
    (hd : drives token = some d) (hle : d.Le d') :
    DrivesLe drives (Function.update drives token (some d')) := by
  intro t e he
  by_cases ht : t = token
  · subst ht
    obtain rfl : d = e := Option.some.inj (hd.symm.trans he)
    exact ⟨d', Function.update_self .., hle⟩
  · exact ⟨e, by rw [Function.update_of_ne ht]; exact he, .refl e⟩

lemma DrivesLe.new {drives : Uuid → Option Drive} {token : Uuid} (hnew : drives token = none)
    (d : Drive) : DrivesLe drives (Function.update drives token (some d)) := by
  intro t e he
  have ht : t ≠ token := by
    rintro rfl
    rw [hnew] at he
    cases he
  exact ⟨e, by rw [Function.update_of_ne ht]; exact he, .refl e⟩

/-! ## What a drive waits for -/

/-- A transaction that stores output under the token of a drive. -/
def Op.Stores (d : Drive) (token : Uuid) (itemType : ConversationItemType) : Op → Prop
  | .itemSeq p | .append p _ | .commitItem p _ =>
    p.attemptId = d.attemptId ∧ p.claimToken = token ∧ p.itemType = itemType
  | _ => False

/-- What a drive waits for at a program point, and the stage that it has reached there. -/
def Drive.Awaits (token : Uuid) (d : Drive) : Prop :=
  match d.point with
  | .arming => d.stage = .preparing ∧
      ∃ op ∈ d.call, op.Arms d.attemptId token ∨ ∃ x e, op = .ratchet x e
  | .loading _ | .loaded _ => d.stage = .preparing ∧ d.call = none
  | .boundary => d.stage = .boundarySent ∧ ∃ b : BoundaryArgs, b.attemptId = d.attemptId ∧
      b.claimToken = token ∧ (d.call = some (.boundary b) ∨ ∃ c, d.call = some (.lockRoot c b))
  | .dispatching => d.stage = .dispatching ∧ d.call = none
  | .gate => d.stage = .gateEntered ∧ ∃ c p,
      d.call = some (.authority d.attemptId token c p) ∨
      d.call = some (.provenance d.attemptId token c p)
  | .gatePassed | .fetched => d.stage = .gatePassed ∧ d.call = none
  | .marking _ => d.stage = .streamingSent ∧ d.call = some (.markStreaming d.attemptId token)
  | .recording _ | .draining .. | .evidence _ | .fenced => d.stage = .streaming ∧ d.call = none
  | .persisting _ => d.stage = .streaming ∧ ∃ op ∈ d.call, op.Stores d token .nativeResponse
  | .flushing .. => d.stage = .streaming ∧ ∃ op ∈ d.call, op.Stores d token .nativeStreamChunk
  | .finalizing _ => ∃ context state errorClass,
      d.call = some (.finalize context d.attemptId token state errorClass)
  | .restoring => d.call = some (.restore d.attemptId token)
  | .finished => d.call = none

/-- A drive waits for what its program point says, and has a request once it has sent it. -/
structure Drive.Coherent (token : Uuid) (d : Drive) : Prop where
  awaits : d.Awaits token
  request : d.stage = .preparing ↔ d.request = none

/-- A drive that sends a terminal transition or finishes. -/
lemma Drive.finalize_cases (d : Drive) (token : Uuid) (kind : TerminalCall) (state : AttemptState)
    (errorClass : Option AttemptErrorClass) :
    (∃ context ∈ d.context, d.finalize token kind state errorClass =
      d.send (.finalizing kind) (.finalize context d.attemptId token state errorClass)) ∨
    d.finalize token kind state errorClass = d.finish := by
  unfold Drive.finalize
  split
  · next context hcontext => exact .inl ⟨context, hcontext, rfl⟩
  · exact .inr rfl

lemma Drive.finalize_ended (d : Drive) (token : Uuid) (kind : TerminalCall) (state : AttemptState)
    (errorClass : Option AttemptErrorClass) : (d.finalize token kind state errorClass).Ended := by
  rcases d.finalize_cases token kind state errorClass with ⟨_, -, h⟩ | h <;> rw [h]
  · exact .inl ⟨kind, rfl⟩
  · exact .inr (.inr rfl)

/-- An exception ends a drive. -/
lemma Drive.raise_ended (token : Uuid) (d : Drive) : (d.raise token).Ended := by
  unfold Drive.raise
  split <;> first | exact d.finalize_ended .. | exact .inr (.inr rfl)

lemma Drive.le_finish (d : Drive) : d.Le d.finish :=
  ⟨rfl, rfl, le_rfl, fun _ => id, fun _ => ⟨.inr (.inr rfl), rfl⟩⟩

lemma Drive.le_finalize (d : Drive) (token : Uuid) (kind : TerminalCall) (state : AttemptState)
    (errorClass : Option AttemptErrorClass) : d.Le (d.finalize token kind state errorClass) := by
  rcases d.finalize_cases token kind state errorClass with ⟨_, -, h⟩ | h
  · rw [h]
    exact ⟨rfl, rfl, le_rfl, fun _ => id, fun _ => ⟨.inl ⟨kind, rfl⟩, rfl⟩⟩
  · rw [h]
    exact d.le_finish

lemma Drive.Coherent.finish {d : Drive} {token : Uuid} (h : d.Coherent token) :
    d.finish.Coherent token :=
  ⟨rfl, h.request⟩

lemma Drive.Coherent.finalize {d : Drive} {token : Uuid} (h : d.Coherent token) (kind : TerminalCall)
    (state : AttemptState) (errorClass : Option AttemptErrorClass) :
    (d.finalize token kind state errorClass).Coherent token := by
  rcases d.finalize_cases token kind state errorClass with ⟨context, -, h'⟩ | h'
  · rw [h']
    exact ⟨⟨context, state, errorClass, rfl⟩, h.request⟩
  · rw [h']
    exact h.finish

/-- A drive that goes on keeps the fields that do not change. -/
lemma Drive.Le.of_not_ended {d d' : Drive} (howner : d'.owner = d.owner)
    (hattempt : d'.attemptId = d.attemptId) (hstage : d'.Reached d.stage)
    (hrequest : ∀ r, d.request = some r → d'.request = some r) (hnot : ¬d.Ended) : d.Le d' :=
  ⟨howner, hattempt, hstage, hrequest, fun h => absurd h hnot⟩

/-- A move of a drive goes forward and keeps it coherent. -/
lemma DriveMove.progress {deps : ExecutorDeps} {token : Uuid} {db : ConvDb} {d d' : Drive}
    (h : DriveMove deps token db d d') (hc : d.Coherent token) : d.Le d' ∧ d'.Coherent token := by
  obtain ⟨hawaits, hrequest⟩ := hc
  cases h with
  | reject | noCredential | blocked | localError | noResponse | evidenceLost | upstreamErrorLost
  | encryptFails | evidenceEmitted | evidenceFails =>
    exact ⟨d.le_finalize .., Drive.Coherent.finalize ⟨hawaits, hrequest⟩ ..⟩
  | give | fencedOut => exact ⟨d.le_finish, Drive.Coherent.finish ⟨hawaits, hrequest⟩⟩
  | read hp | load hp =>
    simp only [Drive.Awaits, hp] at hawaits
    exact ⟨.of_not_ended rfl rfl le_rfl (fun _ => id) (by simp [Drive.Ended, hp]),
      ⟨hawaits.1, rfl⟩, hrequest⟩
  | build hp =>
    simp only [Drive.Awaits, hp] at hawaits
    refine ⟨.of_not_ended rfl rfl ?_ ?_ (by simp [Drive.Ended, hp]), ?_, ?_⟩
    · simp [Drive.Reached, hawaits.1, Stage.rank]
    · intro r hr
      rw [hrequest.mp hawaits.1] at hr
      cases hr
    · exact ⟨rfl, _, rfl, rfl, .inr ⟨_, rfl⟩⟩
    · exact ⟨nofun, nofun⟩
  | enterGate hp hr =>
    simp only [Drive.Awaits, hp] at hawaits
    refine ⟨.of_not_ended rfl rfl ?_ (fun _ => id) (by simp [Drive.Ended, hp]), ?_, nofun, ?_⟩
    · simp [Drive.Reached, hawaits.1, Stage.rank]
    · exact ⟨rfl, _, _, .inl rfl⟩
    · exact fun hnone => absurd (hr.symm.trans hnone) nofun
  | response _ hp hr =>
    simp only [Drive.Awaits, hp] at hawaits
    refine ⟨.of_not_ended rfl rfl ?_ (fun _ => id) (by simp [Drive.Ended, hp]), ?_, nofun, ?_⟩
    · simp [Drive.Reached, hawaits.1, Stage.rank]
    · exact ⟨rfl, rfl⟩
    · exact fun hnone => absurd (hr.symm.trans hnone) nofun
  | persist hp | fullChunk hp | eof hp | upstreamError hp =>
    simp only [Drive.Awaits, hp] at hawaits
    exact ⟨.of_not_ended rfl rfl le_rfl (fun _ => id) (by simp [Drive.Ended, hp]),
      ⟨hawaits.1, _, rfl, rfl, rfl, rfl⟩, hrequest⟩
  | drain hp | chunk hp | eofEmpty hp =>
    simp only [Drive.Awaits, hp] at hawaits
    exact ⟨.of_not_ended rfl rfl le_rfl (fun _ => id) (by simp [Drive.Ended, hp]),
      ⟨hawaits.1, rfl⟩, hrequest⟩

/-- The next statement of a transaction keeps a drive coherent. -/
lemma OpNext.coherent {st : Statement} {db : ConvDb} {op op' : Op} (h : OpNext st db op op')
    {token : Uuid} {d : Drive} (hcall : d.call = some op) (hc : d.Coherent token) :
    ({ d with call := some op' } : Drive).Coherent token := by
  obtain ⟨hawaits, hrequest⟩ := hc
  refine ⟨?_, hrequest⟩
  unfold Drive.Awaits at hawaits ⊢
  revert hawaits
  cases d.point <;> intro hawaits <;> simp only [hcall] at hawaits ⊢
  case arming => exact ⟨hawaits.1, op', rfl, by cases h <;> simp_all [Op.Arms]⟩
  all_goals cases h <;> simp_all [Op.Stores]

/-- An answer takes a drive forward and keeps it coherent. -/
lemma Drive.resume_progress {token : Uuid} {d : Drive} (hc : d.Coherent token) (reply : Bool) :
    d.Le (d.resume token reply) ∧ (d.resume token reply).Coherent token := by
  have hfinalize : ∀ kind state errorClass, d.Le (d.finalize token kind state errorClass) ∧
      (d.finalize token kind state errorClass).Coherent token :=
    fun kind state errorClass => ⟨d.le_finalize .., hc.finalize ..⟩
  obtain ⟨hawaits, hrequest⟩ := hc
  unfold Drive.resume
  split
  case h_1 hp =>
    simp only [Drive.Awaits, hp] at hawaits
    exact ⟨.of_not_ended rfl rfl le_rfl (fun _ => id) (by simp [Drive.Ended, hp]),
      ⟨hawaits.1, rfl⟩, hrequest⟩
  case h_2 hp | h_3 hp | h_5 hp =>
    simp only [Drive.Awaits, hp] at hawaits
    refine ⟨.of_not_ended rfl rfl ?_ (fun _ => id) (by simp [Drive.Ended, hp]), ⟨rfl, rfl⟩,
      nofun, fun hnone => ?_⟩
    · simp [Drive.Reached, hawaits.1, Stage.rank]
    · exact absurd (hrequest.mpr hnone) (by rw [hawaits.1]; exact nofun)
  case h_4 hp =>
    exact ⟨.of_not_ended rfl rfl le_rfl (fun _ => id) (by simp [Drive.Ended, hp]), rfl, hrequest⟩
  case h_6 hp => exact hfinalize ..
  case h_7 hp | h_8 hp | h_10 hp =>
    simp only [Drive.Awaits, hp] at hawaits
    exact ⟨.of_not_ended rfl rfl le_rfl (fun _ => id) (by simp [Drive.Ended, hp]),
      ⟨hawaits.1, rfl⟩, hrequest⟩
  case h_9 => exact hfinalize ..
  case h_11 => exact ⟨d.le_finish, Drive.Coherent.finish ⟨hawaits, hrequest⟩⟩

/-- An exception takes a drive forward and keeps it coherent. -/
lemma Drive.raise_progress {token : Uuid} {d : Drive} (hc : d.Coherent token) :
    d.Le (d.raise token) ∧ (d.raise token).Coherent token := by
  have hfinalize : ∀ kind state errorClass, d.Le (d.finalize token kind state errorClass) ∧
      (d.finalize token kind state errorClass).Coherent token :=
    fun kind state errorClass => ⟨d.le_finalize .., hc.finalize ..⟩
  unfold Drive.raise
  split
  all_goals first
    | exact hfinalize ..
    | exact ⟨d.le_finish, hc.finish⟩

/-! ## The operations in flight -/

/-- A terminal transition that a drive may send. -/
def Drive.Finalizes (d : Drive) (state : AttemptState) (errorClass : Option AttemptErrorClass) :
    Prop :=
  (state = .failed ∧ errorClass ≠ none) ∨
  (state = .rejected ∧ errorClass = none ∧ d.stage.rank ≤ Stage.dispatching.rank ∧ d.Ended) ∨
  (state = .outcomeUnknown ∧ errorClass = none ∧ d.Reached .gatePassed) ∨
  (state = .completed ∧ errorClass = none ∧ d.Reached .streaming)

/-- The drive under a token drives the attempt, and satisfies `P`. -/
def DriveOf (drives : Uuid → Option Drive) (token attemptId : Uuid) (P : Drive → Prop) : Prop :=
  ∃ d, drives token = some d ∧ d.attemptId = attemptId ∧ P d

/-- What is known of an operation in flight. -/
def Op.Legal (drives : Uuid → Option Drive) : Op → Prop
  | .claim x t | .rotate x _ t | .reclaim x _ t | .restore x t | .heartbeat x t =>
    DriveOf drives t x fun _ => True
  | .ratchet .. => True
  | .lockRoot _ b | .boundary b => DriveOf drives b.claimToken b.attemptId fun d =>
      d.Reached .boundarySent ∧
        ∃ r, d.request = some r ∧ b.causalVersionAtBuild = r.inputs.context.causalVersion
  | .authority x t _ _ | .provenance x t _ _ => DriveOf drives t x fun d => d.Reached .gateEntered
  | .markStreaming x t => DriveOf drives t x fun d => d.Reached .streamingSent
  | .itemSeq p | .append p _ | .commitItem p _ =>
    DriveOf drives p.claimToken p.attemptId fun d => d.Reached .streaming
  | .finalize _ x t state errorClass => DriveOf drives t x fun d => d.Finalizes state errorClass

lemma DriveOf.mono {drives drives' : Uuid → Option Drive} (hle : DrivesLe drives drives')
    {token x : Uuid} {P Q : Drive → Prop} (h : DriveOf drives token x P)
    (hPQ : ∀ d d', d.Le d' → P d → Q d') : DriveOf drives' token x Q := by
  obtain ⟨d, hd, hx, hP⟩ := h
  obtain ⟨d', hd', hle'⟩ := hle token d hd
  exact ⟨d', hd', hle'.attemptId.trans hx, hPQ d d' hle' hP⟩

lemma Drive.Le.reached {d d' : Drive} (h : d.Le d') {stage : Stage} (hd : d.Reached stage) :
    d'.Reached stage :=
  le_trans hd h.stage

lemma Drive.Le.finalizes {d d' : Drive} (h : d.Le d') {state : AttemptState}
    {errorClass : Option AttemptErrorClass} (hd : d.Finalizes state errorClass) :
    d'.Finalizes state errorClass := by
  rcases hd with hfailed | ⟨hstate, hclass, hstage, hended⟩ | ⟨hstate, hclass, hreached⟩ |
    ⟨hstate, hclass, hreached⟩
  · exact .inl hfailed
  · obtain ⟨hended', hsame⟩ := h.ended hended
    exact .inr (.inl ⟨hstate, hclass, hsame ▸ hstage, hended'⟩)
  · exact .inr (.inr (.inl ⟨hstate, hclass, h.reached hreached⟩))
  · exact .inr (.inr (.inr ⟨hstate, hclass, h.reached hreached⟩))

/-- An operation in flight stays legal. -/
lemma Op.Legal.mono {drives drives' : Uuid → Option Drive} (hle : DrivesLe drives drives') {op : Op}
    (h : op.Legal drives) : op.Legal drives' := by
  cases op with
  | claim | rotate | reclaim | restore | heartbeat => exact DriveOf.mono hle h fun _ _ _ => id
  | ratchet => trivial
  | lockRoot | boundary =>
    refine DriveOf.mono hle h fun d d' hdd' => ?_
    rintro ⟨hreached, r, hr, hversion⟩
    exact ⟨hdd'.reached hreached, r, hdd'.request r hr, hversion⟩
  | authority | provenance | markStreaming | itemSeq | append | commitItem =>
    exact DriveOf.mono hle h fun _ _ hdd' => hdd'.reached
  | finalize => exact DriveOf.mono hle h fun _ _ hdd' => hdd'.finalizes

/-- The next statement of a legal transaction is legal. -/
lemma OpNext.legal {st : Statement} {db : ConvDb} {op op' : Op} (h : OpNext st db op op')
    {drives : Uuid → Option Drive} (hop : op.Legal drives) : op'.Legal drives := by
  cases h with
  | reclaim => trivial
  | lockRoot | authority | itemSeq | append => exact hop

/-- A terminal transition that a drive sends is legal. -/
lemma Drive.finalize_legal {d : Drive} {token : Uuid} {kind : TerminalCall} {state : AttemptState}
    {errorClass : Option AttemptErrorClass} {op : Op} {drives : Uuid → Option Drive}
    (hd : drives token = some (d.finalize token kind state errorClass))
    (hop : (d.finalize token kind state errorClass).call = some op)
    (hlegal : (state = .failed ∧ errorClass ≠ none) ∨
      (state = .rejected ∧ errorClass = none ∧ d.stage.rank ≤ Stage.dispatching.rank) ∨
      (state = .outcomeUnknown ∧ errorClass = none ∧ d.Reached .gatePassed) ∨
      (state = .completed ∧ errorClass = none ∧ d.Reached .streaming)) : op.Legal drives := by
  rcases d.finalize_cases token kind state errorClass with ⟨context, -, heq⟩ | heq
  · rw [heq] at hd hop
    cases hop
    refine ⟨_, hd, rfl, ?_⟩
    rcases hlegal with hfailed | ⟨hstate, hclass, hstage⟩ | hunknown | hcompleted
    · exact .inl hfailed
    · exact .inr (.inl ⟨hstate, hclass, hstage, .inl ⟨kind, rfl⟩⟩)
    · exact .inr (.inr (.inl hunknown))
    · exact .inr (.inr (.inr hcompleted))
  · rw [heq] at hop
    cases hop

/-- A known provider result is completed or failed with a class. -/
lemma classifyStatus_cases (status : ℕ) : classifyStatus status = (.completed, none) ∨
    ∃ c, classifyStatus status = (.failed, some c) := by
  unfold classifyStatus
  split_ifs
  · exact .inl rfl
  all_goals exact .inr ⟨_, rfl⟩

/-- A known provider result is legal once the stream is marked. -/
lemma Drive.finalizeKnown_legal {d : Drive} {token : Uuid} {status : ℕ} {op : Op}
    {drives : Uuid → Option Drive} (hd : drives token = some (d.finalizeKnown token status))
    (hop : (d.finalizeKnown token status).call = some op) (hstage : d.Reached .streaming) :
    op.Legal drives := by
  refine Drive.finalize_legal hd hop ?_
  rcases classifyStatus_cases status with hknown | ⟨c, hknown⟩ <;> rw [hknown]
  · exact .inr (.inr (.inr ⟨rfl, rfl, hstage⟩))
  · exact .inl ⟨rfl, nofun⟩

/-- What a drive sends in a move is legal. -/
lemma DriveMove.legal {deps : ExecutorDeps} {token : Uuid} {db : ConvDb} {d d' : Drive}
    (h : DriveMove deps token db d d') (hc : d.Coherent token) {drives : Uuid → Option Drive}
    (hd : drives token = some d') {op : Op} (hop : d'.call = some op) : op.Legal drives := by
  have hawaits := hc.awaits
  cases h with
  | read | load | give | drain | chunk | eofEmpty | fencedOut => cases hop
  | reject hp | blocked hp =>
    simp only [Drive.Awaits, hp] at hawaits
    exact Drive.finalize_legal hd hop
      (.inr (.inl ⟨rfl, rfl, by simp [hawaits.1, Stage.rank]⟩))
  | noCredential | localError | evidenceLost | encryptFails | evidenceFails =>
    exact Drive.finalize_legal hd hop (.inl ⟨rfl, nofun⟩)
  | noResponse hp | upstreamErrorLost hp =>
    simp only [Drive.Awaits, hp] at hawaits
    exact Drive.finalize_legal hd hop
      (.inr (.inr (.inl ⟨rfl, rfl, by simp [Drive.Reached, hawaits.1, Stage.rank]⟩)))
  | evidenceEmitted hp =>
    simp only [Drive.Awaits, hp] at hawaits
    exact Drive.finalizeKnown_legal hd hop (by simp [Drive.Reached, hawaits.1])
  | build =>
    cases hop
    exact ⟨_, hd, rfl, le_rfl, _, rfl, rfl⟩
  | enterGate | response =>
    cases hop
    exact ⟨_, hd, rfl, le_rfl⟩
  | persist hp | fullChunk hp | eof hp | upstreamError hp =>
    simp only [Drive.Awaits, hp] at hawaits
    cases hop
    exact ⟨_, hd, rfl, hawaits.1 ▸ le_rfl⟩

/-- What a drive sends on an answer is legal. -/
lemma Drive.resume_legal {token : Uuid} {d : Drive} (hc : d.Coherent token) {reply : Bool}
    {drives : Uuid → Option Drive} (hd : drives token = some (d.resume token reply)) {op : Op}
    (hop : (d.resume token reply).call = some op) : op.Legal drives := by
  have hawaits := hc.awaits
  unfold Drive.resume at hd hop
  split at hop
  case h_4 hp =>
    cases hop
    rw [hp] at hd
    exact ⟨_, hd, rfl, trivial⟩
  case h_6 hp =>
    simp only [Drive.Awaits, hp] at hawaits
    rw [hp] at hd
    exact Drive.finalizeKnown_legal hd hop (by simp [Drive.Reached, hawaits.1])
  case h_9 hp =>
    simp only [Drive.Awaits, hp] at hawaits
    rw [hp] at hd
    exact Drive.finalize_legal hd hop
      (.inr (.inr (.inl ⟨rfl, rfl, by simp [Drive.Reached, hawaits.1, Stage.rank]⟩)))
  all_goals cases hop

/-- What a drive sends on an exception is legal. -/
lemma Drive.raise_legal {token : Uuid} {d : Drive} (hc : d.Coherent token)
    {drives : Uuid → Option Drive} (hd : drives token = some (d.raise token)) {op : Op}
    (hop : (d.raise token).call = some op) : op.Legal drives := by
  have hawaits := hc.awaits
  have hfailed : ∀ {kind errorClass}, errorClass ≠ none →
      drives token = some (d.finalize token kind .failed errorClass) →
      (d.finalize token kind .failed errorClass).call = some op → op.Legal drives :=
    fun hclass hd hop => Drive.finalize_legal hd hop (.inl ⟨rfl, hclass⟩)
  unfold Drive.raise at hd hop
  split at hd <;> simp only [*] at hop
  case h_4 hp =>
    simp only [Drive.Awaits, hp] at hawaits
    exact Drive.finalize_legal hd hop
      (.inr (.inr (.inl ⟨rfl, rfl, by simp [Drive.Reached, hawaits.1, Stage.rank]⟩)))
  case h_8 => cases hop
  all_goals exact hfailed (Option.some_ne_none _) hd hop

/-! ## What a step does to a drive -/

/-- Where the drive under a token after a step comes from. -/
inductive DriveOrigin (env : ConvEnv) (s s' : ConvState) (t : Uuid) (e : Drive) : Prop
  | kept (hd : s.drives t = some e)
  | started {owner : OwnerScope} {x : Uuid} {op : Op} (hop : op.Arms x t) (he : e = .start owner x op)
  | moved {d : Drive} (hd : s.drives t = some d) (hmove : DriveMove env.deps t s.db d e)
      (hdb : s'.db = s.db)
  | fetched {d : Drive} (hd : s.drives t = some d) (hp : d.point = .gatePassed)
      (he : e = d.goto .fetched)
  /-- The drive waits for the next statement of its transaction. -/
  | waiting {d : Drive} {op op' : Op} {st : Statement} (hd : s.drives t = some d)
      (hcall : d.call = some op) (hnext : OpNext st s.db op op') (he : e = { d with call := some op' })
  | answered {d : Drive} {op : Op} {st : Statement} {reply : Bool} (hd : s.drives t = some d)
      (hcall : d.call = some op) (hexec : op.exec env.deps st s.db = .ok (.done reply s'.db))
      (he : e = d.resume t reply)
  | raised {d : Drive} (hd : s.drives t = some d) (he : e = d.raise t)
  | crashed {d : Drive} (hd : s.drives t = some d) (he : e = d.finish)

/-- The drives after a step. -/
theorem ConvStep.drive_origin (step : ConvStep env s label s') {t : Uuid} {e : Drive}
    (he : s'.drives t = some e) : DriveOrigin env s s' t e := by
  have hupdate : ∀ {token : Uuid} {d' : Drive},
      s'.drives = Function.update s.drives token (some d') →
      (t = token → e = d' → DriveOrigin env s s' t e) → DriveOrigin env s s' t e := by
    intro token d' hdrives hmoved
    rw [hdrives] at he
    by_cases ht : t = token
    · subst ht
      rw [Function.update_self, Option.some.injEq] at he
      exact hmoved rfl he.symm
    · rw [Function.update_of_ne ht] at he
      exact .kept he
  cases step with
  | arm _ hop =>
    refine hupdate rfl ?_
    rintro rfl rfl
    exact .started hop rfl
  | move hd hmove =>
    refine hupdate rfl ?_
    rintro rfl rfl
    exact .moved hd hmove rfl
  | fetch hd hp =>
    refine hupdate rfl ?_
    rintro rfl rfl
    exact .fetched hd hp rfl
  | serveNext hd hcall _ hexec =>
    refine hupdate rfl ?_
    rintro rfl rfl
    exact .waiting hd hcall (Op.exec_next hexec) rfl
  | serveDone hd hcall _ hexec =>
    refine hupdate rfl ?_
    rintro rfl rfl
    exact .answered hd hcall hexec rfl
  | raise hd =>
    refine hupdate rfl ?_
    rintro rfl rfl
    exact .raised hd rfl
  | crash hd =>
    refine hupdate rfl ?_
    rintro rfl rfl
    exact .crashed hd rfl
  | _ => exact .kept he

end GovAI
