import GovAI.Conversation.DurableContext

/-!
# The conversation executor

`processCandidate` and `driveClaimedAttempt` of `execute-turn.ts` as a machine.  A *drive* is one
execution under one claim token, from the compare-and-set of its arm to its end.  Between two
database calls it moves on its own (`DriveMove`); at a call it waits, until the statements of its
transaction have run and the answer arrives (`Drive.resume`), or an exception does (`Drive.raise`):
then the transaction may be lost, may have committed, or may still be running.
-/

namespace GovAI

/-! ## The dispatch registry -/

/-- The two providers that can be dispatched. -/
inductive DispatchProvider where
  | anthropic
  | openai
deriving DecidableEq

/-- The text of a provider. -/
def DispatchProvider.text : DispatchProvider → String
  | anthropic => "anthropic"
  | openai => "openai"

/-- `DispatchPlan`: the columns that its provider does not determine. -/
structure DispatchPlan where
  provider : DispatchProvider
  mode : ConversationMode
deriving DecidableEq

/-- `resolveDispatchPlan`; `none` is an unsupported triple. -/
def resolveDispatchPlan (provider surface : String) (mode : ConversationMode) :
    Option DispatchPlan :=
  if provider = "anthropic" ∧ surface = "anthropic_messages" then some ⟨.anthropic, mode⟩
  else if provider = "openai" ∧ surface = "openai_responses" then some ⟨.openai, mode⟩
  else none

/-! ## The load transaction -/

/-- `ExecutionContext`. -/
structure ExecutionContext where
  conv : Lineage
  branchId : Uuid
  turnId : Uuid
  turnSeq : ℕ
  mode : ConversationMode
  provider : String
  surface : String
  model : String
  causalVersion : ℕ
  conversationStatus : ConversationStatus
  nativeRequestConfigContentId : Uuid
deriving DecidableEq

/-- `readExecutionContext`: the attempt joined to its turn, its branch and its conversation. -/
def readExecutionContext (owner : OwnerScope) (attemptId : Uuid) (db : ConvDb) :
    Option ExecutionContext := do
  let a ← (db.attempts.lookup attemptId).filter fun a => owner.Sees a.conv
  let t ← (db.turns.lookup a.turnId).filter fun t => t.conv = a.conv ∧ t.branchId = a.branchId
  let b ← (db.branches.lookup a.branchId).filter fun b => b.conv = a.conv
  let c ← (db.conversations.lookup a.conv.conversationId).filter fun c =>
    c.owner = a.conv.toOwnerScope
  return {
    conv := a.conv, branchId := a.branchId, turnId := a.turnId, turnSeq := t.turnSeq
    mode := c.mode, provider := b.provider, surface := b.surface, model := b.model
    causalVersion := b.causalVersion, conversationStatus := c.status
    nativeRequestConfigContentId := t.nativeRequestConfigContentId }

/-- `readNativeRequestConfig`. -/
def readNativeRequestConfig (owner : OwnerScope) (contentId : Uuid) (db : ConvDb) :
    Option EncryptedContentRef :=
  ((db.contents.lookup contentId).filter fun c => owner.Sees c.conv).map fun c =>
    ⟨c.toContentEnvelope, c.status⟩

/-- `readActiveProviderCredential`. -/
def readActiveProviderCredential (owner : OwnerScope) (provider : DispatchProvider) (db : ConvDb) :
    Option (Keyed CredentialRow) :=
  (db.credentials.entries.find? fun e =>
    e.2.orgId = owner.orgId ∧ e.2.provider = provider.text ∧ e.2.active).map fun e => (e.1, e.2)

/-- What the load transaction reads before the context plan. -/
structure RequestInputs where
  context : ExecutionContext
  tenant : Option TenantFacts
  config : Option EncryptedContentRef
  plan : Option DispatchPlan
  credential : Option (Keyed CredentialRow)

/-- What the load transaction returns. -/
structure Loaded where
  inputs : RequestInputs
  /-- The context plan, or the reason why it is unbuildable; `none` for an unsupported surface. -/
  contextPlan : Option (Except String DurableContextPlan)

/-- The error of a read program as a value. -/
def ReadProgram.attempt {D ε ε' α : Type} : ReadProgram D ε α → ReadProgram D ε' (Except ε α)
  | done r => pure r
  | stmt next => stmt fun d => (next d).attempt

/-- The context plan for the turn of an execution context. -/
def contextPlanOf (context : ExecutionContext) : ContextRead DurableContextPlan :=
  loadDurableContextPlan context.conv context.branchId context.turnSeq defaultContextBudget

/-- The load transaction of `driveClaimedAttemptInner`: the causal version is read first, the context
plan last. -/
def loadTransaction (owner : OwnerScope) (attemptId : Uuid) :
    ReadProgram ConvDb Empty (Option Loaded) := do
  match ← .read (readExecutionContext owner attemptId) with
  | none => return none
  | some context =>
    let tenant ← .read (·.orgs.lookup owner.orgId)
    let config ← .read (readNativeRequestConfig owner context.nativeRequestConfigContentId)
    match resolveDispatchPlan context.provider context.surface context.mode with
    | none => return some ⟨⟨context, tenant, config, none, none⟩, none⟩
    | some plan =>
      let credential ← .read (readActiveProviderCredential owner plan.provider)
      let contextPlan ← (contextPlanOf context).attempt
      return some ⟨⟨context, tenant, config, some plan, credential⟩, some contextPlan⟩

/-! ## The built request -/

/-- What the adapter builds: the body, whether it asks for a stream, and the encrypted anchor. -/
structure BuiltRequest where
  body : Bytes
  isStream : Bool
  continuationParent : Option (Bytes × Bytes × String × ℤ)
deriving DecidableEq

/-- The configuration of the executor, and the pure part of its build: what the decrypted context
plan, the native request and the credential make at a moment, or a refusal. -/
structure ExecutorDeps where
  claimant : String
  leaseMs : ℕ
  recoveryGraceMs : ℕ
  streamFlushBytes : ℕ
  buildRequest : RequestInputs → DurableContextPlan → ℤ → Option BuiltRequest

/-- A request that a drive has built. -/
structure PreparedRequest where
  inputs : RequestInputs
  contextPlan : DurableContextPlan
  nowMs : ℤ
  built : BuiltRequest

/-! ## Statements in flight -/

/-- The arguments of `persistOutputItem`, with the encrypted content and the id of its row. -/
structure OutputArgs where
  attemptId : Uuid
  claimToken : Uuid
  itemType : ConversationItemType
  contentId : Uuid
  content : ContentRow

/-- The next statement of a transaction that a worker has sent. -/
inductive Op where
  /-- The arm `queued_head`. -/
  | claim (attemptId claimToken : Uuid)
  /-- The arm `accepted_lease_expired`. -/
  | rotate (attemptId expectedToken claimToken : Uuid)
  /-- The arm `dispatching_lease_expired`, first statement. -/
  | reclaim (attemptId expectedToken claimToken : Uuid)
  /-- `ratchetAndWake`: the second statement of that arm, and the arm `streaming_lease_expired`. -/
  | ratchet (attemptId expectedToken : Uuid)
  /-- The boundary transaction, first statement: the share lock on the root. -/
  | lockRoot (conversationId : Uuid) (b : BoundaryArgs)
  | boundary (b : BoundaryArgs)
  /-- The transaction of `beforeDispatch`, first statement. -/
  | authority (attemptId claimToken credentialId : Uuid) (provider : DispatchProvider)
  | provenance (attemptId claimToken credentialId : Uuid) (provider : DispatchProvider)
  | restore (attemptId claimToken : Uuid)
  | heartbeat (attemptId claimToken : Uuid)
  | markStreaming (attemptId claimToken : Uuid)
  /-- `persistOutputItem`, first statement: the next `item_seq`. -/
  | itemSeq (p : OutputArgs)
  /-- The content row and the fenced SELECT. -/
  | append (p : OutputArgs) (itemSeq : ℕ)
  /-- The item row is written, and the transaction has not committed. -/
  | commitItem (p : OutputArgs) (item : ItemRow)
  /-- `finalizeAndWake`. -/
  | finalize (context : ExecutionContext) (attemptId claimToken : Uuid) (state : AttemptState)
      (errorClass : Option AttemptErrorClass)

/-- What a statement leads to: the next statement of the transaction, or its commit with the answer
of the call. -/
inductive OpResult where
  | next (op : Op)
  | done (reply : Bool) (db : ConvDb)

/-- A transaction of one UPDATE, which answers whether it found its row. -/
def OpResult.ofUpdate (r : Option AttemptRow × ConvDb) : OpResult := .done r.1.isSome r.2

/-- `ratchetAndWake`. -/
def ratchetAndWake (deps : ExecutorDeps) (st : Statement) (attemptId expectedToken : Uuid)
    (db : ConvDb) : Except String (Bool × ConvDb) := do
  let (ratcheted, db) ← ratchetStrandedToOutcomeUnknown st attemptId expectedToken
    deps.recoveryGraceMs db
  match ratcheted with
  | none => return (false, db)
  | some _ =>
    match readExecutionContext st.owner attemptId db with
    | none => return (true, db)
    | some context => return (true, bumpBranchCausalVersion st context.conv context.branchId db)

/-- The transaction of `finalizeAndWake`. -/
def finalizeAndWake (st : Statement) (context : ExecutionContext) (attemptId claimToken : Uuid)
    (state : AttemptState) (errorClass : Option AttemptErrorClass) (db : ConvDb) :
    Except String (Bool × ConvDb) := do
  let (finalized, db) ← finalizeAttempt st attemptId claimToken state errorClass db
  match finalized with
  | none => return (false, db)
  | some _ => return (true, bumpBranchCausalVersion st context.conv context.branchId db)

/-- One statement of a transaction in flight. -/
def Op.exec (deps : ExecutorDeps) (st : Statement) (db : ConvDb) : Op → Except String OpResult
  | claim x t => (claimQueuedHead st x t deps.claimant deps.leaseMs db).map .ofUpdate
  | rotate x e t => (rotateExpiredAcceptedClaim st x e t deps.claimant deps.leaseMs db).map .ofUpdate
  | reclaim x e t => do
    let r ← restoreProvenanceAbsentDispatching st x e t deps.claimant deps.leaseMs
      deps.recoveryGraceMs db
    match r.1 with
    | some _ => return .done true r.2
    | none => return .next (.ratchet x e)
  -- A ratchet hands out no claim, so that the call answers `false` to its drive.
  | ratchet x e => (ratchetAndWake deps st x e db).map fun r => .done false r.2
  | lockRoot c b =>
    if (lockRootForDispatch st c db).any isRootExecutionEligible then .ok (.next (.boundary b))
    else .ok (.done false db)
  | boundary b => (commitDispatchBoundary st b db).map .ofUpdate
  | authority x t c p =>
    match readPrePostAuthority st x t db with
    | none => .ok (.done false db)
    | some a =>
      if a.state = .dispatching ∧ a.leaseValid ∧ ¬a.stopRequested then .ok (.next (.provenance x t c p))
      else .ok (.done false db)
  | provenance x t c p => (commitCredentialProvenance st x t c p.text db).map .ofUpdate
  | restore x t => (restoreDispatchingToAccepted st x t deps.leaseMs db).map .ofUpdate
  | heartbeat x t => (heartbeatClaim st x t deps.leaseMs db).map .ofUpdate
  | markStreaming x t => (GovAI.markStreaming st x t db).map .ofUpdate
  | itemSeq p => .ok (.next (.append p (nextAttemptItemSeq st p.attemptId db)))
  | append p seq =>
    match fencedOutputItem st p.attemptId p.claimToken seq p.itemType p.contentId db with
    -- `OutputFenceLost` rolls the content row back.
    | none => .ok (.done false db)
    | some item => .ok (.next (.commitItem p item))
  | commitItem p item => do
    let db ← insertContent p.contentId p.content db
    let db ← insertItem item db
    return .done true db
  | finalize context x t state errorClass =>
    (finalizeAndWake st context x t state errorClass db).map fun r => .done r.1 r.2

/-! ## The state of a drive -/

/-- How far the dispatch of a drive has come. -/
inductive Stage where
  /-- No boundary commit has been sent. -/
  | preparing
  /-- The boundary commit has been sent. -/
  | boundarySent
  /-- The boundary commit is acknowledged. -/
  | dispatching
  /-- The provenance gate has been entered. -/
  | gateEntered
  /-- The provenance commit is acknowledged. -/
  | gatePassed
  /-- `markStreaming` has been sent. -/
  | streamingSent
  /-- `markStreaming` is acknowledged. -/
  | streaming
deriving DecidableEq

/-- The order of the stages. -/
def Stage.rank : Stage → ℕ
  | preparing => 0
  | boundarySent => 1
  | dispatching => 2
  | gateEntered => 3
  | gatePassed => 4
  | streamingSent => 5
  | streaming => 6

/-- A provider response: the status, and the body unless it is streamed. -/
structure ProviderResponse where
  status : ℕ
  body : Option Bytes
deriving DecidableEq

/-- What follows the flush of a stream buffer. -/
inductive AfterFlush where
  /-- Go on reading. -/
  | drain
  /-- The stream has ended: emit the terminal evidence. -/
  | evidence
  /-- The upstream has failed: the fate is unprovable. -/
  | unprovable
deriving DecidableEq

/-- The terminal transitions, by what an exception in place of their answer leads to. -/
inductive TerminalCall where
  /-- That of a known provider result: the handler of `OutputPersistenceFailed`. -/
  | known
  /-- That of a governance refusal: the handler of an error before the forward. -/
  | refused
  /-- Any other: the exception leaves the executor. -/
  | last
deriving DecidableEq

/-- The program points of a drive. -/
inductive DrivePoint where
  /-- The compare-and-set of the arm is out. -/
  | arming
  | loading (rest : ReadProgram ConvDb Empty (Option Loaded))
  | loaded (l : Loaded)
  /-- The boundary transaction is out. -/
  | boundary
  | dispatching
  /-- The transaction of `beforeDispatch` is out. -/
  | gate
  | gatePassed
  /-- The POST has been sent. -/
  | fetched
  /-- `markStreaming` is out. -/
  | marking (response : ProviderResponse)
  | recording (response : ProviderResponse)
  /-- The append of the response is out. -/
  | persisting (status : ℕ)
  | draining (status : ℕ) (buffer : Bytes)
  /-- The append of a stream chunk is out. -/
  | flushing (status : ℕ) (after : AfterFlush)
  | evidence (status : ℕ)
  /-- An append has lost its fence in the middle of a stream. -/
  | fenced
  /-- A terminal transition is out. -/
  | finalizing (kind : TerminalCall)
  /-- The fenced restore is out. -/
  | restoring
  | finished

/-- One execution under one claim token. -/
structure Drive where
  owner : OwnerScope
  attemptId : Uuid
  stage : Stage
  point : DrivePoint
  /-- The transaction that the drive waits for. -/
  call : Option Op
  /-- What the load transaction returned. -/
  context : Option ExecutionContext
  /-- The request built for the dispatch boundary. -/
  request : Option PreparedRequest
  /-- The bytes of the response stream received so far. -/
  received : ℕ

/-- `classifyStatus`. -/
def classifyStatus (status : ℕ) : AttemptState × Option AttemptErrorClass :=
  if 200 ≤ status ∧ status < 300 then (.completed, none)
  else if status = 401 ∨ status = 403 then (.failed, some .authRejected)
  else if status = 413 then (.failed, some .requestTooLarge)
  else if status = 429 then (.failed, some .rateLimited)
  else (.failed, some .providerError)

/-- The drive ends. -/
def Drive.finish (d : Drive) : Drive := { d with point := .finished, call := none }

/-- The drive goes to a point at which it waits for nothing. -/
def Drive.goto (d : Drive) (point : DrivePoint) : Drive := { d with point := point, call := none }

/-- The drive sends a transaction. -/
def Drive.send (d : Drive) (point : DrivePoint) (op : Op) : Drive :=
  { d with point := point, call := some op }

/-- The drive sends a terminal transition. -/
def Drive.finalize (d : Drive) (token : Uuid) (kind : TerminalCall) (state : AttemptState)
    (errorClass : Option AttemptErrorClass) : Drive :=
  match d.context with
  | some context => d.send (.finalizing kind) (.finalize context d.attemptId token state errorClass)
  | none => d.finish

/-- `finalizeKnownResult` for a classified status. -/
def Drive.finalizeKnown (d : Drive) (token : Uuid) (status : ℕ) : Drive :=
  d.finalize token .known (classifyStatus status).1 (classifyStatus status).2

/-- The handler of `OutputPersistenceFailed`. -/
def Drive.persistenceFailed (d : Drive) (token : Uuid) : Drive :=
  d.finalize token .last .failed (some .persistenceError)

/-- The handler of an error before the forward started. -/
def Drive.localFailed (d : Drive) (token : Uuid) : Drive :=
  d.finalize token .last .failed (some .localError)

/-- The handler of an error after the forward started. -/
def Drive.unprovable (d : Drive) (token : Uuid) : Drive :=
  d.finalize token .last .outcomeUnknown none

/-- The drive under `token` receives the answer of its transaction. -/
def Drive.resume (token : Uuid) (d : Drive) (reply : Bool) : Drive :=
  match d.point, reply with
  | .arming, true => d.goto (.loading (loadTransaction d.owner d.attemptId))
  | .boundary, true => { d.goto .dispatching with stage := .dispatching }
  | .gate, true => { d.goto .gatePassed with stage := .gatePassed }
  -- `ProvenanceGateRejected`: no POST has been sent.
  | .gate, false => d.send .restoring (.restore d.attemptId token)
  | .marking response, true => { d.goto (.recording response) with stage := .streaming }
  | .persisting status, true => d.finalizeKnown token status
  | .flushing status .drain, true => d.goto (.draining status [])
  | .flushing status .evidence, true => d.goto (.evidence status)
  -- The flush of the `finally` block: its answer is ignored.
  | .flushing _ .unprovable, _ => d.unprovable token
  | .flushing _ _, false => d.goto .fenced
  | _, _ => d.finish

/-- The drive under `token` receives an exception instead of an answer. -/
def Drive.raise (token : Uuid) (d : Drive) : Drive :=
  match d.point with
  | .gate => d.localFailed token
  | .marking _ | .persisting _ => d.persistenceFailed token
  | .flushing _ .unprovable => d.unprovable token
  | .flushing _ _ => d.persistenceFailed token
  | .finalizing .known => d.persistenceFailed token
  | .finalizing .refused => d.localFailed token
  | _ => d.finish

/-! ## The moves between two calls -/

/-- A content row for output of the attempt: an envelope that the KMS returned, of any value. -/
def Drive.outputArgs (d : Drive) (token : Uuid) (itemType : ConversationItemType)
    (contentId : Uuid) (content : ContentRow) : OutputArgs :=
  ⟨d.attemptId, token, itemType, contentId, content⟩

/-- The boundary transaction for a built request. -/
def Drive.boundaryOp (deps : ExecutorDeps) (d : Drive) (token requestId : Uuid)
    (r : PreparedRequest) : Op :=
  .lockRoot r.inputs.context.conv.conversationId
    ⟨d.attemptId, token, deps.leaseMs, r.inputs.context.causalVersion, requestId,
      r.built.continuationParent⟩

/-- The row of a content that a worker inserts. -/
def ContentRow.ForOutput (content : ContentRow) (d : Drive) : Prop :=
  content.status = .active ∧ content.dekWrapped ≠ none ∧
    ∃ context ∈ d.context, content.conv = context.conv

/-- The moves of a drive on its own; `token` is its claim token and `db` the committed state. -/
inductive DriveMove (deps : ExecutorDeps) (token : Uuid) (db : ConvDb) (d : Drive) : Drive → Prop
  /-- One statement of the load transaction. -/
  | read {next} (hp : d.point = .loading (.stmt next)) :
      DriveMove deps token db d (d.goto (.loading (next db)))
  /-- The load transaction commits. -/
  | load {l : Loaded} (hp : d.point = .loading (.done (.ok (some l)))) (ht : l.inputs.tenant ≠ none) :
      DriveMove deps token db d { d.goto (.loaded l) with context := some l.inputs.context }
  /-- An exception, or an attempt that has vanished: nothing is written. -/
  | give (hp : (∃ rest, d.point = .loading rest) ∨ ∃ l, d.point = .loaded l) :
      DriveMove deps token db d d.finish
  /-- A refusal before the boundary: surface, config or context. -/
  | reject {l : Loaded} (hp : d.point = .loaded l) :
      DriveMove deps token db d (d.finalize token .last .rejected none)
  /-- No usable credential. -/
  | noCredential {l : Loaded} (hp : d.point = .loaded l) (hplan : l.inputs.plan ≠ none) :
      DriveMove deps token db d (d.finalize token .last .failed (some .credentialUnavailable))
  /-- The request is built and the boundary transaction sent. -/
  | build {l : Loaded} {credential : Keyed CredentialRow} {plan : DurableContextPlan} {nowMs : ℤ}
      {built : BuiltRequest} {requestId : Uuid} (hp : d.point = .loaded l)
      (hcredential : l.inputs.credential = some credential)
      (hplan : l.contextPlan = some (.ok plan))
      (hbuilt : deps.buildRequest l.inputs plan nowMs = some built) :
      DriveMove deps token db d
        { d.send .boundary (d.boundaryOp deps token requestId ⟨l.inputs, plan, nowMs, built⟩) with
          stage := .boundarySent
          request := some ⟨l.inputs, plan, nowMs, built⟩ }
  /-- Governance refuses before the forward. -/
  | blocked (hp : d.point = .dispatching) :
      DriveMove deps token db d (d.finalize token .refused .rejected none)
  /-- An error before the forward: in the pipeline, or an abort after the gate. -/
  | localError (hp : d.point = .dispatching ∨ d.point = .gatePassed) :
      DriveMove deps token db d (d.localFailed token)
  /-- `beforeDispatch`. -/
  | enterGate {r : PreparedRequest} {credential : Keyed CredentialRow} {plan : DispatchPlan}
      (hp : d.point = .dispatching) (hr : d.request = some r)
      (hcredential : r.inputs.credential = some credential) (hplan : r.inputs.plan = some plan) :
      DriveMove deps token db d
        { d.send .gate (.authority d.attemptId token credential.1 plan.provider) with
          stage := .gateEntered }
  /-- No response: a connection error or a timeout. -/
  | noResponse (hp : d.point = .fetched) : DriveMove deps token db d (d.unprovable token)
  /-- The audit event of the response could not be written. -/
  | evidenceLost (hp : d.point = .fetched) : DriveMove deps token db d (d.persistenceFailed token)
  /-- The provider answers, with a stream if the body asked for one. -/
  | response {r : PreparedRequest} (response : ProviderResponse) (hp : d.point = .fetched)
      (hr : d.request = some r) (hstream : response.body.isNone = r.built.isStream) :
      DriveMove deps token db d
        { d.send (.marking response) (.markStreaming d.attemptId token) with
          stage := .streamingSent }
  /-- A whole response is encrypted and sent to be stored. -/
  | persist {response : ProviderResponse} {body : Bytes} {contentId : Uuid} {content : ContentRow}
      (hp : d.point = .recording response) (hbody : response.body = some body)
      (hcontent : content.ForOutput d) :
      DriveMove deps token db d (d.send (.persisting response.status)
        (.itemSeq (d.outputArgs token .nativeResponse contentId content)))
  /-- A stream is drained. -/
  | drain {response : ProviderResponse} (hp : d.point = .recording response)
      (hbody : response.body = none) :
      DriveMove deps token db d (d.goto (.draining response.status []))
  /-- A chunk below the flush threshold, or an empty buffer, which is not flushed. -/
  | chunk {status : ℕ} {buffer bytes : Bytes} (hp : d.point = .draining status buffer)
      (hsmall : (buffer ++ bytes).length < deps.streamFlushBytes ∨ buffer ++ bytes = []) :
      DriveMove deps token db d
        { d.goto (.draining status (buffer ++ bytes)) with received := d.received + bytes.length }
  /-- A chunk that reaches the threshold flushes the buffer, unless it is empty. -/
  | fullChunk {status : ℕ} {buffer bytes : Bytes} {contentId : Uuid} {content : ContentRow}
      (hp : d.point = .draining status buffer)
      (hlarge : deps.streamFlushBytes ≤ (buffer ++ bytes).length) (hne : buffer ++ bytes ≠ [])
      (hcontent : content.ForOutput d) :
      DriveMove deps token db d
        { d.send (.flushing status .drain)
            (.itemSeq (d.outputArgs token .nativeStreamChunk contentId content)) with
          received := d.received + bytes.length }
  /-- The end of the stream, with bytes left to flush. -/
  | eof {status : ℕ} {buffer : Bytes} {contentId : Uuid} {content : ContentRow}
      (hp : d.point = .draining status buffer) (hne : buffer ≠ []) (hcontent : content.ForOutput d) :
      DriveMove deps token db d (d.send (.flushing status .evidence)
        (.itemSeq (d.outputArgs token .nativeStreamChunk contentId content)))
  /-- The end of the stream, with nothing left to flush. -/
  | eofEmpty {status : ℕ} (hp : d.point = .draining status []) :
      DriveMove deps token db d (d.goto (.evidence status))
  /-- The upstream fails, with bytes left to flush. -/
  | upstreamError {status : ℕ} {buffer : Bytes} {contentId : Uuid} {content : ContentRow}
      (hp : d.point = .draining status buffer) (hne : buffer ≠ []) (hcontent : content.ForOutput d) :
      DriveMove deps token db d (d.send (.flushing status .unprovable)
        (.itemSeq (d.outputArgs token .nativeStreamChunk contentId content)))
  /-- The upstream fails, and what is left cannot be encrypted or is empty. -/
  | upstreamErrorLost {status : ℕ} {buffer : Bytes} (hp : d.point = .draining status buffer) :
      DriveMove deps token db d (d.unprovable token)
  /-- The KMS fails to encrypt the output. -/
  | encryptFails (hp : (∃ response, d.point = .recording response) ∨
      ∃ status buffer, d.point = .draining status buffer) :
      DriveMove deps token db d (d.persistenceFailed token)
  /-- The terminal evidence of the stream is recorded. -/
  | evidenceEmitted {status : ℕ} (hp : d.point = .evidence status) :
      DriveMove deps token db d (d.finalizeKnown token status)
  /-- The terminal evidence of the stream cannot be recorded. -/
  | evidenceFails (hp : d.point = .fenced ∨ ∃ status, d.point = .evidence status) :
      DriveMove deps token db d (d.persistenceFailed token)
  /-- A fenced stream ends without another write. -/
  | fencedOut (hp : d.point = .fenced) : DriveMove deps token db d d.finish

end GovAI
