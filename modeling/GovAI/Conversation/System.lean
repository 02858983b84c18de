import GovAI.Conversation.Requests
import GovAI.Library.TransitionSystem

/-!
# The conversation system

All interleavings of the sends and forks of an owner, of the drives of any number of workers, and of
what else writes the tables: `createConversation`, archiving, the durable stop flag, and the tables
of other components (organisations and credentials).

A statement runs on the committed state of the moment or, for the predicates of an UPDATE that read
other rows, on a state committed earlier.  A transaction whose answer is lost stays in flight and may
still run, or never.  The state keeps the trace of commits and POSTs, which only the statements of
the results read.
-/

namespace GovAI

/-! ## States -/

/-- What has happened: a commit of the tables, or a POST. -/
inductive TraceEvent where
  | commit (db : ConvDb)
  | fetch (attemptId token : Uuid)

/-- The program points of a `sendTurn` call. -/
inductive SendPoint where
  | prepared (content : ContentRow)
  /-- The root lock is held. -/
  | locked (content : ContentRow)
  /-- The statements have run, and the transaction has not committed. -/
  | reserved (r : Reservation)
  /-- Rolled back: the committed turn answers. -/
  | resolving (rest : ReadProgram ConvDb SendError (Uuid × TurnRow × Option EncryptedContentRef))
  /-- The answer: the turn, and whether it is a replay. -/
  | done (result : Except SendError (Uuid × Bool))
  /-- An exception. -/
  | failed

/-- A call of `sendTurn`. -/
structure SendCall where
  conv : Lineage
  input : SendTurnInput
  point : SendPoint

/-- `ForkBranchProjection`. -/
structure ForkProjection where
  branchId : Uuid
  conversationId : Uuid
  fork : ForkColumns
  provider : String
  surface : String
  model : String
  createdAt : ℤ
  childTurn : Option (Uuid × Uuid)
deriving DecidableEq

/-- The program points of a `createFork` call. -/
inductive ForkPoint where
  | started
  /-- The root lock is held. -/
  | locked
  /-- The statements have run, and the transaction has not committed. -/
  | reserved (r : ForkReservation)
  /-- Rolled back: the committed binding answers. -/
  | resolving (rest : ReadProgram ConvDb ForkError ForkProjection)
  /-- The answer: the projection, and whether it is a replay. -/
  | done (result : Except ForkError (ForkProjection × Bool))
  /-- An exception. -/
  | failed

/-- A call of `createFork`. -/
structure ForkCall where
  conv : Lineage
  input : CreateForkInput
  point : ForkPoint

/-- A state of the system. -/
structure ConvState where
  db : ConvDb
  /-- The commits and POSTs so far, newest first. -/
  trace : List TraceEvent
  /-- The drives, by claim token. -/
  drives : Uuid → Option Drive
  /-- The transactions that nobody waits for any more. -/
  orphans : List (OwnerScope × Op)
  sends : ℕ → Option SendCall
  forks : ℕ → Option ForkCall
  /-- The call that holds the lock of a conversation root: a send or a fork. -/
  rootLock : Uuid → Option (ℕ ⊕ ℕ)

/-- A new committed state. -/
def ConvState.commit (s : ConvState) (db : ConvDb) : ConvState :=
  { s with db := db, trace := .commit db :: s.trace }

/-- Overwrite a drive. -/
def ConvState.setDrive (s : ConvState) (token : Uuid) (d : Drive) : ConvState :=
  { s with drives := Function.update s.drives token (some d) }

/-- Overwrite the point of a `sendTurn` call. -/
def ConvState.setSend (s : ConvState) (n : ℕ) (c : SendCall) (point : SendPoint) : ConvState :=
  { s with sends := Function.update s.sends n (some { c with point := point }) }

/-- Overwrite the point of a `createFork` call. -/
def ConvState.setFork (s : ConvState) (n : ℕ) (c : ForkCall) (point : ForkPoint) : ConvState :=
  { s with forks := Function.update s.forks n (some { c with point := point }) }

/-- Take or release the lock of a root. -/
def ConvState.setLock (s : ConvState) (conversationId : Uuid) (holder : Option (ℕ ⊕ ℕ)) : ConvState :=
  { s with rootLock := Function.update s.rootLock conversationId holder }

/-- A state that was committed at some time. -/
def ConvState.Past (s : ConvState) (db : ConvDb) : Prop := .commit db ∈ s.trace

/-- A statement that the owner may run in a state. -/
structure ConvState.Runs (s : ConvState) (owner : OwnerScope) (st : Statement) : Prop where
  owner : st.owner = owner
  snapshot : s.Past st.snapshot

/-! ## The answers of a duplicate -/

/-- The pure parts that the calls use: the hash, decryption, and the parser. -/
structure ConvEnv where
  deps : ExecutorDeps
  sha256 : Bytes → Bytes
  /-- `decryptConversationContent`. -/
  decrypt : Uuid → EncryptedContentRef → Option Bytes
  /-- `JSON.parse` of the decoded bytes. -/
  parse : Bytes → Option JsonValue

/-- `buildSendIntent`. -/
def buildSendIntent (conversationId : Uuid) (branchId : String) (nativeRequest : JsonValue) :
    JsonValue :=
  .obj [
    (jsString "contract", .text "govai.ai_conversation_send_intent.v1"),
    (jsString "conversation_id", .text conversationId.toText),
    (jsString "branch_id", .text (lowerCase branchId)),
    (jsString "native_request", nativeRequest)]

/-- `sendIntentHash`. -/
def sendIntentHash (sha256 : Bytes → Bytes) (intent : JsonValue) : Bytes :=
  sha256 (utf8Bytes (stableCanonicalJson intent))

/-- The transaction of `resolveCommittedSend`. -/
def readCommittedSend (conv : Lineage) (input : SendTurnInput) :
    ReadProgram ConvDb SendError (Uuid × TurnRow × Option EncryptedContentRef) := do
  match ← .read (findTurnByClientTurnId conv input.clientTurnId.value) with
  | none => .fail .loserSignal
  | some turn =>
    let stored ← .read fun db : ConvDb =>
      ((db.contents.lookup turn.2.nativeRequestConfigContentId).filter fun c => c.conv = conv).map
        fun c => (⟨c.toContentEnvelope, c.status⟩ : EncryptedContentRef)
    return (turn.1, turn.2, stored)

/-- The comparison of `resolveCommittedSend`. -/
def compareCommittedSend (env : ConvEnv) (conv : Lineage) (input : SendTurnInput) (turnId : Uuid)
    (turn : TurnRow) (stored : Option EncryptedContentRef) : Except SendError (Uuid × Bool) :=
  match (stored.bind (env.decrypt conv.orgId)).bind env.parse with
  | none => .error .idempotencyConflict
  | some committed =>
    if sendIntentHash env.sha256 (buildSendIntent conv.conversationId turn.branchId.toText committed) =
        sendIntentHash env.sha256
          (buildSendIntent conv.conversationId input.branchId.text input.nativeRequest) then
      .ok (turnId, true)
    else .error .idempotencyConflict

/-- `projectFork`. -/
def projectFork (branchId : Uuid) (b : BranchRow) (child : Option (Uuid × Uuid)) : ForkProjection :=
  ⟨branchId, b.conv.conversationId, b.fork, b.provider, b.surface, b.model, b.createdAt, child⟩

/-- `getForkMintedChildTurn`: the first turn of the branch with its first attempt. -/
def getForkMintedChildTurn (conv : Lineage) (branchId : Uuid) (db : ConvDb) : Option (Uuid × Uuid) :=
  (db.turns.entries.find? fun e => e.2.conv = conv ∧ e.2.branchId = branchId ∧
      e.2.turnSeq = 1).bind fun t =>
    (db.attempts.entries.find? fun e => e.2.conv = conv ∧ e.2.branchId = branchId ∧
        e.2.turnId = t.1 ∧ e.2.attemptSeq = 1).map fun a => (t.1, a.1)

/-- The transaction of `resolveCommittedFork`. -/
def resolveCommittedFork (conv : Lineage) (clientForkId : Uuid) (intentHash : Bytes) :
    ReadProgram ConvDb ForkError ForkProjection := do
  match ← .read (findForkBinding conv clientForkId) with
  | none => .fail (.invariant "fork reservation was lost but no committed binding is readable")
  | some binding =>
    .failIf (binding.forkIntentHash ≠ intentHash) .idempotencyConflict
    match ← .read fun db : ConvDb => (db.branches.lookup binding.branchId).filter fun b =>
        b.conv = conv ∧ b.fork.parentBranchId ≠ none with
    | none => .fail (.invariant "fork binding references an unreadable branch")
    | some branch =>
      if branch.fork.boundaryMode = some .beforeAttemptOutput then
        match ← .read (getForkMintedChildTurn conv binding.branchId) with
        | none => .fail (.invariant
            "fork binding references a before_attempt_output branch with no child turn")
        | some child => return projectFork binding.branchId branch (some child)
      else return projectFork binding.branchId branch none

/-- The projection that the winner of a fork returns. -/
def ForkReservation.projection (r : ForkReservation) : ForkProjection :=
  projectFork r.branchId r.branch (r.child.map fun c => (c.turnId, c.attemptId))

/-! ## Steps -/

/-- The labels of the steps. -/
inductive ConvLabel where
  /-- A worker sends the compare-and-set of an arm under a new token. -/
  | arm (token : Uuid)
  /-- A drive moves on its own. -/
  | move (token : Uuid) (d : Drive)
  /-- A drive POSTs. -/
  | fetch (token : Uuid)
  /-- A statement that a drive waits for runs. -/
  | serve (token : Uuid) (st : Statement)
  /-- A drive receives an exception instead of an answer. -/
  | raise (token : Uuid)
  /-- The process of a drive dies. -/
  | crash (token : Uuid)
  /-- A transaction that nobody waits for is sent, or one of its statements runs. -/
  | spawn (owner : OwnerScope) (op : Op)
  | orphan (owner : OwnerScope) (op : Op) (st : Statement)
  /-- A transaction that nobody waits for is rolled back. -/
  | lose (owner : OwnerScope) (op : Op)
  /-- A step of a `sendTurn` or `createFork` call. -/
  | send (n : ℕ)
  | fork (n : ℕ)
  /-- What else writes the tables. -/
  | external

/-- The operations that arm a drive. -/
def Op.Arms (attemptId token : Uuid) : Op → Prop
  | claim x t => x = attemptId ∧ t = token
  | rotate x _ t => x = attemptId ∧ t = token
  | reclaim x _ t => x = attemptId ∧ t = token
  | _ => False

/-- The transactions that no drive waits for: the heartbeats of a drive and the arm
`streaming_lease_expired`. -/
def ConvState.Spawns (s : ConvState) (owner : OwnerScope) : Op → Prop
  | .heartbeat x t => ∃ d, s.drives t = some d ∧ d.attemptId = x ∧ d.owner = owner
  | .ratchet _ _ => True
  | _ => False

/-- A drive before its first call. -/
def Drive.start (owner : OwnerScope) (attemptId : Uuid) (op : Op) : Drive :=
  ⟨owner, attemptId, .preparing, .arming, some op, none, none, 0⟩

/-- What the other components write: organisations, credentials, a new conversation, the status of a
conversation, the stop flag of a non-terminal attempt. -/
inductive ExternalWrite (db : ConvDb) : ConvDb → Prop
  | tables (orgs : Table TenantFacts) (credentials : Table CredentialRow) :
      ExternalWrite db { db with orgs := orgs, credentials := credentials }
  | create {conversationId branchId : Uuid} {c : ConversationRow} {now : ℤ} {db' : ConvDb}
      (h : createConversation conversationId branchId c now db = .ok db') : ExternalWrite db db'
  | patch {conversationId : Uuid} {c : ConversationRow} (status : ConversationStatus)
      (hc : db.conversations.lookup conversationId = some c)
      (hold : isRootExecutionEligible c.status) (hnew : isRootExecutionEligible status) :
      ExternalWrite db { db with
        conversations := db.conversations.insert conversationId { c with status := status } }
  | requestStop {attemptId : Uuid} {a : AttemptRow} (ha : db.attempts.lookup attemptId = some a)
      (hstate : a.state.nonTerminal)
      (hcheck : checkUpdate a { a with stopRequested := true } = .ok ()) :
      ExternalWrite db (db.setAttempt attemptId { a with stopRequested := true })

/-- The steps of the system. -/
inductive ConvStep (env : ConvEnv) (s : ConvState) : ConvLabel → ConvState → Prop
  | arm {token attemptId : Uuid} {owner : OwnerScope} {op : Op} (hfresh : s.drives token = none)
      (hop : op.Arms attemptId token) :
      ConvStep env s (.arm token) (s.setDrive token (.start owner attemptId op))
  | move {token : Uuid} {d d' : Drive} (hd : s.drives token = some d)
      (hmove : DriveMove env.deps token s.db d d') :
      ConvStep env s (.move token d') (s.setDrive token d')
  | fetch {token : Uuid} {d : Drive} (hd : s.drives token = some d) (hp : d.point = .gatePassed) :
      ConvStep env s (.fetch token)
        { s.setDrive token (d.goto .fetched) with
          trace := .fetch d.attemptId token :: s.trace }
  | serveNext {token : Uuid} {d : Drive} {op op' : Op} {st : Statement}
      (hd : s.drives token = some d) (hcall : d.call = some op) (hst : s.Runs d.owner st)
      (hexec : op.exec env.deps st s.db = .ok (.next op')) :
      ConvStep env s (.serve token st) (s.setDrive token { d with call := some op' })
  | serveDone {token : Uuid} {d : Drive} {op : Op} {st : Statement} {reply : Bool} {db' : ConvDb}
      (hd : s.drives token = some d) (hcall : d.call = some op) (hst : s.Runs d.owner st)
      (hexec : op.exec env.deps st s.db = .ok (.done reply db')) :
      ConvStep env s (.serve token st) ((s.setDrive token (d.resume token reply)).commit db')
  | raise {token : Uuid} {d : Drive} {op : Op} (hd : s.drives token = some d)
      (hcall : d.call = some op) :
      ConvStep env s (.raise token)
        { s.setDrive token (d.raise token) with orphans := (d.owner, op) :: s.orphans }
  | crash {token : Uuid} {d : Drive} (hd : s.drives token = some d) :
      ConvStep env s (.crash token)
        { s.setDrive token d.finish with
          orphans := (d.call.toList.map fun op => (d.owner, op)) ++ s.orphans }
  | spawn {owner : OwnerScope} {op : Op} (hop : s.Spawns owner op) :
      ConvStep env s (.spawn owner op) { s with orphans := (owner, op) :: s.orphans }
  | orphanNext {owner : OwnerScope} {op op' : Op} {st : Statement} {before after}
      (ho : s.orphans = before ++ (owner, op) :: after) (hst : s.Runs owner st)
      (hexec : op.exec env.deps st s.db = .ok (.next op')) :
      ConvStep env s (.orphan owner op st)
        { s with orphans := before ++ (owner, op') :: after }
  | orphanDone {owner : OwnerScope} {op : Op} {st : Statement} {reply : Bool} {db' : ConvDb}
      {before after} (ho : s.orphans = before ++ (owner, op) :: after) (hst : s.Runs owner st)
      (hexec : op.exec env.deps st s.db = .ok (.done reply db')) :
      ConvStep env s (.orphan owner op st)
        ({ s with orphans := before ++ after }.commit db')
  | orphanLost {owner : OwnerScope} {op : Op} {before after}
      (ho : s.orphans = before ++ (owner, op) :: after) :
      ConvStep env s (.lose owner op) { s with orphans := before ++ after }
  -- sendTurn
  | sendStart {n : ℕ} {conv : Lineage} {input : SendTurnInput} {content : ContentRow}
      (hfresh : s.sends n = none) (hconv : content.conv = conv) (hactive : content.status = .active)
      (hsize : (nativeRequestBytes input.nativeRequest).length ≤ nativeRequestMaxBytes)
      (henc : env.decrypt conv.orgId ⟨content.toContentEnvelope, content.status⟩ =
        some (nativeRequestBytes input.nativeRequest)) :
      ConvStep env s (.send n) (s.setSend n ⟨conv, input, .failed⟩ (.prepared content))
  | sendTooLarge {n : ℕ} {conv : Lineage} {input : SendTurnInput} (hfresh : s.sends n = none)
      (hsize : nativeRequestMaxBytes < (nativeRequestBytes input.nativeRequest).length) :
      ConvStep env s (.send n)
        (s.setSend n ⟨conv, input, .failed⟩ (.done (.error .nativeRequestTooLarge)))
  | sendLock {n : ℕ} {c : SendCall} {content : ContentRow} (hc : s.sends n = some c)
      (hp : c.point = .prepared content) (hlock : s.rootLock c.conv.conversationId = none) :
      ConvStep env s (.send n)
        ((s.setSend n c (.locked content)).setLock c.conv.conversationId (some (.inl n)))
  | sendReserve {n : ℕ} {c : SendCall} {content : ContentRow} {ids : ReservationIds} {now : ℤ}
      {r : Reservation} (hc : s.sends n = some c) (hp : c.point = .locked content)
      (hr : reserveTurn c.conv c.input content ids now s.db = .reserved r) :
      ConvStep env s (.send n) (s.setSend n c (.reserved r))
  | sendRefuse {n : ℕ} {c : SendCall} {content : ContentRow} {ids : ReservationIds} {now : ℤ}
      {e : SendError} (hc : s.sends n = some c) (hp : c.point = .locked content)
      (hr : reserveTurn c.conv c.input content ids now s.db = .refused e) :
      ConvStep env s (.send n)
        ((s.setSend n c (.done (.error e))).setLock c.conv.conversationId none)
  | sendLose {n : ℕ} {c : SendCall} {content : ContentRow} {ids : ReservationIds} {now : ℤ}
      (hc : s.sends n = some c) (hp : c.point = .locked content)
      (hr : reserveTurn c.conv c.input content ids now s.db = .lost) :
      ConvStep env s (.send n)
        ((s.setSend n c (.resolving (readCommittedSend c.conv c.input))).setLock
          c.conv.conversationId none)
  /-- The commit; `acknowledged` is false when its answer is lost. -/
  | sendCommit {n : ℕ} {c : SendCall} {r : Reservation} {db' : ConvDb} (acknowledged : Bool)
      (hc : s.sends n = some c) (hp : c.point = .reserved r) (hr : r.commit s.db = .ok db') :
      ConvStep env s (.send n)
        (((s.setSend n c (if acknowledged then .done (.ok (r.ids.turnId, false)) else .failed)).setLock
          c.conv.conversationId none).commit db')
  /-- A rollback: an exception, a crash, or a violated constraint. -/
  | sendRollback {n : ℕ} {c : SendCall} (hc : s.sends n = some c)
      (hp : (∃ content, c.point = .locked content) ∨ ∃ r, c.point = .reserved r) :
      ConvStep env s (.send n) ((s.setSend n c .failed).setLock c.conv.conversationId none)
  | sendRead {n : ℕ} {c : SendCall} {next} (hc : s.sends n = some c)
      (hp : c.point = .resolving (.stmt next)) :
      ConvStep env s (.send n) (s.setSend n c (.resolving (next s.db)))
  | sendAnswer {n : ℕ} {c : SendCall} {r} (hc : s.sends n = some c)
      (hp : c.point = .resolving (.done r)) :
      ConvStep env s (.send n) (s.setSend n c (.done
        (r.bind fun t => compareCommittedSend env c.conv c.input t.1 t.2.1 t.2.2)))
  | sendFail {n : ℕ} {c : SendCall} (hc : s.sends n = some c)
      (hp : (∃ content, c.point = .prepared content) ∨ ∃ rest, c.point = .resolving rest) :
      ConvStep env s (.send n) (s.setSend n c .failed)
  -- createFork
  | forkStart {n : ℕ} {conv : Lineage} {input : CreateForkInput} (hfresh : s.forks n = none) :
      ConvStep env s (.fork n) (s.setFork n ⟨conv, input, .failed⟩ .started)
  | forkLock {n : ℕ} {c : ForkCall} (hc : s.forks n = some c) (hp : c.point = .started)
      (hlock : s.rootLock c.conv.conversationId = none) :
      ConvStep env s (.fork n)
        ((s.setFork n c .locked).setLock c.conv.conversationId (some (.inr n)))
  | forkReserve {n : ℕ} {c : ForkCall} {ids : ForkIds} {now : ℤ} {r : ForkReservation}
      (hc : s.forks n = some c) (hp : c.point = .locked)
      (hr : reserveFork env.sha256 c.conv c.input ids now s.db = .reserved r) :
      ConvStep env s (.fork n) (s.setFork n c (.reserved r))
  | forkRefuse {n : ℕ} {c : ForkCall} {ids : ForkIds} {now : ℤ} {e : ForkError}
      (hc : s.forks n = some c) (hp : c.point = .locked)
      (hr : reserveFork env.sha256 c.conv c.input ids now s.db = .refused e) :
      ConvStep env s (.fork n)
        ((s.setFork n c (.done (.error e))).setLock c.conv.conversationId none)
  | forkLose {n : ℕ} {c : ForkCall} {ids : ForkIds} {now : ℤ} {intentHash : Bytes}
      (hc : s.forks n = some c) (hp : c.point = .locked)
      (hr : reserveFork env.sha256 c.conv c.input ids now s.db = .lost intentHash) :
      ConvStep env s (.fork n)
        ((s.setFork n c (.resolving
          (resolveCommittedFork c.conv c.input.clientForkId.value intentHash))).setLock
          c.conv.conversationId none)
  /-- The commit; `acknowledged` is false when its answer is lost. -/
  | forkCommit {n : ℕ} {c : ForkCall} {r : ForkReservation} {db' : ConvDb} (acknowledged : Bool)
      (hc : s.forks n = some c) (hp : c.point = .reserved r) (hr : r.commit s.db = .ok db') :
      ConvStep env s (.fork n)
        (((s.setFork n c (if acknowledged then .done (.ok (r.projection, false)) else .failed)).setLock
          c.conv.conversationId none).commit db')
  /-- A rollback: an exception, a crash, or a violated constraint. -/
  | forkRollback {n : ℕ} {c : ForkCall} (hc : s.forks n = some c)
      (hp : c.point = .locked ∨ ∃ r, c.point = .reserved r) :
      ConvStep env s (.fork n) ((s.setFork n c .failed).setLock c.conv.conversationId none)
  | forkRead {n : ℕ} {c : ForkCall} {next} (hc : s.forks n = some c)
      (hp : c.point = .resolving (.stmt next)) :
      ConvStep env s (.fork n) (s.setFork n c (.resolving (next s.db)))
  | forkAnswer {n : ℕ} {c : ForkCall} {r} (hc : s.forks n = some c)
      (hp : c.point = .resolving (.done r)) :
      ConvStep env s (.fork n) (s.setFork n c (.done (r.map fun p => (p, true))))
  | forkFail {n : ℕ} {c : ForkCall} (hc : s.forks n = some c)
      (hp : c.point = .started ∨ ∃ rest, c.point = .resolving rest) :
      ConvStep env s (.fork n) (s.setFork n c .failed)
  -- the rest
  | external {db' : ConvDb} (h : ExternalWrite s.db db') :
      ConvStep env s .external (s.commit db')

/-- The tables before the first conversation. -/
def ConvDb.initial (orgs : Table TenantFacts) (credentials : Table CredentialRow) : ConvDb where
  orgs := orgs
  credentials := credentials
  conversations := ∅
  branches := ∅
  contents := ∅
  turns := ∅
  attempts := ∅
  items := []
  forkBindings := []

/-- The state before the first step. -/
def ConvState.initial (orgs : Table TenantFacts) (credentials : Table CredentialRow) : ConvState where
  db := .initial orgs credentials
  trace := [.commit (.initial orgs credentials)]
  drives _ := none
  orphans := []
  sends _ := none
  forks _ := none
  rootLock _ := none

/-- The conversation system. -/
def conversationSystem (env : ConvEnv) : TransitionSystem ConvState ConvLabel where
  init s := ∃ orgs credentials, s = .initial orgs credentials
  step := ConvStep env

end GovAI
