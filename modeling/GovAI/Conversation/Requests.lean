import GovAI.Conversation.Executor
import GovAI.Json.Value

/-!
# Sends and forks

The transactions of `sendTurn` (`turn-service.ts`, `turn-store.ts`) and `createFork` (`service.ts`,
`store.ts`).  The root lock is held from the first statement to the commit.  The body of a
transaction reads the committed rows and collects what it writes; the commit inserts it, under the
constraints and triggers of the tables.
-/

namespace GovAI

/-! ## Identifiers of a client -/

/-- `String.prototype.toLowerCase` on the characters of a uuid. -/
def lowerCase (text : String) : String := String.ofList (text.toList.map Char.toLower)

/-- A text that the route accepts as a uuid: its canonical spelling in any case. -/
structure UuidText where
  text : String
  value : Uuid
  lower_eq : lowerCase text = value.toText

/-- The text of a uuid is in lower case. -/
lemma lowerCase_toText (u : Uuid) : lowerCase u.toText = u.toText := by
  have hhex : ∀ k : ℕ, k < 16 → (hexDigit k).toLower = hexDigit k := by decide
  have hdigits : ∀ hi lo, ∀ c ∈ u.digits hi lo, c.toLower = c := by
    intro hi lo c hc
    obtain ⟨i, -, rfl⟩ := List.mem_map.mp hc
    exact hhex _ (Nat.mod_lt _ (by decide))
  have hall : ∀ c ∈ u.toText.toList, c.toLower = c := by
    simp only [Uuid.toText, String.toList_ofList, List.forall_mem_append, List.forall_mem_cons]
    exact ⟨⟨⟨⟨hdigits _ _, by decide, hdigits _ _⟩, by decide, hdigits _ _⟩, by decide, hdigits _ _⟩,
      by decide, hdigits _ _⟩
  rw [lowerCase, List.map_congr_left hall, List.map_id', String.ofList_toList]

/-! ## Inserts -/

/-- Insert a turn. -/
def insertTurn (turnId : Uuid) (t : TurnRow) (db : ConvDb) : Except String ConvDb := do
  rejectIf (turnId ∈ db.turns) "ai_conversation_turns: duplicate id"
  rejectIf (t.turnSeq < 1) "ai_conversation_turns: turn_seq check"
  rejectIf (∃ e ∈ db.turns.entries, e.2.conv.orgId = t.conv.orgId ∧
      e.2.conv.conversationId = t.conv.conversationId ∧ e.2.clientTurnId = t.clientTurnId)
    "ai_conversation_turns_client_turn_uniq"
  rejectIf (∃ e ∈ db.turns.entries, e.2.conv = t.conv ∧ e.2.branchId = t.branchId ∧
      e.2.turnSeq = t.turnSeq) "ai_conversation_turns_turn_seq_uniq"
  rejectIf (¬∃ b ∈ db.branches.lookup t.branchId, b.conv = t.conv) "ai_conversation_turns_branch_fk"
  rejectIf (¬∃ c ∈ db.contents.lookup t.nativeRequestConfigContentId, c.conv = t.conv)
    "ai_conversation_turns_config_content_fk"
  return { db with turns := db.turns.insert turnId t }

/-- Insert an attempt; the birth guard fixes every column but its identity. -/
def insertAttempt (attemptId : Uuid) (conv : Lineage) (branchId turnId : Uuid) (attemptSeq : ℕ)
    (now : ℤ) (db : ConvDb) : Except String ConvDb := do
  rejectIf (attemptId ∈ db.attempts) "ai_conversation_attempts: duplicate id"
  rejectIf (attemptSeq < 1) "ai_conversation_attempts: attempt_seq check"
  rejectIf (∃ e ∈ db.attempts.entries, e.2.conv = conv ∧ e.2.branchId = branchId ∧
      e.2.turnId = turnId ∧ e.2.attemptSeq = attemptSeq) "ai_conversation_attempts_attempt_seq_uniq"
  rejectIf (¬∃ t ∈ db.turns.lookup turnId, t.conv = conv ∧ t.branchId = branchId)
    "ai_conversation_attempts_turn_fk"
  return { db with
    attempts := db.attempts.insert attemptId (.born conv branchId turnId attemptSeq now) }

/-- Insert turn-owned items with their contents. -/
def insertCopies : List (Uuid × ContentRow × ItemRow) → ConvDb → Except String ConvDb
  | [], db => .ok db
  | (contentId, content, item) :: rest, db => do
    let db ← insertContent contentId content db
    let db ← insertItem item db
    insertCopies rest db

/-! ## sendTurn -/

/-- `SendTurnInput`. -/
structure SendTurnInput where
  clientTurnId : UuidText
  branchId : UuidText
  nativeRequest : JsonValue

/-- `nativeRequestBytes`. -/
def nativeRequestBytes (nativeRequest : JsonValue) : Bytes := utf8Bytes (jsonStringify nativeRequest)

/-- `NATIVE_REQUEST_MAX_BYTES`. -/
def nativeRequestMaxBytes : ℕ := 524288

/-- The errors of `sendTurn`. -/
inductive SendError where
  | conversationNotFound
  | branchNotFound
  | surfaceUnsupported
  | nativeRequestTooLarge
  | idempotencyConflict
  | loserSignal
deriving DecidableEq

/-- The ids that a reservation mints. -/
structure ReservationIds where
  turnId : Uuid
  attemptId : Uuid
  contentId : Uuid

/-- The rows that a reservation writes. -/
structure Reservation where
  ids : ReservationIds
  conv : Lineage
  branchId : Uuid
  clientTurnId : Uuid
  turnSeq : ℕ
  content : ContentRow
  now : ℤ

/-- How the body of the reservation transaction ends. -/
inductive ReserveOutcome where
  | refused (e : SendError)
  /-- `SendIdempotencyLoserSignal`: the client turn id is taken. -/
  | lost
  | reserved (r : Reservation)

/-- `lockConversationRoot` with the status check of every caller. -/
def addressableRoot (scope : OwnerScope) (conversationId : Uuid) (db : ConvDb) :
    Option ConversationRow :=
  (db.conversations.lookup conversationId).filter fun c =>
    c.owner = scope ∧ isRootExecutionEligible c.status

/-- `getBranchInConversation`. -/
def getBranchInConversation (conv : Lineage) (branchId : Uuid) (db : ConvDb) : Option BranchRow :=
  (db.branches.lookup branchId).filter fun b => b.conv = conv

/-- `nextTurnSeq`. -/
def nextTurnSeq (conv : Lineage) (branchId : Uuid) (db : ConvDb) : ℕ :=
  ((db.turns.entries.filter fun e => e.2.conv = conv ∧ e.2.branchId = branchId).map
    (·.2.turnSeq)).foldr max 0 + 1

/-- `findTurnByClientTurnId`. -/
def findTurnByClientTurnId (conv : Lineage) (clientTurnId : Uuid) (db : ConvDb) :
    Option (Keyed TurnRow) :=
  (db.turns.entries.find? fun e => e.2.conv = conv ∧ e.2.clientTurnId = clientTurnId).map
    fun e => (e.1, e.2)

/-- The client turn id is taken: the conflict target of `ON CONFLICT DO NOTHING`. -/
def ClientTurnTaken (conv : Lineage) (clientTurnId : Uuid) (db : ConvDb) : Prop :=
  ∃ e ∈ db.turns.entries, e.2.conv.orgId = conv.orgId ∧
    e.2.conv.conversationId = conv.conversationId ∧ e.2.clientTurnId = clientTurnId

instance (conv : Lineage) (clientTurnId : Uuid) (db : ConvDb) :
    Decidable (ClientTurnTaken conv clientTurnId db) :=
  inferInstanceAs (Decidable (∃ e ∈ db.turns.entries, _))

/-- The body of the transaction of `sendTurn`, with the encrypted request. -/
def reserveTurn (conv : Lineage) (input : SendTurnInput) (content : ContentRow)
    (ids : ReservationIds) (now : ℤ) (db : ConvDb) : ReserveOutcome :=
  match addressableRoot conv.toOwnerScope conv.conversationId db with
  | none => .refused .conversationNotFound
  | some root =>
    match getBranchInConversation conv input.branchId.value db with
    | none => .refused .branchNotFound
    | some branch =>
      if resolveDispatchPlan branch.provider branch.surface root.mode = none then
        .refused .surfaceUnsupported
      else if ClientTurnTaken conv input.clientTurnId.value db then .lost
      else .reserved
        { ids := ids, conv := conv, branchId := input.branchId.value
          clientTurnId := input.clientTurnId.value
          turnSeq := nextTurnSeq conv input.branchId.value db, content := content, now := now }

/-- The turn of a reservation. -/
def Reservation.turn (r : Reservation) : TurnRow where
  conv := r.conv
  branchId := r.branchId
  clientTurnId := r.clientTurnId
  turnSeq := r.turnSeq
  currentAttemptId := some r.ids.attemptId
  nativeRequestConfigContentId := r.ids.contentId

/-- The input item of a reservation, which shares the content of the config. -/
def Reservation.item (r : Reservation) : ItemRow where
  conv := r.conv
  branchId := r.branchId
  turnId := r.ids.turnId
  attemptId := none
  itemSeq := 1
  itemType := .nativeRequest
  contentId := r.ids.contentId

/-- The commit of a reservation. -/
def Reservation.commit (r : Reservation) (db : ConvDb) : Except String ConvDb := do
  let db ← insertContent r.ids.contentId r.content db
  let db ← insertTurn r.ids.turnId r.turn db
  let db ← insertAttempt r.ids.attemptId r.conv r.branchId r.ids.turnId 1 r.now db
  insertItem r.item db

/-! ## createFork -/

/-- `CreateForkInput`. -/
structure CreateForkInput where
  clientForkId : UuidText
  parentBranchId : UuidText
  forkedFromTurnId : UuidText
  forkedFromAttemptId : UuidText
  boundaryMode : ForkBoundaryMode
  provider : Option String
  surface : Option String
  model : Option String

/-- The errors of `createFork`. -/
inductive ForkError where
  | conversationNotFound
  | sourceNotFound
  | pinState (boundaryMode : ForkBoundaryMode) (state : AttemptState)
  | replacementConfigRequired
  | identityNotAdmissible (provider surface : String)
  | notCopyable
  | idempotencyConflict
  | invariant (text : String)
deriving DecidableEq

/-- `FORK_PIN_VALID_STATES`. -/
def forkPinValid : ForkBoundaryMode → AttemptState → Bool
  | .afterAttempt, state => state = .completed
  | .beforeAttemptOutput, state => state.immutable

/-- `isAdmissibleNewConversationIdentity`. -/
def isAdmissibleNewConversationIdentity (provider surface : String) : Bool :=
  if provider = "codex" then surface = "codex"
  else if provider = "claude_code" then surface = "claude_code"
  else true

/-- The text of a boundary mode. -/
def ForkBoundaryMode.text : ForkBoundaryMode → String
  | afterAttempt => "after_attempt"
  | beforeAttemptOutput => "before_attempt_output"

/-- `buildForkIntent`: the resolved intent as the value that is rendered and hashed. -/
def buildForkIntent (conversationId : Uuid) (input : CreateForkInput)
    (provider surface model : String) : JsonValue :=
  .obj [
    (jsString "contract", .text "govai.ai_conversation_fork_intent.v1"),
    (jsString "conversation_id", .text conversationId.toText),
    (jsString "parent_branch_id", .text (lowerCase input.parentBranchId.text)),
    (jsString "forked_from_turn_id", .text (lowerCase input.forkedFromTurnId.text)),
    (jsString "forked_from_attempt_id", .text (lowerCase input.forkedFromAttemptId.text)),
    (jsString "boundary_mode", .text input.boundaryMode.text),
    (jsString "provider", .text provider),
    (jsString "surface", .text surface),
    (jsString "model", .text model)]

/-- `forkIntentHash`, over the hash function `sha256`. -/
def forkIntentHash (sha256 : Bytes → Bytes) (intent : JsonValue) : Bytes :=
  sha256 (utf8Bytes (stableCanonicalJson intent))

/-- The ids that a fork mints: `copies` for the contents of the copied items. -/
structure ForkIds where
  branchId : Uuid
  turnId : Uuid
  attemptId : Uuid
  clientTurnId : Uuid
  configContentId : Uuid
  copies : ℕ → Uuid

/-- The regeneration child of a `before_attempt_output` fork. -/
structure ForkChild where
  turnId : Uuid
  attemptId : Uuid
  clientTurnId : Uuid
  configContentId : Uuid
  config : ContentRow
  copies : List (Uuid × ContentRow × ItemRow)

/-- The rows that a fork writes. -/
structure ForkReservation where
  branchId : Uuid
  branch : BranchRow
  binding : ForkBinding
  child : Option ForkChild
  now : ℤ

/-- How the body of the fork transaction ends. -/
inductive ForkOutcome where
  | refused (e : ForkError)
  /-- `ForkIdempotencyLoserSignal`, with the intent hash resolved before. -/
  | lost (intentHash : Bytes)
  | reserved (r : ForkReservation)

/-- `getForkSourceAttempt`. -/
def getForkSourceAttempt (conv : Lineage) (branchId turnId attemptId : Uuid) (db : ConvDb) :
    Option AttemptRow :=
  (db.attempts.lookup attemptId).filter fun a =>
    a.conv = conv ∧ a.branchId = branchId ∧ a.turnId = turnId

/-- `findForkBinding`. -/
def findForkBinding (conv : Lineage) (clientForkId : Uuid) (db : ConvDb) : Option ForkBinding :=
  db.forkBindings.find? fun b => b.conv = conv ∧ b.clientForkId = clientForkId

/-- The client fork id is taken: the conflict target of `reserveForkIdempotency`. -/
def ClientForkTaken (conv : Lineage) (clientForkId : Uuid) (db : ConvDb) : Prop :=
  ∃ b ∈ db.forkBindings, b.conv.orgId = conv.orgId ∧ b.conv.conversationId = conv.conversationId ∧
    b.clientForkId = clientForkId

instance (conv : Lineage) (clientForkId : Uuid) (db : ConvDb) :
    Decidable (ClientForkTaken conv clientForkId db) :=
  inferInstanceAs (Decidable (∃ b ∈ db.forkBindings, _))

/-- `copyContentRow`: an active row as it is copied. -/
def copyableContent (conv : Lineage) (contentId : Uuid) (db : ConvDb) : Option ContentRow :=
  (db.contents.lookup contentId).filter fun c => c.conv = conv ∧ c.status = .active

/-- `listTurnOwnedItems`. -/
def listTurnOwnedItems (conv : Lineage) (branchId turnId : Uuid) (db : ConvDb) : List ItemRow :=
  (db.items.filter fun i => i.conv = conv ∧ i.branchId = branchId ∧ i.turnId = turnId ∧
    i.attemptId = none).insertionSort fun i j => i.itemSeq ≤ j.itemSeq

/-- The copies of the items of a turn for a child turn. -/
def copyItems (conv : Lineage) (childBranchId childTurnId : Uuid) (freshId : ℕ → Uuid)
    (db : ConvDb) : ℕ → List ItemRow → Option (List (Uuid × ContentRow × ItemRow))
  | _, [] => some []
  | k, i :: rest => do
    let content ← copyableContent conv i.contentId db
    let copies ← copyItems conv childBranchId childTurnId freshId db (k + 1) rest
    return (freshId k, content,
      { i with branchId := childBranchId, turnId := childTurnId, contentId := freshId k }) :: copies

/-- `mintRegenerationChild`. -/
def mintRegenerationChild (conv : Lineage) (parentBranchId sourceTurnId : Uuid) (ids : ForkIds)
    (db : ConvDb) : Except ForkError ForkChild :=
  match (db.turns.lookup sourceTurnId).filter fun t =>
      t.conv = conv ∧ t.branchId = parentBranchId with
  | none => .error .sourceNotFound
  | some sourceTurn =>
    match copyableContent conv sourceTurn.nativeRequestConfigContentId db with
    | none => .error .notCopyable
    | some config =>
      match copyItems conv ids.branchId ids.turnId ids.copies db 0
          (listTurnOwnedItems conv parentBranchId sourceTurnId db) with
      | none => .error .notCopyable
      | some copies =>
        .ok ⟨ids.turnId, ids.attemptId, ids.clientTurnId, ids.configContentId, config, copies⟩

/-- The body of the transaction of `createFork`. -/
def reserveFork (sha256 : Bytes → Bytes) (conv : Lineage) (input : CreateForkInput) (ids : ForkIds)
    (now : ℤ) (db : ConvDb) : ForkOutcome :=
  match addressableRoot conv.toOwnerScope conv.conversationId db with
  | none => .refused .conversationNotFound
  | some _ =>
    match getBranchInConversation conv input.parentBranchId.value db with
    | none => .refused .sourceNotFound
    | some parent =>
      match getForkSourceAttempt conv input.parentBranchId.value input.forkedFromTurnId.value
          input.forkedFromAttemptId.value db with
      | none => .refused .sourceNotFound
      | some source =>
        if ¬forkPinValid input.boundaryMode source.state then
          .refused (.pinState input.boundaryMode source.state)
        else
          let provider := input.provider.getD parent.provider
          let surface := input.surface.getD parent.surface
          let model := input.model.getD parent.model
          if input.boundaryMode = .beforeAttemptOutput ∧ (provider ≠ parent.provider ∨
              surface ≠ parent.surface ∨ model ≠ parent.model) then
            .refused .replacementConfigRequired
          else
            let intentHash := forkIntentHash sha256
              (buildForkIntent conv.conversationId input provider surface model)
            let committed := findForkBinding conv input.clientForkId.value db
            if committed = none ∧ ¬isAdmissibleNewConversationIdentity provider surface then
              .refused (.identityNotAdmissible provider surface)
            else if ClientForkTaken conv input.clientForkId.value db then .lost intentHash
            else
              let branch : BranchRow :=
                { conv := conv, provider := provider, surface := surface, model := model
                  causalVersion := 0
                  fork := ⟨some input.parentBranchId.value, some input.forkedFromTurnId.value,
                    some input.forkedFromAttemptId.value, some input.boundaryMode⟩
                  createdAt := now }
              let binding : ForkBinding :=
                ⟨conv, input.clientForkId.value, intentHash, 1, ids.branchId⟩
              match input.boundaryMode with
              | .afterAttempt => .reserved ⟨ids.branchId, branch, binding, none, now⟩
              | .beforeAttemptOutput =>
                match mintRegenerationChild conv input.parentBranchId.value
                    input.forkedFromTurnId.value ids db with
                | .error e => .refused e
                | .ok child => .reserved ⟨ids.branchId, branch, binding, some child, now⟩

/-- The providers that the CHECK of a branch admits. -/
def conversationProviders : List String := ["openai", "anthropic", "codex", "claude_code"]

/-- `ai_conversation_branches_fork_pin_state_guard` with the foreign key of the pin. -/
def forkPinGuard (b : BranchRow) (db : ConvDb) : Except String Unit :=
  match b.fork.parentBranchId, b.fork.forkedFromTurnId, b.fork.forkedFromAttemptId,
    b.fork.boundaryMode with
  | some parentId, some turnId, some attemptId, some mode =>
    match getForkSourceAttempt b.conv parentId turnId attemptId db with
    | none => .error "ai_conversation_branches_fork_fk"
    | some source =>
      rejectIf (¬forkPinValid mode source.state) "ai_conversation_branches: fork pin state"
  | none, none, none, none => .ok ()
  | _, _, _, _ => .error "ai_conversation_branches_fork_shape_check"

/-- Insert a branch. -/
def insertBranch (branchId : Uuid) (b : BranchRow) (db : ConvDb) : Except String ConvDb := do
  rejectIf (branchId ∈ db.branches) "ai_conversation_branches: duplicate id"
  rejectIf (b.provider ∉ conversationProviders) "ai_conversation_branches: provider check"
  rejectIf (¬∃ c ∈ db.conversations.lookup b.conv.conversationId, c.owner = b.conv.toOwnerScope)
    "ai_conversation_branches_conv_fk"
  rejectIf (b.fork.parentBranchId = none ∧ ∃ e ∈ db.branches.entries, e.2.conv = b.conv ∧
      e.2.fork.parentBranchId = none) "ai_conversation_branches_root_uniq"
  forkPinGuard b db
  return { db with branches := db.branches.insert branchId b }

/-- Insert a fork binding, as the winner of the reservation. -/
def insertForkBinding (b : ForkBinding) (db : ConvDb) : Except String ConvDb := do
  rejectIf (ClientForkTaken b.conv b.clientForkId db) "ai_conversation_fork_idempotency_pkey"
  rejectIf (∃ b' ∈ db.forkBindings, b'.conv = b.conv ∧ b'.branchId = b.branchId)
    "ai_conversation_fork_idempotency_branch_uniq"
  return { db with forkBindings := db.forkBindings ++ [b] }

/-- The child turn of a fork. -/
def ForkChild.turn (c : ForkChild) (conv : Lineage) (branchId : Uuid) : TurnRow where
  conv := conv
  branchId := branchId
  clientTurnId := c.clientTurnId
  turnSeq := 1
  currentAttemptId := some c.attemptId
  nativeRequestConfigContentId := c.configContentId

/-- Insert the child turn with its attempt, its config and its items. -/
def ForkChild.commit (c : ForkChild) (conv : Lineage) (branchId : Uuid) (now : ℤ) (db : ConvDb) :
    Except String ConvDb := do
  let db ← insertContent c.configContentId c.config db
  let db ← insertTurn c.turnId (c.turn conv branchId) db
  let db ← insertAttempt c.attemptId conv branchId c.turnId 1 now db
  insertCopies c.copies db

/-- The commit of a fork. -/
def ForkReservation.commit (r : ForkReservation) (db : ConvDb) : Except String ConvDb := do
  let db ← insertBranch r.branchId r.branch db
  let db ← insertForkBinding r.binding db
  match r.child with
  | none => return db
  | some child => child.commit r.branch.conv r.branchId r.now db

/-! ## createConversation -/

/-- The commit of `createConversation`: the root and its root branch. -/
def createConversation (conversationId branchId : Uuid) (c : ConversationRow) (now : ℤ)
    (db : ConvDb) : Except String ConvDb := do
  rejectIf (conversationId ∈ db.conversations) "ai_conversations: duplicate id"
  rejectIf (c.status ≠ .active) "ai_conversations: born active"
  rejectIf (¬isAdmissibleNewConversationIdentity c.provider c.surface)
    "conversation identity not admissible"
  insertBranch branchId
    { conv := ⟨c.owner, conversationId⟩, provider := c.provider, surface := c.surface
      model := c.model, causalVersion := 0, fork := ⟨none, none, none, none⟩, createdAt := now }
    { db with conversations := db.conversations.insert conversationId c }

end GovAI
