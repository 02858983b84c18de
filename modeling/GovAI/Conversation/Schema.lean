import GovAI.Audit.Event
import GovAI.Library.Fallible
import Mathlib.Data.List.AList
import Mathlib.Tactic.MkIffOfInductiveProp

/-!
# The conversation tables

The tables of `0031_ai_conversation_storage_foundation.sql` and `0033_ai_conversation_control_plane.sql`,
with the constraints and triggers that guard the attempts: the CHECK matrix of a row, the birth guard
and `ai_conversation_attempts_guarded_update`.  A table is a finite map from the primary key to the
row; the items, which are only ever appended and are found by their columns, are a list.
-/

namespace GovAI

/-- A table: the rows by primary key. -/
abbrev Table (ρ : Type) := AList fun _ : Uuid => ρ

/-- A condition on the value of a nullable column is decided at that value; the instance for the type
`BitVec` would try all values of a uuid. -/
instance (priority := high) decidableExistsColumn {α : Type} {P : α → Prop} [DecidablePred P]
    (column : Option α) : Decidable (∃ a ∈ column, P a) :=
  Option.decidableExistsMem column

/-! ## Enumerated columns -/

/-- The values of `ai_conversations.mode`. -/
inductive ConversationMode where
  | governed
  | passthrough
deriving DecidableEq

/-- The values of `ai_conversations.status`. -/
inductive ConversationStatus where
  | active
  | archived
  | deletedPending
  | deleted
deriving DecidableEq

/-- The values of `boundary_mode`. -/
inductive ForkBoundaryMode where
  | afterAttempt
  | beforeAttemptOutput
deriving DecidableEq

/-- The values of `ai_conversation_content.status`. -/
inductive ContentStatus where
  | active
  | cryptoShredded
  | tombstoned
deriving DecidableEq

/-- The values of `ai_conversation_attempts.state`. -/
inductive AttemptState where
  | accepted
  | dispatching
  | streaming
  | completed
  | stopped
  | failed
  | rejected
  | outcomeUnknown
deriving DecidableEq

/-- The states of `NON_TERMINAL_STATES`, which block the queue of a branch. -/
def AttemptState.nonTerminal : AttemptState → Bool
  | accepted | dispatching | streaming => true
  | _ => false

/-- The states whose rows are frozen as a whole. -/
def AttemptState.immutable : AttemptState → Bool
  | completed | stopped | failed | rejected => true
  | _ => false

/-- The values of `error_class`, as 0035 admits them. -/
inductive AttemptErrorClass where
  | blocked
  | authRejected
  | requestTooLarge
  | rateLimited
  | credentialUnavailable
  | providerError
  | localError
  | persistenceError
deriving DecidableEq

/-- The item types that the code writes. -/
inductive ConversationItemType where
  | nativeRequest
  | nativeResponse
  | nativeStreamChunk
deriving DecidableEq

/-! ## Rows -/

/-- The owner whose rows the policies of a transaction show: `app.org_id` and `app.user_id`. -/
structure OwnerScope where
  orgId : Uuid
  ownerUserId : Uuid
deriving DecidableEq

/-- The columns `org_id`, `owner_user_id` and `conversation_id` that every row below a conversation
repeats. -/
structure Lineage extends OwnerScope where
  conversationId : Uuid
deriving DecidableEq

/-- A row of `ai_conversations`. -/
structure ConversationRow where
  owner : OwnerScope
  mode : ConversationMode
  provider : String
  surface : String
  model : String
  status : ConversationStatus
deriving DecidableEq

/-- The four fork columns of a branch. -/
structure ForkColumns where
  parentBranchId : Option Uuid
  forkedFromTurnId : Option Uuid
  forkedFromAttemptId : Option Uuid
  boundaryMode : Option ForkBoundaryMode
deriving DecidableEq

/-- A row of `ai_conversation_branches`. -/
structure BranchRow where
  conv : Lineage
  provider : String
  surface : String
  model : String
  causalVersion : ℕ
  fork : ForkColumns
  createdAt : ℤ
deriving DecidableEq

/-- The envelope of a row of `ai_conversation_content`. -/
structure ContentEnvelope where
  ciphertext : Bytes
  dekWrapped : Option Bytes
  kmsKeyId : String
  kmsKeyVersion : ℤ
deriving DecidableEq

/-- A row of `ai_conversation_content`. -/
structure ContentRow extends ContentEnvelope where
  conv : Lineage
  contentHmac : Bytes
  status : ContentStatus
deriving DecidableEq

/-- A row of `ai_conversation_turns`. -/
structure TurnRow where
  conv : Lineage
  branchId : Uuid
  clientTurnId : Uuid
  turnSeq : ℕ
  currentAttemptId : Option Uuid
  nativeRequestConfigContentId : Uuid
deriving DecidableEq

/-- The four columns `continuation_parent_*` of an attempt. -/
structure ContinuationParent where
  ciphertext : Option Bytes
  dekWrapped : Option Bytes
  kmsKeyId : Option String
  kmsKeyVersion : Option ℤ
deriving DecidableEq

/-- The group of a stateless build: all four columns NULL. -/
def ContinuationParent.absent : ContinuationParent := ⟨none, none, none, none⟩

/-- A row of `ai_conversation_attempts`; times in microseconds from the epoch. -/
structure AttemptRow where
  conv : Lineage
  branchId : Uuid
  turnId : Uuid
  attemptSeq : ℕ
  state : AttemptState
  claimToken : Option Uuid
  claimant : Option String
  claimDeadlineAt : Option ℤ
  heartbeatAt : Option ℤ
  stopRequested : Bool
  causalVersionAtBuild : Option ℕ
  govaiRequestId : Option Uuid
  captureId : Option Uuid
  providerCredentialId : Option Uuid
  dispatchBoundaryCommittedAt : Option ℤ
  continuationParent : ContinuationParent
  contextExcluded : Bool
  errorClass : Option AttemptErrorClass
  terminalAt : Option ℤ
  createdAt : ℤ
deriving DecidableEq

/-- A row of `ai_conversation_items`. -/
structure ItemRow where
  conv : Lineage
  branchId : Uuid
  turnId : Uuid
  attemptId : Option Uuid
  itemSeq : ℕ
  itemType : ConversationItemType
  contentId : Uuid
deriving DecidableEq

/-- A row of `ai_conversation_fork_idempotency`. -/
structure ForkBinding where
  conv : Lineage
  clientForkId : Uuid
  forkIntentHash : Bytes
  forkIntentHashVersion : ℕ
  branchId : Uuid
deriving DecidableEq

/-- A row of `provider_credentials`; `active` is the column `status`. -/
structure CredentialRow where
  orgId : Uuid
  provider : String
  active : Bool
  ciphertext : Bytes
  dekWrapped : Bytes
  kmsKeyId : String
  kmsKeyVersion : ℤ
deriving DecidableEq

/-- The columns of a row of `orgs` that a dispatch reads. -/
structure TenantFacts where
  tier : String
  operationalMode : String
deriving DecidableEq

/-- The tables. -/
structure ConvDb where
  orgs : Table TenantFacts
  credentials : Table CredentialRow
  conversations : Table ConversationRow
  branches : Table BranchRow
  contents : Table ContentRow
  turns : Table TurnRow
  attempts : Table AttemptRow
  items : List ItemRow
  forkBindings : List ForkBinding

/-! ## The CHECK matrix of an attempt -/

/-- The row has crossed its dispatch boundary: a provider POST is possible. -/
abbrev AttemptRow.Crossed (a : AttemptRow) : Prop := a.dispatchBoundaryCommittedAt ≠ none

/-- The credential provenance of the row is committed. -/
abbrev AttemptRow.Provenance (a : AttemptRow) : Prop := a.providerCredentialId ≠ none

/-- The CHECK constraints of `ai_conversation_attempts`. -/
@[mk_iff]
structure AttemptRow.Checks (a : AttemptRow) : Prop where
  attemptSeq : 1 ≤ a.attemptSeq
  claimShape : (a.claimToken = none ↔ a.claimant = none) ∧
    (a.claimToken = none ↔ a.claimDeadlineAt = none)
  postBoundaryClaim : a.state = .dispatching ∨ a.state = .streaming →
    a.claimToken ≠ none ∧ a.Crossed
  completedBoundary : a.state = .completed → a.Crossed
  postDispatchProvenance : a.state = .streaming ∨ a.state = .completed → a.Provenance
  unknownProvenance : a.state = .outcomeUnknown → a.Provenance
  acceptedNoProvenance : a.state = .accepted → ¬a.Provenance
  captureRequiresRequest : a.captureId ≠ none → a.govaiRequestId ≠ none
  requestBoundary : a.govaiRequestId ≠ none → a.Crossed
  terminalAt : a.state.nonTerminal = false → a.terminalAt ≠ none
  failedClass : a.state = .failed → a.errorClass ≠ none
  errorClassFailed : a.errorClass ≠ none → a.state = .failed
  unknownBoundary : a.state = .outcomeUnknown → a.Crossed
  provenanceBoundary : a.Provenance → a.Crossed
  continuationGroup : a.continuationParent = .absent ∨
    (a.continuationParent.ciphertext ≠ none ∧ a.continuationParent.dekWrapped ≠ none ∧
      a.continuationParent.kmsKeyId ≠ none ∧ a.continuationParent.kmsKeyVersion ≠ none)

instance (a : AttemptRow) : Decidable a.Checks := decidable_of_iff _ (AttemptRow.checks_iff a).symm

/-! ## The triggers of an attempt -/

/-- `ai_conversation_attempts_birth_guard`: the shape every attempt is inserted in. -/
def AttemptRow.born (conv : Lineage) (branchId turnId : Uuid) (attemptSeq : ℕ) (createdAt : ℤ) :
    AttemptRow where
  conv := conv
  branchId := branchId
  turnId := turnId
  attemptSeq := attemptSeq
  state := .accepted
  claimToken := none
  claimant := none
  claimDeadlineAt := none
  heartbeatAt := none
  stopRequested := false
  causalVersionAtBuild := none
  govaiRequestId := none
  captureId := none
  providerCredentialId := none
  dispatchBoundaryCommittedAt := none
  continuationParent := .absent
  contextExcluded := false
  errorClass := none
  terminalAt := none
  createdAt := createdAt

/-- The state edges of `ai_conversation_attempts_guarded_update` for a non-terminal row: `provenance`
says whether the old row carries a credential. -/
def lawfulEdge (provenance : Bool) : AttemptState → AttemptState → Bool
  | .accepted, .dispatching | .accepted, .stopped | .accepted, .failed | .accepted, .rejected => true
  | .dispatching, .streaming | .dispatching, .stopped | .dispatching, .failed
  | .dispatching, .rejected | .dispatching, .outcomeUnknown => true
  | .dispatching, .accepted => !provenance
  | .streaming, .completed | .streaming, .stopped | .streaming, .failed
  | .streaming, .outcomeUnknown => true
  | old, new => old == new

/-- `ai_conversation_attempts_guarded_update`. -/
def guardedUpdate (old new : AttemptRow) : Except String Unit := do
  rejectIf (new.conv ≠ old.conv ∨ new.branchId ≠ old.branchId ∨ new.turnId ≠ old.turnId ∨
      new.attemptSeq ≠ old.attemptSeq ∨ new.createdAt ≠ old.createdAt)
    "ai_conversation_attempts identity/lineage columns are immutable"
  if old.state.immutable then
    rejectIf (new ≠ old) "ai_conversation_attempts: terminal state is a full-row ratchet"
  else if old.state = .outcomeUnknown then
    rejectIf (new ≠ { old with
        state := new.state, terminalAt := new.terminalAt, errorClass := new.errorClass,
        contextExcluded := new.contextExcluded })
      "ai_conversation_attempts: outcome_unknown resolution may touch only state/terminal_at/error_class/context_excluded/updated_at"
    rejectIf (new.state ≠ old.state ∧ new.state ≠ .completed ∧ new.state ≠ .failed)
      "ai_conversation_attempts: outcome_unknown may only resolve to completed/failed"
    rejectIf (new.state = old.state ∧
        (new.terminalAt ≠ old.terminalAt ∨ new.errorClass ≠ old.errorClass))
      "ai_conversation_attempts: outcome_unknown terminal_at/error_class change only with a completed/failed resolution"
    rejectIf (old.contextExcluded ∧ ¬new.contextExcluded)
      "ai_conversation_attempts: context_excluded is permanent"
  else do
    rejectIf (old.Provenance ∧ new.providerCredentialId ≠ old.providerCredentialId)
      "ai_conversation_attempts: provider_credential_id provenance is write-once"
    rejectIf (old.govaiRequestId ≠ none ∧ new.govaiRequestId ≠ old.govaiRequestId)
      "ai_conversation_attempts: govai_request_id is write-once"
    rejectIf (old.captureId ≠ none ∧ new.captureId ≠ old.captureId)
      "ai_conversation_attempts: capture_id is write-once"
    rejectIf (old.Crossed ∧ new.dispatchBoundaryCommittedAt ≠ old.dispatchBoundaryCommittedAt)
      "ai_conversation_attempts: dispatch_boundary_committed_at records the first boundary crossing and is write-once"
    rejectIf (old.state ≠ .accepted ∧ (new.causalVersionAtBuild ≠ old.causalVersionAtBuild ∨
        new.continuationParent ≠ old.continuationParent))
      "ai_conversation_attempts: the as-built causal version and continuation anchor are established by a dispatch-boundary crossing and frozen thereafter"
    rejectIf (old.contextExcluded ∧ ¬new.contextExcluded)
      "ai_conversation_attempts: context_excluded is permanent"
    rejectIf (old.stopRequested ∧ ¬new.stopRequested)
      "ai_conversation_attempts: stop_requested never clears"
    rejectIf (new.terminalAt ≠ old.terminalAt ∧ new.state.nonTerminal)
      "ai_conversation_attempts: terminal_at is stamped only by a transition into a ratchet state"
    rejectIf (¬lawfulEdge old.providerCredentialId.isSome old.state new.state)
      "ai_conversation_attempts: illegal state transition"

/-- What PostgreSQL checks when a statement writes `new` over `old`: the trigger, then the
constraints. -/
def checkUpdate (old new : AttemptRow) : Except String Unit := do
  guardedUpdate old new
  rejectIf (¬new.Checks) "ai_conversation_attempts: check constraint"

/-! ## What the guards let through -/

/-- An update that passes leaves a row that satisfies the matrix. -/
lemma checks_of_checkUpdate {old new : AttemptRow} (h : checkUpdate old new = .ok ()) :
    new.Checks := by
  simp only [checkUpdate, except_bind_eq_ok_iff, rejectIf_eq_ok_iff, not_not] at h
  exact h.choose_spec.2

/-- The trigger lets `terminal_at` be stamped only by a transition into a terminal state. -/
lemma terminalAt_of_checkUpdate {old new : AttemptRow} (h : checkUpdate old new = .ok ())
    (hold : old.state.nonTerminal = true) (hnew : new.state.nonTerminal = true) :
    new.terminalAt = old.terminalAt := by
  have himmutable : ¬old.state.immutable = true := by
    intro h
    cases hs : old.state <;> rw [hs] at h hold <;> simp [AttemptState.immutable,
      AttemptState.nonTerminal] at h hold
  have hunknown : old.state ≠ .outcomeUnknown := by
    intro hs
    rw [hs] at hold
    cases hold
  simp only [checkUpdate, guardedUpdate, if_neg himmutable, if_neg hunknown, except_bind_eq_ok_iff,
    rejectIf_eq_ok_iff, exists_and_left, exists_const] at h
  by_contra hne
  exact h.1.2.2.2.2.2.2.2.2.1 ⟨hne, hnew⟩

/-- A row born by the birth guard satisfies the matrix. -/
lemma AttemptRow.born_checks (conv : Lineage) (branchId turnId : Uuid) {attemptSeq : ℕ}
    (hseq : 1 ≤ attemptSeq) (createdAt : ℤ) :
    (AttemptRow.born conv branchId turnId attemptSeq createdAt).Checks := by
  constructor <;> simp [AttemptRow.born, AttemptState.nonTerminal, ContinuationParent.absent, hseq]

end GovAI
