import GovAI.Conversation.ExecutionStore
import GovAI.Library.ReadProgram
import Mathlib.Data.List.Sort

/-!
# The durable context of a branch

Phase A of `durable-context.ts`: the walk up the fork ancestry, the selection of the turns that are
context, the eligibility of their attempts, and the plan of encrypted entries.  Each query is one
statement of a `ReadProgram`, so that the rows it returns may come from a later state than those of
the query before it.
-/

namespace GovAI

/-! ## The plan -/

/-- The envelope of a content row with its status, never decrypted in this phase. -/
structure EncryptedContentRef extends ContentEnvelope where
  status : ContentStatus
deriving DecidableEq

/-- How the output of a completed attempt is stored. -/
inductive OutputKind where
  | response
  | stream
deriving DecidableEq

/-- The eligible completed output of a turn. -/
structure PlanOutput where
  attemptId : Uuid
  providerCredentialId : Option Uuid
  completedAtMs : ℤ
  kind : OutputKind
  contents : List EncryptedContentRef
deriving DecidableEq

/-- `ContextPlanEntry`: one context-eligible turn. -/
structure ContextPlanEntry where
  turnId : Uuid
  sourceProvider : String
  sourceModel : String
  selectedAttemptProviderFailed : Bool
  userContent : EncryptedContentRef
  output : Option PlanOutput
deriving DecidableEq

/-- `DurableContextPlan`: the entries, oldest first. -/
abbrev DurableContextPlan := List ContextPlanEntry

/-- `DurableContextBudget`. -/
structure DurableContextBudget where
  maxTurns : ℕ
  maxItems : ℕ
  maxCiphertextBytes : ℕ

/-- `DEFAULT_CONTEXT_BUDGET`. -/
def defaultContextBudget : DurableContextBudget := ⟨512, 4096, 32 * 1024 * 1024⟩

/-- `MAX_BRANCH_DEPTH`. -/
def maxBranchDepth : ℕ := 64

/-! ## The queries -/

/-- A row with its id. -/
abbrev Keyed (ρ : Type) := Uuid × ρ

/-- `readBranch`. -/
def readBranch (conv : Lineage) (branchId : Uuid) (db : ConvDb) : Option (Keyed BranchRow) :=
  ((db.branches.lookup branchId).filter fun b => b.conv = conv).map (branchId, ·)

/-- The turns of a branch below a sequence number, in any order. -/
def turnsBelow (conv : Lineage) (branchId : Uuid) (beforeTurnSeq : ℕ) (db : ConvDb) :
    List (Keyed TurnRow) :=
  (db.turns.entries.filter fun e =>
    e.2.conv = conv ∧ e.2.branchId = branchId ∧ e.2.turnSeq < beforeTurnSeq).map fun e => (e.1, e.2)

/-- `readTurnsBefore`. -/
def readTurnsBefore (conv : Lineage) (branchId : Uuid) (beforeTurnSeq limit : ℕ) (db : ConvDb) :
    List (Keyed TurnRow) :=
  ((turnsBelow conv branchId beforeTurnSeq db).insertionSort
    fun t u => t.2.turnSeq ≤ u.2.turnSeq).take limit

/-- `readTurnById`. -/
def readTurnById (conv : Lineage) (branchId turnId : Uuid) (db : ConvDb) : Option (Keyed TurnRow) :=
  ((db.turns.lookup turnId).filter fun t => t.conv = conv ∧ t.branchId = branchId).map (turnId, ·)

/-- `readAttemptsByIds`: the rows found, by id. -/
def readAttemptsByIds (conv : Lineage) (attemptIds : List Uuid) (db : ConvDb) :
    List (Keyed AttemptRow) :=
  attemptIds.filterMap fun x =>
    ((db.attempts.lookup x).filter fun a => a.conv = conv).map (x, ·)

/-- A row of `readItemsWithContent`. -/
structure ItemWithContent where
  turnId : Uuid
  attemptId : Option Uuid
  itemSeq : ℕ
  itemType : ConversationItemType
  content : EncryptedContentRef
deriving DecidableEq

/-- The items of the given turns, turn-owned or of the given attempts, joined to their contents. -/
def joinedItems (conv : Lineage) (turns : List (Uuid × Uuid)) (attemptIds : List Uuid)
    (db : ConvDb) : List ItemWithContent :=
  (db.items.filter fun i => i.conv = conv ∧ (i.branchId, i.turnId) ∈ turns ∧
      (i.attemptId = none ∨ ∃ x ∈ i.attemptId, x ∈ attemptIds)).filterMap fun i =>
    ((db.contents.lookup i.contentId).filter fun c => c.conv = conv).map fun c =>
      ⟨i.turnId, i.attemptId, i.itemSeq, i.itemType, ⟨c.toContentEnvelope, c.status⟩⟩

/-- `readContextAggregate`: the number of items and the bytes of their ciphertexts. -/
def readContextAggregate (conv : Lineage) (turns : List (Uuid × Uuid)) (attemptIds : List Uuid)
    (db : ConvDb) : ℕ × ℕ :=
  let items := joinedItems conv turns attemptIds db
  (items.length, (items.map (·.content.ciphertext.length)).sum)

/-- `ORDER BY i.turn_id, i.attempt_id NULLS FIRST, i.item_seq ASC`. -/
def ItemWithContent.key (i : ItemWithContent) : List ℕ :=
  [i.turnId.toNat, (i.attemptId.elim 0 fun x => x.toNat + 1), i.itemSeq]

/-- The order of the query within the items of one attempt is that of `item_seq`. -/
lemma ItemWithContent.key_le_iff {i j : ItemWithContent} (hturn : i.turnId = j.turnId)
    (hattempt : i.attemptId = j.attemptId) : i.key ≤ j.key ↔ i.itemSeq ≤ j.itemSeq := by
  rw [ItemWithContent.key, ItemWithContent.key, hturn, hattempt]
  rw [← not_lt, ← not_lt]
  simp [List.cons_lt_cons_iff]

instance : Std.Total fun i j : ItemWithContent => i.key ≤ j.key where
  total i j := le_total i.key j.key

instance : IsTrans ItemWithContent fun i j => i.key ≤ j.key where
  trans _ _ _ := le_trans

/-- `readItemsWithContent`. -/
def readItemsWithContent (conv : Lineage) (turns : List (Uuid × Uuid)) (attemptIds : List Uuid)
    (db : ConvDb) : List ItemWithContent :=
  (joinedItems conv turns attemptIds db).insertionSort fun i j => i.key ≤ j.key

/-! ## The walk -/

/-- The contribution that an `after_attempt` fork takes from its source turn. -/
structure ForkPin where
  turn : Keyed TurnRow
  attemptId : Uuid

/-- A branch of the ancestry with the exclusive bound on its turns. -/
structure WalkFrame where
  branch : Keyed BranchRow
  beforeTurnSeq : ℕ
  pin : Option ForkPin

/-- Reads that may find the context unbuildable for a reason. -/
abbrev ContextRead := ReadProgram ConvDb String

/-- A row that has to be there. -/
def ContextRead.require {α : Type} (reason : String) : Option α → ContextRead α
  | some a => pure a
  | none => .fail reason

/-- The walk from a branch to its root; the frames come root first. -/
def walkAncestry (conv : Lineage) :
    ℕ → Keyed BranchRow → ℕ → Option ForkPin → List WalkFrame → ContextRead (List WalkFrame)
  | 0, _, _, _, _ => .fail "branch_depth_exceeded"
  | depth + 1, branch, bound, pin, frames =>
    let frames := ⟨branch, bound, pin⟩ :: frames
    match branch.2.fork.parentBranchId with
    | none => pure frames
    | some parentId =>
      match branch.2.fork.forkedFromTurnId, branch.2.fork.forkedFromAttemptId with
      | some turnId, some attemptId => do
        let parent ← .read (readBranch conv parentId) >>= .require "branch_unreadable"
        let forkTurn ← .read (readTurnById conv parent.1 turnId) >>= .require "fork_source_unreadable"
        let pin := if branch.2.fork.boundaryMode = some .afterAttempt then
          some ⟨forkTurn, attemptId⟩ else none
        walkAncestry conv depth parent forkTurn.2.turnSeq pin frames
      | _, _ => .fail "fork_shape_invalid"

/-! ## The selection -/

/-- `SelectedTurn`. -/
structure SelectedTurn where
  turn : Keyed TurnRow
  branchId : Uuid
  branchProvider : String
  branchModel : String
  selectedAttemptId : Option Uuid
  pinExempt : Bool

/-- A turn selected in a frame. -/
def WalkFrame.select (frame : WalkFrame) (turn : Keyed TurnRow) (attemptId : Option Uuid)
    (pinExempt : Bool) : SelectedTurn :=
  ⟨turn, frame.branch.1, frame.branch.2.provider, frame.branch.2.model, attemptId, pinExempt⟩

/-- The turns of the frames, oldest first, within the turn budget. -/
def selectTurns (conv : Lineage) (budget : DurableContextBudget) :
    List WalkFrame → List SelectedTurn → ContextRead (List SelectedTurn)
  | [], selected => pure selected
  | frame :: rest, selected => do
    let turns ← .read (readTurnsBefore conv frame.branch.1 frame.beforeTurnSeq
      (budget.maxTurns + 1 - selected.length))
    .failIf (budget.maxTurns < selected.length + turns.length) "context_budget_exceeded"
    let ordinary := turns.map fun turn => frame.select turn turn.2.currentAttemptId false
    let pinned := frame.pin.toList.map fun pin => frame.select pin.turn (some pin.attemptId) true
    let selected := selected ++ ordinary ++ pinned
    .failIf (budget.maxTurns < selected.length) "context_budget_exceeded"
    selectTurns conv budget rest selected

/-! ## Eligibility -/

/-- A selected turn with the row of its attempt. -/
structure ResolvedTurn where
  selected : SelectedTurn
  attemptId : Uuid
  attempt : AttemptRow

/-- The attempt of a selected turn, which has to be among the rows read. -/
def resolveTurn (attempts : List (Keyed AttemptRow)) (s : SelectedTurn) : Except String ResolvedTurn :=
  match s.selectedAttemptId with
  | none => .error "turn_without_current_attempt"
  | some x =>
    match attempts.find? (·.1 = x) with
    | none => .error "selected_attempt_unreadable"
    | some a =>
      if a.2.turnId = s.turn.1 then .ok ⟨s, x, a.2⟩ else .error "selected_attempt_unreadable"

/-- The output of the attempt may contribute. -/
def ResolvedTurn.eligible (r : ResolvedTurn) : Bool :=
  r.attempt.state = .completed ∧ (r.selected.pinExempt ∨ ¬r.attempt.contextExcluded)

/-- The attempt failed with an error that the provider produced. -/
def AttemptRow.providerFailed (a : AttemptRow) : Bool :=
  a.state = .failed ∧ a.errorClass ≠ none ∧ a.errorClass ≠ some .localError ∧
    a.errorClass ≠ some .credentialUnavailable

/-! ## The entries -/

/-- The output of an eligible attempt, from its items. -/
def planOutput (items : List ItemWithContent) (turnId attemptId : Uuid) (attempt : AttemptRow) :
    Except String PlanOutput := do
  let outputItems := items.filter fun i => i.turnId = turnId ∧ i.attemptId = some attemptId
  rejectIf (outputItems = []) "completed_output_missing"
  match attempt.terminalAt with
  | none => .error "completed_terminal_stamp_missing"
  | some terminalAt =>
    let output (kind : OutputKind) : PlanOutput :=
      ⟨attemptId, attempt.providerCredentialId, terminalAt / 1000, kind,
        outputItems.map (·.content)⟩
    if outputItems.map (·.itemType) = [.nativeResponse] then .ok (output .response)
    else if ∀ i ∈ outputItems, i.itemType = .nativeStreamChunk then .ok (output .stream)
    else .error "output_item_shape_unsupported"

/-- The entry of a resolved turn. -/
def planEntry (resolved : List ResolvedTurn) (items : List ItemWithContent) (r : ResolvedTurn) :
    Except String ContextPlanEntry :=
  let turnId := r.selected.turn.1
  match items.filter fun i => i.turnId = turnId ∧ i.attemptId = none with
  | [input] => do
    let eligible := (resolved.filter (·.eligible)).find? (·.attemptId = r.attemptId)
    let output ← match eligible with
      | some e => (planOutput items turnId e.attemptId e.attempt).map some
      | none => .ok none
    -- `attemptByTurn` keeps the last row selected for a turn.
    let last := resolved.reverse.find? (·.selected.turn.1 = turnId)
    return {
      turnId := turnId
      sourceProvider := r.selected.branchProvider
      sourceModel := r.selected.branchModel
      selectedAttemptProviderFailed := last.elim false (·.attempt.providerFailed)
      userContent := input.content
      output := output }
  | _ => .error "turn_input_shape_unsupported"

/-- `loadDurableContextPlan`. -/
def loadDurableContextPlan (conv : Lineage) (branchId : Uuid) (turnSeq : ℕ)
    (budget : DurableContextBudget) : ContextRead DurableContextPlan := do
  let branch ← .read (readBranch conv branchId) >>= .require "branch_unreadable"
  let frames ← walkAncestry conv maxBranchDepth branch turnSeq none []
  let selected ← selectTurns conv budget frames []
  if selected = [] then pure [] else do
    let attempts ← .read (readAttemptsByIds conv (selected.filterMap (·.selectedAttemptId)))
    let resolved ← .done (selected.mapM (resolveTurn attempts))
    let turns := selected.map fun s => (s.branchId, s.turn.1)
    let eligibleIds := (resolved.filter (·.eligible)).map (·.attemptId)
    let aggregate ← .read (readContextAggregate conv turns eligibleIds)
    .failIf (budget.maxItems < aggregate.1 ∨ budget.maxCiphertextBytes < aggregate.2)
      "context_budget_exceeded"
    let items ← .read (readItemsWithContent conv turns eligibleIds)
    .done (resolved.mapM (planEntry resolved items))

/-! ## The rows that are read -/

variable {db : ConvDb}

lemma mem_turnsBelow {conv : Lineage} {branchId : Uuid} {bound : ℕ} {t : Keyed TurnRow}
    (h : t ∈ turnsBelow conv branchId bound db) :
    db.turns.lookup t.1 = some t.2 ∧ t.2.conv = conv ∧ t.2.branchId = branchId ∧
      t.2.turnSeq < bound := by
  simp only [turnsBelow, List.mem_map, List.mem_filter, decide_eq_true_eq] at h
  obtain ⟨e, ⟨he, hrest⟩, rfl⟩ := h
  exact ⟨AList.mem_lookup_iff.mpr he, hrest⟩

lemma mem_readTurnsBefore {conv : Lineage} {branchId : Uuid} {bound limit : ℕ} {t : Keyed TurnRow}
    (h : t ∈ readTurnsBefore conv branchId bound limit db) :
    db.turns.lookup t.1 = some t.2 ∧ t.2.conv = conv ∧ t.2.branchId = branchId ∧
      t.2.turnSeq < bound :=
  mem_turnsBelow ((List.mem_insertionSort _).mp (List.mem_of_mem_take h))

/-- The row of a resolved turn is among the rows read. -/
lemma resolveTurn_eq_ok {attempts : List (Keyed AttemptRow)} {s : SelectedTurn} {r : ResolvedTurn}
    (h : resolveTurn attempts s = .ok r) : r.selected = s ∧ (r.attemptId, r.attempt) ∈ attempts ∧
      s.selectedAttemptId = some r.attemptId ∧ r.attempt.turnId = s.turn.1 := by
  unfold resolveTurn at h
  split at h
  · cases h
  · next x hx =>
    split at h
    · cases h
    · next a ha =>
      split at h
      · next hturn =>
        cases h
        have hsame : a.1 = x := by simpa using List.find?_some ha
        exact ⟨rfl, hsame ▸ List.mem_of_find?_eq_some ha, hx, hturn⟩
      · cases h

lemma mem_readAttemptsByIds {conv : Lineage} {ids : List Uuid} {a : Keyed AttemptRow}
    (h : a ∈ readAttemptsByIds conv ids db) :
    db.attempts.lookup a.1 = some a.2 ∧ a.2.conv = conv ∧ a.1 ∈ ids := by
  simp only [readAttemptsByIds, List.mem_filterMap, Option.map_eq_some_iff,
    Option.filter_eq_some_iff, decide_eq_true_eq] at h
  obtain ⟨x, hx, b, ⟨hb, hconv⟩, rfl⟩ := h
  exact ⟨hb, hconv, hx⟩

end GovAI
