import GovAI.Conversation.DurableContext
import GovAI.Library.SortedClasses

/-!
# What the durable context of a turn is

The eligibility projection of `durable-context.ts` as a recursion along the fork ancestry of a branch
(`Ancestry.project`): what the parent shows before the turn of the fork, the pinned attempt of that
turn, and the turns of the branch itself.  `loadDurableContextPlan` returns this projection or finds
the context unbuildable, and it never returns a part of it (`durable_context_projection`).
-/

namespace GovAI

/-! ## The ancestry of a branch -/

/-- A branch with its ancestors down to the root.  A fork leaves its parent at the turn `source`; `pin`
is the attempt of that turn which an `after_attempt` fork takes along. -/
inductive Ancestry where
  | root (branch : Keyed BranchRow)
  | fork (branch : Keyed BranchRow) (source : Keyed TurnRow) (pin : Option Uuid) (parent : Ancestry)

namespace Ancestry

/-- The youngest branch. -/
def branch : Ancestry → Keyed BranchRow
  | root b => b
  | fork b _ _ _ => b

/-- The number of branches. -/
def depth : Ancestry → ℕ
  | root _ => 1
  | fork _ _ _ parent => parent.depth + 1

/-- The identifiers of the branches. -/
def branchIds : Ancestry → List Uuid
  | root b => [b.1]
  | fork b _ _ parent => b.1 :: parent.branchIds

/-- The ancestry is what the rows of the conversation say. -/
def Stored (conv : Lineage) (db : ConvDb) : Ancestry → Prop
  | root b => db.branches.lookup b.1 = some b.2 ∧ b.2.conv = conv ∧ b.2.fork.parentBranchId = none
  | fork b source pin parent =>
    (db.branches.lookup b.1 = some b.2 ∧ b.2.conv = conv) ∧
      b.2.fork.parentBranchId = some parent.branch.1 ∧
      b.2.fork.forkedFromTurnId = some source.1 ∧
      (db.turns.lookup source.1 = some source.2 ∧ source.2.conv = conv ∧
        source.2.branchId = parent.branch.1) ∧
      (∃ x, b.2.fork.forkedFromAttemptId = some x ∧
        pin = if b.2.fork.boundaryMode = some .afterAttempt then some x else none) ∧
      parent.Stored conv db

end Ancestry

/-! ## The projection -/

/-- A turn as it is projected from a branch. -/
def Ancestry.select (a : Ancestry) (turn : Keyed TurnRow) (attemptId : Option Uuid)
    (pinExempt : Bool) : SelectedTurn :=
  ⟨turn, a.branch.1, a.branch.2.provider, a.branch.2.model, attemptId, pinExempt⟩

/-- The turns of the youngest branch before a sequence number, each with its current attempt. -/
def Ancestry.ordinary (conv : Lineage) (db : ConvDb) (a : Ancestry) (s : ℕ) : List SelectedTurn :=
  ((turnsBelow conv a.branch.1 s db).insertionSort fun t u => t.2.turnSeq ≤ u.2.turnSeq).map
    fun t => a.select t t.2.currentAttemptId false

/-- The turns of the projection at a sequence number of the youngest branch. -/
def Ancestry.project (conv : Lineage) (db : ConvDb) : Ancestry → ℕ → List SelectedTurn
  | root b, s => (root b).ordinary conv db s
  | fork b source pin parent, s =>
    parent.project conv db source.2.turnSeq ++
      (pin.toList.map fun x => parent.select source (some x) true) ++
      (fork b source pin parent).ordinary conv db s

/-- An item with its content. -/
def ItemRow.withContent (conv : Lineage) (db : ConvDb) (i : ItemRow) : Option ItemWithContent :=
  ((db.contents.lookup i.contentId).filter fun c => c.conv = conv).map fun c =>
    ⟨i.turnId, i.attemptId, i.itemSeq, i.itemType, ⟨c.toContentEnvelope, c.status⟩⟩

namespace SelectedTurn

variable (conv : Lineage) (db : ConvDb) (s : SelectedTurn)

/-- The items of a turn itself, or those of one of its attempts, in the order of `item_seq`. -/
def items (attemptId : Option Uuid) : List ItemWithContent :=
  ((db.items.filter fun i => i.conv = conv ∧ i.branchId = s.branchId ∧ i.turnId = s.turn.1 ∧
    i.attemptId = attemptId).filterMap (·.withContent conv db)).insertionSort
      fun i j => i.itemSeq ≤ j.itemSeq

/-- The selected attempt, if it is an attempt of the turn. -/
def attempt : Option (Keyed AttemptRow) :=
  s.selectedAttemptId.bind fun x =>
    ((db.attempts.lookup x).filter fun a => a.conv = conv ∧ a.turnId = s.turn.1).map (x, ·)

/-- The selected attempt, if its output is projected. -/
def answer : Option (Keyed AttemptRow) :=
  (s.attempt conv db).filter fun a =>
    a.2.state = .completed ∧ (s.pinExempt ∨ ¬a.2.contextExcluded)

/-- The items that a turn contributes. -/
def contribution : List ItemWithContent :=
  s.items conv db none ++ (s.answer conv db).elim [] fun a => s.items conv db (some a.1)

end SelectedTurn

/-- The types of the items of an output of a kind. -/
def OutputKind.Shape : OutputKind → List ConversationItemType → Prop
  | .response, types => types = [.nativeResponse]
  | .stream, types => types ≠ [] ∧ ∀ t ∈ types, t = .nativeStreamChunk

/-- What the entry of a projected turn is: its single input, and all of its output if the selected
attempt is completed and not excluded. -/
structure SelectedTurn.Contributes (conv : Lineage) (db : ConvDb) (s : SelectedTurn)
    (e : ContextPlanEntry) : Prop where
  turn : e.turnId = s.turn.1
  provider : e.sourceProvider = s.branchProvider
  model : e.sourceModel = s.branchModel
  failed : (s.attempt conv db).map (·.2.providerFailed) = some e.selectedAttemptProviderFailed
  input : (s.items conv db none).map (·.content) = [e.userContent]
  silent : s.answer conv db = none → e.output = none
  output : ∀ a, s.answer conv db = some a → ∃ kind terminalAt, a.2.terminalAt = some terminalAt ∧
    kind.Shape ((s.items conv db (some a.1)).map (·.itemType)) ∧
    e.output = some ⟨a.1, a.2.providerCredentialId, terminalAt / 1000, kind,
      (s.items conv db (some a.1)).map (·.content)⟩

/-- The rows of a projected turn are well formed: the selected attempt is one of the turn, the turn
has one input, and a projected output has a time and the items of a response or of a stream. -/
structure SelectedTurn.WellFormed (conv : Lineage) (db : ConvDb) (s : SelectedTurn) : Prop where
  attempt : s.attempt conv db ≠ none
  input : (s.items conv db none).length = 1
  output : ∀ a, s.answer conv db = some a → a.2.terminalAt ≠ none ∧
    ∃ kind : OutputKind, kind.Shape ((s.items conv db (some a.1)).map (·.itemType))

/-- The items of a conversation name attempts of their own turns. -/
def ConvDb.ItemsFiled (conv : Lineage) (db : ConvDb) : Prop :=
  ∀ i ∈ db.items, i.conv = conv → ∀ x a, i.attemptId = some x → db.attempts.lookup x = some a →
    a.turnId = i.turnId

/-- The projection is within the depth and the budget. -/
structure Ancestry.Fits (conv : Lineage) (db : ConvDb) (a : Ancestry) (s : ℕ)
    (budget : DurableContextBudget) : Prop where
  depth : a.depth ≤ maxBranchDepth
  turns : (a.project conv db s).length ≤ budget.maxTurns
  items : ((a.project conv db s).map fun t => (t.contribution conv db).length).sum ≤ budget.maxItems
  bytes : ((a.project conv db s).map fun t =>
    ((t.contribution conv db).map (·.content.ciphertext.length)).sum).sum ≤
      budget.maxCiphertextBytes

/-! ## The branches of an ancestry -/

section Branches

variable {conv : Lineage} {db : ConvDb} {a a' : Ancestry}

lemma Ancestry.Stored.lookup (h : a.Stored conv db) :
    db.branches.lookup a.branch.1 = some a.branch.2 ∧ a.branch.2.conv = conv := by
  cases a with
  | root b => exact ⟨h.1, h.2.1⟩
  | fork b source pin parent => exact h.1

/-- The rows determine the ancestry of a branch. -/
lemma Ancestry.Stored.unique (h : a.Stored conv db) (h' : a'.Stored conv db)
    (hbranch : a.branch.1 = a'.branch.1) : a = a' := by
  induction a generalizing a' with
  | root b =>
    have hrow : b = a'.branch := Prod.ext hbranch
      (Option.some.inj (h.lookup.1.symm.trans (hbranch ▸ h'.lookup.1)))
    cases a' with
    | root b' => exact congrArg root hrow
    | fork b' source' pin' parent' =>
      obtain rfl : b = b' := hrow
      exact absurd (h.2.2.symm.trans h'.2.1) (by simp)
  | fork b source pin parent ih =>
    have hrow : b = a'.branch := Prod.ext hbranch
      (Option.some.inj (h.lookup.1.symm.trans (hbranch ▸ h'.lookup.1)))
    obtain ⟨-, hparent, hturn, ⟨hsource, -, -⟩, ⟨x, hx, rfl⟩, hstored⟩ := h
    cases a' with
    | root b' =>
      obtain rfl : b = b' := hrow
      exact absurd (hparent.symm.trans h'.2.2) (by simp)
    | fork b' source' pin' parent' =>
      obtain rfl : b = b' := hrow
      obtain ⟨-, hparent', hturn', ⟨hsource', -, -⟩, ⟨x', hx', rfl⟩, hstored'⟩ := h'
      have hids : source.1 = source'.1 := Option.some.inj (hturn.symm.trans hturn')
      obtain rfl : source = source' := Prod.ext hids
        (Option.some.inj (hsource.symm.trans (hids ▸ hsource')))
      obtain rfl : x = x' := Option.some.inj (hx.symm.trans hx')
      obtain rfl := ih hstored hstored' (Option.some.inj (hparent.symm.trans hparent'))
      rfl

/-- Every branch of an ancestry has an ancestry of its own, which is no deeper. -/
lemma Ancestry.Stored.exists_of_mem (h : a.Stored conv db) {b : Uuid} (hb : b ∈ a.branchIds) :
    ∃ a' : Ancestry, a'.Stored conv db ∧ a'.branch.1 = b ∧ a'.depth ≤ a.depth := by
  induction a with
  | root r =>
    obtain rfl := List.mem_singleton.mp hb
    exact ⟨root r, h, rfl, le_rfl⟩
  | fork r source pin parent ih =>
    rcases List.mem_cons.mp hb with rfl | hb
    · exact ⟨_, h, rfl, le_rfl⟩
    · obtain ⟨a', hstored, hbranch, hdepth⟩ := ih h.2.2.2.2.2 hb
      exact ⟨a', hstored, hbranch, Nat.le_succ_of_le hdepth⟩

/-- No branch is its own ancestor. -/
lemma Ancestry.Stored.notMem_parent {b : Keyed BranchRow} {source : Keyed TurnRow}
    {pin : Option Uuid} {parent : Ancestry} (h : (fork b source pin parent).Stored conv db) :
    b.1 ∉ parent.branchIds := by
  intro hmem
  obtain ⟨a', hstored, hbranch, hdepth⟩ := h.2.2.2.2.2.exists_of_mem hmem
  obtain rfl := hstored.unique h hbranch
  exact absurd hdepth (Nat.not_succ_le_self _)

lemma Ancestry.branch_mem_branchIds (a : Ancestry) : a.branch.1 ∈ a.branchIds := by
  cases a <;> exact List.mem_cons_self ..

end Branches

/-! ## The turns of a projection -/

section Turns

variable {conv : Lineage} {db : ConvDb} {a : Ancestry}

/-- A projected turn lies on a branch of the ancestry, and before the bound if it lies on the
youngest. -/
structure Ancestry.Shows (db : ConvDb) (a : Ancestry) (s : ℕ) (t : SelectedTurn) : Prop where
  branch : t.branchId ∈ a.branchIds
  row : db.turns.lookup t.turn.1 = some t.turn.2
  turnBranch : t.turn.2.branchId = t.branchId
  before : t.branchId = a.branch.1 → t.turn.2.turnSeq < s

lemma Ancestry.shows_of_mem_ordinary {s : ℕ} {t : SelectedTurn} (ht : t ∈ a.ordinary conv db s) :
    t.branchId = a.branch.1 ∧ a.Shows db s t := by
  obtain ⟨u, hu, rfl⟩ := List.mem_map.mp ht
  obtain ⟨hrow, -, hbranch, hseq⟩ := mem_turnsBelow ((List.mem_insertionSort _).mp hu)
  exact ⟨rfl, a.branch_mem_branchIds, hrow, hbranch, fun _ => hseq⟩

lemma Ancestry.Stored.shows (h : a.Stored conv db) {s : ℕ} {t : SelectedTurn}
    (ht : t ∈ a.project conv db s) : a.Shows db s t := by
  induction a generalizing s with
  | root b => exact (shows_of_mem_ordinary ht).2
  | fork b source pin parent ih =>
    have hnot := h.notMem_parent
    obtain ⟨-, -, -, ⟨hsource, -, hbranch⟩, -, hstored⟩ := h
    simp only [project, List.mem_append, List.mem_map] at ht
    rcases ht with (ht | ⟨x, -, rfl⟩) | ht
    · obtain ⟨hmem, hrow, hturn, -⟩ := ih hstored ht
      exact ⟨List.mem_cons_of_mem _ hmem, hrow, hturn, fun heq => absurd (heq ▸ hmem) hnot⟩
    · have hmem := parent.branch_mem_branchIds
      exact ⟨List.mem_cons_of_mem _ hmem, hsource, hbranch, fun heq => absurd (heq ▸ hmem) hnot⟩
    · exact (shows_of_mem_ordinary ht).2

lemma Ancestry.ordinary_nodup (a : Ancestry) (s : ℕ) :
    ((a.ordinary conv db s).map (·.turn.1)).Nodup := by
  rw [ordinary, List.map_map]
  have hkeys : ((turnsBelow conv a.branch.1 s db).map Prod.fst).Nodup := by
    rw [turnsBelow, List.map_map]
    exact db.turns.nodupKeys.sublist List.filter_sublist
  exact (((List.perm_insertionSort _ _).map _).nodup_iff).mpr hkeys

/-- No turn is projected twice. -/
lemma Ancestry.Stored.project_nodup (h : a.Stored conv db) (s : ℕ) :
    ((a.project conv db s).map (·.turn.1)).Nodup := by
  induction a generalizing s with
  | root b => exact ordinary_nodup _ s
  | fork b source pin parent ih =>
    have hnot := h.notMem_parent
    obtain ⟨-, -, -, ⟨hsource, -, hbranch⟩, -, hstored⟩ := h
    rw [project, List.map_append, List.map_append]
    -- The turn of the fork is not before itself, and the branch itself is not an ancestor.
    have hpin : source.1 ∉ (parent.project conv db source.2.turnSeq).map (·.turn.1) := by
      intro hmem
      obtain ⟨t, ht, hid⟩ := List.mem_map.mp hmem
      obtain ⟨-, hrow, hturn, hbefore⟩ := hstored.shows ht
      have hsame : t.turn.2 = source.2 := Option.some.inj (hrow.symm.trans (hid ▸ hsource))
      exact absurd (hbefore (by rw [← hturn, hsame, hbranch])) (by rw [hsame]; exact lt_irrefl _)
    have hparent : ((parent.project conv db source.2.turnSeq).map (·.turn.1) ++
        (pin.toList.map fun x => parent.select source (some x) true).map (·.turn.1)).Nodup := by
      cases pin with
      | none => simpa using ih hstored source.2.turnSeq
      | some x =>
        refine List.nodup_append.mpr ⟨ih hstored _, List.nodup_singleton _, fun y hy z hz => ?_⟩
        rw [List.mem_singleton.mp hz]
        rintro rfl
        exact hpin hy
    refine List.nodup_append.mpr ⟨hparent, ordinary_nodup _ s, fun y hy z hz => ?_⟩
    rintro rfl
    obtain ⟨u, hu, rfl⟩ := List.mem_map.mp hz
    obtain ⟨hubranch, -, hurow, huturn, -⟩ := shows_of_mem_ordinary hu
    -- Any turn of the parent's part lies on a branch of the parent.
    suffices hmem : ∃ t : SelectedTurn, t.turn.1 = u.turn.1 ∧
        db.turns.lookup t.turn.1 = some t.turn.2 ∧ t.turn.2.branchId ∈ parent.branchIds by
      obtain ⟨t, hid, hrow, hmem⟩ := hmem
      have hsame : t.turn.2 = u.turn.2 := Option.some.inj (hrow.symm.trans (hid ▸ hurow))
      rw [hsame, huturn, hubranch] at hmem
      exact hnot hmem
    rw [← List.map_append] at hy
    obtain ⟨t, ht, hid⟩ := List.mem_map.mp hy
    rcases List.mem_append.mp ht with ht | ht
    · obtain ⟨hmem, hrow, hturn, -⟩ := hstored.shows ht
      exact ⟨t, hid, hrow, hturn ▸ hmem⟩
    · obtain ⟨x, -, rfl⟩ := List.mem_map.mp ht
      exact ⟨_, hid, hsource, hbranch ▸ parent.branch_mem_branchIds⟩

end Turns

/-! ## The walk -/

section Walk

variable {conv : Lineage} {db : ConvDb} {a : Ancestry}

/-- The frames of the walk along an ancestry, root first. -/
def Ancestry.frames : Ancestry → ℕ → Option ForkPin → List WalkFrame
  | root b, s, pin => [⟨b, s, pin⟩]
  | fork b source x parent, s, pin =>
    parent.frames source.2.turnSeq (x.map fun x => ⟨source, x⟩) ++ [⟨b, s, pin⟩]

lemma eval_require {α : Type} {reason : String} {r : Option α} {b : α} :
    (ContextRead.require reason r).eval db = .ok b ↔ r = some b := by
  cases r with
  | none => simp [ContextRead.require]
  | some c => simp [ContextRead.require]

lemma readBranch_eq_some_iff {x : Uuid} {b : Keyed BranchRow} :
    readBranch conv x db = some b ↔ b.1 = x ∧ db.branches.lookup b.1 = some b.2 ∧ b.2.conv = conv := by
  simp only [readBranch, Option.map_eq_some_iff, Option.filter_eq_some_iff, decide_eq_true_eq]
  constructor
  · rintro ⟨r, ⟨hr, hconv⟩, rfl⟩
    exact ⟨rfl, hr, hconv⟩
  · rintro ⟨rfl, hr, hconv⟩
    exact ⟨b.2, ⟨hr, hconv⟩, rfl⟩

lemma readTurnById_eq_some_iff {y x : Uuid} {t : Keyed TurnRow} :
    readTurnById conv y x db = some t ↔ t.1 = x ∧ db.turns.lookup t.1 = some t.2 ∧
      t.2.conv = conv ∧ t.2.branchId = y := by
  simp only [readTurnById, Option.map_eq_some_iff, Option.filter_eq_some_iff, decide_eq_true_eq]
  constructor
  · rintro ⟨r, ⟨hr, hconv, hbranch⟩, rfl⟩
    exact ⟨rfl, hr, hconv, hbranch⟩
  · rintro ⟨rfl, hr, hconv, hbranch⟩
    exact ⟨t.2, ⟨hr, hconv, hbranch⟩, rfl⟩

/-- The walk along a stored ancestry finds its frames, unless it is too deep. -/
lemma Ancestry.Stored.eval_walkAncestry (h : a.Stored conv db) (depth s : ℕ) (pin : Option ForkPin)
    (frames : List WalkFrame) :
    (walkAncestry conv depth a.branch s pin frames).eval db =
      if a.depth ≤ depth then .ok (a.frames s pin ++ frames)
      else .error "branch_depth_exceeded" := by
  induction a generalizing depth s pin frames with
  | root b =>
    cases depth with
    | zero => rfl
    | succ depth =>
      rw [if_pos (show (root b).depth ≤ depth + 1 from Nat.succ_le_succ (Nat.zero_le depth))]
      unfold walkAncestry
      have hnone : (root b).branch.2.fork.parentBranchId = none := h.2.2
      simp only [hnone]
      rfl
  | fork b source x parent ih =>
    cases depth with
    | zero => rfl
    | succ depth =>
      obtain ⟨-, hparent, hturn, ⟨hsource, hconv, hbranch⟩, ⟨attemptId, hattempt, hx⟩, hstored⟩ := h
      have hparent' : (fork b source x parent).branch.2.fork.parentBranchId =
        some parent.branch.1 := hparent
      have hturn' : (fork b source x parent).branch.2.fork.forkedFromTurnId = some source.1 := hturn
      have hattempt' : (fork b source x parent).branch.2.fork.forkedFromAttemptId =
        some attemptId := hattempt
      have hreadParent : readBranch conv parent.branch.1 db = some parent.branch :=
        readBranch_eq_some_iff.mpr ⟨rfl, hstored.lookup⟩
      have hreadTurn : readTurnById conv parent.branch.1 source.1 db = some source :=
        readTurnById_eq_some_iff.mpr ⟨rfl, hsource, hconv, hbranch⟩
      unfold walkAncestry
      simp only [hparent', hturn', hattempt', ReadProgram.eval_bind, ReadProgram.eval_read]
      simp only [bind, Except.bind, eval_require.mpr hreadParent, eval_require.mpr hreadTurn]
      have hpin : (if (fork b source x parent).branch.2.fork.boundaryMode = some .afterAttempt then
          some (⟨source, attemptId⟩ : ForkPin) else none) = x.map fun x => ⟨source, x⟩ := by
        rw [hx]
        change (if b.2.fork.boundaryMode = some .afterAttempt then _ else _) = _
        split <;> rfl
      rw [hpin]
      refine (ih hstored _ _ _ _).trans ?_
      simp only [Ancestry.depth, Nat.succ_le_succ_iff]
      split
      · rw [Ancestry.frames, List.append_assoc]
        rfl
      · rfl

/-- A walk that ends has followed a stored ancestry. -/
lemma exists_ancestry {depth s : ℕ} {branch : Keyed BranchRow} {pin : Option ForkPin}
    {frames found : List WalkFrame}
    (hbranch : db.branches.lookup branch.1 = some branch.2 ∧ branch.2.conv = conv)
    (h : (walkAncestry conv depth branch s pin frames).eval db = .ok found) :
    ∃ a : Ancestry, a.Stored conv db ∧ a.branch = branch := by
  induction depth generalizing branch s pin frames with
  | zero => cases h
  | succ depth ih =>
    unfold walkAncestry at h
    dsimp only at h
    split at h
    · next hnone => exact ⟨.root branch, ⟨hbranch.1, hbranch.2, hnone⟩, rfl⟩
    · next parentId hparent =>
      split at h
      · next turnId attemptId hturn hattempt =>
        simp only [ReadProgram.eval_bind, ReadProgram.eval_read, except_bind_eq_ok_iff,
          eval_require, Except.ok.injEq, exists_eq_left'] at h
        obtain ⟨parent, hreadParent, source, hreadTurn, h⟩ := h
        obtain ⟨rfl, hparentRow⟩ := readBranch_eq_some_iff.mp hreadParent
        obtain ⟨rfl, hsource⟩ := readTurnById_eq_some_iff.mp hreadTurn
        obtain ⟨a, hstored, rfl⟩ := ih hparentRow h
        exact ⟨.fork branch source _ a,
          ⟨hbranch, hparent, hturn, hsource, ⟨attemptId, hattempt, rfl⟩, hstored⟩, rfl⟩
      · cases h

end Walk

/-! ## The selection -/

section Selection

variable {conv : Lineage} {db : ConvDb} {a : Ancestry} {budget : DurableContextBudget}

/-- What a frame adds to the selection when the budget does not cut it. -/
def WalkFrame.selection (conv : Lineage) (db : ConvDb) (f : WalkFrame) : List SelectedTurn :=
  (((turnsBelow conv f.branch.1 f.beforeTurnSeq db).insertionSort
    fun t u => t.2.turnSeq ≤ u.2.turnSeq).map fun t => f.select t t.2.currentAttemptId false) ++
      f.pin.toList.map fun pin => f.select pin.turn (some pin.attemptId) true

/-- The frames of an ancestry select its projection and the pin of the youngest branch. -/
lemma Ancestry.flatMap_frames (a : Ancestry) (s : ℕ) (pin : Option ForkPin) :
    (a.frames s pin).flatMap (·.selection conv db) =
      a.project conv db s ++
        pin.toList.map fun pin => a.select pin.turn (some pin.attemptId) true := by
  induction a generalizing s pin with
  | root b => exact List.append_nil _
  | fork b source x parent ih =>
    rw [frames, List.flatMap_append, ih, project, List.flatMap_singleton]
    have hpin : (x.map fun x => (⟨source, x⟩ : ForkPin)).toList.map
        (fun pin => parent.select pin.turn (some pin.attemptId) true) =
        x.toList.map fun x => parent.select source (some x) true := by
      cases x <;> rfl
    rw [hpin, List.append_assoc (parent.project conv db source.2.turnSeq ++ _)]
    rfl

/-- The selection of the frames succeeds with all that they select, unless it is over the budget: the
limit of a query is reached only beyond it. -/
lemma eval_selectTurns (frames : List WalkFrame) {selected : List SelectedTurn}
    (hselected : selected.length ≤ budget.maxTurns) :
    (selectTurns conv budget frames selected).eval db =
      if (selected ++ frames.flatMap (·.selection conv db)).length ≤ budget.maxTurns then
        .ok (selected ++ frames.flatMap (·.selection conv db))
      else .error "context_budget_exceeded" := by
  induction frames generalizing selected with
  | nil =>
    rw [List.flatMap_nil, List.append_nil, if_pos hselected]
    rfl
  | cons f rest ih =>
    simp only [selectTurns, ReadProgram.eval_bind, ReadProgram.eval_read, ReadProgram.eval_failIf]
    simp only [bind, Except.bind]
    have hlength := List.length_take (i := budget.maxTurns + 1 - selected.length)
      (l := (turnsBelow conv f.branch.1 f.beforeTurnSeq db).insertionSort
        fun t u => t.2.turnSeq ≤ u.2.turnSeq)
    by_cases hturns : selected.length + (turnsBelow conv f.branch.1 f.beforeTurnSeq db).length ≤
        budget.maxTurns
    · have hall : readTurnsBefore conv f.branch.1 f.beforeTurnSeq
          (budget.maxTurns + 1 - selected.length) db =
          (turnsBelow conv f.branch.1 f.beforeTurnSeq db).insertionSort
            fun t u => t.2.turnSeq ≤ u.2.turnSeq :=
        List.take_of_length_le (by rw [List.length_insertionSort]; omega)
      rw [hall, rejectIf_of_not (by rw [List.length_insertionSort]; omega)]
      dsimp only
      by_cases hpin : (selected ++ f.selection conv db).length ≤ budget.maxTurns
      · rw [rejectIf_of_not (by rw [List.append_assoc]; exact not_lt.mpr hpin)]
        refine (ih (by rw [List.append_assoc]; exact hpin)).trans ?_
        rw [List.append_assoc selected, List.append_assoc selected, List.flatMap_cons]
        rfl
      · rw [rejectIf, if_pos (by rw [List.append_assoc]; exact not_le.mp hpin), if_neg]
        rw [List.flatMap_cons, ← List.append_assoc, List.length_append]
        omega
    · rw [List.length_insertionSort] at hlength
      rw [rejectIf, if_pos (by rw [readTurnsBefore, hlength]; omega), if_neg]
      rw [List.flatMap_cons, WalkFrame.selection]
      simp only [List.length_append, List.length_map, List.length_insertionSort]
      omega

end Selection

/-! ## The rows of a selection -/

section Rows

variable {conv : Lineage} {db : ConvDb} {sel : List SelectedTurn}

/-- The attempt that is found among the rows read is the one in the table. -/
lemma find_readAttemptsByIds {ids : List Uuid} {x : Uuid} (hx : x ∈ ids) :
    (readAttemptsByIds conv ids db).find? (·.1 = x) =
      ((db.attempts.lookup x).filter fun a => a.conv = conv).map (x, ·) := by
  cases hrow : (db.attempts.lookup x).filter fun a => a.conv = conv with
  | none =>
    refine List.find?_eq_none.mpr fun a ha hid => ?_
    obtain ⟨hlookup, hconv, -⟩ := mem_readAttemptsByIds ha
    rw [of_decide_eq_true hid] at hlookup
    simp [hlookup, Option.filter, hconv] at hrow
  | some a =>
    have hmem : (x, a) ∈ readAttemptsByIds conv ids db :=
      List.mem_filterMap.mpr ⟨x, hx, by rw [hrow]; rfl⟩
    obtain ⟨b, hb⟩ := Option.isSome_iff_exists.mp
      (List.find?_isSome (p := fun a : Keyed AttemptRow => decide (a.1 = x)).mpr
        ⟨(x, a), hmem, decide_eq_true rfl⟩)
    rw [hb]
    have hid : b.1 = x := by simpa using List.find?_some hb
    obtain ⟨hlookup, -, -⟩ := mem_readAttemptsByIds (List.mem_of_find?_eq_some hb)
    have hrow' : db.attempts.lookup x = some a := (Option.filter_eq_some_iff.mp hrow).1
    exact congrArg some (Prod.ext hid (Option.some.inj (hlookup.symm.trans (hid ▸ hrow'))))

/-- A selected turn is resolved to its attempt. -/
lemma resolveTurn_eq_ok_iff {s : SelectedTurn} (hs : s ∈ sel) {r : ResolvedTurn} :
    resolveTurn (readAttemptsByIds conv (sel.filterMap (·.selectedAttemptId)) db) s = .ok r ↔
      r.selected = s ∧ s.attempt conv db = some (r.attemptId, r.attempt) := by
  unfold resolveTurn SelectedTurn.attempt
  cases hx : s.selectedAttemptId with
  | none => simp
  | some x =>
    have hmem : x ∈ sel.filterMap (·.selectedAttemptId) := List.mem_filterMap.mpr ⟨s, hs, hx⟩
    simp only [find_readAttemptsByIds hmem, Option.bind_some]
    obtain ⟨rs, rx, ra⟩ := r
    cases hlookup : db.attempts.lookup x with
    | none => simp
    | some a =>
      by_cases hconv : a.conv = conv <;> by_cases hturn : a.turnId = s.turn.1 <;>
        simp [Option.filter, hconv, hturn, eq_comm]

/-- A resolved turn may contribute its output when the projection shows it. -/
lemma ResolvedTurn.answer_eq {r : ResolvedTurn}
    (hr : r.selected.attempt conv db = some (r.attemptId, r.attempt)) :
    r.selected.answer conv db = if r.eligible then some (r.attemptId, r.attempt) else none := by
  rw [SelectedTurn.answer, hr]
  simp only [Option.filter, ResolvedTurn.eligible]
  rfl

lemma joinedItems_eq (turns : List (Uuid × Uuid)) (ids : List Uuid) :
    joinedItems conv turns ids db = (db.items.filter fun i => i.conv = conv ∧
      (i.branchId, i.turnId) ∈ turns ∧
      (i.attemptId = none ∨ ∃ x ∈ i.attemptId, x ∈ ids)).filterMap (·.withContent conv db) :=
  rfl

/-- The items of a selected turn among those that are joined. -/
lemma filter_joinedItems (hnodup : (sel.map (·.turn.1)).Nodup) {ids : List Uuid} {s : SelectedTurn}
    (hs : s ∈ sel) {attemptId : Option Uuid} (hattempt : ∀ x, attemptId = some x → x ∈ ids) :
    (joinedItems conv (sel.map fun s => (s.branchId, s.turn.1)) ids db).filter
        (fun i => i.turnId = s.turn.1 ∧ i.attemptId = attemptId) =
      (db.items.filter fun i => i.conv = conv ∧ i.branchId = s.branchId ∧ i.turnId = s.turn.1 ∧
        i.attemptId = attemptId).filterMap (·.withContent conv db) := by
  rw [joinedItems_eq, List.filter_filterMap, List.filterMap_filter, List.filterMap_filter]
  refine List.filterMap_congr fun i hi => ?_
  -- The turn of an item fixes the branch, since no turn is selected twice.
  have hbranch : i.turnId = s.turn.1 →
      ((i.branchId, i.turnId) ∈ sel.map (fun s => (s.branchId, s.turn.1)) ↔
        i.branchId = s.branchId) := by
    intro hturn
    constructor
    · intro hmem
      obtain ⟨s', hs', heq⟩ := List.mem_map.mp hmem
      obtain ⟨hb, ht⟩ := Prod.mk.inj heq
      have hsame : s' = s := List.inj_on_of_nodup_map hnodup hs' hs (ht.trans hturn)
      rw [← hb, hsame]
    · intro hb
      exact List.mem_map.mpr ⟨s, hs, by rw [hb, hturn]⟩
  have hkept : (i.attemptId = none ∨ ∃ x ∈ i.attemptId, x ∈ ids) ∨ i.attemptId ≠ attemptId := by
    by_cases heq : i.attemptId = attemptId
    · cases hx : i.attemptId with
      | none => exact .inl (.inl rfl)
      | some x => exact .inl (.inr ⟨x, rfl, hattempt x (heq.symm.trans hx)⟩)
    · exact .inr heq
  have hitem : ∀ j, i.withContent conv db = some j → j.turnId = i.turnId ∧
      j.attemptId = i.attemptId := by
    intro j hj
    obtain ⟨c, -, rfl⟩ := Option.map_eq_some_iff.mp hj
    exact ⟨rfl, rfl⟩
  have hfilter : (i.withContent conv db).filter
      (fun j => j.turnId = s.turn.1 ∧ j.attemptId = attemptId) =
        if i.turnId = s.turn.1 ∧ i.attemptId = attemptId then i.withContent conv db else none := by
    cases ho : i.withContent conv db with
    | none => simp
    | some j =>
      obtain ⟨ht, ha⟩ := hitem j ho
      simp [Option.filter, ht, ha]
  rw [hfilter]
  simp only [decide_eq_true_eq]
  by_cases hturn : i.turnId = s.turn.1
  · simp only [hbranch hturn]
    by_cases heq : i.attemptId = attemptId
    · have hin := hkept.resolve_right (not_not_intro heq)
      rw [heq] at hin
      simp only [hin, hturn, heq, and_true, if_true]
    · simp only [hturn, heq, and_false, if_false, ite_self]
  · simp only [hturn, false_and, and_false, if_false, ite_self]

/-- The items of a selected turn among those that are read. -/
lemma filter_readItemsWithContent (hnodup : (sel.map (·.turn.1)).Nodup) {ids : List Uuid}
    {s : SelectedTurn} (hs : s ∈ sel) {attemptId : Option Uuid}
    (hattempt : ∀ x, attemptId = some x → x ∈ ids) :
    (readItemsWithContent conv (sel.map fun s => (s.branchId, s.turn.1)) ids db).filter
        (fun i => i.turnId = s.turn.1 ∧ i.attemptId = attemptId) = s.items conv db attemptId := by
  rw [readItemsWithContent, filter_insertionSort_eq (s := fun i j => i.itemSeq ≤ j.itemSeq),
    filter_joinedItems hnodup hs hattempt]
  · rfl
  · intro i _ j _ hi hj
    obtain ⟨hit, hia⟩ := of_decide_eq_true hi
    obtain ⟨hjt, hja⟩ := of_decide_eq_true hj
    exact ItemWithContent.key_le_iff (hit.trans hjt.symm) (hia.trans hja.symm)

/-! ## The entries -/

/-- An output is planned exactly when its attempt has a time and its items the shape of a kind. -/
lemma planOutput_eq_ok_iff {items : List ItemWithContent} {turnId x : Uuid} {a : AttemptRow}
    {own : List ItemWithContent}
    (hown : (items.filter fun i => i.turnId = turnId ∧ i.attemptId = some x) = own)
    {o : PlanOutput} :
    planOutput items turnId x a = .ok o ↔ ∃ kind terminalAt, a.terminalAt = some terminalAt ∧
      OutputKind.Shape kind (own.map (·.itemType)) ∧
      o = ⟨x, a.providerCredentialId, terminalAt / 1000, kind, own.map (·.content)⟩ := by
  unfold planOutput
  simp only [hown]
  constructor
  · intro h
    obtain ⟨_, hne, h⟩ := except_bind_eq_ok_iff.mp h
    have hne := rejectIf_eq_ok_iff.mp hne
    split at h
    · cases h
    · next terminalAt hterminal =>
      split at h
      · next htypes =>
        cases h
        exact ⟨.response, terminalAt, hterminal, htypes, rfl⟩
      · split at h
        · next hchunks =>
          cases h
          refine ⟨.stream, terminalAt, hterminal, ⟨mt List.map_eq_nil_iff.mp hne, ?_⟩, rfl⟩
          exact List.forall_mem_map.mpr hchunks
        · cases h
  · rintro ⟨kind, terminalAt, hterminal, hshape, rfl⟩
    have hne : own ≠ [] := by
      rintro rfl
      cases kind with
      | response => cases hshape
      | stream => exact hshape.1 rfl
    rw [rejectIf_of_not hne, hterminal]
    change (if _ then _ else _) = _
    cases kind with
    | response => rw [if_pos (show own.map (·.itemType) = [.nativeResponse] from hshape)]
    | stream =>
      have hall := List.forall_mem_map.mp hshape.2
      rw [if_neg, if_pos hall]
      intro hresponse
      have hchunk := hshape.2 .nativeResponse (by rw [hresponse]; exact List.mem_singleton_self _)
      cases hchunk

/-- The turns of a selection with their attempts, and the items that are read for them. -/
structure Resolved (conv : Lineage) (db : ConvDb) (sel : List SelectedTurn)
    (resolved : List ResolvedTurn) : Prop where
  nodup : (sel.map (·.turn.1)).Nodup
  rows : List.Forall₂ (fun s r => r.selected = s ∧
    s.attempt conv db = some (r.attemptId, r.attempt)) sel resolved

namespace Resolved

variable {resolved : List ResolvedTurn} {r r' : ResolvedTurn}

lemma selected (h : Resolved conv db sel resolved) : resolved.map (·.selected) = sel := by
  have hrows := h.rows
  clear h
  induction hrows with
  | nil => rfl
  | cons hhead _ ih => rw [List.map_cons, hhead.1, ih]

lemma mem (h : Resolved conv db sel resolved) (hr : r ∈ resolved) :
    r.selected ∈ sel ∧ r.selected.attempt conv db = some (r.attemptId, r.attempt) := by
  refine ⟨h.selected ▸ List.mem_map_of_mem hr, ?_⟩
  have hrows := h.rows
  clear h
  induction hrows with
  | nil => exact absurd hr List.not_mem_nil
  | cons hhead _ ih =>
    rcases List.mem_cons.mp hr with rfl | hr
    · rw [hhead.1, hhead.2]
    · exact ih hr

/-- The turn of a resolved turn determines it. -/
lemma eq_of_turn (h : Resolved conv db sel resolved) (hr : r ∈ resolved) (hr' : r' ∈ resolved)
    (hturn : r.selected.turn.1 = r'.selected.turn.1) : r = r' := by
  have hnodup : (resolved.map fun r => r.selected.turn.1).Nodup := by
    have hmap : resolved.map (fun r => r.selected.turn.1) =
        (resolved.map (·.selected)).map (·.turn.1) := by rw [List.map_map]; rfl
    rw [hmap, h.selected]
    exact h.nodup
  exact List.inj_on_of_nodup_map hnodup hr hr' hturn

/-- The attempt of a resolved turn is one of that turn, and determines it. -/
lemma eq_of_attempt (h : Resolved conv db sel resolved) (hr : r ∈ resolved) (hr' : r' ∈ resolved)
    (hattempt : r.attemptId = r'.attemptId) : r = r' := by
  have hrow : ∀ r ∈ resolved, db.attempts.lookup r.attemptId = some r.attempt ∧
      r.attempt.turnId = r.selected.turn.1 := by
    intro r hr
    have hattempt := (h.mem hr).2
    simp only [SelectedTurn.attempt, Option.bind_eq_some_iff, Option.map_eq_some_iff,
      Option.filter_eq_some_iff, decide_eq_true_eq] at hattempt
    obtain ⟨x, -, a, ⟨ha, -, hturn⟩, heq⟩ := hattempt
    obtain ⟨rfl, rfl⟩ := Prod.mk.inj heq
    exact ⟨ha, hturn⟩
  obtain ⟨hlookup, hturn⟩ := hrow r hr
  obtain ⟨hlookup', hturn'⟩ := hrow r' hr'
  have hsame : r.attempt = r'.attempt :=
    Option.some.inj (hlookup.symm.trans (hattempt ▸ hlookup'))
  exact h.eq_of_turn hr hr' (by rw [← hturn, ← hturn', hsame])

/-- The eligible turn with an attempt is the turn of the attempt. -/
lemma find_eligible (h : Resolved conv db sel resolved) (hr : r ∈ resolved) :
    (resolved.filter (·.eligible)).find? (·.attemptId = r.attemptId) =
      if r.eligible then some r else none := by
  split
  · next heligible =>
    have hmem : r ∈ resolved.filter (·.eligible) := List.mem_filter.mpr ⟨hr, heligible⟩
    obtain ⟨e, he⟩ := Option.isSome_iff_exists.mp
      (List.find?_isSome (p := fun e : ResolvedTurn => decide (e.attemptId = r.attemptId)).mpr
        ⟨r, hmem, decide_eq_true rfl⟩)
    have hid : e.attemptId = r.attemptId := by simpa using List.find?_some he
    rw [he, h.eq_of_attempt (List.mem_of_mem_filter (List.mem_of_find?_eq_some he)) hr hid]
  · next hnot =>
    refine List.find?_eq_none.mpr fun e he hid => hnot ?_
    obtain ⟨hmem, heligible⟩ := List.mem_filter.mp he
    rwa [h.eq_of_attempt hr hmem (of_decide_eq_true hid).symm]

/-- The last row selected for a turn is the only one. -/
lemma find_last (h : Resolved conv db sel resolved) (hr : r ∈ resolved) :
    resolved.reverse.find? (·.selected.turn.1 = r.selected.turn.1) = some r := by
  obtain ⟨e, he⟩ := Option.isSome_iff_exists.mp
    (List.find?_isSome
      (p := fun e : ResolvedTurn => decide (e.selected.turn.1 = r.selected.turn.1)).mpr
        ⟨r, List.mem_reverse.mpr hr, decide_eq_true rfl⟩)
  have hid : e.selected.turn.1 = r.selected.turn.1 := by simpa using List.find?_some he
  rw [he, h.eq_of_turn (List.mem_reverse.mp (List.mem_of_find?_eq_some he)) hr hid]

/-- **The entry of a turn.** It is planned exactly as the turn contributes it. -/
lemma planEntry_eq_ok_iff (h : Resolved conv db sel resolved) (hr : r ∈ resolved)
    {e : ContextPlanEntry} :
    planEntry resolved (readItemsWithContent conv (sel.map fun s => (s.branchId, s.turn.1))
        ((resolved.filter (·.eligible)).map (·.attemptId)) db) r = .ok e ↔
      r.selected.Contributes conv db e := by
  obtain ⟨hs, hattempt⟩ := h.mem hr
  have hinput : (readItemsWithContent conv (sel.map fun s => (s.branchId, s.turn.1))
      ((resolved.filter (·.eligible)).map (·.attemptId)) db).filter
        (fun i => i.turnId = r.selected.turn.1 ∧ i.attemptId = none) =
      r.selected.items conv db none :=
    filter_readItemsWithContent h.nodup hs fun x hx => by cases hx
  have hanswer := ResolvedTurn.answer_eq hattempt
  have hfailed : ∀ b, (r.selected.attempt conv db).map (·.2.providerFailed) = some b ↔
      r.attempt.providerFailed = b := fun b => by rw [hattempt, Option.map_some, Option.some.injEq]
  unfold planEntry
  simp only [hinput, h.find_eligible hr, h.find_last hr, Option.elim_some]
  by_cases heligible : r.eligible = true
  · have hmem : r.attemptId ∈ (resolved.filter (·.eligible)).map (·.attemptId) :=
      List.mem_map.mpr ⟨r, List.mem_filter.mpr ⟨hr, heligible⟩, rfl⟩
    have hown : (readItemsWithContent conv (sel.map fun s => (s.branchId, s.turn.1))
        ((resolved.filter (·.eligible)).map (·.attemptId)) db).filter
          (fun i => i.turnId = r.selected.turn.1 ∧ i.attemptId = some r.attemptId) =
        r.selected.items conv db (some r.attemptId) :=
      filter_readItemsWithContent h.nodup hs fun x hx => Option.some.inj hx ▸ hmem
    rw [if_pos heligible] at hanswer ⊢
    constructor
    · intro hplan
      split at hplan
      · next input hitem =>
        obtain ⟨_, hplanned, hentry⟩ := except_bind_eq_ok_iff.mp hplan
        obtain ⟨o, ho, rfl⟩ := except_map_eq_ok_iff.mp hplanned
        obtain ⟨kind, terminalAt, hterminal, hshape, rfl⟩ := (planOutput_eq_ok_iff hown).mp ho
        cases hentry
        refine ⟨rfl, rfl, rfl, (hfailed _).mpr rfl, by rw [hitem]; rfl, ?_, ?_⟩
        · intro hnone
          cases hnone.symm.trans hanswer
        · intro a ha
          cases ha.symm.trans hanswer
          exact ⟨kind, terminalAt, hterminal, hshape, rfl⟩
      · cases hplan
    · rintro ⟨hturn, hprovider, hmodel, hfail, hin, -, houtput⟩
      obtain ⟨input, hitem, hcontent⟩ := List.map_eq_singleton_iff.mp hin
      obtain ⟨kind, terminalAt, hterminal, hshape, hout⟩ := houtput _ hanswer
      rw [hitem]
      refine except_bind_eq_ok_iff.mpr ⟨_, except_map_eq_ok_iff.mpr
        ⟨_, (planOutput_eq_ok_iff hown).mpr ⟨kind, terminalAt, hterminal, hshape, rfl⟩, rfl⟩, ?_⟩
      rw [except_pure_eq_ok_iff, hcontent, ← hturn, ← hprovider, ← hmodel, (hfailed _).mp hfail,
        ← hout]
  · rw [if_neg heligible] at hanswer ⊢
    constructor
    · intro hplan
      split at hplan
      · next input hitem =>
        cases hplan
        refine ⟨rfl, rfl, rfl, (hfailed _).mpr rfl, by rw [hitem]; rfl, fun _ => rfl, ?_⟩
        intro a ha
        cases ha.symm.trans hanswer
      · cases hplan
    · rintro ⟨hturn, hprovider, hmodel, hfail, hin, hsilent, -⟩
      obtain ⟨input, hitem, hcontent⟩ := List.map_eq_singleton_iff.mp hin
      rw [hitem]
      change Except.ok _ = _
      rw [hcontent, ← hturn, ← hprovider, ← hmodel, (hfailed _).mp hfail, ← hsilent hanswer]

end Resolved

/-- A well-formed turn has an entry. -/
lemma exists_contributes {s : SelectedTurn} (h : s.WellFormed conv db) :
    ∃ e, s.Contributes conv db e := by
  obtain ⟨a, ha⟩ := Option.ne_none_iff_exists'.mp h.attempt
  obtain ⟨input, hinput⟩ := List.length_eq_one_iff.mp h.input
  cases hanswer : s.answer conv db with
  | none =>
    refine ⟨⟨s.turn.1, s.branchProvider, s.branchModel, a.2.providerFailed, input.content, none⟩,
      rfl, rfl, rfl, by rw [ha]; rfl, by rw [hinput]; rfl, fun _ => rfl, fun b hb => ?_⟩
    cases hb.symm.trans hanswer
  | some b =>
    obtain ⟨hterminal, kind, hshape⟩ := h.output b hanswer
    obtain ⟨terminalAt, hterminalAt⟩ := Option.ne_none_iff_exists'.mp hterminal
    refine ⟨⟨s.turn.1, s.branchProvider, s.branchModel, a.2.providerFailed, input.content,
      some ⟨b.1, b.2.providerCredentialId, terminalAt / 1000, kind,
        (s.items conv db (some b.1)).map (·.content)⟩⟩,
      rfl, rfl, rfl, by rw [ha]; rfl, by rw [hinput]; rfl, fun hnone => ?_, fun c hc => ?_⟩
    · cases hnone.symm.trans hanswer
    · cases hc.symm.trans hanswer
      exact ⟨kind, terminalAt, hterminalAt, hshape, rfl⟩

/-! ## The budget -/

/-- A joined item belongs to the contribution of a turn. -/
def SelectedTurn.owns (conv : Lineage) (db : ConvDb) (s : SelectedTurn) (i : ItemWithContent) :
    Bool :=
  i.turnId = s.turn.1 ∧ (i.attemptId = none ∨ ∃ a ∈ s.answer conv db, i.attemptId = some a.1)

/-- Whatever is summed over the contributions of the turns is summed over the items that belong to
them. -/
lemma Resolved.sum_contributions {resolved : List ResolvedTurn} (h : Resolved conv db sel resolved)
    (w : ItemWithContent → ℕ) :
    (sel.map fun s => ((s.contribution conv db).map w).sum).sum =
      (((joinedItems conv (sel.map fun s => (s.branchId, s.turn.1))
        ((resolved.filter (·.eligible)).map (·.attemptId)) db).filter fun i =>
          sel.any (·.owns conv db i)).map w).sum := by
  rw [← sum_classes]
  · refine congrArg List.sum (List.map_congr_left fun s hs => ?_)
    have hitems : ∀ attemptId, (∀ x, attemptId = some x →
        x ∈ (resolved.filter (·.eligible)).map (·.attemptId)) →
        ((s.items conv db attemptId).map w).sum =
          (((joinedItems conv (sel.map fun s => (s.branchId, s.turn.1))
            ((resolved.filter (·.eligible)).map (·.attemptId)) db).filter fun i =>
              i.turnId = s.turn.1 ∧ i.attemptId = attemptId).map w).sum := by
      intro attemptId hattempt
      rw [filter_joinedItems h.nodup hs hattempt]
      exact ((List.perm_insertionSort _ _).map w).sum_eq
    rw [SelectedTurn.contribution, List.map_append, List.sum_append,
      hitems none fun x hx => by cases hx]
    obtain ⟨r, hr, rfl⟩ := List.mem_map.mp (h.selected ▸ hs)
    have hanswer := ResolvedTurn.answer_eq (h.mem hr).2
    by_cases heligible : r.eligible = true
    · rw [if_pos heligible] at hanswer
      have hmem : r.attemptId ∈ (resolved.filter (·.eligible)).map (·.attemptId) :=
        List.mem_map.mpr ⟨r, List.mem_filter.mpr ⟨hr, heligible⟩, rfl⟩
      rw [hanswer, Option.elim_some, hitems _ fun x hx => Option.some.inj hx ▸ hmem,
        ← sum_filter_or]
      · refine congrArg (fun l => (List.map w l).sum) (List.filter_congr fun i _ => ?_)
        rw [Bool.eq_iff_iff]
        simp [SelectedTurn.owns, hanswer, and_or_left]
      · intro i _ hp hq
        cases (of_decide_eq_true hp).2.symm.trans (of_decide_eq_true hq).2
    · rw [if_neg heligible] at hanswer
      rw [hanswer, Option.elim_none, List.map_nil, List.sum_nil, Nat.add_zero]
      refine congrArg (fun l => (List.map w l).sum) (List.filter_congr fun i _ => ?_)
      simp [SelectedTurn.owns, hanswer]
  · refine (List.pairwise_map.mp h.nodup).imp fun hne i _ hi hi' => hne ?_
    exact (of_decide_eq_true hi).1.symm.trans (of_decide_eq_true hi').1

/-- On rows that are filed by their attempts, every joined item belongs to a turn. -/
lemma Resolved.owned {resolved : List ResolvedTurn} (h : Resolved conv db sel resolved)
    (hfiled : db.ItemsFiled conv) {i : ItemWithContent}
    (hi : i ∈ joinedItems conv (sel.map fun s => (s.branchId, s.turn.1))
      ((resolved.filter (·.eligible)).map (·.attemptId)) db) :
    sel.any (·.owns conv db i) = true := by
  rw [joinedItems_eq] at hi
  obtain ⟨row, hrow, hcontent⟩ := List.mem_filterMap.mp hi
  obtain ⟨c, -, rfl⟩ := Option.map_eq_some_iff.mp hcontent
  simp only [List.mem_filter, decide_eq_true_eq] at hrow
  obtain ⟨hmem, hconv, hturn, hattempt⟩ := hrow
  refine List.any_eq_true.mpr ?_
  rcases hattempt with hnone | ⟨x, hx, hxmem⟩
  · obtain ⟨s, hs, heq⟩ := List.mem_map.mp hturn
    exact ⟨s, hs, decide_eq_true ⟨(Prod.mk.inj heq).2.symm, .inl hnone⟩⟩
  · obtain ⟨r, hr, rfl⟩ := List.mem_map.mp hxmem
    obtain ⟨hr, heligible⟩ := List.mem_filter.mp hr
    obtain ⟨hs, hattempt⟩ := h.mem hr
    have hanswer := ResolvedTurn.answer_eq hattempt
    rw [if_pos heligible] at hanswer
    simp only [SelectedTurn.attempt, Option.bind_eq_some_iff, Option.map_eq_some_iff,
      Option.filter_eq_some_iff, decide_eq_true_eq] at hattempt
    obtain ⟨y, -, a, ⟨ha, -, haturn⟩, heq⟩ := hattempt
    obtain ⟨rfl, rfl⟩ := Prod.mk.inj heq
    refine ⟨r.selected, hs, decide_eq_true ⟨?_, .inr ⟨_, hanswer, hx⟩⟩⟩
    rw [← haturn, ← hfiled row hmem hconv _ _ hx ha]

end Rows

/-! ## The plan -/

section Plan

variable {conv : Lineage} {db : ConvDb} {a : Ancestry} {turnSeq : ℕ} {budget : DurableContextBudget}

/-- The rows of all projected turns are well formed. -/
structure Ancestry.WellFormed (conv : Lineage) (db : ConvDb) (a : Ancestry) (s : ℕ) : Prop where
  turns : ∀ t ∈ a.project conv db s, t.WellFormed conv db
  items : db.ItemsFiled conv

/-- What the loader does once it has selected the turns. -/
def planSelected (conv : Lineage) (budget : DurableContextBudget) (selected : List SelectedTurn) :
    ContextRead DurableContextPlan :=
  if selected = [] then pure [] else do
    let attempts ← .read (readAttemptsByIds conv (selected.filterMap (·.selectedAttemptId)))
    let resolved ← .done (selected.mapM (resolveTurn attempts))
    let turns := selected.map fun s => (s.branchId, s.turn.1)
    let eligibleIds := (resolved.filter (·.eligible)).map (·.attemptId)
    let aggregate ← .read (readContextAggregate conv turns eligibleIds)
    .failIf (budget.maxItems < aggregate.1 ∨ budget.maxCiphertextBytes < aggregate.2)
      "context_budget_exceeded"
    let items ← .read (readItemsWithContent conv turns eligibleIds)
    .done (resolved.mapM (planEntry resolved items))

lemma loadDurableContextPlan_eq (branchId : Uuid) :
    loadDurableContextPlan conv branchId turnSeq budget =
      .read (readBranch conv branchId) >>= .require "branch_unreadable" >>= fun branch =>
        walkAncestry conv maxBranchDepth branch turnSeq none [] >>= fun frames =>
          selectTurns conv budget frames [] >>= planSelected conv budget :=
  rfl

/-- The loader on a stored ancestry: the depth, the turns, and the plan of the projection. -/
lemma Ancestry.Stored.eval_loadDurableContextPlan (h : a.Stored conv db) :
    (loadDurableContextPlan conv a.branch.1 turnSeq budget).eval db =
      if a.depth ≤ maxBranchDepth then
        if (a.project conv db turnSeq).length ≤ budget.maxTurns then
          (planSelected conv budget (a.project conv db turnSeq)).eval db
        else .error "context_budget_exceeded"
      else .error "branch_depth_exceeded" := by
  have hread : readBranch conv a.branch.1 db = some a.branch :=
    readBranch_eq_some_iff.mpr ⟨rfl, h.lookup⟩
  have hselect : (selectTurns conv budget (a.frames turnSeq none) []).eval db = _ :=
    eval_selectTurns _ (Nat.zero_le _)
  rw [List.nil_append, a.flatMap_frames, Option.toList_none, List.map_nil, List.append_nil]
    at hselect
  rw [loadDurableContextPlan_eq]
  simp only [ReadProgram.eval_bind, ReadProgram.eval_read]
  simp only [bind, Except.bind, eval_require.mpr hread, h.eval_walkAncestry, List.append_nil]
  by_cases hdepth : a.depth ≤ maxBranchDepth
  · simp only [if_pos hdepth, hselect]
    by_cases hturns : (a.project conv db turnSeq).length ≤ budget.maxTurns
    · rw [if_pos hturns, if_pos hturns]
    · rw [if_neg hturns, if_neg hturns]
  · rw [if_neg hdepth, if_neg hdepth]

/-- A plan is that of the projection, which is within the depth and the budget of turns. -/
lemma Ancestry.Stored.of_plan (h : a.Stored conv db) {plan : DurableContextPlan}
    (hplan : (loadDurableContextPlan conv a.branch.1 turnSeq budget).eval db = .ok plan) :
    a.depth ≤ maxBranchDepth ∧ (a.project conv db turnSeq).length ≤ budget.maxTurns ∧
      (planSelected conv budget (a.project conv db turnSeq)).eval db = .ok plan := by
  rw [h.eval_loadDurableContextPlan] at hplan
  split at hplan
  · next hdepth =>
    split at hplan
    · next hturns => exact ⟨hdepth, hturns, hplan⟩
    · cases hplan
  · cases hplan

/-- A plan has the branch of a stored ancestry. -/
lemma exists_ancestry_of_plan {branchId : Uuid} {plan : DurableContextPlan}
    (h : (loadDurableContextPlan conv branchId turnSeq budget).eval db = .ok plan) :
    ∃ a : Ancestry, a.Stored conv db ∧ a.branch.1 = branchId := by
  rw [loadDurableContextPlan_eq] at h
  simp only [ReadProgram.eval_bind, ReadProgram.eval_read, except_bind_eq_ok_iff, eval_require,
    Except.ok.injEq, exists_eq_left'] at h
  obtain ⟨branch, hread, frames, hwalk, -⟩ := h
  obtain ⟨rfl, hrow⟩ := readBranch_eq_some_iff.mp hread
  obtain ⟨a, hstored, rfl⟩ := exists_ancestry hrow hwalk
  exact ⟨a, hstored, rfl⟩

/-- The plan of selected turns, none of them twice, has an entry for each, and their items are within
the budget. -/
lemma contributes_of_planSelected {sel : List SelectedTurn} (hnodup : (sel.map (·.turn.1)).Nodup)
    {plan : DurableContextPlan} (h : (planSelected conv budget sel).eval db = .ok plan) :
    List.Forall₂ (SelectedTurn.Contributes conv db) sel plan ∧
      (sel.map fun t => (t.contribution conv db).length).sum ≤ budget.maxItems ∧
      (sel.map fun t => ((t.contribution conv db).map (·.content.ciphertext.length)).sum).sum ≤
        budget.maxCiphertextBytes := by
  unfold planSelected at h
  split at h
  · next hnil =>
    subst hnil
    cases h
    exact ⟨.nil, Nat.zero_le _, Nat.zero_le _⟩
  · simp only [ReadProgram.eval_bind, ReadProgram.eval_read, ReadProgram.eval_done,
      ReadProgram.eval_failIf, except_bind_eq_ok_iff, Except.ok.injEq, exists_eq_left',
      rejectIf_eq_ok_iff, except_mapM_eq_ok_iff] at h
    obtain ⟨resolved, hresolved, _, hbudget, hentries⟩ := h
    have hrows : Resolved conv db sel resolved := by
      refine ⟨hnodup, ?_⟩
      exact ((List.forall₂_and_left sel resolved).mpr ⟨fun _ hs => hs, hresolved⟩).imp
        fun s r h => (resolveTurn_eq_ok_iff h.1).mp h.2
    refine ⟨?_, ?_, ?_⟩
    · rw [← hrows.selected, List.forall₂_map_left_iff]
      exact ((List.forall₂_and_left resolved plan).mpr ⟨fun _ hr => hr, hentries⟩).imp
        fun r e h => (hrows.planEntry_eq_ok_iff h.1).mp h.2
    · have hsum := hrows.sum_contributions fun _ => 1
      simp only [sum_map_one] at hsum
      rw [hsum]
      exact (List.length_filter_le _ _).trans (not_lt.mp (not_or.mp hbudget).1)
    · rw [hrows.sum_contributions]
      exact (sum_filter_le _ _ _).trans (not_lt.mp (not_or.mp hbudget).2)

/-- Well-formed turns within the budget have a plan. -/
lemma exists_planSelected {sel : List SelectedTurn} (hnodup : (sel.map (·.turn.1)).Nodup)
    (hturns : ∀ t ∈ sel, t.WellFormed conv db) (hfiled : db.ItemsFiled conv)
    (hitems : (sel.map fun t => (t.contribution conv db).length).sum ≤ budget.maxItems)
    (hbytes : (sel.map fun t =>
      ((t.contribution conv db).map (·.content.ciphertext.length)).sum).sum ≤
        budget.maxCiphertextBytes) :
    ∃ plan, (planSelected conv budget sel).eval db = .ok plan := by
  unfold planSelected
  split
  · exact ⟨[], rfl⟩
  · have hresolve : ∀ s ∈ sel, ∃ r, resolveTurn
        (readAttemptsByIds conv (sel.filterMap (·.selectedAttemptId)) db) s = .ok r := by
      intro s hs
      obtain ⟨a, ha⟩ := Option.ne_none_iff_exists'.mp (hturns s hs).attempt
      exact ⟨⟨s, a.1, a.2⟩, (resolveTurn_eq_ok_iff hs).mpr ⟨rfl, ha⟩⟩
    obtain ⟨resolved, hresolved⟩ := exists_except_mapM hresolve
    have hrows : Resolved conv db sel resolved := by
      refine ⟨hnodup, ?_⟩
      exact ((List.forall₂_and_left sel resolved).mpr
        ⟨fun _ hs => hs, except_mapM_eq_ok_iff.mp hresolved⟩).imp
          fun s r h => (resolveTurn_eq_ok_iff h.1).mp h.2
    have hplanned : ∀ r ∈ resolved, ∃ e, planEntry resolved
        (readItemsWithContent conv (sel.map fun s => (s.branchId, s.turn.1))
          ((resolved.filter (·.eligible)).map (·.attemptId)) db) r = .ok e := by
      intro r hr
      obtain ⟨e, he⟩ := exists_contributes (hturns _ (hrows.mem hr).1)
      exact ⟨e, (hrows.planEntry_eq_ok_iff hr).mpr he⟩
    obtain ⟨plan, hplan⟩ := exists_except_mapM hplanned
    -- Every joined item is one of the projection, so the aggregate is that of the projection.
    have hall := List.filter_eq_self.mpr fun i hi => hrows.owned hfiled (i := i) hi
    have hcount := hrows.sum_contributions fun _ => 1
    have hsum := hrows.sum_contributions fun i => i.content.ciphertext.length
    simp only [sum_map_one] at hcount
    rw [hall] at hcount hsum
    refine ⟨plan, ?_⟩
    simp only [ReadProgram.eval_bind, ReadProgram.eval_read, ReadProgram.eval_done,
      ReadProgram.eval_failIf, except_bind_eq_ok_iff, Except.ok.injEq, exists_eq_left',
      rejectIf_eq_ok_iff]
    refine ⟨resolved, hresolved, (), ?_, hplan⟩
    exact not_or.mpr
      ⟨not_lt.mpr (hcount.symm.trans_le hitems), not_lt.mpr (hsum.symm.trans_le hbytes)⟩

/-- **The durable context is the eligibility projection.** The plan of a turn is the projection of the
ancestry of its branch, turn by turn.  A projection that exceeds the depth or the budget has no plan;
one that does not, and whose rows are well formed, has one. -/
theorem durable_context_projection (db : ConvDb) (conv : Lineage) (branchId : Uuid) (turnSeq : ℕ)
    (budget : DurableContextBudget) :
    (∀ plan, (loadDurableContextPlan conv branchId turnSeq budget).eval db = .ok plan →
      ∃ a : Ancestry, a.Stored conv db ∧ a.branch.1 = branchId ∧
        List.Forall₂ (SelectedTurn.Contributes conv db) (a.project conv db turnSeq) plan) ∧
    ∀ a : Ancestry, a.Stored conv db → a.branch.1 = branchId →
      (¬a.Fits conv db turnSeq budget → ∃ reason,
        (loadDurableContextPlan conv branchId turnSeq budget).eval db = .error reason) ∧
      (a.Fits conv db turnSeq budget → a.WellFormed conv db turnSeq → ∃ plan,
        (loadDurableContextPlan conv branchId turnSeq budget).eval db = .ok plan) := by
  constructor
  · intro plan hplan
    obtain ⟨a, hstored, rfl⟩ := exists_ancestry_of_plan hplan
    refine ⟨a, hstored, rfl, ?_⟩
    obtain ⟨-, -, hselected⟩ := hstored.of_plan hplan
    exact (contributes_of_planSelected (hstored.project_nodup turnSeq) hselected).1
  · rintro a hstored rfl
    constructor
    · intro hover
      cases hplan : (loadDurableContextPlan conv a.branch.1 turnSeq budget).eval db with
      | error reason => exact ⟨reason, rfl⟩
      | ok plan =>
        obtain ⟨hdepth, hturns, hselected⟩ := hstored.of_plan hplan
        obtain ⟨-, hitems, hbytes⟩ :=
          contributes_of_planSelected (hstored.project_nodup turnSeq) hselected
        exact absurd ⟨hdepth, hturns, hitems, hbytes⟩ hover
    · rintro ⟨hdepth, hturns, hitems, hbytes⟩ ⟨hformed, hfiled⟩
      rw [hstored.eval_loadDurableContextPlan, if_pos hdepth, if_pos hturns]
      exact exists_planSelected (hstored.project_nodup turnSeq) hformed hfiled hitems hbytes

end Plan

end GovAI
