import GovAI.Conversation.Contents
import GovAI.Conversation.Schedules

/-!
# Context freshness at dispatch

From the claim of an attempt on, every statement of `loadDurableContextPlan` has a settled answer:
the turns below a claimed attempt have terminal attempts, the turn that a branch is forked from has a
terminal attempt, hence a claimed one, and so on up to the root; and terminal attempts and the items
of completed ones are final.  The one column that still changes, `causal_version`, is not used by the
plan.  So the plan that a worker has loaded statement by statement is the plan of the state in which
its boundary commits.
-/

namespace GovAI

variable {env : ConvEnv} {s s' : ConvState} {label : ConvLabel} {db db' : ConvDb}

/-! ## Later states -/

/-- What holds of the tables in every reachable state, as far as the context depends on it. -/
structure ConvDb.Sound (db : ConvDb) : Prop where
  shape : db.Shape
  settled : db.ClaimsSettled
  contents : db.ItemContents

theorem reachable_sound (hs : (conversationSystem env).Reachable s) : s.db.Sound where
  shape := (reachable_history hs).shape _ (reachable_history hs).current
  settled := (reachable_history hs).settled _ (reachable_history hs).current
  contents := reachable_itemContents hs

/-- The tables in a later state. -/
structure ConvDb.Later (db db' : ConvDb) : Prop where
  advances : db.Advances db'
  sound : db'.Sound

lemma ConvDb.Later.trans {db₁ db₂ db₃ : ConvDb} (h : db₁.Later db₂) (h' : db₂.Later db₃) :
    db₁.Later db₃ :=
  ⟨h.advances.trans h'.advances, h'.sound⟩

lemma ConvDb.Sound.refl (h : db.Sound) : db.Later db := ⟨.refl db, h⟩

/-! ## The causal version is not used -/

/-- A branch without its causal version. -/
def BranchRow.fixed (b : BranchRow) : BranchRow := { b with causalVersion := 0 }

/-- A frame without the causal version of its branch. -/
def WalkFrame.fixed (f : WalkFrame) : WalkFrame := { f with branch := (f.branch.1, f.branch.2.fixed) }

lemma map_fixed_fixed (frames : List WalkFrame) :
    (frames.map WalkFrame.fixed).map WalkFrame.fixed = frames.map WalkFrame.fixed := by
  rw [List.map_map]
  rfl

/-- The selection does not use the causal versions. -/
lemma selectTurns_fixed (conv : Lineage) (budget : DurableContextBudget) (frames : List WalkFrame)
    (selected : List SelectedTurn) : selectTurns conv budget (frames.map WalkFrame.fixed) selected =
      selectTurns conv budget frames selected := by
  induction frames generalizing selected with
  | nil => rfl
  | cons frame rest ih =>
    simp only [List.map_cons, selectTurns, ih]
    rfl

/-- The walk does not use the causal versions. -/
lemma walkAncestry_fixed {α : Type} {conv : Lineage} {k : List WalkFrame → ContextRead α}
    (hk : ∀ frames, k (frames.map WalkFrame.fixed) = k frames) (depth : ℕ) (branch : Keyed BranchRow)
    (bound : ℕ) (pin : Option ForkPin) (frames : List WalkFrame) :
    walkAncestry conv depth (branch.1, branch.2.fixed) bound pin (frames.map WalkFrame.fixed) >>= k =
      walkAncestry conv depth branch bound pin frames >>= k := by
  induction depth generalizing branch bound pin frames with
  | zero => rfl
  | succ depth ih =>
    have hframes : ∀ (p : Keyed BranchRow) bound pin (fs : List WalkFrame),
        walkAncestry conv depth p bound pin (fs.map WalkFrame.fixed) >>= k =
          walkAncestry conv depth p bound pin fs >>= k := by
      intro p bound pin fs
      rw [← ih p bound pin (fs.map WalkFrame.fixed), map_fixed_fixed, ih]
    have hcons : (⟨(branch.1, branch.2.fixed), bound, pin⟩ : WalkFrame) ::
        frames.map WalkFrame.fixed = (⟨branch, bound, pin⟩ :: frames).map WalkFrame.fixed := rfl
    have hfork : branch.2.fixed.fork = branch.2.fork := rfl
    simp only [walkAncestry, hcons, hfork]
    cases branch.2.fork.parentBranchId with
    | none => exact hk _
    | some parentId =>
      dsimp only
      cases branch.2.fork.forkedFromTurnId with
      | none => rfl
      | some turnId =>
        cases branch.2.fork.forkedFromAttemptId with
        | none => rfl
        | some attemptId =>
          simp only [ReadProgram.bind_assoc, hframes]

/-! ## The walk is frozen -/

/-- The turns of the frame are settled, and so is the attempt of its pin. -/
structure ConvDb.FrameOk (db : ConvDb) (conv : Lineage) (f : WalkFrame) : Prop where
  bound : ∃ y t, db.turns.lookup y = some t ∧ t.conv = conv ∧ t.branchId = f.branch.1 ∧
    t.turnSeq = f.beforeTurnSeq
  settled : db.Settled conv f.branch.1 f.beforeTurnSeq
  pin : ∀ pin, f.pin = some pin → db.turns.lookup pin.turn.1 = some pin.turn.2 ∧
    pin.turn.2.branchId = f.branch.1 ∧ ∃ a, db.attempts.lookup pin.attemptId = some a ∧
      a.conv = conv ∧ a.turnId = pin.turn.1 ∧ a.state.nonTerminal = false

/-- What a fork takes from its source. -/
structure ConvDb.ForkStep (db : ConvDb) (conv : Lineage) (parentId turnId attemptId : Uuid) :
    Prop where
  parent : ∃ b, db.branches.lookup parentId = some b ∧ b.conv = conv
  turn : ∃ t, db.turns.lookup turnId = some t ∧ t.conv = conv ∧ t.branchId = parentId ∧
    db.Settled conv parentId t.turnSeq
  attempt : ∃ a, db.attempts.lookup attemptId = some a ∧ a.conv = conv ∧ a.turnId = turnId ∧
    a.state.nonTerminal = false

/-- The branch that a fork starts from exists, and below its source everything is settled. -/
lemma ConvDb.Sound.forkStep (h : db.Sound) {y parentId : Uuid} {b : BranchRow}
    (hb : db.branches.lookup y = some b) (hparent : b.fork.parentBranchId = some parentId) :
    ∃ turnId attemptId, b.fork.forkedFromTurnId = some turnId ∧
      b.fork.forkedFromAttemptId = some attemptId ∧ db.ForkStep b.conv parentId turnId attemptId := by
  rcases h.shape.forkSource y b hb with hfork | ⟨parentId', turnId, attemptId, mode, source, hfork,
    hsource, hconv, hbranch, hturn, hpin⟩
  · rw [hfork] at hparent
    cases hparent
  · rw [hfork] at hparent ⊢
    cases hparent
    obtain ⟨t, ht, htconv, htbranch, -⟩ := h.shape.attemptTurn attemptId source hsource
    obtain ⟨p, hp, hpconv⟩ := h.shape.turnBranch _ t ht
    have hterminal := forkPinValid_terminal hpin
    have hclaimed := h.shape.claimed attemptId source hsource (.inl fun hs => by
      rw [hs] at hterminal
      cases hterminal)
    have hsettled := h.settled attemptId source t hsource hclaimed ht
    rw [htconv, htbranch, hconv, hbranch] at hsettled
    rw [hturn] at ht
    refine ⟨turnId, attemptId, rfl, rfl, ⟨p, ?_, ?_⟩, ⟨t, ht, htconv.trans hconv,
      htbranch.trans hbranch, hsettled⟩, ⟨source, hsource, hconv, hturn, hterminal⟩⟩
    · rwa [htbranch, hbranch] at hp
    · rw [hpconv, htconv, hconv]

lemma readBranch_eq {conv : Lineage} {y : Uuid} {b : BranchRow} (hb : db.branches.lookup y = some b)
    (hconv : b.conv = conv) : readBranch conv y db = some (y, b) := by
  simp [readBranch, hb, hconv, Option.filter]

lemma readTurnById_eq {conv : Lineage} {branchId y : Uuid} {t : TurnRow}
    (ht : db.turns.lookup y = some t) (hconv : t.conv = conv) (hbranch : t.branchId = branchId) :
    readTurnById conv branchId y db = some (y, t) := by
  simp [readTurnById, ht, hconv, hbranch, Option.filter]

/-- The branch that a later statement reads differs at most in its causal version. -/
lemma ConvDb.Later.readBranch (h : db.Later db') {conv : Lineage} {y : Uuid} {b : BranchRow}
    (hb : db.branches.lookup y = some b) (hconv : b.conv = conv) :
    ∃ b', GovAI.readBranch conv y db' = some (y, b') ∧ b'.fixed = b.fixed := by
  obtain ⟨v, -, hb'⟩ := h.advances.grows.branches y b hb
  exact ⟨_, readBranch_eq hb' hconv, rfl⟩

/-- The walk is frozen, and so is what follows it if it is frozen for settled frames. -/
lemma frozen_walkAncestry {α : Type} {conv : Lineage} {k : List WalkFrame → ContextRead α}
    (hsound : db.Sound) (hk : ∀ frames, k (frames.map WalkFrame.fixed) = k frames)
    (hfrozen : ∀ frames, (∀ f ∈ frames, db.FrameOk conv f) → (k frames).Frozen ConvDb.Later db)
    (depth : ℕ) {branch : Keyed BranchRow} {bound : ℕ} {pin : Option ForkPin}
    {frames : List WalkFrame} (hbranch : db.branches.lookup branch.1 = some branch.2)
    (hconv : branch.2.conv = conv) (hframes : ∀ f ∈ frames, db.FrameOk conv f)
    (hframe : db.FrameOk conv ⟨branch, bound, pin⟩) :
    (walkAncestry conv depth branch bound pin frames >>= k).Frozen ConvDb.Later db := by
  induction depth generalizing branch bound pin frames with
  | zero => exact .fail _
  | succ depth ih =>
    have hall : ∀ f ∈ (⟨branch, bound, pin⟩ : WalkFrame) :: frames, db.FrameOk conv f := by
      intro f hf
      rcases List.mem_cons.mp hf with rfl | hf
      · exact hframe
      · exact hframes f hf
    unfold walkAncestry
    dsimp only
    cases hparent : branch.2.fork.parentBranchId with
    | none => exact hfrozen _ hall
    | some parentId =>
      obtain ⟨turnId, attemptId, hturnId, hattemptId, step⟩ := hsound.forkStep hbranch hparent
      obtain ⟨p, hp, hpconv⟩ := step.parent
      obtain ⟨t, ht, htconv, htbranch, hsettled⟩ := step.turn
      rw [hconv] at hpconv htconv hsettled
      rw [hturnId, hattemptId]
      simp only [ReadProgram.bind_assoc]
      refine .read_bind (fun db' hdb' => ?_) ?_
      · obtain ⟨p', hp', hfixed⟩ := hdb'.readBranch hp hpconv
        rw [hp', readBranch_eq hp hpconv]
        change (ReadProgram.read _ >>= fun _ => _) = (ReadProgram.read _ >>= fun _ => _)
        refine congrArg _ (funext fun turn => congrArg _ (funext fun forkTurn => ?_))
        change (walkAncestry conv depth (parentId, p') _ _ _ >>= k) =
          (walkAncestry conv depth (parentId, p) _ _ _ >>= k)
        rw [← walkAncestry_fixed hk depth (parentId, p'), hfixed, ← walkAncestry_fixed hk depth
          (parentId, p)]
      · rw [readBranch_eq hp hpconv]
        change ReadProgram.Frozen _ _ (ReadProgram.read (readTurnById conv parentId turnId) >>= _)
        refine .read_bind (fun db' hdb' => ?_) ?_
        · rw [readTurnById_eq ht htconv htbranch,
            readTurnById_eq (hdb'.advances.grows.turn ht) htconv htbranch]
        · rw [readTurnById_eq ht htconv htbranch]
          refine ih hp hpconv hall ⟨⟨turnId, t, ht, htconv, htbranch, rfl⟩, hsettled, ?_⟩
          intro pin' hpin'
          dsimp only at hpin'
          split at hpin'
          · cases hpin'
            obtain ⟨a, ha, haconv, haturn, hterminal⟩ := step.attempt
            exact ⟨ht, htbranch, a, ha, haconv.trans hconv, haturn, hterminal⟩
          · cases hpin'

/-! ## The selection is frozen -/

/-- The turn is in the tables, and its attempt is terminal. -/
structure ConvDb.SelectedOk (db : ConvDb) (conv : Lineage) (s : SelectedTurn) : Prop where
  turn : db.turns.lookup s.turn.1 = some s.turn.2
  branchId : s.turn.2.branchId = s.branchId
  attempt : ∃ x a, s.selectedAttemptId = some x ∧ db.attempts.lookup x = some a ∧ a.conv = conv ∧
    a.turnId = s.turn.1 ∧ a.state.nonTerminal = false

/-- No turn is added below a turn that exists. -/
lemma ConvDb.Later.turnsBelow (h : db.Later db') (hshape : db.Shape) {y : Uuid} {t : TurnRow}
    (ht : db.turns.lookup y = some t) :
    GovAI.turnsBelow t.conv t.branchId t.turnSeq db' =
      GovAI.turnsBelow t.conv t.branchId t.turnSeq db := by
  obtain ⟨new, hnew⟩ := h.advances.grows.turns
  have hnone : (new.filter fun e => e.2.conv = t.conv ∧ e.2.branchId = t.branchId ∧
      e.2.turnSeq < t.turnSeq) = [] := by
    refine List.filter_eq_nil_iff.mpr fun e he hlow => ?_
    obtain ⟨hconv, hbranch, hlt⟩ := of_decide_eq_true hlow
    have hlookup : db'.turns.lookup e.1 = some e.2 :=
      AList.mem_lookup_iff.mpr (hnew ▸ List.mem_append_left _ he)
    obtain ⟨z, u, hu, huconv, hubranch, huseq⟩ := hshape.turnSeqDense y t e.2.turnSeq ht
      (h.sound.shape.turnSeqPos _ _ hlookup) hlt.le
    have hsame : e.1 = z := h.sound.shape.turnSeqUnique _ _ _ _ hlookup (h.advances.grows.turn hu)
      (hconv.trans huconv.symm) (hbranch.trans hubranch.symm) huseq.symm
    -- The key of the new entry would occur twice.
    have hkeys := db'.turns.nodupKeys
    rw [hnew, List.NodupKeys, List.keys, List.map_append, List.nodup_append] at hkeys
    exact hkeys.2.2 _ (List.mem_map_of_mem he) _
      (List.mem_map_of_mem (AList.mem_lookup_iff.mp hu)) hsame
  rw [GovAI.turnsBelow, hnew, List.filter_append, hnone]
  rfl

/-- The selection is frozen, and so is what follows it if it is frozen for settled turns. -/
lemma frozen_selectTurns {α : Type} {conv : Lineage} {budget : DurableContextBudget}
    {k : List SelectedTurn → ContextRead α} (hsound : db.Sound)
    (hfrozen : ∀ selected, (∀ s ∈ selected, db.SelectedOk conv s) →
      (k selected).Frozen ConvDb.Later db) {frames : List WalkFrame} {selected : List SelectedTurn}
    (hframes : ∀ f ∈ frames, db.FrameOk conv f) (hselected : ∀ s ∈ selected, db.SelectedOk conv s) :
    (selectTurns conv budget frames selected >>= k).Frozen ConvDb.Later db := by
  induction frames generalizing selected with
  | nil => exact hfrozen selected hselected
  | cons frame rest ih =>
    have hframe := hframes frame (List.mem_cons_self ..)
    obtain ⟨y, t, ht, hconv, hbranch, hseq⟩ := hframe.bound
    simp only [selectTurns, ReadProgram.bind_assoc]
    refine .read_bind (fun db' hdb' => ?_) (.bind (.failIf _ _) fun _ _ =>
      .bind (.failIf _ _) fun _ _ => ih (fun f hf => hframes f (List.mem_cons_of_mem _ hf)) ?_)
    · have hbelow := hdb'.turnsBelow hsound.shape ht
      rw [hconv, hbranch, hseq] at hbelow
      have hread : ∀ limit, readTurnsBefore conv frame.branch.1 frame.beforeTurnSeq limit db' =
          readTurnsBefore conv frame.branch.1 frame.beforeTurnSeq limit db := fun limit => by
        rw [readTurnsBefore, readTurnsBefore, hbelow]
      rw [hread]
    · intro s hs
      simp only [List.mem_append, List.mem_map, Option.mem_toList] at hs
      rcases hs with (hs | ⟨u, hu, rfl⟩) | ⟨pin, hpin, rfl⟩
      · exact hselected s hs
      · obtain ⟨hlookup, huconv, hubranch, hlt⟩ := mem_readTurnsBefore hu
        obtain ⟨x, a, hx, ha, haturn, haconv, -⟩ := hsound.shape.turnAttempt u.1 u.2 hlookup
        exact ⟨hlookup, hubranch, x, a, hx, ha, haconv.trans huconv, haturn,
          hframe.settled u.1 u.2 hlookup huconv hubranch hlt x hx a ha⟩
      · obtain ⟨hlookup, hubranch, a, ha, haconv, haturn, hterminal⟩ := hframe.pin pin hpin
        exact ⟨hlookup, hubranch, pin.attemptId, a, rfl, ha, haconv, haturn, hterminal⟩

/-! ## The entries are frozen -/

/-- The terminal attempts of the selection are read alike in all later states. -/
lemma ConvDb.Later.readAttemptsByIds (h : db.Later db') (conv : Lineage) {ids : List Uuid}
    (hids : ∀ x ∈ ids, ∃ a, db.attempts.lookup x = some a ∧ a.state.nonTerminal = false) :
    GovAI.readAttemptsByIds conv ids db' = GovAI.readAttemptsByIds conv ids db := by
  refine List.filterMap_congr fun x hx => ?_
  obtain ⟨a, ha, hterminal⟩ := hids x hx
  rw [ha, h.advances.grows.terminal ha hterminal]

/-- The items of existing turns and completed attempts are read alike in all later states. -/
lemma ConvDb.Later.joinedItems (h : db.Later db') (hcontents : db.ItemContents) (conv : Lineage)
    {turns : List (Uuid × Uuid)} {ids : List Uuid} (hturns : ∀ p ∈ turns, p.2 ∈ db.turns)
    (hids : ∀ x ∈ ids, ∃ a, db.attempts.lookup x = some a ∧ a.state = .completed) :
    GovAI.joinedItems conv turns ids db' = GovAI.joinedItems conv turns ids db := by
  obtain ⟨new, hnew, hold⟩ := h.advances.newItems
  have hnone : (new.filter fun i => i.conv = conv ∧ (i.branchId, i.turnId) ∈ turns ∧
      (i.attemptId = none ∨ ∃ x ∈ i.attemptId, x ∈ ids)) = [] := by
    refine List.filter_eq_nil_iff.mpr fun i hi hin => ?_
    obtain ⟨-, hturn, hnone | ⟨x, hx, hmem⟩⟩ := of_decide_eq_true hin
    · exact (hold i hi).1 hnone (hturns _ hturn)
    · obtain ⟨a, ha, hstate⟩ := hids x hmem
      exact (hold i hi).2 x a hx ha hstate
  rw [GovAI.joinedItems, hnew, List.filter_append, hnone, List.append_nil]
  refine List.filterMap_congr fun i hi => ?_
  obtain ⟨c, hc, -⟩ := hcontents i (List.mem_of_mem_filter hi)
  rw [hc, h.advances.grows.contents _ c hc]

/-- **The context of a claimed attempt is frozen.** From a state on in which the turns below a turn
are settled, the statements of its context plan have settled answers. -/
theorem frozen_loadDurableContextPlan (hsound : db.Sound) {y : Uuid} {t : TurnRow}
    (ht : db.turns.lookup y = some t) (hsettled : db.Settled t.conv t.branchId t.turnSeq)
    (budget : DurableContextBudget) :
    (loadDurableContextPlan t.conv t.branchId t.turnSeq budget).Frozen ConvDb.Later db := by
  obtain ⟨b, hb, hbconv⟩ := hsound.shape.turnBranch y t ht
  unfold loadDurableContextPlan
  simp only [ReadProgram.bind_assoc]
  set k : List SelectedTurn → ContextRead DurableContextPlan := fun selected =>
    if selected = [] then pure [] else do
      let attempts ← .read (readAttemptsByIds t.conv (selected.filterMap (·.selectedAttemptId)))
      let resolved ← .done (selected.mapM (resolveTurn attempts))
      let turns := selected.map fun s => (s.branchId, s.turn.1)
      let eligibleIds := (resolved.filter (·.eligible)).map (·.attemptId)
      let aggregate ← .read (readContextAggregate t.conv turns eligibleIds)
      .failIf (budget.maxItems < aggregate.1 ∨ budget.maxCiphertextBytes < aggregate.2)
        "context_budget_exceeded"
      let items ← .read (readItemsWithContent t.conv turns eligibleIds)
      .done (resolved.mapM (planEntry resolved items)) with hkdef
  have hfixed : ∀ frames, (selectTurns t.conv budget (frames.map WalkFrame.fixed) [] >>= k) =
      (selectTurns t.conv budget frames [] >>= k) := fun frames => by rw [selectTurns_fixed]
  have hk : ∀ selected, (∀ s ∈ selected, db.SelectedOk t.conv s) →
      (k selected).Frozen ConvDb.Later db := by
    intro selected hselected
    rw [hkdef]
    dsimp only
    split
    · exact .pure _
    · have hids : ∀ x ∈ selected.filterMap (·.selectedAttemptId), ∃ a,
          db.attempts.lookup x = some a ∧ a.state.nonTerminal = false := by
        intro x hx
        obtain ⟨s, hs, hsx⟩ := List.mem_filterMap.mp hx
        obtain ⟨x', a, hx', ha, -, -, hterminal⟩ := (hselected s hs).attempt
        obtain rfl : x' = x := Option.some.inj (hx'.symm.trans hsx)
        exact ⟨a, ha, hterminal⟩
      refine .bind (.read fun db' hdb' => hdb'.readAttemptsByIds t.conv hids) fun attempts hattempts =>
        .bind trivial fun resolved hresolved => ?_
      have hattempts : readAttemptsByIds t.conv _ db = attempts := Except.ok.inj hattempts
      have hturns : ∀ p ∈ selected.map fun s => (s.branchId, s.turn.1), p.2 ∈ db.turns := by
        intro p hp
        obtain ⟨s, hs, rfl⟩ := List.mem_map.mp hp
        exact AList.lookup_isSome.mp ((hselected s hs).turn ▸ rfl)
      have heligible : ∀ x ∈ (resolved.filter (·.eligible)).map (·.attemptId), ∃ a,
          db.attempts.lookup x = some a ∧ a.state = .completed := by
        intro x hx
        obtain ⟨r, hr, rfl⟩ := List.mem_map.mp hx
        obtain ⟨hr, hel⟩ := List.mem_filter.mp hr
        obtain ⟨s, -, hrs⟩ := except_mapM_mem hresolved r hr
        obtain ⟨-, hmem, -⟩ := resolveTurn_eq_ok hrs
        obtain ⟨hlookup, -, -⟩ := mem_readAttemptsByIds (hattempts ▸ hmem)
        simp only [ResolvedTurn.eligible, decide_eq_true_eq] at hel
        exact ⟨r.attempt, hlookup, hel.1⟩
      have hitems : ∀ db', db.Later db' → joinedItems t.conv _ _ db' = joinedItems t.conv _ _ db :=
        fun db' hdb' => hdb'.joinedItems hsound.contents t.conv hturns heligible
      refine .bind (.read fun db' hdb' => ?_) fun _ _ => .bind (.failIf _ _) fun _ _ =>
        .bind (.read fun db' hdb' => ?_) fun _ _ => trivial
      · rw [readContextAggregate, readContextAggregate, hitems db' hdb']
      · rw [readItemsWithContent, readItemsWithContent, hitems db' hdb']
  have hframe : db.FrameOk t.conv ⟨(t.branchId, b), t.turnSeq, none⟩ :=
    ⟨⟨y, t, ht, rfl, rfl, rfl⟩, hsettled, fun _ => nofun⟩
  have hwalk : ∀ b', db.branches.lookup t.branchId = some b' → b'.conv = t.conv →
      (walkAncestry t.conv maxBranchDepth (t.branchId, b') t.turnSeq none [] >>= fun frames =>
        selectTurns t.conv budget frames [] >>= k).Frozen ConvDb.Later db := by
    intro b' hb' hconv'
    exact frozen_walkAncestry hsound hfixed
      (fun frames hframes => frozen_selectTurns hsound hk hframes (fun _ => nofun)) _ hb' hconv'
      (fun _ => nofun) ⟨hframe.bound, hframe.settled, hframe.pin⟩
  refine .read_bind (fun db' hdb' => ?_) ?_
  · obtain ⟨b', hb', hsame⟩ := hdb'.readBranch hb hbconv
    rw [hb', readBranch_eq hb hbconv]
    change (walkAncestry t.conv maxBranchDepth (t.branchId, b') t.turnSeq none [] >>= fun frames =>
      selectTurns t.conv budget frames [] >>= k) = (walkAncestry t.conv maxBranchDepth (t.branchId, b)
        t.turnSeq none [] >>= fun frames => selectTurns t.conv budget frames [] >>= k)
    rw [← walkAncestry_fixed hfixed maxBranchDepth (t.branchId, b'), hsame,
      ← walkAncestry_fixed hfixed maxBranchDepth (t.branchId, b)]
  · rw [readBranch_eq hb hbconv]
    exact hwalk b hb hbconv

/-! ## The loaded plan -/

/-- When an arm answers positively, the attempt carries the token of the drive. -/
lemma Drive.Coherent.armed {deps : ExecutorDeps} {st : Statement} {token : Uuid} {d : Drive} {op : Op}
    (hc : d.Coherent token) (hp : d.point = .arming) (hcall : d.call = some op)
    (hexec : op.exec deps st db = .ok (.done true db')) :
    ∃ a, db'.attempts.lookup d.attemptId = some a ∧ a.claimToken = some token := by
  have hawaits := hc.awaits
  simp only [Drive.Awaits, hp] at hawaits
  obtain ⟨-, op', hop', harms⟩ := hawaits
  obtain rfl : op = op' := Option.some.inj (hcall.symm.trans hop')
  rcases harms with harms | ⟨x, e, rfl⟩
  · cases Op.exec_done hexec with
    | write hwrite _ _ _ hdb =>
      have hrow := lookup_of_write hdb d.attemptId
      cases hwrite with
      | claim | rotate | reclaim =>
        obtain ⟨rfl, rfl⟩ := harms
        rw [if_pos rfl] at hrow
        exact ⟨_, hrow, rfl⟩
      | _ => exact harms.elim
    | item => exact harms.elim
  · obtain ⟨r, -, hr⟩ := except_map_eq_ok_iff.mp hexec
    cases hr

/-- A drive loads only for a claimed attempt. -/
def ConvState.LoadsClaimed (s : ConvState) : Prop :=
  ∀ t d rest, s.drives t = some d → d.point = .loading rest →
    ∃ a, s.db.attempts.lookup d.attemptId = some a ∧ a.claimToken ≠ none

lemma Drive.finalize_not_loading (d : Drive) (token : Uuid) (kind : TerminalCall) (state : AttemptState)
    (errorClass : Option AttemptErrorClass) (rest) :
    (d.finalize token kind state errorClass).point ≠ .loading rest := by
  rcases d.finalize_cases token kind state errorClass with ⟨_, -, h⟩ | h <;> rw [h] <;> exact nofun

lemma ConvStep.loadsClaimed (step : ConvStep env s label s') (hist : s.History env)
    (hworkers : s.Workers) (h : s.LoadsClaimed) : s'.LoadsClaimed := by
  intro t e rest he hp
  have hold : ∀ {d rest}, s.drives t = some d → d.point = .loading rest → ∃ a,
      s'.db.attempts.lookup d.attemptId = some a ∧ a.claimToken ≠ none := by
    intro d rest hd hp
    obtain ⟨a, ha, hclaimed⟩ := h t d rest hd hp
    obtain ⟨a', ha', hag⟩ := (step.grows hist).attempts _ a ha
    exact ⟨a', ha', hag.claimed hclaimed⟩
  cases step.drive_origin he with
  | kept hd => exact hold hd hp
  | started _ heq =>
    subst heq
    cases hp
  | moved hd hmove _ =>
    cases hmove with
    | read hload =>
      have hclaimed := hold hd hload
      exact hclaimed
    | reject | noCredential | blocked | localError | noResponse | evidenceLost | upstreamErrorLost
    | encryptFails | evidenceEmitted | evidenceFails =>
      exact (Drive.finalize_not_loading _ _ _ _ _ _ hp).elim
    | _ => cases hp
  | fetched hd _ heq =>
    subst heq
    cases hp
  | waiting hd _ _ heq =>
    subst heq
    have hclaimed := hold hd hp
    exact hclaimed
  | @answered d op st reply hd hcall hexec heq =>
    subst heq
    have hc := hworkers.coherent t d hd
    rw [(Drive.resume_progress hc reply).1.attemptId]
    unfold Drive.resume at hp
    split at hp
    case h_1 harming =>
      obtain ⟨a, ha, htoken⟩ := hc.armed harming hcall hexec
      exact ⟨a, ha, by rw [htoken]; exact nofun⟩
    case h_6 | h_9 => exact (Drive.finalize_not_loading _ _ _ _ _ _ hp).elim
    all_goals cases hp
  | raised hd heq =>
    subst heq
    unfold Drive.raise at hp
    split at hp
    case h_8 => cases hp
    all_goals exact (Drive.finalize_not_loading _ _ _ _ _ _ hp).elim
  | crashed hd heq =>
    subst heq
    cases hp

theorem reachable_loadsClaimed (hs : (conversationSystem env).Reachable s) : s.LoadsClaimed := by
  refine hs.invariant (I := ConvState.LoadsClaimed) ?_ ?_
  · rintro _ ⟨orgs, credentials, rfl⟩ t d rest hd
    cases hd
  · intro s label s' hs h step
    exact step.loadsClaimed (reachable_history hs) (reachable_workers hs) h

/-- The loaded plan is the plan of every later state. -/
def PlanCurrent (_owner : OwnerScope) (_x : Uuid) (db : ConvDb) (r : Except Empty (Option Loaded)) :
    Prop :=
  ∀ l, r = .ok (some l) → (contextPlanOf l.inputs.context).Frozen ConvDb.Later db ∧
    ∀ plan, l.contextPlan = some plan → (contextPlanOf l.inputs.context).eval db = plan

lemma PlanCurrent.later {owner : OwnerScope} {x : Uuid} {r : Except Empty (Option Loaded)}
    (hdb : db.Later db') (h : PlanCurrent owner x db r) : PlanCurrent owner x db' r := by
  intro l hl
  obtain ⟨hfrozen, heval⟩ := h l hl
  obtain ⟨hfrozen', hsame⟩ := hfrozen.later (fun _ _ _ h h' => h.trans h') hdb
  exact ⟨hfrozen', fun plan hplan => hsame.trans (heval plan hplan)⟩

/-- **Loaded plans.** The plan that a drive has loaded is the plan of the current state. -/
theorem reachable_planCurrent (hs : (conversationSystem env).Reachable s) :
    s.LoadsEnsure ConvDb.Later PlanCurrent := by
  have htrans : ∀ d₁ d₂ d₃ : ConvDb, d₁.Later d₂ → d₂.Later d₃ → d₁.Later d₃ :=
    fun _ _ _ h h' => h.trans h'
  refine hs.invariant (I := fun s => s.LoadsEnsure ConvDb.Later PlanCurrent) ?_ ?_
  · rintro _ ⟨orgs, credentials, rfl⟩ t d hd
    cases hd
  · intro s label s' hs h step
    have hs' := hs.step step
    refine step.loads htrans (fun _ _ _ _ _ hdb hq => hq.later hdb) (reachable_workers hs)
      (reachable_sound hs).refl ⟨step.advances hs, reachable_sound hs'⟩ (fun t d hd hp => ?_) h
    obtain ⟨a, ha, hclaimed⟩ := reachable_loadsClaimed hs' t d _ hd hp
    refine loadTransaction_ensures htrans (fun _ _ l hl => by cases hl) ?_
    intro db₁ context h₁ hcontext inputs db₂ hinputs h₂
    subst hinputs
    obtain ⟨a', u, ha', hu, huconv, hubranch, hconv, hbranch, -, hseq⟩ :=
      readExecutionContext_of hcontext
    obtain ⟨a'', ha'', hag⟩ := h₁.advances.grows.attempts _ a ha
    obtain rfl : a' = a'' := Option.some.inj (ha'.symm.trans ha'')
    have hsettled := h₁.sound.settled _ a' u ha' (hag.claimed hclaimed) hu
    have hfrozen : (contextPlanOf inputs.context).Frozen ConvDb.Later db₁ := by
      have := frozen_loadDurableContextPlan h₁.sound hu hsettled defaultContextBudget
      rwa [huconv, hubranch, ← hconv, ← hbranch, ← hseq] at this
    obtain ⟨hfrozen₂, heval⟩ := hfrozen.later htrans h₂
    refine ⟨fun l hl => ?_, hfrozen₂.ensures htrans (fun _ _ _ hdb hq => hq.later hdb) fun l hl => ?_⟩
    · cases hl
      exact ⟨hfrozen₂, fun plan hplan => by cases hplan⟩
    · cases hl
      exact ⟨hfrozen₂, fun plan hplan => Option.some.inj hplan⟩

/-! ## The built request -/

/-- Every request was built from its inputs and its plan. -/
def ConvState.RequestsBuilt (env : ConvEnv) (s : ConvState) : Prop :=
  ∀ t d r, s.drives t = some d → d.request = some r →
    env.deps.buildRequest r.inputs r.contextPlan r.nowMs = some r.built

lemma Drive.finalize_request (d : Drive) (token : Uuid) (kind : TerminalCall) (state : AttemptState)
    (errorClass : Option AttemptErrorClass) :
    (d.finalize token kind state errorClass).request = d.request := by
  rcases d.finalize_cases token kind state errorClass with ⟨_, -, h⟩ | h <;> rw [h] <;> rfl

lemma DriveMove.request {deps : ExecutorDeps} {token : Uuid} {d d' : Drive}
    (h : DriveMove deps token db d d') : d'.request = d.request ∨ ∃ r, d'.request = some r ∧
      deps.buildRequest r.inputs r.contextPlan r.nowMs = some r.built := by
  cases h with
  | build _ _ _ hbuilt => exact .inr ⟨_, rfl, hbuilt⟩
  | reject | noCredential | blocked | localError | noResponse | evidenceLost | upstreamErrorLost
  | encryptFails | evidenceEmitted | evidenceFails => exact .inl (d.finalize_request ..)
  | _ => exact .inl rfl

lemma Drive.resume_request (token : Uuid) (d : Drive) (reply : Bool) :
    (d.resume token reply).request = d.request := by
  unfold Drive.resume
  split <;> first | exact d.finalize_request .. | rfl

lemma Drive.raise_request (token : Uuid) (d : Drive) : (d.raise token).request = d.request := by
  unfold Drive.raise
  split <;> first | exact d.finalize_request .. | rfl

theorem reachable_requestsBuilt (hs : (conversationSystem env).Reachable s) :
    s.RequestsBuilt env := by
  refine hs.invariant (I := ConvState.RequestsBuilt env) ?_ ?_
  · rintro _ ⟨orgs, credentials, rfl⟩ t d r hd
    cases hd
  · intro s label s' _ h step t e r he hr
    cases ConvStep.drive_origin step he with
    | kept hd => exact h t e r hd hr
    | started _ heq =>
      subst heq
      cases hr
    | moved hd hmove _ =>
      rcases hmove.request with hsame | ⟨r', hr', hbuilt⟩
      · exact h t _ r hd (hsame ▸ hr)
      · obtain rfl : r' = r := Option.some.inj (hr'.symm.trans hr)
        exact hbuilt
    | fetched hd _ heq | waiting hd _ _ heq | crashed hd heq =>
      subst heq
      exact h t _ r hd hr
    | answered hd _ _ heq =>
      subst heq
      exact h t _ r hd (by rwa [Drive.resume_request] at hr)
    | raised hd heq =>
      subst heq
      exact h t _ r hd (by rwa [Drive.raise_request] at hr)

/-! ## Freshness -/

/-- **Context freshness at dispatch.** When a step commits the dispatch boundary of an attempt, the
worker that holds the claim has built its request, with the sampled causal version that the row now
carries, from the context plan of the turn of the attempt in the state of that commit, all statements
of the plan being run in this one state. -/
theorem context_fresh_at_dispatch (hs : (conversationSystem env).Reachable s)
    (step : (conversationSystem env).step s label s') {x : Uuid} {a a' : AttemptRow}
    (ha : s.db.attempts.lookup x = some a) (hstate : a.state = .accepted)
    (ha' : s'.db.attempts.lookup x = some a') (hstate' : a'.state = .dispatching) :
    ∃ token d r t plan, a'.claimToken = some token ∧ s'.drives token = some d ∧ d.attemptId = x ∧
      d.request = some r ∧ a'.causalVersionAtBuild = some r.inputs.context.causalVersion ∧
      s'.db.turns.lookup a'.turnId = some t ∧
      (loadDurableContextPlan a'.conv a'.branchId t.turnSeq defaultContextBudget).eval s'.db =
        .ok plan ∧
      env.deps.buildRequest r.inputs plan r.nowMs = some r.built := by
  have hs' := hs.step step
  have hworkers := reachable_workers hs
  obtain ⟨owner, args, st, hflight, -, rfl, hwrite⟩ :=
    ConvStep.boundary_commit step (reachable_history hs) hworkers ha hstate ha' hstate'
  obtain ⟨d, hd, hx, -, r, hr, hversion⟩ := hworkers.legal owner _ hflight
  obtain ⟨d', hd', hle⟩ := ConvStep.drivesLe step hworkers _ d hd
  have hr' := hle.request r hr
  have hx' := hle.attemptId.trans hx
  have hloads := reachable_planCurrent hs' _ d' hd'
  obtain ⟨-, heval⟩ := hloads.request r hr' _ rfl
  have hof := (reachable_contexts hs' _ d' hd').request r hr' _ rfl
  obtain ⟨b, t, hb, ht, -, -, hconv, hbranch, -, hseq⟩ := hof
  rw [hx'] at hb
  obtain rfl : b = a' := Option.some.inj (hb.symm.trans ha')
  have hplan := heval _ rfl
  rw [contextPlanOf, hconv, hbranch, hseq] at hplan
  refine ⟨args.claimToken, d', r, t, r.contextPlan, ?_, hd', hx', hr', ?_, ht, hplan,
    reachable_requestsBuilt hs' _ d' r hd' hr'⟩
  · cases hwrite with
    | boundary _ htoken => exact htoken
  · cases hwrite with
    | boundary => exact congrArg some hversion

/-- The theorem at the boundary commit of the second turn of the sample. -/
theorem context_fresh_at_dispatch_sample :
    ∃ (s s' : ConvState) (a' : AttemptRow) (token : Uuid) (r : PreparedRequest) (t : TurnRow)
      (plan : DurableContextPlan), (conversationSystem sampleConvEnv).Reachable s ∧
      s'.db.attempts.lookup (sampleUuid 201) = some a' ∧ a'.claimToken = some token ∧
      s'.db.turns.lookup a'.turnId = some t ∧
      (loadDurableContextPlan a'.conv a'.branchId t.turnSeq defaultContextBudget).eval s'.db =
        .ok plan ∧
      sampleConvEnv.deps.buildRequest r.inputs plan r.nowMs = some r.built := by
  obtain ⟨s, label, s', a, a', hs, step, ha, hstate, ha', hstate'⟩ := sample_boundary
  obtain ⟨token, d, r, t, plan, htoken, -, -, -, -, ht, hplan, hbuilt⟩ :=
    context_fresh_at_dispatch hs step ha hstate ha' hstate'
  exact ⟨s, s', a', token, r, t, plan, hs, ha', htoken, ht, hplan, hbuilt⟩

end GovAI
