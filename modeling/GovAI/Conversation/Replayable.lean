import GovAI.Conversation.Freshness
import GovAI.Conversation.Recording
import GovAI.Conversation.Schedules

/-!
# Completed attempts can be replayed

The writer of the outputs and their reader meet: on tables whose completed attempts have stored a
response or a stream (`ConvDb.Replayable`), the context plan of no turn fails for the output of a
completed attempt.  `loadDurableContextPlan` is taken apart query by query, each with what its rows
satisfy and with the errors that it may end with.
-/

namespace GovAI

variable {env : ConvEnv} {s : ConvState} {db : ConvDb}

/-- The reasons for which the output of a completed attempt makes a context unbuildable. -/
def replayFailures : List String :=
  ["completed_output_missing", "output_item_shape_unsupported", "completed_terminal_stamp_missing"]

/-- A reason that is not about the output of a completed attempt. -/
def OtherFailure (reason : String) : Prop := reason ∉ replayFailures

instance (reason : String) : Decidable (OtherFailure reason) := instDecidableNot

/-! ## The rows that are read -/

/-- The turn of the pin of a frame lies on the branch of the frame. -/
def ConvDb.PinOk (db : ConvDb) (f : WalkFrame) : Prop :=
  ∀ pin, f.pin = some pin →
    db.turns.lookup pin.turn.1 = some pin.turn.2 ∧ pin.turn.2.branchId = f.branch.1

/-- A selected turn lies on the branch that it is selected for. -/
def ConvDb.Selects (db : ConvDb) (s : SelectedTurn) : Prop :=
  db.turns.lookup s.turn.1 = some s.turn.2 ∧ s.turn.2.branchId = s.branchId

lemma yields_require {α : Type} {P : α → Prop} {reason : String} {r : Option α}
    (hreason : OtherFailure reason) (h : ∀ a, r = some a → P a) :
    Yields OtherFailure P ((ContextRead.require reason r).eval db) := by
  cases r with
  | none => exact hreason
  | some a => exact h a rfl

lemma yields_walkAncestry {conv : Lineage} (depth : ℕ) {branch : Keyed BranchRow} {bound : ℕ}
    {pin : Option ForkPin} {frames : List WalkFrame} (hframes : ∀ f ∈ frames, db.PinOk f)
    (hpin : db.PinOk ⟨branch, bound, pin⟩) :
    Yields OtherFailure (fun frames => ∀ f ∈ frames, db.PinOk f)
      ((walkAncestry conv depth branch bound pin frames).eval db) := by
  induction depth generalizing branch bound pin frames with
  | zero => exact show OtherFailure "branch_depth_exceeded" by decide
  | succ depth ih =>
    have hall := List.forall_mem_cons.mpr ⟨hpin, hframes⟩
    unfold walkAncestry
    dsimp only
    split
    · exact hall
    · next parentId _ =>
      split
      · next turnId attemptId _ _ =>
        simp only [ReadProgram.eval_bind, ReadProgram.eval_read]
        change Yields _ _ ((ContextRead.require "branch_unreadable" _).eval db >>= _)
        refine (yields_require (P := fun _ => True) (by decide) fun _ _ => trivial).bind ?_
        intro parent _
        change Yields _ _ ((ContextRead.require "fork_source_unreadable" _).eval db >>= _)
        refine (yields_require (P := fun t => db.turns.lookup t.1 = some t.2 ∧
          t.2.branchId = parent.1) (by decide) ?_).bind ?_
        · intro t ht
          simp only [readTurnById, Option.map_eq_some_iff, Option.filter_eq_some_iff,
            decide_eq_true_eq] at ht
          obtain ⟨u, ⟨hu, -, hbranch⟩, rfl⟩ := ht
          exact ⟨hu, hbranch⟩
        · intro t ht
          refine ih hall fun pin' hpin' => ?_
          dsimp only at hpin'
          split at hpin'
          · cases hpin'
            exact ht
          · cases hpin'
      · exact show OtherFailure "fork_shape_invalid" by decide

lemma yields_selectTurns {conv : Lineage} {budget : DurableContextBudget} {frames : List WalkFrame}
    {selected : List SelectedTurn} (hframes : ∀ f ∈ frames, db.PinOk f)
    (hselected : ∀ s ∈ selected, db.Selects s) :
    Yields OtherFailure (fun selected => ∀ s ∈ selected, db.Selects s)
      ((selectTurns conv budget frames selected).eval db) := by
  induction frames generalizing selected with
  | nil => exact hselected
  | cons frame rest ih =>
    obtain ⟨hframe, hrest⟩ := List.forall_mem_cons.mp hframes
    simp only [selectTurns, ReadProgram.eval_bind, ReadProgram.eval_read, ReadProgram.eval_failIf]
    change Yields _ _ (rejectIf _ _ >>= _)
    refine (yields_rejectIf (by decide)).bind fun _ _ => ?_
    refine (yields_rejectIf (by decide)).bind fun _ _ => ih hrest fun s hs => ?_
    simp only [List.mem_append, List.mem_map, Option.mem_toList] at hs
    rcases hs with (hs | ⟨t, ht, rfl⟩) | ⟨pin, hpin, rfl⟩
    · exact hselected s hs
    · obtain ⟨hlookup, -, hbranch, -⟩ := mem_readTurnsBefore ht
      exact ⟨hlookup, hbranch⟩
    · exact hframe pin hpin

/-! ## The output of an attempt -/

/-- The items that are read for an attempt are its outputs. -/
lemma readItemsWithContent_outputs (hsound : db.Sound) {conv : Lineage} {turns : List (Uuid × Uuid)}
    {ids : List Uuid} {x : Uuid} {a : AttemptRow} (ha : db.attempts.lookup x = some a)
    (hconv : a.conv = conv) (hturn : (a.branchId, a.turnId) ∈ turns) (hx : x ∈ ids) :
    (((readItemsWithContent conv turns ids db).filter fun i =>
      i.turnId = a.turnId ∧ i.attemptId = some x).map (·.itemType)).Perm
        ((db.outputs x).map (·.itemType)) := by
  have hjoined : ((joinedItems conv turns ids db).filter fun i =>
      i.turnId = a.turnId ∧ i.attemptId = some x).map (·.itemType) =
        (db.outputs x).map (·.itemType) := by
    rw [joinedItems, ConvDb.outputs, List.filter_filterMap, List.map_filterMap,
      List.filterMap_filter, ← List.filterMap_eq_map, List.filterMap_filter]
    refine List.filterMap_congr fun i hi => ?_
    obtain ⟨c, hc, hcconv⟩ := hsound.contents i hi
    by_cases hix : i.attemptId = some x
    · obtain ⟨hiconv, hibranch, hiturn⟩ := hsound.shape.item_identity hi hix ha
      simp [hc, hcconv, hix, hiconv, hconv, hx, hiturn, hibranch, hturn, Option.filter]
    · simp only [hix, decide_false, Bool.false_eq_true, if_false]
      split
      · cases h : (db.contents.lookup i.contentId).filter fun c => c.conv = conv <;> simp [hix]
      · rfl
  rw [← hjoined]
  exact ((List.perm_insertionSort _ _).filter _).map _

/-- A stored output is planned. -/
lemma yields_planOutput (hchecks : ∀ x a, db.attempts.lookup x = some a → a.Checks) {x : Uuid}
    {a : AttemptRow} (ha : db.attempts.lookup x = some a) (hstate : a.state = .completed)
    (houtput : ReplayableOutput (db.outputs x)) {items : List ItemWithContent} {y : Uuid}
    (hitems : ((items.filter fun i => i.turnId = y ∧ i.attemptId = some x).map (·.itemType)).Perm
      ((db.outputs x).map (·.itemType))) :
    Yields OtherFailure (fun _ => True) (planOutput items y x a) := by
  have hterminal : a.terminalAt ≠ none := (hchecks x a ha).terminalAt (by rw [hstate]; rfl)
  obtain ⟨terminalAt, hterminalAt⟩ := Option.ne_none_iff_exists'.mp hterminal
  simp only [planOutput, hterminalAt]
  generalize (items.filter fun i => i.turnId = y ∧ i.attemptId = some x) = outputItems at *
  have hne : outputItems ≠ [] := by
    rintro rfl
    have hnil := List.nil_perm.mp hitems
    rcases houtput with hresponse | ⟨hne, -⟩
    · rw [hresponse] at hnil
      cases hnil
    · exact hne (List.map_eq_nil_iff.mp hnil)
  rw [rejectIf_of_not hne]
  change Yields _ _ (if _ then _ else _)
  rcases houtput with hresponse | ⟨-, hchunks⟩
  · rw [hresponse] at hitems
    rw [if_pos (List.perm_singleton.mp hitems)]
    trivial
  · have hall : ∀ i ∈ outputItems, i.itemType = .nativeStreamChunk := by
      intro i hi
      obtain ⟨j, hj, hij⟩ := List.mem_map.mp (hitems.mem_iff.mp (List.mem_map_of_mem hi))
      exact hij.symm.trans (hchunks j hj)
    rw [if_pos hall]
    split <;> trivial

/-! ## The plan -/

/-- **The reader.** On tables whose completed attempts can be replayed, the plan of no turn fails for
the output of a completed attempt. -/
theorem yields_loadDurableContextPlan (hsound : db.Sound) (hreplayable : db.Replayable)
    (conv : Lineage) (branchId : Uuid) (turnSeq : ℕ) (budget : DurableContextBudget) :
    Yields OtherFailure (fun _ => True)
      ((loadDurableContextPlan conv branchId turnSeq budget).eval db) := by
  unfold loadDurableContextPlan
  simp only [ReadProgram.eval_bind, ReadProgram.eval_read]
  change Yields _ _ ((ContextRead.require "branch_unreadable" _).eval db >>= _)
  refine (yields_require (P := fun _ => True) (by decide) fun _ _ => trivial).bind fun branch _ => ?_
  refine (yields_walkAncestry _ (List.forall_mem_nil _) ?_).bind fun frames hframes => ?_
  · intro pin hpin
    cases hpin
  refine (yields_selectTurns hframes (List.forall_mem_nil _)).bind fun selected hselected => ?_
  split
  · trivial
  · simp only [ReadProgram.eval_bind, ReadProgram.eval_read, ReadProgram.eval_done,
      ReadProgram.eval_failIf]
    change Yields _ _ (selected.mapM _ >>= _)
    -- What the rows of a resolved turn are.
    refine (yields_mapM (Q := fun r : ResolvedTurn => db.attempts.lookup r.attemptId =
      some r.attempt ∧ r.attempt.conv = conv ∧ r.attempt.turnId = r.selected.turn.1 ∧
      (r.attempt.branchId, r.attempt.turnId) ∈ selected.map fun s => (s.branchId, s.turn.1))
      fun s hs => ?_).bind fun resolved hresolved => ?_
    · cases hr : resolveTurn (readAttemptsByIds conv _ db) s with
      | error e =>
        unfold resolveTurn at hr
        split at hr
        · cases hr
          exact show OtherFailure "turn_without_current_attempt" by decide
        · split at hr
          · cases hr
            exact show OtherFailure "selected_attempt_unreadable" by decide
          · split at hr
            · cases hr
            · cases hr
              exact show OtherFailure "selected_attempt_unreadable" by decide
      | ok r =>
        obtain ⟨rfl, hmem, -, hturn⟩ := resolveTurn_eq_ok hr
        obtain ⟨hlookup, hconv, -⟩ := mem_readAttemptsByIds hmem
        obtain ⟨ht, hbranch⟩ := hselected _ hs
        obtain ⟨t, ht', -, htbranch, -⟩ := hsound.shape.attemptTurn _ _ hlookup
        rw [hturn, ht] at ht'
        obtain rfl := Option.some.inj ht'
        refine ⟨hlookup, hconv, hturn, List.mem_map.mpr ⟨_, hs, ?_⟩⟩
        rw [← htbranch, hbranch, hturn]
    · change Yields _ _ (rejectIf _ _ >>= _)
      refine (yields_rejectIf (by decide)).bind fun _ _ => ?_
      change Yields _ _ (resolved.mapM _)
      have hentries : Yields OtherFailure (fun r : List ContextPlanEntry => ∀ b ∈ r, True)
          (resolved.mapM (planEntry resolved (readItemsWithContent conv
            (selected.map fun s => (s.branchId, s.turn.1))
            ((resolved.filter (·.eligible)).map (·.attemptId)) db))) := by
        refine yields_mapM fun r hr => ?_
        unfold planEntry
        dsimp only
        split
        · split
          · next e he =>
            obtain ⟨hmem, heligible⟩ := List.mem_filter.mp (List.mem_of_find?_eq_some he)
            have hsame : e.attemptId = r.attemptId := by simpa using List.find?_some he
            obtain ⟨hlookup, hconv, -, hturn⟩ := hresolved e hmem
            obtain ⟨hlookup', -, hturn', -⟩ := hresolved r hr
            have hrow : r.attempt = e.attempt :=
              Option.some.inj (hlookup'.symm.trans (hsame ▸ hlookup))
            have hstate := heligible
            simp only [ResolvedTurn.eligible, decide_eq_true_eq] at hstate
            rw [← hturn', hrow]
            have hplanned := yields_planOutput hsound.shape.checks hlookup hstate.1
              (hreplayable _ _ hlookup hstate.1) (readItemsWithContent_outputs hsound hlookup hconv
                hturn (List.mem_map.mpr ⟨e, List.mem_filter.mpr ⟨hmem, heligible⟩, rfl⟩))
            exact Yields.bind (P := fun _ => True) (hplanned.map fun _ _ => trivial)
              fun _ _ => trivial
          · trivial
        · exact show OtherFailure "turn_input_shape_unsupported" by decide
      exact hentries.mono fun _ _ => trivial

/-! ## The runs -/

/-- An earlier commit shows the attempt before its terminal transition, with all its outputs. -/
def ConvState.StoredBefore (s : ConvState) (x : Uuid) : Prop :=
  ∃ db₀ a₀, s.Past db₀ ∧ db₀.attempts.lookup x = some a₀ ∧ a₀.state.nonTerminal = true ∧
    db₀.outputs x = s.db.outputs x

theorem reachable_storedBefore (hs : (conversationSystem env).Reachable s) :
    ∀ x a, s.db.attempts.lookup x = some a → a.state = .completed → s.StoredBefore x := by
  refine hs.invariant (I := fun s => ∀ x a, s.db.attempts.lookup x = some a →
    a.state = .completed → s.StoredBefore x) ?_ ?_
  · rintro _ ⟨orgs, credentials, rfl⟩ x a ha
    cases ha
  · intro s label s' hs h step x a' ha' hstate
    have hist := reachable_history hs
    have hold : ∀ a, s.db.attempts.lookup x = some a → a.state = .completed →
        s'.StoredBefore x := by
      intro a ha hstate
      obtain ⟨db₀, a₀, hpast, ha₀, hnon, hsame⟩ := h x a ha hstate
      refine ⟨db₀, a₀, ConvStep.past step hpast, ha₀, hnon, hsame.trans ?_⟩
      exact ((ConvStep.advances hs step).outputs ha hstate).symm
    rcases ConvStep.completed_row step hist ha' hstate with ha | ⟨owner, context, t, errorClass, a,
      hflight, ha, -, -, hitems⟩
    · exact hold a' ha hstate
    · by_cases hnon : a.state.nonTerminal = true
      · exact ⟨s.db, a, ConvStep.past step hist.current, ha, hnon, by
          rw [ConvDb.outputs, ConvDb.outputs, hitems]⟩
      · have hsame := (ConvStep.grows hist step).terminal ha (by simpa using hnon)
        obtain rfl : a = a' := Option.some.inj (hsame.symm.trans ha')
        exact hold a ha hstate

/-- The drive has just loaded a plan, or the reason why there is none. -/
def Drive.HasLoaded (d : Drive) (plan : Except String DurableContextPlan) : Prop :=
  ∃ l : Loaded, l.contextPlan = some plan ∧
    (d.point = .loading (.done (.ok (some l))) ∨ d.point = .loaded l)

/-- **Completed attempts are replayable.** In every run in which no stream of a successful answer ends
without having delivered a byte: the outputs of a completed attempt are numbered from 1, they are one
response or at least one chunk, and all of them were committed while the attempt was not terminal;
and no context plan fails for them, neither one of the current state nor one that a drive has loaded
statement by statement. -/
theorem completed_replayable (hs : (deliveringSystem env).Reachable s) :
    (∀ x a, s.db.attempts.lookup x = some a → a.state = .completed →
      s.db.OutputsNumbered x ∧ ReplayableOutput (s.db.outputs x) ∧ s.StoredBefore x) ∧
    (∀ conv branchId turnSeq budget reason,
      (loadDurableContextPlan conv branchId turnSeq budget).eval s.db = .error reason →
        reason ∉ replayFailures) ∧
    ∀ t d reason, s.drives t = some d → d.HasLoaded (.error reason) → reason ∉ replayFailures := by
  have hall := hs.of_restrict
  have hsound := reachable_sound hall
  have hreplayable := (reachable_recorded hs).completed
  have hplan := yields_loadDurableContextPlan hsound hreplayable
  refine ⟨fun x a ha hstate => ⟨reachable_outputsNumbered hall _ (reachable_history hall).current x, hreplayable x a ha hstate,
    reachable_storedBefore hall x a ha hstate⟩, ?_, ?_⟩
  · intro conv branchId turnSeq budget reason heval
    exact (hplan conv branchId turnSeq budget).of_error heval
  · rintro t d reason hd ⟨l, hl, hp⟩
    have hloads := reachable_planCurrent hall t d hd
    have hcurrent : PlanCurrent d.owner d.attemptId s.db (.ok (some l)) := by
      rcases hp with hp | hp
      · exact hloads.loading _ hp
      · exact hloads.loaded l hp
    obtain ⟨-, heval⟩ := hcurrent l rfl
    exact (hplan ..).of_error (heval _ hl)

/-! ## An empty stream -/

/-- A check that implies the condition of `deliveringSystem`. -/
def ConvState.delivers (s : ConvState) : ConvLabel → Bool
  | .move token d' =>
    match s.drives token with
    | some d =>
      match d.point, d'.point with
      | .draining _ [], .evidence _ => d.received != 0
      | _, _ => true
    | none => true
  | _ => true

lemma not_emptyStreamEnd {label : ConvLabel} (h : s.delivers label = true) :
    ¬EmptyStreamEnd s label := by
  rintro ⟨token, d, d', status, rfl, hd, hp, hp', hzero, -⟩
  simp [ConvState.delivers, hd, hp, hp', hzero] at h

/-- The theorem at a run that completes an attempt. -/
theorem completed_replayable_sample :
    ∃ s a, (deliveringSystem sampleConvEnv).Reachable s ∧
      s.db.attempts.lookup (sampleUuid 200) = some a ∧ a.state = .completed ∧
      ReplayableOutput (s.db.outputs (sampleUuid 200)) ∧ s.StoredBefore (sampleUuid 200) := by
  obtain ⟨s, hs, htest⟩ := @samplePlay_reachable _ (fun s label => ¬EmptyStreamEnd s label)
    (fun s label _ h => not_emptyStreamEnd h) sampleFirstTurn
    (fun s => (s.db.attempts.lookup (sampleUuid 200)).any (·.state = .completed))
    (by decide +kernel)
  obtain ⟨a, ha, hstate⟩ := Option.any_eq_true _ _ |>.mp htest
  have hstate : a.state = .completed := by simpa using hstate
  obtain ⟨-, houtput, hbefore⟩ := (completed_replayable hs).1 _ a ha hstate
  exact ⟨s, a, hs, ha, hstate, houtput, hbefore⟩

/-- A send whose answer is an empty stream, and a second send on the branch. -/
def emptySchedule : List Action :=
  samplePosted ++ sampleRespond (sampleUuid 500) 1 ++ sampleEmptyEnd (sampleUuid 500) 1 ++
    sampleSendTurn 1

/-- **An empty stream.** A completed attempt without output, which blocks the second turn. -/
theorem completed_without_output :
    ∃ s a, (conversationSystem sampleConvEnv).Reachable s ∧
      s.db.attempts.lookup (sampleUuid 200) = some a ∧ a.state = .completed ∧
      s.db.outputs (sampleUuid 200) = [] ∧
      (loadDurableContextPlan sampleConv sampleBranch 2 defaultContextBudget).eval s.db =
        .error "completed_output_missing" := by
  obtain ⟨s, hs, htest⟩ := @samplePlay_reachable' emptySchedule
    (fun s => (s.db.attempts.lookup (sampleUuid 200)).any (·.state = .completed) &&
      (decide (s.db.outputs (sampleUuid 200) = []) &&
        match (loadDurableContextPlan sampleConv sampleBranch 2 defaultContextBudget).eval s.db with
        | .error reason => reason == "completed_output_missing"
        | .ok _ => false))
    (by decide +kernel)
  simp only [Bool.and_eq_true, decide_eq_true_eq] at htest
  obtain ⟨hany, hnone, hplan⟩ := htest
  obtain ⟨a, ha, hstate⟩ := Option.any_eq_true _ _ |>.mp hany
  refine ⟨s, a, hs, ha, by simpa using hstate, hnone, ?_⟩
  split at hplan
  · next reason heval => rw [heval, eq_of_beq hplan]
  · cases hplan

end GovAI
