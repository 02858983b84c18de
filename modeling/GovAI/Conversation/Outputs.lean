import GovAI.Conversation.BranchOrder

/-!
# The output items of an attempt

The items of an attempt are numbered from 1 in the order of their commits, and once an attempt is
`completed` no transaction that stores output for it is in flight any more: only the drive that has
stored all its output sends the transition to `completed`, and a drive that has lost an append sends
no such transition.
-/

namespace GovAI

variable {env : ConvEnv} {s s' : ConvState} {label : ConvLabel} {db db' : ConvDb}

/-- The output items of an attempt, oldest first. -/
def ConvDb.outputs (db : ConvDb) (x : Uuid) : List ItemRow :=
  db.items.filter fun i => i.attemptId = some x

/-! ## Which commits append items -/

/-- What a commit appends to the items: the input items of a new turn, or one output item. -/
lemma Committed.items (h : Committed env s db') (hist : s.History env) :
    (∃ new, db'.items = s.db.items ++ new ∧
      ∀ i ∈ new, i.attemptId = none ∧ i.turnId ∉ s.db.turns) ∨
    ∃ owner p i, s.InFlight owner (.commitItem p i) ∧ (¬∃ j ∈ s.db.items, j.SameSlot i) ∧
      db' = { s.db with
        contents := s.db.contents.insert p.contentId p.content, items := s.db.items ++ [i] } := by
  have hsame : ∀ {db' : ConvDb}, db'.items = s.db.items → ∃ new, db'.items = s.db.items ++ new ∧
      ∀ i ∈ new, i.attemptId = none ∧ i.turnId ∉ s.db.turns :=
    fun h => ⟨[], by rw [h, List.append_nil], nofun⟩
  cases h with
  | exec hflight hst hexec =>
    cases Op.exec_done hexec with
    | idle => exact .inl (hsame rfl)
    | write _ _ _ _ hdb =>
      rcases hdb with rfl | ⟨conv, branchId, rfl⟩
      · exact .inl (hsame rfl)
      · exact .inl (hsame (bumpBranchCausalVersion_items ..))
    | item _ hslot hdb => exact .inr ⟨_, _, _, hflight, hslot, hdb⟩
  | send hc hp hr =>
    have m := hist.send_minted hc hp hr
    obtain ⟨new, hitems, hnew⟩ := m.items
    refine .inl ⟨new, hitems, fun i hi => ?_⟩
    obtain ⟨-, -, hturn, hattempt⟩ := hnew i hi
    exact ⟨hattempt, hturn ▸ m.turnNew⟩
  | fork hc hp hr =>
    rcases (hist.fork_committed hc hp hr).child with ⟨-, rfl⟩ | ⟨child, -, m⟩
    · exact .inl (hsame rfl)
    · obtain ⟨new, hitems, hnew⟩ := m.items
      refine .inl ⟨new, hitems, fun i hi => ?_⟩
      obtain ⟨-, -, hturn, hattempt⟩ := hnew i hi
      exact ⟨hattempt, hturn ▸ m.turnNew⟩
  | external h =>
    left
    cases h with
    | create h =>
      simp only [createConversation, except_bind_eq_ok_iff, rejectIf_eq_ok_iff, exists_and_left,
        exists_const] at h
      obtain ⟨-, -, rfl⟩ := insertBranch_eq_ok h.2.2.2
      exact hsame rfl
    | _ => exact hsame rfl

/-! ## Numbering -/

/-- The items of an attempt are numbered from 1. -/
def ConvDb.OutputsNumbered (db : ConvDb) (x : Uuid) : Prop :=
  (db.outputs x).map (·.itemSeq) = List.range' 1 (db.outputs x).length

/-- An output item repeats the identity of its attempt. -/
lemma ConvDb.Shape.item_identity (h : db.Shape) {i : ItemRow} (hi : i ∈ db.items) {x : Uuid}
    (hx : i.attemptId = some x) {a : AttemptRow} (ha : db.attempts.lookup x = some a) :
    i.conv = a.conv ∧ i.branchId = a.branchId ∧ i.turnId = a.turnId := by
  obtain ⟨t, ht, hconv, hbranch, hcurrent⟩ := h.items i hi
  obtain ⟨y, b, hy, hb, hturn, hbconv, hbbranch⟩ := h.turnAttempt _ t ht
  obtain rfl : y = x := Option.some.inj (hy.symm.trans (hcurrent x hx))
  obtain rfl : a = b := Option.some.inj (ha.symm.trans hb)
  exact ⟨hconv.symm.trans hbconv.symm, hbranch.symm.trans hbbranch.symm, hturn.symm⟩

/-- The maximum of an initial segment. -/
lemma foldr_max_range' (k : ℕ) : (List.range' 1 k).foldr max 0 = k := by
  rcases foldr_max_mem (List.range' 1 k) with hmem | hzero
  · apply le_antisymm
    · have := List.mem_range'_1.mp hmem
      omega
    · cases k with
      | zero => exact Nat.zero_le _
      | succ k => exact le_foldr_max (List.mem_range'_1.mpr (by omega))
  · cases k with
    | zero => rfl
    | succ k =>
      have : 1 ≤ (List.range' 1 (k + 1)).foldr max 0 :=
        le_foldr_max (List.mem_range'_1.mpr (by omega))
      omega

/-- `nextAttemptItemSeq` counts the items, for a statement that sees them. -/
lemma nextAttemptItemSeq_eq {st : Statement} {x : Uuid} (hnumbered : db.OutputsNumbered x)
    (hsees : ∀ i ∈ db.items, i.attemptId = some x → st.owner.Sees i.conv) :
    nextAttemptItemSeq st x db = (db.outputs x).length + 1 := by
  have hfilter : (db.items.filter fun i => st.owner.Sees i.conv ∧ i.attemptId = some x) =
      db.outputs x := by
    refine List.filter_congr fun i hi => ?_
    by_cases hx : i.attemptId = some x
    · simp [hx, hsees i hi hx]
    · simp [hx]
  rw [nextAttemptItemSeq, hfilter, hnumbered, foldr_max_range']

/-- Where the number of an item in flight comes from. -/
structure ConvState.ItemsPast (s : ConvState) : Prop where
  append : ∀ owner p seq, s.InFlight owner (.append p seq) → ∃ st db₀, s.Past db₀ ∧
    st.owner = owner ∧ seq = nextAttemptItemSeq st p.attemptId db₀
  commitItem : ∀ owner p i, s.InFlight owner (.commitItem p i) → ∃ st₀ db₀ st₁ db₁, s.Past db₀ ∧
    s.Past db₁ ∧ st₀.owner = owner ∧ st₁.owner = owner ∧
    fencedOutputItem st₁ p.attemptId p.claimToken (nextAttemptItemSeq st₀ p.attemptId db₀) p.itemType
      p.contentId db₁ = some i

lemma ConvStep.itemsPast (step : ConvStep env s label s') (hist : s.History env)
    (h : s.ItemsPast) : s'.ItemsPast where
  append owner p seq hf := by
    rcases step.flight hf with hold | hinitial | ⟨op₀, st, -, hst, hexec⟩
    · obtain ⟨st, db₀, hpast, hrest⟩ := h.append owner p seq hold
      exact ⟨st, db₀, step.past hpast, hrest⟩
    · exact hinitial.elim
    · cases Op.exec_next hexec with
      | itemSeq => exact ⟨st, s.db, step.past hist.current, hst.owner, rfl⟩
  commitItem owner p i hf := by
    rcases step.flight hf with hold | hinitial | ⟨op₀, st, hflight, hst, hexec⟩
    · obtain ⟨st₀, db₀, st₁, db₁, hpast₀, hpast₁, hrest⟩ := h.commitItem owner p i hold
      exact ⟨st₀, db₀, st₁, db₁, step.past hpast₀, step.past hpast₁, hrest⟩
    · exact hinitial.elim
    · cases Op.exec_next hexec with
      | append hitem =>
        obtain ⟨st₀, db₀, hpast, howner, rfl⟩ := h.append owner p _ hflight
        exact ⟨st₀, db₀, st, s.db, step.past hpast, step.past hist.current, howner, hst.owner, hitem⟩

theorem reachable_itemsPast (hs : (conversationSystem env).Reachable s) : s.ItemsPast := by
  refine hs.invariant ?_ ?_
  · rintro _ ⟨orgs, credentials, rfl⟩
    constructor
    all_goals
      rintro owner p i (ho | ⟨t, d, hd, -⟩)
      · cases ho
      · cases hd
  · intro s label s' hs h step
    exact step.itemsPast (reachable_history hs) h

/-- The items of an attempt in a later state. -/
lemma ConvDb.Grows.outputs (h : db.Grows db') (x : Uuid) :
    ∃ new, db'.outputs x = db.outputs x ++ new := by
  obtain ⟨new, hnew⟩ := h.items
  exact ⟨_, by rw [ConvDb.outputs, hnew, List.filter_append]; rfl⟩

/-- The item in flight for an attempt gets the next number when it commits. -/
lemma commitItem_seq (hist : s.History env) (hitems : s.ItemsPast)
    (hnumbered : ∀ db, s.Past db → ∀ x, db.OutputsNumbered x) {owner : OwnerScope} {p : OutputArgs}
    {i : ItemRow} (hflight : s.InFlight owner (.commitItem p i))
    (hslot : ¬∃ j ∈ s.db.items, j.SameSlot i) :
    i.attemptId = some p.attemptId ∧ i.itemType = p.itemType ∧
      i.itemSeq = (s.db.outputs p.attemptId).length + 1 := by
  obtain ⟨st₀, db₀, st₁, db₁, hpast₀, hpast₁, howner₀, howner₁, hitem⟩ :=
    hitems.commitItem owner p i hflight
  simp only [fencedOutputItem, Option.map_eq_some_iff, Option.filter_eq_some_iff,
    decide_eq_true_eq] at hitem
  obtain ⟨a₁, ⟨ha₁, hsees, -⟩, rfl⟩ := hitem
  refine ⟨rfl, rfl, ?_⟩
  dsimp only
  have hshape := hist.shape s.db hist.current
  have hg₀ := hist.grows db₀ hpast₀
  obtain ⟨a, ha, hag⟩ := (hist.grows db₁ hpast₁).attempts _ a₁ ha₁
  have hidentity : ∀ j ∈ s.db.items, j.attemptId = some p.attemptId →
      j.conv = a₁.conv ∧ j.branchId = a₁.branchId ∧ j.turnId = a₁.turnId := by
    intro j hj hx
    obtain ⟨hconv, hbranch, hturn⟩ := hshape.item_identity hj hx ha
    exact ⟨hconv.trans hag.conv, hbranch.trans hag.branchId, hturn.trans hag.turnId⟩
  have hseq : nextAttemptItemSeq st₀ p.attemptId db₀ = (db₀.outputs p.attemptId).length + 1 := by
    refine nextAttemptItemSeq_eq (hnumbered db₀ hpast₀ _) fun j hj hx => ?_
    obtain ⟨new, hnew⟩ := hg₀.items
    obtain ⟨hconv, -⟩ := hidentity j (hnew ▸ List.mem_append_left _ hj) hx
    rw [howner₀, hconv, ← howner₁]
    exact hsees
  rw [hseq]
  obtain ⟨new, hnew⟩ := hg₀.outputs p.attemptId
  cases new with
  | nil => rw [hnew, List.append_nil]
  | cons j rest =>
    -- A later item would have taken the slot.
    exfalso
    have hlen : (db₀.outputs p.attemptId).length < (s.db.outputs p.attemptId).length := by
      rw [hnew, List.length_append, List.length_cons]
      omega
    have hmem : (db₀.outputs p.attemptId).length + 1 ∈
        (s.db.outputs p.attemptId).map (·.itemSeq) := by
      rw [hnumbered s.db hist.current, List.mem_range'_1]
      omega
    obtain ⟨k, hk, hkseq⟩ := List.mem_map.mp hmem
    simp only [ConvDb.outputs, List.mem_filter, decide_eq_true_eq] at hk
    obtain ⟨hconv, hbranch, hturn⟩ := hidentity k hk.1 hk.2
    exact hslot ⟨k, hk.1, hconv, hbranch, hturn, hk.2, hkseq.trans hseq.symm⟩

/-- **Numbering.** In every committed state the items of every attempt are numbered from 1 without
gaps. -/
theorem reachable_outputsNumbered (hs : (conversationSystem env).Reachable s) :
    ∀ db, s.Past db → ∀ x, db.OutputsNumbered x := by
  refine hs.invariant (I := fun s => ∀ db, s.Past db → ∀ x, db.OutputsNumbered x) ?_ ?_
  · rintro _ ⟨orgs, credentials, rfl⟩ db hdb x
    have := TraceEvent.commit.inj (List.mem_singleton.mp hdb)
    subst this
    rfl
  · intro s label s' hs h step db hdb x
    rcases step.past_cases hdb with hold | ⟨rfl, hcommit⟩
    · exact h db hold x
    · have hist := reachable_history hs
      have hcurrent := h s.db hist.current x
      rcases hcommit.items hist with ⟨new, hitems, hnew⟩ | ⟨owner, p, i, hflight, hslot, hdb'⟩
      · have hsame : s'.db.outputs x = s.db.outputs x := by
          have hnone : (new.filter fun i => i.attemptId = some x) = [] :=
            List.filter_eq_nil_iff.mpr fun i hi => by simp [(hnew i hi).1]
          rw [ConvDb.outputs, hitems, List.filter_append, hnone, List.append_nil]
          rfl
        rw [ConvDb.OutputsNumbered, hsame]
        exact hcurrent
      · obtain ⟨hattempt, -, hseq⟩ := commitItem_seq hist (reachable_itemsPast hs) h hflight hslot
        have happend : s'.db.outputs x = s.db.outputs x ++ [i].filter fun i => i.attemptId = some x := by
          rw [ConvDb.outputs, hdb']
          exact List.filter_append ..
        by_cases hx : p.attemptId = x
        · subst hx
          have hone : ([i].filter fun i => i.attemptId = some p.attemptId) = [i] := by
            simp [hattempt]
          rw [ConvDb.OutputsNumbered, happend, hone, List.map_append, hcurrent, List.length_append,
            List.length_singleton, List.range'_concat, List.map_singleton, hseq]
          congr 2
          omega
        · have hnone : ([i].filter fun i => i.attemptId = some x) = [] := by
            simp [hattempt, hx]
          rw [ConvDb.OutputsNumbered, happend, hnone, List.append_nil]
          exact hcurrent

/-! ## Transactions that store output -/

/-- The output that a transaction in flight stores. -/
def Op.output : Op → Option OutputArgs
  | .itemSeq p | .append p _ | .commitItem p _ => some p
  | _ => none

/-- The transition to `completed` under a token. -/
def Op.Completes (token : Uuid) : Op → Prop
  | .finalize _ _ t state _ => t = token ∧ state = .completed
  | _ => False

/-- A drive that waits for the storage of output has not ended. -/
lemma Drive.Coherent.output {token : Uuid} {d : Drive} (hc : d.Coherent token) {op : Op}
    (hcall : d.call = some op) {p : OutputArgs} (hp : op.output = some p) :
    p.claimToken = token ∧ p.attemptId = d.attemptId ∧ ¬d.Ended := by
  have hawaits := hc.awaits
  unfold Drive.Awaits at hawaits
  split at hawaits
  case h_1 =>
    obtain ⟨-, op', hop', harms⟩ := hawaits
    cases hcall.symm.trans hop'
    cases op <;> simp_all [Op.output, Op.Arms]
  case h_4 =>
    obtain ⟨-, b, -, -, hb | ⟨c, hb⟩⟩ := hawaits <;> cases hcall.symm.trans hb <;> cases hp
  case h_6 =>
    obtain ⟨-, c, q, hb | hb⟩ := hawaits <;> cases hcall.symm.trans hb <;> cases hp
  case h_9 => cases hcall.symm.trans hawaits.2; cases hp
  case h_14 hpoint | h_15 hpoint =>
    obtain ⟨-, op', hop', hstores⟩ := hawaits
    cases hcall.symm.trans hop'
    refine ⟨?_, ?_, by simp [Drive.Ended, hpoint]⟩
    all_goals cases op <;> simp_all [Op.output, Op.Stores]
  case h_16 =>
    obtain ⟨context, state, errorClass, hb⟩ := hawaits
    cases hcall.symm.trans hb
    cases hp
  case h_17 => cases hcall.symm.trans hawaits; cases hp
  case h_18 => cases hcall.symm.trans hawaits
  all_goals cases hcall.symm.trans hawaits.2

/-- A drive that waits for a terminal transition has ended. -/
lemma Drive.Coherent.finalize_call {token : Uuid} {d : Drive} (hc : d.Coherent token)
    {context : ExecutionContext} {x t : Uuid} {state : AttemptState}
    {errorClass : Option AttemptErrorClass}
    (hcall : d.call = some (.finalize context x t state errorClass)) :
    t = token ∧ x = d.attemptId ∧ d.Ended := by
  have hawaits := hc.awaits
  unfold Drive.Awaits at hawaits
  split at hawaits
  case h_1 =>
    obtain ⟨-, op', hop', harms⟩ := hawaits
    cases hcall.symm.trans hop'
    simp [Op.Arms] at harms
  case h_4 =>
    obtain ⟨-, b, -, -, hb | ⟨c, hb⟩⟩ := hawaits <;> cases hcall.symm.trans hb
  case h_6 =>
    obtain ⟨-, c, q, hb | hb⟩ := hawaits <;> cases hcall.symm.trans hb
  case h_14 | h_15 =>
    obtain ⟨-, op', hop', hstores⟩ := hawaits
    cases hcall.symm.trans hop'
    cases hstores
  case h_16 kind hpoint =>
    obtain ⟨context, state, errorClass, hb⟩ := hawaits
    cases hcall.symm.trans hb
    exact ⟨rfl, rfl, .inl ⟨kind, hpoint⟩⟩
  case h_17 | h_18 => cases hcall.symm.trans hawaits
  all_goals cases hcall.symm.trans hawaits.2

/-- A drive that moves has not ended. -/
lemma DriveMove.not_ended {deps : ExecutorDeps} {token : Uuid} {d d' : Drive}
    (h : DriveMove deps token db d d') : ¬d.Ended := by
  rintro (⟨kind, hp⟩ | hp | hp) <;> cases h <;> simp_all

/-- A drive that sends a terminal transition on an answer has not ended before. -/
lemma Drive.resume_not_ended {token : Uuid} {d : Drive} {reply : Bool} {op : Op}
    (hop : (d.resume token reply).call = some op) : ¬d.Ended := by
  unfold Drive.resume at hop
  split at hop
  case h_4 hp | h_6 hp | h_9 hp => simp [Drive.Ended, hp]
  all_goals cases hop

/-- No transition to `completed` follows an exception. -/
lemma Drive.raise_completes {token t : Uuid} {d : Drive} {op : Op}
    (hop : (d.raise token).call = some op) : ¬op.Completes t := by
  unfold Drive.raise at hop
  split at hop
  case h_8 => cases hop
  all_goals
    obtain ⟨context, -, rfl⟩ := Drive.finalize_call hop
    exact fun h => by cases h.2

/-- What is known of the output in flight that no drive waits for. -/
structure OrphanOutput (s : ConvState) (p : OutputArgs) : Prop where
  ended : DriveOf s.drives p.claimToken p.attemptId Drive.Ended
  alone : ∀ owner op, s.InFlight owner op → ¬op.Completes p.claimToken
  row : ∀ a, s.db.attempts.lookup p.attemptId = some a → a.state ≠ .completed

/-- What is known of the storage of output. -/
structure ConvState.Stores (s : ConvState) : Prop where
  orphan : ∀ owner op p, (owner, op) ∈ s.orphans → op.output = some p → OrphanOutput s p
  finalizing : ∀ owner context x t state errorClass,
    (owner, Op.finalize context x t state errorClass) ∈ s.orphans → DriveOf s.drives t x Drive.Ended
  completed : ∀ x a t, s.db.attempts.lookup x = some a → a.state = .completed →
    a.claimToken = some t → DriveOf s.drives t x Drive.Ended

/-- A terminal transition in flight belongs to a drive that has ended. -/
lemma ConvState.Stores.finalize_ended (h : s.Stores) (hworkers : s.Workers) {owner : OwnerScope}
    {context : ExecutionContext} {x t : Uuid} {state : AttemptState}
    {errorClass : Option AttemptErrorClass}
    (hflight : s.InFlight owner (.finalize context x t state errorClass)) :
    DriveOf s.drives t x Drive.Ended := by
  rcases hflight with ho | ⟨token, d, hd, -, hcall⟩
  · exact h.finalizing owner context x t state errorClass ho
  · obtain ⟨rfl, rfl, hended⟩ := (hworkers.coherent token d hd).finalize_call hcall
    exact ⟨d, hd, rfl, hended⟩

/-- A transition to `completed` in flight belongs to a drive that has ended. -/
lemma ConvState.Stores.completes_ended (h : s.Stores) (hworkers : s.Workers) {owner : OwnerScope}
    {op : Op} {t : Uuid} (hflight : s.InFlight owner op) (hop : op.Completes t) :
    ∃ d, s.drives t = some d ∧ d.Ended := by
  cases op with
  | finalize context x t' state errorClass =>
    obtain ⟨rfl, -⟩ := hop
    obtain ⟨d, hd, -, hended⟩ := h.finalize_ended hworkers hflight
    exact ⟨d, hd, hended⟩
  | _ => cases hop

/-- **Output in flight.** While a transaction that stores output of an attempt is in flight, the
attempt is not `completed`, and no transition to `completed` is in flight for it. -/
theorem ConvState.Stores.output_open (h : s.Stores) (hworkers : s.Workers) {owner : OwnerScope}
    {op : Op} {p : OutputArgs} (hflight : s.InFlight owner op) (hp : op.output = some p) :
    (∀ owner op, s.InFlight owner op → ¬op.Completes p.claimToken) ∧
    ∀ a, s.db.attempts.lookup p.attemptId = some a → a.state ≠ .completed := by
  rcases hflight with ho | ⟨token, d, hd, -, hcall⟩
  · have horphan := h.orphan owner op p ho hp
    exact ⟨horphan.alone, horphan.row⟩
  · have hc := hworkers.coherent token d hd
    obtain ⟨rfl, hx, hnot⟩ := hc.output hcall hp
    have hended : ∀ e, s.drives p.claimToken = some e → ¬e.Ended := fun e he =>
      Option.some.inj (hd.symm.trans he) ▸ hnot
    refine ⟨fun owner' op' hflight' hop' => ?_, fun a ha hstate => ?_⟩
    · obtain ⟨e, he, hee⟩ := h.completes_ended hworkers hflight' hop'
      exact hended e he hee
    · have hreached : d.Reached .streaming := by
        obtain ⟨e, he, -, hreached⟩ : DriveOf s.drives p.claimToken p.attemptId
            fun d => d.Reached .streaming := by
          have hlegal := hworkers.legal d.owner op (.inr ⟨_, d, hd, rfl, hcall⟩)
          cases op <;> cases hp <;> exact hlegal
        exact Option.some.inj (hd.symm.trans he) ▸ hreached
      obtain ⟨b, hb, htoken, -⟩ := hworkers.rowsOk.passed _ d hd (le_trans (by decide) hreached)
      obtain rfl : a = b := Option.some.inj (ha.symm.trans (hx ▸ hb))
      obtain ⟨e, he, -, hee⟩ := h.completed p.attemptId a _ ha hstate htoken
      exact hended e he hee

/-! ## What a step does to the operations in flight -/

lemma OpNext.output {st : Statement} {op op' : Op} (h : OpNext st db op op') :
    op'.output = op.output := by
  cases h <;> rfl

lemma OpNext.not_completes {st : Statement} {op op' : Op} (h : OpNext st db op op') (t : Uuid) :
    ¬op'.Completes t := by
  cases h <;> exact id

lemma OpNext.not_finalize {st : Statement} {op op' : Op} (h : OpNext st db op op')
    {context : ExecutionContext} {x t : Uuid} {state : AttemptState}
    {errorClass : Option AttemptErrorClass} : op' ≠ .finalize context x t state errorClass := by
  cases h <;> exact nofun

/-- A transition to `completed` that is new in flight comes from a drive that had not ended, and that
waits for it. -/
lemma ConvStep.completes (step : ConvStep env s label s') (h : s.Workers) {owner : OwnerScope}
    {op : Op} {t : Uuid} (hf : s'.InFlight owner op) (hop : op.Completes t) :
    s.InFlight owner op ∨ ∃ d d', s.drives t = some d ∧ ¬d.Ended ∧ s'.drives t = some d' ∧
      d'.call = some op := by
  have htoken : ∀ {token : Uuid} {d' : Drive}, d'.Coherent token → d'.call = some op → t = token := by
    intro token d' hc hcall
    cases op with
    | finalize =>
      obtain ⟨rfl, -⟩ := hop
      exact (hc.finalize_call hcall).1
    | _ => cases hop
  cases step with
  | arm hfresh harms =>
    rcases hf.of_update (s := s) rfl .inl with hold | ⟨-, hcall⟩
    · exact .inl hold
    · cases hcall
      cases op with
      | finalize => exact harms.elim
      | _ => exact hop.elim
  | move hd hmove =>
    rcases hf.of_update (s := s) rfl .inl with hold | ⟨-, hcall⟩
    · exact .inl hold
    · obtain rfl := htoken (hmove.progress (h.coherent _ _ hd)).2 hcall
      exact .inr ⟨_, _, hd, hmove.not_ended, Function.update_self .., hcall⟩
  | fetch =>
    rcases hf.of_update (s := s) rfl .inl with hold | ⟨-, hcall⟩
    · exact .inl hold
    · cases hcall
  | serveNext hd hcall hst hexec =>
    rcases hf.of_update (s := s) rfl .inl with hold | ⟨-, hcall'⟩
    · exact .inl hold
    · cases hcall'
      exact absurd hop ((Op.exec_next hexec).not_completes t)
  | serveDone hd =>
    rcases hf.of_update (s := s) rfl .inl with hold | ⟨-, hcall⟩
    · exact .inl hold
    · obtain rfl := htoken (Drive.resume_progress (h.coherent _ _ hd) _).2 hcall
      exact .inr ⟨_, _, hd, Drive.resume_not_ended hcall, Function.update_self .., hcall⟩
  | raise hd hcall =>
    rcases hf.of_update (s := s) rfl (.of_raise hd hcall) with hold | ⟨-, hcall'⟩
    · exact .inl hold
    · exact absurd hop (Drive.raise_completes hcall')
  | crash hd =>
    rcases hf.of_update (s := s) rfl (.of_crash hd) with hold | ⟨-, hcall'⟩
    · exact .inl hold
    · cases hcall'
  | spawn hspawns =>
    rcases hf with ho | hd
    · rcases List.mem_cons.mp ho with heq | ho
      · cases heq
        cases op with
        | finalize => exact hspawns.elim
        | _ => exact hop.elim
      · exact .inl (.inl ho)
    · exact .inl (.inr hd)
  | orphanNext ho hst hexec =>
    rcases hf with ho' | hd
    · rcases mem_orphans_of_replaced ho ho' with heq | hmem
      · cases heq
        exact absurd hop ((Op.exec_next hexec).not_completes t)
      · exact .inl (.inl hmem)
    · exact .inl (.inr hd)
  | orphanDone ho | orphanLost ho =>
    rcases hf with ho' | hd
    · exact .inl (.inl (mem_orphans_of_removed ho ho'))
    · exact .inl (.inr hd)
  | _ => exact .inl hf

/-- Where an operation that nobody waits for comes from. -/
inductive OrphanOrigin (s s' : ConvState) (owner : OwnerScope) (op : Op) : Prop
  | old (h : (owner, op) ∈ s.orphans)
  /-- Its drive has ended in this step, and asks for no transition to `completed`. -/
  | left {token : Uuid} {d d' : Drive} (hd : s.drives token = some d) (howner : d.owner = owner)
      (hcall : d.call = some op) (hd' : s'.drives token = some d') (hx : d'.attemptId = d.attemptId)
      (hended : d'.Ended) (hnot : ∀ op t, d'.call = some op → ¬op.Completes t)
  | spawned (h : s.Spawns owner op)
  | next {op₀ : Op} {st : Statement} (h : (owner, op₀) ∈ s.orphans) (hnext : OpNext st s.db op₀ op)

lemma ConvStep.orphan_origin (step : ConvStep env s label s') (h : s.Workers) {owner : OwnerScope}
    {op : Op} (ho : (owner, op) ∈ s'.orphans) : OrphanOrigin s s' owner op := by
  cases step with
  | @raise token d op' hd hcall =>
    rcases List.mem_cons.mp ho with heq | ho
    · cases heq
      exact .left hd rfl hcall (Function.update_self ..)
        (Drive.raise_progress (h.coherent _ _ hd)).1.attemptId (d.raise_ended token)
        fun op t => Drive.raise_completes
    · exact .old ho
  | crash hd =>
    rcases List.mem_append.mp ho with ho | ho
    · obtain ⟨op', hop', heq⟩ := List.mem_map.mp ho
      cases heq
      exact .left hd rfl (Option.mem_toList.mp hop') (Function.update_self ..) rfl (.inr (.inr rfl))
        fun op t hcall => by cases hcall
    · exact .old ho
  | spawn hspawns =>
    rcases List.mem_cons.mp ho with heq | ho
    · cases heq
      exact .spawned hspawns
    · exact .old ho
  | orphanNext ho' hst hexec =>
    rcases mem_orphans_of_replaced ho' ho with heq | hmem
    · cases heq
      refine .next ?_ (Op.exec_next hexec)
      rw [ho']
      exact List.mem_append_right _ (List.mem_cons_self ..)
    · exact .old hmem
  | orphanDone ho' | orphanLost ho' => exact .old (mem_orphans_of_removed ho' ho)
  | _ => exact .old ho

/-- Only a terminal transition makes a row `completed`. -/
lemma AttemptWrite.completes {deps : ExecutorDeps} {st : Statement} {op : Op} {x : Uuid}
    {a a' : AttemptRow} (h : AttemptWrite deps st op x a a') (hstate : a'.state = .completed) :
    ∃ context t errorClass, op = .finalize context x t .completed errorClass ∧
      a.claimToken = some t ∧ a'.claimToken = some t := by
  have hnon := h.nonTerminal
  cases h with
  | finalize _ htoken =>
    dsimp only at hstate
    subst hstate
    exact ⟨_, _, _, rfl, htoken, htoken⟩
  | claim | rotate | heartbeat | provenance =>
    have hold : a.state = .completed := hstate
    rw [hold] at hnon
    cases hnon
  | _ => cases hstate

/-- A row that is `completed` after a step was so before, or a transition in flight has run. -/
lemma ConvStep.completed_row (step : ConvStep env s label s') (hist : s.History env) {x : Uuid}
    {a' : AttemptRow} (ha' : s'.db.attempts.lookup x = some a') (hstate : a'.state = .completed) :
    s.db.attempts.lookup x = some a' ∨ ∃ owner context t errorClass a,
      s.InFlight owner (.finalize context x t .completed errorClass) ∧
      s.db.attempts.lookup x = some a ∧ a.claimToken = some t ∧ a'.claimToken = some t ∧
      s'.db.items = s.db.items := by
  have hnon : a'.state.nonTerminal = false := by
    rw [hstate]
    rfl
  rcases step.commit_cases with ⟨hdb, -⟩ | ⟨hcommit, -⟩
  · exact .inl (hdb ▸ ha')
  · rcases hcommit.exec_or_quiet hist with ⟨owner, op, st, reply, hflight, hst, hout⟩ | hquiet
    · generalize s'.db = db' at ha' hout
      cases hout with
      | idle => exact .inl ha'
      | item _ _ hdb =>
        rw [hdb] at ha'
        exact .inl ha'
      | @write _ _ z _ a b _ hwrite _ hrow _ hdb =>
        rw [lookup_of_write hdb] at ha'
        split at ha'
        · next hz =>
          subst hz
          cases ha'
          obtain ⟨context, t, errorClass, rfl, htoken, htoken'⟩ := hwrite.completes hstate
          refine .inr ⟨owner, context, t, errorClass, a, hflight, hrow, htoken, htoken', ?_⟩
          rcases hdb with rfl | ⟨conv, branchId, rfl⟩
          · rfl
          · exact bumpBranchCausalVersion_items ..
        · exact .inl ha'
    · rcases hquiet x a' ha' with hnone | ⟨a, ha, -, hsame, -⟩
      · have hshape := (hcommit.steps hist).shape (hist.shape s.db hist.current)
        exact absurd hnone (hshape.claimed x a' ha' (.inl (by rw [hstate]; exact nofun)))
      · left
        rw [ha, ← (hcommit.steps hist).grows.terminal ha (hsame ▸ hnon), ha']

/-- Output in flight stays alone after a step. -/
lemma ConvStep.orphanOutput (step : ConvStep env s label s') (hist : s.History env)
    (hworkers : s.Workers) {owner : OwnerScope} {op : Op} {p : OutputArgs}
    (hflight : s.InFlight owner op) (hp : op.output = some p)
    (hended : DriveOf s'.drives p.claimToken p.attemptId Drive.Ended)
    (halone : ∀ owner op, s.InFlight owner op → ¬op.Completes p.claimToken)
    (hfresh : ∀ owner op, s'.InFlight owner op → op.Completes p.claimToken → s.InFlight owner op)
    (hrow : ∀ a, s.db.attempts.lookup p.attemptId = some a → a.state ≠ .completed) :
    OrphanOutput s' p where
  ended := hended
  alone owner' op' hf hop := halone owner' op' (hfresh owner' op' hf hop) hop
  row a' ha' hstate := by
    rcases step.completed_row hist ha' hstate with hold | ⟨owner', context, t, errorClass, a,
      hfinalize, ha, htoken, -⟩
    · exact hrow a' hold hstate
    · obtain ⟨d, hd, hx, hreached⟩ : DriveOf s.drives p.claimToken p.attemptId
          fun d => d.Reached .streaming := by
        have hlegal := hworkers.legal owner op hflight
        cases op <;> cases hp <;> exact hlegal
      obtain ⟨b, hb, htoken', -⟩ := hworkers.rowsOk.passed _ d hd (le_trans (by decide) hreached)
      obtain rfl : a = b := Option.some.inj (ha.symm.trans (hx ▸ hb))
      obtain rfl : t = p.claimToken := Option.some.inj (htoken.symm.trans htoken')
      exact halone owner' _ hfinalize ⟨rfl, rfl⟩

/-- The storage of output after a step. -/
theorem ConvStep.stores (step : ConvStep env s label s') (hist : s.History env)
    (hworkers : s.Workers) (h : s.Stores) : s'.Stores := by
  have hle := step.drivesLe hworkers
  have hmono : ∀ {t x : Uuid}, DriveOf s.drives t x Drive.Ended → DriveOf s'.drives t x Drive.Ended :=
    fun hd => hd.mono hle fun _ _ hee' hended => (hee'.ended hended).1
  -- Output that was left before the step.
  have hold : ∀ {owner op p}, (owner, op) ∈ s.orphans → op.output = some p → OrphanOutput s' p := by
    intro owner op p ho hp
    have horphan := h.orphan owner op p ho hp
    refine step.orphanOutput hist hworkers (.inl ho) hp (hmono horphan.ended) horphan.alone ?_
      horphan.row
    intro owner' op' hf hop
    rcases step.completes hworkers hf hop with hin | ⟨d, -, hd, hnot, -⟩
    · exact hin
    · obtain ⟨e, he, -, hended⟩ := horphan.ended
      exact absurd hended (Option.some.inj (hd.symm.trans he) ▸ hnot)
  refine ⟨fun owner op p ho hp => ?_, fun owner context x t state errorClass ho => ?_,
    fun x a t ha hstate htoken => ?_⟩
  · cases step.orphan_origin hworkers ho with
    | old ho => exact hold ho hp
    | @left token d d' hd howner hcall hd' hx hended hnone =>
      have hflight : s.InFlight owner op := .inr ⟨token, d, hd, howner, hcall⟩
      obtain ⟨htoken, hattempt, -⟩ := (hworkers.coherent token d hd).output hcall hp
      obtain ⟨halone, hrow⟩ := h.output_open hworkers hflight hp
      refine step.orphanOutput hist hworkers hflight hp ⟨d', htoken ▸ hd', hx.trans hattempt.symm,
        hended⟩ halone ?_ hrow
      intro owner' op' hf hop
      rcases step.completes hworkers hf hop with hin | ⟨-, e, -, -, he, hcall'⟩
      · exact hin
      · rw [htoken] at he hop
        obtain rfl := Option.some.inj (hd'.symm.trans he)
        exact absurd hop (hnone op' token hcall')
    | spawned hspawns =>
      cases op with
      | itemSeq | append | commitItem => exact hspawns.elim
      | _ => cases hp
    | next ho hnext => exact hold ho (hnext.output.symm.trans hp)
  · cases step.orphan_origin hworkers ho with
    | old ho => exact hmono (h.finalizing owner context x t state errorClass ho)
    | left hd howner hcall =>
      exact hmono (h.finalize_ended hworkers (.inr ⟨_, _, hd, howner, hcall⟩))
    | spawned hspawns => cases hspawns
    | next ho hnext => exact absurd rfl hnext.not_finalize
  · rcases step.completed_row hist ha hstate with hrow | ⟨owner, context, t', errorClass, b,
      hfinalize, -, -, htoken', -⟩
    · exact hmono (h.completed x a t hrow hstate htoken)
    · obtain rfl : t = t' := Option.some.inj (htoken.symm.trans htoken')
      exact hmono (h.finalize_ended hworkers hfinalize)

theorem reachable_stores (hs : (conversationSystem env).Reachable s) : s.Stores := by
  refine hs.invariant ?_ ?_
  · rintro _ ⟨orgs, credentials, rfl⟩
    constructor
    · intro owner op p ho
      cases ho
    · intro owner context x t state errorClass ho
      cases ho
    · intro x a t ha
      cases ha
  · intro s label s' hs h step
    exact step.stores (reachable_history hs) (reachable_workers hs) h

end GovAI
