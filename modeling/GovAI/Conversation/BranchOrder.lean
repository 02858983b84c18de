import GovAI.Conversation.Posts

/-!
# The order of a branch

The turns of a branch are numbered without gaps, one of them at most is in flight, and they cross
their dispatch boundaries in order.  Each of these is a property of several rows; it follows from
two facts about single steps: a turn that is settled stays settled, and an attempt is claimed only
when the turns below it are settled.
-/

namespace GovAI

variable {env : ConvEnv} {s s' : ConvState} {label : ConvLabel} {db : ConvDb}

/-- The turn `y` is number `k` of a branch. -/
def ConvDb.TurnAt (db : ConvDb) (conv : Lineage) (branchId : Uuid) (k : ℕ) (y : Uuid) : Prop :=
  ∃ t, db.turns.lookup y = some t ∧ t.conv = conv ∧ t.branchId = branchId ∧ t.turnSeq = k

/-- The turns of a branch are numbered from 1 to `n`, each number once. -/
structure ConvDb.Numbered (db : ConvDb) (conv : Lineage) (branchId : Uuid) (n : ℕ) : Prop where
  exists_unique : ∀ k, 1 ≤ k → k ≤ n → ∃! y, db.TurnAt conv branchId k y
  bounds : ∀ k y, db.TurnAt conv branchId k y → 1 ≤ k ∧ k ≤ n

/-- The attempt is in flight. -/
def AttemptRow.InFlight (a : AttemptRow) : Prop := a.state = .dispatching ∨ a.state = .streaming

/-- The largest element of a list bounds its elements. -/
lemma le_foldr_max {l : List ℕ} {n : ℕ} (h : n ∈ l) : n ≤ l.foldr max 0 := by
  induction l with
  | nil => cases h
  | cons m l ih =>
    rcases List.mem_cons.mp h with rfl | h
    · exact le_max_left ..
    · exact (ih h).trans (le_max_right ..)

/-- Well-shaped tables number the turns of every branch. -/
lemma ConvDb.Shape.numbered (h : db.Shape) (conv : Lineage) (branchId : Uuid) :
    db.Numbered conv branchId (nextTurnSeq conv branchId db - 1) := by
  constructor
  · intro k hk hkn
    have hlt : k < nextTurnSeq conv branchId db := by
      have : 1 ≤ nextTurnSeq conv branchId db := Nat.le_add_left ..
      omega
    obtain ⟨y, t, hy, hconv, hbranch, hseq⟩ := exists_turn_of_lt_nextTurnSeq h hk hlt
    refine ⟨y, ⟨t, hy, hconv, hbranch, hseq⟩, ?_⟩
    rintro y' ⟨t', hy', hconv', hbranch', hseq'⟩
    exact h.turnSeqUnique y' y t' t hy' hy (hconv'.trans hconv.symm) (hbranch'.trans hbranch.symm)
      (hseq'.trans hseq.symm)
  · rintro k y ⟨t, ht, hconv, hbranch, rfl⟩
    refine ⟨h.turnSeqPos y t ht, ?_⟩
    refine le_foldr_max (List.mem_map.mpr ⟨⟨y, t⟩, List.mem_filter.mpr ⟨?_, ?_⟩, rfl⟩)
    · exact AList.mem_lookup_iff.mp ht
    · simp [hconv, hbranch]

/-- Below a claimed attempt there is no turn in flight. -/
lemma ConvDb.ClaimsSettled.terminal_below (h : db.ClaimsSettled) (hshape : db.Shape)
    {x x' y y' : Uuid} {a a' : AttemptRow} {t t' : TurnRow} (ht : db.turns.lookup y = some t)
    (ht' : db.turns.lookup y' = some t') (hx : t.currentAttemptId = some x)
    (hx' : t'.currentAttemptId = some x') (ha : db.attempts.lookup x = some a)
    (ha' : db.attempts.lookup x' = some a') (hconv : t'.conv = t.conv)
    (hbranch : t'.branchId = t.branchId) (hlt : t'.turnSeq < t.turnSeq)
    (hclaimed : a.claimToken ≠ none) : a'.state.nonTerminal = false := by
  obtain ⟨z, b, hz, hb, hturn, -⟩ := hshape.turnAttempt y t ht
  obtain rfl : x = z := Option.some.inj (hx.symm.trans hz)
  obtain rfl : a = b := Option.some.inj (ha.symm.trans hb)
  exact h x a t ha hclaimed (hturn ▸ ht) y' t' ht' hconv hbranch hlt x' hx' a' ha'

/-- **Single flight.** At most one turn of a branch has a current attempt in flight. -/
theorem single_flight (hist : s.History env) {x x' y y' : Uuid} {a a' : AttemptRow} {t t' : TurnRow}
    (ht : s.db.turns.lookup y = some t) (ht' : s.db.turns.lookup y' = some t')
    (hx : t.currentAttemptId = some x) (hx' : t'.currentAttemptId = some x')
    (ha : s.db.attempts.lookup x = some a) (ha' : s.db.attempts.lookup x' = some a')
    (hconv : t.conv = t'.conv) (hbranch : t.branchId = t'.branchId) (hflight : a.InFlight)
    (hflight' : a'.InFlight) : y = y' := by
  have hshape := hist.shape s.db hist.current
  have hsettled := hist.settled s.db hist.current
  have hnot : ∀ {b : AttemptRow}, b.InFlight → b.state.nonTerminal = true ∧ b.state ≠ .accepted := by
    rintro b (hs | hs) <;> rw [hs] <;> exact ⟨rfl, nofun⟩
  rcases lt_trichotomy t.turnSeq t'.turnSeq with hlt | heq | hgt
  · have hterminal := hsettled.terminal_below hshape ht' ht hx' hx ha' ha hconv hbranch hlt
      (hshape.claimed x' a' ha' (.inl (hnot hflight').2))
    exact absurd ((hnot hflight).1.symm.trans hterminal) nofun
  · exact hshape.turnSeqUnique y y' t t' ht ht' hconv hbranch heq
  · have hterminal := hsettled.terminal_below hshape ht ht' hx hx' ha ha' hconv.symm hbranch.symm hgt
      (hshape.claimed x a ha (.inl (hnot hflight).2))
    exact absurd ((hnot hflight').1.symm.trans hterminal) nofun

/-- Only a boundary commit takes an accepted attempt to `dispatching`. -/
lemma AttemptWrite.boundary_of_dispatching {deps : ExecutorDeps} {st : Statement} {op : Op}
    {x : Uuid} {a a' : AttemptRow} {drives : Uuid → Option Drive}
    (h : AttemptWrite deps st op x a a') (hlegal : op.Legal drives) (hstate : a.state = .accepted)
    (hstate' : a'.state = .dispatching) : ∃ b, op = .boundary b ∧ x = b.attemptId := by
  cases h with
  | boundary => exact ⟨_, rfl, rfl⟩
  | claim | rotate | heartbeat => exact absurd (hstate.symm.trans hstate') nofun
  | reclaim | restore | ratchet | markStreaming => cases hstate'
  | provenance hs => exact absurd (hs.symm.trans hstate) nofun
  | finalize =>
    obtain ⟨d, -, -, hfinalizes⟩ := hlegal
    have hterminal := hfinalizes.terminal
    dsimp only at hstate'
    rw [hstate'] at hterminal
    cases hterminal

/-- The step that commits the boundary of an attempt runs a boundary transaction in flight. -/
theorem ConvStep.boundary_commit (step : ConvStep env s label s') (hist : s.History env)
    (hworkers : s.Workers) {x : Uuid} {a a' : AttemptRow} (ha : s.db.attempts.lookup x = some a)
    (hstate : a.state = .accepted) (ha' : s'.db.attempts.lookup x = some a')
    (hstate' : a'.state = .dispatching) : ∃ owner b st, s.InFlight owner (.boundary b) ∧
      s.Runs owner st ∧ b.attemptId = x ∧ AttemptWrite env.deps st (.boundary b) x a a' := by
  have hne : a'.state ≠ a.state := by
    rw [hstate, hstate']
    exact nofun
  rcases step.commit_cases with ⟨hdb, -⟩ | ⟨hcommit, -⟩
  · rw [hdb, ha] at ha'
    exact absurd (congrArg AttemptRow.state (Option.some.inj ha').symm) hne
  · rcases hcommit.exec_or_quiet hist with ⟨owner, op, st, reply, hflight, hst, hout⟩ | hquiet
    · generalize s'.db = db' at ha' hout
      cases hout with
      | idle =>
        rw [ha] at ha'
        exact absurd (congrArg AttemptRow.state (Option.some.inj ha').symm) hne
      | item _ _ hdb =>
        rw [hdb] at ha'
        exact absurd (congrArg AttemptRow.state (Option.some.inj (ha.symm.trans ha')).symm) hne
      | @write _ _ z _ b b' _ hwrite _ hrow _ hdb =>
        rw [lookup_of_write hdb] at ha'
        split at ha'
        · next hz =>
          subst hz
          cases ha'
          obtain rfl : a = b := Option.some.inj (ha.symm.trans hrow)
          obtain ⟨args, rfl, hx⟩ :=
            hwrite.boundary_of_dispatching (hworkers.legal owner op hflight) hstate hstate'
          exact ⟨owner, args, st, hflight, hst, hx.symm, hwrite⟩
        · rw [ha] at ha'
          exact absurd (congrArg AttemptRow.state (Option.some.inj ha').symm) hne
    · rcases hquiet x a' ha' with hnone | ⟨b, hb, -, hsame, -⟩
      · have hshape := (hcommit.steps hist).shape (hist.shape s.db hist.current)
        exact absurd hnone (hshape.claimed x a' ha' (.inl (by rw [hstate']; exact nofun)))
      · obtain rfl : a = b := Option.some.inj (ha.symm.trans hb)
        exact absurd hsame hne

/-- **Branch order and single flight.** In every reachable state the turns of a branch are numbered
from 1 without gaps, and at most one of them has a current attempt in flight.  When a step commits
the dispatch boundary of a turn, the current attempts of all lower turns are terminal and remain the
same in every continuation, and no higher turn has ever crossed its boundary. -/
theorem branch_order (hs : (conversationSystem env).Reachable s) :
    (∀ conv branchId, ∃ n, s.db.Numbered conv branchId n) ∧
    (∀ y y' t t' x x' a a', s.db.turns.lookup y = some t → s.db.turns.lookup y' = some t' →
      t.currentAttemptId = some x → t'.currentAttemptId = some x' →
      s.db.attempts.lookup x = some a → s.db.attempts.lookup x' = some a' → t.conv = t'.conv →
      t.branchId = t'.branchId → a.InFlight → a'.InFlight → y = y') ∧
    (∀ label s' y t x a a', (conversationSystem env).step s label s' →
      s.db.turns.lookup y = some t → t.currentAttemptId = some x →
      s.db.attempts.lookup x = some a → a.state = .accepted →
      s'.db.attempts.lookup x = some a' → a'.state = .dispatching →
      ∀ y' t' x' b, s.db.turns.lookup y' = some t' → t'.conv = t.conv → t'.branchId = t.branchId →
        t'.currentAttemptId = some x' → s.db.attempts.lookup x' = some b →
        (t'.turnSeq < t.turnSeq → b.state.nonTerminal = false ∧
          ∀ labels s'', (conversationSystem env).Run s' labels s'' →
            s''.db.attempts.lookup x' = some b) ∧
        (t.turnSeq < t'.turnSeq → ¬b.Crossed)) := by
  have hist := reachable_history hs
  have hshape := hist.shape s.db hist.current
  refine ⟨fun conv branchId => ⟨_, hshape.numbered conv branchId⟩,
    fun y y' t t' x x' a a' ht ht' hx hx' ha ha' hconv hbranch =>
      single_flight hist ht ht' hx hx' ha ha' hconv hbranch, ?_⟩
  intro label s' y t x a a' step ht hx ha hstate ha' hstate' y' t' x' b ht' hconv hbranch hx' hb
  have hs' := hs.step step
  have hg := ConvStep.grows hist step
  constructor
  · intro hlt
    obtain ⟨_, args, st, -, -, -, hwrite⟩ :=
      ConvStep.boundary_commit step hist (reachable_workers hs) ha hstate ha' hstate'
    have hclaimed : a.claimToken ≠ none := by
      cases hwrite with
      | boundary _ htoken =>
        rw [htoken]
        exact nofun
    have hsame := (hist.settled s.db hist.current).terminal_below hshape ht ht' hx hx' ha hb hconv
      hbranch hlt hclaimed
    refine ⟨hsame, fun labels s'' hrun => ?_⟩
    exact (Run.conversation_grows hs' hrun).terminal (hg.terminal hb hsame) hsame
  · intro hgt hcrossed
    have hclaimed := hshape.claimed x' b hb (.inr hcrossed)
    have hterminal := (hist.settled s.db hist.current).terminal_below hshape ht' ht hx' hx hb ha
      hconv.symm hbranch.symm hgt hclaimed
    rw [hstate] at hterminal
    cases hterminal

/-- The theorem at the boundary commit of the second turn of the sample. -/
theorem branch_order_sample :
    ∃ (s s' : ConvState) (b : AttemptRow), (conversationSystem sampleConvEnv).Reachable s ∧
      s.db.attempts.lookup (sampleUuid 200) = some b ∧ b.state.nonTerminal = false ∧
      ∀ labels s'', (conversationSystem sampleConvEnv).Run s' labels s'' →
        s''.db.attempts.lookup (sampleUuid 200) = some b := by
  obtain ⟨s, hs, htest⟩ := @samplePlay_reachable' sampleSecondTurn
    (fun s => s.db.attemptIs (sampleUuid 201) .accepted &&
      ((s.act sampleConvEnv (.serve (sampleUuid 501) 1)).any fun r : ConvLabel × ConvState =>
        r.2.db.attemptIs (sampleUuid 201) .dispatching) &&
      s.db.attemptIs (sampleUuid 200) .completed &&
      ((s.db.turns.lookup (sampleUuid 100)).any fun t : TurnRow =>
        decide (t.conv = sampleConv ∧ t.branchId = sampleBranch ∧
          t.currentAttemptId = some (sampleUuid 200) ∧ t.turnSeq = 1)) &&
      ((s.db.turns.lookup (sampleUuid 101)).any fun t : TurnRow =>
        decide (t.conv = sampleConv ∧ t.branchId = sampleBranch ∧
          t.currentAttemptId = some (sampleUuid 201) ∧ t.turnSeq = 2)))
    (by decide +kernel)
  simp only [Bool.and_eq_true, Option.any_eq_true, decide_eq_true_eq] at htest
  obtain ⟨⟨⟨⟨haccepted, ⟨label, s'⟩, hact, hdispatching⟩, hcompleted⟩, t, ht, hconv, hbranch, hx,
    hseq⟩, t', ht', hconv', hbranch', hx', hseq'⟩ := htest
  obtain ⟨a, ha, hstate⟩ := ConvDb.exists_of_attemptIs haccepted
  obtain ⟨a', ha', hstate'⟩ := ConvDb.exists_of_attemptIs hdispatching
  obtain ⟨b, hb, -⟩ := ConvDb.exists_of_attemptIs hcompleted
  have hstep := ConvState.act_sound (reachable_history hs).current hact
  obtain ⟨hnon, hstays⟩ := ((branch_order hs).2.2 label s' _ t' _ a a' hstep ht' hx' ha hstate ha'
    hstate' _ t _ b ht (hconv.trans hconv'.symm) (hbranch.trans hbranch'.symm) hx hb).1
    (by rw [hseq, hseq']; decide)
  exact ⟨s, s', b, hs, hb, hnon, hstays⟩

end GovAI
