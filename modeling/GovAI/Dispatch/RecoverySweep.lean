import GovAI.Dispatch.Transitions
import GovAI.Library.KeysetPaging
import Mathlib.Data.Prod.Lex

/-!
# The recovery sweep

`runDispatchRecoverySweepOnce` of `run-dispatch-recovery.ts` with `run_dispatch_recovery_candidates`
of `0029_durable_provider_dispatch.sql`.  A sweep reads the stale runs page by page, calls the
recovery of each, and hands a cursor to the next sweep if it stops at its cap of pages.  While it
reads, runs become stale, are recovered or are not.  A chain of sweeps meets every run that stays
stale once, in the order of creation, and comes to an end (`recovery_sweep_coverage`).
-/

namespace GovAI

/-! ## The candidates -/

/-- `RunDispatchConfig`, as far as recovery reads it; `runDispatchConfigFromEnv` throws outside these
bounds. -/
structure RunDispatchConfig where
  preparedGraceMs : ℤ
  recoveryGraceMs : ℤ
  recoveryBatchSize : ℕ
  prepared_bounds : 1000 ≤ preparedGraceMs ∧ preparedGraceMs ≤ 3600000
  recovery_bounds : 0 ≤ recoveryGraceMs ∧ recoveryGraceMs ≤ 3600000
  batch_bounds : 1 ≤ recoveryBatchSize ∧ recoveryBatchSize ≤ 500

/-- `SweepCursor`; the text of `created_at` keeps its microseconds. -/
structure SweepCursor where
  createdAt : ℤ
  runId : Uuid
deriving DecidableEq

/-- `reason`. -/
inductive StaleReason where
  | queuedStale
  | runningStale
deriving DecidableEq

/-- `CandidateRow`. -/
structure CandidateRow where
  orgId : Uuid
  runId : Uuid
  reason : StaleReason
  createdAt : ℤ
deriving DecidableEq

/-- The order of creation: `(created_at, id)`. -/
def SweepCursor.key (c : SweepCursor) : ℤ ×ₗ ℕ := toLex (c.createdAt, c.runId.toNat)

/-- The place of a candidate in the order of creation. -/
def CandidateRow.key (c : CandidateRow) : ℤ ×ₗ ℕ := toLex (c.createdAt, c.runId.toNat)

/-- The cursor after a candidate. -/
def CandidateRow.cursor (c : CandidateRow) : SweepCursor := ⟨c.createdAt, c.runId⟩

@[simp] lemma CandidateRow.key_cursor (c : CandidateRow) : c.cursor.key = c.key := rfl

/-- The condition of the candidates query on a run. -/
def RunRow.Stale (r : RunRow) (config : RunDispatchConfig) (now : ℤ) : Prop :=
  r.dispatchProtocolVersion = some 1 ∧
    (r.status = .queued ∧ r.dispatchToken = none ∧
        (r.dispatchPreparedAt.any fun t => t < now - 1000 * config.preparedGraceMs) ∨
      r.status = .running ∧
        r.dispatchDeadlineAt.any fun d => d + 1000 * config.recoveryGraceMs < now)

instance (r : RunRow) (config : RunDispatchConfig) (now : ℤ) : Decidable (r.Stale config now) :=
  inferInstanceAs (Decidable (_ ∧ _))

/-- The row that the query returns for a run. -/
def RunRow.candidate (r : RunRow) (id : Uuid) : CandidateRow where
  orgId := r.orgId
  runId := id
  reason := if r.status = .queued then .queuedStale else .runningStale
  createdAt := r.createdAt

/-- What the sweeps find in the table `govai.runs`: `table q` and `now q` are the rows and the time
at query `q`.  Rows are created and updated between the queries; the identifier and the time of
creation of a run never change. -/
structure RunHistory where
  ids : List Uuid
  table : ℕ → Uuid → Option RunRow
  now : ℕ → ℤ
  createdAt : Uuid → ℤ
  ids_nodup : ids.Nodup
  mem_ids : ∀ q id, (table q id).isSome → id ∈ ids
  created : ∀ q id, ∀ r ∈ table q id, r.createdAt = createdAt id

/-- The stale runs at a query. -/
def RunHistory.stale (world : RunHistory) (config : RunDispatchConfig) (q : ℕ) :
    List CandidateRow :=
  world.ids.filterMap fun id =>
    ((world.table q id).filter fun r => r.Stale config (world.now q)).map (·.candidate id)

/-- `run_dispatch_recovery_candidates`: the bounds of the arguments, then a page of stale runs. -/
def runDispatchRecoveryCandidates (world : RunHistory) (config : RunDispatchConfig) (q : ℕ)
    (after : Option SweepCursor) : Except String (List CandidateRow) := do
  rejectIf (config.preparedGraceMs < 1000 ∨ 3600000 < config.preparedGraceMs)
    "run_dispatch_recovery_candidates: p_prepared_grace_ms out of bounds"
  rejectIf (config.recoveryGraceMs < 0 ∨ 3600000 < config.recoveryGraceMs)
    "run_dispatch_recovery_candidates: p_recovery_grace_ms out of bounds"
  rejectIf (config.recoveryBatchSize < 1 ∨ 500 < config.recoveryBatchSize)
    "run_dispatch_recovery_candidates: p_limit out of bounds"
  pure (((rowsAfter CandidateRow.key (world.stale config q)
    (after.map SweepCursor.key)).insertionSort (·.key ≤ ·.key)).take config.recoveryBatchSize)

/-! ## The sweep -/

/-- What the calls for a run return after query `q`: `none` is an exception. -/
structure RecoveryCalls where
  recoverQueuedStale : ℕ → Uuid → Option Bool
  recoverRunningStale : ℕ → Uuid → Option RunningStaleRecovery

/-- `RecoverySweepResult`. -/
structure RecoverySweepResult where
  candidates : ℕ := 0
  queuedFailed : ℕ := 0
  runningUnknown : ℕ := 0
  runningNeverStarted : ℕ := 0
  skipped : ℕ := 0
  errors : ℕ := 0
  nextCursor : Option SweepCursor := none

/-- The variables of a sweep; `visited` are the candidates whose recovery was called and `query` is
the number of the next query. -/
structure SweepState where
  result : RecoverySweepResult
  cursor : Option SweepCursor
  query : ℕ
  visited : List CandidateRow

/-- `MAX_BATCHES_PER_SWEEP`. -/
def maxBatchesPerSweep : ℕ := 20

/-- The counters after the recovery of a candidate. -/
def RecoverySweepResult.count (result : RecoverySweepResult) (calls : RecoveryCalls) (q : ℕ)
    (c : CandidateRow) : RecoverySweepResult :=
  match c.reason with
  | .queuedStale =>
    match calls.recoverQueuedStale q c.runId with
    | some true => { result with queuedFailed := result.queuedFailed + 1 }
    | some false => { result with skipped := result.skipped + 1 }
    | none => { result with errors := result.errors + 1 }
  | .runningStale =>
    match calls.recoverRunningStale q c.runId with
    | some .outcomeUnknown => { result with runningUnknown := result.runningUnknown + 1 }
    | some .failedNeverStarted =>
      { result with runningNeverStarted := result.runningNeverStarted + 1 }
    | some .notRecovered => { result with skipped := result.skipped + 1 }
    | none => { result with errors := result.errors + 1 }

/-- The state after the candidates of a page. -/
def SweepState.process (s : SweepState) (calls : RecoveryCalls) (rows : List CandidateRow) :
    SweepState where
  result := rows.foldl (fun result c => result.count calls s.query c)
    { s.result with candidates := s.result.candidates + rows.length }
  cursor := s.cursor
  query := s.query + 1
  visited := s.visited ++ rows

/-- The loop over the pages that are left; the result tells whether the candidates are exhausted. -/
def sweepPages (world : RunHistory) (config : RunDispatchConfig) (calls : RecoveryCalls) :
    ℕ → SweepState → Except String (SweepState × Bool)
  | 0, s => .ok (s, false)
  | pages + 1, s =>
    runDispatchRecoveryCandidates world config s.query s.cursor >>= fun rows =>
      if rows.length = 0 then .ok ({ s with query := s.query + 1 }, true)
      else if rows.length < config.recoveryBatchSize then .ok (s.process calls rows, true)
      else sweepPages world config calls pages
        { s.process calls rows with cursor := rows.getLast?.map CandidateRow.cursor }

/-- A sweep: its result, the candidates visited and the number of the query after it. -/
structure RecoverySweep where
  result : RecoverySweepResult
  visited : List CandidateRow
  query : ℕ

/-- `runDispatchRecoverySweepOnce`, with `query` as the number of its first query. -/
def runDispatchRecoverySweepOnce (world : RunHistory) (config : RunDispatchConfig)
    (calls : RecoveryCalls) (query : ℕ) (resumeFrom : Option SweepCursor) :
    Except String RecoverySweep := do
  let (s, exhausted) ← sweepPages world config calls maxBatchesPerSweep ⟨{}, resumeFrom, query, []⟩
  pure ⟨{ s.result with nextCursor := if exhausted then none else s.cursor }, s.visited, s.query⟩

/-- The sweeps that pass each `nextCursor` to the next one until it is null, at most `fuel` of
them. -/
def runSweeps (world : RunHistory) (config : RunDispatchConfig) (calls : RecoveryCalls) :
    ℕ → ℕ → Option SweepCursor → Except String (Option (List RecoverySweep))
  | 0, _, _ => pure none
  | fuel + 1, query, resumeFrom => do
    let sweep ← runDispatchRecoverySweepOnce world config calls query resumeFrom
    match sweep.result.nextCursor with
    | none => pure (some [sweep])
    | some cursor => do
      let rest ← runSweeps world config calls fuel sweep.query (some cursor)
      pure (rest.map (sweep :: ·))

/-! ## The candidates of a query -/

section Candidates

variable {world : RunHistory} {config : RunDispatchConfig} {q : ℕ} {c c' : CandidateRow}

/-- The place of a run in the order of creation. -/
def RunHistory.key (world : RunHistory) (id : Uuid) : ℤ ×ₗ ℕ :=
  toLex (world.createdAt id, id.toNat)

/-- A candidate is a stale run. -/
lemma mem_stale : c ∈ world.stale config q ↔
    ∃ r ∈ world.table q c.runId, r.Stale config (world.now q) ∧ c = r.candidate c.runId := by
  unfold RunHistory.stale
  rw [List.mem_filterMap]
  constructor
  · rintro ⟨id, -, h⟩
    obtain ⟨r, hr, rfl⟩ := Option.map_eq_some_iff.mp h
    obtain ⟨hrow, hstale⟩ := Option.filter_eq_some_iff.mp hr
    exact ⟨r, hrow, of_decide_eq_true hstale, rfl⟩
  · rintro ⟨r, hrow, hstale, hc⟩
    have hid : c.runId ∈ world.ids :=
      world.mem_ids q c.runId (Option.isSome_iff_exists.mpr ⟨r, hrow⟩)
    refine ⟨c.runId, hid, Option.map_eq_some_iff.mpr ⟨r, ?_, hc.symm⟩⟩
    exact Option.filter_eq_some_iff.mpr ⟨hrow, decide_eq_true hstale⟩

/-- The place of a candidate is that of its run. -/
lemma key_of_mem_stale (h : c ∈ world.stale config q) : c.key = world.key c.runId := by
  obtain ⟨r, hrow, -, hc⟩ := mem_stale.mp h
  have hcreated : c.createdAt = world.createdAt c.runId := by
    rw [← world.created q c.runId r hrow, hc]
    rfl
  unfold CandidateRow.key RunHistory.key
  rw [hcreated]

/-- Distinct runs have distinct places. -/
lemma RunHistory.key_injective (world : RunHistory) : Function.Injective world.key := by
  intro id id' h
  have hnat : id.toNat = id'.toNat := congrArg (fun k => (ofLex k).2) h
  exact BitVec.eq_of_toNat_eq hnat

/-- A run is a candidate at most once. -/
lemma nodup_stale (world : RunHistory) (config : RunDispatchConfig) (q : ℕ) :
    ((world.stale config q).map CandidateRow.key).Nodup := by
  have hkeys : (world.stale config q).map CandidateRow.key =
      ((world.stale config q).map CandidateRow.runId).map world.key := by
    rw [List.map_map]
    exact List.map_congr_left fun c hc => key_of_mem_stale hc
  have hids : ((world.stale config q).map CandidateRow.runId).Nodup := by
    refine world.ids_nodup.sublist ?_
    unfold RunHistory.stale
    generalize world.ids = ids
    induction ids with
    | nil => exact List.Sublist.refl _
    | cons id ids ih =>
      rw [List.filterMap_cons]
      cases hrow : ((world.table q id).filter fun r => r.Stale config (world.now q)).map
          (·.candidate id) with
      | none => exact ih.cons id
      | some c =>
        obtain ⟨r, -, rfl⟩ := Option.map_eq_some_iff.mp hrow
        exact ih.cons_cons id
  rw [hkeys]
  exact hids.map world.key_injective

instance candidateKeyTotal : Std.Total fun c c' : CandidateRow => c.key ≤ c'.key where
  total c c' := le_total c.key c'.key

instance candidateKeyTrans : IsTrans CandidateRow fun c c' => c.key ≤ c'.key where
  trans _ _ _ := le_trans

/-- The arguments are within the bounds, and the query returns a page of the stale runs. -/
lemma exists_candidates (world : RunHistory) (config : RunDispatchConfig) (q : ℕ)
    (after : Option SweepCursor) :
    ∃ rows, runDispatchRecoveryCandidates world config q after = .ok rows ∧
      IsPage CandidateRow.key (world.stale config q) (after.map SweepCursor.key)
        config.recoveryBatchSize rows := by
  obtain ⟨hprepared, hprepared'⟩ := config.prepared_bounds
  obtain ⟨hrecovery, hrecovery'⟩ := config.recovery_bounds
  obtain ⟨hbatch, hbatch'⟩ := config.batch_bounds
  refine ⟨_, ?_, _, List.perm_insertionSort _ _, List.pairwise_insertionSort _ _, rfl⟩
  unfold runDispatchRecoveryCandidates
  rw [rejectIf_of_not (by omega), rejectIf_of_not (by omega), rejectIf_of_not (by omega)]
  rfl

end Candidates

/-! ## What a part of the sweeps visits -/

/-- The run is stale at the queries from `q` up to `q'`. -/
def StaysStale (world : RunHistory) (config : RunDispatchConfig) (id : Uuid) (q q' : ℕ) : Prop :=
  ∀ k, q ≤ k → k < q' → ∃ r ∈ world.table k id, r.Stale config (world.now k)

/-- The queries from `q` up to `q'` go on after the cursor `after` and visit `visited`; the next
query goes on after `next`, and there is none if `next` is null. -/
structure Visits (world : RunHistory) (config : RunDispatchConfig) (q : ℕ)
    (after : Option SweepCursor) (visited : List CandidateRow) (q' : ℕ)
    (next : Option SweepCursor) : Prop where
  le : q ≤ q'
  sorted : visited.Pairwise (·.key < ·.key)
  later : ∀ c ∈ visited, ∀ a ∈ after, a.key < c.key
  earlier : ∀ c ∈ visited, ∀ b ∈ next, c.key ≤ b.key
  advance : ∀ a ∈ after, ∀ b ∈ next, a.key ≤ b.key
  stale : ∀ c ∈ visited, ∃ k, c ∈ world.stale config k
  complete : ∀ id, StaysStale world config id q q' → (∀ a ∈ after, a.key < world.key id) →
    (∃ c ∈ visited, c.runId = id) ∨ ∃ b ∈ next, b.key < world.key id

section Visits

variable {world : RunHistory} {config : RunDispatchConfig} {q q₁ q₂ : ℕ}
  {after next : Option SweepCursor} {b : SweepCursor} {visited visited' : List CandidateRow}

/-- Two parts, one after the other. -/
lemma Visits.trans (h : Visits world config q after visited q₁ (some b))
    (h' : Visits world config q₁ (some b) visited' q₂ next) :
    Visits world config q after (visited ++ visited') q₂ next where
  le := h.le.trans h'.le
  sorted := List.pairwise_append.mpr ⟨h.sorted, h'.sorted, fun c hc c' hc' =>
    (h.earlier c hc b rfl).trans_lt (h'.later c' hc' b rfl)⟩
  later c hc a ha := by
    rcases List.mem_append.mp hc with hc | hc
    · exact h.later c hc a ha
    · exact (h.advance a ha b rfl).trans_lt (h'.later c hc b rfl)
  earlier c hc d hd := by
    rcases List.mem_append.mp hc with hc | hc
    · exact (h.earlier c hc b rfl).trans (h'.advance b rfl d hd)
    · exact h'.earlier c hc d hd
  advance a ha d hd := (h.advance a ha b rfl).trans (h'.advance b rfl d hd)
  stale c hc := by
    rcases List.mem_append.mp hc with hc | hc
    · exact h.stale c hc
    · exact h'.stale c hc
  complete id hid hafter := by
    rcases h.complete id (fun k hk hlt => hid k hk (hlt.trans_le h'.le)) hafter with
      ⟨c, hc, heq⟩ | ⟨d, hd, hlt⟩
    · exact .inl ⟨c, List.mem_append_left _ hc, heq⟩
    · obtain rfl := Option.some.inj hd
      have hlater : ∀ a ∈ some b, a.key < world.key id := by
        rintro a ha
        obtain rfl := Option.some.inj ha
        exact hlt
      rcases h'.complete id (fun k hk => hid k (h.le.trans hk)) hlater with ⟨c, hc, heq⟩ | hnext
      · exact .inl ⟨c, List.mem_append_right _ hc, heq⟩
      · exact .inr hnext

/-- The runs visited are distinct runs of the table. -/
lemma Visits.length_le (h : Visits world config q after visited q₁ next) :
    visited.length ≤ world.ids.length := by
  have hkeys : ∀ c ∈ visited, c.key = world.key c.runId := by
    intro c hc
    obtain ⟨k, hk⟩ := h.stale c hc
    exact key_of_mem_stale hk
  have hnodup : (visited.map CandidateRow.runId).Nodup := by
    refine List.pairwise_map.mpr (h.sorted.imp_of_mem fun {c c'} hc hc' hlt heq => ?_)
    rw [hkeys c hc, hkeys c' hc', heq] at hlt
    exact lt_irrefl _ hlt
  have hsub : visited.map CandidateRow.runId ⊆ world.ids := by
    intro id hid
    obtain ⟨c, hc, rfl⟩ := List.mem_map.mp hid
    obtain ⟨k, hk⟩ := h.stale c hc
    obtain ⟨r, hr, -⟩ := mem_stale.mp hk
    exact world.mem_ids k c.runId (Option.isSome_iff_exists.mpr ⟨r, hr⟩)
  have hle := (List.subperm_of_subset hnodup hsub).length_le
  rwa [List.length_map] at hle

/-- A run that stays stale is visited exactly once by a complete walk. -/
lemma Visits.countP_eq_one (h : Visits world config q none visited q₁ none) {id : Uuid}
    (hid : StaysStale world config id q q₁) : visited.countP (·.runId = id) = 1 := by
  have hkeys : ∀ c ∈ visited, c.key = world.key c.runId := by
    intro c hc
    obtain ⟨k, hk⟩ := h.stale c hc
    exact key_of_mem_stale hk
  rcases h.complete id hid (fun a ha => by cases ha) with ⟨c, hc, rfl⟩ | ⟨b, hb, -⟩
  · refine le_antisymm ?_ (List.countP_pos_iff.mpr ⟨c, hc, decide_eq_true rfl⟩)
    -- two candidates of the run would have the same place
    rw [List.countP_eq_length_filter]
    by_contra hlong
    have hsorted := h.sorted.sublist (List.filter_sublist (p := fun d => d.runId = c.runId))
    match hlist : visited.filter fun d => d.runId = c.runId with
    | [] => simp [hlist] at hlong
    | [_] => simp [hlist] at hlong
    | d :: d' :: rest =>
      rw [hlist] at hsorted
      have hd : d ∈ visited.filter fun d => d.runId = c.runId := by simp [hlist]
      have hd' : d' ∈ visited.filter fun d => d.runId = c.runId := by simp [hlist]
      rw [List.mem_filter, decide_eq_true_eq] at hd hd'
      have hlt := List.rel_of_pairwise_cons hsorted List.mem_cons_self
      rw [hkeys d hd.1, hkeys d' hd'.1, hd.2, hd'.2] at hlt
      exact lt_irrefl _ hlt
  · cases hb

/-- A query visits its page. -/
lemma visits_page {rows : List CandidateRow}
    (h : IsPage CandidateRow.key (world.stale config q) (after.map SweepCursor.key)
      config.recoveryBatchSize rows) :
    Visits world config q after rows (q + 1)
      (if rows.length < config.recoveryBatchSize then none
        else rows.getLast?.map CandidateRow.cursor) := by
  have hafter : ∀ c ∈ rows, ∀ a ∈ after, a.key < c.key := by
    intro c hc a ha
    exact (h.mem hc).2 a.key (Option.mem_map_of_mem _ ha)
  have hlast : ∀ b ∈ (if rows.length < config.recoveryBatchSize then none
      else rows.getLast?.map CandidateRow.cursor),
      ∃ c, rows.getLast? = some c ∧ b = c.cursor := by
    intro b hb
    split at hb
    · cases hb
    · obtain ⟨c, hc, rfl⟩ := Option.map_eq_some_iff.mp hb
      exact ⟨c, hc, rfl⟩
  refine ⟨Nat.le_succ q, h.pairwise_lt (nodup_stale world config q), hafter, ?_, ?_, ?_, ?_⟩
  · intro c hc b hb
    obtain ⟨d, hd, rfl⟩ := hlast b hb
    exact h.le_last hd hc
  · intro a ha b hb
    obtain ⟨d, hd, rfl⟩ := hlast b hb
    exact (hafter d (List.mem_of_getLast? hd) a ha).le
  · intro c hc
    exact ⟨q, (h.mem hc).1⟩
  · intro id hid hkey
    obtain ⟨r, hrow, hstale⟩ := hid q le_rfl (Nat.lt_succ_self q)
    have hmem : r.candidate id ∈ world.stale config q := mem_stale.mpr ⟨r, hrow, hstale, rfl⟩
    have hplace : (r.candidate id).key = world.key id := key_of_mem_stale hmem
    have hinj : ∀ c ∈ world.stale config q, c.key = (r.candidate id).key →
        c = r.candidate id := by
      intro c hc heq
      rw [key_of_mem_stale hc, hplace] at heq
      obtain rfl := world.key_injective heq
      obtain ⟨r', hrow', -, hc'⟩ := mem_stale.mp hc
      obtain rfl : r' = r := Option.some.inj (hrow'.symm.trans hrow)
      exact hc'
    have hlater : ∀ k ∈ after.map SweepCursor.key, k < (r.candidate id).key := by
      intro k hk
      obtain ⟨a, ha, rfl⟩ := Option.mem_map.mp hk
      exact hplace ▸ hkey a ha
    rcases h.mem_or_later config.batch_bounds.1 hmem hlater hinj with hpage | ⟨d, hd, hfull, hlt⟩
    · exact .inl ⟨_, hpage, rfl⟩
    · rw [if_neg (by omega), hd]
      exact .inr ⟨d.cursor, rfl, hplace ▸ hlt⟩

end Visits

/-! ## Sweeps -/

section Sweeps

variable {world : RunHistory} {config : RunDispatchConfig} {calls : RecoveryCalls}

/-- **The pages of a sweep.** If the candidates are exhausted the pages have visited everything after
the cursor; otherwise all pages were full, and the walk goes on after the last candidate. -/
lemma sweepPages_visits (pages : ℕ) (s : SweepState) :
    ∃ s' exhausted visited, sweepPages world config calls pages s = .ok (s', exhausted) ∧
      s'.visited = s.visited ++ visited ∧
      (exhausted = true → Visits world config s.query s.cursor visited s'.query none) ∧
      (exhausted = false → visited.length = pages * config.recoveryBatchSize ∧
        (pages = 0 → s' = s) ∧
        (0 < pages → ∃ b, s'.cursor = some b ∧
          Visits world config s.query s.cursor visited s'.query (some b))) := by
  induction pages generalizing s with
  | zero => exact ⟨s, false, [], rfl, by simp, by simp, by simp⟩
  | succ pages ih =>
    obtain ⟨rows, hrows, hpage⟩ := exists_candidates world config s.query s.cursor
    have hvisits := visits_page hpage
    have hbatch := config.batch_bounds.1
    unfold sweepPages
    rw [hrows]
    by_cases hzero : rows.length = 0
    · obtain rfl := List.length_eq_zero_iff.mp hzero
      rw [if_pos (show ([] : List CandidateRow).length < config.recoveryBatchSize from hbatch)]
        at hvisits
      exact ⟨{ s with query := s.query + 1 }, true, [], rfl, by simp, fun _ => hvisits, by simp⟩
    · by_cases hshort : rows.length < config.recoveryBatchSize
      · rw [if_pos hshort] at hvisits
        refine ⟨s.process calls rows, true, rows, ?_, rfl, fun _ => hvisits, by simp⟩
        exact (if_neg hzero).trans (if_pos hshort)
      · obtain ⟨last, hlast⟩ : ∃ last, rows.getLast? = some last :=
          ⟨_, List.getLast?_eq_some_getLast fun hnil => hzero (by simp [hnil])⟩
        have hlength : rows.length = config.recoveryBatchSize :=
          le_antisymm hpage.length_le (not_lt.mp hshort)
        rw [if_neg hshort, hlast] at hvisits
        obtain ⟨s', exhausted, visited, hrun, hvisited, htrue, hfalse⟩ :=
          ih { s.process calls rows with cursor := rows.getLast?.map CandidateRow.cursor }
        have hcursor : ({ s.process calls rows with
            cursor := rows.getLast?.map CandidateRow.cursor } : SweepState).cursor =
            some last.cursor := by rw [hlast]; rfl
        rw [hcursor] at htrue hfalse
        refine ⟨s', exhausted, rows ++ visited, ?_, ?_, fun h => hvisits.trans (htrue h),
          fun h => ⟨?_, by omega, fun _ => ?_⟩⟩
        · exact (if_neg hzero).trans ((if_neg hshort).trans hrun)
        · rw [hvisited]
          exact List.append_assoc _ _ _
        · rw [List.length_append, hlength, (hfalse h).1, Nat.succ_mul, Nat.add_comm]
        · obtain ⟨hlen, hnone, hsome⟩ := hfalse h
          rcases Nat.eq_zero_or_pos pages with rfl | hpos
          · have hnil : visited = [] := List.length_eq_zero_iff.mp (by rw [hlen, Nat.zero_mul])
            rw [hnone rfl, hnil, List.append_nil]
            exact ⟨last.cursor, hcursor, hvisits⟩
          · obtain ⟨b, hb, hrest⟩ := hsome hpos
            exact ⟨b, hb, hvisits.trans hrest⟩

/-- **One sweep.** If it hands on no cursor it has visited everything after the one it was given;
otherwise all its pages were full. -/
lemma sweepOnce_visits (query : ℕ) (resumeFrom : Option SweepCursor) :
    ∃ sweep, runDispatchRecoverySweepOnce world config calls query resumeFrom = .ok sweep ∧
      Visits world config query resumeFrom sweep.visited sweep.query sweep.result.nextCursor ∧
      (sweep.result.nextCursor ≠ none →
        sweep.visited.length = maxBatchesPerSweep * config.recoveryBatchSize) := by
  obtain ⟨s', exhausted, visited, hrun, hvisited, htrue, hfalse⟩ := @sweepPages_visits
    world config calls maxBatchesPerSweep
    ⟨{}, resumeFrom, query, []⟩
  refine ⟨_, by unfold runDispatchRecoverySweepOnce; rw [hrun]; rfl, ?_⟩
  rw [List.nil_append] at hvisited
  cases exhausted with
  | true => exact ⟨hvisited ▸ htrue rfl, fun h => absurd rfl h⟩
  | false =>
    obtain ⟨hlength, -, hsome⟩ := hfalse rfl
    obtain ⟨b, hb, hvisits⟩ := hsome (by decide)
    refine ⟨?_, fun _ => hvisited ▸ hlength⟩
    show Visits world config query resumeFrom s'.visited s'.query s'.cursor
    rw [hvisited, hb]
    exact hvisits

/-- **A chain of sweeps.** It ends, having visited everything, or all pages of its sweeps were
full. -/
lemma runSweeps_visits (fuel : ℕ) (query : ℕ) (resumeFrom : Option SweepCursor) :
    (∃ sweeps q', runSweeps world config calls fuel query resumeFrom = .ok (some sweeps) ∧
      sweeps.getLast?.map RecoverySweep.query = some q' ∧
      Visits world config query resumeFrom (sweeps.flatMap RecoverySweep.visited) q' none) ∨
    runSweeps world config calls fuel query resumeFrom = .ok none ∧
      (0 < fuel → ∃ visited q' b, Visits world config query resumeFrom visited q' (some b) ∧
        visited.length = fuel * (maxBatchesPerSweep * config.recoveryBatchSize)) := by
  induction fuel generalizing query resumeFrom with
  | zero => exact .inr ⟨rfl, fun h => absurd h (lt_irrefl 0)⟩
  | succ fuel ih =>
    obtain ⟨sweep, hsweep, hvisits, hfull⟩ := @sweepOnce_visits world config
      calls query resumeFrom
    unfold runSweeps
    rw [hsweep]
    cases hnext : sweep.result.nextCursor with
    | none =>
      rw [hnext] at hvisits
      refine .inl ⟨[sweep], sweep.query, ?_, rfl, by simpa using hvisits⟩
      simp only [bind, Except.bind, hnext]
      rfl
    | some b =>
      rw [hnext] at hvisits
      have hlength := hfull (by rw [hnext]; exact Option.some_ne_none b)
      rcases ih sweep.query (some b) with ⟨sweeps, q', hrun, hlast, hrest⟩ | ⟨hrun, hrest⟩
      · refine .inl ⟨sweep :: sweeps, q', ?_, ?_, ?_⟩
        · simp only [bind, Except.bind, hnext, hrun]
          rfl
        · cases sweeps with
          | nil => cases hlast
          | cons sweep' sweeps => rw [List.getLast?_cons_cons, hlast]
        · rw [List.flatMap_cons]
          exact hvisits.trans hrest
      · refine .inr ⟨?_, fun _ => ?_⟩
        · simp only [bind, Except.bind, hnext, hrun]
          rfl
        · rcases Nat.eq_zero_or_pos fuel with rfl | hpos
          · exact ⟨sweep.visited, sweep.query, b, hvisits, by rw [hlength, Nat.one_mul]⟩
          · obtain ⟨visited, q', b', hvisits', hlength'⟩ := hrest hpos
            refine ⟨sweep.visited ++ visited, q', b', hvisits.trans hvisits', ?_⟩
            rw [List.length_append, hlength, hlength', Nat.succ_mul, Nat.add_comm]

/-- **Recovery sweep coverage.** The sweeps that pass each cursor to the next one reach a null cursor
after at most one sweep for every full load of runs and one more.  They visit the candidates in the
order of creation, and every run that stays stale until the last of them exactly once. -/
theorem recovery_sweep_coverage (world : RunHistory) (config : RunDispatchConfig)
    (calls : RecoveryCalls) (query : ℕ) :
    ∃ sweeps q',
      runSweeps world config calls
          (world.ids.length / (maxBatchesPerSweep * config.recoveryBatchSize) + 1) query none =
        .ok (some sweeps) ∧
      sweeps.getLast?.map RecoverySweep.query = some q' ∧
      (sweeps.flatMap RecoverySweep.visited).Pairwise (·.key < ·.key) ∧
      ∀ id, StaysStale world config id query q' →
        (sweeps.flatMap RecoverySweep.visited).countP (·.runId = id) = 1 := by
  rcases @runSweeps_visits world config calls
    (world.ids.length / (maxBatchesPerSweep * config.recoveryBatchSize) + 1) query none with
    ⟨sweeps, q', hrun, hlast, hvisits⟩ | ⟨-, hfull⟩
  · exact ⟨sweeps, q', hrun, hlast, hvisits.sorted, fun id hid => hvisits.countP_eq_one hid⟩
  · exfalso
    obtain ⟨visited, q', b, hvisits, hlength⟩ := hfull (Nat.succ_pos _)
    have hpos : 0 < maxBatchesPerSweep * config.recoveryBatchSize :=
      Nat.mul_pos (by decide) config.batch_bounds.1
    have hlt := Nat.lt_div_mul_add hpos (a := world.ids.length)
    have hle := hvisits.length_le
    rw [hlength, Nat.succ_mul] at hle
    omega

end Sweeps

/-- The least `preparedGraceMs` is allowed. -/
lemma samplePrepared_bounds : (1000 : ℤ) ≤ 1000 ∧ (1000 : ℤ) ≤ 3600000 := by decide

/-- So is no `recoveryGraceMs`. -/
lemma sampleRecovery_bounds : (0 : ℤ) ≤ 0 ∧ (0 : ℤ) ≤ 3600000 := by decide

/-- So are pages of one run. -/
lemma sampleBatch_bounds : 1 ≤ 1 ∧ 1 ≤ 500 := by decide

/-- The ids of the two runs differ. -/
lemma sampleRunIds_nodup : ([1, 2] : List Uuid).Nodup := by decide

/-- The shortest graces, and pages of one run. -/
def sampleRecoveryConfig : RunDispatchConfig where
  preparedGraceMs := 1000
  recoveryGraceMs := 0
  recoveryBatchSize := 1
  prepared_bounds := samplePrepared_bounds
  recovery_bounds := sampleRecovery_bounds
  batch_bounds := sampleBatch_bounds

/-- A run that was prepared and not claimed. -/
def samplePreparedRun : RunRow where
  orgId := 1
  actorUserId := 2
  workspaceId := 3
  provider := "openai"
  model := "gpt"
  mode := .governed
  status := .queued
  createdAt := 5
  dispatchProtocolVersion := some 1
  dispatchPreparedAt := some 6

/-- Two runs of one time of creation, which no recovery advances. -/
def sampleRunHistory : RunHistory where
  ids := [1, 2]
  table _ id := if id = 1 ∨ id = 2 then some samplePreparedRun else none
  now q := 2000000 + q
  createdAt _ := 5
  ids_nodup := sampleRunIds_nodup
  mem_ids q id h := by
    split at h
    · exact List.mem_pair.mpr ‹_›
    · cases h
  created q id r h := by
    split at h
    · obtain rfl := Option.some.inj h
      rfl
    · cases h

/-- Both runs are met once, although every call for them fails. -/
theorem recovery_sweep_coverage_sample : ∃ sweeps,
    runSweeps sampleRunHistory sampleRecoveryConfig ⟨fun _ _ => none, fun _ _ => none⟩ 1 0 none =
        .ok (some sweeps) ∧
      ∀ id ∈ ([1, 2] : List Uuid),
        (sweeps.flatMap RecoverySweep.visited).countP (·.runId = id) = 1 := by
  obtain ⟨sweeps, q', hrun, -, -, hcount⟩ := recovery_sweep_coverage sampleRunHistory
    sampleRecoveryConfig ⟨fun _ _ => none, fun _ _ => none⟩ 0
  refine ⟨sweeps, hrun, fun id hid => hcount id fun k _ _ => ⟨samplePreparedRun, if_pos (List.mem_pair.mp hid), rfl, ?_⟩⟩
  refine .inl ⟨rfl, rfl, decide_eq_true ?_⟩
  change (6 : ℤ) < 2000000 + k - 1000 * 1000
  omega

end GovAI
