import GovAI.Conversation.Schema
import GovAI.Library.Fallible
import GovAI.Library.KeysetPaging
import Mathlib.Data.Prod.Lex

/-!
# The conversation sweep

`runConversationSweepOnce` of `runner.ts` with the paging of `govai.ai_turn_recovery_candidates`.
Every sweep starts at the oldest candidate and ends after `maxPagesPerSweep` pages, so candidates
that are never advanced keep the pages of every sweep from those behind them.  A candidate is
processed exactly by the sweeps in which the pages are not filled with older ones
(`processed_iff_not_crowded`).
-/

namespace GovAI

/-! ## The candidates -/

/-- `reason`. -/
inductive RecoveryCandidateReason where
  | queuedHead
  | acceptedLeaseExpired
  | dispatchingLeaseExpired
  | streamingLeaseExpired
deriving DecidableEq

/-- `RecoveryDiscoveryCursor`; the text of `created_at` keeps its microseconds. -/
structure RecoveryDiscoveryCursor where
  createdAt : ℤ
  attemptId : Uuid
deriving DecidableEq

/-- `RecoveryCandidate`. -/
structure RecoveryCandidate where
  orgId : Uuid
  ownerUserId : Uuid
  conversationId : Uuid
  turnId : Uuid
  attemptId : Uuid
  state : AttemptState
  reason : RecoveryCandidateReason
  claimToken : Option Uuid
  isBranchHead : Bool
  attemptCreatedAt : ℤ
deriving DecidableEq

/-- The order of creation: `(created_at, id)`. -/
def RecoveryDiscoveryCursor.key (c : RecoveryDiscoveryCursor) : ℤ ×ₗ ℕ :=
  toLex (c.createdAt, c.attemptId.toNat)

/-- The cursor after a candidate. -/
def RecoveryCandidate.cursor (c : RecoveryCandidate) : RecoveryDiscoveryCursor :=
  ⟨c.attemptCreatedAt, c.attemptId⟩

/-- The place of a candidate in the order of creation. -/
def RecoveryCandidate.key (c : RecoveryCandidate) : ℤ ×ₗ ℕ := c.cursor.key

/-- `ConversationWorkerRunnerConfig` and `recoveryGraceMs`; the environment is checked against these
bounds. -/
structure ConversationWorkerRunnerConfig where
  batchSize : ℕ
  maxPagesPerSweep : ℕ
  recoveryGraceMs : ℤ
  batch_bounds : 1 ≤ batchSize ∧ batchSize ≤ 500
  grace_bounds : 0 ≤ recoveryGraceMs ∧ recoveryGraceMs ≤ 3600000

/-- The candidates as the sweeps find them: `candidates n k` when sweep `n` reads its page `k`.
Between two pages they come and go in any way; an attempt is a candidate at most once. -/
structure CandidateHistory where
  candidates : ℕ → ℕ → List RecoveryCandidate
  keys_nodup : ∀ n k, ((candidates n k).map RecoveryCandidate.key).Nodup

/-- `govai.ai_turn_recovery_candidates`: the bounds of the arguments, then a page of the
candidates. -/
def aiTurnRecoveryCandidates (candidates : List RecoveryCandidate) (recoveryGraceMs : ℤ)
    (limit : ℕ) (after : Option RecoveryDiscoveryCursor) :
    Except String (List RecoveryCandidate) := do
  rejectIf (recoveryGraceMs < 0 ∨ 3600000 < recoveryGraceMs)
    "ai_turn_recovery_candidates: p_recovery_grace_ms out of bounds"
  rejectIf (limit < 1 ∨ 500 < limit) "ai_turn_recovery_candidates: p_limit out of bounds"
  pure (((rowsAfter RecoveryCandidate.key candidates
    (after.map RecoveryDiscoveryCursor.key)).insertionSort (·.key ≤ ·.key)).take limit)

/-! ## The sweep -/

/-- `SweepReport`; the outcome `none` is `'error'`. -/
structure SweepReport (Outcome : Type) where
  discovered : ℕ
  processed : ℕ
  outcomes : Option Outcome → ℕ

/-- The variables of a sweep; `visited` are the candidates that `processCandidate` was called
with. -/
structure ConversationSweep (Outcome : Type) where
  report : SweepReport Outcome
  cursor : Option RecoveryDiscoveryCursor
  visited : List RecoveryCandidate

section Sweep

variable {Outcome : Type} [DecidableEq Outcome]

/-- The report after a candidate. -/
def SweepReport.count (report : SweepReport Outcome) (outcome : Option Outcome) :
    SweepReport Outcome where
  discovered := report.discovered
  processed := report.processed + 1
  outcomes := Function.update report.outcomes outcome (report.outcomes outcome + 1)

/-- The variables after the candidates of a page; an exception of one does not stop the others. -/
def ConversationSweep.process (s : ConversationSweep Outcome)
    (processCandidate : RecoveryCandidate → Option Outcome) (page : List RecoveryCandidate) :
    ConversationSweep Outcome where
  report := page.foldl (fun report c => report.count (processCandidate c))
    { s.report with discovered := s.report.discovered + page.length }
  cursor := s.cursor
  visited := s.visited ++ page

/-- The loop over the pages that are left, `page` being the number of the next one. -/
def conversationSweepPages (config : ConversationWorkerRunnerConfig)
    (candidates : ℕ → List RecoveryCandidate)
    (processCandidate : RecoveryCandidate → Option Outcome) :
    ℕ → ℕ → ConversationSweep Outcome → Except String (ConversationSweep Outcome)
  | 0, _, s => .ok s
  | pages + 1, page, s =>
    aiTurnRecoveryCandidates (candidates page) config.recoveryGraceMs config.batchSize s.cursor >>=
      fun rows =>
        if rows.length < config.batchSize then .ok (s.process processCandidate rows)
        else conversationSweepPages config candidates processCandidate pages (page + 1)
          { s.process processCandidate rows with
            cursor := rows.getLast?.map RecoveryCandidate.cursor }

/-- `runConversationSweepOnce`, sweep number `n`, without a shutdown. -/
def runConversationSweepOnce (config : ConversationWorkerRunnerConfig) (history : CandidateHistory)
    (processCandidate : ℕ → RecoveryCandidate → Option Outcome) (n : ℕ) :
    Except String (ConversationSweep Outcome) := do
  rejectIf (config.batchSize < 1 ∨ 500 < config.batchSize)
    "conversation worker batchSize must be within [1, 500]"
  conversationSweepPages config (history.candidates n) (processCandidate n) config.maxPagesPerSweep 0
    ⟨⟨0, 0, fun _ => 0⟩, none, []⟩

end Sweep

/-! ## Pages filled with older candidates -/

/-- The attempt is a candidate whenever a page is read. -/
def StaysCandidate (history : CandidateHistory) (x : RecoveryDiscoveryCursor) : Prop :=
  ∀ n k, ∃ c ∈ history.candidates n k, c.cursor = x

/-- The pages from number `page` on are crowded before `x`: older attempts behind the cursor, in
blocks as large as a page, one behind the other in the order of creation, each block among the
candidates when its page is read. -/
structure Crowds (batchSize : ℕ) (candidates : ℕ → List RecoveryCandidate) (page : ℕ)
    (after : Option RecoveryDiscoveryCursor) (x : RecoveryDiscoveryCursor)
    (blocks : List (List RecoveryDiscoveryCursor)) : Prop where
  length : ∀ block ∈ blocks, block.length = batchSize
  sorted : blocks.flatten.Pairwise (·.key < ·.key)
  later : ∀ y ∈ blocks.flatten, ∀ a ∈ after, a.key < y.key
  older : ∀ y ∈ blocks.flatten, y.key < x.key
  mem : ∀ k block, blocks[k]? = some block → ∀ y ∈ block, ∃ c ∈ candidates (page + k), c.cursor = y

/-- Older attempts fill all the pages of a sweep. -/
def Crowded (config : ConversationWorkerRunnerConfig) (candidates : ℕ → List RecoveryCandidate)
    (x : RecoveryDiscoveryCursor) : Prop :=
  ∃ blocks : List (List RecoveryDiscoveryCursor), blocks.length = config.maxPagesPerSweep ∧
    Crowds config.batchSize candidates 0 none x blocks

/-- The places of attempts tell them apart. -/
lemma RecoveryDiscoveryCursor.key_injective : Function.Injective RecoveryDiscoveryCursor.key := by
  rintro ⟨createdAt, attemptId⟩ ⟨createdAt', attemptId'⟩ h
  have hcreated : createdAt = createdAt' := congrArg (fun k => (ofLex k).1) h
  have hid : attemptId.toNat = attemptId'.toNat := congrArg (fun k => (ofLex k).2) h
  rw [hcreated, BitVec.eq_of_toNat_eq hid]

section Crowds

variable {batchSize page : ℕ} {candidates : ℕ → List RecoveryCandidate}
  {after : Option RecoveryDiscoveryCursor} {x last : RecoveryDiscoveryCursor}
  {block : List RecoveryDiscoveryCursor} {blocks : List (List RecoveryDiscoveryCursor)}

/-- The first block, and the blocks behind its last attempt. -/
lemma Crowds.tail (h : Crowds batchSize candidates page after x (block :: blocks))
    (hlast : block.getLast? = some last) :
    Crowds batchSize candidates (page + 1) (some last) x blocks where
  length b hb := h.length b (List.mem_cons_of_mem _ hb)
  sorted := (List.pairwise_append.mp h.sorted).2.1
  later y hy := by
    rintro _ ⟨⟩
    exact (List.pairwise_append.mp h.sorted).2.2 last (List.mem_of_getLast? hlast) y hy
  older y hy := h.older y (List.mem_append_right _ hy)
  mem k b hb := by
    rw [Nat.add_assoc, Nat.add_comm 1 k]
    exact h.mem (k + 1) b hb

/-- A cursor that lies further back leaves at least as much. -/
lemma Crowds.mono (h : Crowds batchSize candidates page after x blocks)
    {after' : Option RecoveryDiscoveryCursor}
    (hafter : ∀ a ∈ after', ∃ b ∈ after, a.key ≤ b.key) :
    Crowds batchSize candidates page after' x blocks where
  length := h.length
  sorted := h.sorted
  later y hy a ha := by
    obtain ⟨b, hb, hle⟩ := hafter a ha
    exact hle.trans_lt (h.later y hy b hb)
  older := h.older
  mem := h.mem

/-- A block in front of the blocks behind its last attempt. -/
lemma Crowds.cons (h : Crowds batchSize candidates (page + 1) (some last) x blocks)
    (hlength : block.length = batchSize) (hsorted : block.Pairwise (·.key < ·.key))
    (hlast : block.getLast? = some last) (hafter : ∀ y ∈ block, ∀ a ∈ after, a.key < y.key)
    (hx : last.key < x.key) (hmem : ∀ y ∈ block, ∃ c ∈ candidates page, c.cursor = y) :
    Crowds batchSize candidates page after x (block :: blocks) := by
  have hle : ∀ y ∈ block, y.key ≤ last.key := by
    intro y hy
    obtain ⟨init, rfl⟩ := List.getLast?_eq_some_iff.mp hlast
    rcases List.mem_append.mp hy with hy | hy
    · exact ((List.pairwise_append.mp hsorted).2.2 y hy last (List.mem_singleton_self last)).le
    · rw [List.mem_singleton.mp hy]
  have hlastAfter : ∀ a ∈ after, a.key < last.key := hafter last (List.mem_of_getLast? hlast)
  refine ⟨?_, ?_, ?_, ?_, ?_⟩
  · exact List.forall_mem_cons.mpr ⟨hlength, h.length⟩
  · exact List.pairwise_append.mpr ⟨hsorted, h.sorted, fun y hy z hz =>
      (hle y hy).trans_lt (h.later z hz last rfl)⟩
  · intro y hy a ha
    rcases List.mem_append.mp hy with hy | hy
    · exact hafter y hy a ha
    · exact (hlastAfter a ha).trans (h.later y hy last rfl)
  · intro y hy
    rcases List.mem_append.mp hy with hy | hy
    · exact (hle y hy).trans_lt hx
    · exact h.older y hy
  · intro k b hb
    cases k with
    | zero =>
      obtain rfl := Option.some.inj hb
      exact hmem
    | succ k =>
      rw [Nat.add_comm k 1, ← Nat.add_assoc]
      exact h.mem k b hb

end Crowds

/-! ## What a sweep processes -/

section Sweep

variable {Outcome : Type} [DecidableEq Outcome] {config : ConversationWorkerRunnerConfig}
  {candidates : ℕ → List RecoveryCandidate} {process : RecoveryCandidate → Option Outcome}

instance recoveryKeyTotal : Std.Total fun c c' : RecoveryCandidate => c.key ≤ c'.key where
  total c c' := le_total c.key c'.key

instance recoveryKeyTrans : IsTrans RecoveryCandidate fun c c' => c.key ≤ c'.key where
  trans _ _ _ := le_trans

/-- The arguments are within the bounds, and the query returns a page of the candidates. -/
lemma exists_recoveryCandidates (config : ConversationWorkerRunnerConfig)
    (rows : List RecoveryCandidate) (after : Option RecoveryDiscoveryCursor) :
    ∃ page, aiTurnRecoveryCandidates rows config.recoveryGraceMs config.batchSize after = .ok page ∧
      IsPage RecoveryCandidate.key rows (after.map RecoveryDiscoveryCursor.key) config.batchSize
        page := by
  obtain ⟨hgrace, hgrace'⟩ := config.grace_bounds
  obtain ⟨hbatch, hbatch'⟩ := config.batch_bounds
  refine ⟨_, ?_, _, List.perm_insertionSort _ _, List.pairwise_insertionSort _ _, rfl⟩
  unfold aiTurnRecoveryCandidates
  rw [rejectIf_of_not (by omega), rejectIf_of_not (by omega)]
  rfl

/-- One page of the loop. -/
lemma conversationSweepPages_succ {pages page : ℕ} {s : ConversationSweep Outcome}
    {rows : List RecoveryCandidate}
    (h : aiTurnRecoveryCandidates (candidates page) config.recoveryGraceMs config.batchSize s.cursor =
      .ok rows) :
    conversationSweepPages config candidates process (pages + 1) page s =
      if rows.length < config.batchSize then .ok (s.process process rows)
      else conversationSweepPages config candidates process pages (page + 1)
        { s.process process rows with cursor := rows.getLast?.map RecoveryCandidate.cursor } := by
  rw [conversationSweepPages, h]
  rfl

/-- The loop comes to an end and processes at least what was processed before. -/
lemma exists_conversationSweepPages (pages page : ℕ) (s : ConversationSweep Outcome) :
    ∃ s', conversationSweepPages config candidates process pages page s = .ok s' ∧
      s.visited ⊆ s'.visited := by
  induction pages generalizing page s with
  | zero => exact ⟨s, rfl, List.Subset.refl _⟩
  | succ pages ih =>
    obtain ⟨rows, hrows, -⟩ := exists_recoveryCandidates config (candidates page) s.cursor
    rw [conversationSweepPages_succ hrows]
    split
    · exact ⟨_, rfl, List.subset_append_left _ _⟩
    · obtain ⟨s', hs', hsub⟩ := ih (page + 1)
        { s.process process rows with cursor := rows.getLast?.map RecoveryCandidate.cursor }
      exact ⟨s', hs', fun c hc => hsub (List.mem_append_left _ hc)⟩

/-- A crowded loop processes only older attempts. -/
lemma older_of_crowds {x : RecoveryDiscoveryCursor}
    {blocks : List (List RecoveryDiscoveryCursor)} {page : ℕ} {s s' : ConversationSweep Outcome}
    (hblocks : Crowds config.batchSize candidates page s.cursor x blocks)
    (hs : conversationSweepPages config candidates process blocks.length page s = .ok s') :
    ∀ c ∈ s'.visited, c ∈ s.visited ∨ c.key < x.key := by
  induction blocks generalizing page s with
  | nil =>
    obtain rfl := Except.ok.inj hs
    exact fun c hc => .inl hc
  | cons block blocks ih =>
    obtain ⟨rows, hrows, hpage⟩ := exists_recoveryCandidates config (candidates page) s.cursor
    rw [List.length_cons, conversationSweepPages_succ hrows] at hs
    have hlength := hblocks.length block List.mem_cons_self
    have hpos : 0 < block.length := hlength ▸ config.batch_bounds.1
    obtain ⟨last, hlast⟩ : ∃ last, block.getLast? = some last :=
      ⟨_, List.getLast?_eq_some_getLast (List.length_pos_iff.mp hpos)⟩
    have hsorted := (List.pairwise_append.mp hblocks.sorted).1
    have hmemLast := List.mem_append_left blocks.flatten (List.mem_of_getLast? hlast)
    -- The block is among the candidates, so the page ends at its last attempt or before.
    have hfull : rows.length = config.batchSize ∧ ∀ r ∈ rows, r.key ≤ last.key := by
      have hkeys : (block.map RecoveryDiscoveryCursor.key).Pairwise (· < ·) :=
        List.pairwise_map.mpr hsorted
      refine hpage.le_of_block hkeys.nodup (by rw [List.length_map, hlength]) ?_ ?_
      · intro k hk
        obtain ⟨y, hy, rfl⟩ := List.mem_map.mp hk
        obtain ⟨c, hc, rfl⟩ := hblocks.mem 0 block rfl y hy
        refine ⟨⟨c, hc, rfl⟩, fun a ha => ?_⟩
        obtain ⟨b, hb, rfl⟩ := Option.map_eq_some_iff.mp ha
        exact hblocks.later _ (List.mem_append_left _ hy) b hb
      · intro k hk
        obtain ⟨y, hy, rfl⟩ := List.mem_map.mp hk
        obtain ⟨init, hinit⟩ := List.getLast?_eq_some_iff.mp hlast
        rw [hinit] at hsorted hy
        rcases List.mem_append.mp hy with hy | hy
        · exact ((List.pairwise_append.mp hsorted).2.2 y hy last (List.mem_singleton_self last)).le
        · rw [List.mem_singleton.mp hy]
    rw [if_neg (by omega)] at hs
    have hbehind : ∀ a ∈ rows.getLast?.map RecoveryCandidate.cursor, ∃ b ∈ some last,
        a.key ≤ b.key := by
      intro a ha
      obtain ⟨r, hr, rfl⟩ := Option.map_eq_some_iff.mp ha
      exact ⟨last, rfl, hfull.2 r (List.mem_of_getLast? hr)⟩
    have htail := (hblocks.tail hlast).mono hbehind
    intro c hc
    rcases ih htail hs c hc with hc | hc
    · rcases List.mem_append.mp hc with hc | hc
      · exact .inl hc
      · exact .inr ((hfull.2 c hc).trans_lt (hblocks.older last hmemLast))
    · exact .inr hc

/-- A loop that does not process an attempt which stays a candidate is crowded before it. -/
lemma crowds_of_not_visited {x : RecoveryDiscoveryCursor} {pages page : ℕ}
    {s s' : ConversationSweep Outcome}
    (hnodup : ∀ k, ((candidates k).map RecoveryCandidate.key).Nodup)
    (hstays : ∀ k, ∃ c ∈ candidates k, c.cursor = x) (hcursor : ∀ a ∈ s.cursor, a.key < x.key)
    (hs : conversationSweepPages config candidates process pages page s = .ok s')
    (hx : ∀ c ∈ s'.visited, c.cursor ≠ x) :
    ∃ blocks, blocks.length = pages ∧
      Crowds config.batchSize candidates page s.cursor x blocks := by
  induction pages generalizing page s with
  | zero =>
    refine ⟨[], rfl, List.forall_mem_nil _, List.Pairwise.nil, List.forall_mem_nil _,
      List.forall_mem_nil _, ?_⟩
    rintro k block h
    cases h
  | succ pages ih =>
    obtain ⟨rows, hrows, hpage⟩ := exists_recoveryCandidates config (candidates page) s.cursor
    rw [conversationSweepPages_succ hrows] at hs
    obtain ⟨c, hc, rfl⟩ := hstays page
    have hafter : ∀ k ∈ s.cursor.map RecoveryDiscoveryCursor.key, k < c.key := by
      intro k hk
      obtain ⟨a, ha, rfl⟩ := Option.map_eq_some_iff.mp hk
      exact hcursor a ha
    have hinj : ∀ r ∈ candidates page, r.key = c.key → r = c :=
      fun r hr h => List.inj_on_of_nodup_map (hnodup page) hr hc h
    have hunseen : c ∉ rows := by
      intro hmem
      split at hs
      · obtain rfl := Except.ok.inj hs
        exact hx c (List.mem_append_right _ hmem) rfl
      · obtain ⟨s'', hs'', hsub⟩ : ∃ s'', conversationSweepPages config candidates process pages
            (page + 1) { s.process process rows with
              cursor := rows.getLast?.map RecoveryCandidate.cursor } = .ok s'' ∧ _ ⊆ s''.visited :=
          exists_conversationSweepPages pages (page + 1) _
        obtain rfl := Except.ok.inj (hs''.symm.trans hs)
        exact hx c (hsub (List.mem_append_right _ hmem)) rfl
    obtain ⟨last, hlast, hlength, hlt⟩ :=
      (hpage.mem_or_later config.batch_bounds.1 hc hafter hinj).resolve_left hunseen
    rw [if_neg (by omega), hlast] at hs
    obtain ⟨blocks, hblocks, hcrowds⟩ := ih (by rintro _ ⟨⟩; exact hlt) hs
    refine ⟨rows.map RecoveryCandidate.cursor :: blocks, by rw [List.length_cons, hblocks], ?_⟩
    have hlastCursor : (rows.map RecoveryCandidate.cursor).getLast? = some last.cursor := by
      rw [List.getLast?_map, hlast]
      rfl
    refine hcrowds.cons ?_ ?_ hlastCursor ?_ hlt ?_
    · rw [List.length_map, hlength]
    · exact List.pairwise_map.mpr (hpage.pairwise_lt (hnodup page))
    · intro y hy a ha
      obtain ⟨r, hr, rfl⟩ := List.mem_map.mp hy
      exact (hpage.mem hr).2 a.key (Option.mem_map_of_mem _ ha)
    · intro y hy
      obtain ⟨r, hr, rfl⟩ := List.mem_map.mp hy
      exact ⟨r, (hpage.mem hr).1, rfl⟩

/-- `processCandidate` is called with the attempt in one of the sweeps. -/
def Processed (config : ConversationWorkerRunnerConfig) (history : CandidateHistory)
    (processCandidate : ℕ → RecoveryCandidate → Option Outcome) (x : RecoveryDiscoveryCursor) : Prop :=
  ∃ n sweep, runConversationSweepOnce config history processCandidate n = .ok sweep ∧
    ∃ c ∈ sweep.visited, c.cursor = x

/-- **One attempt.** An attempt that stays a candidate is processed exactly if the pages of one of the
sweeps are not filled with older ones. -/
lemma processed_iff_not_crowded {history : CandidateHistory}
    {processCandidate : ℕ → RecoveryCandidate → Option Outcome} {x : RecoveryDiscoveryCursor}
    (hstays : StaysCandidate history x) :
    Processed config history processCandidate x ↔
      ∃ n, ¬Crowded config (history.candidates n) x := by
  refine exists_congr fun n => ?_
  have hrun : runConversationSweepOnce config history processCandidate n =
      conversationSweepPages config (history.candidates n) (processCandidate n)
        config.maxPagesPerSweep 0 ⟨⟨0, 0, fun _ => 0⟩, none, []⟩ := by
    obtain ⟨hbatch, hbatch'⟩ := config.batch_bounds
    rw [runConversationSweepOnce, rejectIf_of_not (by omega)]
    rfl
  rw [hrun]
  constructor
  · rintro ⟨sweep, hsweep, c, hc, rfl⟩ ⟨blocks, hlength, hblocks⟩
    rw [← hlength] at hsweep
    rcases older_of_crowds hblocks hsweep c hc with h | h
    · cases h
    · exact lt_irrefl _ h
  · intro hfree
    obtain ⟨sweep, hsweep, -⟩ : ∃ s', conversationSweepPages config (history.candidates n)
        (processCandidate n) config.maxPagesPerSweep 0 ⟨⟨0, 0, fun _ => 0⟩, none, []⟩ = .ok s' ∧ _ :=
      exists_conversationSweepPages _ _ _
    refine ⟨sweep, hsweep, ?_⟩
    by_contra hunseen
    push Not at hunseen
    exact hfree (crowds_of_not_visited (history.keys_nodup n) (hstays n) (by simp) hsweep hunseen)

/-- A sweep that meets fewer older attempts than its pages hold is not crowded. -/
lemma not_crowded_of_few {x : RecoveryDiscoveryCursor} (seen : List RecoveryDiscoveryCursor)
    (hseen : ∀ k, ∀ c ∈ candidates k, c.key < x.key → c.cursor ∈ seen)
    (hfew : seen.length < config.maxPagesPerSweep * config.batchSize) :
    ¬Crowded config candidates x := by
  rintro ⟨blocks, hlength, hblocks⟩
  have hsum : blocks.flatten.length = config.maxPagesPerSweep * config.batchSize := by
    rw [List.length_flatten, List.map_congr_left hblocks.length, List.map_const', List.sum_replicate_nat,
      hlength]
  have hnodup : blocks.flatten.Nodup := hblocks.sorted.imp fun h heq => by
    rw [heq] at h
    exact lt_irrefl _ h
  have hsub : blocks.flatten ⊆ seen := by
    intro y hy
    obtain ⟨block, hblock, hmem⟩ := List.mem_flatten.mp hy
    obtain ⟨k, hk⟩ := List.mem_iff_getElem?.mp hblock
    obtain ⟨c, hc, rfl⟩ := hblocks.mem k block hk y hmem
    exact hseen _ c hc (hblocks.older _ hy)
  have hle := (hnodup.subperm hsub).length_le
  omega

end Sweep

/-- **Starvation.** In every history, and whatever the processing of a candidate does, the sweeps
process every attempt that stays a candidate if and only if for each of them there is a sweep whose
pages are not filled with older candidates. -/
theorem conversation_sweep_fair_iff {Outcome : Type} [DecidableEq Outcome]
    (config : ConversationWorkerRunnerConfig) (history : CandidateHistory)
    (processCandidate : ℕ → RecoveryCandidate → Option Outcome) :
    (∀ x, StaysCandidate history x → Processed config history processCandidate x) ↔
      ∀ x, StaysCandidate history x → ∃ n, ¬Crowded config (history.candidates n) x :=
  forall_congr' fun _ => forall_congr' fun hstays => processed_iff_not_crowded hstays

/-- A queued attempt. -/
def sampleQueued (createdAt : ℤ) (attemptId : Uuid) : RecoveryCandidate where
  orgId := 1
  ownerUserId := 2
  conversationId := 3
  turnId := attemptId
  attemptId := attemptId
  state := .accepted
  reason := .queuedHead
  claimToken := none
  isBranchHead := true
  attemptCreatedAt := createdAt

/-- Two queued attempts that no processing advances. -/
def sampleStuck : CandidateHistory where
  candidates _ _ := [sampleQueued 100 11, sampleQueued 200 12]
  keys_nodup _ _ := by decide

/-- One page of one candidate in a sweep. -/
def sampleRunnerConfig : ConversationWorkerRunnerConfig where
  batchSize := 1
  maxPagesPerSweep := 1
  recoveryGraceMs := 0
  batch_bounds := by decide
  grace_bounds := by decide

/-- The older attempt fails in every sweep, and the younger one is never processed. -/
theorem younger_attempt_starves :
    ¬∀ x, StaysCandidate sampleStuck x →
      Processed sampleRunnerConfig sampleStuck (fun _ _ => (none : Option Unit)) x := by
  intro h
  have hstays : StaysCandidate sampleStuck ⟨200, 12⟩ :=
    fun _ _ => ⟨sampleQueued 200 12, List.mem_cons_of_mem _ List.mem_cons_self, rfl⟩
  obtain ⟨n, hfree⟩ := (processed_iff_not_crowded hstays).mp (h _ hstays)
  refine hfree ⟨[[⟨100, 11⟩]], rfl, ?_, ?_, ?_, ?_, ?_⟩
  · decide
  · exact List.pairwise_singleton _ _
  · exact fun _ _ _ ha => by cases ha
  · decide
  · intro k block hblock y hy
    cases k with
    | zero =>
      obtain rfl := Option.some.inj hblock
      rw [List.mem_singleton.mp hy]
      exact ⟨sampleQueued 100 11, List.mem_cons_self, rfl⟩
    | succ k => cases hblock

end GovAI
