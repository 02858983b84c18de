import GovAI.Evidence.GapPages
import Mathlib.Algebra.Order.Field.Basic
import Mathlib.Tactic.NormNum.Core

/-!
# The evidence summary and its gap lists

The summary counts gaps by queries of its own.  They agree with the lists: each list has as many rows
as the summary says, also when it is read page by page.  A chain is counted as gapped if its numbers
in the window are fewer than the distance of their ends; the list finds the same chains by their
jumps, and names the least missing number and how many are missing.  So the coverage is complete
exactly if there are no gaps.
-/

namespace GovAI

variable {db : EvidenceTables} {now : ℤ} {window : ReportWindow}

/-! ## Captures and invocations -/

/-- A capture that stalls has not failed. -/
lemma ReportWindow.not_failed_of_stalled {row : OutboxRow} (h : window.stalled now row) :
    row.lifecycle.status ≠ .failed := by
  intro hfailed
  rw [ReportWindow.stalled, hfailed] at h
  simp at h

/-- The rows that have one of two properties, if none has both. -/
lemma countP_add_of_disjoint {ρ : Type} {p q : ρ → Bool} {rows : List ρ}
    (h : ∀ r ∈ rows, q r → ¬p r) :
    rows.countP p + rows.countP q = rows.countP fun r => p r || q r := by
  induction rows with
  | nil => rfl
  | cons r rows ih =>
    have ih := ih fun r' hr' => h r' (List.mem_cons_of_mem _ hr')
    have hr := h r List.mem_cons_self
    rw [List.countP_cons, List.countP_cons, List.countP_cons, ← ih]
    by_cases hq : q r
    · simp [hq, hr hq]
      omega
    · by_cases hp : p r
      · simp [hq, hp]
        omega
      · simp [hq, hp]

/-- The list of captures has as many rows as the summary counts. -/
lemma length_ec1GapRows : (ec1GapRows db now window).length =
    (evidenceCounts db now window).ec1.failed + (evidenceCounts db now window).ec1.stalledPastSlo := by
  change _ = (capturesInWindow db now window).countP _ + (capturesInWindow db now window).countP _
  rw [countP_add_of_disjoint fun row _ h => by
    simpa using ReportWindow.not_failed_of_stalled h, capturesInWindow, List.countP_filter,
    ec1GapRows, List.length_map, ← List.countP_eq_length_filter]
  refine List.countP_congr fun row _ => ?_
  simp only [Bool.or_eq_true, Bool.and_eq_true, decide_eq_true_eq]
  tauto

/-- The list of native captures has as many rows as the summary counts. -/
lemma length_ec3SealRows : (ec3SealRows db now window).length =
    (evidenceCounts db now window).ec3seal.nativeUnsealedPastSlo := by
  change _ = (nativeCapturesInWindow db now window).countP _
  rw [nativeCapturesInWindow, capturesInWindow, List.countP_filter, List.countP_filter, ec3SealRows,
    List.length_map, ← List.countP_eq_length_filter]
  refine List.countP_congr fun row _ => ?_
  simp only [Bool.and_eq_true, decide_eq_true_eq]
  tauto

/-- The list of invocations has as many rows as the summary counts. -/
lemma length_ec4Rows : (ec4Rows db now window).length =
    (evidenceCounts db now window).ec4.withoutTerminal := by
  change _ = (evidenceProviderWithoutAudit db).countP _
  rw [ec4Rows, List.countP_eq_length_filter]

/-! ## Chains -/

/-- The numbers of a chain differ. -/
lemma chainSeqs_nodup (chainId : String) : (chainSeqs db now window chainId).Nodup := by
  rw [chainSeqs, List.Nodup, List.pairwise_map]
  have hwindow := db.captureSeqs_ne.sublist
    (List.filter_sublist (p := fun row => window.contains now row.capturedAt))
  refine List.pairwise_filter.mpr (hwindow.imp fun hne ha hb => hne ?_)
  rw [of_decide_eq_true ha, of_decide_eq_true hb]

/-- A chain counts as gapped exactly if it is listed. -/
lemma chainStatsOf_gapped_iff (chainId : String) :
    (∃ stats ∈ chainStatsOf db now window chainId, stats.gapped) ↔
      (ec2GapRowOf db now window chainId).isSome := by
  have hnodup : (chainSeqs db now window chainId).Nodup := chainSeqs_nodup chainId
  have hrow : (ec2GapRowOf db now window chainId).isSome ↔
      jumps (chainSeqs db now window chainId) ≠ [] := by
    rw [ec2GapRowOf, Option.isSome_map, Option.isSome_iff_ne_none, Ne, Ne, List.min?_eq_none_iff,
      List.map_eq_nil_iff]
  rw [hrow]
  cases hlo : (chainSeqs db now window chainId).min? with
  | none =>
    have hnil : chainSeqs db now window chainId = [] := List.min?_eq_none_iff.mp hlo
    simp [chainStatsOf, hnil, jumps, withNext]
  | some lo =>
    obtain ⟨hi, hhi⟩ : ∃ hi, (chainSeqs db now window chainId).max? = some hi :=
      Option.ne_none_iff_exists'.mp fun hnone => by
        rw [List.max?_eq_none_iff.mp hnone] at hlo
        cases hlo
    rw [← length_ne_iff hnodup hlo hhi]
    simp [chainStatsOf, hlo, hhi, ChainStats.gapped]

/-- The list of chains has as many rows as the summary counts. -/
lemma length_ec2GapRows : (ec2GapRows db now window).length =
    (evidenceCounts db now window).ec2.chainsWithGap := by
  change _ = (chainStats db now window).countP _
  rw [ec2GapRows, chainStats, List.length_filterMap_eq_countP, List.countP_filterMap]
  refine List.countP_congr fun chainId _ => ?_
  rw [← chainStatsOf_gapped_iff]
  cases chainStatsOf db now window chainId with
  | none => simp
  | some stats => simp

/-- A row of the list tells what is missing in its chain. -/
lemma ec2GapRows_spec {row : Ec2GapRow} (h : row ∈ ec2GapRows db now window) :
    IsLeast (missing (chainSeqs db now window row.chainId)) row.firstGapSeq ∧
      row.gapCount = (missing (chainSeqs db now window row.chainId)).ncard := by
  obtain ⟨chainId, -, hrow⟩ := List.mem_filterMap.mp h
  obtain ⟨least, hleast, rfl⟩ := Option.map_eq_some_iff.mp hrow
  have hnodup : (chainSeqs db now window chainId).Nodup := chainSeqs_nodup chainId
  exact ⟨isLeast_missing hnodup hleast, sum_jumps hnodup⟩

/-! ## Coverage -/

/-- A term is sound if it covers no more than there is. -/
def CoverageTerm.Sound (term : CoverageTerm) : Prop :=
  0 ≤ term.covered ∧ term.covered ≤ term.total

/-- What the terms of sound counts leave uncovered. -/
lemma coverage_eq_one_iff {terms : List CoverageTerm} (h : ∀ term ∈ terms, term.Sound) :
    0 ≤ (terms.map (·.covered)).sum ∧
      (terms.map (·.covered)).sum ≤ (terms.map (·.total)).sum ∧
      ((terms.map (·.covered)).sum = (terms.map (·.total)).sum ↔
        ∀ term ∈ terms, term.covered = term.total) := by
  induction terms with
  | nil => simp
  | cons term terms ih =>
    obtain ⟨hpos, hle, hiff⟩ := ih fun t ht => h t (List.mem_cons_of_mem _ ht)
    obtain ⟨hterm, hterm'⟩ := h term List.mem_cons_self
    rw [List.map_cons, List.map_cons, List.sum_cons, List.sum_cons, List.forall_mem_cons, ← hiff]
    refine ⟨by omega, by omega, ?_⟩
    constructor
    · intro heq
      exact ⟨by omega, by omega⟩
    · rintro ⟨heq, heq'⟩
      omega

/-- The four gap lists are empty. -/
def NoGaps (db : EvidenceTables) (now : ℤ) (window : ReportWindow) : Prop :=
  ec1GapRows db now window = [] ∧ ec2GapRows db now window = [] ∧
    ec3SealRows db now window = [] ∧ ec4Rows db now window = []

/-- There are as many gaps as units at most. -/
lemma gapRows_length_le (db : EvidenceTables) (now : ℤ) (window : ReportWindow) :
    (ec1GapRows db now window).length ≤ (evidenceCounts db now window).ec1.total ∧
    (ec2GapRows db now window).length ≤ (evidenceCounts db now window).ec2.chains ∧
    (ec3SealRows db now window).length ≤ (evidenceCounts db now window).ec3seal.nativeTotal ∧
    (ec4Rows db now window).length ≤ (evidenceCounts db now window).ec4.providerInvocations := by
  refine ⟨?_, ?_, ?_, ?_⟩
  · change _ ≤ (capturesInWindow db now window).length
    rw [ec1GapRows, List.length_map, capturesInWindow, ← List.countP_eq_length_filter,
      ← List.countP_eq_length_filter]
    refine List.countP_mono_left fun row _ h => ?_
    exact (of_decide_eq_true h).1
  · rw [length_ec2GapRows]
    exact List.countP_le_length
  · rw [length_ec3SealRows]
    exact List.countP_le_length
  · rw [length_ec4Rows]
    exact List.filter_sublist.countP_le

/-- The terms that are always there are sound, and they cover everything exactly if there are no
gaps. -/
lemma coverageTerms_spec :
    (∀ term ∈ coverageTerms (evidenceCounts db now window), term.Sound) ∧
      ((∀ term ∈ coverageTerms (evidenceCounts db now window), term.covered = term.total) ↔
        NoGaps db now window) := by
  obtain ⟨hle₁, hle₂, hle₃, hle₄⟩ := gapRows_length_le db now window
  have h₁ : (ec1GapRows db now window).length = _ := length_ec1GapRows
  have h₂ : (ec2GapRows db now window).length = _ := length_ec2GapRows
  have h₃ : (ec3SealRows db now window).length = _ := length_ec3SealRows
  have h₄ : (ec4Rows db now window).length = _ := length_ec4Rows
  rw [NoGaps, ← List.length_eq_zero_iff, ← List.length_eq_zero_iff, ← List.length_eq_zero_iff,
    ← List.length_eq_zero_iff]
  simp only [coverageTerms, List.forall_mem_cons, CoverageTerm.Sound]
  refine ⟨⟨by omega, by omega, by omega, by omega, List.forall_mem_nil _⟩, ?_⟩
  constructor
  · rintro ⟨heq₁, heq₂, heq₃, heq₄, -⟩
    exact ⟨by omega, by omega, by omega, by omega⟩
  · rintro ⟨heq₁, heq₂, heq₃, heq₄⟩
    exact ⟨by omega, by omega, by omega, by omega, List.forall_mem_nil _⟩

/-- The drop estimate is a sound term. -/
lemma nativeDropEstimate_sound (snapshot : DropMetricsSnapshot) :
    0 ≤ (nativeDropEstimate snapshot).captures ∧ 0 ≤ (nativeDropEstimate snapshot).drops :=
  ⟨le_max_left _ _, le_max_left _ _⟩

/-- Every term of the headline is sound. -/
lemma coverageRatio_sound (snapshot : DropMetricsSnapshot) {term : CoverageTerm}
    (h : term ∈ (coverageRatio (evidenceCounts db now window)
      (nativeDropEstimate snapshot)).terms) : term.Sound := by
  obtain ⟨hcaptures, hdrops⟩ := nativeDropEstimate_sound snapshot
  rcases List.mem_append.mp h with h | h
  · exact coverageTerms_spec.1 term h
  · by_cases hobserved : (nativeDropEstimate snapshot).observed
    · rw [if_pos hobserved, List.mem_singleton] at h
      subst h
      exact ⟨hcaptures, le_add_of_nonneg_right hdrops⟩
    · rw [if_neg hobserved] at h
      cases h

/-- Without drops the headline is complete exactly if there are no gaps. -/
lemma coverageRatio_eq_one_iff (snapshot : DropMetricsSnapshot)
    (hdrops : (nativeDropEstimate snapshot).drops = 0) :
    (coverageRatio (evidenceCounts db now window) (nativeDropEstimate snapshot)).ratio ≤ 1 ∧
      ((coverageRatio (evidenceCounts db now window) (nativeDropEstimate snapshot)).ratio = 1 ↔
        NoGaps db now window) := by
  have hterms : (∀ term ∈ (coverageRatio (evidenceCounts db now window)
      (nativeDropEstimate snapshot)).terms, term.covered = term.total) ↔ NoGaps db now window := by
    rw [← coverageTerms_spec.2]
    refine List.forall_mem_append.trans (and_iff_left ?_)
    intro term hterm
    by_cases hobserved : (nativeDropEstimate snapshot).observed
    · rw [if_pos hobserved, List.mem_singleton] at hterm
      subst hterm
      change _ = _ + _
      rw [hdrops, add_zero]
    · rw [if_neg hobserved] at hterm
      cases hterm
  obtain ⟨hpos, hle, hiff⟩ := coverage_eq_one_iff fun term (hterm : term ∈ (coverageRatio
    (evidenceCounts db now window) (nativeDropEstimate snapshot)).terms) =>
      coverageRatio_sound snapshot hterm
  rw [← hterms, ← hiff]
  set terms := (coverageRatio (evidenceCounts db now window) (nativeDropEstimate snapshot)).terms
  have hratio : (coverageRatio (evidenceCounts db now window) (nativeDropEstimate snapshot)).ratio =
      if (terms.map (·.total)).sum > 0
      then (((terms.map (·.covered)).sum : ℤ) : ℚ) / ((terms.map (·.total)).sum : ℤ) else 1 := rfl
  rw [hratio]
  by_cases htotal : (terms.map (·.total)).sum > 0
  · rw [if_pos htotal]
    have hcast : (0 : ℚ) < ((terms.map (·.total)).sum : ℤ) := by exact_mod_cast htotal
    rw [div_le_one hcast, div_eq_one_iff_eq hcast.ne']
    exact ⟨by exact_mod_cast hle, by norm_cast⟩
  · rw [if_neg htotal]
    refine ⟨le_rfl, iff_of_true rfl ?_⟩
    omega

/-! ## Parity -/

/-- How many gaps of an invariant the summary counts; the drop estimate is no list of gaps. -/
def EvidenceCounts.gaps (counts : EvidenceCounts) : GapInvariant → ℕ
  | .ec1 => counts.ec1.failed + counts.ec1.stalledPastSlo
  | .ec2 => counts.ec2.chainsWithGap
  | .ec3seal => counts.ec3seal.nativeUnsealedPastSlo
  | .ec3drop => 0
  | .ec4 => counts.ec4.withoutTerminal

/-- **Parity.** Read page by page, the gap lists have as many rows as the summary counts; a listed
chain has its least missing number and the number of missing ones; the terms of the coverage are
sound, and without drops the ratio is at most 1, and 1 exactly if the lists are empty. -/
theorem evidence_summary_parity {κ : Type} [LinearOrder κ] {collate : String ↪ κ}
    (orders : GapOrders db now window collate) {limit : ℕ} (hpos : 1 ≤ limit) (hmax : limit ≤ 500)
    (snapshot : DropMetricsSnapshot) :
    (∀ invariant, invariant ≠ .ec3drop → ∃ items,
      readGaps orders invariant limit ((gapRows db now window invariant).length / limit + 1) =
        some items ∧ items.length = (evidenceCounts db now window).gaps invariant) ∧
    (∀ scope, ∀ row ∈ ec2Gaps orders scope,
      IsLeast (missing (chainSeqs db now window row.chainId)) row.firstGapSeq ∧
        row.gapCount = (missing (chainSeqs db now window row.chainId)).ncard) ∧
    (∀ term ∈ (coverageRatio (evidenceCounts db now window) (nativeDropEstimate snapshot)).terms,
      0 ≤ term.covered ∧ term.covered ≤ term.total) ∧
    ((nativeDropEstimate snapshot).drops = 0 →
      (coverageRatio (evidenceCounts db now window) (nativeDropEstimate snapshot)).ratio ≤ 1 ∧
        ((coverageRatio (evidenceCounts db now window) (nativeDropEstimate snapshot)).ratio = 1 ↔
          NoGaps db now window)) := by
  refine ⟨fun invariant hlist => ?_, fun scope row hrow => ?_, fun term => coverageRatio_sound snapshot,
    coverageRatio_eq_one_iff snapshot⟩
  · cases invariant with
    | ec1 =>
      obtain ⟨items, hitems, hlength⟩ := readGaps_length orders hpos hlist
        (gapItems_ec1 orders hmax) orders.ec1_ordered
      exact ⟨items, hitems, hlength.trans length_ec1GapRows⟩
    | ec2 =>
      obtain ⟨items, hitems, hlength⟩ := readGaps_length orders hpos hlist
        (gapItems_ec2 orders hmax) orders.ec2_ordered
      exact ⟨items, hitems, hlength.trans length_ec2GapRows⟩
    | ec3seal =>
      obtain ⟨items, hitems, hlength⟩ := readGaps_length orders hpos hlist
        (gapItems_ec3seal orders hmax) orders.ec3seal_ordered
      exact ⟨items, hitems, hlength.trans length_ec3SealRows⟩
    | ec3drop => exact absurd rfl hlist
    | ec4 =>
      obtain ⟨items, hitems, hlength⟩ := readGaps_length orders hpos hlist
        (gapItems_ec4 orders hmax) orders.ec4_ordered
      exact ⟨items, hitems, hlength.trans length_ec4Rows⟩
  · have hmem := List.mem_of_mem_drop (List.mem_of_mem_take hrow)
    exact ec2GapRows_spec ((orders.ec2_ordered _).perm.mem_iff.mp hmem)

/-- A chain with the numbers 1, 2, 5 and 9. -/
def sampleGappedTables : EvidenceTables where
  auditCaptureOutbox := [sampleFailedCapture 7 5, sampleFailedCapture 8 1, sampleFailedCapture 9 9,
    sampleFailedCapture 10 2]
  providerInvocations := []
  auditEvents := []
  captureIds_nodup := by decide
  captureSeqs_ne := by decide
  invocationIds_nodup := sampleTiedTables.invocationIds_nodup

/-- In the sample five numbers are missing, the first of them is 3, and the ratio is not 1. -/
theorem evidence_summary_parity_sample :
    ec2GapRows sampleGappedTables 0 sampleWindow = [⟨"org:1:run", 3, 5⟩] ∧
    (∃ orders : GapOrders sampleGappedTables 0 sampleWindow (Function.Embedding.refl String),
      ∃ items, readGaps orders .ec1 2 3 = some items ∧ items.length = 4) ∧
    (coverageRatio (evidenceCounts sampleGappedTables 0 sampleWindow)
      (nativeDropEstimate zeroDropSnapshot)).ratio ≠ 1 := by
  have hrows : ec2GapRows sampleGappedTables 0 sampleWindow = [⟨"org:1:run", 3, 5⟩] := by decide
  obtain ⟨orders⟩ := exists_gapOrders sampleGappedTables 0 sampleWindow
    (Function.Embedding.refl String)
  obtain ⟨hread, -, -, hratio⟩ := @evidence_summary_parity _ _ _ _ _ _ orders 2 (by decide)
    (by decide) zeroDropSnapshot
  refine ⟨hrows, ⟨orders, hread .ec1 (by decide)⟩, fun hone => ?_⟩
  have hnone := ((hratio rfl).2.mp hone).2.1
  rw [hrows] at hnone
  cases hnone

end GovAI
