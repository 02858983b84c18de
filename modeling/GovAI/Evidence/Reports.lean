import GovAI.Capture.Outbox
import GovAI.Library.OffsetPaging
import GovAI.Library.SequenceGaps
import Mathlib.Algebra.Order.Field.Rat

/-!
# Evidence reports

The queries of `evidence-reports.ts` over the rows that one organisation sees: the counts of
`evidenceCounts`, the gap lists `ec1GapList`, `ec2Gaps`, `ec3SealList` and `ec4List`, the estimate
`nativeDropEstimate` and the headline `coverageRatio`.  `now` is the instant of the transaction in
microseconds.  A gap list has the rows of its query in an order that agrees with `ORDER BY`; where
rows tie, the database chooses.  Sequence numbers start at 1 and are bigints, so that no difference
of two of them leaves the range.
-/

namespace GovAI

/-! ## Tables -/

/-- The columns of `provider_invocations` that the reports read. -/
structure ProviderInvocation where
  id : Uuid
  runId : Uuid
  provider : String
  nativeEndpoint : String
  statusCode : Option ℤ
  errorClass : Option String
  /-- Microseconds from the epoch. -/
  createdAt : ℤ
deriving DecidableEq

/-- The tables that the reports read, with their keys. -/
structure EvidenceTables where
  auditCaptureOutbox : List OutboxRow
  providerInvocations : List ProviderInvocation
  auditEvents : List EventRow
  captureIds_nodup : (auditCaptureOutbox.map (·.captureId)).Nodup
  captureSeqs_ne : auditCaptureOutbox.Pairwise fun a b =>
    a.content.chainId = b.content.chainId → a.captureSeq ≠ b.captureSeq
  invocationIds_nodup : (providerInvocations.map (·.id)).Nodup

/-- The part of `ReportScope` that says which rows are looked at. -/
structure ReportWindow where
  windowSeconds : ℤ
  tSealSeconds : ℤ

/-- `ReportScope` -/
structure ReportScope extends ReportWindow where
  sampleLimit : Option ℕ
  offset : Option ℕ

/-- `DEFAULT_SAMPLE_LIMIT` -/
def defaultSampleLimit : ℕ := 100

/-- `sampleLimitOf` -/
def sampleLimitOf (scope : ReportScope) : ℕ :=
  min (scope.sampleLimit.getD defaultSampleLimit) 500

/-- `make_interval(secs => s)`, in microseconds. -/
def makeInterval (secs : ℤ) : ℤ := secs * 1000000

variable (db : EvidenceTables) (now : ℤ) (window : ReportWindow)

/-- The time `t` lies in the window of the report. -/
def ReportWindow.contains (t : ℤ) : Bool :=
  t ≥ now - makeInterval window.windowSeconds

/-- The capture is neither sealed nor failed and older than the seal target. -/
def ReportWindow.stalled (row : OutboxRow) : Bool :=
  row.lifecycle.status ∈ [.captured, .sealing] ∧
    row.capturedAt ≤ now - makeInterval window.tSealSeconds

/-- `NATIVE_CHAIN_CATEGORIES` -/
def nativeChainCategories : List ChainCategory := [.run]

/-- The captures in the window. -/
def capturesInWindow : List OutboxRow :=
  db.auditCaptureOutbox.filter fun row => window.contains now row.capturedAt

/-- The native captures in the window. -/
def nativeCapturesInWindow : List OutboxRow :=
  (capturesInWindow db now window).filter fun row =>
    row.content.chainCategory ∈ nativeChainCategories

/-- The values of `chain_id` in the window, each once. -/
def chainsInWindow : List String :=
  ((capturesInWindow db now window).map (·.content.chainId)).dedup

/-- The values of `capture_seq` of a chain in the window. -/
def chainSeqs (chainId : String) : List ℤ :=
  ((capturesInWindow db now window).filter (·.content.chainId = chainId)).map (·.captureSeq)

/-- The view `evidence_provider_without_audit`. -/
def evidenceProviderWithoutAudit : List ProviderInvocation :=
  db.providerInvocations.filter fun pi => ¬∃ ae ∈ db.auditEvents,
    ae.subjectType = "run" ∧ ae.subjectId = pi.runId ∧
      ae.eventType ∈ ["run.completed", "run.failed", "run.denied", "run.outcome_unknown"]

/-! ## Counts -/

/-- The counts of captures by their terminal state. -/
structure Ec1Counts where
  total : ℕ
  sealed : ℕ
  failed : ℕ
  stalledPastSlo : ℕ

/-- The counts of chains. -/
structure Ec2Counts where
  chains : ℕ
  chainsWithGap : ℕ

/-- The counts of native captures. -/
structure Ec3SealCounts where
  nativeTotal : ℕ
  nativeSealed : ℕ
  nativeUnsealedPastSlo : ℕ

/-- The counts of invocations. -/
structure Ec4Counts where
  providerInvocations : ℕ
  withoutTerminal : ℕ

/-- The counts of chains by their verification. -/
structure Ec6Counts where
  chains : ℕ
  verifiedOk : ℕ
  pending : ℕ

/-- `EvidenceCounts` -/
structure EvidenceCounts where
  ec1 : Ec1Counts
  ec2 : Ec2Counts
  ec3seal : Ec3SealCounts
  ec4 : Ec4Counts
  ec6 : Ec6Counts

/-- A row of `chain_stats`. -/
structure ChainStats where
  chainId : String
  cnt : ℕ
  minseq : ℤ
  maxseq : ℤ

/-- The group of a chain in `chain_stats`. -/
def chainStatsOf (chainId : String) : Option ChainStats := do
  let seqs := chainSeqs db now window chainId
  return { chainId, cnt := seqs.length, minseq := ← seqs.min?, maxseq := ← seqs.max? }

/-- `chain_stats` -/
def chainStats : List ChainStats :=
  (chainsInWindow db now window).filterMap (chainStatsOf db now window)

/-- The chain has a hole in the window. -/
def ChainStats.gapped (stats : ChainStats) : Bool :=
  (stats.cnt : ℤ) ≠ stats.maxseq - stats.minseq + 1

/-- `count(DISTINCT chain_id)` over the events in the window, whose times are milliseconds. -/
def eventChainsInWindow : ℕ :=
  ((db.auditEvents.filter fun ae => window.contains now (ae.occurredAt * 1000)).map
    (·.chainId)).dedup.length

/-- `evidenceCounts` -/
def evidenceCounts : EvidenceCounts where
  ec1 :=
    let rows := capturesInWindow db now window
    { total := rows.length
      sealed := rows.countP (·.lifecycle.status = .sealed)
      failed := rows.countP (·.lifecycle.status = .failed)
      stalledPastSlo := rows.countP (window.stalled now) }
  ec2 :=
    let stats := chainStats db now window
    { chains := stats.length
      chainsWithGap := stats.countP ChainStats.gapped }
  ec3seal :=
    let rows := nativeCapturesInWindow db now window
    { nativeTotal := rows.length
      nativeSealed := rows.countP (·.lifecycle.status = .sealed)
      nativeUnsealedPastSlo := rows.countP (window.stalled now) }
  ec4 :=
    { providerInvocations :=
        db.providerInvocations.countP fun pi => window.contains now pi.createdAt
      withoutTerminal :=
        (evidenceProviderWithoutAudit db).countP fun pi => window.contains now pi.createdAt }
  ec6 :=
    let chains := eventChainsInWindow db now window
    { chains, verifiedOk := 0, pending := chains }

/-! ## Gap lists -/

/-- `Ec1GapRow` -/
structure Ec1GapRow where
  captureId : Uuid
  chainId : String
  chainCategory : ChainCategory
  status : CaptureStatus
  capturedAt : ℤ
  attempts : ℤ
  lastError : Option String
deriving DecidableEq

/-- The columns that `ec1GapList` selects. -/
def Ec1GapRow.ofRow (row : OutboxRow) : Ec1GapRow :=
  ⟨row.captureId, row.content.chainId, row.content.chainCategory, row.lifecycle.status,
    row.capturedAt, row.lifecycle.attempts, row.lifecycle.lastError⟩

/-- The rows of the query of `ec1GapList`, before `LIMIT` and `OFFSET`. -/
def ec1GapRows : List Ec1GapRow :=
  ((db.auditCaptureOutbox.filter fun row => window.contains now row.capturedAt ∧
    (row.lifecycle.status = .failed ∨ window.stalled now row)).map Ec1GapRow.ofRow)

/-- `Ec2GapRow` -/
structure Ec2GapRow where
  chainId : String
  firstGapSeq : ℤ
  gapCount : ℤ
deriving DecidableEq

/-- The group of a chain among the jumps. -/
def ec2GapRowOf (chainId : String) : Option Ec2GapRow :=
  let jumps := jumps (chainSeqs db now window chainId)
  ((jumps.map Prod.fst).min?).map fun least =>
    { chainId
      firstGapSeq := least + 1
      gapCount := (jumps.map fun p => p.2 - p.1 - 1).sum }

/-- The rows of the query of `ec2Gaps`, before `LIMIT` and `OFFSET`. -/
def ec2GapRows : List Ec2GapRow :=
  (chainsInWindow db now window).filterMap (ec2GapRowOf db now window)

/-- `Ec3SealRow` -/
structure Ec3SealRow where
  captureId : Uuid
  chainId : String
  chainCategory : ChainCategory
  status : CaptureStatus
  capturedAt : ℤ
deriving DecidableEq

/-- The columns that `ec3SealList` selects. -/
def Ec3SealRow.ofRow (row : OutboxRow) : Ec3SealRow :=
  ⟨row.captureId, row.content.chainId, row.content.chainCategory, row.lifecycle.status,
    row.capturedAt⟩

/-- The rows of the query of `ec3SealList`, before `LIMIT` and `OFFSET`. -/
def ec3SealRows : List Ec3SealRow :=
  (db.auditCaptureOutbox.filter fun row => row.content.chainCategory ∈ nativeChainCategories ∧
    window.contains now row.capturedAt ∧ window.stalled now row).map Ec3SealRow.ofRow

/-- The rows of the query of `ec4List`, before `LIMIT` and `OFFSET`. -/
def ec4Rows : List ProviderInvocation :=
  (evidenceProviderWithoutAudit db).filter fun pi => window.contains now pi.createdAt

/-- The orders that the database gives the rows of the four queries, for each `OFFSET`; `collate`
sorts the texts. -/
structure GapOrders {κ : Type} [LinearOrder κ] (collate : String ↪ κ) where
  ec1 : ℕ → List Ec1GapRow
  ec1_ordered : ∀ offset,
    IsOrdered (fun row => -row.capturedAt) (ec1GapRows db now window) (ec1 offset)
  ec2 : ℕ → List Ec2GapRow
  ec2_ordered : ∀ offset,
    IsOrdered (fun row => collate row.chainId) (ec2GapRows db now window) (ec2 offset)
  ec3seal : ℕ → List Ec3SealRow
  ec3seal_ordered : ∀ offset,
    IsOrdered (fun row => row.capturedAt) (ec3SealRows db now window) (ec3seal offset)
  ec4 : ℕ → List ProviderInvocation
  ec4_ordered : ∀ offset,
    IsOrdered (fun row => -row.createdAt) (ec4Rows db now window) (ec4 offset)

section Lists

variable {db now window} {κ : Type} [LinearOrder κ] {collate : String ↪ κ}
  (orders : GapOrders db now window collate) (scope : ReportScope)

/-- `ec1GapList` -/
def ec1GapList : List Ec1GapRow :=
  offsetPage (sampleLimitOf scope) (scope.offset.getD 0) (orders.ec1 (scope.offset.getD 0))

/-- `ec2Gaps` -/
def ec2Gaps : List Ec2GapRow :=
  offsetPage (sampleLimitOf scope) (scope.offset.getD 0) (orders.ec2 (scope.offset.getD 0))

/-- `ec3SealList` -/
def ec3SealList : List Ec3SealRow :=
  offsetPage (sampleLimitOf scope) (scope.offset.getD 0) (orders.ec3seal (scope.offset.getD 0))

/-- `ec4List` -/
def ec4List : List ProviderInvocation :=
  offsetPage (sampleLimitOf scope) (scope.offset.getD 0) (orders.ec4 (scope.offset.getD 0))

end Lists

/-! ## Coverage -/

/-- `EC_LABELS` -/
inductive EvidenceInvariant where
  | ec1
  | ec2
  | ec3seal
  | ec3drop
  | ec4
  | ec6
deriving DecidableEq

/-- `DropMetricsSnapshot` -/
structure DropMetricsSnapshot where
  drops : ℤ
  captures : ℤ

/-- `ZERO_DROP_SNAPSHOT` -/
def zeroDropSnapshot : DropMetricsSnapshot := ⟨0, 0⟩

/-- `DropEstimate`, without its constant texts. -/
structure DropEstimate where
  drops : ℤ
  captures : ℤ
  dropRate : Option ℚ
  observed : Bool
deriving DecidableEq

/-- `nativeDropEstimate` -/
def nativeDropEstimate (snapshot : DropMetricsSnapshot) : DropEstimate :=
  let drops := max 0 snapshot.drops
  let captures := max 0 snapshot.captures
  let denom := drops + captures
  { drops, captures
    dropRate := if denom > 0 then some ((drops : ℚ) / denom) else none
    observed := denom > 0 }

/-- `CoverageTerm` -/
structure CoverageTerm where
  invariant : EvidenceInvariant
  covered : ℤ
  total : ℤ

/-- `CoverageRatio`, without its label and the reasons of the exclusions. -/
structure CoverageRatio where
  ratio : ℚ
  covered : ℤ
  total : ℤ
  terms : List CoverageTerm
  excluded : List EvidenceInvariant

/-- The terms that are always there. -/
def coverageTerms (counts : EvidenceCounts) : List CoverageTerm :=
  [{ invariant := .ec1
     covered := counts.ec1.total - (counts.ec1.failed + counts.ec1.stalledPastSlo)
     total := counts.ec1.total },
   { invariant := .ec2
     covered := counts.ec2.chains - counts.ec2.chainsWithGap
     total := counts.ec2.chains },
   { invariant := .ec3seal
     covered := counts.ec3seal.nativeTotal - counts.ec3seal.nativeUnsealedPastSlo
     total := counts.ec3seal.nativeTotal },
   { invariant := .ec4
     covered := counts.ec4.providerInvocations - counts.ec4.withoutTerminal
     total := counts.ec4.providerInvocations }]

/-- `coverageRatio`.  The rational stands for the double that is nearest to it.  For counts up to 2⁵³,
which are doubles themselves, the two are 1 on the same counts: below, `covered / total` is at most
`1 - 2⁻⁵³`, and that is a double. -/
def coverageRatio (counts : EvidenceCounts) (drop : DropEstimate) : CoverageRatio :=
  let terms := coverageTerms counts ++
    if drop.observed then [⟨.ec3drop, drop.captures, drop.captures + drop.drops⟩] else []
  let covered : ℤ := (terms.map (·.covered)).sum
  let total : ℤ := (terms.map (·.total)).sum
  { ratio := if total > 0 then (covered : ℚ) / total else 1
    covered, total, terms
    excluded := .ec6 :: if drop.observed then [] else [.ec3drop] }

end GovAI
