import GovAI.Dlp.Redaction
import GovAI.Dlp.SegmentScan
import GovAI.Governance.Resolve

/-!
# The governance of a segmented request

The governed handlers join the text segments of a request by line breaks, scan the joined text and
resolve the governance with what the scan puts out.  A further segment never removes a CPF, a CNPJ or
an e-mail address, but it can part a phone number that was read across two segments; it lowers the
verdict exactly where that was the only reason for it (`neverWeakened_iff`).
-/

namespace GovAI

/-! ## The findings of a request -/

/-- `signal_class` as a text. -/
def SignalClass.text : SignalClass → JsString
  | .piiStrong => jsString "pii_strong"
  | .piiStandard => jsString "pii_standard"

/-- A merged finding as the scan hands it to the resolver. -/
def MergedFinding.toLite (m : MergedFinding) : DlpFindingLite := ⟨m.detector, some m.signalClass.text⟩

/-- `dlpFindings` of a request with these segments. -/
def segmentFindings (locale : Collation) (segments : List JsString) : List DlpFindingLite :=
  if 0 < (joinSegments segments).length then
    (dlpScan locale (joinSegments segments)).map MergedFinding.toLite
  else []

/-- `resolveGovernance` for a request with these segments. -/
def resolveSegments (locale : Collation) (i : ResolveGovernanceInput) (segments : List JsString) :
    ResolvedGovernance :=
  resolveGovernance (i.withLists i.toolClassifications (segmentFindings locale segments))

lemma effectiveRiskClass_resolveSegments (locale : Collation) (i : ResolveGovernanceInput)
    (segments : List JsString) : (resolveSegments locale i segments).effectiveRiskClass =
      (i.withLists i.toolClassifications (segmentFindings locale segments)).effective := rfl

section Findings

variable {locale : Collation} {segments : List JsString}

/-- The class is read as it was written. -/
@[simp] lemma MergedFinding.strong_toLite_iff (m : MergedFinding) :
    m.toLite.Strong ↔ m.signalClass = .piiStrong := by
  unfold DlpFindingLite.Strong MergedFinding.toLite
  cases m.signalClass with
  | piiStrong => simp [SignalClass.text]
  | piiStandard =>
    have hne : jsString "pii_standard" ≠ jsString "pii_strong" := by decide
    simp [SignalClass.text, hne]

/-- In the empty text there is nothing to find. -/
lemma segmentFindings_eq : segmentFindings locale segments =
    (dlpScan locale (joinSegments segments)).map MergedFinding.toLite := by
  unfold segmentFindings
  split
  · rfl
  · rename_i h
    rw [List.eq_nil_of_length_eq_zero (Nat.eq_zero_of_not_pos h)]
    rfl

/-- There is a finding exactly if there is a signal. -/
lemma exists_segmentFindings_iff :
    (∃ f, f ∈ segmentFindings locale segments) ↔ HasSignal (joinSegments segments) := by
  rw [segmentFindings_eq, ← @exists_dlpScan_iff locale]
  constructor
  · rintro ⟨f, hf⟩
    obtain ⟨m, hm, -⟩ := List.mem_map.mp hf
    exact ⟨m, hm⟩
  · rintro ⟨m, hm⟩
    exact ⟨_, List.mem_map_of_mem hm⟩

/-- There is a strong finding exactly if there is a strong signal. -/
lemma exists_strong_segmentFindings_iff :
    (∃ f ∈ segmentFindings locale segments, f.Strong) ↔ HasStrong (joinSegments segments) := by
  rw [segmentFindings_eq, ← @exists_strong_dlpScan_iff locale]
  simp only [List.mem_map, exists_exists_and_eq_and, MergedFinding.strong_toLite_iff]

end Findings

/-! ## Two lists of findings -/

section Findings

variable {i : ResolveGovernanceInput} {findings findings' : List DlpFindingLite}

/-- Nothing but a finding can lift the request above class `A`. -/
def ResolveGovernanceInput.OnlyFindings (i : ResolveGovernanceInput) : Prop :=
  i.baseRiskClass = .a ∧ ∀ t ∈ i.toolClassifications, t.contributedRiskClass = .a

/-- **When other findings do not lower the class**: for findings that keep the strong class, exactly
if there still is one or something else lifts the request. -/
lemma effective_le_withFindings_iff
    (hstrong : (∃ f ∈ findings, f.Strong) → ∃ f ∈ findings', f.Strong) :
    (i.withLists i.toolClassifications findings).effective ≤
        (i.withLists i.toolClassifications findings').effective ↔
      ¬(i.OnlyFindings ∧ (∃ f, f ∈ findings) ∧ ¬∃ f, f ∈ findings') := by
  have hupper := (effective_le_iff (i := i.withLists i.toolClassifications findings')).mp le_rfl
  obtain ⟨hbase, htools, hfindings, hmultipart⟩ := hupper
  constructor
  · rintro hle ⟨⟨hbase', htools'⟩, ⟨f, hf⟩, hnone⟩
    have hA : (i.withLists i.toolClassifications findings').effective ≤ .a := by
      refine effective_le_iff.mpr ⟨hbase'.le, fun t ht => (htools' t ht).le, fun f hf => ?_, ?_⟩
      · exact absurd ⟨f, hf⟩ hnone
      · intro _ hb
        exact absurd (hbase'.symm.trans hb) (by decide)
    obtain ⟨hC, -, hB⟩ := (effective_le_iff.mp (hle.trans hA)).2.2.1 f hf
    by_cases hs : f.Strong
    · have hbelow : (i.withLists i.toolClassifications findings).baseRiskClass ≤ .b := by
        show i.baseRiskClass ≤ .b
        rw [hbase']
        decide
      exact absurd (hC hs hbelow) (by decide)
    · exact absurd (hB hs hbase') (by decide)
  · intro hnot
    refine effective_le_iff.mpr ⟨hbase, htools, fun f hf => ⟨fun hs => ?_, fun hs => ?_, ?_⟩,
      hmultipart⟩
    · obtain ⟨g, hg, hgs⟩ := hstrong ⟨f, hf, hs⟩
      exact (hfindings g hg).1 hgs
    · obtain ⟨g, hg, hgs⟩ := hstrong ⟨f, hf, hs⟩
      exact (hfindings g hg).2.1 hgs
    · intro _ hA
      by_cases hsome : ∃ g, g ∈ findings'
      · obtain ⟨g, hg⟩ := hsome
        by_cases hgs : g.Strong
        · have hbelow : (i.withLists i.toolClassifications findings').baseRiskClass ≤ .b := by
            show i.baseRiskClass ≤ .b
            rw [show i.baseRiskClass = .a from hA]
            decide
          exact le_trans (by decide) ((hfindings g hg).1 hgs hbelow)
        · exact (hfindings g hg).2.2 hgs hA
      · -- then a tool lifts the request
        obtain ⟨t, ht, hne⟩ : ∃ t ∈ i.toolClassifications, t.contributedRiskClass ≠ .a := by
          by_contra hno
          push Not at hno
          exact hnot ⟨⟨hA, hno⟩, ⟨f, hf⟩, hsome⟩
        refine le_trans ?_ (htools t ht)
        cases hclass : t.contributedRiskClass with
        | a => exact absurd hclass hne
        | b => decide
        | c => decide
        | d => decide
        | e => decide

/-- A higher mode stays higher under the floor of a tool. -/
lemma floorMode_mono (c : Option JsString) {mode mode' : EnforcementMode}
    (h : mode.rank ≤ mode'.rank) : (floorMode c mode).rank ≤ (floorMode c mode').rank := by
  unfold floorMode
  split <;> split
  · exact le_rfl
  · rename_i hfloor hno
    by_contra hlt
    exact hno ⟨hfloor.1, not_le.mp hlt⟩
  · rename_i hfloor
    exact h.trans hfloor.2.le
  · exact h

/-- A higher class has no lower decision under the same tools. -/
lemma decision_mono (h : (i.withLists i.toolClassifications findings).effective ≤
      (i.withLists i.toolClassifications findings').effective) :
    (resolveGovernance (i.withLists i.toolClassifications findings)).enforcementDecision.rank ≤
      (resolveGovernance (i.withLists i.toolClassifications findings')).enforcementDecision.rank := by
  by_cases hmode : i.operationalMode = .dev ∨ i.operationalMode = .test
  · rw [@decision_of_dev (i.withLists i.toolClassifications findings) hmode,
      @decision_of_dev (i.withLists i.toolClassifications findings') hmode]
  · rw [@decision_of_not_dev (i.withLists i.toolClassifications findings) hmode,
      @decision_of_not_dev (i.withLists i.toolClassifications findings') hmode]
    exact floorMode_mono _ (matrixMode_mono _ _ h)

end Findings

/-! ## A further segment -/

/-- The segment `x` between `before` and `after` does not weaken the verdict, and the signals of every
single segment are raised. -/
structure NeverWeakened (locale : Collation) (i : ResolveGovernanceInput)
    (before after : List JsString) (x : JsString) : Prop where
  risk : (resolveSegments locale i (before ++ after)).effectiveRiskClass ≤
    (resolveSegments locale i (before ++ x :: after)).effectiveRiskClass
  decision : (resolveSegments locale i (before ++ after)).enforcementDecision.rank ≤
    (resolveSegments locale i (before ++ x :: after)).enforcementDecision.rank
  signal : ∀ s ∈ before ++ x :: after, ∀ m ∈ dlpScan locale s,
    ∃ m' ∈ dlpScan locale (joinSegments (before ++ x :: after)),
      m'.signalClass = m.signalClass ∨ m'.signalClass = .piiStrong

/-- **When more text does not weaken the verdict**: exactly if something else than a finding lifts the
request above class `A`, if the text without the segment has no phone number, or if the text with the
segment still has a CPF, a CNPJ, an e-mail address or a phone number. -/
theorem neverWeakened_iff (locale : Collation) (i : ResolveGovernanceInput)
    (before after : List JsString) (x : JsString) :
    NeverWeakened locale i before after x ↔
      ¬i.OnlyFindings ∨ ¬HasPhone (joinSegments (before ++ after)) ∨
        HasSignal (joinSegments (before ++ x :: after)) := by
  have hmem : ∀ s ∈ before ++ after, s ∈ before ++ x :: after := by
    intro s hs
    rcases List.mem_append.mp hs with h | h
    · exact List.mem_append_left _ h
    · exact List.mem_append_right _ (List.mem_cons_of_mem _ h)
  have hstrong : (∃ f ∈ segmentFindings locale (before ++ after), f.Strong) →
      ∃ f ∈ segmentFindings locale (before ++ x :: after), f.Strong := by
    rw [exists_strong_segmentFindings_iff, exists_strong_segmentFindings_iff]
    intro h
    obtain ⟨s, hs, h⟩ := exists_of_hasStrong_joinSegments h
    exact h.joinSegments (hmem s hs)
  -- what is lost is a phone number
  have hlost : ¬HasSignal (joinSegments (before ++ x :: after)) →
      (HasSignal (joinSegments (before ++ after)) ↔ HasPhone (joinSegments (before ++ after))) := by
    intro hnone
    constructor
    · intro h
      rcases exists_of_hasSignal_joinSegments h with h | ⟨s, hs, h⟩
      · exact h
      · exact absurd (h.joinSegments (hmem s hs)) hnone
    · exact fun h => .inr (.inr h)
  have hrisk := @effective_le_withFindings_iff i _ _ hstrong
  rw [exists_segmentFindings_iff, exists_segmentFindings_iff] at hrisk
  have hcondition : ¬(i.OnlyFindings ∧ HasSignal (joinSegments (before ++ after)) ∧
      ¬HasSignal (joinSegments (before ++ x :: after))) ↔
      ¬i.OnlyFindings ∨ ¬HasPhone (joinSegments (before ++ after)) ∨
        HasSignal (joinSegments (before ++ x :: after)) := by
    by_cases hsignal : HasSignal (joinSegments (before ++ x :: after))
    · exact iff_of_true (fun h => h.2.2 hsignal) (.inr (.inr hsignal))
    · rw [hlost hsignal, not_and_or, not_and_or, not_not]
  rw [← hcondition, ← hrisk, ← effectiveRiskClass_resolveSegments,
    ← effectiveRiskClass_resolveSegments]
  constructor
  · exact NeverWeakened.risk
  · intro h
    refine ⟨h, ?_, fun s hs m hm => signal_joinSegments hs hm⟩
    rw [effectiveRiskClass_resolveSegments, effectiveRiskClass_resolveSegments] at h
    exact decision_mono h

/-- A request of class `A` without tools. -/
def plainRequest : ResolveGovernanceInput where
  baseRiskClass := .a
  tenantTier := .starter
  operationalMode := .production
  toolClassifications := []
  dlpFindings := []
  isMultipart := false

/-- **A segment between an area code and a number hides them**: with `11` and `987654321` in two
segments the joined text has a phone number, and with `ok` between them it has none. -/
theorem inserted_segment_weakens : ¬∀ locale i before after x, NeverWeakened locale i before after x := by
  intro h
  have hrisk := (h codeUnitCollation plainRequest [jsString "11"] [jsString "987654321"]
    (jsString "ok")).risk
  exact absurd hrisk (by decide +kernel)

end GovAI
