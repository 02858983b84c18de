import GovAI.Dlp.Spans
import GovAI.Library.RunningMax

/-!
# Configured actions and the policy decision

`mergeWithActions`, `dlpPreScan` (`apps/api/src/pipeline/dlp.ts`) and `decidePolicy`
(`apps/api/src/pipeline/policy.ts`).  An organisation configures an action for each detector.  The
decision is taken on merged spans, whose label need not be the detector that carries the action; it
is nevertheless the decision for the raw findings.
-/

namespace GovAI

/-! ## Actions -/

/-- `DlpAction`. -/
inductive DlpAction where
  | detect
  | redact
  | deny
deriving DecidableEq

/-- `ACTION_RANK`. -/
def DlpAction.rank : DlpAction → ℕ
  | .detect => 0
  | .redact => 1
  | .deny => 2

/-- The text of an action. -/
def DlpAction.text : DlpAction → JsString
  | .detect => jsString "detect"
  | .redact => jsString "redact"
  | .deny => jsString "deny"

/-- Actions of one rank are equal. -/
lemma DlpAction.rank_injective : Function.Injective DlpAction.rank := by
  rintro (_ | _ | _) (_ | _ | _) h <;> first | rfl | cases h

/-- Actions are ordered by their strength. -/
instance : LinearOrder DlpAction := LinearOrder.lift' DlpAction.rank DlpAction.rank_injective

lemma DlpAction.le_def {a b : DlpAction} : a ≤ b ↔ a.rank ≤ b.rank := Iff.rfl

/-- `detect` is the weakest action. -/
@[simp] lemma DlpAction.detect_le (a : DlpAction) : .detect ≤ a := by
  rw [DlpAction.le_def]
  exact Nat.zero_le _

/-- `deny` is the strongest action. -/
@[simp] lemma DlpAction.le_deny (a : DlpAction) : a ≤ .deny := by
  cases a <;> decide

/-- `BaselineConfig`: a row of the configuration of an organisation. -/
structure BaselineConfig where
  detector : JsString
  action : DlpAction

/-- `configByDetector`: a `Map`, the entries in order of insertion. -/
abbrev ConfigByDetector := List (JsString × DlpAction)

/-- `map.get(detector)`. -/
def ConfigByDetector.get (config : ConfigByDetector) (detector : JsString) : Option DlpAction :=
  (config.find? (·.1 = detector)).map (·.2)

/-- `map.set(detector, action)`. -/
def ConfigByDetector.set (config : ConfigByDetector) (row : BaselineConfig) : ConfigByDetector :=
  if (config.find? (·.1 = row.detector)).isSome then
    config.map fun e => if e.1 = row.detector then (row.detector, row.action) else e
  else config ++ [(row.detector, row.action)]

/-- `configByDetector.get(detector) ?? 'detect'`. -/
def configuredAction (config : ConfigByDetector) (detector : JsString) : DlpAction :=
  (config.get detector).getD .detect

/-! ## The scan -/

/-- `DetectorFinding`. -/
structure DetectorFinding where
  detector : JsString
  matched : JsString
  index : ℕ
  length : ℕ
deriving DecidableEq

/-- A raw finding as an argument of the merge: it has no `detectors`. -/
def DetectorFinding.toFindingSpan (f : DetectorFinding) : FindingSpan where
  detector := f.detector
  index := f.index
  length := f.length

/-- The detector of a raw finding is its only member. -/
@[simp] lemma DetectorFinding.members_toFindingSpan (f : DetectorFinding) :
    f.toFindingSpan.members = [f.detector] := rfl

/-- `MergedDlpFinding`: a span and its effective action. -/
structure MergedDlpFinding where
  span : MergedFinding
  action : DlpAction
deriving DecidableEq

/-- `mergeWithActions`. -/
def mergeWithActions (locale : Collation) (rawFindings : List DetectorFinding)
    (configByDetector : ConfigByDetector) : List MergedDlpFinding :=
  (mergeFindingSpans locale (rawFindings.map DetectorFinding.toFindingSpan)).map fun span =>
    { span
      action := runningMax DlpAction.rank .detect
        (span.detectors.map (configuredAction configByDetector)) }

/-- `DlpScanResult`. -/
structure DlpScanResult where
  findings : List MergedDlpFinding
  rawFindings : List DetectorFinding
  configByDetector : ConfigByDetector
  highestAction : DlpAction

/-- `dlpPreScan` of a text in which the detectors find `rawFindings`, with the rows that
`loadBaselineConfig` reads. -/
def dlpPreScan (locale : Collation) (config : List BaselineConfig)
    (rawFindings : List DetectorFinding) : DlpScanResult :=
  let configByDetector := config.foldl ConfigByDetector.set []
  let findings := mergeWithActions locale rawFindings configByDetector
  { findings
    rawFindings
    configByDetector
    highestAction := runningMax DlpAction.rank .detect (findings.map (·.action)) }

/-! ## The decision -/

/-- `PolicyDecisionKind`. -/
inductive PolicyDecisionKind where
  | allow
  | deny
  | mutate
  | ask
deriving DecidableEq

/-- `PipelinePolicyContext`. -/
structure PipelinePolicyContext where
  capabilityId : JsString
  effectiveLevel : Fin 4
  policyCommitSha : JsString

/-- The argument of `policyVersionId`, up to the two constants in it: the manifest and the snapshot
of the capability registry. -/
structure PolicyVersionInput where
  policyCodeCommitSha : JsString
  configByDetector : ConfigByDetector

/-- `PipelinePolicyDecision`. -/
structure PipelinePolicyDecision where
  id : JsString
  kind : PolicyDecisionKind
  reasons : List JsString
  policyVersionId : List UInt8

/-- The result of `decidePolicy`; it never sets `redactedText`. -/
structure PolicyResult where
  decision : PipelinePolicyDecision
  needsRedaction : Bool

/-- The decimal numeral of a number in a template literal. -/
def decimal (n : ℕ) : JsString := (Nat.toDigits 10 n).flatMap utf16Units

/-- The reason that reports a span. -/
def findingReason (f : MergedDlpFinding) : JsString :=
  jsString "dlp." ++ f.span.detector ++ jsString ": action=" ++ f.action.text ++
    jsString " match at index " ++ decimal f.span.index

/-- The kind, `needsRedaction` and the reasons of the decision. -/
def decideKind (dlp : DlpScanResult) : PolicyDecisionKind × Bool × List JsString :=
  if dlp.highestAction = .deny ∧ 0 < dlp.findings.length then
    (.deny, false, dlp.findings.map findingReason)
  else if dlp.highestAction = .redact ∧ 0 < dlp.findings.length then
    (.mutate, true, dlp.findings.map findingReason)
  else if 0 < dlp.findings.length then
    (.allow, false,
      [jsString "dlp: " ++ decimal dlp.findings.length ++
        jsString " detection(s), no enforcement action"])
  else (.allow, false, [jsString "no findings"])

/-- `decidePolicy`; `randomUUID` is the identifier drawn and `policyVersionId` the hash of the
inputs of the policy. -/
def decidePolicy (randomUUID : JsString) (policyVersionId : PolicyVersionInput → List UInt8)
    (ctx : PipelinePolicyContext) (dlp : DlpScanResult) : PolicyResult where
  decision :=
    { id := randomUUID
      kind := (decideKind dlp).1
      reasons := (decideKind dlp).2.2
      policyVersionId := policyVersionId
        { policyCodeCommitSha := ctx.policyCommitSha, configByDetector := dlp.configByDetector } }
  needsRedaction := (decideKind dlp).2.1

/-! ## The actions of the spans -/

section Actions

variable {locale : Collation} {raw : List DetectorFinding} {config : ConfigByDetector}
  {m : MergedDlpFinding}

/-- A span with an action is a merged span. -/
lemma span_mem (hm : m ∈ mergeWithActions locale raw config) :
    m.span ∈ mergeFindingSpans locale (raw.map DetectorFinding.toFindingSpan) := by
  obtain ⟨span, hspan, rfl⟩ := List.mem_map.mp hm
  exact hspan

/-- The action of a span is the strongest one configured for its members. -/
lemma action_le_iff (hm : m ∈ mergeWithActions locale raw config) {a : DlpAction} :
    m.action ≤ a ↔ ∀ d ∈ m.span.detectors, configuredAction config d ≤ a := by
  obtain ⟨span, -, rfl⟩ := List.mem_map.mp hm
  rw [DlpAction.le_def, rank_runningMax_le_iff, List.forall_mem_map]
  exact and_iff_right (Nat.zero_le _)

/-- A raw finding lies inside a span with an action. -/
lemma exists_enclosing {f : DetectorFinding} (hf : f ∈ raw) :
    ∃ m ∈ mergeWithActions locale raw config, m.span.Encloses f.toFindingSpan := by
  obtain ⟨span, hspan, henc, -⟩ := exists_mergedFinding locale
    (List.mem_map_of_mem (f := DetectorFinding.toFindingSpan) hf)
  exact ⟨_, List.mem_map_of_mem hspan, henc⟩

/-- The detector of a raw finding is a member of the span around it. -/
lemma detector_mem_of_encloses (hm : m ∈ mergeWithActions locale raw config) {f : DetectorFinding}
    (hf : f ∈ raw) (henc : m.span.Encloses f.toFindingSpan) : f.detector ∈ m.span.detectors := by
  obtain ⟨span, hspan, henc', hmembers⟩ := exists_mergedFinding locale
    (List.mem_map_of_mem (f := DetectorFinding.toFindingSpan) hf)
  have heq : m.span = span := mergedFinding_unique (span_mem hm) hspan henc henc'
  exact heq ▸ hmembers f.detector (by simp)

/-- A span is at least as strong as each of the raw findings inside. -/
lemma configuredAction_le (hm : m ∈ mergeWithActions locale raw config) {f : DetectorFinding}
    (hf : f ∈ raw) (henc : m.span.Encloses f.toFindingSpan) :
    configuredAction config f.detector ≤ m.action :=
  (action_le_iff hm).mp le_rfl _ (detector_mem_of_encloses hm hf henc)

/-- A member of a span is the detector of a raw finding inside. -/
lemma exists_raw_of_mem (hm : m ∈ mergeWithActions locale raw config) {d : JsString}
    (hd : d ∈ m.span.detectors) :
    ∃ f ∈ raw, m.span.Encloses f.toFindingSpan ∧ f.detector = d := by
  obtain ⟨g, hg, henc, hdg⟩ := exists_finding_of_mem_detectors (span_mem hm) hd
  obtain ⟨f, hf, rfl⟩ := List.mem_map.mp hg
  rw [DetectorFinding.members_toFindingSpan, List.mem_singleton] at hdg
  exact ⟨f, hf, henc, hdg.symm⟩

/-- The action of a span is configured for a raw finding inside. -/
lemma exists_raw_action (hm : m ∈ mergeWithActions locale raw config) :
    ∃ f ∈ raw, m.span.Encloses f.toFindingSpan ∧ configuredAction config f.detector = m.action := by
  obtain ⟨span, hspan, heq⟩ := List.mem_map.mp hm
  have hmax := @runningMax_mem _ _ _ DlpAction.rank .detect
    (span.detectors.map (configuredAction config))
  rcases hmax with h | h
  · -- nothing is stronger than `detect`, so the label itself is configured so
    have haction : m.action = .detect := by
      rw [← heq]
      exact h
    obtain ⟨f, hf, henc, -⟩ := exists_raw_of_mem hm m.span.detector_mem
    refine ⟨f, hf, henc, le_antisymm (configuredAction_le hm hf henc) ?_⟩
    rw [haction]
    exact DlpAction.detect_le _
  · obtain ⟨d, hd, hda⟩ := List.mem_map.mp h
    have hspaneq : m.span = span := by rw [← heq]
    obtain ⟨f, hf, henc, rfl⟩ := exists_raw_of_mem hm (hspaneq ▸ hd)
    refine ⟨f, hf, henc, ?_⟩
    rw [hda, ← heq]

/-- There are spans exactly if there are raw findings. -/
lemma mergeWithActions_length_pos_iff :
    0 < (mergeWithActions locale raw config).length ↔ raw ≠ [] := by
  constructor
  · intro h
    obtain ⟨m, hm⟩ := List.exists_mem_of_length_pos h
    obtain ⟨f, hf, -⟩ := exists_raw_action hm
    exact List.ne_nil_of_mem hf
  · intro h
    obtain ⟨f, hf⟩ := List.exists_mem_of_ne_nil _ h
    obtain ⟨m, hm, -⟩ := @exists_enclosing locale _ config _ hf
    exact List.length_pos_of_mem hm

end Actions

/-! ## The highest action -/

section Highest

variable {locale : Collation} {rows : List BaselineConfig} {raw : List DetectorFinding}

/-- The configuration that the scan builds from the rows. -/
def configOf (rows : List BaselineConfig) : ConfigByDetector := rows.foldl ConfigByDetector.set []

/-- The highest action is the least upper bound of the actions configured for the raw findings. -/
lemma highestAction_le_iff {a : DlpAction} :
    (dlpPreScan locale rows raw).highestAction ≤ a ↔
      ∀ f ∈ raw, configuredAction (configOf rows) f.detector ≤ a := by
  have hscan : (dlpPreScan locale rows raw).highestAction ≤ a ↔
      ∀ m ∈ mergeWithActions locale raw (configOf rows), m.action ≤ a := by
    rw [DlpAction.le_def]
    unfold dlpPreScan configOf
    rw [rank_runningMax_le_iff, List.forall_mem_map]
    exact and_iff_right (Nat.zero_le _)
  rw [hscan]
  constructor
  · intro h f hf
    obtain ⟨m, hm, henc⟩ := @exists_enclosing locale _ (configOf rows) _ hf
    exact (configuredAction_le hm hf henc).trans (h m hm)
  · intro h m hm
    obtain ⟨f, hf, -, heq⟩ := exists_raw_action hm
    exact heq ▸ h f hf

/-- Some raw finding is configured to be denied exactly if the highest action is `deny`. -/
lemma highestAction_eq_deny_iff :
    (dlpPreScan locale rows raw).highestAction = .deny ↔
      ∃ f ∈ raw, configuredAction (configOf rows) f.detector = .deny := by
  constructor
  · intro h
    by_contra hnone
    push Not at hnone
    have hle : (dlpPreScan locale rows raw).highestAction ≤ .redact := by
      refine highestAction_le_iff.mpr fun f hf => ?_
      have hne := hnone f hf
      cases haction : configuredAction (configOf rows) f.detector with
      | detect => decide
      | redact => exact le_rfl
      | deny => exact absurd haction hne
    rw [h] at hle
    exact absurd hle (by decide)
  · rintro ⟨f, hf, heq⟩
    exact le_antisymm (DlpAction.le_deny _) (heq ▸ highestAction_le_iff.mp le_rfl f hf)

/-- The highest action is `detect` exactly if no raw finding is configured otherwise. -/
lemma highestAction_eq_detect_iff :
    (dlpPreScan locale rows raw).highestAction = .detect ↔
      ∀ f ∈ raw, configuredAction (configOf rows) f.detector = .detect := by
  have hdetect : ∀ a : DlpAction, a = .detect ↔ a ≤ .detect :=
    fun a => ⟨fun h => h.le, fun h => le_antisymm h (DlpAction.detect_le a)⟩
  rw [hdetect, highestAction_le_iff]
  simp only [← hdetect]

/-- The highest action is `detect` or the action configured for a raw finding. -/
lemma highestAction_mem :
    (dlpPreScan locale rows raw).highestAction = .detect ∨
      ∃ f ∈ raw, configuredAction (configOf rows) f.detector =
        (dlpPreScan locale rows raw).highestAction := by
  rcases @runningMax_mem _ _ _ DlpAction.rank .detect
    ((mergeWithActions locale raw (configOf rows)).map (·.action)) with h | h
  · exact .inl h
  · obtain ⟨m, hm, heq⟩ := List.mem_map.mp h
    obtain ⟨f, hf, -, haction⟩ := exists_raw_action hm
    exact .inr ⟨f, hf, haction.trans heq⟩

/-- There are spans exactly if there are raw findings. -/
lemma findings_length_pos_iff : 0 < (dlpPreScan locale rows raw).findings.length ↔ raw ≠ [] :=
  mergeWithActions_length_pos_iff

end Highest

/-! ## The kind of the decision -/

section Decision

variable {locale : Collation} {rows : List BaselineConfig} {raw : List DetectorFinding}

/-- The decision is `deny` exactly if a raw finding is configured so. -/
lemma decideKind_eq_deny_iff :
    (decideKind (dlpPreScan locale rows raw)).1 = .deny ↔
      ∃ f ∈ raw, configuredAction (configOf rows) f.detector = .deny := by
  rw [← @highestAction_eq_deny_iff locale]
  constructor
  · intro h
    unfold decideKind at h
    split_ifs at h with hdeny
    exact hdeny.1
  · intro h
    obtain ⟨f, hf, -⟩ := highestAction_eq_deny_iff.mp h
    unfold decideKind
    rw [if_pos ⟨h, findings_length_pos_iff.mpr (List.ne_nil_of_mem hf)⟩]

/-- The decision is `allow` exactly if every raw finding is configured `detect`. -/
lemma decideKind_eq_allow_iff :
    (decideKind (dlpPreScan locale rows raw)).1 = .allow ↔
      ∀ f ∈ raw, configuredAction (configOf rows) f.detector = .detect := by
  rw [← @highestAction_eq_detect_iff locale]
  constructor
  · intro h
    rcases @highestAction_mem locale rows raw with hdetect | hmem
    · exact hdetect
    · obtain ⟨f, hf, -⟩ := hmem
      have hpos := (@findings_length_pos_iff locale rows _).mpr
        (List.ne_nil_of_mem hf)
      unfold decideKind at h
      cases haction : (dlpPreScan locale rows raw).highestAction with
      | detect => rfl
      | redact => simp [haction, hpos] at h
      | deny => simp [haction, hpos] at h
  · intro h
    unfold decideKind
    rw [h]
    simp only [reduceCtorEq, false_and, if_false]
    split <;> rfl

/-- The decision is never `ask`. -/
lemma decideKind_ne_ask (dlp : DlpScanResult) : (decideKind dlp).1 ≠ .ask := by
  unfold decideKind
  split_ifs <;> simp

/-- The decision is `mutate` exactly if no raw finding is configured `deny` and some is `redact`. -/
lemma decideKind_eq_mutate_iff :
    (decideKind (dlpPreScan locale rows raw)).1 = .mutate ↔
      (∀ f ∈ raw, configuredAction (configOf rows) f.detector ≠ .deny) ∧
        ∃ f ∈ raw, configuredAction (configOf rows) f.detector = .redact := by
  have hdeny := @decideKind_eq_deny_iff locale rows raw
  have hallow := @decideKind_eq_allow_iff locale rows raw
  have hask := decideKind_ne_ask (dlpPreScan locale rows raw)
  constructor
  · intro h
    rw [h] at hdeny hallow
    have hnone : ∀ f ∈ raw, configuredAction (configOf rows) f.detector ≠ .deny :=
      fun f hf heq => nomatch hdeny.mpr ⟨f, hf, heq⟩
    refine ⟨hnone, ?_⟩
    by_contra hno
    push Not at hno
    refine nomatch hallow.mpr fun f hf => ?_
    cases haction : configuredAction (configOf rows) f.detector with
    | detect => rfl
    | redact => exact absurd haction (hno f hf)
    | deny => exact absurd haction (hnone f hf)
  · rintro ⟨hnone, f, hf, hredact⟩
    cases hkind : (decideKind (dlpPreScan locale rows raw)).1 with
    | mutate => rfl
    | ask => exact absurd hkind hask
    | deny =>
      obtain ⟨g, hg, heq⟩ := hdeny.mp hkind
      exact absurd heq (hnone g hg)
    | allow =>
      have heq := hallow.mp hkind f hf
      rw [hredact] at heq
      cases heq

end Decision

end GovAI
