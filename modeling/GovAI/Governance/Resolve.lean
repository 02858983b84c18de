import GovAI.Governance.RiskClass
import GovAI.Library.Fallible
import GovAI.Library.RunningMax
import Mathlib.Data.List.Perm.Basic
import Mathlib.Order.MinMax

/-!
# The governance of a request

`resolveGovernance` of `packages/core-governance`, with `computeEffectiveRiskClass` and
`computeEnforcement`.  The effective risk class is a maximum over the escalations that apply to the
base class, so it depends on the set of tools and findings only and never falls when one is added
(`effective_mono`).  The floor under hosted computer use is applied to one dominant tool only; the
law of the resolver therefore holds exactly for the inputs of `resolveGovernance_lawful_iff`.
-/

namespace GovAI

open scoped OptionConditions

/-! ## Vocabulary -/

/-- `Tier`. -/
inductive Tier where
  | starter
  | business
  | enterprise
  | regulated
deriving DecidableEq

/-- `OperationalMode`. -/
inductive OperationalMode where
  | production
  | pilot
  | dev
  | test
deriving DecidableEq

/-- `EnforcementMode`. -/
inductive EnforcementMode where
  | observe
  | warn
  | ask
  | enforce
  | sandboxRequired
  | blocked
deriving DecidableEq

/-- `MODE_RANK`. -/
def EnforcementMode.rank : EnforcementMode → ℕ
  | .observe => 0
  | .warn => 1
  | .ask => 2
  | .enforce => 3
  | .sandboxRequired => 4
  | .blocked => 5

/-- `SideEffect`. -/
inductive SideEffect where
  | auditDetailLevelHigh
  | dlpPreScanRequired
deriving DecidableEq

/-- `Precondition`. -/
inductive Precondition where
  | sandboxEnvironmentRequired
deriving DecidableEq

/-! ## Enforcement -/

/-- `ComputeEnforcementInput`. -/
structure ComputeEnforcementInput where
  tier : Tier
  effectiveRiskClass : RiskClass
  operationalMode : OperationalMode
  toolClassification : Option JsString

/-- `EnforcementResolution`. -/
structure EnforcementResolution where
  mode : EnforcementMode
  sideEffects : List SideEffect
  preconditions : List Precondition
deriving DecidableEq

/-- `relaxOneNotch`. -/
def relaxOneNotch : EnforcementMode → EnforcementMode
  | .blocked => .sandboxRequired
  | .sandboxRequired => .enforce
  | .enforce => .ask
  | .ask => .warn
  | .warn => .observe
  | .observe => .observe

/-- `productionMode`. -/
def productionMode (t : Tier) (r : RiskClass) : EnforcementMode :=
  match r with
  | .e => .blocked
  | .d => if t = .starter then .blocked else if t = .business then .sandboxRequired else .enforce
  | .c => if t = .starter then .ask else .enforce
  | .b => .warn
  | .a => .observe

/-- The mode of the matrix of tier, class and operational mode, before the floor of the tool. -/
def matrixMode (t : Tier) (m : OperationalMode) (r : RiskClass) : EnforcementMode :=
  if m = .pilot then relaxOneNotch (productionMode t r) else productionMode t r

/-- The two classifications under the sandbox floor. -/
def computerUseClassifications : List JsString :=
  [jsString "anthropic_provider_hosted_computer_use", jsString "openai_provider_hosted_computer_use"]

/-- The mode after the floor of the tool. -/
def floorMode (toolClassification : Option JsString) (mode : EnforcementMode) : EnforcementMode :=
  if (∃ c ∈ toolClassification, c ∈ computerUseClassifications) ∧
      mode.rank < EnforcementMode.sandboxRequired.rank then .sandboxRequired else mode

/-- `computeEnforcement`. -/
def computeEnforcement (input : ComputeEnforcementInput) : EnforcementResolution :=
  if input.operationalMode = .dev ∨ input.operationalMode = .test then ⟨.observe, [], []⟩
  else
    let mode := floorMode input.toolClassification
      (matrixMode input.tier input.operationalMode input.effectiveRiskClass)
    { mode
      sideEffects :=
        (if EnforcementMode.ask.rank ≤ mode.rank then [.auditDetailLevelHigh] else []) ++
          if EnforcementMode.enforce.rank ≤ mode.rank then [.dlpPreScanRequired] else []
      preconditions :=
        if (mode = .sandboxRequired ∨ mode = .enforce) ∧ input.effectiveRiskClass = .d then
          [.sandboxEnvironmentRequired]
        else [] }

/-! ## The effective risk class -/

/-- `EscalationApplied`. -/
structure EscalationApplied where
  reason : JsString
  source : RiskClass
  target : RiskClass

/-- `computeEffectiveRiskClass`: the worst target of an escalation that matches the base. -/
def computeEffectiveRiskClass (base : RiskClass) (escalations : List EscalationApplied) :
    RiskClass :=
  runningMax RiskClass.order base ((escalations.filter (·.source = base)).map (·.target))

/-! ## The resolver -/

/-- `ToolClassificationLite`. -/
structure ToolClassificationLite where
  toolIndex : ℕ
  classification : JsString
  contributedRiskClass : RiskClass
deriving DecidableEq

/-- `DlpFindingLite`. -/
structure DlpFindingLite where
  detector : JsString
  signalClass : Option JsString
deriving DecidableEq

/-- `ResolveGovernanceInput`; of the capability only the base risk class is read. -/
structure ResolveGovernanceInput where
  baseRiskClass : RiskClass
  tenantTier : Tier
  operationalMode : OperationalMode
  toolClassifications : List ToolClassificationLite
  dlpFindings : List DlpFindingLite
  isMultipart : Bool

/-- `ResolvedGovernance`. -/
structure ResolvedGovernance where
  baseRiskClass : RiskClass
  effectiveRiskClass : RiskClass
  riskEscalationReasons : List JsString
  enforcementDecision : EnforcementMode

/-- `ddpClassifyDetector(f.detector, f.signal_class) === 'strong'`. -/
def DlpFindingLite.Strong (f : DlpFindingLite) : Prop :=
  f.signalClass = some (jsString "pii_strong") ∨
    f.signalClass ≠ some (jsString "pii_standard") ∧
      (f.detector = jsString "cpf" ∨ f.detector = jsString "cnpj")

instance (f : DlpFindingLite) : Decidable f.Strong := inferInstanceAs (Decidable (_ ∨ _))

/-- The reason that a finding adds. -/
def DlpFindingLite.reasonTag (f : DlpFindingLite) : JsString :=
  jsString "dlp:" ++ f.detector ++ jsString ":" ++
    if f.Strong then jsString "pii_strong" else jsString "pii_standard"

/-- The escalations that a finding adds. -/
def DlpFindingLite.escalations (f : DlpFindingLite) : List EscalationApplied :=
  if f.Strong then [⟨f.reasonTag, .a, .c⟩, ⟨f.reasonTag, .b, .c⟩, ⟨f.reasonTag, .c, .d⟩]
  else [⟨f.reasonTag, .a, .b⟩]

/-- `maxRisk`. -/
def maxRisk (r r' : RiskClass) : RiskClass := if r.order < r'.order then r' else r

/-- The reason that a tool adds. -/
def ToolClassificationLite.reasonTag (t : ToolClassificationLite) : JsString :=
  jsString "tool:" ++ t.classification ++ jsString ":" ++ t.contributedRiskClass.lower

/-- The escalations that a tool adds: from every class below its own. -/
def ToolClassificationLite.escalations (t : ToolClassificationLite) : List EscalationApplied :=
  ([.a, .b, .c, .d, .e] : List RiskClass).filterMap fun source =>
    let lifted := maxRisk source t.contributedRiskClass
    if lifted ≠ source then some ⟨t.reasonTag, source, lifted⟩ else none

namespace ResolveGovernanceInput

/-- `escalations`. -/
def escalations (i : ResolveGovernanceInput) : List EscalationApplied :=
  i.dlpFindings.flatMap DlpFindingLite.escalations ++
    i.toolClassifications.flatMap ToolClassificationLite.escalations ++
    if i.isMultipart then [⟨jsString "multipart_upload", .b, .c⟩] else []

/-- `reasons`. -/
def reasons (i : ResolveGovernanceInput) : List JsString :=
  i.dlpFindings.map DlpFindingLite.reasonTag ++
    i.toolClassifications.map ToolClassificationLite.reasonTag ++
    if i.isMultipart then [jsString "multipart_upload"] else []

/-- The effective risk class. -/
def effective (i : ResolveGovernanceInput) : RiskClass :=
  computeEffectiveRiskClass i.baseRiskClass i.escalations

end ResolveGovernanceInput

/-- One step of the reduction to the dominant tool. -/
def dominantStep (acc t : ToolClassificationLite) : ToolClassificationLite :=
  if maxRisk acc.contributedRiskClass t.contributedRiskClass = t.contributedRiskClass then t
  else acc

/-- `dominantTool`: the last one of the highest class. -/
def dominantTool (tools : List ToolClassificationLite) : Option ToolClassificationLite :=
  match tools with
  | [] => none
  | t :: rest => some (rest.foldl dominantStep t)

/-- `resolveGovernance`. -/
def resolveGovernance (i : ResolveGovernanceInput) : ResolvedGovernance where
  baseRiskClass := i.baseRiskClass
  effectiveRiskClass := i.effective
  riskEscalationReasons := i.reasons
  enforcementDecision := (computeEnforcement
    { tier := i.tenantTier
      effectiveRiskClass := i.effective
      operationalMode := i.operationalMode
      toolClassification := (dominantTool i.toolClassifications).map (·.classification) }).mode

/-! ## The effective class as a maximum -/

/-- The effective class is the least upper bound of the base and the matching targets. -/
lemma computeEffectiveRiskClass_le_iff {base r : RiskClass} {escalations : List EscalationApplied} :
    computeEffectiveRiskClass base escalations ≤ r ↔
      base ≤ r ∧ ∀ e ∈ escalations, e.source = base → e.target ≤ r := by
  unfold computeEffectiveRiskClass
  rw [RiskClass.le_def, rank_runningMax_le_iff, List.forall_mem_map]
  simp only [List.mem_filter, decide_eq_true_eq, and_imp]
  rfl

/-- The higher class of two. -/
lemma maxRisk_eq_max (r r' : RiskClass) : maxRisk r r' = max r r' := by
  unfold maxRisk
  split
  · exact (max_eq_right (le_of_lt (RiskClass.lt_def.mpr ‹_›))).symm
  · exact (max_eq_left (RiskClass.le_def.mpr (not_lt.mp ‹_›))).symm

/-- The escalations of a tool. -/
lemma mem_tool_escalations {t : ToolClassificationLite} {e : EscalationApplied} :
    e ∈ t.escalations ↔ e.source < t.contributedRiskClass ∧
      e = ⟨t.reasonTag, e.source, t.contributedRiskClass⟩ := by
  have hall : ∀ r : RiskClass, r ∈ ([.a, .b, .c, .d, .e] : List RiskClass) := by
    rintro (_ | _ | _ | _ | _) <;> decide
  unfold ToolClassificationLite.escalations
  rw [List.mem_filterMap]
  constructor
  · rintro ⟨source, -, h⟩
    rw [maxRisk_eq_max] at h
    dsimp only at h
    split at h
    · rename_i hne
      obtain rfl := Option.some.inj h
      have hlt : source < t.contributedRiskClass := by
        by_contra hge
        exact hne (max_eq_left (not_lt.mp hge))
      exact ⟨hlt, by rw [max_eq_right hlt.le]⟩
    · cases h
  · rintro ⟨hlt, heq⟩
    refine ⟨e.source, hall _, ?_⟩
    rw [maxRisk_eq_max, max_eq_right hlt.le]
    dsimp only
    rw [if_pos hlt.ne', ← heq]

/-- A tool lifts every class to its own. -/
lemma tool_escalations_le_iff {t : ToolClassificationLite} {base r : RiskClass} (hbase : base ≤ r) :
    (∀ e ∈ t.escalations, e.source = base → e.target ≤ r) ↔ t.contributedRiskClass ≤ r := by
  constructor
  · intro h
    by_contra hgt
    have hlt : base < t.contributedRiskClass := hbase.trans_lt (not_le.mp hgt)
    exact hgt (h ⟨t.reasonTag, base, t.contributedRiskClass⟩
      (mem_tool_escalations.mpr ⟨hlt, rfl⟩) rfl)
  · intro h e he _
    rw [(mem_tool_escalations.mp he).2]
    exact h

/-- A strong finding lifts the classes up to `C`, any other one only `A`. -/
lemma finding_escalations_le_iff {f : DlpFindingLite} {base r : RiskClass} (hbase : base ≤ r) :
    (∀ e ∈ f.escalations, e.source = base → e.target ≤ r) ↔
      (f.Strong → base ≤ .b → .c ≤ r) ∧ (f.Strong → base = .c → .d ≤ r) ∧
        (¬f.Strong → base = .a → .b ≤ r) := by
  unfold DlpFindingLite.escalations
  by_cases hs : f.Strong
  · rw [if_pos hs]
    cases base <;> simp [hs, RiskClass.le_def, RiskClass.order]
  · rw [if_neg hs]
    cases base <;> simp [hs]

/-- **The effective class is the least one that is above the base, above every tool and above what
the findings and the upload demand.** -/
theorem effective_le_iff {i : ResolveGovernanceInput} {r : RiskClass} :
    i.effective ≤ r ↔ i.baseRiskClass ≤ r ∧
      (∀ t ∈ i.toolClassifications, t.contributedRiskClass ≤ r) ∧
      (∀ f ∈ i.dlpFindings, (f.Strong → i.baseRiskClass ≤ .b → .c ≤ r) ∧
        (f.Strong → i.baseRiskClass = .c → .d ≤ r) ∧
        (¬f.Strong → i.baseRiskClass = .a → .b ≤ r)) ∧
      (i.isMultipart = true → i.baseRiskClass = .b → .c ≤ r) := by
  unfold ResolveGovernanceInput.effective
  rw [computeEffectiveRiskClass_le_iff]
  refine and_congr_right fun hbase => ?_
  have hmultipart : (∀ e ∈ (if i.isMultipart then
      [(⟨jsString "multipart_upload", .b, .c⟩ : EscalationApplied)] else []),
        e.source = i.baseRiskClass → e.target ≤ r) ↔
      (i.isMultipart = true → i.baseRiskClass = .b → .c ≤ r) := by
    cases i.isMultipart <;> simp [eq_comm]
  unfold ResolveGovernanceInput.escalations
  rw [List.forall_mem_append, List.forall_mem_append, hmultipart]
  simp only [List.forall_mem_flatMap, tool_escalations_le_iff hbase,
    finding_escalations_le_iff hbase]
  exact ⟨fun ⟨⟨hf, ht⟩, hm⟩ => ⟨ht, hf, hm⟩, fun ⟨ht, hf, hm⟩ => ⟨⟨hf, ht⟩, hm⟩⟩

/-- More tools and findings do not lower the effective class. -/
theorem effective_mono {i : ResolveGovernanceInput} {tools : List ToolClassificationLite}
    {findings : List DlpFindingLite} (htools : i.toolClassifications ⊆ tools)
    (hfindings : i.dlpFindings ⊆ findings) :
    i.effective ≤
      { i with toolClassifications := tools, dlpFindings := findings : ResolveGovernanceInput }.effective := by
  rw [effective_le_iff]
  have h := (effective_le_iff (i := { i with
    toolClassifications := tools, dlpFindings := findings })).mp le_rfl
  obtain ⟨hbase, ht, hf, hm⟩ := h
  exact ⟨hbase, fun t hmem => ht t (htools hmem), fun f hmem => hf f (hfindings hmem), hm⟩

/-- The order of tools and findings does not matter for the effective class. -/
theorem effective_perm {i : ResolveGovernanceInput} {tools : List ToolClassificationLite}
    {findings : List DlpFindingLite} (htools : tools.Perm i.toolClassifications)
    (hfindings : findings.Perm i.dlpFindings) :
    { i with toolClassifications := tools, dlpFindings := findings : ResolveGovernanceInput }.effective =
      i.effective := by
  refine le_antisymm ?_ (effective_mono htools.symm.subset hfindings.symm.subset)
  exact effective_mono (i := { i with toolClassifications := tools, dlpFindings := findings })
    htools.subset hfindings.subset

/-! ## The matrix -/

/-- A higher class never relaxes the matrix. -/
lemma matrixMode_mono (t : Tier) (m : OperationalMode) {r r' : RiskClass} (h : r ≤ r') :
    (matrixMode t m r).rank ≤ (matrixMode t m r').rank := by
  rw [RiskClass.le_def] at h
  revert h
  cases t <;> cases m <;> cases r <;> cases r' <;> decide

/-- The class from which on the matrix itself demands a sandbox. -/
def sandboxClass (t : Tier) (m : OperationalMode) : RiskClass :=
  if t = .starter ∨ t = .business ∧ m ≠ .pilot then .d else .e

/-- The matrix demands a sandbox exactly from that class on. -/
lemma sandbox_le_matrixMode_iff (t : Tier) (m : OperationalMode) (r : RiskClass) :
    EnforcementMode.sandboxRequired.rank ≤ (matrixMode t m r).rank ↔ sandboxClass t m ≤ r := by
  rw [RiskClass.le_def]
  cases t <;> cases m <;> cases r <;> decide

/-- The tool is provider-hosted computer use. -/
def ToolClassificationLite.ComputerUse (t : ToolClassificationLite) : Prop :=
  t.classification ∈ computerUseClassifications

instance (t : ToolClassificationLite) : Decidable t.ComputerUse :=
  inferInstanceAs (Decidable (_ ∈ _))

/-- The reduction takes the next tool unless its class is lower. -/
lemma dominantStep_eq (acc t : ToolClassificationLite) :
    dominantStep acc t =
      if acc.contributedRiskClass ≤ t.contributedRiskClass then t else acc := by
  unfold dominantStep
  simp only [maxRisk_eq_max, max_eq_right_iff]

/-- The reduction returns one of the tools, and one of the highest class. -/
lemma foldl_dominantStep (rest : List ToolClassificationLite) (acc : ToolClassificationLite) :
    (rest.foldl dominantStep acc = acc ∨ rest.foldl dominantStep acc ∈ rest) ∧
      acc.contributedRiskClass ≤ (rest.foldl dominantStep acc).contributedRiskClass ∧
      ∀ t ∈ rest, t.contributedRiskClass ≤
        (rest.foldl dominantStep acc).contributedRiskClass := by
  induction rest generalizing acc with
  | nil => exact ⟨.inl rfl, le_rfl, List.forall_mem_nil _⟩
  | cons u rest ih =>
    rw [List.foldl_cons, dominantStep_eq]
    by_cases hle : acc.contributedRiskClass ≤ u.contributedRiskClass
    · rw [if_pos hle]
      obtain ⟨hmem, hacc, hrest⟩ := ih u
      refine ⟨?_, hle.trans hacc, List.forall_mem_cons.mpr ⟨hacc, hrest⟩⟩
      rcases hmem with hmem | hmem
      · exact .inr (List.mem_cons.mpr (.inl hmem))
      · exact .inr (List.mem_cons_of_mem _ hmem)
    · rw [if_neg hle]
      obtain ⟨hmem, hacc, hrest⟩ := ih acc
      refine ⟨hmem.imp id (List.mem_cons_of_mem _), hacc,
        List.forall_mem_cons.mpr ⟨(le_of_lt (not_le.mp hle)).trans hacc, hrest⟩⟩

/-- The dominant tool is in the list and of the highest class. -/
lemma dominantTool_mem {tools : List ToolClassificationLite} {t : ToolClassificationLite}
    (h : t ∈ dominantTool tools) :
    t ∈ tools ∧ ∀ t' ∈ tools, t'.contributedRiskClass ≤ t.contributedRiskClass := by
  cases tools with
  | nil => cases h
  | cons u rest =>
    obtain ⟨hmem, hacc, hrest⟩ := foldl_dominantStep rest u
    obtain rfl := Option.some.inj h
    exact ⟨List.mem_cons.mpr hmem, List.forall_mem_cons.mpr ⟨hacc, hrest⟩⟩

/-- A tool at the end that is of the highest class is the dominant one. -/
lemma dominantTool_append {tools : List ToolClassificationLite} {t : ToolClassificationLite}
    (h : ∀ t' ∈ tools, t'.contributedRiskClass ≤ t.contributedRiskClass) :
    dominantTool (tools ++ [t]) = some t := by
  cases tools with
  | nil => rfl
  | cons u rest =>
    have hdom := @dominantTool_mem (u :: rest) _ rfl
    have hle := h _ hdom.1
    show some (List.foldl _ u (rest ++ [t])) = some t
    rw [List.foldl_append, List.foldl_cons, List.foldl_nil, dominantStep_eq, if_pos hle]

/-! ## The decision -/

section Decision

variable {i : ResolveGovernanceInput}

/-- Development and test requests are only observed. -/
lemma decision_of_dev (h : i.operationalMode = .dev ∨ i.operationalMode = .test) :
    (resolveGovernance i).enforcementDecision = .observe := by
  unfold resolveGovernance computeEnforcement
  rw [if_pos h]

/-- In the other modes the matrix decides, and then the floor of the dominant tool. -/
lemma decision_of_not_dev (h : ¬(i.operationalMode = .dev ∨ i.operationalMode = .test)) :
    (resolveGovernance i).enforcementDecision =
      floorMode ((dominantTool i.toolClassifications).map (·.classification))
        (matrixMode i.tenantTier i.operationalMode i.effective) := by
  unfold resolveGovernance computeEnforcement
  rw [if_neg h]

/-- The floor does not lower a mode. -/
lemma rank_le_floorMode (c : Option JsString) (mode : EnforcementMode) :
    mode.rank ≤ (floorMode c mode).rank := by
  unfold floorMode
  split
  · exact le_of_lt (And.right ‹_›)
  · exact le_rfl

/-- Without computer use the floor does nothing. -/
lemma floorMode_of_not_computerUse {tools : List ToolClassificationLite}
    (h : ¬∃ t ∈ tools, t.ComputerUse) (mode : EnforcementMode) :
    floorMode ((dominantTool tools).map (·.classification)) mode = mode := by
  unfold floorMode
  rw [if_neg]
  rintro ⟨⟨c, hc, huse⟩, -⟩
  obtain ⟨t, ht, rfl⟩ := Option.mem_map.mp hc
  exact h ⟨t, (dominantTool_mem ht).1, huse⟩

/-- Above the sandbox the floor does nothing. -/
lemma floorMode_of_sandbox {mode : EnforcementMode}
    (h : EnforcementMode.sandboxRequired.rank ≤ mode.rank) (c : Option JsString) :
    floorMode c mode = mode := by
  unfold floorMode
  rw [if_neg]
  exact fun hfloor => absurd hfloor.2 (not_lt.mpr h)

end Decision

/-! ## The law -/

/-- The input with other tools and findings. -/
def ResolveGovernanceInput.withLists (i : ResolveGovernanceInput)
    (tools : List ToolClassificationLite) (findings : List DlpFindingLite) :
    ResolveGovernanceInput :=
  { i with toolClassifications := tools, dlpFindings := findings }

/-- The resolver is independent of the order of tools and findings, monotone when one is added, and
demands a sandbox for computer use, at this input. -/
structure GovernanceLaw (i : ResolveGovernanceInput) : Prop where
  perm : ∀ tools findings, tools.Perm i.toolClassifications → findings.Perm i.dlpFindings →
    (resolveGovernance (i.withLists tools findings)).effectiveRiskClass =
        (resolveGovernance i).effectiveRiskClass ∧
      (resolveGovernance (i.withLists tools findings)).enforcementDecision =
        (resolveGovernance i).enforcementDecision
  mono_tool : ∀ t tools, tools.Perm (t :: i.toolClassifications) →
    (resolveGovernance i).effectiveRiskClass ≤
        (resolveGovernance (i.withLists tools i.dlpFindings)).effectiveRiskClass ∧
      (resolveGovernance i).enforcementDecision.rank ≤
        (resolveGovernance (i.withLists tools i.dlpFindings)).enforcementDecision.rank
  mono_finding : ∀ f findings, findings.Perm (f :: i.dlpFindings) →
    (resolveGovernance i).effectiveRiskClass ≤
        (resolveGovernance (i.withLists i.toolClassifications findings)).effectiveRiskClass ∧
      (resolveGovernance i).enforcementDecision.rank ≤
        (resolveGovernance (i.withLists i.toolClassifications findings)).enforcementDecision.rank
  sandbox : i.operationalMode = .production ∨ i.operationalMode = .pilot →
    (∃ t ∈ i.toolClassifications, t.ComputerUse) →
    EnforcementMode.sandboxRequired.rank ≤ (resolveGovernance i).enforcementDecision.rank

/-- The base class, a tool or a finding brings the request to the class from which on the matrix
itself demands a sandbox. -/
def SandboxedByMatrix (i : ResolveGovernanceInput) : Prop :=
  sandboxClass i.tenantTier i.operationalMode ≤ i.baseRiskClass ∨
    (∃ t ∈ i.toolClassifications,
      sandboxClass i.tenantTier i.operationalMode ≤ t.contributedRiskClass) ∨
    sandboxClass i.tenantTier i.operationalMode = .d ∧ i.baseRiskClass = .c ∧
      ∃ f ∈ i.dlpFindings, f.Strong

instance (i : ResolveGovernanceInput) : Decidable (SandboxedByMatrix i) :=
  inferInstanceAs (Decidable (_ ∨ _ ∨ _))

/-- The condition in terms of the effective class. -/
lemma sandboxedByMatrix_iff {i : ResolveGovernanceInput} :
    SandboxedByMatrix i ↔ EnforcementMode.sandboxRequired.rank ≤
      (matrixMode i.tenantTier i.operationalMode i.effective).rank := by
  rw [sandbox_le_matrixMode_iff]
  have hupper := (effective_le_iff (i := i)).mp le_rfl
  constructor
  · rintro (h | ⟨t, ht, h⟩ | ⟨hclass, hbase, f, hf, hstrong⟩)
    · exact h.trans hupper.1
    · exact h.trans (hupper.2.1 t ht)
    · rw [hclass]
      exact (hupper.2.2.1 f hf).2.1 hstrong hbase
  · intro h
    by_contra hno
    unfold SandboxedByMatrix at hno
    push Not at hno
    obtain ⟨hbase, htools, hfindings⟩ := hno
    -- then everything stays below, and so does the effective class
    have hD : sandboxClass i.tenantTier i.operationalMode = .d ∨
        sandboxClass i.tenantTier i.operationalMode = .e := by
      unfold sandboxClass
      split
      · exact .inl rfl
      · exact .inr rfl
    have hbelow : ∀ r : RiskClass, r < sandboxClass i.tenantTier i.operationalMode ↔
        r ≤ if sandboxClass i.tenantTier i.operationalMode = .d then .c else .d := by
      intro r
      rcases hD with hD | hD <;> rw [hD] <;> cases r <;> decide
    have hlt : i.effective < sandboxClass i.tenantTier i.operationalMode := by
      rw [hbelow, effective_le_iff]
      refine ⟨(hbelow _).mp hbase, fun t ht => (hbelow _).mp (htools t ht), fun f hf => ?_, ?_⟩
      · refine ⟨fun _ _ => ?_, fun hstrong hC => ?_, fun _ _ => ?_⟩
        · split <;> decide
        · rw [if_neg fun hclass => hfindings hclass hC f hf hstrong]
        · split <;> decide
      · intro _ _
        split <;> decide
    exact absurd h (not_le.mpr hlt)

/-- More tools or findings keep a request above the matrix's sandbox class. -/
lemma matrix_rank_mono {i : ResolveGovernanceInput} {tools : List ToolClassificationLite}
    {findings : List DlpFindingLite} (htools : i.toolClassifications ⊆ tools)
    (hfindings : i.dlpFindings ⊆ findings) :
    (matrixMode i.tenantTier i.operationalMode i.effective).rank ≤
      (matrixMode i.tenantTier i.operationalMode (i.withLists tools findings).effective).rank :=
  matrixMode_mono _ _ (effective_mono htools hfindings)

/-- The effective class does not depend on the order. -/
lemma effective_withLists {i : ResolveGovernanceInput} {tools : List ToolClassificationLite}
    {findings : List DlpFindingLite} (htools : tools.Perm i.toolClassifications)
    (hfindings : findings.Perm i.dlpFindings) :
    (i.withLists tools findings).effective = i.effective :=
  effective_perm htools hfindings

/-- Where the floor has no effect, neither in this input nor in one with more tools and findings,
the law holds. -/
lemma governanceLaw_of_floor {i : ResolveGovernanceInput}
    (hmode : ¬(i.operationalMode = .dev ∨ i.operationalMode = .test))
    (hfloor : ∀ tools findings, tools.Perm i.toolClassifications →
      i.dlpFindings ⊆ findings →
      (resolveGovernance (i.withLists tools findings)).enforcementDecision =
        matrixMode i.tenantTier i.operationalMode (i.withLists tools findings).effective)
    (hsandbox : (∃ t ∈ i.toolClassifications, t.ComputerUse) →
      EnforcementMode.sandboxRequired.rank ≤
        (matrixMode i.tenantTier i.operationalMode i.effective).rank) : GovernanceLaw i where
  perm tools findings htools hfindings := by
    have heff := effective_withLists htools hfindings
    have hself := hfloor i.toolClassifications i.dlpFindings (.refl _) (List.Subset.refl _)
    refine ⟨heff, ?_⟩
    rw [hfloor tools findings htools hfindings.symm.subset, heff]
    exact hself.symm
  mono_tool t tools hperm := by
    have hsub : i.toolClassifications ⊆ tools :=
      fun u hu => hperm.mem_iff.mpr (List.mem_cons_of_mem _ hu)
    refine ⟨effective_mono hsub (List.Subset.refl _), ?_⟩
    have hself := hfloor i.toolClassifications i.dlpFindings (.refl _) (List.Subset.refl _)
    have hnext := decision_of_not_dev (i := i.withLists tools i.dlpFindings) hmode
    have hself' : (resolveGovernance i).enforcementDecision =
        matrixMode i.tenantTier i.operationalMode i.effective := hself
    rw [hself', hnext]
    exact (matrix_rank_mono hsub (List.Subset.refl _)).trans (rank_le_floorMode _ _)
  mono_finding f findings hperm := by
    have hsub : i.dlpFindings ⊆ findings :=
      fun g hg => hperm.mem_iff.mpr (List.mem_cons_of_mem _ hg)
    refine ⟨effective_mono (List.Subset.refl _) hsub, ?_⟩
    have hself : (resolveGovernance i).enforcementDecision =
        matrixMode i.tenantTier i.operationalMode i.effective :=
      hfloor i.toolClassifications i.dlpFindings (.refl _) (List.Subset.refl _)
    rw [hself, hfloor i.toolClassifications findings (.refl _) hsub]
    exact matrix_rank_mono (List.Subset.refl _) hsub
  sandbox _ huse := by
    have hself : (resolveGovernance i).enforcementDecision =
        matrixMode i.tenantTier i.operationalMode i.effective :=
      hfloor i.toolClassifications i.dlpFindings (.refl _) (List.Subset.refl _)
    rw [hself]
    exact hsandbox huse

/-- **The law of the resolver holds exactly for these inputs**: development and test requests,
requests without provider-hosted computer use, and requests that the matrix itself sandboxes. -/
theorem resolveGovernance_lawful_iff (i : ResolveGovernanceInput) :
    GovernanceLaw i ↔ (i.operationalMode = .dev ∨ i.operationalMode = .test) ∨
      (¬∃ t ∈ i.toolClassifications, t.ComputerUse) ∨ SandboxedByMatrix i := by
  constructor
  · intro h
    by_contra hno
    push Not at hno
    obtain ⟨⟨hdev, htest⟩, ⟨u, hu, huse⟩, hmatrix⟩ := hno
    have hmode : ¬(i.operationalMode = .dev ∨ i.operationalMode = .test) := by
      rintro (h | h)
      · exact hdev h
      · exact htest h
    have hprod : i.operationalMode = .production ∨ i.operationalMode = .pilot := by
      cases hm : i.operationalMode <;> simp_all
    have hsandbox := h.sandbox hprod ⟨u, hu, huse⟩
    rw [sandboxedByMatrix_iff] at hmatrix
    -- a further tool of the highest class, which is not computer use, becomes the dominant one
    obtain ⟨d, hd⟩ : ∃ d, d ∈ dominantTool i.toolClassifications := by
      cases htools : i.toolClassifications with
      | nil =>
        rw [htools] at hu
        cases hu
      | cons t rest => exact ⟨_, rfl⟩
    obtain ⟨hdmem, hdmax⟩ := dominantTool_mem hd
    let other : ToolClassificationLite :=
      ⟨i.toolClassifications.length, jsString "custom", d.contributedRiskClass⟩
    have hperm : (i.toolClassifications ++ [other]).Perm (other :: i.toolClassifications) :=
      List.perm_append_comm
    have hmono := (h.mono_tool other _ hperm).2
    have heff : (i.withLists (i.toolClassifications ++ [other]) i.dlpFindings).effective =
        i.effective := by
      refine le_antisymm ?_ (effective_mono (by simp) (List.Subset.refl _))
      have hupper := (effective_le_iff (i := i)).mp le_rfl
      refine effective_le_iff.mpr ⟨hupper.1, fun t ht => ?_, hupper.2.2⟩
      rcases List.mem_append.mp ht with ht | ht
      · exact hupper.2.1 t ht
      · obtain rfl := List.mem_singleton.mp ht
        exact hupper.2.1 d hdmem
    have hnext := decision_of_not_dev
      (i := i.withLists (i.toolClassifications ++ [other]) i.dlpFindings) hmode
    have hdom : dominantTool (i.toolClassifications ++ [other]) = some other :=
      dominantTool_append hdmax
    have hplain : floorMode ((dominantTool (i.toolClassifications ++ [other])).map
        (·.classification)) (matrixMode i.tenantTier i.operationalMode i.effective) =
        matrixMode i.tenantTier i.operationalMode i.effective := by
      rw [hdom]
      unfold floorMode
      rw [if_neg]
      rintro ⟨⟨c, hc, hcu⟩, -⟩
      obtain rfl := Option.some.inj hc
      have hother : jsString "custom" ∉ computerUseClassifications := by decide
      exact hother hcu
    rw [heff] at hnext
    have hdecision : (resolveGovernance (i.withLists (i.toolClassifications ++ [other])
        i.dlpFindings)).enforcementDecision =
        matrixMode i.tenantTier i.operationalMode i.effective := hnext.trans hplain
    rw [hdecision] at hmono
    exact hmatrix (hsandbox.trans hmono)
  · intro h
    by_cases hmode : i.operationalMode = .dev ∨ i.operationalMode = .test
    · have hobserve : ∀ tools findings,
          (resolveGovernance (i.withLists tools findings)).enforcementDecision = .observe :=
        fun tools findings => decision_of_dev (i := i.withLists tools findings) hmode
      have hself : (resolveGovernance i).enforcementDecision = .observe := decision_of_dev hmode
      refine ⟨fun tools findings htools hfindings => ⟨effective_withLists htools hfindings, ?_⟩,
        fun t tools hperm => ⟨effective_mono (fun u hu => ?_) (List.Subset.refl _), ?_⟩,
        fun f findings hperm => ⟨effective_mono (List.Subset.refl _) (fun g hg => ?_), ?_⟩,
        fun hprod => ?_⟩
      · rw [hobserve, hself]
      · exact hperm.mem_iff.mpr (List.mem_cons_of_mem _ hu)
      · rw [hobserve, hself]
      · exact hperm.mem_iff.mpr (List.mem_cons_of_mem _ hg)
      · rw [hobserve, hself]
      · rcases hmode with hm | hm <;> rw [hm] at hprod <;> rcases hprod with hp | hp <;> cases hp
    · rcases h with h | h | h
      · exact absurd h hmode
      · refine governanceLaw_of_floor hmode ?_ fun huse => absurd huse h
        intro tools findings hperm _
        rw [decision_of_not_dev (i := i.withLists tools findings) hmode]
        refine floorMode_of_not_computerUse ?_ _
        rintro ⟨t, ht, huse⟩
        exact h ⟨t, hperm.subset ht, huse⟩
      · have hsandbox := sandboxedByMatrix_iff.mp h
        refine governanceLaw_of_floor hmode ?_ fun _ => hsandbox
        intro tools findings hperm hsub
        rw [decision_of_not_dev (i := i.withLists tools findings) hmode]
        exact floorMode_of_sandbox
          (hsandbox.trans (matrix_rank_mono hperm.symm.subset hsub)) _

/-- A request with computer use and a shell, both of class `D`. -/
def computerUseAndBash : ResolveGovernanceInput where
  baseRiskClass := .b
  tenantTier := .enterprise
  operationalMode := .production
  toolClassifications :=
    [⟨0, jsString "anthropic_provider_hosted_computer_use", .d⟩,
      ⟨1, jsString "anthropic_defined_client_executed_bash", .d⟩]
  dlpFindings := []
  isMultipart := false

/-- With the shell last the decision is only `enforce`. -/
theorem computerUse_without_sandbox :
    (resolveGovernance computerUseAndBash).enforcementDecision = .enforce ∧
      ¬GovernanceLaw computerUseAndBash := by
  have hdecision : (resolveGovernance computerUseAndBash).enforcementDecision = .enforce := by
    decide +kernel
  refine ⟨hdecision, fun h => ?_⟩
  have hsandbox := h.sandbox (.inl rfl) ⟨_, List.mem_cons_self, by decide⟩
  rw [hdecision] at hsandbox
  exact absurd hsandbox (by decide)

end GovAI
