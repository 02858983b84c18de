import GovAI.Audit.CanonicalJson
import GovAI.Library.KeyedFold
import Mathlib.Data.List.TakeWhile
import Mathlib.Data.Prod.Lex

/-!
# Source precedence

`mergeFindingsWithPrecedenceDecisions` of `packages/dlp-br/src/sensitive-findings.ts` with
`decideSourcePrecedence` of `sensitive-provenance.ts`.  For each key the loop keeps the authoritative
finding, by quality of its source and then by strictness, and the strictest external signal that it
met beside a native finding.  Which finding is selected does not depend on the order; which external
signal is kept does, unless the findings of the key are as in `OrderFree` (`source_precedence_iff`).
-/

namespace GovAI

/-! ## Findings -/

/-- `SensitiveDataSourceQuality`. -/
inductive SourceQuality where
  | primaryGovaiEvidence
  | providerGenerated
  | customerAttested
  | normalizedExternal
  | unverifiedExternal
deriving DecidableEq

/-- `QUALITY_RANK`. -/
def SourceQuality.rank : SourceQuality → ℕ
  | .primaryGovaiEvidence => 4
  | .providerGenerated => 3
  | .customerAttested => 2
  | .normalizedExternal => 1
  | .unverifiedExternal => 0

/-- `compareSourceQuality`. -/
def compareSourceQuality (a b : SourceQuality) : ℤ :=
  if b.rank < a.rank then 1 else if a.rank < b.rank then -1 else 0

/-- `isNativeQuality`. -/
def isNativeQuality (q : SourceQuality) : Bool := q == .primaryGovaiEvidence

/-- `SensitiveDataRecommendedAction`. -/
inductive RecommendedAction where
  | observe
  | warn
  | review
  | approveRequired
  | deny
deriving DecidableEq

/-- `recommendedActionRank`. -/
def recommendedActionRank : RecommendedAction → ℕ
  | .observe => 0
  | .warn => 1
  | .review => 2
  | .approveRequired => 3
  | .deny => 4

/-- `SensitiveDataFinding`, as far as the merge reads it.  `ref` is the identity of the object, so
that equality is `===`. -/
structure SensitiveDataFinding where
  ref : ℕ
  detector : JsString
  matchHash : JsString
  recommendedAction : RecommendedAction
  sourceQuality : SourceQuality
deriving DecidableEq

/-- `FindingForMerge`. -/
structure FindingForMerge (T : Type) where
  value : T
  sourceQuality : SourceQuality
  actionRank : ℕ
deriving DecidableEq

/-- `SourcePrecedenceReason`. -/
inductive SourcePrecedenceReason where
  | nativePrimarySelected
  | externalEscalationPreserved
  | higherQualitySelected
  | stricterActionSelected
  | deterministicTie
deriving DecidableEq

/-- `SourcePrecedenceDecision`. -/
structure SourcePrecedenceDecision (T : Type) where
  selected : FindingForMerge T
  escalation : Option (FindingForMerge T)
  reason : SourcePrecedenceReason
deriving DecidableEq

/-- `decideSourcePrecedence`. -/
def decideSourcePrecedence {T : Type} (a b : FindingForMerge T) : SourcePrecedenceDecision T :=
  let aNative := isNativeQuality a.sourceQuality
  let bNative := isNativeQuality b.sourceQuality
  if aNative && !bNative then
    if a.actionRank < b.actionRank then ⟨a, some b, .externalEscalationPreserved⟩
    else ⟨a, none, .nativePrimarySelected⟩
  else if bNative && !aNative then
    if b.actionRank < a.actionRank then ⟨b, some a, .externalEscalationPreserved⟩
    else ⟨b, none, .nativePrimarySelected⟩
  else if 0 < compareSourceQuality a.sourceQuality b.sourceQuality then
    ⟨a, none, .higherQualitySelected⟩
  else if compareSourceQuality a.sourceQuality b.sourceQuality < 0 then
    ⟨b, none, .higherQualitySelected⟩
  else if b.actionRank < a.actionRank then ⟨a, none, .stricterActionSelected⟩
  else if a.actionRank < b.actionRank then ⟨b, none, .stricterActionSelected⟩
  else ⟨a, none, .deterministicTie⟩

/-- `chooseEscalationCandidate`. -/
def chooseEscalationCandidate {T : Type} (a b : FindingForMerge T) : FindingForMerge T :=
  if a.actionRank ≠ b.actionRank then
    if b.actionRank < a.actionRank then a else b
  else if compareSourceQuality a.sourceQuality b.sourceQuality ≠ 0 then
    if 0 < compareSourceQuality a.sourceQuality b.sourceQuality then a else b
  else a

/-- `wrap`. -/
def wrapFinding (f : SensitiveDataFinding) : FindingForMerge SensitiveDataFinding where
  value := f
  sourceQuality := f.sourceQuality
  actionRank := recommendedActionRank f.recommendedAction

/-- The decision of a key. -/
abbrev FindingDecision := SourcePrecedenceDecision SensitiveDataFinding

/-- The prior escalation is reconciled with the one just decided; neither may be the selected
finding. -/
def reconcileEscalation (priorEsc : FindingForMerge SensitiveDataFinding)
    (decided : FindingDecision) : FindingDecision :=
  match (priorEsc :: decided.escalation.toList).filter (·.value ≠ decided.selected.value) with
  | [x, y] => { decided with escalation := some (chooseEscalationCandidate x y) }
  | [x] => { decided with escalation := some x }
  | _ => decided

/-- `consider` for the key of the finding: the decision before, if any, and the one after. -/
def considerFinding (existing : Option FindingDecision) (f : SensitiveDataFinding) :
    FindingDecision :=
  match existing with
  | none => ⟨wrapFinding f, none, .deterministicTie⟩
  | some existing =>
    let decided := decideSourcePrecedence existing.selected (wrapFinding f)
    match existing.escalation with
    | none => decided
    | some priorEsc => reconcileEscalation priorEsc decided

/-- The default key of a finding. -/
def defaultKey (f : SensitiveDataFinding) : JsString :=
  f.detector ++ jsString ":" ++ f.matchHash

/-- `mergeFindingsWithPrecedenceDecisions`; the entries are in the order of `order`. -/
def mergeFindingsWithPrecedenceDecisions (a b : List SensitiveDataFinding)
    (keyOf : Option (SensitiveDataFinding → JsString)) : List (JsString × FindingDecision) :=
  let key := keyOf.getD defaultKey
  foldEntries key considerFinding (foldEntries key considerFinding [] a) b

/-! ## The selected finding -/

/-- Precedence: quality first, then strictness. -/
def precedence (f : SensitiveDataFinding) : ℕ ×ₗ ℕ :=
  toLex (f.sourceQuality.rank, recommendedActionRank f.recommendedAction)

/-- A finding of native quality. -/
def SensitiveDataFinding.Native (f : SensitiveDataFinding) : Prop :=
  f.sourceQuality = .primaryGovaiEvidence

instance (f : SensitiveDataFinding) : Decidable f.Native :=
  inferInstanceAs (Decidable (_ = _))

/-- The action rank of a finding. -/
def SensitiveDataFinding.actionRank (f : SensitiveDataFinding) : ℕ :=
  recommendedActionRank f.recommendedAction

@[simp] lemma isNativeQuality_iff {f : SensitiveDataFinding} :
    isNativeQuality f.sourceQuality = true ↔ f.Native := by
  simp [isNativeQuality, SensitiveDataFinding.Native]

@[simp] lemma isNativeQuality_eq_false_iff {f : SensitiveDataFinding} :
    isNativeQuality f.sourceQuality = false ↔ ¬f.Native := by
  rw [← isNativeQuality_iff, Bool.not_eq_true]

/-- Native findings have the highest quality rank, and no others do. -/
lemma native_iff_rank {f : SensitiveDataFinding} : f.Native ↔ 4 ≤ f.sourceQuality.rank := by
  unfold SensitiveDataFinding.Native
  cases f.sourceQuality <;> decide

/-- A finding takes precedence by a higher quality, or by a stricter action at equal quality. -/
lemma precedence_lt_iff {f g : SensitiveDataFinding} :
    precedence f < precedence g ↔ f.sourceQuality.rank < g.sourceQuality.rank ∨
      f.sourceQuality.rank = g.sourceQuality.rank ∧ f.actionRank < g.actionRank :=
  Prod.Lex.toLex_lt_toLex

lemma precedence_le_iff {f g : SensitiveDataFinding} :
    precedence f ≤ precedence g ↔ f.sourceQuality.rank < g.sourceQuality.rank ∨
      f.sourceQuality.rank = g.sourceQuality.rank ∧ f.actionRank ≤ g.actionRank :=
  Prod.Lex.toLex_le_toLex

/-- Findings of one precedence have one quality and one action rank. -/
lemma precedence_eq_iff {f g : SensitiveDataFinding} :
    precedence f = precedence g ↔
      f.sourceQuality = g.sourceQuality ∧ f.actionRank = g.actionRank := by
  have hrank : ∀ p q : SourceQuality, p.rank = q.rank ↔ p = q := by
    rintro (_ | _ | _ | _ | _) (_ | _ | _ | _ | _) <;> decide
  unfold precedence SensitiveDataFinding.actionRank
  rw [toLex_inj, Prod.mk.injEq, hrank]

/-- A native finding stays selected beside an external one, which is kept if it is stricter. -/
lemma decide_native_external {f g : SensitiveDataFinding} (hf : f.Native) (hg : ¬g.Native) :
    decideSourcePrecedence (wrapFinding f) (wrapFinding g) =
      if f.actionRank < g.actionRank then
        ⟨wrapFinding f, some (wrapFinding g), .externalEscalationPreserved⟩
      else ⟨wrapFinding f, none, .nativePrimarySelected⟩ := by
  have hf' : isNativeQuality f.sourceQuality = true := isNativeQuality_iff.mpr hf
  have hg' : isNativeQuality g.sourceQuality = false := isNativeQuality_eq_false_iff.mpr hg
  simp only [decideSourcePrecedence, wrapFinding, hf', hg']
  rfl

/-- A native finding replaces an external one, which is kept if it is stricter. -/
lemma decide_external_native {f g : SensitiveDataFinding} (hf : ¬f.Native) (hg : g.Native) :
    decideSourcePrecedence (wrapFinding f) (wrapFinding g) =
      if g.actionRank < f.actionRank then
        ⟨wrapFinding g, some (wrapFinding f), .externalEscalationPreserved⟩
      else ⟨wrapFinding g, none, .nativePrimarySelected⟩ := by
  have hf' : isNativeQuality f.sourceQuality = false := isNativeQuality_eq_false_iff.mpr hf
  have hg' : isNativeQuality g.sourceQuality = true := isNativeQuality_iff.mpr hg
  simp only [decideSourcePrecedence, wrapFinding, hf', hg']
  rfl

/-- Of two native or two external findings one is selected and nothing is kept of the other. -/
lemma decide_same {f g : SensitiveDataFinding} (h : f.Native ↔ g.Native) :
    (decideSourcePrecedence (wrapFinding f) (wrapFinding g)).selected =
        wrapFinding (if precedence f < precedence g then g else f) ∧
      (decideSourcePrecedence (wrapFinding f) (wrapFinding g)).escalation = none := by
  have hsame : isNativeQuality f.sourceQuality = isNativeQuality g.sourceQuality := by
    rw [Bool.eq_iff_iff, isNativeQuality_iff, isNativeQuality_iff]
    exact h
  simp only [precedence_lt_iff, SensitiveDataFinding.actionRank]
  simp only [decideSourcePrecedence, wrapFinding, hsame, Bool.and_not_self, compareSourceQuality]
  rcases lt_trichotomy f.sourceQuality.rank g.sourceQuality.rank with hq | hq | hq
  · simp [hq, hq.not_gt]
  · rcases lt_trichotomy (recommendedActionRank f.recommendedAction)
      (recommendedActionRank g.recommendedAction) with ha | ha | ha
    · simp [hq, ha, ha.not_gt]
    · simp [hq, ha]
    · simp [hq, ha, ha.not_gt]
  · simp [hq, hq.not_gt, hq.ne']

/-- The second of two findings is selected if it takes precedence over the first. -/
lemma decide_selected (f g : SensitiveDataFinding) :
    (decideSourcePrecedence (wrapFinding f) (wrapFinding g)).selected =
      wrapFinding (if precedence f < precedence g then g else f) := by
  have hrank : ∀ q : SourceQuality, q.rank ≤ 4 := by rintro (_ | _ | _ | _ | _) <;> decide
  have hf4 := hrank f.sourceQuality
  have hg4 := hrank g.sourceQuality
  by_cases hf : f.Native
  · by_cases hg : g.Native
    · exact (decide_same (iff_of_true hf hg)).1
    · have hkeep : ¬precedence f < precedence g := by
        rw [native_iff_rank] at hf hg
        rw [precedence_lt_iff]
        omega
      rw [decide_native_external hf hg, if_neg hkeep]
      split <;> rfl
  · by_cases hg : g.Native
    · have htake : precedence f < precedence g := by
        rw [native_iff_rank] at hf hg
        rw [precedence_lt_iff]
        omega
      rw [decide_external_native hf hg, if_pos htake]
      split <;> rfl
    · exact (decide_same (iff_of_false hf hg)).1

/-- An external finding that is kept beside the selected one is stricter than a native finding. -/
lemma decide_escalation {f g : SensitiveDataFinding} {e : FindingForMerge SensitiveDataFinding}
    (h : e ∈ (decideSourcePrecedence (wrapFinding f) (wrapFinding g)).escalation) :
    (f.Native ∧ ¬g.Native ∧ f.actionRank < g.actionRank ∧ e = wrapFinding g) ∨
      (g.Native ∧ ¬f.Native ∧ g.actionRank < f.actionRank ∧ e = wrapFinding f) := by
  by_cases hf : f.Native <;> by_cases hg : g.Native
  · rw [(decide_same (iff_of_true hf hg)).2] at h
    cases h
  · rw [decide_native_external hf hg] at h
    split at h
    · exact .inl ⟨hf, hg, ‹_›, (Option.mem_some_iff.mp h).symm⟩
    · cases h
  · rw [decide_external_native hf hg] at h
    split at h
    · exact .inr ⟨hg, hf, ‹_›, (Option.mem_some_iff.mp h).symm⟩
    · cases h
  · rw [(decide_same (iff_of_false hf hg)).2] at h
    cases h

/-! ## The invariant of a key -/

/-- What the comparison of `f` with the one selected among the findings before it keeps as an escalation:
an external finding that is stricter than the native ones before it, or, when `f` is the first native
one, the external one selected so far if it is stricter than `f`. -/
def KeptBeside (pre : List SensitiveDataFinding) (f x : SensitiveDataFinding) : Prop :=
  ((∃ n ∈ pre, n.Native) ∧ ¬f.Native ∧ x = f ∧ ∀ n ∈ pre, n.Native → n.actionRank < x.actionRank) ∨
    ((∀ p ∈ pre, ¬p.Native) ∧ f.Native ∧ x ∈ pre ∧ (∀ p ∈ pre, precedence p ≤ precedence x) ∧
      f.actionRank < x.actionRank)

/-- The findings that were kept at some point, in this order. -/
def Kept (l : List SensitiveDataFinding) (x : SensitiveDataFinding) : Prop :=
  ∃ pre f post, l = pre ++ f :: post ∧ KeptBeside pre f x

/-- A kept finding is external, and there is a native finding that is less strict. -/
lemma Kept.external {l : List SensitiveDataFinding} {x : SensitiveDataFinding} (h : Kept l x) :
    x ∈ l ∧ ¬x.Native ∧ ∃ n ∈ l, n.Native ∧ n.actionRank < x.actionRank := by
  obtain ⟨pre, f, post, rfl, ⟨⟨n, hn, hnn⟩, hf, rfl, hlt⟩ | ⟨hpre, hf, hx, -, hlt⟩⟩ := h
  · exact ⟨by simp, hf, n, by simp [hn], hnn, hlt n hn hnn⟩
  · exact ⟨by simp [hx], hpre x hx, f, by simp, hf, hlt⟩

/-- What is kept at the end was kept before or is kept beside the last finding. -/
lemma kept_concat_iff {l : List SensitiveDataFinding} {f x : SensitiveDataFinding} :
    Kept (l ++ [f]) x ↔ Kept l x ∨ KeptBeside l f x := by
  constructor
  · rintro ⟨pre, g, post, heq, hkept⟩
    rcases List.eq_nil_or_concat post with rfl | ⟨rest, last, rfl⟩
    · obtain ⟨rfl, hfg⟩ := List.append_inj' heq rfl
      obtain rfl := List.singleton_inj.mp hfg
      exact .inr hkept
    · have heq' : l ++ [f] = (pre ++ g :: rest) ++ [last] := by simpa using heq
      exact .inl ⟨pre, g, rest, (List.append_inj' heq' rfl).1, hkept⟩
  · rintro (⟨pre, g, post, rfl, hkept⟩ | hkept)
    · exact ⟨pre, g, post ++ [f], by simp, hkept⟩
    · exact ⟨l, f, [], rfl, hkept⟩

/-- What the decision says of the findings of its key, considered in this order. -/
structure FindingDecision.Invariant (d : FindingDecision) (l : List SensitiveDataFinding) :
    Prop where
  /-- The selected finding is a first one in precedence. -/
  selected : ∃ f ∈ l, d.selected = wrapFinding f ∧ ∀ g ∈ l, precedence g ≤ precedence f
  /-- The escalation is a finding that was kept. -/
  escalation : ∀ e ∈ d.escalation, ∃ x, Kept l x ∧ e = wrapFinding x
  /-- It is at least as strict as all that were kept. -/
  strictest : ∀ x, Kept l x → ∃ e ∈ d.escalation, x.actionRank ≤ e.actionRank

/-- If there is a native finding, the selected one is native. -/
lemma FindingDecision.Invariant.selected_native {d : FindingDecision}
    {l : List SensitiveDataFinding} (h : d.Invariant l) {s : SensitiveDataFinding}
    (hs : d.selected = wrapFinding s) {n : SensitiveDataFinding} (hn : n ∈ l) (hnative : n.Native) :
    s.Native ∧ n.actionRank ≤ s.actionRank := by
  obtain ⟨f, hf, hsel, hmax⟩ := h.selected
  have hfs : f = s := by
    rw [hs] at hsel
    exact (congrArg FindingForMerge.value hsel).symm
  subst hfs
  have hle := precedence_le_iff.mp (hmax n hn)
  have hf4 : f.sourceQuality.rank ≤ 4 := by cases f.sourceQuality <;> decide
  have hn4 := native_iff_rank.mp hnative
  constructor
  · rw [native_iff_rank]
    omega
  · omega

/-- The first finding of a key. -/
lemma considerFinding_none (f : SensitiveDataFinding) :
    (considerFinding none f).Invariant [f] where
  selected := ⟨f, by simp, rfl, by simp⟩
  escalation := by simp [considerFinding]
  strictest x hx := by
    rw [← List.nil_append [f], kept_concat_iff] at hx
    rcases hx with ⟨pre, g, post, heq, -⟩ | hx
    · simp at heq
    · simp [KeptBeside] at hx

/-- The selected finding after the next one. -/
lemma considerFinding_selected {d : FindingDecision} {s : SensitiveDataFinding}
    (hs : d.selected = wrapFinding s) (f : SensitiveDataFinding) :
    (considerFinding (some d) f).selected =
      wrapFinding (if precedence s < precedence f then f else s) := by
  have hdecide := decide_selected s f
  rw [← hs] at hdecide
  unfold considerFinding
  dsimp only
  split
  · exact hdecide
  · unfold reconcileEscalation
    split <;> exact hdecide

/-- The escalation after the next finding, if there was none. -/
lemma considerFinding_escalation_of_none {d : FindingDecision} {s : SensitiveDataFinding}
    (hs : d.selected = wrapFinding s) (hnone : d.escalation = none) (f : SensitiveDataFinding) :
    (considerFinding (some d) f).escalation =
      (decideSourcePrecedence (wrapFinding s) (wrapFinding f)).escalation := by
  unfold considerFinding
  simp only [hnone, hs]

/-- The stricter of two candidates is chosen. -/
lemma actionRank_le_choose (a b : FindingForMerge SensitiveDataFinding) :
    (chooseEscalationCandidate a b = a ∨ chooseEscalationCandidate a b = b) ∧
      a.actionRank ≤ (chooseEscalationCandidate a b).actionRank ∧
      b.actionRank ≤ (chooseEscalationCandidate a b).actionRank := by
  unfold chooseEscalationCandidate
  split_ifs <;> simp <;> omega

/-- The escalation after the next finding, if there was one: the prior one or the new one, and at
least as strict as both. -/
lemma considerFinding_escalation_of_some {d : FindingDecision} {s x : SensitiveDataFinding}
    (hs : d.selected = wrapFinding s) (hsome : d.escalation = some (wrapFinding x))
    (hsn : s.Native) (hx : ¬x.Native) (f : SensitiveDataFinding) :
    ∃ e, (considerFinding (some d) f).escalation = some e ∧
      (e = wrapFinding x ∨
        e ∈ (decideSourcePrecedence (wrapFinding s) (wrapFinding f)).escalation) ∧
      x.actionRank ≤ e.actionRank ∧
      ∀ y ∈ (decideSourcePrecedence (wrapFinding s) (wrapFinding f)).escalation,
        y.actionRank ≤ e.actionRank := by
  -- the selected finding stays native, so neither candidate is selected
  have hselected : (decideSourcePrecedence (wrapFinding s) (wrapFinding f)).selected.value.Native := by
    rw [decide_selected]
    have hs4 := native_iff_rank.mp hsn
    split
    · rename_i hlt
      rw [precedence_lt_iff] at hlt
      refine native_iff_rank.mpr ?_
      show 4 ≤ f.sourceQuality.rank
      omega
    · exact hsn
  have hkeep : ∀ y : SensitiveDataFinding, ¬y.Native →
      (wrapFinding y).value ≠
        (decideSourcePrecedence (wrapFinding s) (wrapFinding f)).selected.value := by
    intro y hy heq
    rw [← heq] at hselected
    exact hy hselected
  unfold considerFinding reconcileEscalation
  simp only [hsome, hs]
  cases hdec : (decideSourcePrecedence (wrapFinding s) (wrapFinding f)).escalation with
  | none =>
    refine ⟨wrapFinding x, ?_, .inl rfl, le_rfl, by simp⟩
    simp [hkeep x hx]
  | some y =>
    have hy : ∃ z : SensitiveDataFinding, ¬z.Native ∧ y = wrapFinding z := by
      rcases decide_escalation (hdec ▸ Option.mem_some_self y) with ⟨-, hz, -, rfl⟩ | ⟨-, hz, -, rfl⟩
      · exact ⟨f, hz, rfl⟩
      · exact absurd hsn hz
    obtain ⟨z, hz, rfl⟩ := hy
    obtain ⟨hchoice, hlex, hley⟩ := actionRank_le_choose (wrapFinding x) (wrapFinding z)
    refine ⟨chooseEscalationCandidate (wrapFinding x) (wrapFinding z), ?_, ?_, hlex, ?_⟩
    · simp [hkeep x hx, hkeep z hz]
    · rcases hchoice with h | h
      · exact .inl h
      · exact .inr (by rw [h]; simp)
    · simpa using hley

/-- What is decided between the selected finding and the next one is what is kept beside it. -/
lemma FindingDecision.Invariant.decided {d : FindingDecision} {l : List SensitiveDataFinding}
    (h : d.Invariant l) {s : SensitiveDataFinding} (hs : d.selected = wrapFinding s)
    (f : SensitiveDataFinding) :
    (∀ e ∈ (decideSourcePrecedence (wrapFinding s) (wrapFinding f)).escalation,
      ∃ x, KeptBeside l f x ∧ e = wrapFinding x) ∧
    ∀ x, KeptBeside l f x →
      ∃ e ∈ (decideSourcePrecedence (wrapFinding s) (wrapFinding f)).escalation,
        x.actionRank = e.actionRank := by
  obtain ⟨s', hsl, hs', hmax⟩ := h.selected
  obtain rfl : s' = s := (congrArg FindingForMerge.value (hs'.symm.trans hs))
  constructor
  · intro e he
    rcases decide_escalation he with ⟨hsn, hfn, hlt, rfl⟩ | ⟨hfn, hsn, hlt, rfl⟩
    · exact ⟨f, .inl ⟨⟨s', hsl, hsn⟩, hfn, rfl, fun n hn hnn =>
        (h.selected_native hs hn hnn).2.trans_lt hlt⟩, rfl⟩
    · exact ⟨s', .inr ⟨fun p hp hpn => hsn (h.selected_native hs hp hpn).1, hfn, hsl, hmax, hlt⟩, rfl⟩
  · rintro x (⟨⟨n, hn, hnn⟩, hfn, rfl, hlt⟩ | ⟨hpre, hfn, hx, htop, hlt⟩)
    · have hsn := (h.selected_native hs hn hnn).1
      refine ⟨wrapFinding x, ?_, rfl⟩
      rw [decide_native_external hsn hfn, if_pos (hlt s' hsl hsn)]
      rfl
    · -- the selected finding has the precedence of `x`, so also its action rank
      have hrank := (precedence_eq_iff.mp (le_antisymm (htop s' hsl) (hmax x hx))).2
      refine ⟨wrapFinding s', ?_, hrank.symm⟩
      rw [decide_external_native (hpre s' hsl) hfn, if_pos (by omega)]
      rfl

/-- An escalation so far is a kept finding beside a native selected one. -/
lemma FindingDecision.Invariant.prior {d : FindingDecision} {l : List SensitiveDataFinding}
    (h : d.Invariant l) {s : SensitiveDataFinding} (hs : d.selected = wrapFinding s)
    {e : FindingForMerge SensitiveDataFinding} (he : e ∈ d.escalation) :
    ∃ x, Kept l x ∧ ¬x.Native ∧ e = wrapFinding x ∧ s.Native := by
  obtain ⟨x, hx, rfl⟩ := h.escalation e he
  obtain ⟨-, hxn, n, hn, hnn, -⟩ := hx.external
  exact ⟨x, hx, hxn, rfl, (h.selected_native hs hn hnn).1⟩

/-- The selected finding after the next one is a first one in precedence. -/
lemma FindingDecision.Invariant.consider_selected {d : FindingDecision}
    {l : List SensitiveDataFinding} (h : d.Invariant l) (f : SensitiveDataFinding) :
    ∃ s ∈ l ++ [f], (considerFinding (some d) f).selected = wrapFinding s ∧
      ∀ g ∈ l ++ [f], precedence g ≤ precedence s := by
  obtain ⟨s, hsl, hs, hmax⟩ := h.selected
  refine ⟨_, ?_, considerFinding_selected hs f, ?_⟩
  · split
    · exact List.mem_append_right _ List.mem_cons_self
    · exact List.mem_append_left _ hsl
  · intro g hg
    rcases List.mem_append.mp hg with hg | hg
    · split
      · exact (hmax g hg).trans (le_of_lt ‹_›)
      · exact hmax g hg
    · obtain rfl := List.mem_singleton.mp hg
      split
      · exact le_rfl
      · exact not_lt.mp ‹_›

/-- The escalation after the next finding is the prior one or the one decided now. -/
lemma FindingDecision.Invariant.consider_escalation {d : FindingDecision}
    {l : List SensitiveDataFinding} (h : d.Invariant l) (f : SensitiveDataFinding) :
    ∀ e ∈ (considerFinding (some d) f).escalation, ∃ x, Kept (l ++ [f]) x ∧ e = wrapFinding x := by
  obtain ⟨s, -, hs, -⟩ := h.selected
  obtain ⟨hdecided, -⟩ := h.decided hs f
  intro e he
  simp only [kept_concat_iff]
  cases hesc : d.escalation with
  | none =>
    rw [considerFinding_escalation_of_none hs hesc] at he
    obtain ⟨x, hx, rfl⟩ := hdecided e he
    exact ⟨x, .inr hx, rfl⟩
  | some p =>
    obtain ⟨x, hx, hxn, rfl, hsn⟩ := h.prior hs hesc
    obtain ⟨e', he', hor, -⟩ := considerFinding_escalation_of_some hs hesc hsn hxn f
    obtain rfl : e' = e := by simpa [he'] using he
    rcases hor with rfl | hnow
    · exact ⟨x, .inl hx, rfl⟩
    · obtain ⟨y, hy, rfl⟩ := hdecided e' hnow
      exact ⟨y, .inr hy, rfl⟩

/-- The escalation after the next finding is as strict as all kept ones: an old escalation stays or
gives way to a stricter one. -/
lemma FindingDecision.Invariant.consider_strictest {d : FindingDecision}
    {l : List SensitiveDataFinding} (h : d.Invariant l) (f : SensitiveDataFinding) :
    ∀ x, Kept (l ++ [f]) x →
      ∃ e ∈ (considerFinding (some d) f).escalation, x.actionRank ≤ e.actionRank := by
  obtain ⟨s, -, hs, -⟩ := h.selected
  obtain ⟨-, hnew⟩ := h.decided hs f
  have hold : ∀ p ∈ d.escalation, ∃ e ∈ (considerFinding (some d) f).escalation,
      p.actionRank ≤ e.actionRank ∧
      ∀ y ∈ (decideSourcePrecedence (wrapFinding s) (wrapFinding f)).escalation,
        y.actionRank ≤ e.actionRank := by
    intro p hp
    obtain ⟨z, -, hzn, rfl, hsn⟩ := h.prior hs hp
    obtain ⟨e, he, -, hle, hnow⟩ := considerFinding_escalation_of_some hs hp hsn hzn f
    exact ⟨e, he, hle, hnow⟩
  intro x hx
  rcases kept_concat_iff.mp hx with hx | hx
  · obtain ⟨p, hp, hle⟩ := h.strictest x hx
    obtain ⟨e, he, hpe, -⟩ := hold p hp
    exact ⟨e, he, hle.trans hpe⟩
  · obtain ⟨y, hy, hrank⟩ := hnew x hx
    rw [hrank]
    cases hesc : d.escalation with
    | none =>
      rw [considerFinding_escalation_of_none hs hesc]
      exact ⟨y, hy, le_rfl⟩
    | some p =>
      obtain ⟨e, he, -, hle⟩ := hold p hesc
      exact ⟨e, he, hle y hy⟩

/-- **The next finding of a key keeps the invariant.** -/
lemma FindingDecision.Invariant.consider {d : FindingDecision} {l : List SensitiveDataFinding}
    (h : d.Invariant l) (f : SensitiveDataFinding) :
    (considerFinding (some d) f).Invariant (l ++ [f]) :=
  ⟨h.consider_selected f, h.consider_escalation f, h.consider_strictest f⟩

/-- The decision of a key whose first finding is `f`. -/
def decideKey (f : SensitiveDataFinding) (rest : List SensitiveDataFinding) : FindingDecision :=
  rest.foldl (fun d g => considerFinding (some d) g) (considerFinding none f)

/-- **The decision of a key satisfies the invariant for all its findings.** -/
theorem decideKey_invariant (f : SensitiveDataFinding) (rest : List SensitiveDataFinding) :
    (decideKey f rest).Invariant (f :: rest) := by
  have hrun : ∀ (rest read : List SensitiveDataFinding) (d : FindingDecision), d.Invariant read →
      (rest.foldl (fun d g => considerFinding (some d) g) d).Invariant (read ++ rest) := by
    intro rest
    induction rest with
    | nil =>
      intro read d h
      simpa using h
    | cons g rest ih =>
      intro read d h
      have hnext := ih (read ++ [g]) _ (h.consider g)
      simpa using hnext
  exact hrun rest [f] _ (considerFinding_none f)

/-! ## The law of the escalation -/

/-- The law of the escalation beside a selected finding: it is present exactly if an external finding is
stricter than the selected one, and then none is stricter than it. -/
structure EscalationLaw (d : FindingDecision) (l : List SensitiveDataFinding) : Prop where
  present : d.escalation ≠ none ↔ ∃ x ∈ l, ¬x.Native ∧ d.selected.actionRank < x.actionRank
  strictest : ∀ y ∈ d.escalation, ∀ x ∈ l, ¬x.Native → x.actionRank ≤ y.actionRank

/-- No order of the findings of a key loses or keeps a signal wrongly: there are native findings and no
external one is stricter than any of them, or a strictest external one is stricter than all native
ones and comes from a source of the highest quality among the external ones. -/
def OrderFree (l : List SensitiveDataFinding) : Prop :=
  ((∃ n ∈ l, n.Native) ∧
      ∀ x ∈ l, ¬x.Native → ∀ n ∈ l, n.Native → x.actionRank ≤ n.actionRank) ∨
    ∃ x ∈ l, ¬x.Native ∧ (∀ n ∈ l, n.Native → n.actionRank < x.actionRank) ∧
      ∀ y ∈ l, ¬y.Native → precedence y ≤ precedence x ∧ y.actionRank ≤ x.actionRank

/-- It depends on the findings alone, not on their order. -/
lemma OrderFree.perm {l l' : List SensitiveDataFinding} (h : OrderFree l) (hperm : l'.Perm l) :
    OrderFree l' := by
  simpa only [OrderFree, hperm.mem_iff] using h

namespace FindingDecision.Invariant

variable {d : FindingDecision} {l : List SensitiveDataFinding}

/-- The strictest external finding of the highest quality is kept, wherever it stands. -/
lemma exists_kept {x : SensitiveDataFinding} (hx : x ∈ l) (hxn : ¬x.Native)
    (hnative : ∃ n ∈ l, n.Native) (hstrict : ∀ n ∈ l, n.Native → n.actionRank < x.actionRank)
    (htop : ∀ y ∈ l, ¬y.Native → precedence y ≤ precedence x) :
    ∃ y, Kept l y ∧ x.actionRank ≤ y.actionRank := by
  -- the findings up to the first native one
  obtain ⟨pre, f, post, rfl, hf, hpre⟩ : ∃ pre f post, l = pre ++ f :: post ∧ f.Native ∧
      ∀ p ∈ pre, ¬p.Native := by
    obtain ⟨n, hn, hnn⟩ := hnative
    have hsplit := List.takeWhile_append_dropWhile (p := fun f => !decide f.Native) (l := l)
    have hpre : ∀ p ∈ l.takeWhile fun f => !decide f.Native, ¬p.Native := fun p hp => by
      simpa using List.mem_takeWhile_imp hp
    cases hdrop : l.dropWhile fun f => !decide f.Native with
    | nil =>
      rw [hdrop, List.append_nil] at hsplit
      rw [hsplit] at hpre
      exact absurd hnn (hpre n hn)
    | cons f post =>
      have hhead := List.head_dropWhile_not (fun f : SensitiveDataFinding => !decide f.Native) (l := l)
        (by simp [hdrop])
      refine ⟨_, f, post, ?_, by simpa [hdrop] using hhead, hpre⟩
      rw [← hdrop, hsplit]
  rcases List.mem_append.mp hx with hx | hx
  · refine ⟨x, ⟨pre, f, post, rfl, .inr ⟨hpre, hf, hx, fun p hp => ?_, hstrict f (by simp) hf⟩⟩,
      le_rfl⟩
    exact htop p (by simp [hp]) (hpre p hp)
  · have hx' : x ∈ post := (List.mem_cons.mp hx).resolve_left fun heq => hxn (heq ▸ hf)
    obtain ⟨pre', post', rfl⟩ := List.append_of_mem hx'
    refine ⟨x, ⟨pre ++ f :: pre', x, post', by simp, .inl ⟨⟨f, by simp, hf⟩, hxn, rfl, ?_⟩⟩, le_rfl⟩
    exact fun n hn => hstrict n (List.mem_append.mpr ((List.mem_append.mp hn).imp_right fun hn =>
      (List.mem_cons.mp hn).elim (fun heq => by simp [heq]) fun hn => by simp [hn]))

/-- **Where no order matters, the law of the escalation holds.** -/
lemma escalationLaw (h : d.Invariant l) (hfree : OrderFree l) : EscalationLaw d l := by
  obtain ⟨s, hsl, hs, hmax⟩ := h.selected
  have hsr : d.selected.actionRank = s.actionRank := congrArg FindingForMerge.actionRank hs
  rcases hfree with ⟨⟨n, hn, hnn⟩, hmild⟩ | ⟨x, hx, hxn, hstrict, htop⟩
  · have hsn := (h.selected_native hs hn hnn).1
    have hnone : d.escalation = none := by
      by_contra hne
      obtain ⟨e, he⟩ := Option.ne_none_iff_exists'.mp hne
      obtain ⟨x, hx, -⟩ := h.escalation e he
      obtain ⟨hxl, hxn, m, hm, hmn, hlt⟩ := hx.external
      exact absurd (hmild x hxl hxn m hm hmn) (not_le.mpr hlt)
    refine ⟨iff_of_false (not_not_intro hnone) ?_, by simp [hnone]⟩
    rintro ⟨x, hx, hxn, hlt⟩
    exact absurd (hmild x hx hxn s hsl hsn) (by omega)
  · by_cases hnative : ∃ n ∈ l, n.Native
    · obtain ⟨n, hn, hnn⟩ := hnative
      have hsn := (h.selected_native hs hn hnn).1
      obtain ⟨y, hy, hxy⟩ := exists_kept hx hxn ⟨n, hn, hnn⟩ hstrict fun y hy hyn => (htop y hy hyn).1
      obtain ⟨e, he, hye⟩ := h.strictest y hy
      refine ⟨iff_of_true (Option.ne_none_iff_exists'.mpr ⟨e, he⟩)
        ⟨x, hx, hxn, hsr ▸ hstrict s hsl hsn⟩, fun e' he' z hz hzn => ?_⟩
      obtain rfl : e = e' := Option.some.inj (he.symm.trans he')
      exact ((htop z hz hzn).2.trans hxy).trans hye
    · have hnone : d.escalation = none := by
        by_contra hne
        obtain ⟨e, he⟩ := Option.ne_none_iff_exists'.mp hne
        obtain ⟨y, hy, -⟩ := h.escalation e he
        obtain ⟨-, -, m, hm, hmn, -⟩ := hy.external
        exact hnative ⟨m, hm, hmn⟩
      have hsn : ¬s.Native := fun hsn => hnative ⟨s, hsl, hsn⟩
      have hrank := (precedence_eq_iff.mp (le_antisymm (htop s hsl hsn).1 (hmax x hx))).2
      refine ⟨iff_of_false (not_not_intro hnone) ?_, by simp [hnone]⟩
      rintro ⟨y, hy, hyn, hlt⟩
      have := (htop y hy hyn).2
      omega

end FindingDecision.Invariant

/-! ## The merge -/

section Merge

variable {a b : List SensitiveDataFinding} {keyOf : Option (SensitiveDataFinding → JsString)}

/-- The findings of a key, in the order in which they are considered. -/
def keyFindings (keyOf : Option (SensitiveDataFinding → JsString))
    (a b : List SensitiveDataFinding) (k : JsString) : List SensitiveDataFinding :=
  (a ++ b).filter fun f => keyOf.getD defaultKey f = k

/-- The two loops are one. -/
lemma merge_eq_foldEntries :
    mergeFindingsWithPrecedenceDecisions a b keyOf =
      foldEntries (keyOf.getD defaultKey) considerFinding [] (a ++ b) := by
  unfold mergeFindingsWithPrecedenceDecisions foldEntries
  rw [List.foldl_append]

/-- There is one entry for each key of a finding. -/
lemma merge_keys :
    ((mergeFindingsWithPrecedenceDecisions a b keyOf).map Prod.fst).Nodup ∧
      ∀ k, k ∈ (mergeFindingsWithPrecedenceDecisions a b keyOf).map Prod.fst ↔
        keyFindings keyOf a b k ≠ [] := by
  rw [merge_eq_foldEntries]
  refine ⟨nodup_keys_foldEntries List.nodup_nil, fun k => ?_⟩
  rw [mem_keys_foldEntries, ne_eq, keyFindings, List.filter_eq_nil_iff]
  simp

/-- The decision of an entry is that of the findings of its key. -/
lemma merge_entry {e : JsString × FindingDecision}
    (he : e ∈ mergeFindingsWithPrecedenceDecisions a b keyOf) :
    ∃ f rest, keyFindings keyOf a b e.1 = f :: rest ∧ e.2 = decideKey f rest := by
  have hstate := entryOf_eq_some_of_mem (@merge_keys _ _ keyOf).1 he
  rw [merge_eq_foldEntries, entryOf_foldEntries, entryOf_nil] at hstate
  have hfold : ∀ (l : List SensitiveDataFinding) (d : FindingDecision),
      l.foldl (fun s f => some (considerFinding s f)) (some d) =
        some (l.foldl (fun d g => considerFinding (some d) g) d) := by
    intro l
    induction l with
    | nil => exact fun d => rfl
    | cons g l ih => exact fun d => ih _
  have hfindings : (a ++ b).filter (fun f => keyOf.getD defaultKey f = e.1) =
      keyFindings keyOf a b e.1 := rfl
  rw [hfindings] at hstate
  cases hl : keyFindings keyOf a b e.1 with
  | nil =>
    rw [hl] at hstate
    cases hstate
  | cons f rest =>
    rw [hl, List.foldl_cons, hfold] at hstate
    exact ⟨f, rest, rfl, (Option.some.inj hstate).symm⟩

/-- The decision of an entry satisfies the invariant for the findings of its key. -/
lemma merge_invariant {e : JsString × FindingDecision}
    (he : e ∈ mergeFindingsWithPrecedenceDecisions a b keyOf) :
    e.2.Invariant (keyFindings keyOf a b e.1) := by
  obtain ⟨f, rest, hl, hd⟩ := merge_entry he
  rw [hl, hd]
  exact decideKey_invariant f rest

/-- The selected quality and action rank depend on the findings of the key only. -/
lemma merge_selected_perm {a' b' : List SensitiveDataFinding} (hperm : (a' ++ b').Perm (a ++ b))
    {e e' : JsString × FindingDecision} (he : e ∈ mergeFindingsWithPrecedenceDecisions a b keyOf)
    (he' : e' ∈ mergeFindingsWithPrecedenceDecisions a' b' keyOf) (hkey : e'.1 = e.1) :
    e'.2.selected.sourceQuality = e.2.selected.sourceQuality ∧
      e'.2.selected.actionRank = e.2.selected.actionRank := by
  have hmem : ∀ g, g ∈ keyFindings keyOf a' b' e'.1 ↔ g ∈ keyFindings keyOf a b e.1 := by
    intro g
    rw [hkey]
    exact (hperm.filter _).mem_iff
  obtain ⟨s, hs, hsel, hmax⟩ := (merge_invariant he).selected
  obtain ⟨s', hs', hsel', hmax'⟩ := (merge_invariant he').selected
  have heq : precedence s' = precedence s :=
    le_antisymm (hmax s' ((hmem s').mp hs')) (hmax' s ((hmem s).mpr hs))
  obtain ⟨hq, ha⟩ := precedence_eq_iff.mp heq
  rw [hsel, hsel']
  exact ⟨hq, ha⟩

/-- Every order of the findings of a key is that of some reordering of the two lists. -/
lemma exists_reordering {k : JsString} {l' : List SensitiveDataFinding}
    (hperm : l'.Perm (keyFindings keyOf a b k)) (hne : l' ≠ []) :
    ∃ a' b' e', (a' ++ b').Perm (a ++ b) ∧
      e' ∈ mergeFindingsWithPrecedenceDecisions a' b' keyOf ∧ e'.1 = k ∧
        keyFindings keyOf a' b' k = l' := by
  have hkey : ∀ f ∈ l', keyOf.getD defaultKey f = k := fun f hf => by
    simpa using (List.mem_filter.mp (hperm.subset hf)).2
  have hfindings : keyFindings keyOf l'
      ((a ++ b).filter fun f => !decide (keyOf.getD defaultKey f = k)) k = l' := by
    rw [keyFindings, List.filter_append, List.filter_eq_self.mpr (by simpa using hkey)]
    simp
  have hmem := (@merge_keys l' ((a ++ b).filter fun f => !decide (keyOf.getD defaultKey f = k))
    keyOf).2 k
  obtain ⟨e', he', hk⟩ := List.mem_map.mp (hmem.mpr (by rwa [hfindings]))
  exact ⟨_, _, e', (hperm.append_right _).trans (List.filter_append_perm _ _), he', hk, hfindings⟩

/-- The law of an entry: a native finding of the highest action rank is selected if there is a native
finding, the escalation is an external finding and obeys its law, and the quality and the action rank
of the selected finding and the action rank of the escalation are the same for every reordering of the
findings between and within the two lists. -/
structure PrecedenceLaw (keyOf : Option (SensitiveDataFinding → JsString))
    (a b : List SensitiveDataFinding) (e : JsString × FindingDecision) : Prop where
  selected : (∃ n ∈ keyFindings keyOf a b e.1, n.Native) →
    ∃ s ∈ keyFindings keyOf a b e.1, e.2.selected = wrapFinding s ∧ s.Native ∧
      ∀ n ∈ keyFindings keyOf a b e.1, n.Native → n.actionRank ≤ s.actionRank
  external : ∀ y ∈ e.2.escalation, ∃ x ∈ keyFindings keyOf a b e.1, ¬x.Native ∧ y = wrapFinding x
  escalation : EscalationLaw e.2 (keyFindings keyOf a b e.1)
  order : ∀ a' b' : List SensitiveDataFinding, (a' ++ b').Perm (a ++ b) →
    ∀ e' ∈ mergeFindingsWithPrecedenceDecisions a' b' keyOf, e'.1 = e.1 →
      e'.2.selected.sourceQuality = e.2.selected.sourceQuality ∧
        e'.2.selected.actionRank = e.2.selected.actionRank ∧
          e'.2.escalation.map (·.actionRank) = e.2.escalation.map (·.actionRank)

/-- Where no order matters the entry obeys its law. -/
lemma precedenceLaw_of_orderFree {e : JsString × FindingDecision}
    (he : e ∈ mergeFindingsWithPrecedenceDecisions a b keyOf)
    (hfree : OrderFree (keyFindings keyOf a b e.1)) : PrecedenceLaw keyOf a b e := by
  have hinv := merge_invariant he
  have hlaw := hinv.escalationLaw hfree
  refine ⟨?_, ?_, hlaw, ?_⟩
  · rintro ⟨n, hn, hnn⟩
    obtain ⟨s, hsl, hs, -⟩ := hinv.selected
    exact ⟨s, hsl, hs, (hinv.selected_native hs hn hnn).1,
      fun m hm hmn => (hinv.selected_native hs hm hmn).2⟩
  · intro y hy
    obtain ⟨x, hx, rfl⟩ := hinv.escalation y hy
    exact ⟨x, hx.external.1, hx.external.2.1, rfl⟩
  · intro a' b' hperm e' he' hkey
    obtain ⟨hq, hr⟩ := merge_selected_perm hperm he he' hkey
    refine ⟨hq, hr, ?_⟩
    have hfindings : (keyFindings keyOf a' b' e'.1).Perm (keyFindings keyOf a b e.1) := by
      rw [hkey]
      exact hperm.filter _
    have hinv' := merge_invariant he'
    have hlaw' := hinv'.escalationLaw (hfree.perm hfindings)
    have hsame : e'.2.escalation ≠ none ↔ e.2.escalation ≠ none := by
      rw [hlaw'.present, hlaw.present, hr]
      simp only [hfindings.mem_iff]
    cases hesc : e.2.escalation with
    | none =>
      have hnone : e'.2.escalation = none := by
        by_contra hne
        exact hsame.mp hne hesc
      rw [hnone]
    | some y =>
      obtain ⟨y', hesc'⟩ := Option.ne_none_iff_exists'.mp (hsame.mpr (by simp [hesc]))
      obtain ⟨x, hx, rfl⟩ := hinv.escalation y hesc
      obtain ⟨x', hx', rfl⟩ := hinv'.escalation y' hesc'
      have hle := hlaw.strictest _ hesc x' (hfindings.subset hx'.external.1) hx'.external.2.1
      have hge := hlaw'.strictest _ hesc' x (hfindings.symm.subset hx.external.1) hx.external.2.1
      rw [hesc']
      exact congrArg some (le_antisymm hle hge)

/-- A stricter external finding before a native one is kept. -/
lemma kept_cons_cons {x n : SensitiveDataFinding} (rest : List SensitiveDataFinding)
    (hx : ¬x.Native) (hn : n.Native) (hlt : n.actionRank < x.actionRank) :
    Kept (x :: n :: rest) x :=
  ⟨[x], n, rest, rfl, .inr ⟨by simpa using hx, hn, by simp, by simp, hlt⟩⟩

/-- With the external findings before the native ones, what is kept is one of the highest quality among
them. -/
lemma Kept.top {l l' : List SensitiveDataFinding} (hl : ∀ x ∈ l, ¬x.Native) (hl' : ∀ n ∈ l', n.Native)
    {x : SensitiveDataFinding} (h : Kept (l ++ l') x) : ∀ y ∈ l, precedence y ≤ precedence x := by
  obtain ⟨pre, f, post, heq, ⟨⟨n, hn, hnn⟩, hf, -⟩ | ⟨hpre, hf, hx, htop, -⟩⟩ := h
  · -- an external finding after a native one
    rcases List.append_eq_append_iff.mp heq with ⟨as, rfl, htail⟩ | ⟨cs, rfl, htail⟩
    · exact absurd (hl' f (by simp [htail])) hf
    · exact absurd hnn (hl n (by simp [hn]))
  · intro y hy
    refine htop y ?_
    rcases List.append_eq_append_iff.mp heq with ⟨as, rfl, htail⟩ | ⟨cs, rfl, htail⟩
    · simp [hy]
    · cases cs with
      | nil => simpa using hy
      | cons c cs =>
        obtain rfl : f = c := (List.cons.inj htail).1
        exact absurd hf (hl f (by simp))

/-- In another order of the findings of a key the escalation has the same action rank. -/
lemma PrecedenceLaw.reordered {e : JsString × FindingDecision}
    (hlaw : PrecedenceLaw keyOf a b e) {l' : List SensitiveDataFinding}
    (hperm : l'.Perm (keyFindings keyOf a b e.1)) (hne : l' ≠ []) :
    ∃ d : FindingDecision, d.Invariant l' ∧
      d.escalation.map (·.actionRank) = e.2.escalation.map (·.actionRank) := by
  obtain ⟨a', b', e', hab, he', hkey, hfindings⟩ := exists_reordering hperm hne
  exact ⟨e'.2, by simpa only [hkey, hfindings] using merge_invariant he',
    (hlaw.order a' b' hab e' he' hkey).2.2⟩

/-- With an external finding that is stricter than a native one there is an escalation: there is one
when the external finding comes first and the native one next. -/
lemma PrecedenceLaw.escalation_ne_none {e : JsString × FindingDecision}
    (hlaw : PrecedenceLaw keyOf a b e) {x n : SensitiveDataFinding}
    (hx : x ∈ keyFindings keyOf a b e.1) (hn : n ∈ keyFindings keyOf a b e.1) (hxn : ¬x.Native)
    (hnn : n.Native) (hlt : n.actionRank < x.actionRank) : e.2.escalation ≠ none := by
  have hne : n ≠ x := fun heq => hxn (heq ▸ hnn)
  obtain ⟨d, hd, hrank⟩ := hlaw.reordered
    (((List.perm_cons_erase ((List.mem_erase_of_ne hne).mpr hn)).symm.cons x).trans
      (List.perm_cons_erase hx).symm) (by simp)
  obtain ⟨y, hy, -⟩ := hd.strictest x (kept_cons_cons _ hxn hnn hlt)
  intro hnone
  rw [hnone, Option.mem_def.mp hy] at hrank
  cases hrank

/-- If there is an escalation, an external finding of the highest quality has its action rank: one is
kept when the external findings come first. -/
lemma PrecedenceLaw.exists_top {e : JsString × FindingDecision} (hlaw : PrecedenceLaw keyOf a b e)
    {y : FindingForMerge SensitiveDataFinding} (hy : e.2.escalation = some y)
    {z : SensitiveDataFinding} (hz : z ∈ keyFindings keyOf a b e.1) (hzn : ¬z.Native) :
    ∃ x ∈ keyFindings keyOf a b e.1, ¬x.Native ∧ x.actionRank = y.actionRank ∧
      ∀ w ∈ keyFindings keyOf a b e.1, ¬w.Native → precedence w ≤ precedence x := by
  have hperm : ((keyFindings keyOf a b e.1).filter (fun f => !decide f.Native) ++
      (keyFindings keyOf a b e.1).filter fun f => decide f.Native).Perm (keyFindings keyOf a b e.1) :=
    List.perm_append_comm.trans (List.filter_append_perm _ _)
  obtain ⟨d, hd, hrank⟩ := hlaw.reordered hperm (List.ne_nil_of_mem (List.mem_append_left _
    (List.mem_filter.mpr ⟨hz, by simpa using hzn⟩)))
  rw [hy] at hrank
  obtain ⟨y', hy', hyy⟩ := Option.map_eq_some_iff.mp hrank
  obtain ⟨x, hx, rfl⟩ := hd.escalation y' hy'
  have htop := Kept.top (by simp) (by simp) hx
  obtain ⟨hmem, hxn, -⟩ := hx.external
  refine ⟨x, ?_, hxn, hyy, fun w hw hwn => htop w (by simp [hw, hwn])⟩
  rcases List.mem_append.mp hmem with h | h <;> exact (List.mem_filter.mp h).1

/-- An entry that obeys its law has findings whose order does not matter. -/
lemma orderFree_of_precedenceLaw {e : JsString × FindingDecision}
    (he : e ∈ mergeFindingsWithPrecedenceDecisions a b keyOf) (hlaw : PrecedenceLaw keyOf a b e) :
    OrderFree (keyFindings keyOf a b e.1) := by
  have hinv := merge_invariant he
  obtain ⟨s, hsl, hs, hmax⟩ := hinv.selected
  have hsr : e.2.selected.actionRank = s.actionRank := congrArg FindingForMerge.actionRank hs
  have hpresent := hlaw.escalation.present
  rw [hsr] at hpresent
  by_cases hnative : ∃ n ∈ keyFindings keyOf a b e.1, n.Native
  · by_cases hmild : ∀ x ∈ keyFindings keyOf a b e.1, ¬x.Native →
        ∀ n ∈ keyFindings keyOf a b e.1, n.Native → x.actionRank ≤ n.actionRank
    · exact .inl ⟨hnative, hmild⟩
    · right
      push Not at hmild
      obtain ⟨x₀, hx₀, hxn₀, n₀, hn₀, hnn₀, hlt₀⟩ := hmild
      have hsome := hlaw.escalation_ne_none hx₀ hn₀ hxn₀ hnn₀ hlt₀
      obtain ⟨y, hy⟩ := Option.ne_none_iff_exists'.mp hsome
      obtain ⟨z, hz, hzn, hlt⟩ := hpresent.mp hsome
      obtain ⟨x, hx, hxn, hxy, htop⟩ := hlaw.exists_top hy hz hzn
      refine ⟨x, hx, hxn, fun n hn hnn => ?_, fun w hw hwn => ⟨htop w hw hwn, ?_⟩⟩
      · have hzy := hlaw.escalation.strictest y hy z hz hzn
        have hns := (hinv.selected_native hs hn hnn).2
        omega
      · have hwy := hlaw.escalation.strictest y hy w hw hwn
        omega
  · -- without a native finding there is no escalation, so the selected finding is a strictest one
    have hall : ∀ y ∈ keyFindings keyOf a b e.1, ¬y.Native := fun y hy hyn => hnative ⟨y, hy, hyn⟩
    refine .inr ⟨s, hsl, hall s hsl, fun n hn hnn => absurd hnn (hall n hn),
      fun y hy hyn => ⟨hmax y hy, ?_⟩⟩
    by_contra hlt
    obtain ⟨y', hy'⟩ := Option.ne_none_iff_exists'.mp (hpresent.mpr ⟨y, hy, hyn, not_le.mp hlt⟩)
    obtain ⟨x, hx, -⟩ := hinv.escalation y' hy'
    obtain ⟨-, -, n, hn, hnn, -⟩ := hx.external
    exact hall n hn hnn

end Merge

/-- **Source precedence.**  There is one entry for each key, and its selected finding is a first one by
quality and then by strictness.  The entry of a key obeys its whole law exactly if no order of the
findings of the key matters: there are native findings and no external one is stricter than any of
them, or a strictest external one is stricter than all native ones and comes from a source of the
highest quality among the external ones. -/
theorem source_precedence_iff (a b : List SensitiveDataFinding)
    (keyOf : Option (SensitiveDataFinding → JsString)) :
    (((mergeFindingsWithPrecedenceDecisions a b keyOf).map Prod.fst).Nodup ∧
      ∀ k, k ∈ (mergeFindingsWithPrecedenceDecisions a b keyOf).map Prod.fst ↔
        keyFindings keyOf a b k ≠ []) ∧
    ∀ e ∈ mergeFindingsWithPrecedenceDecisions a b keyOf,
      (∃ s ∈ keyFindings keyOf a b e.1, e.2.selected = wrapFinding s ∧
        ∀ g ∈ keyFindings keyOf a b e.1, precedence g ≤ precedence s) ∧
      (PrecedenceLaw keyOf a b e ↔ OrderFree (keyFindings keyOf a b e.1)) :=
  ⟨merge_keys, fun _ he => ⟨(merge_invariant he).selected,
    orderFree_of_precedenceLaw he, precedenceLaw_of_orderFree he⟩⟩

/-- An unverified import that asks for a denial. -/
def unverifiedDeny : SensitiveDataFinding :=
  ⟨0, jsString "cpf", jsString "00", .deny, .unverifiedExternal⟩

/-- A normalized import of the same hit that asks for a warning. -/
def normalizedWarn : SensitiveDataFinding :=
  ⟨1, jsString "cpf", jsString "00", .warn, .normalizedExternal⟩

/-- The native finding of the hit. -/
def nativeObserve : SensitiveDataFinding :=
  ⟨2, jsString "cpf", jsString "00", .observe, .primaryGovaiEvidence⟩

/-- **The strictest external signal is lost.**  The unverified denial is displaced by the normalized
warning before the native finding arrives, so that the warning is the escalation. -/
theorem strictest_external_lost :
    ¬∀ (a b : List SensitiveDataFinding) (keyOf : Option (SensitiveDataFinding → JsString))
      (e : JsString × FindingDecision), e ∈ mergeFindingsWithPrecedenceDecisions a b keyOf →
        PrecedenceLaw keyOf a b e := by
  intro h
  have hentry : mergeFindingsWithPrecedenceDecisions [unverifiedDeny, normalizedWarn]
      [nativeObserve] none = [(jsString "cpf:00", ⟨wrapFinding nativeObserve,
        some (wrapFinding normalizedWarn), .externalEscalationPreserved⟩)] := by
    decide +kernel
  have hlaw := h [unverifiedDeny, normalizedWarn] [nativeObserve] none _
    (hentry ▸ List.mem_cons_self)
  have hmem : unverifiedDeny ∈
      keyFindings none [unverifiedDeny, normalizedWarn] [nativeObserve] (jsString "cpf:00") := by
    decide +kernel
  exact absurd (hlaw.escalation.strictest _ rfl unverifiedDeny hmem (by decide)) (by decide)

end GovAI
