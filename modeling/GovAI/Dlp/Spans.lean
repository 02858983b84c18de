import GovAI.Json.Order
import GovAI.Library.IntervalUnion

/-!
# Merged finding spans

`mergeFindingSpans` of `packages/dlp-br/src/baseline-detectors.ts`.  Detectors that know nothing of
each other report where they matched; findings that overlap or touch are merged into one span, which
is the unit of counting, of redaction and of decision.  The result is the union of the findings as
intervals labelled with their detectors (`mergeFindingSpans_isUnion`), and it is the only list of
merged findings that is (`mergeFindingSpans_eq_iff`).
-/

namespace GovAI

attribute [local instance] lawfulBEq_jsString

/-! ## The order of JavaScript strings -/

instance keyLeStringTotal : Std.Total fun a b : JsString => keyLe a b = true where
  total a b := by simpa [keyLe] using le_total (a.map UInt16.toNat) (b.map UInt16.toNat)

instance keyLeStringTrans : IsTrans JsString fun a b => keyLe a b = true where
  trans a b c hab hbc := by
    simp only [keyLe, decide_eq_true_eq] at hab hbc ⊢
    exact hab.trans hbc

instance keyLeStringAntisymm : Std.Antisymm fun a b : JsString => keyLe a b = true where
  antisymm _ _ hab hba := keyLe_antisymm hab hba

/-- `String.prototype.localeCompare` of the running locale: a consistent comparator. -/
structure Collation where
  /-- Negative or zero if the first string does not sort after the second. -/
  localeCompare : JsString → JsString → ℤ
  /-- Any two strings are comparable. -/
  total : ∀ a b, localeCompare a b ≤ 0 ∨ localeCompare b a ≤ 0
  /-- The order is transitive. -/
  trans : ∀ a b c, localeCompare a b ≤ 0 → localeCompare b c ≤ 0 → localeCompare a c ≤ 0

/-! ## Findings -/

/-- `FindingSpan`: a match, or a span merged before, which then carries its member detectors. -/
structure FindingSpan where
  detector : JsString
  index : ℕ
  length : ℕ
  /-- `undefined`, or the members of a merged span. -/
  detectors : Option (List JsString) := none
  /-- A merged span has members. -/
  detectors_ne_nil : ∀ ds ∈ detectors, ds ≠ [] := by simp
deriving DecidableEq

/-- `f.detectors ?? [f.detector]`. -/
def FindingSpan.members (f : FindingSpan) : List JsString := f.detectors.getD [f.detector]

/-- Every finding has a member detector. -/
lemma FindingSpan.members_ne_nil (f : FindingSpan) : f.members ≠ [] := by
  unfold FindingSpan.members
  cases hds : f.detectors with
  | none => simp
  | some ds => exact f.detectors_ne_nil ds hds

/-- `signal_class`. -/
inductive SignalClass where
  | piiStrong
  | piiStandard
deriving DecidableEq

/-- `BASELINE_STRONG_DETECTORS`. -/
def baselineStrongDetectors : List JsString := [jsString "cpf", jsString "cnpj"]

/-- The members of the strong class. -/
def strongDetectors (detectors : List JsString) : List JsString :=
  detectors.filter (· ∈ baselineStrongDetectors)

/-- The members among which the label is chosen. -/
def winnerPool (detectors : List JsString) : List JsString :=
  if 0 < (strongDetectors detectors).length then strongDetectors detectors else detectors

/-- The class of a span with these members. -/
def signalClassOf (detectors : List JsString) : SignalClass :=
  if 0 < (strongDetectors detectors).length then .piiStrong else .piiStandard

/-- There is a label if there is a member. -/
lemma winnerPool_ne_nil {detectors : List JsString} (h : detectors ≠ []) :
    winnerPool detectors ≠ [] := by
  unfold winnerPool
  split
  · exact List.ne_nil_of_length_pos ‹_›
  · exact h

/-- The label is a member. -/
lemma mem_of_mem_winnerPool {detectors : List JsString} {d : JsString}
    (h : d ∈ winnerPool detectors) : d ∈ detectors := by
  unfold winnerPool at h
  split at h
  · exact List.mem_of_mem_filter h
  · exact h

/-- `MergedFinding`.  The label and the class of a span are determined by its members, which are
listed in alphabetical order and once each. -/
@[ext]
structure MergedFinding where
  detector : JsString
  detectors : List JsString
  signalClass : SignalClass
  index : ℕ
  length : ℕ
  detectors_sorted : detectors.Pairwise (keyLe · ·)
  detectors_nodup : detectors.Nodup
  detector_eq : (winnerPool detectors).head? = some detector
  signalClass_eq : signalClass = signalClassOf detectors
deriving DecidableEq

/-- A merged span has a member, its label. -/
lemma MergedFinding.detector_mem (m : MergedFinding) : m.detector ∈ m.detectors :=
  mem_of_mem_winnerPool (List.mem_of_mem_head? m.detector_eq)

/-- A merged span as an argument of the next merge. -/
def MergedFinding.toFindingSpan (m : MergedFinding) : FindingSpan where
  detector := m.detector
  index := m.index
  length := m.length
  detectors := some m.detectors
  detectors_ne_nil ds hds := by
    obtain rfl := Option.mem_some_iff.mp hds
    exact List.ne_nil_of_mem m.detector_mem

/-! ## The sweep -/

/-- `for (const d of ds) members.add(d)`: a `Set` keeps the order of insertion. -/
def addMembers (members ds : List JsString) : List JsString :=
  ds.foldl (fun members d => if d ∈ members then members else members ++ [d]) members

/-- The members after an addition. -/
@[simp] lemma mem_addMembers {members ds : List JsString} {d : JsString} :
    d ∈ addMembers members ds ↔ d ∈ members ∨ d ∈ ds := by
  induction ds generalizing members with
  | nil => simp [addMembers]
  | cons d' ds ih =>
    show d ∈ addMembers (if d' ∈ members then members else members ++ [d']) ds ↔ _
    rw [ih, List.mem_cons]
    split
    · constructor
      · rintro (h | h)
        · exact .inl h
        · exact .inr (.inr h)
      · rintro (h | rfl | h)
        · exact .inl h
        · exact .inl ‹_›
        · exact .inr h
    · rw [List.mem_append, List.mem_singleton, or_assoc]

/-- No member is added twice. -/
lemma nodup_addMembers {members ds : List JsString} (h : members.Nodup) :
    (addMembers members ds).Nodup := by
  induction ds generalizing members with
  | nil => exact h
  | cons d' ds ih =>
    refine @ih (if d' ∈ members then members else members ++ [d']) ?_
    split
    · exact h
    · exact List.nodup_append.mpr ⟨h, List.nodup_singleton _, by grind⟩

/-- The variables of the loop: the spans put out, and the ends and members of the current one. -/
structure SpanSweep where
  out : List MergedFinding
  start : ℕ
  stop : ℕ
  members : List JsString
  start_le : start ≤ stop
  members_ne_nil : members ≠ []
  members_nodup : members.Nodup

namespace SpanSweep

/-- `[...members].sort()`. -/
def detectors (s : SpanSweep) : List JsString :=
  s.members.insertionSort fun a b => keyLe a b = true

/-- The list is a rearrangement of the members. -/
lemma detectors_perm (s : SpanSweep) : s.detectors.Perm s.members :=
  List.perm_insertionSort _ _

/-- A member is listed. -/
@[simp] lemma mem_detectors {s : SpanSweep} {d : JsString} : d ∈ s.detectors ↔ d ∈ s.members :=
  s.detectors_perm.mem_iff

/-- The current span has members. -/
lemma detectors_ne_nil (s : SpanSweep) : s.detectors ≠ [] := by
  obtain ⟨d, hd⟩ := List.exists_mem_of_ne_nil _ s.members_ne_nil
  exact List.ne_nil_of_mem (mem_detectors.mpr hd)

/-- `flush`: the span put out for the current one. -/
def flush (s : SpanSweep) : MergedFinding where
  detector := (winnerPool s.detectors).head (winnerPool_ne_nil s.detectors_ne_nil)
  detectors := s.detectors
  signalClass := signalClassOf s.detectors
  index := s.start
  length := s.stop - s.start
  detectors_sorted := List.pairwise_insertionSort _ _
  detectors_nodup := s.detectors_perm.nodup_iff.mpr s.members_nodup
  detector_eq := List.head?_eq_some_head _
  signalClass_eq := rfl

/-- The sweep begins a span with a finding. -/
def openAt (out : List MergedFinding) (f : FindingSpan) : SpanSweep where
  out := out
  start := f.index
  stop := f.index + f.length
  members := addMembers [] f.members
  start_le := Nat.le_add_right _ _
  members_ne_nil := by
    obtain ⟨d, hd⟩ := List.exists_mem_of_ne_nil _ f.members_ne_nil
    exact List.ne_nil_of_mem (mem_addMembers.mpr (.inr hd))
  members_nodup := nodup_addMembers List.nodup_nil

@[simp] lemma openAt_out (out : List MergedFinding) (f : FindingSpan) : (openAt out f).out = out :=
  rfl

/-- The loop body for the next finding. -/
def step (s : SpanSweep) (f : FindingSpan) : SpanSweep :=
  if f.index ≤ s.stop then
    { s with
      stop := if s.stop < f.index + f.length then f.index + f.length else s.stop
      members := addMembers s.members f.members
      start_le := by split <;> have := s.start_le <;> omega
      members_ne_nil := by
        obtain ⟨d, hd⟩ := List.exists_mem_of_ne_nil _ s.members_ne_nil
        exact List.ne_nil_of_mem (mem_addMembers.mpr (.inl hd))
      members_nodup := nodup_addMembers s.members_nodup }
  else openAt (s.out ++ [s.flush]) f

/-- The spans after the loop. -/
def finish (s : SpanSweep) : List MergedFinding := s.out ++ [s.flush]

end SpanSweep

/-- The comparator of the sort: by `index`, the longer first, then by `detector`. -/
def compareSpans (locale : Collation) (a b : FindingSpan) : ℤ :=
  if (a.index : ℤ) - b.index ≠ 0 then (a.index : ℤ) - b.index
  else if (b.length : ℤ) - a.length ≠ 0 then (b.length : ℤ) - a.length
  else locale.localeCompare a.detector b.detector

/-- `mergeFindingSpans`. -/
def mergeFindingSpans (locale : Collation) (findings : List FindingSpan) : List MergedFinding :=
  match findings.insertionSort fun a b => compareSpans locale a b ≤ 0 with
  | [] => []
  | f :: rest => (rest.foldl SpanSweep.step (SpanSweep.openAt [] f)).finish

/-! ## Findings as labelled intervals -/

/-- The interval of a finding, labelled with its member detectors. -/
def FindingSpan.piece (f : FindingSpan) : Piece ℕ JsString where
  lo := f.index
  hi := f.index + f.length
  labels := {d | d ∈ f.members}
  le := Nat.le_add_right _ _

/-- The interval of a merged span. -/
def MergedFinding.piece (m : MergedFinding) : Piece ℕ JsString where
  lo := m.index
  hi := m.index + m.length
  labels := {d | d ∈ m.detectors}
  le := Nat.le_add_right _ _

/-- A merged span is the same interval when it is merged again. -/
@[simp] lemma MergedFinding.piece_toFindingSpan (m : MergedFinding) :
    m.toFindingSpan.piece = m.piece := rfl

/-- A merged span is given by its interval and its members. -/
lemma MergedFinding.piece_injective : Function.Injective MergedFinding.piece := by
  intro m m' h
  have hindex : m.index = m'.index := congrArg Piece.lo h
  have hstop : m.index + m.length = m'.index + m'.length := congrArg Piece.hi h
  have hlabels : {d | d ∈ m.detectors} = {d | d ∈ m'.detectors} := congrArg Piece.labels h
  have hperm : m.detectors.Perm m'.detectors :=
    (List.perm_ext_iff_of_nodup m.detectors_nodup m'.detectors_nodup).mpr
      fun d => Set.ext_iff.mp hlabels d
  have hdetectors : m.detectors = m'.detectors :=
    hperm.eq_of_pairwise (fun _ _ _ _ hab hba => keyLe_antisymm hab hba) m.detectors_sorted
      m'.detectors_sorted
  have hlabel : some m.detector = some m'.detector := by
    rw [← m.detector_eq, ← m'.detector_eq, hdetectors]
  refine MergedFinding.ext (Option.some_injective _ hlabel) hdetectors ?_ hindex (by omega)
  rw [m.signalClass_eq, m'.signalClass_eq, hdetectors]

/-- The current span of the sweep. -/
def SpanSweep.piece (s : SpanSweep) : Piece ℕ JsString where
  lo := s.start
  hi := s.stop
  labels := {d | d ∈ s.members}
  le := s.start_le

/-- The span put out is the current one. -/
@[simp] lemma SpanSweep.piece_flush (s : SpanSweep) : s.flush.piece = s.piece := by
  have hstop : s.start + (s.stop - s.start) = s.stop := Nat.add_sub_cancel' s.start_le
  simp [MergedFinding.piece, SpanSweep.piece, flush, hstop]

/-- A sweep begins with the interval of its finding. -/
@[simp] lemma SpanSweep.piece_openAt (out : List MergedFinding) (f : FindingSpan) :
    (openAt out f).piece = f.piece := by
  simp [SpanSweep.piece, openAt, FindingSpan.piece]

/-! ## The invariant of the sweep -/

/-- The spans of the sweep, the current one last, are the union of the findings read. -/
def SpanSweep.Invariant (s : SpanSweep) (read : List FindingSpan) : Prop :=
  IsUnion (read.map FindingSpan.piece) (s.out.map MergedFinding.piece ++ [s.piece])

/-- One step keeps the invariant if the next finding begins after those read. -/
lemma SpanSweep.Invariant.step {s : SpanSweep} {read : List FindingSpan} (h : s.Invariant read)
    {f : FindingSpan} (hsorted : ∀ g ∈ read, g.index ≤ f.index) :
    (s.step f).Invariant (read ++ [f]) := by
  unfold Invariant SpanSweep.step
  rw [List.map_append, List.map_singleton]
  by_cases htouch : f.index ≤ s.stop
  · rw [if_pos htouch]
    -- the current span begins where a finding read does
    have hlo : s.start ≤ f.index := by
      obtain ⟨i, hi, heq⟩ := h.anchored s.piece (by simp)
      obtain ⟨g, hg, rfl⟩ := List.mem_map.mp hi
      have hstart : g.index = s.start := heq
      exact hstart ▸ hsorted g hg
    have hunion := h.absorb (f := f.piece) hlo htouch
    convert hunion using 3
    refine Piece.ext rfl ?_ ?_
    · show (if s.stop < f.index + f.length then f.index + f.length else s.stop) = _
      split <;> simp only [Piece.absorb_hi, SpanSweep.piece, FindingSpan.piece] <;> omega
    · ext d
      simp [SpanSweep.piece, FindingSpan.piece]
  · rw [if_neg htouch]
    have hunion := h.gap (f := f.piece) (not_le.mp htouch)
    simpa using hunion

/-- The sweep over the rest of the sorted findings. -/
lemma SpanSweep.Invariant.foldl {s : SpanSweep} {read rest : List FindingSpan}
    (h : s.Invariant read) (hsorted : (read ++ rest).Pairwise (·.index ≤ ·.index)) :
    (rest.foldl SpanSweep.step s).Invariant (read ++ rest) := by
  induction rest generalizing s read with
  | nil => simpa using h
  | cons f rest ih =>
    have hcross := (List.pairwise_append.mp hsorted).2.2
    have hstep := h.step (f := f) fun g hg => hcross g hg f List.mem_cons_self
    have hassoc : read ++ f :: rest = (read ++ [f]) ++ rest := by simp
    rw [hassoc] at hsorted ⊢
    exact ih hstep hsorted

/-- A sweep over one finding. -/
lemma SpanSweep.invariant_openAt (f : FindingSpan) : (openAt [] f).Invariant [f] := by
  unfold Invariant
  simpa using isUnion_singleton f.piece

/-! ## The order of the findings -/

/-- The comparator says nothing that contradicts the order of the indices. -/
lemma index_le_of_compareSpans {locale : Collation} {a b : FindingSpan}
    (h : compareSpans locale a b ≤ 0) : a.index ≤ b.index := by
  unfold compareSpans at h
  split at h <;> omega

instance compareSpansTotal (locale : Collation) :
    Std.Total fun a b : FindingSpan => compareSpans locale a b ≤ 0 where
  total a b := by
    have := locale.total a.detector b.detector
    unfold compareSpans
    split_ifs <;> omega

instance compareSpansTrans (locale : Collation) :
    IsTrans FindingSpan fun a b => compareSpans locale a b ≤ 0 where
  trans a b c := by
    have := locale.trans a.detector b.detector c.detector
    unfold compareSpans
    split_ifs <;> omega

/-- The findings in the order of the sweep. -/
lemma sorted_index (locale : Collation) (findings : List FindingSpan) :
    (findings.insertionSort fun a b => compareSpans locale a b ≤ 0).Pairwise
      (·.index ≤ ·.index) :=
  (List.pairwise_insertionSort _ findings).imp index_le_of_compareSpans

/-! ## The merge is the union -/

/-- **`mergeFindingSpans` computes the union of the findings.** -/
theorem mergeFindingSpans_isUnion (locale : Collation) (findings : List FindingSpan) :
    IsUnion (findings.map FindingSpan.piece)
      ((mergeFindingSpans locale findings).map MergedFinding.piece) := by
  have hperm := List.perm_insertionSort (fun a b => compareSpans locale a b ≤ 0) findings
  have hsorted := sorted_index locale findings
  have hmem : ∀ i, i ∈ (findings.insertionSort fun a b => compareSpans locale a b ≤ 0).map
      FindingSpan.piece ↔ i ∈ findings.map FindingSpan.piece :=
    fun i => (hperm.map FindingSpan.piece).mem_iff
  unfold mergeFindingSpans
  cases hcases : findings.insertionSort fun a b => compareSpans locale a b ≤ 0 with
  | nil =>
    rw [hcases] at hmem
    exact isUnion_nil.congr hmem
  | cons f rest =>
    rw [hcases] at hmem hsorted
    have hrun := SpanSweep.Invariant.foldl (SpanSweep.invariant_openAt f) hsorted
    have hfinish : ∀ s : SpanSweep,
        s.finish.map MergedFinding.piece = s.out.map MergedFinding.piece ++ [s.piece] := by
      intro s
      simp [SpanSweep.finish]
    rw [hfinish]
    exact hrun.congr hmem

/-- The merge returns a list of merged spans exactly if that is the union of the findings. -/
theorem mergeFindingSpans_eq_iff {locale : Collation} {findings : List FindingSpan}
    {out : List MergedFinding} :
    mergeFindingSpans locale findings = out ↔
      IsUnion (findings.map FindingSpan.piece) (out.map MergedFinding.piece) := by
  constructor
  · rintro rfl
    exact mergeFindingSpans_isUnion locale findings
  · intro h
    exact List.map_injective_iff.mpr MergedFinding.piece_injective
      ((mergeFindingSpans_isUnion locale findings).unique h)

/-- The merge depends on the set of the findings only. -/
lemma mergeFindingSpans_congr {locale locale' : Collation} {findings findings' : List FindingSpan}
    (h : ∀ f, f ∈ findings ↔ f ∈ findings') :
    mergeFindingSpans locale findings = mergeFindingSpans locale' findings' := by
  refine mergeFindingSpans_eq_iff.mpr ((mergeFindingSpans_isUnion locale' findings').congr ?_)
  intro i
  simp only [List.mem_map, h]

/-- The merge of merged spans and of some of the findings merged in them. -/
lemma mergeFindingSpans_append {locale locale' : Collation} {findings extra : List FindingSpan}
    (hsub : extra ⊆ findings) :
    mergeFindingSpans locale'
        ((mergeFindingSpans locale findings).map MergedFinding.toFindingSpan ++ extra) =
      mergeFindingSpans locale findings := by
  refine mergeFindingSpans_eq_iff.mpr ?_
  have hunion := (mergeFindingSpans_isUnion locale findings).append
    (List.map_subset FindingSpan.piece hsub)
  simpa [List.map_append, Function.comp_def] using hunion

/-! ## Positions of the text -/

/-- The finding covers the position. -/
def FindingSpan.Covers (f : FindingSpan) (x : ℕ) : Prop := f.index ≤ x ∧ x < f.index + f.length

/-- The span covers the position. -/
def MergedFinding.Covers (m : MergedFinding) (x : ℕ) : Prop :=
  m.index ≤ x ∧ x < m.index + m.length

/-- The finding lies inside the span. -/
def MergedFinding.Encloses (m : MergedFinding) (f : FindingSpan) : Prop :=
  m.index ≤ f.index ∧ f.index + f.length ≤ m.index + m.length

instance (f : FindingSpan) (x : ℕ) : Decidable (f.Covers x) := inferInstanceAs (Decidable (_ ∧ _))

instance (m : MergedFinding) (x : ℕ) : Decidable (m.Covers x) :=
  inferInstanceAs (Decidable (_ ∧ _))

/-- The spans are sorted, and there is a gap between any two. -/
lemma mergeFindingSpans_apart (locale : Collation) (findings : List FindingSpan) :
    (mergeFindingSpans locale findings).Pairwise fun m m' => m.index + m.length < m'.index :=
  List.pairwise_map.mp (mergeFindingSpans_isUnion locale findings).apart

/-- The spans cover the positions that the findings cover. -/
lemma mergeFindingSpans_covers_iff (locale : Collation) (findings : List FindingSpan) (x : ℕ) :
    (∃ m ∈ mergeFindingSpans locale findings, m.Covers x) ↔ ∃ f ∈ findings, f.Covers x := by
  have h := (mergeFindingSpans_isUnion locale findings).covers_iff x
  simp only [List.mem_map, exists_exists_and_eq_and] at h
  exact h

/-- A finding lies inside a span that has its members. -/
lemma exists_mergedFinding (locale : Collation) {findings : List FindingSpan} {f : FindingSpan}
    (hf : f ∈ findings) :
    ∃ m ∈ mergeFindingSpans locale findings, m.Encloses f ∧ ∀ d ∈ f.members, d ∈ m.detectors := by
  obtain ⟨p, hp, henc, hsub⟩ := (mergeFindingSpans_isUnion locale findings).inside f.piece
    (List.mem_map_of_mem hf)
  obtain ⟨m, hm, rfl⟩ := List.mem_map.mp hp
  exact ⟨m, hm, henc, fun d hd => hsub hd⟩

/-- Only one span encloses a finding. -/
lemma mergedFinding_unique {locale : Collation} {findings : List FindingSpan} {f : FindingSpan}
    {m m' : MergedFinding} (hm : m ∈ mergeFindingSpans locale findings)
    (hm' : m' ∈ mergeFindingSpans locale findings) (henc : m.Encloses f) (henc' : m'.Encloses f) :
    m = m' :=
  MergedFinding.piece_injective <| (mergeFindingSpans_isUnion locale findings).eq_of_encloses
    (i := f.piece) (List.mem_map_of_mem hm) (List.mem_map_of_mem hm') henc henc'

/-- A member of a span comes from a finding inside. -/
lemma exists_finding_of_mem_detectors {locale : Collation} {findings : List FindingSpan}
    {m : MergedFinding} (hm : m ∈ mergeFindingSpans locale findings) {d : JsString}
    (hd : d ∈ m.detectors) : ∃ f ∈ findings, m.Encloses f ∧ d ∈ f.members := by
  obtain ⟨i, hi, henc, hdi⟩ := (mergeFindingSpans_isUnion locale findings).labels m.piece
    (List.mem_map_of_mem hm) d hd
  obtain ⟨f, hf, rfl⟩ := List.mem_map.mp hi
  exact ⟨f, hf, henc, hdi⟩

/-- **The merge is a correct interval union.**  The spans are sorted and do not touch; they cover
what the findings cover; every finding is inside one span, which has its detectors, and a span has no
other detectors; the order of the findings does not matter; and merging the spans again, alone or
with some of the findings, changes nothing. -/
theorem mergeFindingSpans_correct (locale : Collation) (findings : List FindingSpan) :
    (mergeFindingSpans locale findings).Pairwise (fun m m' => m.index + m.length < m'.index) ∧
    (∀ x, (∃ m ∈ mergeFindingSpans locale findings, m.Covers x) ↔ ∃ f ∈ findings, f.Covers x) ∧
    (∀ f ∈ findings, ∃ m ∈ mergeFindingSpans locale findings, m.Encloses f ∧
      (∀ d ∈ f.members, d ∈ m.detectors) ∧
      ∀ m' ∈ mergeFindingSpans locale findings, m'.Encloses f → m' = m) ∧
    (∀ m ∈ mergeFindingSpans locale findings, ∀ d ∈ m.detectors,
      ∃ f ∈ findings, m.Encloses f ∧ d ∈ f.members) ∧
    (∀ findings', findings'.Perm findings →
      mergeFindingSpans locale findings' = mergeFindingSpans locale findings) ∧
    mergeFindingSpans locale ((mergeFindingSpans locale findings).map MergedFinding.toFindingSpan) =
      mergeFindingSpans locale findings ∧
    (∀ extra, extra.Sublist findings →
      mergeFindingSpans locale
          ((mergeFindingSpans locale findings).map MergedFinding.toFindingSpan ++ extra) =
        mergeFindingSpans locale findings) := by
  refine ⟨mergeFindingSpans_apart locale findings, mergeFindingSpans_covers_iff locale findings,
    ?_, ?_, ?_, ?_, ?_⟩
  · intro f hf
    obtain ⟨m, hm, henc, hmembers⟩ := exists_mergedFinding locale hf
    exact ⟨m, hm, henc, hmembers, fun m' hm' henc' => mergedFinding_unique hm' hm henc' henc⟩
  · intro m hm d hd
    exact exists_finding_of_mem_detectors hm hd
  · intro findings' hperm
    exact mergeFindingSpans_congr fun f => hperm.mem_iff
  · simpa using @mergeFindingSpans_append locale locale _ _
      (List.nil_subset findings)
  · intro extra hsub
    exact mergeFindingSpans_append hsub.subset

end GovAI
