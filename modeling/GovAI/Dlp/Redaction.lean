import GovAI.Dlp.Spans
import Mathlib.Tactic.IntervalCases

/-!
# Redaction

`redactFindings` of `apps/api/src/pipeline/dlp.ts`.  The text is rebuilt from left to right, with one
marker for every merged span.  Position by position (`redactFindings_eq`): where a span begins stands
its marker, a covered character is gone, and every other character is kept.
-/

namespace GovAI

/-- `text.slice(from, to)`. -/
def sliceText (text : JsString) (a b : ℕ) : JsString := (text.take b).drop a

/-- The marker of a detector. -/
def redactionMarker (detector : JsString) : JsString :=
  jsString "[REDACTED:" ++ detector ++ jsString "]"

/-- The variables of the loop. -/
structure RedactionState where
  out : JsString
  cursor : ℕ

/-- The loop body for a span. -/
def RedactionState.step (text : JsString) (s : RedactionState) (m : MergedFinding) :
    RedactionState where
  out := s.out ++ sliceText text s.cursor m.index ++ redactionMarker m.detector
  cursor := m.index + m.length

/-- `redactFindings`. -/
def redactFindings (locale : Collation) (text : JsString) (findings : List FindingSpan) :
    JsString :=
  let s := (mergeFindingSpans locale findings).foldl (RedactionState.step text) ⟨[], 0⟩
  s.out ++ text.drop s.cursor

/-! ## Position by position -/

/-- The marker of the span that begins at a position. -/
def markerAt (spans : List MergedFinding) (x : ℕ) : JsString :=
  ((spans.find? (·.index = x)).map (redactionMarker ·.detector)).getD []

/-- The character at a position, unless it is covered. -/
def keptAt (text : JsString) (findings : List FindingSpan) (x : ℕ) : JsString :=
  if ∃ f ∈ findings, f.Covers x then [] else text[x]?.toList

/-- What the redaction puts in the place of a position. -/
def redactedAt (locale : Collation) (text : JsString) (findings : List FindingSpan) (x : ℕ) :
    JsString :=
  markerAt (mergeFindingSpans locale findings) x ++ keptAt text findings x

/-- What a list of spans puts in the place of a position. -/
def spanAt (text : JsString) (spans : List MergedFinding) (x : ℕ) : JsString :=
  markerAt spans x ++ if ∃ m ∈ spans, m.Covers x then [] else text[x]?.toList

/-- A part of a text, character by character. -/
lemma flatMap_getElem?_range' (text : JsString) (a k : ℕ) :
    (List.range' a k).flatMap (fun x => text[x]?.toList) = sliceText text a (a + k) := by
  induction k generalizing a with
  | zero => simp [sliceText]
  | succ k ih =>
    rw [List.range'_succ, List.flatMap_cons, ih, show a + (k + 1) = a + 1 + k by omega]
    unfold sliceText
    by_cases ha : a < text.length
    · have hlt : a < (text.take (a + 1 + k)).length := by
        rw [List.length_take]
        omega
      rw [List.drop_eq_getElem_cons hlt, List.getElem_take, List.getElem?_eq_getElem ha]
      rfl
    · have hnone : text[a]? = none := List.getElem?_eq_none (not_lt.mp ha)
      rw [hnone, List.drop_eq_nil_of_le (by simp; omega), List.drop_eq_nil_of_le (by simp; omega)]
      rfl

/-- Positions that are neither covered nor the beginning of a span are kept. -/
lemma flatMap_spanAt_of_free {text : JsString} {spans : List MergedFinding} {l : List ℕ}
    (hfree : ∀ x ∈ l, ∀ m ∈ spans, x < m.index) :
    l.flatMap (spanAt text spans) = l.flatMap fun x => text[x]?.toList := by
  refine List.flatMap_congr fun x hx => ?_
  have hstart : spans.find? (·.index = x) = none := by
    refine List.find?_eq_none.mpr fun m hm => ?_
    simpa using (hfree x hx m hm).ne'
  have hcover : ¬∃ m ∈ spans, m.Covers x := by
    rintro ⟨m, hm, hle, -⟩
    exact absurd (hfree x hx m hm) (not_lt.mpr hle)
  simp [spanAt, markerAt, hstart, hcover]

/-- After the end of the first span only the others count. -/
lemma spanAt_cons_of_stop_le {text : JsString} {m : MergedFinding} {rest : List MergedFinding}
    {x : ℕ} (hne : m.index ≠ x) (hstop : m.index + m.length ≤ x) :
    spanAt text (m :: rest) x = spanAt text rest x := by
  have hcover : ¬m.Covers x := fun h => absurd h.2 (not_lt.mpr hstop)
  simp [spanAt, markerAt, hne, hcover]

/-- The spans that begin after the position leave it alone. -/
lemma spanAt_of_free {text : JsString} {spans : List MergedFinding} {x : ℕ}
    (hfree : ∀ m ∈ spans, x < m.index) : spanAt text spans x = text[x]?.toList := by
  have h := @flatMap_spanAt_of_free text spans [x] (by simpa using hfree)
  simpa using h

/-- From the beginning of the first span on, the span is its marker. -/
lemma flatMap_spanAt_span {text : JsString} {m : MergedFinding} {rest : List MergedFinding} {k : ℕ}
    (hapart : ∀ m' ∈ rest, m.index + m.length < m'.index) :
    (List.range' m.index (m.length + (k + 1))).flatMap (spanAt text (m :: rest)) =
      redactionMarker m.detector ++
        (List.range' (m.index + m.length) (k + 1)).flatMap (spanAt text rest) := by
  rcases Nat.eq_zero_or_pos m.length with hzero | hpos
  · -- an empty span puts its marker before the character at its position
    simp only [hzero, Nat.zero_add, Nat.add_zero] at hapart ⊢
    rw [List.range'_succ, List.flatMap_cons, List.flatMap_cons]
    have hcover : ¬∃ m' ∈ m :: rest, m'.Covers m.index := by
      rintro ⟨m', hm', hle, hlt⟩
      rcases List.mem_cons.mp hm' with rfl | hm'
      · omega
      · exact absurd (hapart m' hm') (not_lt.mpr hle)
    have hhere : spanAt text (m :: rest) m.index =
        redactionMarker m.detector ++ spanAt text rest m.index := by
      rw [spanAt_of_free hapart]
      simp only [spanAt, markerAt, if_neg hcover]
      simp
    have hlater : (List.range' (m.index + 1) k).flatMap (spanAt text (m :: rest)) =
        (List.range' (m.index + 1) k).flatMap (spanAt text rest) := by
      refine List.flatMap_congr fun x hx => ?_
      have hx := (List.mem_range'_1.mp hx).1
      exact spanAt_cons_of_stop_le (by omega) (by omega)
    rw [hhere, hlater, List.append_assoc]
  · have hsplit : List.range' m.index (m.length + (k + 1)) =
        m.index :: List.range' (m.index + 1) (m.length - 1) ++
          List.range' (m.index + m.length) (k + 1) := by
      rw [← List.range'_append_1, List.range'_eq_cons_iff.mpr ⟨rfl, hpos, rfl⟩]
    have hcovered : ∀ x, m.index ≤ x → x < m.index + m.length → ∃ m' ∈ m :: rest, m'.Covers x :=
      fun x hle hlt => ⟨m, List.mem_cons_self, hle, hlt⟩
    have hhere : spanAt text (m :: rest) m.index = redactionMarker m.detector := by
      simp only [spanAt, markerAt, if_pos (hcovered m.index le_rfl (by omega))]
      simp
    have hinside : (List.range' (m.index + 1) (m.length - 1)).flatMap (spanAt text (m :: rest)) =
        [] := by
      refine List.flatMap_eq_nil_iff.mpr fun x hx => ?_
      have hx := List.mem_range'_1.mp hx
      have hstart : (m :: rest).find? (·.index = x) = none := by
        refine List.find?_eq_none.mpr fun m' hm' => ?_
        rcases List.mem_cons.mp hm' with rfl | hm'
        · simp
          omega
        · have := hapart m' hm'
          simp
          omega
      simp only [spanAt, markerAt, hstart, if_pos (hcovered x (by omega) (by omega))]
      rfl
    have hlater : (List.range' (m.index + m.length) (k + 1)).flatMap (spanAt text (m :: rest)) =
        (List.range' (m.index + m.length) (k + 1)).flatMap (spanAt text rest) := by
      refine List.flatMap_congr fun x hx => ?_
      have hx := (List.mem_range'_1.mp hx).1
      exact spanAt_cons_of_stop_le (by omega) hx
    rw [hsplit, List.flatMap_append, List.flatMap_cons, hhere, hinside, hlater, List.append_nil]

/-- The loop from a cursor on. -/
lemma redaction_foldl {text : JsString} {spans : List MergedFinding} {s : RedactionState}
    (hapart : spans.Pairwise fun m m' => m.index + m.length < m'.index)
    (hcursor : ∀ m ∈ spans, s.cursor ≤ m.index)
    (hinside : ∀ m ∈ spans, m.index + m.length ≤ text.length) (hs : s.cursor ≤ text.length) :
    (spans.foldl (RedactionState.step text) s).out ++
        text.drop (spans.foldl (RedactionState.step text) s).cursor =
      s.out ++ (List.range' s.cursor (text.length + 1 - s.cursor)).flatMap (spanAt text spans) := by
  induction spans generalizing s with
  | nil =>
    have hfree : ∀ x ∈ List.range' s.cursor (text.length + 1 - s.cursor),
        ∀ m ∈ ([] : List MergedFinding), x < m.index := by simp
    rw [flatMap_spanAt_of_free hfree, flatMap_getElem?_range', sliceText, List.foldl_nil,
      List.take_of_length_le (by omega)]
  | cons m rest ih =>
    obtain ⟨hfirst, hrest⟩ := List.pairwise_cons.mp hapart
    have hm := hcursor m List.mem_cons_self
    have hstop := hinside m List.mem_cons_self
    have hnext := ih (s := s.step text m) hrest (fun m' hm' => (hfirst m' hm').le)
      (fun m' hm' => hinside m' (List.mem_cons_of_mem _ hm')) hstop
    rw [List.foldl_cons, hnext]
    have hlen : text.length + 1 - s.cursor =
        (m.index - s.cursor) + (m.length + (text.length - (m.index + m.length) + 1)) := by omega
    have hbefore : ∀ x ∈ List.range' s.cursor (m.index - s.cursor),
        ∀ m' ∈ m :: rest, x < m'.index := by
      intro x hx m' hm'
      have hx := (List.mem_range'_1.mp hx).2
      rcases List.mem_cons.mp hm' with rfl | hm'
      · omega
      · have := hfirst m' hm'
        omega
    rw [hlen, ← List.range'_append_1, List.flatMap_append, flatMap_spanAt_of_free hbefore,
      flatMap_getElem?_range', show s.cursor + (m.index - s.cursor) = m.index by omega,
      flatMap_spanAt_span hfirst]
    have hcount : text.length + 1 - (m.index + m.length) =
        text.length - (m.index + m.length) + 1 := by omega
    simp only [RedactionState.step, hcount, List.append_assoc]

/-- The spans lie inside the text if the findings do. -/
lemma stop_le_of_mem {locale : Collation} {findings : List FindingSpan} {n : ℕ}
    (hinside : ∀ f ∈ findings, f.index + f.length ≤ n) {m : MergedFinding}
    (hm : m ∈ mergeFindingSpans locale findings) : m.index + m.length ≤ n := by
  by_contra hlong
  -- the last position of the span is covered by a finding
  obtain ⟨f, hf, henc, -⟩ := exists_finding_of_mem_detectors hm m.detector_mem
  have hf' := hinside f hf
  have hpos : m.Covers (m.index + m.length - 1) := by
    have := henc.1
    constructor <;> omega
  obtain ⟨g, hg, -, hlt⟩ := (mergeFindingSpans_covers_iff locale findings _).mp ⟨m, hm, hpos⟩
  have := hinside g hg
  omega

/-- **The redacted text, position by position.** -/
theorem redactFindings_eq {locale : Collation} {text : JsString} {findings : List FindingSpan}
    (hinside : ∀ f ∈ findings, f.index + f.length ≤ text.length) :
    redactFindings locale text findings =
      (List.range (text.length + 1)).flatMap (redactedAt locale text findings) := by
  have hloop := @redaction_foldl text _ ⟨[], 0⟩
    (mergeFindingSpans_apart locale findings) (fun _ _ => Nat.zero_le _)
    (fun m hm => stop_le_of_mem hinside hm) (Nat.zero_le _)
  unfold redactFindings
  rw [hloop, List.nil_append, Nat.sub_zero, List.range_eq_range']
  refine List.flatMap_congr fun x _ => ?_
  simp only [spanAt, redactedAt, keptAt, mergeFindingSpans_covers_iff]

/-! ## Maximal covered intervals -/

/-- The positions from `a` up to `b` are a maximal covered interval: findings cover them, and a
finding that overlaps or touches the interval lies inside.  The interval of an empty finding is
empty. -/
structure MaximalCovered (findings : List FindingSpan) (a b : ℕ) : Prop where
  exists_inside : ∃ f ∈ findings, a ≤ f.index ∧ f.index + f.length ≤ b
  covered : ∀ x, a ≤ x → x < b → ∃ f ∈ findings, f.Covers x
  maximal : ∀ f ∈ findings, f.index ≤ b → a ≤ f.index + f.length →
    a ≤ f.index ∧ f.index + f.length ≤ b

/-- A merged span is a maximal covered interval. -/
lemma maximalCovered_of_mem {locale : Collation} {findings : List FindingSpan} {m : MergedFinding}
    (hm : m ∈ mergeFindingSpans locale findings) :
    MaximalCovered findings m.index (m.index + m.length) where
  exists_inside := by
    obtain ⟨f, hf, henc, -⟩ := exists_finding_of_mem_detectors hm m.detector_mem
    exact ⟨f, hf, henc⟩
  covered x hle hlt := (mergeFindingSpans_covers_iff locale findings x).mp ⟨m, hm, hle, hlt⟩
  maximal f hf hle hge := by
    obtain ⟨m', hm', henc, -⟩ := exists_mergedFinding locale hf
    have hunion := mergeFindingSpans_isUnion locale findings
    have heq : m.piece = m'.piece := eq_of_touch hunion.apart (List.mem_map_of_mem hm)
      (List.mem_map_of_mem hm') (hge.trans henc.2) (henc.1.trans hle)
    exact MergedFinding.piece_injective heq ▸ henc

/-- The end of a merged span is not covered. -/
lemma not_covers_stop {locale : Collation} {findings : List FindingSpan} {m : MergedFinding}
    (hm : m ∈ mergeFindingSpans locale findings) :
    ¬∃ f ∈ findings, f.Covers (m.index + m.length) := by
  rintro ⟨f, hf, hcover⟩
  exact (mergeFindingSpans_isUnion locale findings).not_covers_hi (List.mem_map_of_mem hm)
    ⟨f.piece, List.mem_map_of_mem hf, hcover⟩

/-- **The merged spans are the maximal covered intervals.** -/
theorem maximalCovered_iff {locale : Collation} {findings : List FindingSpan} {a b : ℕ} :
    MaximalCovered findings a b ↔
      ∃ m ∈ mergeFindingSpans locale findings, m.index = a ∧ m.index + m.length = b := by
  constructor
  · intro h
    obtain ⟨f, hf, haf, hfb⟩ := h.exists_inside
    obtain ⟨m, hm, henc, -⟩ := exists_mergedFinding locale hf
    have hcovered := (maximalCovered_of_mem hm).covered
    have hstop_le : m.index + m.length ≤ b := by
      by_contra hlt
      obtain ⟨g, hg, hgx, hxg⟩ := hcovered b (by have := henc.1; omega) (by omega)
      have := (h.maximal g hg hgx (by omega)).2
      omega
    have hle_stop : b ≤ m.index + m.length := by
      by_contra hlt
      exact not_covers_stop hm (h.covered _ (by have := henc.2; omega) (by omega))
    have hle_index : a ≤ m.index := by
      by_contra hlt
      have := henc.2
      obtain ⟨g, hg, hgx, hxg⟩ := hcovered (a - 1) (by omega) (by omega)
      have := (h.maximal g hg (by omega) (by omega)).1
      omega
    have hindex_le : m.index ≤ a := by
      by_contra hlt
      have := henc.1
      obtain ⟨g, hg, hga, hag⟩ := h.covered a le_rfl (by omega)
      obtain ⟨m', hm', henc', -⟩ := exists_mergedFinding locale hg
      have hends := henc'
      unfold MergedFinding.Encloses at hends
      -- the span around position `a` ends before `m` begins, at a position that is covered
      by_cases hgap : m'.index + m'.length < m.index
      · exact not_covers_stop hm' (h.covered _ (by omega) (by omega))
      · have htouch := (maximalCovered_of_mem hm).maximal g hg (by omega)
        have heq : m' = m := by
          refine MergedFinding.piece_injective (eq_of_touch
            (mergeFindingSpans_isUnion locale findings).apart (List.mem_map_of_mem hm')
            (List.mem_map_of_mem hm) ?_ ?_)
          · show m'.index ≤ m.index + m.length
            omega
          · exact not_lt.mp hgap
        subst heq
        omega
    exact ⟨m, hm, le_antisymm hindex_le hle_index, le_antisymm hstop_le hle_stop⟩
  · rintro ⟨m, hm, rfl, rfl⟩
    exact maximalCovered_of_mem hm

/-! ## Redaction does not leak -/

/-- The redaction depends on the merged spans only. -/
lemma redactFindings_congr {locale : Collation} {text : JsString}
    {findings findings' : List FindingSpan}
    (h : mergeFindingSpans locale findings = mergeFindingSpans locale findings') :
    redactFindings locale text findings = redactFindings locale text findings' := by
  unfold redactFindings
  rw [h]

/-- **Redaction does not leak.**  For findings inside the text: the spans are the maximal covered
intervals, the result has one marker for each of them and keeps every uncovered character in its
place; two texts that agree on the uncovered positions give the same result; and the result is the
same for the findings in any order and for their merged spans in any order. -/
theorem redactFindings_no_leak (locale : Collation) (text : JsString)
    (findings : List FindingSpan)
    (hinside : ∀ f ∈ findings, f.index + f.length ≤ text.length) :
    (∀ a b, MaximalCovered findings a b ↔
      ∃ m ∈ mergeFindingSpans locale findings, m.index = a ∧ m.index + m.length = b) ∧
    redactFindings locale text findings =
      (List.range (text.length + 1)).flatMap (redactedAt locale text findings) ∧
    (∀ text', text'.length = text.length →
      (∀ x, (¬∃ f ∈ findings, f.Covers x) → text'[x]? = text[x]?) →
      redactFindings locale text' findings = redactFindings locale text findings) ∧
    (∀ findings', findings'.Perm findings →
      redactFindings locale text findings' = redactFindings locale text findings) ∧
    (∀ spans,
      spans.Perm ((mergeFindingSpans locale findings).map MergedFinding.toFindingSpan) →
      redactFindings locale text spans = redactFindings locale text findings) := by
  refine ⟨fun a b => maximalCovered_iff, redactFindings_eq hinside, ?_, ?_, ?_⟩
  · intro text' hlength hagree
    rw [redactFindings_eq hinside, redactFindings_eq (hlength ▸ hinside), hlength]
    refine List.flatMap_congr fun x _ => ?_
    unfold redactedAt keptAt
    split
    · rfl
    · rw [hagree x ‹_›]
  · intro findings' hperm
    exact redactFindings_congr (mergeFindingSpans_congr fun f => hperm.mem_iff)
  · intro spans hperm
    refine redactFindings_congr ?_
    have hmerged := @mergeFindingSpans_append locale locale _ _
      (List.nil_subset findings)
    rw [List.append_nil] at hmerged
    exact (mergeFindingSpans_congr fun f => hperm.mem_iff).trans hmerged

/-- Strings compared as JavaScript compares them. -/
def codeUnitCollation : Collation where
  localeCompare a b := if keyLe a b then -1 else 1
  total a b := by
    rcases keyLeStringTotal.total a b with h | h <;> simp [h]
  trans a b c hab hbc := by
    have hab' : keyLe a b = true := by by_contra h; simp [h] at hab
    have hbc' : keyLe b c = true := by by_contra h; simp [h] at hbc
    simp [keyLeStringTrans.trans a b c hab' hbc']

/-- A finding that was not merged has no members to be empty. -/
lemma unmerged_ne_nil : ∀ ds ∈ (none : Option (List JsString)), ds ≠ [] := by
  simp

/-- A number that two detectors find. -/
def sampleFindings : List FindingSpan :=
  [⟨jsString "phone_br", 5, 11, none, unmerged_ne_nil⟩, ⟨jsString "cpf", 5, 11, none, unmerged_ne_nil⟩]

/-- Two texts that differ in the number only. -/
theorem redactFindings_no_leak_sample :
    redactFindings codeUnitCollation (jsString "cpf: 98765432100") sampleFindings =
      redactFindings codeUnitCollation (jsString "cpf: 12345678909") sampleFindings := by
  refine (redactFindings_no_leak codeUnitCollation (jsString "cpf: 12345678909") sampleFindings
    (by decide)).2.2.1 _ (by decide) ?_
  intro x hx
  by_cases hlow : x < 5
  · interval_cases x <;> decide
  · by_cases hhigh : x < 16
    · exact absurd ⟨_, List.mem_cons_self, not_lt.mp hlow, hhigh⟩ hx
    · rw [List.getElem?_eq_none (show 16 ≤ x by omega), List.getElem?_eq_none
        (show 16 ≤ x by omega)]

example : redactFindings codeUnitCollation (jsString "cpf: 12345678909") sampleFindings =
    jsString "cpf: [REDACTED:cpf]" := by
  decide +kernel

end GovAI
