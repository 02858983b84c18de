import Mathlib

/-!
# Gaps in a sequence of numbers

Numbers that should follow each other without a hole are looked at in two ways: the count of them is
compared with the distance of the least and the greatest one, and the sorted numbers are searched for
neighbours that differ by more than one.  Both find the same holes (`jumps_eq_nil_iff`), and the
neighbours tell the first missing number and how many are missing (`isLeast_missing`, `sum_jumps`).
-/

namespace GovAI

/-- The numbers in their order, each with the next one. -/
def withNext (seqs : List ℤ) : List (ℤ × Option ℤ) :=
  let sorted := seqs.insertionSort (· ≤ ·)
  sorted.zip (sorted.tail.map some ++ [none])

/-- The neighbours that differ by more than one. -/
def jumps (seqs : List ℤ) : List (ℤ × ℤ) :=
  (withNext seqs).filterMap fun p => p.2.bind fun next =>
    if 1 < next - p.1 then some (p.1, next) else none

/-- The numbers that are missing between the least and the greatest one. -/
def missing (seqs : List ℤ) : Set ℤ :=
  {x | x ∉ seqs ∧ ∃ lo ∈ seqs, ∃ hi ∈ seqs, lo < x ∧ x < hi}

/-! ## Neighbours in an increasing list -/

/-- Neighbours that differ by more than one, in a list in increasing order. -/
def wideSteps (sorted : List ℤ) : List (ℤ × ℤ) :=
  (sorted.zip sorted.tail).filter fun p => 1 < p.2 - p.1

/-- The first step of a list. -/
lemma wideSteps_cons_cons (a b : ℤ) (l : List ℤ) :
    wideSteps (a :: b :: l) =
      (if 1 < b - a then [(a, b)] else []) ++ wideSteps (b :: l) := by
  simp only [wideSteps, List.tail_cons, List.zip_cons_cons, List.filter_cons]
  by_cases h : 1 < b - a
  · simp [h]
  · simp [h]

/-- The jumps are the wide steps of the sorted numbers. -/
lemma jumps_eq_wideSteps (seqs : List ℤ) :
    jumps seqs = wideSteps (seqs.insertionSort (· ≤ ·)) := by
  rw [jumps, withNext]
  generalize seqs.insertionSort (· ≤ ·) = sorted
  induction sorted with
  | nil => rfl
  | cons a l ih =>
    cases l with
    | nil => rfl
    | cons b l =>
      rw [wideSteps_cons_cons, ← ih]
      by_cases h : 1 < b - a
      · simp [h]
      · simp [h]

/-- A wide step goes from one number to the next one. -/
lemma of_mem_wideSteps {sorted : List ℤ} (h : sorted.Pairwise (· < ·)) {p : ℤ × ℤ}
    (hp : p ∈ wideSteps sorted) :
    p.1 ∈ sorted ∧ p.2 ∈ sorted ∧ p.1 + 1 < p.2 ∧ ∀ x ∈ sorted, x ≤ p.1 ∨ p.2 ≤ x := by
  induction sorted with
  | nil => cases hp
  | cons a l ih =>
    cases l with
    | nil => cases hp
    | cons b l =>
      obtain ⟨hab, hl⟩ := List.pairwise_cons.mp h
      rw [wideSteps_cons_cons, List.mem_append] at hp
      rcases hp with hp | hp
      · obtain ⟨hstep, rfl⟩ : 1 < b - a ∧ p = (a, b) := by
          by_cases hstep : 1 < b - a
          · rw [if_pos hstep, List.mem_singleton] at hp
            exact ⟨hstep, hp⟩
          · rw [if_neg hstep] at hp
            cases hp
        refine ⟨List.mem_cons_self, List.mem_cons_of_mem _ List.mem_cons_self, by omega,
          fun x hx => ?_⟩
        rcases List.mem_cons.mp hx with rfl | hx
        · exact .inl le_rfl
        · rcases List.mem_cons.mp hx with rfl | hx
          · exact .inr le_rfl
          · exact .inr (List.rel_of_pairwise_cons hl hx).le
      · obtain ⟨hmem, hmem', hstep, hbetween⟩ := ih hl hp
        refine ⟨List.mem_cons_of_mem _ hmem, List.mem_cons_of_mem _ hmem', hstep, fun x hx => ?_⟩
        rcases List.mem_cons.mp hx with rfl | hx
        · exact .inl (hab _ hmem).le
        · exact hbetween x hx

/-- A number that an increasing list leaves out lies within a wide step. -/
lemma exists_wideStep {a : ℤ} {l : List ℤ} (h : (a :: l).Pairwise (· < ·)) {x hi : ℤ}
    (hx : x ∉ l) (hax : a < x) (hhi : hi ∈ l) (hxhi : x < hi) :
    ∃ p ∈ wideSteps (a :: l), p.1 < x ∧ x < p.2 := by
  induction l generalizing a with
  | nil => cases hhi
  | cons b l ih =>
    rw [List.mem_cons, not_or] at hx
    rw [wideSteps_cons_cons]
    rcases lt_or_gt_of_ne hx.1 with hlt | hgt
    · refine ⟨(a, b), List.mem_append_left _ ?_, hax, hlt⟩
      rw [if_pos (by omega)]
      exact List.mem_singleton_self _
    · have hhi' : hi ∈ l := by
        rcases List.mem_cons.mp hhi with rfl | hhi'
        · omega
        · exact hhi'
      obtain ⟨p, hp, hlt, hlt'⟩ := ih h.of_cons hx.2 hgt hhi'
      exact ⟨p, List.mem_append_right _ hp, hlt, hlt'⟩

/-- What the wide steps leave out adds up to the distance of the ends, less the numbers there. -/
lemma sum_wideSteps {a hi : ℤ} {l : List ℤ} (h : (a :: l).Pairwise (· < ·))
    (hmem : hi ∈ a :: l) (hmax : ∀ x ∈ a :: l, x ≤ hi) :
    ((wideSteps (a :: l)).map fun p => p.2 - p.1 - 1).sum = hi - a - l.length := by
  induction l generalizing a with
  | nil =>
    obtain rfl := List.mem_singleton.mp hmem
    simp [wideSteps]
  | cons b l ih =>
    obtain ⟨hab, hl⟩ := List.pairwise_cons.mp h
    have hb : a < b := hab b List.mem_cons_self
    have hbhi : b ≤ hi := hmax b (List.mem_cons_of_mem _ List.mem_cons_self)
    have hmem' : hi ∈ b :: l := by
      rcases List.mem_cons.mp hmem with rfl | hmem'
      · omega
      · exact hmem'
    have hrest := ih hl hmem' fun x hx => hmax x (List.mem_cons_of_mem _ hx)
    rw [wideSteps_cons_cons, List.map_append, List.sum_append, hrest, List.length_cons]
    by_cases hstep : 1 < b - a
    · simp [hstep]
      omega
    · simp [hstep]
      omega

/-! ## Jumps and missing numbers -/

section Distinct

variable {seqs : List ℤ}

/-- Sorted distinct numbers increase. -/
lemma pairwise_lt_sort (h : seqs.Nodup) : (seqs.insertionSort (· ≤ ·)).Pairwise (· < ·) := by
  have hnodup := (List.perm_insertionSort (· ≤ ·) seqs).nodup_iff.mpr h
  exact ((List.pairwise_insertionSort (· ≤ ·) seqs).and hnodup).imp fun h => lt_of_le_of_ne h.1 h.2

/-- A missing number lies within a jump. -/
lemma exists_jump (h : seqs.Nodup) {x : ℤ} (hx : x ∈ missing seqs) :
    ∃ p ∈ jumps seqs, p.1 < x ∧ x < p.2 := by
  have hsorted := pairwise_lt_sort h
  obtain ⟨hout, lo, hlo, hi, hhi, hlt, hlt'⟩ := hx
  rw [← List.mem_insertionSort (· ≤ ·)] at hout hlo hhi
  rw [jumps_eq_wideSteps]
  revert hsorted hout hlo hhi
  generalize seqs.insertionSort (· ≤ ·) = sorted
  intro hsorted hout hlo hhi
  cases sorted with
  | nil => cases hlo
  | cons a l =>
    have hle : ∀ y ∈ a :: l, a ≤ y := by
      intro y hy
      rcases List.mem_cons.mp hy with rfl | hy
      · exact le_rfl
      · exact (List.rel_of_pairwise_cons hsorted hy).le
    have ha := hle lo hlo
    have hhi' : hi ∈ l := by
      rcases List.mem_cons.mp hhi with rfl | hhi'
      · omega
      · exact hhi'
    exact exists_wideStep hsorted (fun h => hout (List.mem_cons_of_mem _ h)) (by omega) hhi' hlt'

/-- The number after the lower end of a jump is missing. -/
lemma succ_mem_missing (h : seqs.Nodup) {p : ℤ × ℤ} (hp : p ∈ jumps seqs) :
    p.1 + 1 ∈ missing seqs := by
  rw [jumps_eq_wideSteps] at hp
  obtain ⟨hlo, hhi, hstep, hbetween⟩ := of_mem_wideSteps (pairwise_lt_sort h) hp
  rw [List.mem_insertionSort] at hlo hhi
  refine ⟨fun hin => ?_, p.1, hlo, p.2, hhi, by omega, by omega⟩
  have := hbetween _ ((List.mem_insertionSort _).mpr hin)
  omega

/-- The least missing number comes after the least lower end of a jump. -/
lemma isLeast_missing (h : seqs.Nodup) {m : ℤ}
    (hm : ((jumps seqs).map Prod.fst).min? = some m) : IsLeast (missing seqs) (m + 1) := by
  obtain ⟨hmem, hmin⟩ := List.min?_eq_some_iff.mp hm
  obtain ⟨p, hp, rfl⟩ := List.mem_map.mp hmem
  refine ⟨succ_mem_missing h hp, fun x hx => ?_⟩
  obtain ⟨q, hq, hlt, -⟩ := exists_jump h hx
  have := hmin _ (List.mem_map_of_mem hq)
  omega

/-- There are jumps exactly if there are missing numbers. -/
lemma jumps_eq_nil_iff (h : seqs.Nodup) : jumps seqs = [] ↔ missing seqs = ∅ := by
  rw [List.eq_nil_iff_forall_not_mem, Set.eq_empty_iff_forall_notMem]
  constructor
  · intro hall x hx
    obtain ⟨p, hp, -⟩ := exists_jump h hx
    exact hall p hp
  · exact fun hall p hp => hall _ (succ_mem_missing h hp)

/-- The missing numbers are those between the ends that the list does not have. -/
lemma missing_eq_sdiff {lo hi : ℤ} (hlo : seqs.min? = some lo) (hhi : seqs.max? = some hi) :
    missing seqs = ↑(Finset.Icc lo hi \ seqs.toFinset) := by
  obtain ⟨hlo, hmin⟩ := List.min?_eq_some_iff.mp hlo
  obtain ⟨hhi, hmax⟩ := List.max?_eq_some_iff.mp hhi
  ext x
  rw [Finset.mem_coe, Finset.mem_sdiff, Finset.mem_Icc, List.mem_toFinset]
  constructor
  · rintro ⟨hx, lo', hlo', hi', hhi', hlt, hlt'⟩
    exact ⟨⟨(hmin _ hlo').trans hlt.le, hlt'.le.trans (hmax _ hhi')⟩, hx⟩
  · rintro ⟨⟨hle, hle'⟩, hx⟩
    exact ⟨hx, lo, hlo, hi, hhi, lt_of_le_of_ne hle (fun h => hx (h ▸ hlo)),
      lt_of_le_of_ne hle' (fun h => hx (h ▸ hhi))⟩

/-- How many numbers are missing. -/
lemma ncard_missing (h : seqs.Nodup) {lo hi : ℤ} (hlo : seqs.min? = some lo)
    (hhi : seqs.max? = some hi) :
    ((missing seqs).ncard : ℤ) = hi - lo + 1 - seqs.length := by
  obtain ⟨hmem, hmin⟩ := List.min?_eq_some_iff.mp hlo
  obtain ⟨hmem', hmax⟩ := List.max?_eq_some_iff.mp hhi
  have hsub : seqs.toFinset ⊆ Finset.Icc lo hi := by
    intro x hx
    rw [List.mem_toFinset] at hx
    exact Finset.mem_Icc.mpr ⟨hmin x hx, hmax x hx⟩
  have hcard := Finset.card_sdiff_add_card_eq_card hsub
  rw [List.toFinset_card_of_nodup h, Int.card_Icc] at hcard
  have hle : lo ≤ hi := hmin hi hmem'
  rw [missing_eq_sdiff hlo hhi, Set.ncard_coe_finset]
  omega

/-- The count differs from the distance of the ends exactly if a number is missing. -/
lemma length_ne_iff (h : seqs.Nodup) {lo hi : ℤ} (hlo : seqs.min? = some lo)
    (hhi : seqs.max? = some hi) : (seqs.length : ℤ) ≠ hi - lo + 1 ↔ jumps seqs ≠ [] := by
  have hcard := ncard_missing h hlo hhi
  have hfinite : (missing seqs).Finite := by
    rw [missing_eq_sdiff hlo hhi]
    exact Finset.finite_toSet _
  rw [Ne, Ne, jumps_eq_nil_iff h, not_iff_not, ← Set.ncard_eq_zero hfinite]
  omega

/-- The jumps add up to the number of missing numbers. -/
lemma sum_jumps (h : seqs.Nodup) :
    ((jumps seqs).map fun p => p.2 - p.1 - 1).sum = ((missing seqs).ncard : ℤ) := by
  have hsorted := pairwise_lt_sort h
  have hperm := List.perm_insertionSort (· ≤ ·) seqs
  rw [jumps_eq_wideSteps]
  revert hsorted hperm
  generalize seqs.insertionSort (· ≤ ·) = sorted
  intro hsorted hperm
  cases sorted with
  | nil =>
    obtain rfl := hperm.symm.eq_nil
    have hempty : missing ([] : List ℤ) = ∅ := (jumps_eq_nil_iff h).mp rfl
    rw [hempty, Set.ncard_empty]
    rfl
  | cons a l =>
    have hlo : seqs.min? = some a := by
      refine List.min?_eq_some_iff.mpr ⟨hperm.mem_iff.mp List.mem_cons_self, fun x hx => ?_⟩
      rcases List.mem_cons.mp (hperm.mem_iff.mpr hx) with rfl | hx
      · exact le_rfl
      · exact (List.rel_of_pairwise_cons hsorted hx).le
    obtain ⟨hi, hhi⟩ : ∃ hi, seqs.max? = some hi :=
      Option.ne_none_iff_exists'.mp fun hnone => by
        rw [List.max?_eq_none_iff.mp hnone] at hlo
        cases hlo
    obtain ⟨hmem, hmax⟩ := List.max?_eq_some_iff.mp hhi
    rw [ncard_missing h hlo hhi, sum_wideSteps hsorted (hperm.mem_iff.mpr hmem)
      fun x hx => hmax x (hperm.mem_iff.mp hx), ← hperm.length_eq, List.length_cons]
    omega

end Distinct

end GovAI
