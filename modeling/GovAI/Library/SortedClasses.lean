import Mathlib

/-!
# Classes of a sorted list

A query returns rows sorted by a compound key, and its caller takes out the rows of one class after
the other.  Sorting is stable, so that a class comes out sorted by whatever the key compares within
it (`filter_insertionSort_eq`).  Rows are counted and summed class by class (`sum_classes`).
-/

namespace GovAI

variable {α κ : Type*}

/-! ## Order -/

section Sorting

variable {r : α → α → Prop} [DecidableRel r] [IsTrans α r]

/-- The elements that are kept keep their places around an inserted one. -/
lemma filter_orderedInsert (p : α → Bool) (a : α) {l : List α} (hl : l.Pairwise r) :
    (l.orderedInsert r a).filter p =
      if p a then (l.filter p).orderedInsert r a else l.filter p := by
  induction l with
  | nil => cases hp : p a <;> simp [hp]
  | cons b l ih =>
    obtain ⟨hb, hl⟩ := List.pairwise_cons.mp hl
    by_cases hab : r a b
    · rw [List.orderedInsert_cons_of_le r l hab, List.filter_cons]
      -- Whatever is kept of the rest comes after the inserted element.
      have hall : ∀ c ∈ (b :: l).filter p, r a c := by
        intro c hc
        rcases List.mem_cons.mp (List.mem_of_mem_filter hc) with rfl | hc
        · exact hab
        · exact IsTrans.trans _ _ _ hab (hb c hc)
      cases hkept : (b :: l).filter p with
      | nil => rfl
      | cons c m =>
        rw [List.orderedInsert_cons_of_le r m (hall c (by rw [hkept]; exact List.mem_cons_self ..))]
    · rw [List.orderedInsert_of_not_le r l hab]
      by_cases hpb : p b = true
      · rw [List.filter_cons_of_pos hpb, List.filter_cons_of_pos hpb, ih hl,
          List.orderedInsert_of_not_le r _ hab]
        split <;> rfl
      · rw [List.filter_cons_of_neg hpb, List.filter_cons_of_neg hpb, ih hl]

/-- Sorting is stable: what is kept of a sorted list is what is kept, sorted. -/
lemma filter_insertionSort [Std.Total r] (p : α → Bool) (l : List α) :
    (l.insertionSort r).filter p = (l.filter p).insertionSort r := by
  induction l with
  | nil => rfl
  | cons a l ih =>
    rw [List.insertionSort_cons, filter_orderedInsert p a (List.pairwise_insertionSort r l), ih]
    by_cases hp : p a = true
    · rw [if_pos hp, List.filter_cons_of_pos hp, List.insertionSort_cons]
    · rw [if_neg hp, List.filter_cons_of_neg hp]

/-- A class comes out sorted by any order that agrees with the key within it. -/
lemma filter_insertionSort_eq [Std.Total r] {s : α → α → Prop} [DecidableRel s] {p : α → Bool}
    {l : List α} (h : ∀ a ∈ l, ∀ b ∈ l, p a → p b → (r a b ↔ s a b)) :
    (l.insertionSort r).filter p = (l.filter p).insertionSort s := by
  rw [filter_insertionSort]
  have hmap := List.map_insertionSort r s id (l.filter p) ?_
  · simpa only [List.map_id] using hmap
  · intro a ha b hb
    exact h a (List.mem_of_mem_filter ha) b (List.mem_of_mem_filter hb)
      (List.mem_filter.mp ha).2 (List.mem_filter.mp hb).2

end Sorting

/-! ## Sums -/

/-- Two classes without a common element are summed one after the other. -/
lemma sum_filter_or {p q : α → Bool} (w : α → ℕ) {l : List α} (h : ∀ x ∈ l, p x → q x → False) :
    ((l.filter fun x => p x || q x).map w).sum =
      ((l.filter p).map w).sum + ((l.filter q).map w).sum := by
  induction l with
  | nil => rfl
  | cons x l ih =>
    have ih := ih fun x hx => h x (List.mem_cons_of_mem _ hx)
    have hx := h x (List.mem_cons_self ..)
    simp only [List.filter_cons]
    cases hp : p x <;> cases hq : q x
    · simpa using ih
    · simp only [Bool.or_true, if_true, Bool.false_eq_true, if_false, List.map_cons,
        List.sum_cons, ih]
      omega
    · simp only [Bool.or_false, if_true, Bool.false_eq_true, if_false, List.map_cons,
        List.sum_cons, ih]
      omega
    · exact (hx hp hq).elim

/-- The classes of a list of keys, no two with a common element, sum up to their union. -/
lemma sum_classes {p : κ → α → Bool} (w : α → ℕ) {keys : List κ} {l : List α}
    (h : keys.Pairwise fun k k' => ∀ x ∈ l, p k x → p k' x → False) :
    (keys.map fun k => ((l.filter (p k)).map w).sum).sum =
      ((l.filter fun x => keys.any (p · x)).map w).sum := by
  induction keys with
  | nil => simp
  | cons k keys ih =>
    obtain ⟨hk, hkeys⟩ := List.pairwise_cons.mp h
    rw [List.map_cons, List.sum_cons, ih hkeys]
    simp only [List.any_cons]
    refine (sum_filter_or w fun x hx hp hany => ?_).symm
    obtain ⟨k', hk', hp'⟩ := List.any_eq_true.mp hany
    exact hk k' hk' x hx hp hp'

/-- The sum that counts. -/
lemma sum_map_one (l : List α) : (l.map fun _ => 1).sum = l.length := by
  induction l with
  | nil => rfl
  | cons a l ih => rw [List.map_cons, List.sum_cons, ih, List.length_cons, Nat.add_comm]

/-- A class weighs at most what the list does. -/
lemma sum_filter_le (p : α → Bool) (w : α → ℕ) (l : List α) :
    ((l.filter p).map w).sum ≤ (l.map w).sum :=
  (List.filter_sublist.map w).sum_le_sum fun _ _ => Nat.zero_le _

/-- **A list is rearranged to the classes of some keys**, if each item is in the class of one key. -/
theorem flatMap_filter_perm {p : κ → α → Bool} {keys : List κ} {l : List α}
    (hdisjoint : keys.Pairwise fun k k' => ∀ x ∈ l, p k x → p k' x → False)
    (hcover : ∀ x ∈ l, ∃ k ∈ keys, p k x) : (keys.flatMap fun k => l.filter (p k)).Perm l := by
  induction keys generalizing l with
  | nil =>
    rcases l with _ | ⟨x, l⟩
    · exact .nil
    · obtain ⟨k, hk, -⟩ := hcover x (List.mem_cons_self ..)
      cases hk
  | cons k keys ih =>
    obtain ⟨hk, hkeys⟩ := List.pairwise_cons.mp hdisjoint
    have hrest : ∀ k' ∈ keys, l.filter (p k') = (l.filter fun x => !p k x).filter (p k') := by
      intro k' hk'
      rw [List.filter_filter]
      refine List.filter_congr fun x hx => ?_
      cases hpk : p k x with
      | false => simp
      | true =>
        have hpk' : p k' x = false := by
          by_contra hne
          exact hk k' hk' x hx hpk (by simpa using hne)
        simp [hpk']
    have hcongr : (keys.flatMap fun k' => l.filter (p k')) =
        keys.flatMap fun k' => (l.filter fun x => !p k x).filter (p k') :=
      List.flatMap_congr hrest
    have hperm := ih (l := l.filter fun x => !p k x)
      (hkeys.imp fun h x hx => h x (List.mem_of_mem_filter hx)) fun x hx => by
        obtain ⟨hx, hpk⟩ := List.mem_filter.mp hx
        obtain ⟨k', hk', hpk'⟩ := hcover x hx
        rcases List.mem_cons.mp hk' with rfl | hk'
        · rw [hpk'] at hpk
          cases hpk
        · exact ⟨k', hk', hpk'⟩
    rw [List.flatMap_cons, hcongr]
    exact (hperm.append_left _).trans (List.filter_append_perm (p k) l)

end GovAI
