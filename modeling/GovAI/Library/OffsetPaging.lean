import GovAI.Library.PageRuns

/-!
# Paging by offsets

A query sorts the rows of a table by a key, drops the first `offset` of them and returns the next
`limit`.  Rows with equal keys come in any order, and each query may choose another one.  A client
that follows the offsets reads as many rows as the table has (`followOffsets_length`).  It reads each
row once, whatever the queries choose, exactly if no page ends among rows of one key
(`followOffsets_perm_iff`).
-/

namespace GovAI

variable {ρ κ : Type} [LinearOrder κ]

/-- `sorted` holds the rows in the order of the key. -/
structure IsOrdered (key : ρ → κ) (rows sorted : List ρ) : Prop where
  perm : sorted.Perm rows
  sorted : sorted.Pairwise (key · ≤ key ·)

/-- Some order of the rows agrees with the key. -/
lemma exists_isOrdered (key : ρ → κ) (rows : List ρ) : ∃ sorted, IsOrdered key rows sorted := by
  refine ⟨rows.insertionSort (key · ≤ key ·), List.perm_insertionSort _ _, ?_⟩
  have htotal : Std.Total (fun a b : ρ => key a ≤ key b) := ⟨fun a b => le_total _ _⟩
  have htrans : IsTrans ρ (fun a b => key a ≤ key b) := ⟨fun a b c => le_trans⟩
  exact List.pairwise_insertionSort _ _

/-- `LIMIT limit OFFSET offset`. -/
def offsetPage (limit offset : ℕ) (sorted : List ρ) : List ρ :=
  (sorted.drop offset).take limit

/-- A page with the offset of the next one; a short page has none. -/
def offsetAnswer (limit offset : ℕ) (page : List ρ) : List ρ × Option ℕ :=
  (page, if page.length = limit then some (offset + limit) else none)

/-- The requests of a client, if the query at an offset chooses the order `orders offset`. -/
def offsetRequest (orders : ℕ → List ρ) (limit : ℕ) (after : Option ℕ) :
    Option (List ρ × Option ℕ) :=
  let offset := after.getD 0
  some (offsetAnswer limit offset (offsetPage limit offset (orders offset)))

/-! ## The pages of a visit -/

/-- The number of rows of a page. -/
lemma length_offsetPage (limit offset : ℕ) (sorted : List ρ) :
    (offsetPage limit offset sorted).length = min limit (sorted.length - offset) := by
  rw [offsetPage, List.length_take, List.length_drop]

section Visit

variable {orders : ℕ → List ρ} {limit n : ℕ}

/-- From the page `j` on, a client that follows the offsets reads the pages up to the first short
one. -/
lemma followOffsets_from (hlimit : 0 < limit) (hn : ∀ c, (orders c).length = n) (d j : ℕ)
    (hj : j + d = n / limit) :
    followPages (offsetRequest orders limit) (d + 1) (some (j * limit)) =
      some ((List.range' j (d + 1)).flatMap
        fun k => offsetPage limit (k * limit) (orders (k * limit))) := by
  have hdiv : n / limit * limit ≤ n := Nat.div_mul_le_self n limit
  induction d generalizing j with
  | zero =>
    have hlength := length_offsetPage limit (j * limit) (orders (j * limit))
    rw [hn] at hlength
    have hlast : n < (j + 1) * limit := by
      rw [show j = n / limit by omega]
      exact Nat.lt_mul_of_div_lt (Nat.lt_succ_self _) hlimit
    have hshort : (offsetPage limit (j * limit) (orders (j * limit))).length ≠ limit := by
      rw [hlength]
      rw [Nat.succ_mul] at hlast
      omega
    have hrequest : offsetRequest orders limit (some (j * limit)) =
        some (offsetPage limit (j * limit) (orders (j * limit)), none) := by
      simp [offsetRequest, offsetAnswer, hshort]
    rw [followPages_last hrequest]
    simp [List.range'_one]
  | succ d ih =>
    have hlength := length_offsetPage limit (j * limit) (orders (j * limit))
    rw [hn] at hlength
    have hfull : (offsetPage limit (j * limit) (orders (j * limit))).length = limit := by
      have hle : (j + 1) * limit ≤ n :=
        (Nat.mul_le_mul_right limit (by omega : j + 1 ≤ n / limit)).trans hdiv
      rw [hlength]
      rw [Nat.succ_mul] at hle
      omega
    have hrequest : offsetRequest orders limit (some (j * limit)) =
        some (offsetPage limit (j * limit) (orders (j * limit)), some ((j + 1) * limit)) := by
      simp [offsetRequest, offsetAnswer, hfull, Nat.succ_mul]
    rw [followPages_next hrequest, ih (j + 1) (by omega), Option.map_some, @List.range'_succ j,
      List.flatMap_cons]

/-- The pages that a client reads who follows the offsets from 0: the pages up to the first short one. -/
def offsetVisit (orders : ℕ → List ρ) (limit n : ℕ) : List ρ :=
  (List.range (n / limit + 1)).flatMap fun k => offsetPage limit (k * limit) (orders (k * limit))

/-- A client that follows the offsets from 0 makes `n / limit + 1` requests. -/
lemma followOffsets_eq (hlimit : 0 < limit) (hn : ∀ c, (orders c).length = n) :
    followPages (offsetRequest orders limit) (n / limit + 1) (some 0) =
      some (offsetVisit orders limit n) := by
  have h := followOffsets_from hlimit hn (n / limit) 0 (Nat.zero_add _)
  rwa [Nat.zero_mul, ← List.range_eq_range'] at h

/-- The pages of one order, put together. -/
lemma flatMap_offsetPage (limit : ℕ) (sorted : List ρ) (m : ℕ) :
    ((List.range m).flatMap fun k => offsetPage limit (k * limit) sorted) =
      sorted.take (m * limit) := by
  induction m with
  | zero => simp
  | succ m ih =>
    rw [List.range_succ, List.flatMap_append, ih, List.flatMap_singleton, Nat.succ_mul,
      List.take_add, offsetPage]

/-- All pages of one order are the rows of it. -/
lemma offsetVisit_const (hlimit : 0 < limit) (sorted : List ρ) :
    offsetVisit (fun _ => sorted) limit sorted.length = sorted := by
  rw [offsetVisit, flatMap_offsetPage, List.take_of_length_le]
  exact (Nat.lt_mul_of_div_lt (Nat.lt_succ_self _) hlimit).le

/-- A visit has as many rows as the table. -/
theorem followOffsets_length (hlimit : 0 < limit) (hn : ∀ c, (orders c).length = n) :
    (offsetVisit orders limit n).length = n := by
  have hsame : (offsetVisit orders limit n).length =
      (offsetVisit (fun _ => orders 0) limit n).length := by
    rw [offsetVisit, offsetVisit, List.length_flatMap, List.length_flatMap]
    refine congrArg List.sum (List.map_congr_left fun k _ => ?_)
    rw [length_offsetPage, length_offsetPage, hn, hn]
  have hconst := offsetVisit_const hlimit (orders 0)
  rw [hn] at hconst
  rw [hsame, hconst, hn]

end Visit

/-- A client that reads other values of the rows. -/
lemma followPages_map {σ : Type} (f : ρ → σ) (request : Option ℕ → Option (List ρ × Option ℕ))
    (fuel : ℕ) (after : Option ℕ) :
    followPages (fun after => (request after).map fun answer => (answer.1.map f, answer.2)) fuel
      after = (followPages request fuel after).map (List.map f) := by
  induction fuel generalizing after with
  | zero => rfl
  | succ fuel ih =>
    rw [followPages, followPages]
    cases request after with
    | none => rfl
    | some answer =>
      obtain ⟨page, next⟩ := answer
      cases next with
      | none => rfl
      | some c =>
        change (followPages _ fuel (some c)).map _ = ((followPages _ fuel (some c)).map _).map _
        rw [ih, Option.map_map, Option.map_map]
        refine congrArg (fun g => Option.map g _) (funext fun rest => ?_)
        exact (List.map_append).symm

/-! ## Ties -/

/-- No page ends among the rows of one key: the rows up to the end of a page are not some, but not
all, of those with the key of a row. -/
def TiesFit (key : ρ → κ) (limit : ℕ) (rows : List ρ) : Prop :=
  ∀ r ∈ rows, ∀ k, k * limit ≤ rows.countP (key · < key r) ∨
    rows.countP (key · ≤ key r) ≤ k * limit

section Sorted

variable {key : ρ → κ} {rows sorted : List ρ} {limit : ℕ}

/-- In an order that agrees with the key, the rows with small keys come first. -/
lemma IsOrdered.filter_append (h : IsOrdered key rows sorted) {p : ρ → Bool}
    (hp : ∀ a b, key a ≤ key b → p b → p a) :
    sorted.filter p ++ sorted.filter (!p ·) = sorted := by
  have hsorted := h.sorted
  clear h
  induction sorted with
  | nil => rfl
  | cons r sorted ih =>
    have ih := ih hsorted.of_cons
    by_cases hr : p r
    · simpa [hr] using ih
    · have hnone : sorted.filter p = [] := List.filter_eq_nil_iff.mpr fun r' hr' hpos =>
        hr (hp r r' (List.rel_of_pairwise_cons hsorted hr') hpos)
      rw [hnone, List.nil_append] at ih
      rw [List.filter_cons_of_neg hr, hnone, List.nil_append, List.filter_cons_of_pos (by simpa using hr),
        ih]

/-- The rows with small keys are the first ones. -/
lemma IsOrdered.iff_lt_countP (h : IsOrdered key rows sorted) {p : ρ → Bool}
    (hp : ∀ a b, key a ≤ key b → p b → p a) {i : ℕ} {r : ρ} (hi : sorted[i]? = some r) :
    p r ↔ i < rows.countP p := by
  have hcount : rows.countP p = (sorted.filter p).length := by
    rw [← h.perm.countP_eq, List.countP_eq_length_filter]
  rw [hcount]
  rw [← h.filter_append hp] at hi
  constructor
  · intro hpos
    by_contra hle
    rw [List.getElem?_append_right (not_lt.mp hle)] at hi
    have hmem := (List.mem_filter.mp (List.mem_of_getElem? hi)).2
    simp [hpos] at hmem
  · intro hlt
    rw [List.getElem?_append_left hlt] at hi
    exact (List.mem_filter.mp (List.mem_of_getElem? hi)).2

/-- The position of a row tells which keys lie above its own. -/
lemma IsOrdered.lt_iff (h : IsOrdered key rows sorted) {i : ℕ} {r : ρ} (hi : sorted[i]? = some r)
    (t : κ) : key r < t ↔ i < rows.countP (key · < t) := by
  have := h.iff_lt_countP (p := (key · < t))
    (fun a b hab hb => decide_eq_true (hab.trans_lt (of_decide_eq_true hb))) hi
  rwa [decide_eq_true_iff] at this

/-- The position of a row tells which keys its own does not pass. -/
lemma IsOrdered.le_iff (h : IsOrdered key rows sorted) {i : ℕ} {r : ρ} (hi : sorted[i]? = some r)
    (t : κ) : key r ≤ t ↔ i < rows.countP (key · ≤ t) := by
  have := h.iff_lt_countP (p := (key · ≤ t))
    (fun a b hab hb => decide_eq_true (hab.trans (of_decide_eq_true hb))) hi
  rwa [decide_eq_true_iff] at this

/-- Where no page ends among tied rows, all orders have the same rows before the end of a page. -/
lemma IsOrdered.take_perm {sorted' : List ρ} (h : IsOrdered key rows sorted)
    (h' : IsOrdered key rows sorted') (hfit : TiesFit key limit rows) (k : ℕ) :
    (sorted.take (k * limit)).Perm (sorted'.take (k * limit)) := by
  by_cases hlong : sorted.length ≤ k * limit
  · have hlong' : sorted'.length ≤ k * limit := by
      rwa [h'.perm.length_eq, ← h.perm.length_eq]
    rw [List.take_of_length_le hlong, List.take_of_length_le hlong']
    exact h.perm.trans h'.perm.symm
  · obtain ⟨r, hr⟩ : ∃ r, sorted[k * limit]? = some r :=
      ⟨_, List.getElem?_eq_getElem (not_le.mp hlong)⟩
    have hmem : r ∈ rows := h.perm.mem_iff.mp (List.mem_of_getElem? hr)
    have hle := (h.le_iff hr (key r)).mp le_rfl
    have hlt := mt (h.lt_iff hr (key r)).mpr (lt_irrefl _)
    have hend : k * limit = rows.countP (key · < key r) := by
      rcases hfit r hmem k with hbefore | hafter
      · omega
      · omega
    have hp : ∀ a b, key a ≤ key b → decide (key b < key r) = true → decide (key a < key r) = true :=
      fun a b hab hb => decide_eq_true (hab.trans_lt (of_decide_eq_true hb))
    -- Up to here each order lists the rows with smaller keys.
    have htake : ∀ s : List ρ, IsOrdered key rows s →
        s.take (k * limit) = s.filter (key · < key r) := by
      intro s hs
      have hlength : (s.filter (key · < key r)).length = k * limit := by
        rw [hend, ← hs.perm.countP_eq, List.countP_eq_length_filter]
      conv_lhs => rw [← hs.filter_append hp, ← hlength]
      exact List.take_left
    rw [htake sorted h, htake sorted' h']
    exact (h.perm.trans h'.perm.symm).filter _

/-- Where no page ends among tied rows, a page has the same rows in all orders. -/
lemma IsOrdered.page_perm {sorted' : List ρ} (h : IsOrdered key rows sorted)
    (h' : IsOrdered key rows sorted') (hfit : TiesFit key limit rows) (k : ℕ) :
    (offsetPage limit (k * limit) sorted).Perm (offsetPage limit (k * limit) sorted') := by
  have hnext := h.take_perm h' hfit (k + 1)
  rw [Nat.succ_mul, List.take_add, List.take_add] at hnext
  exact (List.perm_append_left_iff _).mp
    (hnext.trans ((h.take_perm h' hfit k).symm.append_right _))

/-- Two neighbours with one key may come in the other order. -/
lemma IsOrdered.swap {before after : List ρ} {a b : ρ}
    (h : IsOrdered key rows (before ++ a :: b :: after)) (hab : key a = key b) :
    IsOrdered key rows (before ++ b :: a :: after) := by
  refine ⟨((List.Perm.swap a b after).append_left before).trans h.perm, ?_⟩
  have hkeys : ((before ++ a :: b :: after).map key).Pairwise (· ≤ ·) :=
    List.pairwise_map.mpr h.sorted
  have hsame : (before ++ b :: a :: after).map key = (before ++ a :: b :: after).map key := by
    simp [hab]
  exact List.pairwise_map.mp (hsame ▸ hkeys)

/-- Where no two rows have the same key, no page ends among tied rows. -/
lemma tiesFit_of_nodup (h : (rows.map key).Nodup) (limit : ℕ) : TiesFit key limit rows := by
  intro r hr k
  have hsplit : rows.countP (key · ≤ key r) =
      rows.countP (key · < key r) + rows.countP (key · = key r) := by
    clear h hr
    induction rows with
    | nil => rfl
    | cons a rows ih =>
      rw [List.countP_cons, List.countP_cons, List.countP_cons, ih]
      rcases lt_trichotomy (key a) (key r) with hlt | heq | hgt
      · simp [hlt, hlt.le, hlt.ne]
        omega
      · simp [heq]
        omega
      · simp [hgt.not_ge, hgt.not_gt, hgt.ne']
  have hone : rows.countP (key · = key r) = 1 := by
    have hcount := List.count_eq_one_of_mem h (List.mem_map_of_mem hr)
    rw [List.count, List.countP_map] at hcount
    refine (List.countP_congr fun a _ => ?_).trans hcount
    simp
  omega

/-- Among the rows of one key there are two neighbours on the two sides of a position. -/
lemma IsOrdered.exists_tied (h : IsOrdered key rows sorted) {t : κ} {m : ℕ}
    (hbefore : rows.countP (key · < t) < m) (hafter : m < rows.countP (key · ≤ t)) :
    ∃ before a b after, sorted = before ++ a :: b :: after ∧ before.length + 1 = m ∧
      key a = key b := by
  have hlength : m < sorted.length := by
    rw [h.perm.length_eq]
    exact hafter.trans_le List.countP_le_length
  obtain ⟨j, rfl⟩ : ∃ j, m = j + 1 := ⟨m - 1, by omega⟩
  obtain ⟨a, ha⟩ : ∃ a, sorted[j]? = some a := ⟨_, List.getElem?_eq_getElem (by omega)⟩
  obtain ⟨b, hb⟩ : ∃ b, sorted[j + 1]? = some b := ⟨_, List.getElem?_eq_getElem (by omega)⟩
  have hkey : ∀ i c, sorted[i]? = some c → j ≤ i → i ≤ j + 1 → key c = t := by
    intro i c hc hi hi'
    refine le_antisymm ((h.le_iff hc _).mpr (by omega)) (not_lt.mp fun hlt => ?_)
    have := (h.lt_iff hc _).mp hlt
    omega
  refine ⟨sorted.take j, a, b, sorted.drop (j + 2), ?_, ?_, ?_⟩
  · conv_lhs => rw [← List.take_append_drop j sorted]
    rw [List.drop_eq_getElem_cons (by omega), List.drop_eq_getElem_cons (by omega),
      ← Option.some.inj ((List.getElem?_eq_getElem _).symm.trans ha),
      ← Option.some.inj ((List.getElem?_eq_getElem _).symm.trans hb)]
  · rw [List.length_take, min_eq_left (by omega)]
  · exact (hkey j a ha le_rfl (by omega)).trans (hkey (j + 1) b hb (by omega) le_rfl).symm

/-- **Paging by offsets.** Whatever orders the queries choose, a client reads every row exactly once,
if and only if no page ends among the rows of one key. -/
theorem followOffsets_perm_iff (hlimit : 0 < limit) (hnodup : rows.Nodup) :
    (∀ orders : ℕ → List ρ, (∀ c, IsOrdered key rows (orders c)) →
      (offsetVisit orders limit rows.length).Perm rows) ↔ TiesFit key limit rows := by
  obtain ⟨sorted, hs⟩ := exists_isOrdered key rows
  constructor
  · intro hall r hr k
    by_contra hno
    rw [not_or, not_le, not_le] at hno
    obtain ⟨before, a, b, after, hsplit, hend, hab⟩ := hs.exists_tied hno.1 hno.2
    have hlength : k * limit < sorted.length := by
      rw [hs.perm.length_eq]
      exact hno.2.trans_le List.countP_le_length
    obtain ⟨m, rfl⟩ : ∃ m, k = m + 1 := Nat.exists_eq_succ_of_ne_zero (by rintro rfl; omega)
    have hmul : (m + 1) * limit = m * limit + limit := Nat.succ_mul m limit
    -- The page before takes `a`, and the page after takes it again, in the other order.
    let orders : ℕ → List ρ := fun c =>
      if c < (m + 1) * limit then sorted else before ++ b :: a :: after
    have horders : ∀ c, IsOrdered key rows (orders c) := by
      intro c
      by_cases hc : c < (m + 1) * limit
      · simpa [orders, hc] using hs
      · simpa [orders, hc] using (hsplit ▸ hs).swap hab
    have hvisit := ((hall orders horders).nodup_iff).mpr hnodup
    have hdisjoint := List.pairwise_iff_getElem.mp (List.nodup_flatMap.mp hvisit).2
    have hpages : m + 1 < rows.length / limit + 1 := by
      rw [Nat.lt_succ_iff, Nat.le_div_iff_mul_le hlimit, ← hs.perm.length_eq]
      exact hlength.le
    have hdisj := hdisjoint m (m + 1) (by rw [List.length_range]; omega)
      (by rw [List.length_range]; omega) (Nat.lt_succ_self m)
    rw [List.getElem_range, List.getElem_range] at hdisj
    refine hdisj (a := a) ?_ ?_
    · have horder : orders (m * limit) = sorted := if_pos (by omega)
      change a ∈ offsetPage limit _ (orders _)
      rw [horder, offsetPage]
      refine List.mem_of_getElem? (i := before.length - m * limit) ?_
      rw [List.getElem?_take_of_lt (by omega), List.getElem?_drop,
        show m * limit + (before.length - m * limit) = before.length by omega, hsplit,
        List.getElem?_append_right le_rfl, Nat.sub_self]
      rfl
    · have horder : orders ((m + 1) * limit) = before ++ b :: a :: after := if_neg (by omega)
      change a ∈ offsetPage limit _ (orders _)
      rw [horder, offsetPage]
      refine List.mem_of_getElem? (i := 0) ?_
      rw [List.getElem?_take_of_lt hlimit, List.getElem?_drop, ← hend, Nat.add_zero,
        List.getElem?_append_right (Nat.le_succ _),
        show before.length.succ - before.length = 1 by omega]
      rfl
  · intro hfit orders horders
    have hconst := offsetVisit_const hlimit sorted
    rw [hs.perm.length_eq] at hconst
    refine List.Perm.trans ?_ (hconst ▸ hs.perm)
    exact List.Perm.flatMap_left _ fun k _ => (horders (k * limit)).page_perm hs hfit k

end Sorted

end GovAI
