import Mathlib.Data.List.Sort
import Mathlib.Data.List.Perm.Subperm

/-!
# Keyset paging

A table is read page by page: a page holds the first rows in the order of a key, after a cursor, and
the key of its last row is the cursor of the next page.  Rows with equal keys come in any order.  A
row that stays in the table is found if the keys of the table are distinct (`IsPage.mem_or_later`).
With equal keys the walk over a fixed table returns every row once exactly if no page ends between
two rows of the same key (`Walk.perm_iff`).
-/

namespace GovAI

variable {ρ κ : Type} [LinearOrder κ] {key : ρ → κ} {rows page : List ρ} {after : Option κ}
  {limit : ℕ}

/-- The rows after a cursor. -/
def rowsAfter (key : ρ → κ) (rows : List ρ) (after : Option κ) : List ρ :=
  rows.filter fun r => ∀ k ∈ after, k < key r

/-- `page` holds the first rows after the cursor. -/
def IsPage (key : ρ → κ) (rows : List ρ) (after : Option κ) (limit : ℕ) (page : List ρ) : Prop :=
  ∃ sorted : List ρ, sorted.Perm (rowsAfter key rows after) ∧ sorted.Pairwise (key · ≤ key ·) ∧
    page = sorted.take limit

/-- There is a page. -/
lemma exists_isPage (key : ρ → κ) (rows : List ρ) (after : Option κ) (limit : ℕ) :
    ∃ page, IsPage key rows after limit page := by
  refine ⟨_, (rowsAfter key rows after).insertionSort (key · ≤ key ·), List.perm_insertionSort _ _,
    ?_, rfl⟩
  have htotal : Std.Total (fun a b : ρ => key a ≤ key b) := ⟨fun a b => le_total _ _⟩
  have htrans : IsTrans ρ (fun a b => key a ≤ key b) := ⟨fun a b c => le_trans⟩
  exact List.pairwise_insertionSort _ _

/-- A page is not longer than the limit. -/
lemma IsPage.length_le (h : IsPage key rows after limit page) : page.length ≤ limit := by
  obtain ⟨sorted, -, -, rfl⟩ := h
  exact List.length_take_le _ _

/-- If no two rows of the table have the same key, the keys of a page increase strictly. -/
lemma IsPage.pairwise_lt (h : IsPage key rows after limit page) (hkeys : (rows.map key).Nodup) :
    page.Pairwise (key · < key ·) := by
  obtain ⟨sorted, hperm, hsorted, rfl⟩ := h
  have hrows : ((rowsAfter key rows after).map key).Nodup :=
    hkeys.sublist (List.filter_sublist.map key)
  have hnodup : (sorted.map key).Nodup := (hperm.map key).nodup_iff.mpr hrows
  have hne : sorted.Pairwise fun r r' => key r ≠ key r' := List.pairwise_map.mp hnodup
  refine List.Pairwise.sublist (List.take_sublist _ _) ?_
  exact (hsorted.and hne).imp fun h => lt_of_le_of_ne h.1 h.2

/-- The rows of a page come before its last one or are the last one. -/
lemma IsPage.le_last (h : IsPage key rows after limit page) {last : ρ}
    (hlast : page.getLast? = some last) {r : ρ} (hr : r ∈ page) : key r ≤ key last := by
  obtain ⟨sorted, -, hsorted, rfl⟩ := h
  have hpage := hsorted.sublist (List.take_sublist limit sorted)
  obtain ⟨init, hinit⟩ := List.getLast?_eq_some_iff.mp hlast
  rw [hinit] at hpage hr
  rcases List.mem_append.mp hr with hr | hr
  · exact (List.pairwise_append.mp hpage).2.2 r hr last (List.mem_singleton_self last)
  · rw [List.mem_singleton.mp hr]

/-- A row of a page lies after the cursor. -/
lemma IsPage.mem (h : IsPage key rows after limit page) {r : ρ} (hr : r ∈ page) :
    r ∈ rows ∧ ∀ k ∈ after, k < key r := by
  obtain ⟨sorted, hperm, -, rfl⟩ := h
  have hmem := hperm.mem_iff.mp (List.mem_of_mem_take hr)
  simpa [rowsAfter] using hmem

/-- A row after the cursor is on the page, or the page is full and ends before the row. -/
lemma IsPage.mem_or_later (h : IsPage key rows after limit page) (hlimit : 0 < limit) {r : ρ}
    (hr : r ∈ rows) (hafter : ∀ k ∈ after, k < key r)
    (hinj : ∀ r' ∈ rows, key r' = key r → r' = r) :
    r ∈ page ∨ ∃ last, page.getLast? = some last ∧ page.length = limit ∧ key last < key r := by
  obtain ⟨sorted, hperm, hsorted, rfl⟩ := h
  have hmem : r ∈ sorted := hperm.mem_iff.mpr (by simpa [rowsAfter] using ⟨hr, hafter⟩)
  by_cases hpage : r ∈ sorted.take limit
  · exact .inl hpage
  · right
    rw [← List.take_append_drop limit sorted] at hmem hsorted
    have hrest := (List.mem_append.mp hmem).resolve_left hpage
    have hlong : limit < sorted.length := by
      by_contra hshort
      rw [List.drop_eq_nil_of_le (by omega)] at hrest
      cases hrest
    have hlength : (sorted.take limit).length = limit := by
      rw [List.length_take]
      omega
    have hne : sorted.take limit ≠ [] := by
      intro hnil
      rw [hnil] at hlength
      exact hlimit.ne hlength
    have hlast := List.getLast_mem hne
    refine ⟨_, List.getLast?_eq_some_getLast hne, hlength, ?_⟩
    obtain ⟨-, -, hle⟩ := List.pairwise_append.mp hsorted
    refine lt_of_le_of_ne (hle _ hlast r hrest) fun heq => hpage ?_
    have hrow := List.mem_of_mem_filter (hperm.mem_iff.mp (List.mem_of_mem_take hlast))
    exact hinj _ hrow heq ▸ hlast

/-- If the table has as many rows after the cursor as a page holds, and none of them lies after a
bound, then the page is full and none of its rows lies after the bound. -/
lemma IsPage.le_of_block (h : IsPage key rows after limit page) {block : List κ}
    (hnodup : block.Nodup) (hlength : block.length = limit)
    (hrows : ∀ k ∈ block, (∃ r ∈ rows, key r = k) ∧ ∀ a ∈ after, a < k) {bound : κ}
    (hbound : ∀ k ∈ block, k ≤ bound) : page.length = limit ∧ ∀ r ∈ page, key r ≤ bound := by
  obtain ⟨sorted, hperm, hsorted, rfl⟩ := h
  have hmany : limit ≤ (sorted.filter fun r => key r ≤ bound).length := by
    have hsub : block ⊆ (sorted.filter fun r => key r ≤ bound).map key := by
      intro k hk
      obtain ⟨⟨r, hr, rfl⟩, hafter⟩ := hrows k hk
      have hmem : r ∈ sorted := hperm.mem_iff.mpr (by simpa [rowsAfter] using ⟨hr, hafter⟩)
      refine List.mem_map.mpr ⟨r, List.mem_filter.mpr ⟨hmem, ?_⟩, rfl⟩
      exact decide_eq_true (hbound _ hk)
    have hle := (hnodup.subperm hsub).length_le
    rwa [List.length_map, hlength] at hle
  have hfull : limit ≤ sorted.length := hmany.trans (List.length_filter_le _ _)
  have hlen : (sorted.take limit).length = limit := by
    rw [List.length_take]
    omega
  refine ⟨hlen, fun r hr => ?_⟩
  by_contra hlate
  -- Every row after the page lies after the bound too, so the page would hold all early rows.
  have hsplit : (sorted.filter fun r => key r ≤ bound) =
      (sorted.take limit).filter fun r => key r ≤ bound := by
    have hpair := hsorted
    rw [← List.take_append_drop limit sorted] at hpair
    have hnone : (sorted.drop limit).filter (fun r => key r ≤ bound) = [] := by
      refine List.filter_eq_nil_iff.mpr fun r' hr' hle => hlate ?_
      exact ((List.pairwise_append.mp hpair).2.2 r hr r' hr').trans (of_decide_eq_true hle)
    conv_lhs => rw [← List.take_append_drop limit sorted]
    rw [List.filter_append, hnone, List.append_nil]
  have hlt : ((sorted.take limit).filter fun r => key r ≤ bound).length <
      (sorted.take limit).length := by
    refine List.length_filter_lt_length_iff_exists.mpr ⟨r, hr, ?_⟩
    simpa using hlate
  rw [hsplit] at hmany
  omega

/-! ## Walks over a fixed table -/

/-- The pages that a client reads: it goes on from the last row of a page until a page is short. -/
inductive Walk (key : ρ → κ) (rows : List ρ) (limit : ℕ) : Option κ → List (List ρ) → Prop
  | last {after : Option κ} {page : List ρ} (h : IsPage key rows after limit page)
      (hshort : page.length < limit) : Walk key rows limit after [page]
  | full {after : Option κ} {page : List ρ} {r : ρ} {pages : List (List ρ)}
      (h : IsPage key rows after limit page) (hfull : page.length = limit)
      (hlast : page.getLast? = some r) (hrest : Walk key rows limit (some (key r)) pages) :
      Walk key rows limit after (page :: pages)

/-- No page of the keys, in their order, ends between two equal ones. -/
def PagesSplit (limit : ℕ) (keys : List κ) : Prop :=
  ∀ k, 0 < k → ∀ i j, keys[k * limit - 1]? = some i → keys[k * limit]? = some j → i < j

/-- After the first full page. -/
lemma pagesSplit_append {page rest : List κ} (hlimit : 0 < limit) (hpage : page.length = limit)
    {last : κ} (hlast : page.getLast? = some last) :
    PagesSplit limit (page ++ rest) ↔ (∀ j, rest.head? = some j → last < j) ∧
      PagesSplit limit rest := by
  have hget : (page ++ rest)[limit - 1]? = some last := by
    rw [List.getElem?_append_left (by omega), ← hlast, List.getLast?_eq_getElem?, hpage]
  have hhead : (page ++ rest)[limit]? = rest.head? := by
    rw [List.getElem?_append_right (by omega), hpage, Nat.sub_self, List.head?_eq_getElem?]
  have hshift : ∀ n, (page ++ rest)[n + limit]? = rest[n]? := by
    intro n
    rw [List.getElem?_append_right (by omega), hpage, Nat.add_sub_cancel]
  constructor
  · intro h
    refine ⟨fun j hj => h 1 one_pos last j ?_ ?_, fun k hk i j hi hj => ?_⟩
    · rwa [Nat.one_mul]
    · rw [Nat.one_mul, hhead, hj]
    · have hpos : 1 ≤ k * limit := Nat.mul_pos hk hlimit
      refine h (k + 1) (Nat.succ_pos _) i j ?_ ?_
      · rw [Nat.succ_mul, show k * limit + limit - 1 = k * limit - 1 + limit by omega, hshift, hi]
      · rw [Nat.succ_mul, hshift, hj]
  · rintro ⟨hfirst, hrest⟩ k hk i j hi hj
    obtain ⟨k, rfl⟩ := Nat.exists_eq_succ_of_ne_zero hk.ne'
    rcases Nat.eq_zero_or_pos k with rfl | hk'
    · rw [Nat.succ_mul, Nat.zero_mul, Nat.zero_add] at hi hj
      obtain rfl := Option.some.inj (hget.symm.trans hi)
      exact hfirst j (hhead ▸ hj)
    · have hpos : 1 ≤ k * limit := Nat.mul_pos hk' hlimit
      rw [Nat.succ_mul] at hi hj
      rw [show k * limit + limit - 1 = k * limit - 1 + limit by omega, hshift] at hi
      rw [hshift] at hj
      exact hrest k hk' i j hi hj

/-- The rows that a page leaves, and what the next page sees of them. -/
lemma IsPage.rest (h : IsPage key rows after limit page) {r : ρ} (hlast : page.getLast? = some r) :
    ∃ rest : List ρ, (page ++ rest).Perm (rowsAfter key rows after) ∧
      (page ++ rest).Pairwise (key · ≤ key ·) ∧
      (rowsAfter key rows (some (key r))).Perm (rest.filter fun r' => key r < key r') := by
  have hmem : r ∈ page := List.mem_of_getLast? hlast
  have hafter := (h.mem hmem).2
  obtain ⟨sorted, hperm, hsorted, rfl⟩ := h
  refine ⟨sorted.drop limit, ?_, ?_, ?_⟩
  · rwa [List.take_append_drop]
  · rwa [List.take_append_drop]
  · have hnext : rowsAfter key rows (some (key r)) =
        (rowsAfter key rows after).filter fun r' => key r < key r' := by
      rw [rowsAfter, rowsAfter, List.filter_filter]
      refine List.filter_congr fun r' _ => ?_
      by_cases hlt : key r < key r'
      · have hall : ∀ k ∈ after, k < key r' := fun k hk => (hafter k hk).trans hlt
        simpa [hlt] using hall
      · simp [hlt]
    have hnone : (sorted.take limit).filter (fun r' => key r < key r') = [] := by
      refine List.filter_eq_nil_iff.mpr fun r' hr' hlt => ?_
      have hle : key r' ≤ key r := IsPage.le_last ⟨sorted, hperm, hsorted, rfl⟩ hlast hr'
      exact absurd (of_decide_eq_true hlt) (not_lt.mpr hle)
    rw [hnext]
    refine (hperm.symm.filter _).trans ?_
    conv_lhs => rw [← List.take_append_drop limit sorted]
    rw [List.filter_append, hnone, List.nil_append]

/-- A walk returns only rows after its cursor, none of them more often than the table has it. -/
lemma Walk.subperm {pages : List (List ρ)} (h : Walk key rows limit after pages) :
    pages.flatten.Subperm (rowsAfter key rows after) := by
  induction h with
  | last h hshort =>
    obtain ⟨sorted, hperm, -, rfl⟩ := h
    rw [List.flatten_singleton]
    exact (List.take_sublist _ _).subperm.trans hperm.subperm
  | full h hfull hlast hrest ih =>
    obtain ⟨rest, hperm, -, hnext⟩ := h.rest hlast
    rw [List.flatten_cons]
    refine List.Subperm.trans ?_ hperm.subperm
    exact (List.subperm_append_left _).mpr
      ((ih.trans hnext.subperm).trans List.filter_sublist.subperm)

/-- **Walks.** A walk over a fixed table returns every row after its cursor exactly once, if and only
if no page of the sorted keys ends between two equal ones. -/
theorem Walk.perm_iff {pages : List (List ρ)} (hlimit : 0 < limit)
    (h : Walk key rows limit after pages) {keys : List κ}
    (hkeys : keys.Perm ((rowsAfter key rows after).map key)) (hsorted : keys.Pairwise (· ≤ ·)) :
    pages.flatten.Perm (rowsAfter key rows after) ↔ PagesSplit limit keys := by
  induction h generalizing keys with
  | @last after page h hshort =>
    obtain ⟨sorted, hperm, -, rfl⟩ := h
    have hlength : sorted.length < limit := by
      rw [List.length_take] at hshort
      omega
    rw [List.flatten_singleton, List.take_of_length_le hlength.le]
    refine iff_of_true hperm fun k hk i j _ hj => ?_
    obtain ⟨hlt, -⟩ := List.getElem?_eq_some_iff.mp hj
    have hsame : keys.length = sorted.length := by
      rw [hkeys.length_eq, List.length_map, hperm.length_eq]
    have hle : limit ≤ k * limit := Nat.le_mul_of_pos_left _ hk
    omega
  | @full after page r pages h hfull hlast hrest ih =>
    obtain ⟨rest, hperm, hpage, hnext⟩ := h.rest hlast
    have hmap : keys = page.map key ++ rest.map key := by
      rw [← List.map_append]
      exact (hkeys.trans (hperm.symm.map key)).eq_of_pairwise (fun a b _ _ => le_antisymm) hsorted
        (List.pairwise_map.mpr hpage)
    have hrestSorted := (List.pairwise_append.mp hpage).2.1
    rw [hmap, pagesSplit_append hlimit (by rw [List.length_map, hfull])
      (by rw [List.getLast?_map, hlast]; rfl), List.flatten_cons]
    have hiff : (page ++ pages.flatten).Perm (rowsAfter key rows after) ↔
        pages.flatten.Perm rest := by
      constructor
      · exact fun h => (List.perm_append_left_iff _).mp (h.trans hperm.symm)
      · exact fun h => (h.append_left _).trans hperm
    rw [hiff]
    by_cases hhead : ∀ j, (rest.map key).head? = some j → key r < j
    · -- All rows that the page leaves lie after its last row.
      have hall : rest.filter (fun r' => key r < key r') = rest := by
        refine List.filter_eq_self.mpr fun r' hr' => decide_eq_true ?_
        cases rest with
        | nil => cases hr'
        | cons x rest =>
          have hx := hhead (key x) rfl
          rcases List.mem_cons.mp hr' with rfl | hr'
          · exact hx
          · exact hx.trans_le (List.rel_of_pairwise_cons hrestSorted hr')
      rw [hall] at hnext
      have hsplit := ih (hnext.symm.map key) (List.pairwise_map.mpr hrestSorted)
      rw [and_iff_right hhead, ← hsplit]
      exact ⟨fun h => h.trans hnext.symm, fun h => h.trans hnext⟩
    · -- The first of them has the key of the last row, and no walk returns it.
      refine iff_of_false (fun hflat => ?_) fun h => hhead h.1
      have hlength := (hrest.subperm.trans hnext.subperm).length_le
      rw [hflat.length_eq] at hlength
      have hfilter : rest.filter (fun r' => key r < key r') = rest :=
        List.filter_sublist.eq_of_length_le hlength
      refine hhead fun j hj => ?_
      rw [List.head?_map, Option.map_eq_some_iff] at hj
      obtain ⟨x, hx, rfl⟩ := hj
      have hmem := List.mem_of_head? hx
      rw [← hfilter] at hmem
      exact of_decide_eq_true (List.mem_filter.mp hmem).2

end GovAI
