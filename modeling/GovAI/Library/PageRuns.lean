import GovAI.Library.KeysetPaging

/-!
# Following the cursors of a list

A client reads a list page by page: it sends the cursor of each answer with its next request, until
an answer has none.  The cursor of a row stands for a position in the order of the list, at the row
or after it (`key r ≤ pos (cursorOf r)`), because its text may say less than the key of the row.
Then no row comes twice, and every row comes once exactly if each page ends at a row whose cursor
still selects the next one (`followPages_iff`).
-/

namespace GovAI

variable {ρ κ γ : Type} [LinearOrder κ]

/-- What a client has read at the end, with `fuel` requests at most; a request can be refused. -/
def followPages (request : Option γ → Option (List ρ × Option γ)) : ℕ → Option γ → Option (List ρ)
  | 0, _ => none
  | fuel + 1, after => do
    let answer ← request after
    match answer.2 with
    | none => some answer.1
    | some cursor => (followPages request fuel (some cursor)).map (answer.1 ++ ·)

/-- The answer to a request that leaves the rows `remaining`: the first of them and, if there may be
more, the cursor of the last row. -/
structure IsAnswer (cursorOf : ρ → γ) (limit : ℕ) (remaining : List ρ)
    (answer : List ρ × Option γ) : Prop where
  page : answer.1 = remaining.take limit
  ends : answer.2 = none → remaining.length ≤ limit
  next : ∀ c ∈ answer.2, limit ≤ remaining.length ∧ answer.1.getLast?.map cursorOf = some c

/-- A client that gets an answer with a cursor goes on with it. -/
lemma followPages_next {request : Option γ → Option (List ρ × Option γ)} {after : Option γ}
    {page : List ρ} {c : γ} (h : request after = some (page, some c)) (fuel : ℕ) :
    followPages request (fuel + 1) after =
      (followPages request fuel (some c)).map (page ++ ·) := by
  rw [followPages, h]
  rfl

/-- A client that gets an answer without a cursor stops. -/
lemma followPages_last {request : Option γ → Option (List ρ × Option γ)} {after : Option γ}
    {page : List ρ} (h : request after = some (page, none)) (fuel : ℕ) :
    followPages request (fuel + 1) after = some page := by
  rw [followPages, h]
  rfl

section Sorted

variable {key : ρ → κ} {pos : γ → κ} {cursorOf : ρ → γ} {all : List ρ} {limit : ℕ}
  {request : Option γ → Option (List ρ × Option γ)}

/-- The rows after a position that lies at or after the last row of a page. -/
lemma rowsAfter_of_le {after : Option κ} {page rest : List ρ}
    (hrest : rowsAfter key all after = page ++ rest) (hsorted : all.Pairwise (key · < key ·))
    {r : ρ} (hlast : page.getLast? = some r) {k : κ} (hk : key r ≤ k) :
    rowsAfter key all (some k) = rest.filter fun r' => k < key r' := by
  have hmem : r ∈ page := List.mem_of_getLast? hlast
  have hafter : ∀ k ∈ after, k < key r := by
    have hr : r ∈ rowsAfter key all after := hrest ▸ List.mem_append_left _ hmem
    simpa using of_decide_eq_true (List.mem_filter.mp hr).2
  have hnext : rowsAfter key all (some k) =
      (rowsAfter key all after).filter fun r' => k < key r' := by
    rw [rowsAfter, rowsAfter, List.filter_filter]
    refine List.filter_congr fun r' _ => ?_
    by_cases hlt : k < key r'
    · have hall : ∀ k ∈ after, k < key r' := fun k' hk' => (hafter k' hk').trans (hk.trans_lt hlt)
      simpa [hlt] using hall
    · simp [hlt]
  have hpage : (page ++ rest).Pairwise (key · < key ·) := hrest ▸ hsorted.sublist List.filter_sublist
  have hnone : page.filter (fun r' => k < key r') = [] := by
    refine List.filter_eq_nil_iff.mpr fun r' hr' hlt => ?_
    obtain ⟨init, rfl⟩ := List.getLast?_eq_some_iff.mp hlast
    have hle : key r' ≤ key r := by
      rcases List.mem_append.mp hr' with hr' | hr'
      · have hinit := (List.pairwise_append.mp hpage).1
        exact ((List.pairwise_append.mp hinit).2.2 r' hr' r (List.mem_singleton_self r)).le
      · rw [List.mem_singleton.mp hr']
    exact absurd (of_decide_eq_true hlt) (not_lt.mpr (hle.trans hk))
  rw [hnext, hrest, List.filter_append, hnone, List.nil_append]

variable (hcursor : ∀ r ∈ all, key r ≤ pos (cursorOf r))
  (hrequest : ∀ after, (∀ c ∈ after, ∃ r ∈ all, c = cursorOf r) → ∃ answer,
    request after = some answer ∧ IsAnswer cursorOf limit (rowsAfter key all (after.map pos)) answer)

/-- An answer with a cursor: its page, the rows that the page leaves, and what the next request sees
of them. -/
lemma IsAnswer.rest (hcursor : ∀ r ∈ all, key r ≤ pos (cursorOf r))
    (hsorted : all.Pairwise (key · < key ·)) {after : Option κ} {page : List ρ} {c : γ}
    (h : IsAnswer cursorOf limit (rowsAfter key all after) (page, some c)) :
    ∃ r ∈ all, ∃ rest, rowsAfter key all after = page ++ rest ∧ page.length = limit ∧
      page.getLast? = some r ∧ c = cursorOf r ∧
      rowsAfter key all (some (pos c)) = rest.filter fun r' => pos c < key r' := by
  obtain ⟨hlong, hlast⟩ := h.next c rfl
  have hpage : page = (rowsAfter key all after).take limit := h.page
  obtain ⟨r, hr, hc⟩ := Option.map_eq_some_iff.mp hlast
  have hrest : rowsAfter key all after = page ++ (rowsAfter key all after).drop limit := by
    rw [hpage, List.take_append_drop]
  have hmem : r ∈ all := by
    refine List.mem_of_mem_filter (p := fun r => decide (∀ k ∈ after, k < key r)) ?_
    change r ∈ rowsAfter key all after
    rw [hrest]
    exact List.mem_append_left _ (List.mem_of_getLast? hr)
  refine ⟨r, hmem, _, hrest, ?_, hr, hc.symm, ?_⟩
  · rw [hpage, List.length_take]
    omega
  · exact rowsAfter_of_le hrest hsorted hr (hc ▸ hcursor r hmem)

include hcursor hrequest

/-- A client reads only rows after its cursor, in their order. -/
lemma followPages_sublist (hsorted : all.Pairwise (key · < key ·)) {fuel : ℕ} {after : Option γ}
    (hafter : ∀ c ∈ after, ∃ r ∈ all, c = cursorOf r) {visited : List ρ}
    (h : followPages request fuel after = some visited) :
    visited.Sublist (rowsAfter key all (after.map pos)) := by
  induction fuel generalizing after visited with
  | zero => cases h
  | succ fuel ih =>
    obtain ⟨⟨page, next⟩, hreq, hanswer⟩ := hrequest after hafter
    cases next with
    | none =>
      rw [followPages_last hreq] at h
      obtain rfl := Option.some.inj h
      rw [show page = _ from hanswer.page]
      exact List.take_sublist _ _
    | some c =>
      rw [followPages_next hreq, Option.map_eq_some_iff] at h
      obtain ⟨later, hlater, rfl⟩ := h
      obtain ⟨r, hr, rest, hrest, -, -, rfl, hnext⟩ := hanswer.rest hcursor hsorted
      rw [hrest]
      refine List.Sublist.append_left ?_ page
      have hsub := ih (by rintro _ ⟨⟩; exact ⟨r, hr, rfl⟩) hlater
      rw [Option.map_some, hnext] at hsub
      exact hsub.trans List.filter_sublist

/-- No page ends at a row whose cursor does not select the next row. -/
def CursorsSelect (key : ρ → κ) (pos : γ → κ) (cursorOf : ρ → γ) (limit : ℕ) (rows : List ρ) :
    Prop :=
  ∀ k, 0 < k → ∀ r r', rows[k * limit - 1]? = some r → rows[k * limit]? = some r' →
    pos (cursorOf r) < key r'

omit hcursor hrequest in
/-- After the first full page. -/
lemma cursorsSelect_append {page rest : List ρ} (hlimit : 0 < limit) (hpage : page.length = limit)
    {last : ρ} (hlast : page.getLast? = some last) :
    CursorsSelect key pos cursorOf limit (page ++ rest) ↔
      (∀ r', rest.head? = some r' → pos (cursorOf last) < key r') ∧
        CursorsSelect key pos cursorOf limit rest := by
  have hget : (page ++ rest)[limit - 1]? = some last := by
    rw [List.getElem?_append_left (by omega), ← hlast, List.getLast?_eq_getElem?, hpage]
  have hshift : ∀ n, (page ++ rest)[n + limit]? = rest[n]? := by
    intro n
    rw [List.getElem?_append_right (by omega), hpage, Nat.add_sub_cancel]
  have hhead : (page ++ rest)[limit]? = rest.head? := by
    rw [List.head?_eq_getElem?, ← hshift 0, Nat.zero_add]
  constructor
  · intro h
    refine ⟨fun r' hr' => h 1 one_pos last r' ?_ ?_, fun k hk r r' hr hr' => ?_⟩
    · rwa [Nat.one_mul]
    · rw [Nat.one_mul, hhead, hr']
    · have hpos : 1 ≤ k * limit := Nat.mul_pos hk hlimit
      refine h (k + 1) (Nat.succ_pos _) r r' ?_ ?_
      · rw [Nat.succ_mul, show k * limit + limit - 1 = k * limit - 1 + limit by omega, hshift, hr]
      · rw [Nat.succ_mul, hshift, hr']
  · rintro ⟨hfirst, hrest⟩ k hk r r' hr hr'
    obtain ⟨k, rfl⟩ := Nat.exists_eq_succ_of_ne_zero hk.ne'
    rcases Nat.eq_zero_or_pos k with rfl | hk'
    · rw [Nat.succ_mul, Nat.zero_mul, Nat.zero_add] at hr hr'
      obtain rfl := Option.some.inj (hget.symm.trans hr)
      exact hfirst r' (hhead ▸ hr')
    · have hpos : 1 ≤ k * limit := Nat.mul_pos hk' hlimit
      rw [Nat.succ_mul] at hr hr'
      rw [show k * limit + limit - 1 = k * limit - 1 + limit by omega, hshift] at hr
      rw [hshift] at hr'
      exact hrest k hk' r r' hr hr'

/-- A client reads all rows after its cursor if and only if each page ends at a row whose cursor
selects the next one. -/
lemma followPages_after_iff (hlimit : 0 < limit) (hsorted : all.Pairwise (key · < key ·))
    (after : Option γ) (hafter : ∀ c ∈ after, ∃ r ∈ all, c = cursorOf r) :
    (∃ fuel, followPages request fuel after = some (rowsAfter key all (after.map pos))) ↔
      CursorsSelect key pos cursorOf limit (rowsAfter key all (after.map pos)) := by
  induction hn : (rowsAfter key all (after.map pos)).length using Nat.strong_induction_on
    generalizing after with
  | _ n ih =>
    obtain ⟨⟨page, next⟩, hreq, hanswer⟩ := hrequest after hafter
    cases next with
    | none =>
      have hshort := hanswer.ends rfl
      refine iff_of_true ⟨1, ?_⟩ fun k hk r r' _ hr' => ?_
      · rw [followPages_last hreq, show page = _ from hanswer.page, List.take_of_length_le hshort]
      · obtain ⟨hlt, -⟩ := List.getElem?_eq_some_iff.mp hr'
        have hle : limit ≤ k * limit := Nat.le_mul_of_pos_left _ hk
        omega
    | some c =>
      obtain ⟨r, hr, rest, hrest, hlength, hlast, rfl, hnext⟩ := hanswer.rest hcursor hsorted
      have hpage : (page ++ rest).Pairwise (key · < key ·) :=
        hrest ▸ hsorted.sublist List.filter_sublist
      have hsortedRest := (List.pairwise_append.mp hpage).2.1
      have hiff : (∃ fuel, followPages request fuel after = some (page ++ rest)) ↔
          ∃ fuel, followPages request fuel (some (cursorOf r)) = some rest := by
        constructor
        · rintro ⟨fuel, hfuel⟩
          cases fuel with
          | zero => cases hfuel
          | succ fuel =>
            rw [followPages_next hreq, Option.map_eq_some_iff] at hfuel
            obtain ⟨later, hlater, heq⟩ := hfuel
            exact ⟨fuel, hlater.trans (congrArg some (List.append_cancel_left heq))⟩
        · rintro ⟨fuel, hfuel⟩
          exact ⟨fuel + 1, by rw [followPages_next hreq, hfuel]; rfl⟩
      have hcursors : ∀ c ∈ some (cursorOf r), ∃ r ∈ all, c = cursorOf r := by
        rintro _ ⟨⟩
        exact ⟨r, hr, rfl⟩
      rw [hrest, hiff, cursorsSelect_append hlimit hlength hlast]
      by_cases hhead : ∀ r', rest.head? = some r' → pos (cursorOf r) < key r'
      · -- The cursor selects the first row that the page leaves, so it selects all of them.
        have hall : rowsAfter key all ((some (cursorOf r)).map pos) = rest := by
          rw [Option.map_some, hnext]
          refine List.filter_eq_self.mpr fun r' hr' => decide_eq_true ?_
          cases rest with
          | nil => cases hr'
          | cons x rest =>
            have hx := hhead x rfl
            rcases List.mem_cons.mp hr' with rfl | hr'
            · exact hx
            · exact hx.trans (List.rel_of_pairwise_cons hsortedRest hr')
        have hshort : (rowsAfter key all ((some (cursorOf r)).map pos)).length < n := by
          rw [hall, ← hn, hrest, List.length_append]
          omega
        have hstep := ih _ hshort (some (cursorOf r)) hcursors rfl
        rw [hall] at hstep
        rw [and_iff_right hhead, hstep]
      · -- The first row that the page leaves is not selected, and no later request returns it.
        refine iff_of_false (fun ⟨fuel, hfuel⟩ => ?_) fun h => hhead h.1
        have hsub := followPages_sublist hcursor hrequest hsorted hcursors hfuel
        rw [Option.map_some, hnext] at hsub
        have hself := List.filter_sublist.eq_of_length_le hsub.length_le
        refine hhead fun x hx => ?_
        have hmem := List.mem_of_head? hx
        rw [← hself] at hmem
        exact of_decide_eq_true (List.mem_filter.mp hmem).2

/-- **Following the cursors.** A client reads the whole list if and only if each page ends at a row
whose cursor selects the next one. -/
theorem followPages_iff (hlimit : 0 < limit) (hsorted : all.Pairwise (key · < key ·)) :
    (∃ fuel, followPages request fuel none = some all) ↔
      CursorsSelect key pos cursorOf limit all := by
  have hall : rowsAfter key all ((none : Option γ).map pos) = all := by
    refine List.filter_eq_self.mpr fun r _ => ?_
    simp
  have h := followPages_after_iff hcursor hrequest hlimit hsorted none (by simp)
  rwa [hall] at h

omit hcursor in
/-- **Exact cursors.** If the cursor of a row stands for its place and is given exactly if more rows
follow, `fuel` requests are enough if and only if their pages have room for all rows, and then the
client has read them all. -/
theorem followPages_eq (hsorted : all.Pairwise (key · < key ·))
    (hexact : ∀ r ∈ all, pos (cursorOf r) = key r)
    (hends : ∀ after answer, request after = some answer →
      (answer.2 = none ↔ (rowsAfter key all (after.map pos)).length ≤ limit)) (fuel : ℕ) :
    followPages request fuel none =
      if fuel = 0 ∨ fuel * limit < all.length then none else some all := by
  have hafter : ∀ after : Option γ, (∀ c ∈ after, ∃ r ∈ all, c = cursorOf r) →
      followPages request fuel after =
        if fuel = 0 ∨ fuel * limit < (rowsAfter key all (after.map pos)).length then none
        else some (rowsAfter key all (after.map pos)) := by
    induction fuel with
    | zero => exact fun _ _ => rfl
    | succ fuel ih =>
      intro after hafter
      obtain ⟨⟨page, next⟩, hreq, hanswer⟩ := hrequest after hafter
      have hnext := hends after _ hreq
      cases next with
      | none =>
        have hshort := hnext.mp rfl
        have hroom : limit ≤ (fuel + 1) * limit := Nat.le_mul_of_pos_left _ (Nat.succ_pos _)
        rw [followPages_last hreq, if_neg (by omega), show page = _ from hanswer.page,
          List.take_of_length_le hshort]
      | some c =>
        have hlong : limit < (rowsAfter key all (after.map pos)).length := by
          by_contra h
          cases hnext.mpr (not_lt.mp h)
        obtain ⟨r, hr, rest, hrest, hlength, hlast, rfl, hselect⟩ :=
          hanswer.rest (fun r hr => (hexact r hr).ge) hsorted
        have hpage : (page ++ rest).Pairwise (key · < key ·) :=
          hrest ▸ hsorted.sublist List.filter_sublist
        have hall : rowsAfter key all ((some (cursorOf r)).map pos) = rest := by
          rw [Option.map_some, hselect, hexact r hr]
          refine List.filter_eq_self.mpr fun r' hr' => decide_eq_true ?_
          exact (List.pairwise_append.mp hpage).2.2 r (List.mem_of_getLast? hlast) r' hr'
        have hcursors : ∀ c ∈ some (cursorOf r), ∃ r ∈ all, c = cursorOf r := by
          rintro _ ⟨⟩
          exact ⟨r, hr, rfl⟩
        rw [followPages_next hreq, ih _ hcursors, hall, hrest]
        rw [hrest] at hlong
        rw [List.length_append, hlength] at hlong ⊢
        have hmul : (fuel + 1) * limit = fuel * limit + limit := Nat.succ_mul _ _
        by_cases henough : fuel = 0 ∨ fuel * limit < rest.length
        · rw [if_pos henough, if_pos]
          · rfl
          · rcases henough with rfl | h
            · right
              omega
            · right
              omega
        · rw [if_neg henough, if_neg (by omega)]
          rfl
  have hnone := hafter none (by simp)
  have hall : rowsAfter key all ((none : Option γ).map pos) = all := by
    refine List.filter_eq_self.mpr fun r _ => ?_
    simp
  rwa [hall] at hnone

end Sorted

end GovAI
