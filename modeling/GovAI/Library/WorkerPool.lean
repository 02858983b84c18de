import Mathlib.Data.List.Forall2

/-!
# A bounded pool of workers

Workers take the items of a list one after the other and call a fallible asynchronous function on them;
the calls end in any order.  The first failure keeps the workers from taking more items.  If no call
fails, the results are in the order of the items whatever the order in which the calls ended
(`mapWithConcurrency_eq_some`).
-/

namespace GovAI

variable {ε T R : Type}

/-- The variables of the pool.  A worker holds the index of its item, or has returned. -/
structure PoolState (ε R : Type) where
  out : List (Option R)
  cursor : ℕ
  firstFailure : Option ε
  workers : List (Option ℕ)

namespace PoolState

/-- The head of the loop of a worker: it takes the next index of `n`, or returns. -/
def claim (n : ℕ) (s : PoolState ε R) : Option ℕ × PoolState ε R :=
  if s.firstFailure.isSome then (none, s)
  else (if s.cursor < n then some s.cursor else none, { s with cursor := s.cursor + 1 })

/-- The first turn of the workers. -/
def start (n : ℕ) : ℕ → PoolState ε R → PoolState ε R
  | 0, s => s
  | workers + 1, s =>
    start n workers { (s.claim n).2 with workers := (s.claim n).2.workers ++ [(s.claim n).1] }

/-- The call of a worker ends, and the worker goes on. -/
def settle (n worker index : ℕ) (s : PoolState ε R) : Except ε R → PoolState ε R
  | .ok r =>
    let next := { s with out := s.out.set index (some r) }.claim n
    { next.2 with workers := next.2.workers.set worker next.1 }
  | .error e =>
    { s with firstFailure := s.firstFailure.or (some e), workers := s.workers.set worker none }

/-- The call of a worker ends, if it has one. -/
def step (items : List T) (fn : T → Except ε R) (s : PoolState ε R) (worker : ℕ) :
    Option (PoolState ε R) := do
  let index ← s.workers[worker]?.join
  let item ← items[index]?
  return s.settle items.length worker index (fn item)

/-- The pool when its workers have made their first turn. -/
def initial (n limit : ℕ) : PoolState ε R :=
  start n (min limit n) ⟨List.replicate n none, 0, none, []⟩

/-- All workers have returned. -/
def done (s : PoolState ε R) : Bool := s.workers.all Option.isNone

end PoolState

/-- `mapWithConcurrency`, where the calls end in the order that the schedule names their workers in;
`none` if the schedule does not lead to the end. -/
def mapWithConcurrency (items : List T) (limit : ℕ) (fn : T → Except ε R) (schedule : List ℕ) :
    Option (Except ε (List R)) := do
  let s ← schedule.foldlM (PoolState.step items fn) (PoolState.initial items.length limit)
  if s.done then
    match s.firstFailure with
    | some e => return .error e
    | none => (s.out.mapM id).map .ok
  else none

/-! ## The invariant -/

/-- Each index below the cursor is held by a worker or has its result, unless a call has failed. -/
structure PoolState.Inv (items : List T) (fn : T → Except ε R) (s : PoolState ε R) : Prop where
  out_length : s.out.length = items.length
  held : ∀ i, some i ∈ s.workers → i < items.length
  covered : s.firstFailure = none → ∀ i (hi : i < items.length), i < s.cursor →
    some i ∈ s.workers ∨ ∃ r, s.out[i]? = some (some r) ∧ fn items[i] = .ok r
  ended : none ∈ s.workers → s.firstFailure = none → items.length ≤ s.cursor
  failure : ∀ e, s.firstFailure = some e → ∃ item ∈ items, fn item = .error e

/-- Another item stays in a list of which one item is replaced. -/
lemma mem_set_of_ne {α : Type} {l : List α} {k : ℕ} {a b c : α} (ha : a ∈ l) (hk : l[k]? = some b)
    (hne : a ≠ b) : a ∈ l.set k c := by
  obtain ⟨i, hi⟩ := List.mem_iff_getElem?.mp ha
  have hik : k ≠ i := by
    rintro rfl
    exact hne (Option.some.inj (hi.symm.trans hk))
  exact List.mem_iff_getElem?.mpr ⟨i, by rw [List.getElem?_set_ne hik, hi]⟩

namespace PoolState

variable {items : List T} {fn : T → Except ε R} {s s' : PoolState ε R}

/-- What a worker takes. -/
lemma claim_cases (n : ℕ) (s : PoolState ε R) :
    (s.firstFailure.isSome = true ∧ s.claim n = (none, s)) ∨
      (s.firstFailure = none ∧ s.cursor < n ∧
        s.claim n = (some s.cursor, { s with cursor := s.cursor + 1 })) ∨
      (s.firstFailure = none ∧ n ≤ s.cursor ∧
        s.claim n = (none, { s with cursor := s.cursor + 1 })) := by
  unfold claim
  cases hfail : s.firstFailure with
  | some e => exact .inl ⟨rfl, rfl⟩
  | none =>
    by_cases hn : s.cursor < n
    · exact .inr (.inl ⟨rfl, hn, by simp [hn]⟩)
    · exact .inr (.inr ⟨rfl, Nat.le_of_not_lt hn, by simp [hn]⟩)

/-- A worker that starts keeps the invariant. -/
lemma Inv.start (h : s.Inv items fn) (workers : ℕ) :
    (PoolState.start items.length workers s).Inv items fn := by
  induction workers generalizing s with
  | zero => exact h
  | succ workers ih =>
    refine ih ?_
    rcases claim_cases items.length s with
      ⟨hfail, hclaim⟩ | ⟨hfail, hlt, hclaim⟩ | ⟨hfail, hle, hclaim⟩ <;> rw [hclaim]
    · obtain ⟨e, he⟩ := Option.isSome_iff_exists.mp hfail
      refine ⟨h.out_length, fun i hi => ?_, fun hnone => ?_, fun _ hnone => ?_, h.failure⟩
      · exact h.held i (by simpa using hi)
      · exact absurd (he.symm.trans hnone) (by simp)
      · exact absurd (he.symm.trans hnone) (by simp)
    · refine ⟨h.out_length, fun i hi => ?_, fun _ i hi hcursor => ?_, fun hmem _ => ?_, h.failure⟩
      · rcases List.mem_append.mp hi with hi | hi
        · exact h.held i hi
        · rw [Option.some.inj (List.mem_singleton.mp hi)]
          exact hlt
      · rcases Nat.lt_succ_iff_lt_or_eq.mp hcursor with hcursor | rfl
        · rcases h.covered hfail i hi hcursor with hheld | hout
          · exact .inl (List.mem_append_left _ hheld)
          · exact .inr hout
        · exact .inl (List.mem_append_right _ (List.mem_singleton_self _))
      · rcases List.mem_append.mp hmem with hmem | hmem
        · exact Nat.le_succ_of_le (h.ended hmem hfail)
        · simp at hmem
    · refine ⟨h.out_length, fun i hi => ?_, fun _ i hi _ => ?_, fun _ _ => Nat.le_succ_of_le hle,
        h.failure⟩
      · exact h.held i (by simpa using hi)
      · rcases h.covered hfail i hi (Nat.lt_of_lt_of_le hi hle) with hheld | hout
        · exact .inl (List.mem_append_left _ hheld)
        · exact .inr hout

/-- The pool starts with the invariant. -/
lemma inv_initial (items : List T) (fn : T → Except ε R) (limit : ℕ) :
    (PoolState.initial items.length limit).Inv items fn := by
  refine Inv.start ⟨List.length_replicate, ?_, fun _ i _ hi => ?_, ?_, fun e he => ?_⟩ _
  · exact fun i hi => absurd hi List.not_mem_nil
  · exact absurd hi (Nat.not_lt_zero i)
  · exact fun hmem => absurd hmem List.not_mem_nil
  · cases he

/-- A call that ends keeps the invariant. -/
lemma Inv.settle (h : s.Inv items fn) {worker index : ℕ} (hindex : index < items.length)
    (hworker : s.workers[worker]? = some (some index)) :
    (s.settle items.length worker index (fn items[index])).Inv items fn := by
  cases hcall : fn items[index] with
  | error e =>
    refine ⟨h.out_length, fun i hi => ?_, fun hnone => ?_, fun _ hnone => ?_, fun e' he' => ?_⟩
    · rcases List.mem_or_eq_of_mem_set hi with hi | hi
      · exact h.held i hi
      · cases hi
    · exact absurd hnone (by simp [PoolState.settle])
    · exact absurd hnone (by simp [PoolState.settle])
    · rcases Option.or_eq_some_iff.mp he' with he' | ⟨-, he'⟩
      · exact h.failure e' he'
      · obtain rfl := Option.some.inj he'
        exact ⟨items[index], List.getElem_mem hindex, hcall⟩
  | ok r =>
    -- what the worker leaves before it takes the next index
    have hcovered : s.firstFailure = none → ∀ i (hi : i < items.length), i < s.cursor → ∀ c,
        some i ∈ s.workers.set worker c ∨
          ∃ r', (s.out.set index (some r))[i]? = some (some r') ∧ fn items[i] = .ok r' := by
      intro hfail i hi hcursor c
      by_cases hindex' : i = index
      · subst hindex'
        refine .inr ⟨r, ?_, hcall⟩
        rw [List.getElem?_set_self (by rw [h.out_length]; exact hi)]
      · rcases h.covered hfail i hi hcursor with hheld | ⟨r', hout, hr'⟩
        · exact .inl (mem_set_of_ne hheld hworker fun heq => hindex' (Option.some.inj heq))
        · exact .inr ⟨r', by rw [List.getElem?_set_ne (Ne.symm hindex'), hout], hr'⟩
    have hlength : (s.out.set index (some r)).length = items.length := by
      rw [List.length_set, h.out_length]
    have hheld : ∀ i, some i ∈ s.workers.set worker none → i < items.length := by
      intro i hi
      rcases List.mem_or_eq_of_mem_set hi with hi | hi
      · exact h.held i hi
      · cases hi
    unfold PoolState.settle
    rcases claim_cases items.length { s with out := s.out.set index (some r) } with
      ⟨hfail, hclaim⟩ | ⟨hfail, hlt, hclaim⟩ | ⟨hfail, hle, hclaim⟩ <;> simp only [hclaim]
    · obtain ⟨e, he⟩ := Option.isSome_iff_exists.mp hfail
      refine ⟨hlength, hheld, fun hnone => ?_, fun _ hnone => ?_, h.failure⟩
      · exact absurd (he.symm.trans hnone) (by simp)
      · exact absurd (he.symm.trans hnone) (by simp)
    · refine ⟨hlength, fun i hi => ?_, fun _ i hi hcursor => ?_, fun hmem _ => ?_, h.failure⟩
      · rcases List.mem_or_eq_of_mem_set hi with hi | hi
        · exact h.held i hi
        · obtain rfl := Option.some.inj hi
          exact hlt
      · rcases Nat.lt_succ_iff_lt_or_eq.mp hcursor with hcursor | rfl
        · exact hcovered hfail i hi hcursor _
        · exact .inl (List.mem_set (List.getElem?_eq_some_iff.mp hworker).1 _)
      · rcases List.mem_or_eq_of_mem_set hmem with hmem | hmem
        · exact Nat.le_succ_of_le (h.ended hmem hfail)
        · cases hmem
    · refine ⟨hlength, hheld, fun _ i hi _ => ?_, fun _ _ => Nat.le_succ_of_le hle, h.failure⟩
      exact hcovered hfail i hi (Nat.lt_of_lt_of_le hi hle) _

lemma step_eq_some {worker : ℕ} (h : s.step items fn worker = some s') :
    ∃ index, ∃ hindex : index < items.length, s.workers[worker]? = some (some index) ∧
      s' = s.settle items.length worker index (fn items[index]) := by
  simp only [PoolState.step, Option.bind_eq_bind, Option.bind_eq_some_iff] at h
  obtain ⟨index, hworker, item, hitem, hs'⟩ := h
  obtain ⟨hindex, rfl⟩ := List.getElem?_eq_some_iff.mp hitem
  exact ⟨index, hindex, Option.join_eq_some_iff.mp hworker, (Option.some.inj hs').symm⟩

/-- A run keeps the invariant. -/
lemma Inv.run (h : s.Inv items fn) {schedule : List ℕ}
    (hrun : schedule.foldlM (PoolState.step items fn) s = some s') : s'.Inv items fn := by
  induction schedule generalizing s with
  | nil =>
    cases hrun
    exact h
  | cons worker schedule ih =>
    rw [List.foldlM_cons, Option.bind_eq_bind, Option.bind_eq_some_iff] at hrun
    obtain ⟨s₁, hstep, hrest⟩ := hrun
    obtain ⟨index, hindex, hworker, rfl⟩ := step_eq_some hstep
    exact ih (h.settle hindex hworker) hrest

/-! ## The end -/

/-- The items that are held or wait. -/
def pending (n : ℕ) (s : PoolState ε R) : ℕ := s.workers.countP Option.isSome + (n - s.cursor)

lemma start_workers (n workers : ℕ) (s : PoolState ε R) :
    (PoolState.start n workers s).workers.length = s.workers.length + workers := by
  induction workers generalizing s with
  | zero => rfl
  | succ workers ih =>
    have hclaim : (s.claim n).2.workers = s.workers := by
      unfold claim
      split <;> rfl
    rw [PoolState.start, ih, List.length_append, hclaim, List.length_singleton]
    omega

lemma start_pending (n workers : ℕ) (s : PoolState ε R) :
    (PoolState.start n workers s).pending n ≤ s.pending n := by
  induction workers generalizing s with
  | zero => exact Nat.le_refl _
  | succ workers ih =>
    refine Nat.le_trans (ih _) ?_
    rcases claim_cases n s with ⟨hfail, hclaim⟩ | ⟨hfail, hlt, hclaim⟩ | ⟨hfail, hle, hclaim⟩ <;>
      rw [hclaim] <;> simp [pending] <;> omega

/-- Each call that ends leaves one item less. -/
lemma step_pending {worker : ℕ} (h : s.step items fn worker = some s') :
    s'.pending items.length + 1 = s.pending items.length ∧
      s'.workers.length = s.workers.length := by
  obtain ⟨index, hindex, hworker, rfl⟩ := step_eq_some h
  obtain ⟨hlt, hget⟩ := List.getElem?_eq_some_iff.mp hworker
  have hpos : 0 < s.workers.countP Option.isSome :=
    List.countP_pos_iff.mpr ⟨some index, List.mem_of_getElem? hworker, rfl⟩
  have hset : ∀ c, (s.workers.set worker c).countP Option.isSome =
      s.workers.countP Option.isSome - 1 + if c.isSome then 1 else 0 := by
    intro c
    rw [List.countP_set hlt, hget]
    rfl
  cases fn items[index] with
  | error e =>
    refine ⟨?_, List.length_set⟩
    simp only [pending, PoolState.settle, hset, Option.isSome_none, Bool.false_eq_true, if_false]
    omega
  | ok r =>
    unfold PoolState.settle
    rcases claim_cases items.length { s with out := s.out.set index (some r) } with
      ⟨-, hclaim⟩ | ⟨-, hcursor, hclaim⟩ | ⟨-, hcursor, hclaim⟩
    · simp only [hclaim, pending, hset, List.length_set, and_true]
      simp only [Option.isSome_none, Bool.false_eq_true, if_false]
      omega
    · simp only [hclaim, pending, hset, List.length_set, and_true] at hcursor ⊢
      simp only [Option.isSome_some, if_true]
      omega
    · simp only [hclaim, pending, hset, List.length_set, and_true] at hcursor ⊢
      simp only [Option.isSome_none, Bool.false_eq_true, if_false]
      omega

/-- A run that has ended without a failure has all results. -/
lemma Inv.results (h : s.Inv items fn) (hdone : s.done = true) (hnone : s.firstFailure = none)
    (hcrew : items ≠ [] → s.workers ≠ []) :
    ∃ rs, s.out.mapM id = some rs ∧ List.Forall₂ (fun item r => fn item = .ok r) items rs := by
  have hall : ∀ w ∈ s.workers, w = none := by
    simpa [done, List.all_eq_true] using hdone
  have hout : List.Forall₂ (fun item o => ∃ r, o = some r ∧ fn item = .ok r) items s.out := by
    refine List.forall₂_iff_get.mpr ⟨h.out_length.symm, fun i hi hi' => ?_⟩
    have hne : s.workers ≠ [] := hcrew (List.ne_nil_of_length_pos (Nat.zero_lt_of_lt hi))
    obtain ⟨w, rest, hworkers⟩ := List.exists_cons_of_ne_nil hne
    have hmem : none ∈ s.workers := by
      rw [← hall w (hworkers ▸ List.mem_cons_self ..), hworkers]
      exact List.mem_cons_self ..
    rcases h.covered hnone i hi (Nat.lt_of_lt_of_le hi (h.ended hmem hnone)) with hheld | ⟨r, hr, hcall⟩
    · exact absurd (hall _ hheld) (by simp)
    · refine ⟨r, ?_, hcall⟩
      rw [List.getElem?_eq_getElem hi'] at hr
      exact Option.some.inj hr
  generalize s.out = out at hout
  clear h hall
  induction hout with
  | nil => exact ⟨[], rfl, .nil⟩
  | cons hr _ ih =>
    obtain ⟨r, rfl, hcall⟩ := hr
    obtain ⟨rs, hrs, hforall⟩ := ih (fun _ => hcrew (by simp))
    exact ⟨r :: rs, by rw [List.mapM_cons, id, hrs]; rfl, .cons hcall hforall⟩

end PoolState

variable {items : List T} {fn : T → Except ε R} {limit : ℕ}

/-- The workers of a run. -/
lemma run_workers {schedule : List ℕ} {s s' : PoolState ε R}
    (hrun : schedule.foldlM (PoolState.step items fn) s = some s') :
    s'.pending items.length + schedule.length = s.pending items.length ∧
      s'.workers.length = s.workers.length := by
  induction schedule generalizing s with
  | nil =>
    cases hrun
    exact ⟨rfl, rfl⟩
  | cons worker schedule ih =>
    rw [List.foldlM_cons, Option.bind_eq_bind, Option.bind_eq_some_iff] at hrun
    obtain ⟨s₁, hstep, hrest⟩ := hrun
    obtain ⟨hpending, hworkers⟩ := PoolState.step_pending hstep
    obtain ⟨hpending', hworkers'⟩ := ih hrest
    rw [List.length_cons]
    omega

/-- There are workers if there are items. -/
lemma workers_ne_nil (hlimit : 0 < limit) {schedule : List ℕ} {s : PoolState ε R}
    (hrun : schedule.foldlM (PoolState.step items fn) (PoolState.initial items.length limit) =
      some s) (hne : items ≠ []) : s.workers ≠ [] := by
  have hlen := (run_workers hrun).2
  rw [PoolState.initial, PoolState.start_workers] at hlen
  have hpos := List.length_pos_iff.mpr hne
  intro hnil
  rw [hnil] at hlen
  simp only [List.length_nil] at hlen
  omega

/-- **The results are in the order of the items**, whatever the order in which the calls ended; and a
failure is that of a call. -/
theorem mapWithConcurrency_eq_some (hlimit : 0 < limit) {schedule : List ℕ}
    {result : Except ε (List R)} (h : mapWithConcurrency items limit fn schedule = some result) :
    (∀ rs, result = .ok rs → List.Forall₂ (fun item r => fn item = .ok r) items rs) ∧
      ∀ e, result = .error e → ∃ item ∈ items, fn item = .error e := by
  simp only [mapWithConcurrency, Option.bind_eq_bind, Option.bind_eq_some_iff] at h
  obtain ⟨s, hrun, h⟩ := h
  have hinv := (PoolState.inv_initial items fn limit).run hrun
  split at h
  · next hdone =>
    split at h
    · next e he =>
      obtain rfl := Option.some.inj h
      refine ⟨fun rs hrs => (by cases hrs), fun e' he' => ?_⟩
      cases he'
      exact hinv.failure e he
    · next hnone =>
      obtain ⟨rs, hrs, hforall⟩ := hinv.results hdone hnone (workers_ne_nil hlimit hrun)
      rw [hrs] at h
      obtain rfl := Option.some.inj h
      refine ⟨fun rs' hrs' => ?_, fun e he => (by cases he)⟩
      cases hrs'
      exact hforall
  · cases h

/-- **Every schedule leads to the end**: it has one entry for each item at most, and until all workers
have returned the call of one of them is under way. -/
theorem mapWithConcurrency_progress (hlimit : 0 < limit) {schedule : List ℕ} {s : PoolState ε R}
    (hrun : schedule.foldlM (PoolState.step items fn) (PoolState.initial items.length limit) =
      some s) :
    schedule.length ≤ items.length ∧
      ((mapWithConcurrency items limit fn schedule).isSome = true ∨
        ∃ worker s', s.step items fn worker = some s') := by
  have hinv := (PoolState.inv_initial items fn limit).run hrun
  refine ⟨?_, ?_⟩
  · have hpending := (run_workers hrun).1
    have hstart : (PoolState.initial items.length limit : PoolState ε R).pending items.length ≤
        items.length := by
      refine Nat.le_trans (PoolState.start_pending ..) ?_
      simp [PoolState.pending]
    omega
  · by_cases hdone : s.done = true
    · refine .inl ?_
      simp only [mapWithConcurrency, hrun, Option.bind_eq_bind, Option.bind_some, hdone, if_true]
      cases hfail : s.firstFailure with
      | some e => rfl
      | none =>
        obtain ⟨rs, hrs, -⟩ := hinv.results hdone hfail (workers_ne_nil hlimit hrun)
        simp [hrs]
    · refine .inr ?_
      have hheld : ∃ w ∈ s.workers, w ≠ none := by
        simpa [PoolState.done] using hdone
      obtain ⟨w, hw, hne⟩ := hheld
      obtain ⟨index, rfl⟩ := Option.ne_none_iff_exists'.mp hne
      obtain ⟨worker, hworker⟩ := List.mem_iff_getElem?.mp hw
      refine ⟨worker, s.settle items.length worker index (fn (items.get ⟨index, hinv.held index hw⟩)), ?_⟩
      simp [PoolState.step, hworker, List.getElem?_eq_getElem (hinv.held index hw)]

/-- There is a schedule that leads to the end. -/
theorem exists_schedule (items : List T) (fn : T → Except ε R) (hlimit : 0 < limit) :
    ∃ schedule, (mapWithConcurrency items limit fn schedule).isSome = true := by
  have hextend : ∀ n (schedule : List ℕ) (s : PoolState ε R),
      schedule.foldlM (PoolState.step items fn) (PoolState.initial items.length limit) = some s →
      s.pending items.length = n →
        ∃ schedule, (mapWithConcurrency items limit fn schedule).isSome = true := by
    intro n
    induction n with
    | zero =>
      intro schedule s hrun hpending
      rcases (mapWithConcurrency_progress hlimit hrun).2 with hdone | ⟨worker, s', hstep⟩
      · exact ⟨schedule, hdone⟩
      · have hless := (PoolState.step_pending hstep).1
        omega
    | succ n ih =>
      intro schedule s hrun hpending
      rcases (mapWithConcurrency_progress hlimit hrun).2 with hdone | ⟨worker, s', hstep⟩
      · exact ⟨schedule, hdone⟩
      · have hless := (PoolState.step_pending hstep).1
        refine ih (schedule ++ [worker]) s' ?_ (by omega)
        rw [List.foldlM_append, hrun, Option.bind_eq_bind, Option.bind_some, List.foldlM_cons, hstep]
        rfl
  exact hextend _ [] _ rfl rfl

end GovAI
