import GovAI.Library.TxProgram

/-!
# Conditions on commits

A transaction may hand on what its reads answered as a part of its result.  Then a condition that
compares the result with the committed state speaks about what the transaction relied on.
`txSystem_invariant_of_commits` is the rule for runs in which every commit meets such a condition:
what the programs keep under it holds of the committed states.  `reachable_overlap` leads the other
way: a transaction that has read may be overtaken by another one, and go on with what it has read.
-/

namespace GovAI

open ItemStore Function TxProgram

variable {K : Type} {Val : K → Type} {ε α : Type} [DecidableEq K] {init : Store Val → Prop}
  {start : TxProgram Val ε α → Prop} {T : Type} [DecidableEq T]

/-- Whenever a transaction commits, its result and the committed state have `C`. -/
def CommitsMeet (C : α → Store Val → Prop) (c : LockState (Store Val) K (TxPoint Val ε α) T)
    (a : T × LockAction (TxPoint Val ε α)) : Prop :=
  a.2 = .commit → ∀ x b, c.tx a.1 = some x → x.point = .finished b → C b c.committed

/-- A step leaves the committed state, or a program has run alone on it and commits its result. -/
def StepEffect (start : TxProgram Val ε α → Prop) (H : Set (Store Val))
    (c c' : LockState (Store Val) K (TxPoint Val ε α) T) (t : T) : Prop :=
  ∃ p b ws x, start p ∧ p.Exec H c.committed [] b ws ∧ c.tx t = some x ∧ x.point = .finished b ∧
    c'.committed = ws.apply c.committed

/-- What is known of an interleaving after one more step. -/
lemma LockProtocol.Serializable.step {H : Set (Store Val)} {c c' : LockState (Store Val) K (TxPoint Val ε α) T}
    {a : T × LockAction (TxPoint Val ε α)}
    (h : Serializable (txProtocol init start) H c)
    (hstep : (txSystem T init start).step c a c') :
    (c'.committed = c.committed ∧ Serializable (txProtocol init start) H c') ∨
      (a.2 = .commit ∧ StepEffect start H c c' a.1 ∧
        Serializable (txProtocol init start) (insert c'.committed H) c') := by
  obtain ⟨t, a⟩ := a
  cases hstep with
  | begin hp _ => exact .inl ⟨rfl, h.begin hp⟩
  | statement ht hexec hfree => exact .inl ⟨rfl, h.statement ht hexec hfree⟩
  | rollback _ => exact .inl ⟨rfl, h.rollback t⟩
  | @commit x ht =>
    have hcommit := h.commit ht
    obtain ⟨x₀, ⟨p, hp, rfl⟩, halone⟩ := h.alone t x ht
    have hdone := exec_of_serialTx (halone c.committed fun k _ => rfl)
    obtain ⟨point, held, written⟩ := x
    cases point with
    | running q ws =>
      have hsame : overlay held written c.committed = c.committed := hdone.1
      rw [OpenTx.view, hsame, Set.insert_eq_of_mem h.serial.mem] at hcommit
      exact .inl ⟨hsame, by rwa [OpenTx.view, hsame]⟩
    | finished b =>
      obtain ⟨ws, hexec, heq⟩ := hdone
      exact .inr ⟨rfl, ⟨p, b, ws, _, hp, hexec, ht, rfl, heq⟩, hcommit⟩

section Rules

variable {C : α → Store Val → Prop} {I : Set (Store Val) → Store Val → Prop}
  {c c' : LockState (Store Val) K (TxPoint Val ε α) T}

/-- The invariant, together with what is known of every interleaving. -/
lemma serializable_of_commits (hinit : ∀ s, init s → I {s} s)
    (hexec : ∀ H s p b ws, I H s → s ∈ H → start p → C b s → p.Exec H s [] b ws →
      I (insert (ws.apply s) H) (ws.apply s))
    (hc : ((txSystem T init start).restrict (CommitsMeet C)).Reachable c) :
    ∃ H, LockProtocol.Serializable (txProtocol init start) H c ∧ I H c.committed := by
  refine hc.invariant (I := fun c => ∃ H, LockProtocol.Serializable (txProtocol init start) H c ∧
    I H c.committed) (fun c hc => ?_) ?_
  · exact ⟨{c.committed}, ⟨.init hc.1, fun t _ x _ _ hx _ => by simp [hc.2 t] at hx,
      fun t x hx => by simp [hc.2 t] at hx⟩, hinit _ hc.1⟩
  · rintro c a c' - ⟨H, hser, hI⟩ ⟨hmeet, hstep⟩
    rcases hser.step hstep with ⟨hsame, hser'⟩ | ⟨hcommit, ⟨p, b, ws, x, hp, hrun, hx, hpoint, heq⟩, hser'⟩
    · exact ⟨H, hser', by rwa [hsame]⟩
    · refine ⟨_, hser', ?_⟩
      rw [heq]
      exact hexec H _ p b ws hI hser.serial.mem hp (hmeet hcommit x b hx hpoint) hrun

/-- **The rule for committed states.**  In a run whose commits meet `C`, what every program keeps
when it runs alone on a state with which its result has `C`. -/
theorem txSystem_invariant_of_commits (hinit : ∀ s, init s → I {s} s)
    (hexec : ∀ H s p b ws, I H s → s ∈ H → start p → C b s → p.Exec H s [] b ws →
      I (insert (ws.apply s) H) (ws.apply s))
    (hc : ((txSystem T init start).restrict (CommitsMeet C)).Reachable c) :
    ∃ H, I H c.committed ∧ c.committed ∈ H := by
  obtain ⟨H, hser, hI⟩ := serializable_of_commits hinit hexec hc
  exact ⟨H, hI, hser.serial.mem⟩

/-- **The rule for steps.**  A step of such a run leaves the committed state, or a program has run
alone on it, with a result that has `C`. -/
theorem txSystem_exec_of_commits (hinit : ∀ s, init s → I {s} s)
    (hexec : ∀ H s p b ws, I H s → s ∈ H → start p → C b s → p.Exec H s [] b ws →
      I (insert (ws.apply s) H) (ws.apply s)) {a : T × LockAction (TxPoint Val ε α)}
    (hc : ((txSystem T init start).restrict (CommitsMeet C)).Reachable c)
    (hstep : ((txSystem T init start).restrict (CommitsMeet C)).step c a c') :
    ∃ H, I H c.committed ∧ c.committed ∈ H ∧ (c'.committed = c.committed ∨
      ∃ p b ws, start p ∧ C b c.committed ∧ p.Exec H c.committed [] b ws ∧
        c'.committed = ws.apply c.committed) := by
  obtain ⟨H, hser, hI⟩ := serializable_of_commits hinit hexec hc
  refine ⟨H, hI, hser.serial.mem, ?_⟩
  rcases hser.step hstep.2 with ⟨hsame, -⟩ | ⟨hcommit, ⟨p, b, ws, x, hp, hrun, hx, hpoint, heq⟩, -⟩
  · exact .inl hsame
  · exact .inr ⟨p, b, ws, hp, hstep.1 hcommit x b hx hpoint, hrun, heq⟩

end Rules

/-- A transaction that runs alone, and meets the condition. -/
theorem run_exec_of_commits {C : α → Store Val → Prop} (t : T) {p : TxProgram Val ε α}
    {s : Store Val} {b : α} {ws : Pending Val} (hp : start p) (hmeet : C b s)
    (hrun : p.Exec {s} s [] b ws) :
    ∃ as, ((txSystem T init start).restrict (CommitsMeet C)).Run ⟨s, fun _ => none⟩ as
      ⟨ws.apply s, fun _ => none⟩ := by
  refine LockProtocol.run_of_serialTx_where t ?_ ⟨p, hp, rfl⟩ (serialTx_of_exec .nil hrun)
  intro c a hcommitted hpoint hcommit x b' hx hb'
  rw [hpoint hcommit x hx] at hb'
  cases hb'
  rwa [hcommitted]

/-- Each of these transactions, one after the other, meets the condition. -/
def SerialMeets (C : α → Store Val → Prop) : List (TxProgram Val ε α) → Store Val → Prop
  | [], _ => True
  | p :: ps, s =>
    match p.run s [] with
    | .ok (b, ws) => C b s ∧ SerialMeets C ps (ws.apply s)
    | .error _ => SerialMeets C ps s

/-- The condition that leaves nothing out is met. -/
lemma serialMeets_true (ps : List (TxProgram Val ε α)) (s : Store Val) :
    SerialMeets (fun _ _ => True) ps s := by
  induction ps generalizing s with
  | nil => trivial
  | cons p ps ih =>
    unfold SerialMeets
    split
    · exact ⟨trivial, ih _⟩
    · exact ih _

/-- Such transactions are a run. -/
theorem run_serialRun_of_commits {C : α → Store Val → Prop} (t : T) {ps : List (TxProgram Val ε α)}
    {s : Store Val} (hps : ∀ p ∈ ps, start p) (hmeets : SerialMeets C ps s) :
    ∃ as, ((txSystem T init start).restrict (CommitsMeet C)).Run ⟨s, fun _ => none⟩ as
      ⟨serialRun ps s, fun _ => none⟩ := by
  induction ps generalizing s with
  | nil => exact ⟨[], .nil _⟩
  | cons p ps ih =>
    have hrest : ∀ q ∈ ps, start q := fun q hq => hps q (List.mem_cons_of_mem p hq)
    cases hrun : p.run s [] with
    | ok done =>
      simp only [SerialMeets, hrun] at hmeets
      simp only [serialRun, hrun]
      obtain ⟨as, hfirst⟩ : ∃ as, ((txSystem T init start).restrict (CommitsMeet C)).Run
          ⟨s, fun _ => none⟩ as ⟨done.2.apply s, fun _ => none⟩ :=
        run_exec_of_commits t (hps p List.mem_cons_self) hmeets.1
          (exec_of_run (Set.mem_singleton s) hrun)
      obtain ⟨bs, hlater⟩ := ih hrest hmeets.2
      exact ⟨_, hfirst.append hlater⟩
    | error e =>
      simp only [SerialMeets, hrun] at hmeets
      simp only [serialRun, hrun]
      exact ih hrest hmeets

/-- After such transactions. -/
theorem reachable_serialRun_of_commits {C : α → Store Val → Prop} (t : T)
    {ps : List (TxProgram Val ε α)} {s : Store Val}
    (hc : ((txSystem T init start).restrict (CommitsMeet C)).Reachable ⟨s, fun _ => none⟩)
    (hps : ∀ p ∈ ps, start p) (hmeets : SerialMeets C ps s) :
    ((txSystem T init start).restrict (CommitsMeet C)).Reachable
      ⟨serialRun ps s, fun _ => none⟩ := by
  obtain ⟨as, hrun⟩ : ∃ as, ((txSystem T init start).restrict (CommitsMeet C)).Run
      ⟨s, fun _ => none⟩ as ⟨serialRun ps s, fun _ => none⟩ := run_serialRun_of_commits t hps hmeets
  exact hc.run hrun

/-! ## A transaction that is overtaken -/

section Overlap

variable {c : LockState (Store Val) K (TxPoint Val ε α) T} {t : T}

/-- A transaction opens. -/
lemma reachable_begin {p : TxProgram Val ε α} (hc : (txSystem T init start).Reachable c)
    (hp : start p) (ht : c.tx t = none) :
    (txSystem T init start).Reachable
      ⟨c.committed, update c.tx t (some ⟨.running p [], ∅, c.committed⟩)⟩ :=
  hc.step (a := (t, .begin (.running p []))) (.begin ⟨p, hp, rfl⟩ ht)

/-- A transaction that holds nothing reads. -/
lemma reachable_select {next : Store Val → TxProgram Val ε α} {w : Store Val}
    (hc : (txSystem T init start).Reachable c)
    (ht : c.tx t = some ⟨.running (.select next) [], ∅, w⟩) :
    (txSystem T init start).Reachable
      ⟨c.committed, update c.tx t (some ⟨.running (next c.committed) [], ∅, c.committed⟩)⟩ := by
  have hview : OpenTx.view (P := TxPoint Val ε α) ⟨.running (.select next) [], ∅, w⟩ c.committed =
      c.committed := overlay_empty ..
  have hexec : (txProtocol init start).exec {c.committed} (.running (.select next) []) c.committed ∅
      (.running (next c.committed) []) c.committed := TxStatement.select (Set.mem_singleton _)
  have hstep := LockProtocol.Step.statement ht (by rwa [hview]) fun _ _ _ _ => Set.empty_disjoint _
  rw [Set.empty_union] at hstep
  exact hc.step (a := (t, .statement)) hstep

/-- The rest of a transaction that holds nothing, while the others hold nothing. -/
lemma reachable_rest {p : TxProgram Val ε α} {w : Store Val} {b : α} {ws : Pending Val}
    (hc : (txSystem T init start).Reachable c) (ht : c.tx t = some ⟨.running p [], ∅, w⟩)
    (hothers : ∀ u y, u ≠ t → c.tx u = some y → y.held = ∅)
    (hrun : p.run c.committed [] = .ok (b, ws)) :
    (txSystem T init start).Reachable ⟨ws.apply c.committed, update c.tx t none⟩ :=
  LockProtocol.reachable_finish hc ht rfl hothers
    (serialTx_of_exec .nil (exec_of_run (Set.mem_singleton _) hrun))

/-- A transaction reads, another one runs and commits, and the first goes on with what it has
read. -/
theorem reachable_overlap {u : T} (htu : t ≠ u) {next : Store Val → TxProgram Val ε α}
    {q : TxProgram Val ε α} {s : Store Val} {b b' : α} {ws ws' : Pending Val}
    (hc : (txSystem T init start).Reachable ⟨s, fun _ => none⟩) (hp : start (.select next))
    (hq : start q) (hother : q.run s [] = .ok (b', ws'))
    (hrest : (next s).run (ws'.apply s) [] = .ok (b, ws)) :
    (txSystem T init start).Reachable ⟨ws.apply (ws'.apply s), fun _ => none⟩ := by
  have hread := reachable_select (reachable_begin (t := t) hc hp rfl) (update_self ..)
  rw [update_idem] at hread
  have hbegin := reachable_begin (t := u) hread hq (update_of_ne htu.symm ..)
  have hdone := reachable_rest hbegin (update_self ..) ?_ hother
  · have hrest' := reachable_rest (t := t) (w := s) hdone ?_ ?_ hrest
    · simpa [update_comm htu] using hrest'
    · simp [htu]
    · intro v y hv hy
      by_cases hvu : v = u
      · subst hvu
        simp at hy
      · simp [hv, hvu] at hy
  · intro v y hv hy
    by_cases hvt : v = t
    · subst hvt
      simp only [update_of_ne hv, update_self, Option.some.injEq] at hy
      rw [← hy]
    · simp [hv, hvt] at hy

/-- What is checked of the state after a transaction that was overtaken by another one. -/
def overlapCheck (next : Store Val → TxProgram Val ε α) (q : TxProgram Val ε α) (s : Store Val)
    (check : Store Val → Bool) : Bool :=
  match q.run s [] with
  | .ok (_, ws') =>
    match (next s).run (ws'.apply s) [] with
    | .ok (_, ws) => check (ws.apply (ws'.apply s))
    | .error _ => false
  | .error _ => false

/-- A state that passes the check can be reached. -/
theorem reachable_of_overlapCheck {u : T} (htu : t ≠ u) {next : Store Val → TxProgram Val ε α}
    {q : TxProgram Val ε α} {s : Store Val} {check : Store Val → Bool}
    (hc : (txSystem T init start).Reachable ⟨s, fun _ => none⟩) (hp : start (.select next))
    (hq : start q) (h : overlapCheck next q s check = true) :
    ∃ s', (txSystem T init start).Reachable ⟨s', fun _ => none⟩ ∧ check s' = true := by
  unfold overlapCheck at h
  split at h
  · next hother =>
    split at h
    · next hrest => exact ⟨_, reachable_overlap htu hc hp hq hother hrest, h⟩
    · cases h
  · cases h

end Overlap

end GovAI
