import GovAI.Regulatory.CaseLaws

/-!
# The recorded history of reviews and cases

The events of a call name the status that its first read has answered.  They tell what has happened
only if no other call has moved the subject in between: `GovernanceOutcome.Undisturbed` is this
condition on a commit.  In runs whose commits meet it, the recorded changes of each subject are a trail
through the lifecycle from `OPEN` to the present status, and closed subjects are frozen with all their
children.  Two calls that overlap break both.
-/

namespace GovAI

open TxProgram

/-! ## Trails -/

/-- The steps lead from `a` to `b`, each one from where the last one has ended, and each one is
allowed. -/
def IsTrail {S : Type} (R : S → S → Prop) : S → List (S × S) → S → Prop
  | a, [], b => a = b
  | a, t :: ts, b => t.1 = a ∧ R t.1 t.2 ∧ IsTrail R t.2 ts b

/-- Trails compose. -/
lemma IsTrail.append {S : Type} {R : S → S → Prop} {ts us : List (S × S)} {a b c : S}
    (h : IsTrail R a ts b) (h' : IsTrail R b us c) : IsTrail R a (ts ++ us) c := by
  induction ts generalizing a with
  | nil =>
    obtain rfl := h
    exact h'
  | cons t ts ih =>
    obtain ⟨hstart, hstep, hrest⟩ := h
    exact ⟨hstart, hstep, ih hrest⟩

/-! ## Recorded events -/

namespace GovernanceEvent

/-- The subject that an event on its status is about. -/
def subject? : GovernanceEvent → Option (GovernanceKind × Uuid)
  | submitted k id .. => some (k, id)
  | cancelled k id .. => some (k, id)
  | statusChanged k id .. => some (k, id)
  | created .. | updated .. | verdictCreated .. | decided .. => none
  | evidenceCreated .. | evidenceUpdated .. | evidenceStatusChanged .. => none
  | assignmentCreated .. | assignmentUpdated .. | assignmentStatusChanged .. => none

/-- The previous and the new status of a `…status_changed` event. -/
def transition : GovernanceEvent → Option (GovernanceStatus × GovernanceStatus)
  | statusChanged _ _ row previous => some (previous, row.status)
  | _ => none

/-- The previous status of a `…submitted` event. -/
def submission : GovernanceEvent → Option GovernanceStatus
  | submitted _ _ _ previous => some previous
  | _ => none

/-- The reason of a `…cancelled` event. -/
def cancellation : GovernanceEvent → Option String
  | cancelled _ _ _ _ reason => some reason
  | _ => none

end GovernanceEvent

/-- The events on the status of one subject. -/
def statusEvents (k : GovernanceKind) (id : Uuid) (events : List GovernanceEvent) :
    List GovernanceEvent :=
  events.filter fun e => e.subject? = some (k, id)

/-- The changes of status that the workflow has: submission, cancellation, decision. -/
def SubjectLifecycle (k : GovernanceKind) (a b : GovernanceStatus) : Prop :=
  (k.submittable a = true ∧ b = k.submitted) ∨ (a.terminal = false ∧ b = .cancelled) ∨
    (k.decidable a = true ∧ ∃ x : Verdict, k.admitsVerdict x = true ∧ b = x.status)

/-- The events `es` on the status of a subject tell its history: the changes are a trail from `OPEN` to
the present status, there is one `…submitted` event for each entry into review, and the one
`…cancelled` event of a cancelled subject has its reason. -/
structure Recorded {k : GovernanceKind} (row : SubjectRow k) (es : List GovernanceEvent) : Prop where
  trail : IsTrail (SubjectLifecycle k) .opened (es.filterMap GovernanceEvent.transition) row.status
  submissions : es.filterMap GovernanceEvent.submission =
    ((es.filterMap GovernanceEvent.transition).filter fun t => t.2 = k.submitted).map Prod.fst
  cancellations : es.filterMap GovernanceEvent.cancellation =
    if row.status = .cancelled then row.cancellationReason.toList else []

section

variable {k : GovernanceKind} {id : Uuid} {row row' : SubjectRow k} {es new : List GovernanceEvent}

lemma Recorded.congr (h : Recorded row es) (hstatus : row'.status = row.status)
    (hreason : row'.cancellationReason = row.cancellationReason) : Recorded row' es where
  trail := hstatus ▸ h.trail
  submissions := h.submissions
  cancellations := by
    rw [hstatus, hreason]
    exact h.cancellations

/-- The events of one more change of an open subject. -/
lemma Recorded.append (h : Recorded row es) (hopen : row.status.terminal = false)
    (htrail : IsTrail (SubjectLifecycle k) row.status (new.filterMap GovernanceEvent.transition) row'.status)
    (hsubmissions : new.filterMap GovernanceEvent.submission =
      ((new.filterMap GovernanceEvent.transition).filter fun t => t.2 = k.submitted).map Prod.fst)
    (hcancellations : new.filterMap GovernanceEvent.cancellation =
      if row'.status = .cancelled then row'.cancellationReason.toList else []) :
    Recorded row' (es ++ new) where
  trail := by
    rw [List.filterMap_append]
    exact h.trail.append htrail
  submissions := by
    rw [List.filterMap_append, List.filterMap_append, List.filter_append, List.map_append,
      h.submissions, hsubmissions]
  cancellations := by
    have hne : row.status ≠ .cancelled := fun heq => by
      rw [heq] at hopen
      cases hopen
    rw [List.filterMap_append, h.cancellations, if_neg hne, hcancellations, List.nil_append]

lemma Recorded.submitted {ctx : RegulatoryCtx} {existing : SubjectRow k} (h : Recorded row es)
    (hstatus : k.submittable existing.status = true) (hsame : row.status = existing.status)
    (hopen : row.status.terminal = false) :
    Recorded (assignSubmitted ctx existing row) (es ++
      [.submitted k id (assignSubmitted ctx existing row) existing.status,
        .statusChanged k id (assignSubmitted ctx existing row) existing.status]) := by
  refine h.append hopen ⟨hsame.symm, .inl ⟨hstatus, rfl⟩, rfl⟩ ?_ ?_
  · change [existing.status] =
      ([(existing.status, k.submitted)].filter fun t => t.2 = k.submitted).map Prod.fst
    simp
  · have hne : k.submitted ≠ .cancelled := by cases k <;> decide
    simp [GovernanceEvent.cancellation, assignSubmitted, hne]

lemma Recorded.cancelled {ctx : RegulatoryCtx} {previous : GovernanceStatus} {input : CancelInput}
    (h : Recorded row es) (hsame : row.status = previous) (hopen : row.status.terminal = false) :
    Recorded (assignCancelled ctx input row) (es ++
      [.cancelled k id (assignCancelled ctx input row) previous input.cancellationReason,
        .statusChanged k id (assignCancelled ctx input row) previous]) := by
  refine h.append hopen ⟨hsame.symm, .inr (.inl ⟨hsame ▸ hopen, rfl⟩), rfl⟩ ?_ ?_
  · have hne : GovernanceStatus.cancelled ≠ k.submitted := by cases k <;> decide
    change [] = ([(previous, GovernanceStatus.cancelled)].filter fun t => t.2 = k.submitted).map Prod.fst
    simp [hne]
  · simp [GovernanceEvent.cancellation, assignCancelled]

/-- A decision never leads into review, save when it leaves the status as it is. -/
lemma Verdict.status_ne_submitted {x : Verdict} (hadmits : k.admitsVerdict x = true)
    (h : k = .review ∨ x ≠ .needsMoreInformation) : x.status ≠ k.submitted := by
  revert hadmits h
  cases k <;> cases x <;> decide

lemma Recorded.decided {ctx : RegulatoryCtx} {verdictId : Uuid} {verdict : VerdictRow}
    {previous : GovernanceStatus} {input : VerdictInput} (h : Recorded row es)
    (hstatus : k.decidable previous = true) (hsame : row.status = previous)
    (hopen : row.status.terminal = false) (hadmits : k.admitsVerdict input.verdict = true) :
    Recorded (assignDecided ctx input row) (es ++ statusEvents k id
      (decidedEvents verdictId id verdict (assignDecided ctx input row) previous)) := by
  have hcancelled : (assignDecided ctx input row).status ≠ .cancelled := input.verdict.status_ne.1
  unfold decidedEvents
  split
  · next hlog =>
    have hsubmitted : (assignDecided ctx input row).status ≠ k.submitted := by
      refine Verdict.status_ne_submitted hadmits (hlog.imp_right fun hne heq => hne ?_)
      cases k with
      | review => rw [heq] at hadmits; cases hadmits
      | useCase =>
        have hprevious : previous = .underReview := by
          revert hstatus
          cases previous <;> decide
        rw [hprevious, assignDecided, heq]
        rfl
    have hevents : statusEvents k id ([.verdictCreated k verdictId id verdict
        (assignDecided ctx input row), .decided k id (assignDecided ctx input row) verdict previous] ++
        [.statusChanged k id (assignDecided ctx input row) previous]) =
        [.statusChanged k id (assignDecided ctx input row) previous] := by
      simp [statusEvents, GovernanceEvent.subject?]
    rw [hevents]
    refine h.append hopen ⟨hsame.symm, .inr (.inr ⟨hstatus, _, hadmits, rfl⟩), rfl⟩ ?_ ?_
    · simp [GovernanceEvent.submission, GovernanceEvent.transition, hsubmitted]
    · simp [GovernanceEvent.cancellation, hcancelled]
  · next hlog =>
    rw [not_or, not_not] at hlog
    have hevents : statusEvents k id ([.verdictCreated k verdictId id verdict
        (assignDecided ctx input row), .decided k id (assignDecided ctx input row) verdict previous] ++
        []) = [] := by
      simp [statusEvents, GovernanceEvent.subject?]
    rw [hevents, List.append_nil]
    exact h.congr (hlog.2.trans hsame.symm) rfl

end

/-! ## Undisturbed commits -/

/-- The status that the first read of the call has answered is still that of the subject. -/
def GovernanceOutcome.Undisturbed : GovernanceOutcome → GovernanceDb → Prop
  | created _ _, _ => True
  | edited k id observed, db => (db (.subject k id)).map SubjectRow.status = observed
  | moved k id observed, db => (db (.subject k id)).map SubjectRow.status = some observed
  | other, _ => True

/-- The policy chains tell the history of every subject, and no event is about a subject that is not
there. -/
structure HistorySound (v : GovernanceDb) : Prop where
  recorded : ∀ k id (row : SubjectRow k), v (.subject k id) = some row →
    Recorded row (statusEvents k id (v (.chain row.orgId)))
  known : ∀ orgId, ∀ e ∈ v (.chain orgId), ∀ k id, e.subject? = some (k, id) →
    ∃ row : SubjectRow k, v (.subject k id) = some row

namespace HistorySound

variable {v v₁ : GovernanceDb} {k : GovernanceKind} {id orgId : Uuid} {row row' : SubjectRow k}
  {events : List GovernanceEvent}

lemma chain_logged (orgId orgId' : Uuid) (events : List GovernanceEvent) (v : GovernanceDb) :
    logged orgId events v (.chain orgId') =
      v (.chain orgId') ++ if orgId' = orgId then events else [] := by
  split
  · next heq =>
    subst heq
    exact logged_self ..
  · next hne => rw [logged_of_ne (by simpa using hne), List.append_nil]

/-- A call that leaves the subjects, and logs nothing on their status. -/
lemma quiet (h : HistorySound v) (hsubject : ∀ k id, v₁ (.subject k id) = v (.subject k id))
    (hchain : ∀ o, v₁ (.chain o) = v (.chain o)) (hevents : ∀ e ∈ events, e.subject? = none) :
    HistorySound (logged orgId events v₁) := by
  constructor
  · intro k id row hrow
    rw [logged_of_ne (by simp), hsubject] at hrow
    have hnil : statusEvents k id (if row.orgId = orgId then events else []) = [] := by
      rw [statusEvents, List.filter_eq_nil_iff]
      intro e he
      split at he
      · simp [hevents e he]
      · cases he
    rw [chain_logged, hchain, statusEvents, List.filter_append]
    change Recorded row (statusEvents .. ++ statusEvents ..)
    rw [hnil, List.append_nil]
    exact h.recorded k id row hrow
  · intro orgId' e he k id hsubject?
    rw [logged_of_ne (by simp), hsubject]
    rw [chain_logged, hchain, List.mem_append] at he
    rcases he with he | he
    · exact h.known orgId' e he k id hsubject?
    · split at he
      · rw [hevents e he] at hsubject?
        cases hsubject?
      · cases he

/-- A call that gives one subject a new version, and logs what it has done. -/
lemma moved (h : HistorySound v) (hbefore : v (.subject k id) = some row)
    (hafter : v₁ (.subject k id) = some row') (hidentity : row'.identity = row.identity)
    (hother : ∀ k' id', GovernanceItem.subject k' id' ≠ .subject k id →
      v₁ (.subject k' id') = v (.subject k' id'))
    (hchain : ∀ o, v₁ (.chain o) = v (.chain o)) (horg : row.orgId = orgId)
    (hevents : ∀ e ∈ events, e.subject? = some (k, id) ∨ e.subject? = none)
    (hrecorded : ∀ es, Recorded row es → Recorded row' (es ++ statusEvents k id events)) :
    HistorySound (logged orgId events v₁) := by
  constructor
  · intro k' id' x hx
    rw [logged_of_ne (by simp)] at hx
    rw [chain_logged, hchain, statusEvents, List.filter_append]
    change Recorded x (statusEvents .. ++ statusEvents ..)
    by_cases heq : GovernanceItem.subject k' id' = .subject k id
    · cases heq
      obtain rfl := Option.some.inj (hx.symm.trans hafter)
      rw [SubjectRow.orgId, hidentity, if_pos horg]
      exact hrecorded _ (h.recorded k id row hbefore)
    · have hnil : statusEvents k' id' (if x.orgId = orgId then events else []) = [] := by
        rw [statusEvents, List.filter_eq_nil_iff]
        intro e he
        split at he
        · rcases hevents e he with hsubject | hsubject
          · rw [hsubject]
            simp only [Option.some.injEq, Prod.mk.injEq, decide_eq_true_eq]
            rintro ⟨rfl, rfl⟩
            exact heq rfl
          · simp [hsubject]
        · cases he
      rw [hnil, List.append_nil]
      exact h.recorded k' id' x (hother k' id' heq ▸ hx)
  · intro orgId' e he k' id' hsubject
    rw [logged_of_ne (by simp)]
    by_cases heq : GovernanceItem.subject k' id' = .subject k id
    · cases heq
      exact ⟨row', hafter⟩
    · rw [hother k' id' heq]
      rw [chain_logged, hchain, List.mem_append] at he
      rcases he with he | he
      · exact h.known orgId' e he k' id' hsubject
      · split at he
        · rcases hevents e he with hsame | hnone
          · obtain ⟨rfl, rfl⟩ := Prod.mk.inj (Option.some.inj (hsame.symm.trans hsubject))
            exact absurd rfl heq
          · rw [hnone] at hsubject
            cases hsubject
        · cases he

/-- A new subject has no history. -/
lemma created (h : HistorySound v) (hrow : SubjectCreated id row v v₁)
    (hopened : row.status = .opened) :
    HistorySound (logged row.orgId [.created k id row] v₁) := by
  have hchain : ∀ o, v₁ (.chain o) = v (.chain o) := fun o =>
    hrow.frame _ (by simp) (by simp) fun _ _ => by simp
  have hother : ∀ k' id', GovernanceItem.subject k' id' ≠ .subject k id →
      v₁ (.subject k' id') = v (.subject k' id') := fun k' id' hne =>
    hrow.frame _ hne (by simp) fun _ _ => by simp
  constructor
  · intro k' id' x hx
    rw [logged_of_ne (by simp)] at hx
    have hnew : statusEvents k' id' (if x.orgId = row.orgId then [.created k id row] else []) = [] := by
      split <;> rfl
    rw [chain_logged, hchain, statusEvents, List.filter_append]
    change Recorded x (statusEvents .. ++ statusEvents ..)
    rw [hnew, List.append_nil]
    by_cases heq : GovernanceItem.subject k' id' = .subject k id
    · cases heq
      obtain rfl := Option.some.inj (hx.symm.trans hrow.after)
      have hnone : statusEvents k id (v (.chain x.orgId)) = [] := by
        rw [statusEvents, List.filter_eq_nil_iff]
        intro e he hsubject
        obtain ⟨old, hold⟩ := h.known _ e he k id (by simpa using hsubject)
        exact absurd (hold.symm.trans hrow.fresh) nofun
      rw [hnone]
      exact ⟨hopened.symm, rfl, by simp [hopened]⟩
    · exact h.recorded k' id' x (hother k' id' heq ▸ hx)
  · intro orgId' e he k' id' hsubject
    rw [logged_of_ne (by simp)]
    rw [chain_logged, hchain, List.mem_append] at he
    have hold : e ∈ v (.chain orgId') := by
      refine he.resolve_right fun hnew => ?_
      split at hnew
      · rw [List.mem_singleton.mp hnew] at hsubject
        cases hsubject
      · cases hnew
    obtain ⟨x, hx⟩ := h.known orgId' e hold k' id' hsubject
    refine ⟨x, ?_⟩
    rw [hother, hx]
    intro heq
    cases heq
    exact absurd (hx.symm.trans hrow.fresh) nofun

/-- **What an undisturbed call preserves.** -/
theorem effect {H : Set GovernanceDb} {v' : GovernanceDb} {out : GovernanceOutcome}
    (h : HistorySound v) (he : GovernanceEffect H v out v')
    (hundisturbed : out.Undisturbed v) : HistorySound v' := by
  cases he with
  | created hopened _ hrow => exact h.created hrow hopened
  | updated _ horg _ hrow =>
    refine h.moved hrow.before hrow.after hrow.identity (fun _ _ hne => hrow.frame _ hne fun _ _ => by
      simp) (fun _ => hrow.frame _ (by simp) fun _ _ => by simp) horg ?_ fun es hes => ?_
    · exact List.forall_mem_singleton.mpr (.inr rfl)
    · change Recorded _ (es ++ [])
      rw [List.append_nil]
      exact hes.congr rfl rfl
  | @submitted k ctx id existing row v₁ hseen hstatus horg hrow =>
    have hsame : row.status = existing.status := by
      simpa [GovernanceOutcome.Undisturbed, hrow.before] using hundisturbed
    refine h.moved hrow.before hrow.after hrow.identity (fun _ _ hne => hrow.frame _ hne fun _ _ => by
      simp) (fun _ => hrow.frame _ (by simp) fun _ _ => by simp) horg ?_ fun es hes => ?_
    · exact List.forall_mem_cons.mpr ⟨.inl rfl, List.forall_mem_singleton.mpr (.inl rfl)⟩
    · have hevents : ∀ x : SubjectRow k, statusEvents k id [.submitted k id x existing.status,
          .statusChanged k id x existing.status] = [.submitted k id x existing.status,
          .statusChanged k id x existing.status] := fun _ => by
        simp [statusEvents, GovernanceEvent.subject?]
      rw [hevents]
      exact hes.submitted hstatus hsame (hsame ▸ hseen.2)
  | @cancelled k ctx id input existing row v₁ hseen horg hrow =>
    have hsame : row.status = existing.status := by
      simpa [GovernanceOutcome.Undisturbed, hrow.before] using hundisturbed
    refine h.moved hrow.before hrow.after hrow.identity (fun _ _ hne => hrow.frame _ hne fun _ _ => by
      simp) (fun _ => hrow.frame _ (by simp) fun _ _ => by simp) horg ?_ fun es hes => ?_
    · exact List.forall_mem_cons.mpr ⟨.inl rfl, List.forall_mem_singleton.mpr (.inl rfl)⟩
    · have hevents : ∀ x : SubjectRow k, statusEvents k id [.cancelled k id x existing.status
          input.cancellationReason, .statusChanged k id x existing.status] = [.cancelled k id x
          existing.status input.cancellationReason, .statusChanged k id x existing.status] :=
        fun _ => by simp [statusEvents, GovernanceEvent.subject?]
      rw [hevents]
      exact hes.cancelled hsame (hsame ▸ hseen.2)
  | @decided k ctx id verdictId input existing row v₁ v₂ hseen hstatus _ horg hverdict hrow =>
    have hbefore : v (.subject k id) = some row := by
      rw [← hrow.before, hverdict.frame _ (by simp) fun _ => by simp]
    have hsame : row.status = existing.status := by
      simpa [GovernanceOutcome.Undisturbed, hbefore] using hundisturbed
    refine h.moved hbefore hrow.after hrow.identity (fun _ _ hne => ?_) (fun _ => ?_) horg
      (fun e he => ?_) fun es hes => ?_
    · rw [hrow.frame _ hne fun _ _ => by simp, hverdict.frame _ (by simp) fun _ => by simp]
    · rw [hrow.frame _ (by simp) fun _ _ => by simp, hverdict.frame _ (by simp) fun _ => by simp]
    · rcases List.mem_append.mp he with he | he
      · rcases List.mem_pair.mp he with rfl | rfl
        · exact .inr rfl
        · exact .inr rfl
      · split at he
        · rw [List.mem_singleton.mp he]
          exact .inl rfl
        · cases he
    · exact hes.decided hstatus hsame (hsame ▸ hseen.2) hverdict.checks.2.1
  | evidence _ _ hevents hrow =>
    refine h.quiet (fun _ _ => hrow.frame _ (by simp) rfl) (fun _ => hrow.frame _ (by simp) rfl)
      fun e he => ?_
    have hchild := hevents e he
    cases e <;> first | rfl | cases hchild
  | assignment _ _ hevents hrow =>
    refine h.quiet (fun _ _ => hrow.frame _ (by simp) rfl) (fun _ => hrow.frame _ (by simp) rfl)
      fun e he => ?_
    have hchild := hevents e he
    cases e <;> first | rfl | cases hchild
  | reference =>
    constructor
    · intro k id row hrow
      rw [Function.update_of_ne (by simp)] at hrow
      rw [Function.update_of_ne (by simp)]
      exact h.recorded k id row hrow
    · intro orgId e he k id hsubject
      rw [Function.update_of_ne (by simp)] at he
      rw [Function.update_of_ne (by simp)]
      exact h.known orgId e he k id hsubject

end HistorySound

/-! ## Frozen subjects -/

/-- A closed subject keeps its row, its decisions, its evidence and its assignments. -/
def FreezesClosed (v v' : GovernanceDb) : Prop :=
  ∀ k id (row : SubjectRow k), v (.subject k id) = some row → row.status.terminal = true →
    v' (.subject k id) = some row ∧
      (∀ i x, x.subjectId = id → (v' (.verdict k i) = some x ↔ v (.verdict k i) = some x)) ∧
      (∀ i x, x.subjectId = id → (v' (.evidence k i) = some x ↔ v (.evidence k i) = some x)) ∧
      (k = .review → ∀ i x, x.subjectId = id →
        (v' (.assignment i) = some x ↔ v (.assignment i) = some x))

namespace FreezesClosed

variable {v v' v'' : GovernanceDb}

lemma refl (v : GovernanceDb) : FreezesClosed v v := fun _ _ _ hrow _ =>
  ⟨hrow, fun _ _ _ => Iff.rfl, fun _ _ _ => Iff.rfl, fun _ _ _ _ => Iff.rfl⟩

lemma trans (h : FreezesClosed v v') (h' : FreezesClosed v' v'') : FreezesClosed v v'' := by
  intro k id row hrow hclosed
  obtain ⟨hrow', hverdict, hevidence, hassignment⟩ := h k id row hrow hclosed
  obtain ⟨hrow'', hverdict', hevidence', hassignment'⟩ := h' k id row hrow' hclosed
  exact ⟨hrow'', fun i x hx => (hverdict' i x hx).trans (hverdict i x hx),
    fun i x hx => (hevidence' i x hx).trans (hevidence i x hx),
    fun hk i x hx => (hassignment' hk i x hx).trans (hassignment hk i x hx)⟩

/-- What changes neither closed subjects nor children. -/
lemma of_eq (hsubject : ∀ k id (row : SubjectRow k), v (.subject k id) = some row →
      row.status.terminal = true → v' (.subject k id) = some row)
    (hverdict : ∀ k i, v' (.verdict k i) = v (.verdict k i))
    (hevidence : ∀ k i, v' (.evidence k i) = v (.evidence k i))
    (hassignment : ∀ i, v' (.assignment i) = v (.assignment i)) : FreezesClosed v v' :=
  fun k id row hrow hclosed => ⟨hsubject k id row hrow hclosed, fun _ _ _ => by rw [hverdict],
    fun _ _ _ => by rw [hevidence], fun _ _ _ _ => by rw [hassignment]⟩

lemma logged (orgId : Uuid) (events : List GovernanceEvent) (v : GovernanceDb) :
    FreezesClosed v (logged orgId events v) :=
  of_eq (fun _ _ _ hrow _ => by rwa [logged_of_ne (by simp)]) (fun _ _ => logged_of_ne (by simp))
    (fun _ _ => logged_of_ne (by simp)) fun _ => logged_of_ne (by simp)

variable {k : GovernanceKind} {id : Uuid} {row row' : SubjectRow k}

/-- A new version of an open subject. -/
lemma written (h : SubjectWritten id row row' v v') (hopen : row.status.terminal = false) :
    FreezesClosed v v' := by
  refine of_eq (fun k' id' x hx hclosed => ?_) (fun _ _ => h.frame _ (by simp) fun _ _ => by simp)
    (fun _ _ => h.frame _ (by simp) fun _ _ => by simp) fun _ => h.frame _ (by simp) fun _ _ => by simp
  rw [h.frame _ _ fun _ _ => by simp, hx]
  intro heq
  cases heq
  obtain rfl := Option.some.inj (hx.symm.trans h.before)
  rw [hopen] at hclosed
  cases hclosed

/-- A decision on an open subject. -/
lemma inserted {x : VerdictRow} (h : VerdictInserted k id x v v')
    (hopen : ∀ row : SubjectRow k, v (.subject k x.subjectId) = some row →
      row.status.terminal = false) : FreezesClosed v v' := by
  intro k' id' row' hrow' hclosed
  refine ⟨by rwa [h.frame _ (by simp) fun _ => by simp], fun i y hy => ?_, fun _ _ _ => ?_,
    fun _ _ _ _ => ?_⟩
  · by_cases heq : GovernanceItem.verdict k' i = .verdict k id
    · cases heq
      rw [h.after, h.fresh]
      refine ⟨fun hsome => ?_, nofun⟩
      obtain rfl := Option.some.inj hsome
      rw [hopen row' (hy ▸ hrow')] at hclosed
      cases hclosed
    · rw [h.frame _ heq fun _ => by simp]
  · rw [h.frame _ (by simp) fun _ => by simp]
  · rw [h.frame _ (by simp) fun _ => by simp]

/-- The subject of a change of evidence, when the change commits. -/
lemma evidence_subject {H : Set GovernanceDb} {subjectId : Uuid} {x : EvidenceRow}
    (h : EvidenceWritten H k id subjectId v v') (hhistory : ∀ r ∈ H, Evolves r v)
    (hx : v' (.evidence k id) = some x ∨ v (.evidence k id) = some x) : x.subjectId = subjectId := by
  obtain ⟨row, hrow, ⟨hfresh, hsubject⟩ | ⟨old, hold, hsame, r, hr, seen, hseen, hsubject⟩⟩ := h.after
  · rcases hx with hx | hx
    · rw [← Option.some.inj (hrow.symm.trans hx), hsubject]
    · exact absurd (hx.symm.trans hfresh) nofun
  · obtain ⟨old', hold', hkept⟩ := (hhistory r hr).evidence k id seen hseen
    obtain rfl := Option.some.inj (hold.symm.trans hold')
    rcases hx with hx | hx
    · rw [← Option.some.inj (hrow.symm.trans hx), hsame, hkept, hsubject]
    · rw [← Option.some.inj (hold.symm.trans hx), hkept, hsubject]

/-- The review of a change of an assignment, when the change commits. -/
lemma assignment_subject {H : Set GovernanceDb} {subjectId : Uuid} {x : AssignmentRow}
    (h : AssignmentWritten H id subjectId v v') (hhistory : ∀ r ∈ H, Evolves r v)
    (hx : v' (.assignment id) = some x ∨ v (.assignment id) = some x) : x.subjectId = subjectId := by
  obtain ⟨row, hrow, ⟨hfresh, hsubject⟩ | ⟨old, hold, hsame, r, hr, seen, hseen, hsubject⟩⟩ := h.after
  · rcases hx with hx | hx
    · rw [← Option.some.inj (hrow.symm.trans hx), hsubject]
    · exact absurd (hx.symm.trans hfresh) nofun
  · obtain ⟨old', hold', hkept⟩ := (hhistory r hr).assignment id seen hseen
    obtain rfl := Option.some.inj (hold.symm.trans hold')
    rcases hx with hx | hx
    · rw [← Option.some.inj (hrow.symm.trans hx), hsame, hkept, hsubject]
    · rw [← Option.some.inj (hold.symm.trans hx), hkept, hsubject]

/-- A child is changed only while its subject is as it was read, and that was open. -/
lemma not_closed {visible : Option (SubjectRow k)} {subjectId : Uuid}
    (hopen : ∀ row ∈ visible, row.status.terminal = false)
    (hundisturbed : GovernanceOutcome.Undisturbed (.edited k subjectId
      (visible.map SubjectRow.status)) v) (hrow : v (.subject k subjectId) = some row) :
    row.status.terminal = false := by
  have hsame : some row.status = visible.map SubjectRow.status := by
    simpa [GovernanceOutcome.Undisturbed, hrow] using hundisturbed
  obtain ⟨seen, hseen, hstatus⟩ := Option.map_eq_some_iff.mp hsame.symm
  rw [← hstatus]
  exact hopen seen hseen

/-- **An undisturbed call leaves closed subjects alone.** -/
theorem effect {H : Set GovernanceDb} {out : GovernanceOutcome} (hsound : GovernanceSound H v)
    (he : GovernanceEffect H v out v') (hundisturbed : out.Undisturbed v) : FreezesClosed v v' := by
  cases he with
  | created _ _ hrow =>
    refine trans (of_eq (fun k' id' x hx _ => ?_) (fun _ _ => ?_) (fun _ _ => ?_) fun _ => ?_)
      (.logged _ _ _)
    · rw [hrow.frame _ _ (by simp) fun _ _ => by simp, hx]
      intro heq
      cases heq
      exact absurd (hx.symm.trans hrow.fresh) nofun
    all_goals exact hrow.frame _ (by simp) (by simp) fun _ _ => by simp
  | @updated k ctx id patch existing row v₁ hseen _ _ hrow =>
    have hsame : row.status = existing.status := by
      simpa [GovernanceOutcome.Undisturbed, hrow.before] using hundisturbed
    exact (written hrow (hsame ▸ hseen.2)).trans (.logged _ _ _)
  | @submitted k ctx id existing row v₁ hseen _ _ hrow =>
    have hsame : row.status = existing.status := by
      simpa [GovernanceOutcome.Undisturbed, hrow.before] using hundisturbed
    exact (written hrow (hsame ▸ hseen.2)).trans (.logged _ _ _)
  | @cancelled k ctx id input existing row v₁ hseen _ hrow =>
    have hsame : row.status = existing.status := by
      simpa [GovernanceOutcome.Undisturbed, hrow.before] using hundisturbed
    exact (written hrow (hsame ▸ hseen.2)).trans (.logged _ _ _)
  | @decided k ctx id verdictId input existing row v₁ v₂ hseen _ _ _ hverdict hrow =>
    have hbefore : v (.subject k id) = some row := by
      rw [← hrow.before, hverdict.frame _ (by simp) fun _ => by simp]
    have hsame : row.status = existing.status := by
      simpa [GovernanceOutcome.Undisturbed, hbefore] using hundisturbed
    have hopen : row.status.terminal = false := hsame ▸ hseen.2
    refine ((inserted hverdict fun x hx => ?_).trans (written hrow hopen)).trans (.logged _ _ _)
    obtain rfl := Option.some.inj (hx.symm.trans hbefore)
    exact hopen
  | @evidence k ctx id subjectId visible events v₁ _ hopen _ hrow =>
    refine trans (fun k' id' x hx hclosed => ⟨?_, fun _ _ _ => ?_, fun i y hy => ?_, fun _ _ _ _ => ?_⟩)
      (.logged _ _ _)
    · rwa [hrow.frame _ (by simp) rfl]
    · rw [hrow.frame _ (by simp) rfl]
    · by_cases heq : GovernanceItem.evidence k' i = .evidence k id
      · cases heq
        have hne : ∀ hy' : v₁ (.evidence k id) = some y ∨ v (.evidence k id) = some y, False := by
          intro hy'
          obtain rfl := hy.symm.trans (evidence_subject hrow hsound.history hy')
          rw [not_closed hopen hundisturbed hx] at hclosed
          cases hclosed
        exact ⟨fun h => (hne (.inl h)).elim, fun h => (hne (.inr h)).elim⟩
      · rw [hrow.frame _ heq rfl]
    · rw [hrow.frame _ (by simp) rfl]
  | @assignment ctx id subjectId visible events v₁ _ hopen _ hrow =>
    refine trans (fun k' id' x hx hclosed => ⟨?_, fun _ _ _ => ?_, fun _ _ _ => ?_, fun hk i y hy => ?_⟩)
      (.logged _ _ _)
    · rwa [hrow.frame _ (by simp) rfl]
    · rw [hrow.frame _ (by simp) rfl]
    · rw [hrow.frame _ (by simp) rfl]
    · subst hk
      by_cases heq : i = id
      · subst heq
        have hne : ∀ hy' : v₁ (.assignment i) = some y ∨ v (.assignment i) = some y, False := by
          intro hy'
          obtain rfl := hy.symm.trans (assignment_subject hrow hsound.history hy')
          rw [not_closed hopen hundisturbed hx] at hclosed
          cases hclosed
        exact ⟨fun h => (hne (.inl h)).elim, fun h => (hne (.inr h)).elim⟩
      · rw [hrow.frame _ (by simpa using heq) rfl]
  | reference =>
    refine of_eq (fun _ _ _ hrow _ => by rwa [Function.update_of_ne (by simp)]) ?_ ?_ ?_
    all_goals
      intros
      exact Function.update_of_ne (by simp) ..

end FreezesClosed

/-! ## Runs -/

section Runs

variable {c c' : GovernanceState} {k : GovernanceKind} {id : Uuid} {row : SubjectRow k}

/-- The runs whose commits are undisturbed. -/
abbrev undisturbedSystem : TransitionSystem GovernanceState
    (ℕ × LockAction (TxPoint GovernanceItem.Val RegulatoryFailure GovernanceOutcome)) :=
  governanceSystem.restrict (CommitsMeet GovernanceOutcome.Undisturbed)

/-- No tables, no history. -/
lemma historySound_of_initial {db : GovernanceDb} (h : InitialGovernanceDb db) : HistorySound db := by
  have hempty : ∀ i, (∀ t id, i ≠ .reference t id) → db i = noGovernance i := fun i hi =>
    (h i).resolve_left fun ⟨t, id, heq⟩ => hi t id heq
  constructor
  · intro k id row hrow
    rw [hempty _ (by simp)] at hrow
    cases hrow
  · intro orgId e he
    rw [hempty _ (by simp)] at he
    cases he

/-- What one commit of such a run preserves. -/
lemma historySound_step {H : Set GovernanceDb} {s : GovernanceDb} {p : GovernanceTx GovernanceOutcome}
    {b : GovernanceOutcome} {ws : Pending GovernanceItem.Val}
    (h : GovernanceSound H s ∧ HistorySound s) (hp : GovernanceProgram p) (hmeets : b.Undisturbed s)
    (hrun : p.Exec H s [] b ws) :
    GovernanceSound (insert (ws.apply s) H) (ws.apply s) ∧ HistorySound (ws.apply s) :=
  ⟨h.1.step (hp.effect hrun), h.2.effect (hp.effect hrun) hmeets⟩

/-- **The recorded history of a subject is a trail**: in every run whose commits are undisturbed, the
`…status_changed` events of a subject, in the order of the policy chain, lead through the lifecycle from
`OPEN` to its present status; there is exactly one `…submitted` event for each entry into review, and
exactly one `…cancelled` event, with the reason of the row, if it is cancelled and none otherwise. -/
theorem governance_history_is_trail (hc : undisturbedSystem.Reachable c)
    (hrow : c.committed (.subject k id) = some row) :
    Recorded row (statusEvents k id (c.committed (.chain row.orgId))) := by
  obtain ⟨H, ⟨-, hhistory⟩, -⟩ := txSystem_invariant_of_commits
    (I := fun H v => GovernanceSound H v ∧ HistorySound v)
    (fun _ h => ⟨governanceSound_of_initial h, historySound_of_initial h⟩)
    (fun _ _ _ _ _ h _ hp hmeets hrun => historySound_step h hp hmeets hrun) hc
  exact hhistory.recorded k id row hrow

/-- A step of such a run leaves closed subjects alone. -/
lemma freezesClosed_of_step {a : ℕ × LockAction
      (TxPoint GovernanceItem.Val RegulatoryFailure GovernanceOutcome)}
    (hc : undisturbedSystem.Reachable c) (h : undisturbedSystem.step c a c') :
    FreezesClosed c.committed c'.committed := by
  obtain ⟨H, hsound, -, hsame | ⟨p, b, ws, hp, hmeets, hrun, heq⟩⟩ := txSystem_exec_of_commits
    (fun _ => governanceSound_of_initial)
    (fun _ _ _ _ _ h _ hp _ hrun => h.step (hp.effect hrun)) hc h
  · rw [hsame]
    exact .refl _
  · rw [heq]
    exact .effect hsound (hp.effect hrun) hmeets

/-- **Closed subjects are frozen**: along every run whose commits are undisturbed, a closed review or
case keeps its row, and nothing is added to or changed in its decisions, its evidence and its
assignments. -/
theorem governance_closed_frozen {as : List (ℕ × LockAction
      (TxPoint GovernanceItem.Val RegulatoryFailure GovernanceOutcome))}
    (hc : undisturbedSystem.Reachable c) (hrun : undisturbedSystem.Run c as c')
    (hrow : c.committed (.subject k id) = some row) (hclosed : row.status.terminal = true) :
    c'.committed (.subject k id) = some row ∧
      (∀ i x, x.subjectId = id →
        (c'.committed (.verdict k i) = some x ↔ c.committed (.verdict k i) = some x)) ∧
      (∀ i x, x.subjectId = id →
        (c'.committed (.evidence k i) = some x ↔ c.committed (.evidence k i) = some x)) ∧
      (k = .review → ∀ i x, x.subjectId = id →
        (c'.committed (.assignment i) = some x ↔ c.committed (.assignment i) = some x)) :=
  TransitionSystem.Run.relates
    (R := fun c c' : GovernanceState => FreezesClosed c.committed c'.committed) (fun _ => .refl _)
    (fun _ _ _ => .trans) (fun _ _ _ => freezesClosed_of_step) hc hrun k id row hrow hclosed

end Runs

/-! ## A run that is undisturbed, and two that are not -/

instance decidableUndisturbed : ∀ (b : GovernanceOutcome) (db : GovernanceDb),
    Decidable (b.Undisturbed db)
  | .created _ _, _ => .isTrue trivial
  | .edited _ _ _, _ => inferInstanceAs (Decidable (_ = _))
  | .moved _ _ _, _ => inferInstanceAs (Decidable (_ = _))
  | .other, _ => .isTrue trivial

instance decidableSerialMeets {K : Type} {Val : K → Type} {ε α : Type} [DecidableEq K]
    {C : α → Store Val → Prop} [∀ b s, Decidable (C b s)] :
    ∀ (ps : List (TxProgram Val ε α)) (s : Store Val), Decidable (SerialMeets C ps s)
  | [], _ => .isTrue trivial
  | p :: ps, s =>
    match h : p.run s [] with
    | .ok (b, ws) =>
      have := decidableSerialMeets (C := C) ps (ws.apply s)
      decidable_of_iff (C b s ∧ SerialMeets C ps (ws.apply s)) (by simp [SerialMeets, h])
    | .error _ =>
      have := decidableSerialMeets (C := C) ps s
      decidable_of_iff (SerialMeets C ps s) (by simp [SerialMeets, h])

/-- One call after the other. -/
lemma reachable_sampleApproved_undisturbed : undisturbedSystem.Reachable sampleApprovedState :=
  reachable_serialRun_of_commits 0 reachable_noGovernance sampleApproved_programs (by decide +kernel)

/-- The history of the approved review. -/
theorem governance_history_is_trail_sample : ∃ row : SubjectRow .review,
    sampleApprovedState.committed (.subject .review 7) = some row ∧ row.status = .approved ∧
      Recorded row (statusEvents .review 7 (sampleApprovedState.committed (.chain row.orgId))) := by
  obtain ⟨row, hrow, hstatus⟩ := sampleApproved_subject
  exact ⟨row, hrow, hstatus, governance_history_is_trail reachable_sampleApproved_undisturbed hrow⟩

/-- The approved review and its assignment while a case is opened, submitted and closed. -/
theorem governance_closed_frozen_sample : ∃ (row : SubjectRow .review) (x : AssignmentRow),
    row.status = .approved ∧ sampleLaterState.committed (.subject .review 7) = some row ∧
      x.subjectId = 7 ∧ sampleLaterState.committed (.assignment 8) = some x := by
  obtain ⟨row, hrow, hstatus⟩ := sampleApproved_subject
  obtain ⟨x, hx, hsubject⟩ : ∃ x : AssignmentRow,
      sampleApprovedState.committed (.assignment 8) = some x ∧ x.subjectId = 7 :=
    Option.map_eq_some_iff.mp (show (sampleApprovedState.committed (.assignment 8)).map
      AssignmentRow.subjectId = some 7 by decide +kernel)
  obtain ⟨as, hrun⟩ : ∃ as, undisturbedSystem.Run sampleApprovedState as sampleLaterState :=
    run_serialRun_of_commits 0 sampleLater_programs (by decide +kernel)
  obtain ⟨hsame, -, -, hassignments⟩ := governance_closed_frozen reachable_sampleApproved_undisturbed
    hrun hrow (by rw [hstatus]; rfl)
  exact ⟨row, x, hstatus, hsame, hsubject, (hassignments rfl 8 x hsubject).mpr hx⟩

/-- User 2 opens review 7. -/
def sampleOpened : List (GovernanceTx GovernanceOutcome) :=
  [writeReference .riskClassification 4 (some ⟨some 1, sampleHighRisk⟩),
    createHighRiskReview (governanceCtx 2 10) 7 sampleReviewInput]

lemma reachable_sampleOpened :
    governanceSystem.Reachable ⟨serialRun sampleOpened noGovernance, fun _ => none⟩ := by
  refine reachable_serialRun 0 (reachable_noGovernance (C := fun _ _ => True)).of_restrict fun p hp => ?_
  rcases List.mem_pair.mp hp with rfl | rfl
  · exact .writeReference ..
  · exact .createHighRiskReview ..

/-- **Two submissions that overlap** both record the step from `OPEN`. -/
theorem governance_history_overlap :
    ¬∀ c : GovernanceState, governanceSystem.Reachable c → ∀ (id : Uuid) (row : SubjectRow .review),
      c.committed (.subject .review id) = some row →
        Recorded row (statusEvents .review id (c.committed (.chain row.orgId))) := by
  intro h
  obtain ⟨s, hs, hcheck⟩ : ∃ s : GovernanceDb, governanceSystem.Reachable ⟨s, fun _ => none⟩ ∧
      decide ((s (.subject .review 7)).map (fun row => (statusEvents .review 7
        (s (.chain row.orgId))).filterMap GovernanceEvent.transition) =
          some [(.opened, .inReview), (.opened, .inReview)]) = true :=
    reachable_of_overlapCheck (t := 0) (u := 1) (by decide) reachable_sampleOpened
      (GovernanceProgram.submitHighRiskReview (governanceCtx 2 20) 7)
      (GovernanceProgram.submitHighRiskReview (governanceCtx 2 21) 7) (by decide +kernel)
  obtain ⟨row, hrow, hevents⟩ := Option.map_eq_some_iff.mp (of_decide_eq_true hcheck)
  have htrail := (h _ hs 7 row hrow).trail
  rw [hevents] at htrail
  cases htrail.2.2.1

/-- **An edit that overlaps with the closing call** still changes the closed review: user 2 cancels it,
and user 3, who has read it before, gets the last word on its row. -/
theorem governance_closed_overlap : ∃ s : GovernanceDb,
    governanceSystem.Reachable ⟨s, fun _ => none⟩ ∧ ∃ row : SubjectRow .review,
      s (.subject .review 7) = some row ∧ row.status = .cancelled ∧ row.updatedByUserId = some 3 := by
  obtain ⟨s, hs, hcheck⟩ : ∃ s : GovernanceDb, governanceSystem.Reachable ⟨s, fun _ => none⟩ ∧
      decide ((s (.subject .review 7)).map (fun row => (row.status, row.updatedByUserId)) =
        some (.cancelled, some 3)) = true :=
    reachable_of_overlapCheck (t := 0) (u := 1) (by decide) reachable_sampleOpened
      (GovernanceProgram.updateHighRiskReview (governanceCtx 3 20) 7
        ⟨⟨none, fun _ => none, none, none, none⟩, rfl⟩)
      (GovernanceProgram.cancelHighRiskReview (governanceCtx 2 21) 7 ⟨"late", [], by decide⟩)
      (by decide +kernel)
  obtain ⟨row, hrow, hpair⟩ := Option.map_eq_some_iff.mp (of_decide_eq_true hcheck)
  exact ⟨s, hs, row, hrow, (Prod.mk.inj hpair).1, (Prod.mk.inj hpair).2⟩

end GovAI
