import GovAI.Regulatory.Effects

/-!
# The invariants of the governance workflows

The service checks a status that it has read without a lock and then overwrites it.  What keeps the
tables consistent nevertheless is the joint effect of the `CHECK`s on the times, of the index of active
subjects and of the index of final decisions: a row that an overlapping call has closed carries a time
that no other status admits.
-/

namespace GovAI

open TxProgram

variable {H : Set GovernanceDb} {v v' : GovernanceDb} {k : GovernanceKind} {id : Uuid}

/-! ## Single rows -/

lemma GovernanceStatus.terminal_iff (st : GovernanceStatus) :
    st.terminal = true ↔ st.decided = true ∨ st = .cancelled ∨ st = .superseded := by
  cases st <;> decide

lemma GovernanceStatus.terminal_of_decided {st : GovernanceStatus} (h : st.decided = true) :
    st.terminal = true :=
  st.terminal_iff.mpr (.inl h)

lemma Verdict.decided_status (x : Verdict) : x.status.decided = x.final := by
  cases x <;> rfl

lemma Verdict.status_ne (x : Verdict) : x.status ≠ .cancelled ∧ x.status ≠ .superseded := by
  cases x <;> decide

lemma GovernanceKind.submitted_open (k : GovernanceKind) : k.submitted.terminal = false := by
  cases k <;> rfl

/-- A row as the workflow leaves it: it passes its checks, nothing has superseded it, and a decided row
has the time of its decision. -/
structure SubjectRow.Sound (row : SubjectRow k) : Prop where
  checks : row.Checks
  notSuperseded : row.status ≠ .superseded
  decidedAt : row.status.decided = true → row.decidedAt ≠ none

namespace SubjectRow.Sound

variable {row row' : SubjectRow k}

/-- A decided row stays decided while it keeps the time of its decision. -/
lemma decided_of (h : row.Sound) (hchecks : row'.Checks) (htime : row'.decidedAt = row.decidedAt)
    (hdecided : row.status.decided = true) : row'.status.decided = true :=
  hchecks.decidedAt (htime ▸ h.decidedAt hdecided)

/-- A cancelled row stays cancelled while it keeps the time of its cancellation. -/
lemma cancelled_of (h : row.Sound) (hchecks : row'.Checks)
    (htime : row'.cancelledAt = row.cancelledAt) (hcancelled : row.status = .cancelled) :
    row'.status = .cancelled := by
  by_contra hne
  have hnone := hchecks.cancelledAt.mpr hne
  rw [htime] at hnone
  exact h.checks.cancelledAt.mp hnone hcancelled

lemma terminal_iff (h : row.Sound) :
    row.status.terminal = true ↔ row.status.decided = true ∨ row.status = .cancelled := by
  rw [row.status.terminal_iff]
  simp [h.notSuperseded]

/-- A row that is open after such a change was open before. -/
lemma open_of (h : row.Sound) (hchecks : row'.Checks) (hdecidedAt : row'.decidedAt = row.decidedAt)
    (hcancelledAt : row'.cancelledAt = row.cancelledAt) (hopen : row'.status.terminal = false) :
    row.status.terminal = false := by
  by_contra hterminal
  rcases h.terminal_iff.mp (Bool.not_eq_false _ ▸ hterminal) with hdecided | hcancelled
  · rw [GovernanceStatus.terminal_of_decided (h.decided_of hchecks hdecidedAt hdecided)] at hopen
    cases hopen
  · rw [h.cancelled_of hchecks hcancelledAt hcancelled] at hopen
    cases hopen

end SubjectRow.Sound

/-! ## All rows -/

/-- The subjects are sound, and the index of the active ones lists those that are open. -/
structure RowsSound (v : GovernanceDb) : Prop where
  sound : ∀ k id (row : SubjectRow k), v (.subject k id) = some row → row.Sound
  active : ∀ k orgId a id, v (.active k orgId a) = some id ↔
    ∃ row : SubjectRow k, v (.subject k id) = some row ∧ row.orgId = orgId ∧
      a ∈ row.identity.anchors ∧ row.status.terminal = false

namespace RowsSound

lemma frame (h : RowsSound v) (hsubject : ∀ k id, v' (.subject k id) = v (.subject k id))
    (hactive : ∀ k orgId a, v' (.active k orgId a) = v (.active k orgId a)) : RowsSound v' where
  sound k id row hrow := h.sound k id row (hsubject k id ▸ hrow)
  active k orgId a id := by
    rw [hactive, hsubject]
    exact h.active k orgId a id

lemma logged (h : RowsSound v) (orgId : Uuid) (events : List GovernanceEvent) :
    RowsSound (logged orgId events v) :=
  h.frame (fun _ _ => logged_of_ne (by simp)) fun _ _ _ => logged_of_ne (by simp)

/-- A new subject. -/
lemma created {row : SubjectRow k} (h : RowsSound v) (hrow : SubjectCreated id row v v')
    (hopened : row.status = .opened) : RowsSound v' := by
  have hother : ∀ k' id', GovernanceItem.subject k' id' ≠ .subject k id →
      v' (.subject k' id') = v (.subject k' id') := fun k' id' hne =>
    hrow.frame _ hne (by simp) fun _ _ => by simp
  constructor
  · intro k' id' row' hrow'
    by_cases heq : GovernanceItem.subject k' id' = .subject k id
    · cases heq
      obtain rfl := Option.some.inj (hrow'.symm.trans hrow.after)
      exact ⟨hrow.checks, by simp [hopened], fun hdecided => by simp [hopened,
        GovernanceStatus.decided] at hdecided⟩
    · exact h.sound k' id' row' (hother k' id' heq ▸ hrow')
  · intro k' orgId a id'
    by_cases hanchor : ∃ a' ∈ row.identity.anchors,
        GovernanceItem.active k' orgId a = .active k row.orgId a'
    · obtain ⟨a', ha', heq⟩ := hanchor
      cases heq
      obtain ⟨hfree, hclaimed⟩ := hrow.claimed a ha'
      rw [hclaimed]
      constructor
      · rintro ⟨⟩
        exact ⟨row, hrow.after, rfl, ha', by rw [hopened]; rfl⟩
      · rintro ⟨row', hrow', horg, ha, hopen⟩
        by_cases heq : id' = id
        · rw [heq]
        · rw [hother k id' (by simpa using heq)] at hrow'
          have hheld := (h.active k row.orgId a id').mpr ⟨row', hrow', horg, ha, hopen⟩
          exact absurd (hheld.symm.trans hfree) nofun
    · push Not at hanchor
      rw [hrow.frame _ (by simp) (by simp) hanchor, h.active]
      by_cases heq : GovernanceItem.subject k' id' = .subject k id
      · cases heq
        rw [hrow.fresh, hrow.after]
        constructor
        · rintro ⟨_, ⟨⟩, -⟩
        · rintro ⟨_, ⟨⟩, rfl, ha, -⟩
          exact absurd rfl (hanchor a ha)
      · rw [hother k' id' heq]

/-- A new version of a subject, which is not reopened. -/
lemma written {row row' : SubjectRow k} (h : RowsSound v) (hrow : SubjectWritten id row row' v v')
    (hsound : row'.Sound) (hclosed : row.status.terminal = true → row'.status.terminal = true) :
    RowsSound v' := by
  have hother : ∀ k' id', GovernanceItem.subject k' id' ≠ .subject k id →
      v' (.subject k' id') = v (.subject k' id') := fun k' id' hne =>
    hrow.frame _ hne fun _ _ => by simp
  constructor
  · intro k' id' x hx
    by_cases heq : GovernanceItem.subject k' id' = .subject k id
    · cases heq
      obtain rfl := Option.some.inj (hx.symm.trans hrow.after)
      exact hsound
    · exact h.sound k' id' x (hother k' id' heq ▸ hx)
  · intro k' orgId a id'
    -- the entry says the same of every other subject, whatever it holds
    have hothers : ∀ i, i ≠ id → ((∃ x : SubjectRow k, v' (.subject k i) = some x ∧
        x.orgId = row.orgId ∧ a ∈ x.identity.anchors ∧ x.status.terminal = false) ↔
        v (.active k row.orgId a) = some i) := by
      intro i hi
      rw [hother k i (by simpa using hi), h.active]
    by_cases hanchor : ∃ a' ∈ row.identity.anchors,
        GovernanceItem.active k' orgId a = .active k row.orgId a'
    · obtain ⟨a', ha', heq⟩ := hanchor
      cases heq
      have hself : (∃ x : SubjectRow k, v' (.subject k id) = some x ∧
          x.orgId = row.orgId ∧ a ∈ x.identity.anchors ∧ x.status.terminal = false) ↔
          row'.status.terminal = false := by
        rw [hrow.after]
        constructor
        · rintro ⟨_, ⟨⟩, -, -, hopen⟩
          exact hopen
        · intro hopen
          exact ⟨row', rfl, by rw [SubjectRow.orgId, hrow.identity], by rwa [hrow.identity], hopen⟩
      by_cases hopen : row.status.terminal = false
      · have hheld : v (.active k row.orgId a) = some id :=
          (h.active k row.orgId a id).mpr ⟨row, hrow.before, rfl, ha', hopen⟩
        by_cases hopen' : row'.status.terminal = false
        · rw [hrow.held (by rw [hopen, hopen']), hheld]
          by_cases hi : id' = id
          · subst hi
            simp [hself, hopen']
          · rw [hothers id' hi, hheld]
        · rw [hrow.released hopen (by simpa using hopen') a ha']
          by_cases hi : id' = id
          · subst hi
            simp [hself, hopen']
          · rw [hothers id' hi, hheld]
            simp [Ne.symm hi]
      · have hopen' : row'.status.terminal = true := hclosed (by simpa using hopen)
        rw [hrow.held (by rw [hopen']; simpa using hopen)]
        by_cases hi : id' = id
        · subst hi
          rw [hself, h.active, hrow.before]
          simp [hopen', hopen]
        · rw [hothers id' hi]
    · push Not at hanchor
      rw [hrow.frame _ (by simp) hanchor, h.active]
      by_cases heq : GovernanceItem.subject k' id' = .subject k id
      · cases heq
        rw [hrow.before, hrow.after]
        constructor
        · rintro ⟨_, ⟨⟩, rfl, ha, -⟩
          exact absurd rfl (hanchor a ha)
        · rintro ⟨_, ⟨⟩, rfl, ha, -⟩
          rw [hrow.identity] at ha
          exact absurd (by rw [SubjectRow.orgId, hrow.identity]) (hanchor a ha)
      · rw [hother k' id' heq]

end RowsSound

/-! ## Decisions -/

/-- A decision agrees with its subject: it passes its checks, the requester has not made it where the
kind separates the duties, a final one gives the subject its status, and a prohibited capability is
only ever confirmed. -/
structure VerdictRow.Fits (x : VerdictRow) (row : SubjectRow k) : Prop where
  checks : x.Checks k
  orgId : row.orgId = x.orgId
  separated : k.dutyBound x.input.verdict = true →
    ∀ u ∈ x.decidedByUserId, ¬row.DecidedByRequester u x.input.participantId
  status : x.input.verdict.final = true → row.status = x.input.verdict.status
  posture : SubjectDetail.capabilityProhibited row.identity.detail = true →
    x.input.verdict = .prohibitedConfirmed

/-- It fits every version of the subject that has the same status. -/
lemma VerdictRow.Fits.congr {x : VerdictRow} {row row' : SubjectRow k} (h : x.Fits row)
    (hidentity : row'.identity = row.identity)
    (hstatus : x.input.verdict.final = true → row'.status = row.status) : x.Fits row' where
  checks := h.checks
  orgId := by rw [SubjectRow.orgId, hidentity, ← h.orgId]
  separated hduty u hu := by
    unfold SubjectRow.DecidedByRequester
    rw [hidentity]
    exact h.separated hduty u hu
  status hfinal := (hstatus hfinal).trans (h.status hfinal)
  posture := by
    rw [hidentity]
    exact h.posture

/-- The index of the final decisions lists them, every decision fits its subject, and every decided
subject has a final one. -/
structure DecisionsSound (v : GovernanceDb) : Prop where
  final : ∀ k orgId subjectId id, v (.finalVerdict k orgId subjectId) = some id ↔
    ∃ x, v (.verdict k id) = some x ∧ x.orgId = orgId ∧ x.subjectId = subjectId ∧
      x.input.verdict.final = true
  verdict : ∀ k id x, v (.verdict k id) = some x →
    ∃ row : SubjectRow k, v (.subject k x.subjectId) = some row ∧ x.Fits row
  decided : ∀ k id (row : SubjectRow k), v (.subject k id) = some row →
    row.status.decided = true → ∃ i, v (.finalVerdict k row.orgId id) = some i

namespace DecisionsSound

lemma frame (h : DecisionsSound v) (hsubject : ∀ k id, v' (.subject k id) = v (.subject k id))
    (hverdict : ∀ k id, v' (.verdict k id) = v (.verdict k id))
    (hfinal : ∀ k orgId id, v' (.finalVerdict k orgId id) = v (.finalVerdict k orgId id)) :
    DecisionsSound v' where
  final k orgId subjectId id := by
    rw [hfinal, hverdict]
    exact h.final k orgId subjectId id
  verdict k id x hx := by
    rw [hsubject]
    exact h.verdict k id x (hverdict k id ▸ hx)
  decided k id row hrow hdecided := by
    rw [hfinal]
    exact h.decided k id row (hsubject k id ▸ hrow) hdecided

lemma logged (h : DecisionsSound v) (orgId : Uuid) (events : List GovernanceEvent) :
    DecisionsSound (logged orgId events v) :=
  h.frame (fun _ _ => logged_of_ne (by simp)) (fun _ _ => logged_of_ne (by simp))
    fun _ _ _ => logged_of_ne (by simp)

/-- A new subject has no decisions. -/
lemma created {row : SubjectRow k} (h : DecisionsSound v) (hrow : SubjectCreated id row v v')
    (hopened : row.status = .opened) : DecisionsSound v' := by
  have hother : ∀ k' id', GovernanceItem.subject k' id' ≠ .subject k id →
      v' (.subject k' id') = v (.subject k' id') := fun k' id' hne =>
    hrow.frame _ hne (by simp) fun _ _ => by simp
  have hverdict : ∀ k' i, v' (.verdict k' i) = v (.verdict k' i) := fun k' i =>
    hrow.frame _ (by simp) (by simp) fun _ _ => by simp
  have hfinal : ∀ k' o i, v' (.finalVerdict k' o i) = v (.finalVerdict k' o i) := fun k' o i =>
    hrow.frame _ (by simp) (by simp) fun _ _ => by simp
  constructor
  · intro k' orgId subjectId i
    rw [hfinal, hverdict]
    exact h.final k' orgId subjectId i
  · intro k' i x hx
    obtain ⟨row', hrow', hfits⟩ := h.verdict k' i x (hverdict k' i ▸ hx)
    refine ⟨row', ?_, hfits⟩
    rw [hother, hrow']
    intro heq
    cases heq
    exact absurd (hrow'.symm.trans hrow.fresh) nofun
  · intro k' id' row' hrow' hdecided
    rw [hfinal]
    by_cases heq : GovernanceItem.subject k' id' = .subject k id
    · cases heq
      obtain rfl := Option.some.inj (hrow'.symm.trans hrow.after)
      rw [hopened] at hdecided
      cases hdecided
    · exact h.decided k' id' row' (hother k' id' heq ▸ hrow') hdecided

/-- A change of a subject that is no decision. -/
lemma written {row row' : SubjectRow k} (h : DecisionsSound v) (hrow : SubjectWritten id row row' v v')
    (hstatus : row.status.decided = true → row'.status = row.status)
    (hundecided : row'.status.decided = true → row.status.decided = true) : DecisionsSound v' := by
  have hother : ∀ k' id', GovernanceItem.subject k' id' ≠ .subject k id →
      v' (.subject k' id') = v (.subject k' id') := fun k' id' hne =>
    hrow.frame _ hne fun _ _ => by simp
  have hverdict : ∀ k' i, v' (.verdict k' i) = v (.verdict k' i) := fun k' i =>
    hrow.frame _ (by simp) fun _ _ => by simp
  have hfinal : ∀ k' o i, v' (.finalVerdict k' o i) = v (.finalVerdict k' o i) := fun k' o i =>
    hrow.frame _ (by simp) fun _ _ => by simp
  constructor
  · intro k' orgId subjectId i
    rw [hfinal, hverdict]
    exact h.final k' orgId subjectId i
  · intro k' i x hx
    obtain ⟨old, hold, hfits⟩ := h.verdict k' i x (hverdict k' i ▸ hx)
    by_cases heq : GovernanceItem.subject k' x.subjectId = .subject k id
    · cases heq
      obtain rfl := Option.some.inj (hold.symm.trans hrow.before)
      refine ⟨row', hrow.after, hfits.congr hrow.identity fun hx => hstatus ?_⟩
      rw [hfits.status hx, Verdict.decided_status, hx]
    · exact ⟨old, by rw [hother _ _ heq, hold], hfits⟩
  · intro k' id' x hx hdecided
    rw [hfinal]
    by_cases heq : GovernanceItem.subject k' id' = .subject k id
    · cases heq
      obtain rfl := Option.some.inj (hx.symm.trans hrow.after)
      rw [SubjectRow.orgId, hrow.identity]
      exact h.decided _ _ row hrow.before (hundecided hdecided)
    · exact h.decided k' id' x (hother k' id' heq ▸ hx) hdecided

end DecisionsSound

/-! ## Calls on a subject that another one has closed -/

section Calls

variable {ctx : RegulatoryCtx} {row existing : SubjectRow k} {input : VerdictInput}

/-- A submission that commits finds an open row. -/
lemma SubjectRow.Sound.open_of_submitted (h : row.Sound)
    (hchecks : (assignSubmitted ctx existing row).Checks) : row.status.terminal = false :=
  h.open_of hchecks rfl rfl k.submitted_open

/-- A cancellation that commits finds a row that is not decided. -/
lemma SubjectRow.Sound.undecided_of_cancelled {input : CancelInput} (h : row.Sound)
    (hchecks : (assignCancelled ctx input row).Checks) : row.status.decided = false := by
  by_contra hdecided
  have hstays := h.decided_of hchecks rfl (by simpa using hdecided)
  cases hstays

/-- A decision that commits finds an open row. -/
lemma SubjectRow.Sound.open_of_decided (h : row.Sound)
    (hchecks : (assignDecided ctx input row).Checks)
    (hfree : input.verdict.final = true → row.status.decided = false) :
    row.status.terminal = false := by
  by_cases hfinal : input.verdict.final = true
  · by_contra hterminal
    rcases h.terminal_iff.mp (by simpa using hterminal) with hdecided | hcancelled
    · rw [hfree hfinal] at hdecided
      cases hdecided
    · exact input.verdict.status_ne.1 (h.cancelled_of hchecks rfl hcancelled)
  · refine h.open_of hchecks (if_neg hfinal) rfl ?_
    by_contra hterminal
    rcases (GovernanceStatus.terminal_iff _).mp (by simpa using hterminal) with hstatus | hstatus | hstatus
    · exact hfinal ((Verdict.decided_status _).symm.trans hstatus)
    · exact input.verdict.status_ne.1 hstatus
    · exact input.verdict.status_ne.2 hstatus

/-- The deny postures go with one determination. -/
lemma Verdict.confirmed_of {x : Verdict} {p : DenialPosture}
    (hadmits : GovernanceKind.useCase.admitsVerdict x = true) (hposture : x.admitsPosture p = true)
    (hdenies : p.denies = true) : x = .prohibitedConfirmed := by
  revert hadmits hposture hdenies
  cases x <;> cases p <;> decide

/-- A prohibited capability admits the deny postures only. -/
lemma VerdictRow.Checks.confirmed {orgId subjectId : Uuid} {userId : Option Uuid}
    (h : VerdictRow.Checks k ⟨orgId, subjectId, userId, input⟩)
    (hrow : (assignDecided ctx input row).PostureCheck)
    (hprohibited : SubjectDetail.capabilityProhibited row.identity.detail = true) :
    input.verdict = .prohibitedConfirmed := by
  obtain ⟨-, hadmits, -, hposture⟩ := h
  cases k with
  | review => cases hprohibited
  | useCase =>
    obtain ⟨p, hp, hfits⟩ := hposture
    obtain ⟨q, hq, hdenies⟩ := hrow
    have hsame : q = p := by
      have hp : input.denialPosture = some p := hp
      have hq : input.denialPosture.or row.denialPosture = some q := hq
      rw [hp] at hq
      exact (Option.some.inj hq).symm
    exact Verdict.confirmed_of hadmits hfits (hsame ▸ hdenies hprohibited)

/-- The new decision and the new version of its subject. -/
lemma DecisionsSound.decision {verdictId : Uuid} {v₁ : GovernanceDb} (h : DecisionsSound v)
    (hverdict : VerdictInserted k verdictId ⟨ctx.orgId, id, some ctx.userId, input⟩ v v₁)
    (hrow : SubjectWritten id row (assignDecided ctx input row) v₁ v') (horg : row.orgId = ctx.orgId)
    (hduty : k.dutyBound input.verdict = true →
      ¬row.DecidedByRequester ctx.userId input.participantId)
    (hopen : row.status.terminal = false) : DecisionsSound v' := by
  have hsubject : ∀ k' id', GovernanceItem.subject k' id' ≠ .subject k id →
      v' (.subject k' id') = v (.subject k' id') := fun k' id' hne => by
    rw [hrow.frame _ hne fun _ _ => by simp, hverdict.frame _ (by simp) fun _ => by simp]
  have hbefore : v (.subject k id) = some row := by
    rw [← hrow.before, hverdict.frame _ (by simp) fun _ => by simp]
  have hverdicts : ∀ k' i, v' (.verdict k' i) = v₁ (.verdict k' i) := fun k' i =>
    hrow.frame _ (by simp) fun _ _ => by simp
  have hfinals : ∀ k' o i, v' (.finalVerdict k' o i) = v₁ (.finalVerdict k' o i) := fun k' o i =>
    hrow.frame _ (by simp) fun _ _ => by simp
  constructor
  · intro k' orgId subjectId i
    rw [hverdicts, hfinals]
    by_cases hentry : input.verdict.final = true ∧
        GovernanceItem.finalVerdict k' orgId subjectId = .finalVerdict k ctx.orgId id
    · obtain ⟨hfinal, heq⟩ := hentry
      cases heq
      obtain ⟨hfree, hclaimed⟩ := hverdict.claimed hfinal
      rw [hclaimed]
      by_cases hi : i = verdictId
      · subst hi
        rw [hverdict.after]
        exact ⟨fun _ => ⟨_, rfl, rfl, rfl, hfinal⟩, fun _ => rfl⟩
      · rw [hverdict.frame _ (by simpa using hi) fun _ => by simp, ← h.final, hfree]
        simp [Ne.symm hi]
    · have hframe : v₁ (.finalVerdict k' orgId subjectId) = v (.finalVerdict k' orgId subjectId) :=
        hverdict.frame _ (by simp) fun hfinal heq => hentry ⟨hfinal, heq⟩
      rw [hframe, h.final]
      by_cases hi : GovernanceItem.verdict k' i = .verdict k verdictId
      · cases hi
        rw [hverdict.fresh, hverdict.after]
        constructor
        · rintro ⟨_, ⟨⟩, -⟩
        · rintro ⟨_, ⟨⟩, rfl, rfl, hfinal⟩
          exact absurd ⟨hfinal, rfl⟩ hentry
      · rw [hverdict.frame _ hi fun _ => by simp]
  · intro k' i x hx
    rw [hverdicts] at hx
    by_cases hi : GovernanceItem.verdict k' i = .verdict k verdictId
    · cases hi
      obtain rfl := Option.some.inj (hx.symm.trans hverdict.after)
      refine ⟨_, hrow.after, hverdict.checks, horg, fun hx u hu => ?_, fun _ => rfl, fun hx =>
        hverdict.checks.confirmed hrow.checks.posture hx⟩
      obtain rfl := Option.some.inj hu
      exact hduty hx
    · rw [hverdict.frame _ hi fun _ => by simp] at hx
      obtain ⟨old, hold, hfits⟩ := h.verdict k' i x hx
      by_cases heq : GovernanceItem.subject k' x.subjectId = .subject k id
      · cases heq
        obtain rfl := Option.some.inj (hold.symm.trans hbefore)
        refine ⟨_, hrow.after, hfits.congr hrow.identity fun hfinal => ?_⟩
        rw [hfits.status hfinal, GovernanceStatus.terminal_of_decided
          (by rw [Verdict.decided_status, hfinal])] at hopen
        cases hopen
      · exact ⟨old, by rw [hsubject _ _ heq, hold], hfits⟩
  · intro k' id' x hx hdecided
    rw [hfinals]
    by_cases heq : GovernanceItem.subject k' id' = .subject k id
    · cases heq
      obtain rfl := Option.some.inj (hx.symm.trans hrow.after)
      refine ⟨verdictId, ?_⟩
      have hclaimed := (hverdict.claimed ((Verdict.decided_status _).symm.trans hdecided)).2
      rwa [← horg] at hclaimed
    · obtain ⟨i, hi⟩ := h.decided k' id' x (hsubject k' id' heq ▸ hx) hdecided
      refine ⟨i, ?_⟩
      rw [hverdict.frame _ (by simp) fun _ hkey => heq ?_, hi]
      obtain ⟨rfl, -, rfl⟩ := GovernanceItem.finalVerdict.inj hkey
      rfl

end Calls

/-! ## Whole tables -/

/-- What never changes along a run: the identity of a subject, the status of a closed one and the time
of its decision, decisions, and which subject evidence and assignments belong to.  A closed subject gets
no more decisions, and the policy chains only grow. -/
structure Evolves (v v' : GovernanceDb) : Prop where
  subject : ∀ k id (row : SubjectRow k), v (.subject k id) = some row →
    ∃ row' : SubjectRow k, v' (.subject k id) = some row' ∧ row'.identity = row.identity ∧
      (row.status.terminal = true → row'.status = row.status ∧ row'.decidedAt = row.decidedAt)
  verdict : ∀ k id x, v (.verdict k id) = some x → v' (.verdict k id) = some x
  closed : ∀ k id x, v' (.verdict k id) = some x → ∀ row : SubjectRow k,
    v (.subject k x.subjectId) = some row → row.status.terminal = true → v (.verdict k id) = some x
  evidence : ∀ k id x, v (.evidence k id) = some x →
    ∃ x', v' (.evidence k id) = some x' ∧ x'.subjectId = x.subjectId
  assignment : ∀ id x, v (.assignment id) = some x →
    ∃ x', v' (.assignment id) = some x' ∧ x'.subjectId = x.subjectId
  chain : ∀ orgId, v (.chain orgId) <+: v' (.chain orgId)

namespace Evolves

lemma refl (v : GovernanceDb) : Evolves v v :=
  ⟨fun _ _ row h => ⟨row, h, rfl, fun _ => ⟨rfl, rfl⟩⟩, fun _ _ _ h => h, fun _ _ _ h _ _ _ => h,
    fun _ _ x h => ⟨x, h, rfl⟩, fun _ x h => ⟨x, h, rfl⟩, fun _ => List.prefix_rfl⟩

lemma trans {v'' : GovernanceDb} (h : Evolves v v') (h' : Evolves v' v'') : Evolves v v'' := by
  constructor
  · intro k id row hrow
    obtain ⟨row', hrow', hidentity, hstatus⟩ := h.subject k id row hrow
    obtain ⟨row'', hrow'', hidentity', hstatus'⟩ := h'.subject k id row' hrow'
    refine ⟨row'', hrow'', hidentity'.trans hidentity, fun hterminal => ?_⟩
    obtain ⟨hsame, htime⟩ := hstatus hterminal
    obtain ⟨hsame', htime'⟩ := hstatus' (hsame ▸ hterminal)
    exact ⟨hsame'.trans hsame, htime'.trans htime⟩
  · exact fun k id x hx => h'.verdict k id x (h.verdict k id x hx)
  · intro k id x hx row hrow hterminal
    obtain ⟨row', hrow', -, hstatus⟩ := h.subject k x.subjectId row hrow
    exact h.closed k id x (h'.closed k id x hx row' hrow' ((hstatus hterminal).1 ▸ hterminal)) row
      hrow hterminal
  · intro k id x hx
    obtain ⟨x', hx', heq⟩ := h.evidence k id x hx
    obtain ⟨x'', hx'', heq'⟩ := h'.evidence k id x' hx'
    exact ⟨x'', hx'', heq'.trans heq⟩
  · intro id x hx
    obtain ⟨x', hx', heq⟩ := h.assignment id x hx
    obtain ⟨x'', hx'', heq'⟩ := h'.assignment id x' hx'
    exact ⟨x'', hx'', heq'.trans heq⟩
  · exact fun orgId => (h.chain orgId).trans (h'.chain orgId)

lemma logged (orgId : Uuid) (events : List GovernanceEvent) (v : GovernanceDb) :
    Evolves v (logged orgId events v) where
  subject k id row h := ⟨row, by rwa [logged_of_ne (by simp)], rfl, fun _ => ⟨rfl, rfl⟩⟩
  verdict k id x h := by rwa [logged_of_ne (by simp)]
  closed k id x h _ _ _ := by rwa [logged_of_ne (by simp)] at h
  evidence k id x h := ⟨x, by rwa [logged_of_ne (by simp)], rfl⟩
  assignment id x h := ⟨x, by rwa [logged_of_ne (by simp)], rfl⟩
  chain orgId' := by
    by_cases heq : orgId' = orgId
    · subst heq
      rw [logged_self]
      exact List.prefix_append ..
    · rw [logged_of_ne (by simpa using heq)]

lemma created {row : SubjectRow k} (h : SubjectCreated id row v v') : Evolves v v' where
  subject k' id' x hx := by
    refine ⟨x, ?_, rfl, fun _ => ⟨rfl, rfl⟩⟩
    rw [h.frame _ _ (by simp) fun _ _ => by simp, hx]
    intro heq
    cases heq
    exact absurd (hx.symm.trans h.fresh) nofun
  verdict k' i x hx := by rwa [h.frame _ (by simp) (by simp) fun _ _ => by simp]
  closed k' i x hx _ _ _ := by rwa [h.frame _ (by simp) (by simp) fun _ _ => by simp] at hx
  evidence k' i x hx := ⟨x, by rwa [h.frame _ (by simp) (by simp) fun _ _ => by simp], rfl⟩
  assignment i x hx := ⟨x, by rwa [h.frame _ (by simp) (by simp) fun _ _ => by simp], rfl⟩
  chain orgId := by rw [h.frame _ (by simp) (by simp) fun _ _ => by simp]

lemma written {row row' : SubjectRow k} (h : SubjectWritten id row row' v v')
    (hstatus : row.status.terminal = true →
      row'.status = row.status ∧ row'.decidedAt = row.decidedAt) : Evolves v v' where
  subject k' id' x hx := by
    by_cases heq : GovernanceItem.subject k' id' = .subject k id
    · cases heq
      obtain rfl := Option.some.inj (hx.symm.trans h.before)
      exact ⟨row', h.after, h.identity, hstatus⟩
    · exact ⟨x, by rwa [h.frame _ heq fun _ _ => by simp], rfl, fun _ => ⟨rfl, rfl⟩⟩
  verdict k' i x hx := by rwa [h.frame _ (by simp) fun _ _ => by simp]
  closed k' i x hx _ _ _ := by rwa [h.frame _ (by simp) fun _ _ => by simp] at hx
  evidence k' i x hx := ⟨x, by rwa [h.frame _ (by simp) fun _ _ => by simp], rfl⟩
  assignment i x hx := ⟨x, by rwa [h.frame _ (by simp) fun _ _ => by simp], rfl⟩
  chain orgId := by rw [h.frame _ (by simp) fun _ _ => by simp]

lemma inserted {row : VerdictRow} (h : VerdictInserted k id row v v')
    (hopen : ∀ x : SubjectRow k, v (.subject k row.subjectId) = some x → x.status.terminal = false) :
    Evolves v v' where
  subject k' i x hx :=
    ⟨x, by rwa [h.frame _ (by simp) fun _ => by simp], rfl, fun _ => ⟨rfl, rfl⟩⟩
  verdict k' i x hx := by
    rw [h.frame _ _ fun _ => by simp, hx]
    intro heq
    cases heq
    exact absurd (hx.symm.trans h.fresh) nofun
  closed k' i x hx old hold hterminal := by
    by_cases heq : GovernanceItem.verdict k' i = .verdict k id
    · cases heq
      obtain rfl := Option.some.inj (hx.symm.trans h.after)
      rw [hopen old hold] at hterminal
      cases hterminal
    · rwa [h.frame _ heq fun _ => by simp] at hx
  evidence k' i x hx := ⟨x, by rwa [h.frame _ (by simp) fun _ => by simp], rfl⟩
  assignment i x hx := ⟨x, by rwa [h.frame _ (by simp) fun _ => by simp], rfl⟩
  chain orgId := by rw [h.frame _ (by simp) fun _ => by simp]

lemma evidenceWritten {subjectId : Uuid} (h : EvidenceWritten H k id subjectId v v') :
    Evolves v v' where
  subject k' i x hx := ⟨x, by rwa [h.frame _ (by simp) rfl], rfl, fun _ => ⟨rfl, rfl⟩⟩
  verdict k' i x hx := by rwa [h.frame _ (by simp) rfl]
  closed k' i x hx _ _ _ := by rwa [h.frame _ (by simp) rfl] at hx
  evidence k' i x hx := by
    by_cases heq : GovernanceItem.evidence k' i = .evidence k id
    · cases heq
      obtain ⟨row, hrow, ⟨hfresh, -⟩ | ⟨old, hold, hsame, -⟩⟩ := h.after
      · exact absurd (hx.symm.trans hfresh) nofun
      · obtain rfl := Option.some.inj (hx.symm.trans hold)
        exact ⟨row, hrow, hsame⟩
    · exact ⟨x, by rwa [h.frame _ heq rfl], rfl⟩
  assignment i x hx := ⟨x, by rwa [h.frame _ (by simp) rfl], rfl⟩
  chain orgId := by rw [h.frame _ (by simp) rfl]

lemma assignmentWritten {subjectId : Uuid} (h : AssignmentWritten H id subjectId v v') :
    Evolves v v' where
  subject k' i x hx := ⟨x, by rwa [h.frame _ (by simp) rfl], rfl, fun _ => ⟨rfl, rfl⟩⟩
  verdict k' i x hx := by rwa [h.frame _ (by simp) rfl]
  closed k' i x hx _ _ _ := by rwa [h.frame _ (by simp) rfl] at hx
  evidence k' i x hx := ⟨x, by rwa [h.frame _ (by simp) rfl], rfl⟩
  assignment i x hx := by
    by_cases heq : GovernanceItem.assignment i = .assignment id
    · cases heq
      obtain ⟨row, hrow, ⟨hfresh, -⟩ | ⟨old, hold, hsame, -⟩⟩ := h.after
      · exact absurd (hx.symm.trans hfresh) nofun
      · obtain rfl := Option.some.inj (hx.symm.trans hold)
        exact ⟨row, hrow, hsame⟩
    · exact ⟨x, by rwa [h.frame _ heq rfl], rfl⟩
  chain orgId := by rw [h.frame _ (by simp) rfl]

lemma reference {t : ReferenceTable} (row : Option (ReferenceRow t)) :
    Evolves v (Function.update v (.reference t id) row) where
  subject k' i x hx := ⟨x, by rwa [Function.update_of_ne (by simp)], rfl, fun _ => ⟨rfl, rfl⟩⟩
  verdict k' i x hx := by rwa [Function.update_of_ne (by simp)]
  closed k' i x hx _ _ _ := by rwa [Function.update_of_ne (by simp)] at hx
  evidence k' i x hx := ⟨x, by rwa [Function.update_of_ne (by simp)], rfl⟩
  assignment i x hx := ⟨x, by rwa [Function.update_of_ne (by simp)], rfl⟩
  chain orgId := by rw [Function.update_of_ne (by simp)]

end Evolves

/-- A subject that is named as a successor is there, and is of the same tenant. -/
def SuccessorsSound (v : GovernanceDb) : Prop :=
  ∀ k id (row : SubjectRow k), v (.subject k id) = some row → ∀ i ∈ row.supersededById,
    ∃ next : SubjectRow k, v (.subject k i) = some next ∧ next.orgId = row.orgId

/-- A successor that passes the policy is a row of the tenant. -/
lemma exists_of_successorVisible {ctx : RegulatoryCtx} {successor : Option Uuid}
    (h : successorVisible k ctx successor v = true) :
    ∀ i ∈ successor, ∃ next : SubjectRow k, v (.subject k i) = some next ∧
      next.orgId = ctx.orgId := by
  intro i hi
  simp only [successorVisible, decide_eq_true_eq] at h
  obtain ⟨next, hnext⟩ := Option.ne_none_iff_exists'.mp (h i hi)
  obtain ⟨hnext, horg⟩ := Option.filter_eq_some_iff.mp hnext
  exact ⟨next, hnext, of_decide_eq_true horg⟩

/-- Every row keeps the successor of an earlier version, or names one that is there. -/
lemma SuccessorsSound.evolve (h : SuccessorsSound v) (hevolves : Evolves v v')
    (hrows : ∀ k id (row' : SubjectRow k), v' (.subject k id) = some row' →
      (∃ row : SubjectRow k, v (.subject k id) = some row ∧ row.orgId = row'.orgId ∧
        row.supersededById = row'.supersededById) ∨
      ∀ i ∈ row'.supersededById,
        ∃ next : SubjectRow k, v (.subject k i) = some next ∧ next.orgId = row'.orgId) :
    SuccessorsSound v' := by
  intro k id row' hrow' i hi
  obtain ⟨next, hnext, horg⟩ : ∃ next : SubjectRow k, v (.subject k i) = some next ∧
      next.orgId = row'.orgId := by
    rcases hrows k id row' hrow' with ⟨row, hrow, horg, hsame⟩ | hnamed
    · obtain ⟨next, hnext, heq⟩ := h k id row hrow i (hsame ▸ hi)
      exact ⟨next, hnext, heq.trans horg⟩
    · exact hnamed i hi
  obtain ⟨next', hnext', hidentity, -⟩ := hevolves.subject k i next hnext
  exact ⟨next', hnext', by rw [SubjectRow.orgId, hidentity, ← horg]⟩

/-- A change of one subject that keeps its successor. -/
lemma SuccessorsSound.written {row row' : SubjectRow k} (h : SuccessorsSound v)
    (hevolves : Evolves v v') (hbefore : v (.subject k id) = some row)
    (hafter : v' (.subject k id) = some row') (hidentity : row'.identity = row.identity)
    (hsame : row'.supersededById = row.supersededById)
    (hother : ∀ k' id', GovernanceItem.subject k' id' ≠ .subject k id →
      v' (.subject k' id') = v (.subject k' id')) : SuccessorsSound v' := by
  refine h.evolve hevolves fun k' id' x hx => .inl ?_
  by_cases heq : GovernanceItem.subject k' id' = .subject k id
  · cases heq
    obtain rfl := Option.some.inj (hx.symm.trans hafter)
    exact ⟨row, hbefore, by rw [SubjectRow.orgId, SubjectRow.orgId, hidentity], hsame.symm⟩
  · exact ⟨x, hother k' id' heq ▸ hx, rfl, rfl⟩

/-- What leaves the subjects leaves their successors. -/
lemma SuccessorsSound.frame (h : SuccessorsSound v)
    (hsubject : ∀ k id, v' (.subject k id) = v (.subject k id)) : SuccessorsSound v' := by
  intro k id row hrow i hi
  rw [hsubject]
  exact h k id row (hsubject k id ▸ hrow) i hi

lemma SuccessorsSound.logged (h : SuccessorsSound v) (orgId : Uuid) (events : List GovernanceEvent) :
    SuccessorsSound (logged orgId events v) :=
  h.frame fun _ _ => logged_of_ne (by simp)

/-- What holds of every committed state, with `H` the committed states so far. -/
structure GovernanceSound (H : Set GovernanceDb) (v : GovernanceDb) : Prop where
  rows : RowsSound v
  decisions : DecisionsSound v
  successors : SuccessorsSound v
  history : ∀ r ∈ H, Evolves r v

namespace GovernanceSound

variable {ctx : RegulatoryCtx} {row existing : SubjectRow k}

/-- The row that a call has read has the identity of the present one. -/
lemma identity_of_seen (h : GovernanceSound H v) (hseen : Seen H ctx id existing)
    (hrow : v (.subject k id) = some row) : row.identity = existing.identity := by
  obtain ⟨⟨r, hr, hexisting⟩, -⟩ := hseen
  obtain ⟨row', hrow', hidentity, -⟩ :=
    (h.history r hr).subject k id existing (Option.filter_eq_some_iff.mp hexisting).1
  obtain rfl := Option.some.inj (hrow.symm.trans hrow')
  exact hidentity

/-- A decision that commits finds an open row. -/
lemma open_of_decision {verdictId : Uuid} {input : VerdictInput} {v₁ : GovernanceDb}
    (h : GovernanceSound H v)
    (hverdict : VerdictInserted k verdictId ⟨ctx.orgId, id, some ctx.userId, input⟩ v v₁)
    (hbefore : v (.subject k id) = some row) (hchecks : (assignDecided ctx input row).Checks)
    (horg : row.orgId = ctx.orgId) : row.status.terminal = false := by
  refine (h.rows.sound k id row hbefore).open_of_decided hchecks fun hfinal => ?_
  by_contra hdecided
  obtain ⟨i, hi⟩ := h.decisions.decided k id row hbefore (by simpa using hdecided)
  rw [horg] at hi
  exact absurd (hi.symm.trans (hverdict.claimed hfinal).1) nofun

/-- **What one call preserves**, whatever has overlapped with it. -/
theorem effect {out : GovernanceOutcome} (h : GovernanceSound H v)
    (he : GovernanceEffect H v out v') :
    RowsSound v' ∧ DecisionsSound v' ∧ SuccessorsSound v' ∧ Evolves v v' := by
  cases he with
  | @created k id row v₁ hopened hnone hrow =>
    refine ⟨(h.rows.created hrow hopened).logged .., (h.decisions.created hrow hopened).logged ..,
      (h.successors.evolve (.created hrow) fun k' id' x hx => ?_).logged _ _,
      (Evolves.created hrow).trans (.logged ..)⟩
    by_cases heq : GovernanceItem.subject k' id' = .subject k id
    · cases heq
      obtain rfl := Option.some.inj (hx.symm.trans hrow.after)
      exact .inr fun i hi => absurd (hnone.symm.trans hi) nofun
    · rw [hrow.frame _ heq (by simp) fun _ _ => by simp] at hx
      exact .inl ⟨x, hx, rfl, rfl⟩
  | @updated k ctx id patch existing row v₁ _ horg hnext hrow =>
    have hsound := h.rows.sound _ _ _ hrow.before
    have hevolves : Evolves v v₁ := .written hrow fun _ => ⟨rfl, rfl⟩
    refine ⟨(h.rows.written hrow ⟨hrow.checks, hsound.notSuperseded, hsound.decidedAt⟩
      fun hterminal => hterminal).logged .., (h.decisions.written hrow (fun _ => rfl)
      fun hdecided => hdecided).logged .., (h.successors.evolve hevolves fun k' id' x hx => ?_).logged _ _,
      hevolves.trans (.logged ..)⟩
    by_cases heq : GovernanceItem.subject k' id' = .subject k id
    · cases heq
      obtain rfl := Option.some.inj (hx.symm.trans hrow.after)
      refine .inr fun i hi => ?_
      obtain ⟨r, hr, hvisible⟩ := hnext
      obtain ⟨seen, hseen, hseenOrg⟩ := exists_of_successorVisible hvisible i hi
      obtain ⟨next, hnext, hidentity, -⟩ := (h.history r hr).subject k i seen hseen
      refine ⟨next, hnext, ?_⟩
      rw [SubjectRow.orgId, hidentity]
      exact hseenOrg.trans horg.symm
    · exact .inl ⟨x, hrow.frame _ heq (fun _ _ => by simp) ▸ hx, rfl, rfl⟩
  | @submitted k ctx id existing row v₁ hseen _ _ hrow =>
    have hopen := (h.rows.sound _ _ _ hrow.before).open_of_submitted hrow.checks
    have hundecided : k.submitted.decided = false ∧ k.submitted ≠ .superseded := by
      cases k <;> decide
    have hevolves : Evolves v v₁ :=
      .written hrow fun hterminal => absurd (hterminal.symm.trans hopen) nofun
    refine ⟨(h.rows.written hrow ⟨hrow.checks, hundecided.2, fun hdecided => ?_⟩
      fun hterminal => ?_).logged .., (h.decisions.written hrow (fun hdecided => ?_)
      fun hdecided => ?_).logged .., (h.successors.written hevolves hrow.before hrow.after
      hrow.identity rfl fun _ _ hne => hrow.frame _ hne fun _ _ => by simp).logged _ _,
      hevolves.trans (.logged ..)⟩
    · exact absurd (hdecided.symm.trans hundecided.1) nofun
    · exact absurd (hterminal.symm.trans hopen) nofun
    · exact absurd ((GovernanceStatus.terminal_of_decided hdecided).symm.trans hopen) nofun
    · exact absurd (hdecided.symm.trans hundecided.1) nofun
  | @cancelled k ctx id input existing row v₁ hseen _ hrow =>
    have hsound := h.rows.sound _ _ _ hrow.before
    have hundecided := hsound.undecided_of_cancelled hrow.checks
    have hevolves : Evolves v v₁ := .written hrow fun hterminal => by
      rcases hsound.terminal_iff.mp hterminal with hdecided | hcancelled
      · exact absurd (hdecided.symm.trans hundecided) nofun
      · exact ⟨hcancelled.symm, rfl⟩
    refine ⟨(h.rows.written hrow ⟨hrow.checks, nofun, nofun⟩ fun _ => rfl).logged ..,
      (h.decisions.written hrow (fun hdecided => ?_) nofun).logged ..,
      (h.successors.written hevolves hrow.before hrow.after hrow.identity rfl fun _ _ hne =>
        hrow.frame _ hne fun _ _ => by simp).logged _ _, hevolves.trans (.logged ..)⟩
    exact absurd (hdecided.symm.trans hundecided) nofun
  | @decided k ctx id verdictId input existing row v₁ v₂ hseen _ hduty horg hverdict hrow =>
    have hbefore : v (.subject k id) = some row := by
      rw [← hrow.before, hverdict.frame _ (by simp) fun _ => by simp]
    have hopen := h.open_of_decision hverdict hbefore hrow.checks horg
    have hclosed : ∀ x : SubjectRow k, v (.subject k id) = some x → x.status.terminal = false := by
      intro x hx
      obtain rfl := Option.some.inj (hx.symm.trans hbefore)
      exact hopen
    have hrows : RowsSound v₁ := h.rows.frame
      (fun _ _ => hverdict.frame _ (by simp) fun _ => by simp)
      fun _ _ _ => hverdict.frame _ (by simp) fun _ => by simp
    have hduty' : k.dutyBound input.verdict = true →
        ¬row.DecidedByRequester ctx.userId input.participantId := by
      intro hbound
      unfold SubjectRow.DecidedByRequester
      rw [h.identity_of_seen hseen hbefore]
      exact fun hrequester => hduty ⟨hbound, hrequester⟩
    have hevolves : Evolves v v₂ := (Evolves.inserted hverdict hclosed).trans
      (.written hrow fun hterminal => absurd (hterminal.symm.trans hopen) nofun)
    refine ⟨(hrows.written hrow ⟨hrow.checks, input.verdict.status_ne.2, fun hdecided => ?_⟩
      fun hterminal => ?_).logged .., (h.decisions.decision hverdict hrow horg hduty' hopen).logged ..,
      (h.successors.written hevolves hbefore hrow.after hrow.identity rfl fun _ _ hne => ?_).logged _ _,
      hevolves.trans (.logged ..)⟩
    · have hfinal : input.verdict.final = true := (Verdict.decided_status _).symm.trans hdecided
      exact fun hnone => absurd ((if_pos hfinal).symm.trans hnone) nofun
    · exact absurd (hterminal.symm.trans hopen) nofun
    · rw [hrow.frame _ hne fun _ _ => by simp, hverdict.frame _ (by simp) fun _ => by simp]
  | evidence _ _ _ hrow =>
    refine ⟨(h.rows.frame ?_ ?_).logged .., (h.decisions.frame ?_ ?_ ?_).logged ..,
      (h.successors.frame ?_).logged _ _, (Evolves.evidenceWritten hrow).trans (.logged ..)⟩
    all_goals
      intros
      exact hrow.frame _ (by simp) rfl
  | assignment _ _ _ hrow =>
    refine ⟨(h.rows.frame ?_ ?_).logged .., (h.decisions.frame ?_ ?_ ?_).logged ..,
      (h.successors.frame ?_).logged _ _, (Evolves.assignmentWritten hrow).trans (.logged ..)⟩
    all_goals
      intros
      exact hrow.frame _ (by simp) rfl
  | reference =>
    refine ⟨h.rows.frame ?_ ?_, h.decisions.frame ?_ ?_ ?_, h.successors.frame ?_, .reference _⟩
    all_goals
      intros
      exact Function.update_of_ne (by simp) ..

/-- What one call leaves is sound. -/
lemma step {out : GovernanceOutcome} (h : GovernanceSound H v) (he : GovernanceEffect H v out v') :
    GovernanceSound (insert v' H) v' := by
  obtain ⟨hrows, hdecisions, hsuccessors, hevolves⟩ := h.effect he
  refine ⟨hrows, hdecisions, hsuccessors, fun r hr => ?_⟩
  rcases hr with rfl | hr
  · exact .refl _
  · exact (h.history r hr).trans hevolves

end GovernanceSound

/-! ## Runs -/

section Runs

variable {c c' : GovernanceState}

/-- The tables at the start. -/
lemma governanceSound_of_initial {db : GovernanceDb} (h : InitialGovernanceDb db) :
    GovernanceSound {db} db := by
  have hempty : ∀ i, (∀ t id, i ≠ .reference t id) → db i = noGovernance i := fun i hi =>
    (h i).resolve_left fun ⟨t, id, heq⟩ => hi t id heq
  refine ⟨⟨fun k id row hrow => ?_, fun k orgId a id => ?_⟩, ⟨fun k orgId subjectId id => ?_,
    fun k id x hx => ?_, fun k id row hrow => ?_⟩, fun k id row hrow => ?_, fun r hr => ?_⟩
  · rw [hempty _ (by simp)] at hrow
    cases hrow
  · rw [hempty _ (by simp), hempty (.subject k id) (by simp)]
    simp [noGovernance]
  · rw [hempty _ (by simp), hempty (.verdict k id) (by simp)]
    simp [noGovernance]
  · rw [hempty _ (by simp)] at hx
    cases hx
  · rw [hempty _ (by simp)] at hrow
    cases hrow
  · rw [hempty _ (by simp)] at hrow
    cases hrow
  · rw [Set.mem_singleton_iff.mp hr]
    exact .refl _

/-- **Every reachable committed state is sound.** -/
lemma governanceSound_of_reachable (hc : governanceSystem.Reachable c) :
    ∃ H, GovernanceSound H c.committed ∧ c.committed ∈ H :=
  txSystem_invariant (fun _ => governanceSound_of_initial)
    (fun _ _ _ _ _ h _ hp hrun => h.step (hp.effect hrun)) hc

/-- **What one step preserves.** -/
lemma evolves_of_step {a : ℕ × LockAction
      (TxPoint GovernanceItem.Val RegulatoryFailure GovernanceOutcome)}
    (hc : governanceSystem.Reachable c) (h : governanceSystem.step c a c') :
    Evolves c.committed c'.committed := by
  obtain ⟨H, hsound, -, hsame | ⟨p, b, ws, hp, hrun, heq⟩⟩ := txSystem_exec
    (fun _ => governanceSound_of_initial) (fun _ _ _ _ _ h _ hp hrun => h.step (hp.effect hrun)) hc h
  · rw [hsame]
    exact .refl _
  · rw [heq]
    exact (hsound.effect (hp.effect hrun)).2.2.2

/-- What a run preserves. -/
lemma evolves_of_run {as : List (ℕ × LockAction
      (TxPoint GovernanceItem.Val RegulatoryFailure GovernanceOutcome))}
    (hc : governanceSystem.Reachable c) (h : governanceSystem.Run c as c') :
    Evolves c.committed c'.committed :=
  TransitionSystem.Run.relates (R := fun c c' : GovernanceState => Evolves c.committed c'.committed)
    (fun _ => .refl _) (fun _ _ _ => .trans) (fun _ _ _ => evolves_of_step) hc h

end Runs

end GovAI
