import GovAI.Library.CommitCondition
import GovAI.Regulatory.Schema

/-!
# The registry of regulatory sources

`createSource` and `updateSource` check a rule on the dates of a source.  An update checks the rule on
the row that it has read, with the given columns replaced, and then writes the given columns only.  Two
updates that overlap may therefore leave dates together that neither of them has seen:
`source_dates_overlap` is such a run, and `source_dates_consistent` says that there is no other way to
break the rule.
-/

namespace GovAI

open TxProgram Function
open scoped OptionConditions

/-! ## Rows -/

/-- The columns that the rule on dates reads: days since 1970, milliseconds since then, and text. -/
structure SourceDates where
  publicationDate : Option ℤ
  effectiveDate : Option ℤ
  nextReviewAt : Option ℤ
  notes : Option String
deriving DecidableEq

/-- The columns of texts and enumerations that no rule reads. -/
inductive SourceColumn where
  | title
  | jurisdiction
  | authority
  | instrumentType
  | sourceQuality
  | verificationStatus
  | legalStatus
  | officialUrl
  | reviewFrequency
  | legalOwner
  | productOwner
  | metadata
deriving DecidableEq

/-- `SourceRow`.  A row of the system has no organisation. -/
structure SourceRow where
  orgId : Option Uuid
  sourceKey : String
  dates : SourceDates
  column : SourceColumn → Option String
  lastVerifiedAt : Option ℤ
  createdByUserId : Option Uuid
  updatedByUserId : Option Uuid

/-- The events that are appended for a source to the policy chain of its tenant. -/
inductive SourceEvent where
  | created (id : Uuid) (row : SourceRow)
  | updated (id : Uuid) (row : SourceRow)

/-- The items of the store: a row, an entry of `regulatory_sources_tenant_key_uq`, and a chain. -/
inductive SourceItem where
  | source (id : Uuid)
  | key (orgId : Uuid) (sourceKey : String)
  | chain (orgId : Uuid)
deriving DecidableEq

/-- What an item holds. -/
abbrev SourceItem.Val : SourceItem → Type
  | source _ => Option SourceRow
  | key _ _ => Option Uuid
  | chain _ => List SourceEvent

/-- The tables of the registry. -/
abbrev SourceDb : Type := Store SourceItem.Val

/-- A transaction over these tables. -/
abbrev SourceTx (α : Type) : Type := TxProgram SourceItem.Val RegulatoryFailure α

/-! ## The rule on dates -/

/-- `parseDay`: the first millisecond of a day. -/
def parseDay (day : ℤ) : ℤ := day * 86400000

/-- The notes justify an effective date before the publication. -/
def SourceDates.Justified (d : SourceDates) : Prop := ∃ n ∈ d.notes, 0 < n.length

instance (d : SourceDates) : Decidable d.Justified := by
  unfold SourceDates.Justified
  infer_instance

/-- The effective date precedes the publication date. -/
def SourceDates.Early (d : SourceDates) : Prop :=
  ∃ pub ∈ d.publicationDate, ∃ eff ∈ d.effectiveDate, parseDay eff < parseDay pub

instance (d : SourceDates) : Decidable d.Early := by
  unfold SourceDates.Early
  infer_instance

/-- The next review is not after the publication. -/
def SourceDates.ReviewedEarly (d : SourceDates) : Prop :=
  ∃ review ∈ d.nextReviewAt, ∃ pub ∈ d.publicationDate, review ≤ parseDay pub

instance (d : SourceDates) : Decidable d.ReviewedEarly := by
  unfold SourceDates.ReviewedEarly
  infer_instance

/-- `validateSourceDates`. -/
def validateSourceDates (d : SourceDates) : Except RegulatoryFailure Unit := do
  rejectIf (d.Early ∧ ¬d.Justified) (.regulatory 400 "effective_date_before_publication_date")
  rejectIf d.ReviewedEarly (.regulatory 400 "next_review_at_not_after_publication_date")

/-- The rule: the effective date is not before the publication date unless there are notes, and the
next review is after it. -/
structure SourceDates.Consistent (d : SourceDates) : Prop where
  effective : ∀ pub ∈ d.publicationDate, ∀ eff ∈ d.effectiveDate, eff < pub → d.Justified
  review : ∀ pub ∈ d.publicationDate, ∀ review ∈ d.nextReviewAt, parseDay pub < review

/-- The check enforces the rule. -/
lemma validateSourceDates_eq_ok {d : SourceDates} {u : Unit} :
    validateSourceDates d = .ok u ↔ d.Consistent := by
  simp only [validateSourceDates, except_bind_eq_ok_iff, rejectIf_eq_ok_iff]
  constructor
  · rintro ⟨_, heffective, hreview⟩
    refine ⟨fun pub hpub eff heff hlt => ?_, fun pub hpub review hr => ?_⟩
    · by_contra hnotes
      refine heffective ⟨⟨pub, hpub, eff, heff, ?_⟩, hnotes⟩
      unfold parseDay
      omega
    · by_contra hle
      exact hreview ⟨review, hr, pub, hpub, not_lt.mp hle⟩
  · intro h
    refine ⟨(), ?_, ?_⟩
    · rintro ⟨⟨pub, hpub, eff, heff, hlt⟩, hnotes⟩
      refine hnotes (h.effective pub hpub eff heff ?_)
      unfold parseDay at hlt
      omega
    · rintro ⟨review, hr, pub, hpub, hle⟩
      exact absurd (h.review pub hpub review hr) (not_lt.mpr hle)

/-! ## Calls -/

/-- `CreateSourceInput`. -/
structure CreateSourceInput where
  sourceKey : String
  dates : SourceDates
  column : SourceColumn → Option String
  lastVerifiedAt : Option ℤ

/-- `UpdateSourceInput`: a field that is absent, `null` or a value. -/
structure UpdateSourceInput where
  publicationDate : Option (Option ℤ)
  effectiveDate : Option (Option ℤ)
  nextReviewAt : Option (Option ℤ)
  notes : Option (Option String)
  column : SourceColumn → Option (Option String)
  lastVerifiedAt : Option (Option ℤ)

/-- The dates with the provided ones in place of the existing ones. -/
def UpdateSourceInput.merge (input : UpdateSourceInput) (existing : SourceDates) : SourceDates :=
  ⟨input.publicationDate.getD existing.publicationDate,
    input.effectiveDate.getD existing.effectiveDate,
    input.nextReviewAt.getD existing.nextReviewAt, input.notes.getD existing.notes⟩

/-- The row with the given columns replaced. -/
def UpdateSourceInput.assign (input : UpdateSourceInput) (ctx : RegulatoryCtx) (row : SourceRow) :
    SourceRow :=
  { row with
    dates := input.merge row.dates
    column := fun c => (input.column c).getD (row.column c)
    lastVerifiedAt := input.lastVerifiedAt.getD row.lastVerifiedAt
    updatedByUserId := some ctx.userId }

/-- What a call has done: a new row, or an update of a row that it had read before. -/
inductive SourceOutcome where
  | created (id : Uuid) (row : SourceRow)
  | updated (id : Uuid) (input : UpdateSourceInput) (existing row : SourceRow)

/-- `appendAudit`, on the policy chain of the tenant. -/
def appendSourceAudit (ctx : RegulatoryCtx) (event : SourceEvent) : SourceTx Unit := do
  let events ← lockItem (SourceItem.chain ctx.orgId)
  set (SourceItem.chain ctx.orgId) (events ++ [event])

/-- The row that `createSource` inserts. -/
def newSource (ctx : RegulatoryCtx) (input : CreateSourceInput) : SourceRow :=
  ⟨some ctx.orgId, input.sourceKey, input.dates, input.column, input.lastVerifiedAt,
    some ctx.userId, some ctx.userId⟩

/-- `createSource`; `id` is the `gen_random_uuid()` of the row. -/
def createSource (ctx : RegulatoryCtx) (id : Uuid) (input : CreateSourceInput) :
    SourceTx SourceOutcome := do
  ofExcept (validateSourceDates input.dates)
  let existing ← lockItem (SourceItem.source id)
  failIf (existing.isSome = true) (.regulatory 409 "source_key_conflict")
  let owner ← lockItem (SourceItem.key ctx.orgId input.sourceKey)
  failIf (owner.isSome = true) (.regulatory 409 "source_key_conflict")
  set (SourceItem.key ctx.orgId input.sourceKey) (some id)
  set (SourceItem.source id) (some (newSource ctx input))
  appendSourceAudit ctx (.created id (newSource ctx input))
  pure (.created id (newSource ctx input))

/-- `getVisibleSource`, under the policy that shows the rows of the system and of the tenant. -/
def getVisibleSource (ctx : RegulatoryCtx) (id : Uuid) (db : SourceDb) : Option SourceRow :=
  (db (.source id)).filter fun row => row.orgId = none ∨ row.orgId = some ctx.orgId

/-- `updateSource` after its first read. -/
def updateSourceSeen (ctx : RegulatoryCtx) (id : Uuid) (input : UpdateSourceInput)
    (visible : Option SourceRow) : SourceTx SourceOutcome := do
  let existing ← orFail (.regulatory 404 "source_not_found") visible
  failIf (existing.orgId ≠ some ctx.orgId) (.regulatory 403 "cannot_modify_non_tenant_source")
  ofExcept (validateSourceDates (input.merge existing.dates))
  let current ← lockItem (SourceItem.source id)
  let row ← orFail (.regulatory 404 "source_not_found")
    (current.filter fun row => row.orgId = some ctx.orgId)
  set (SourceItem.source id) (some (input.assign ctx row))
  appendSourceAudit ctx (.updated id (input.assign ctx row))
  pure (.updated id input existing (input.assign ctx row))

/-- `updateSource`. -/
def updateSource (ctx : RegulatoryCtx) (id : Uuid) (input : UpdateSourceInput) :
    SourceTx SourceOutcome := do
  let visible ← read (getVisibleSource ctx id)
  updateSourceSeen ctx id input visible

/-- The transactions on the registry. -/
inductive SourceProgram : SourceTx SourceOutcome → Prop
  | createSource (ctx : RegulatoryCtx) (id : Uuid) (input : CreateSourceInput) :
      SourceProgram (createSource ctx id input)
  | updateSource (ctx : RegulatoryCtx) (id : Uuid) (input : UpdateSourceInput) :
      SourceProgram (updateSource ctx id input)

/-- All interleavings of these calls, from tables whose sources keep the rule (the migrations insert
none). -/
abbrev sourceSystem : TransitionSystem
    (LockState SourceDb SourceItem (TxPoint SourceItem.Val RegulatoryFailure SourceOutcome) ℕ)
    (ℕ × LockAction (TxPoint SourceItem.Val RegulatoryFailure SourceOutcome)) :=
  txSystem ℕ (fun db => ∀ id row, db (.source id) = some row → row.dates.Consistent) SourceProgram

/-! ## What a call does -/

section Calls

variable {H : Set SourceDb} {s : SourceDb} {ws ws' : Pending SourceItem.Val} {ctx : RegulatoryCtx}
  {id : Uuid} {out : SourceOutcome}

/-- `createSource` leaves a row with the given dates, which keep the rule. -/
lemma createSource_spec {input : CreateSourceInput}
    (hrun : Exec H s (createSource ctx id input) [] out ws) :
    input.dates.Consistent ∧ ∀ id', ws.apply s (.source id') =
      if id' = id then some (newSource ctx input) else s (.source id') := by
  simp only [createSource, appendSourceAudit, exec_bind, exec_ofExcept, exec_lockItem, exec_failIf,
    exec_set, exec_pure] at hrun
  obtain ⟨_, _, ⟨hdates, rfl⟩, _, _, ⟨rfl, rfl⟩, _, _, ⟨-, rfl⟩, _, _, ⟨rfl, rfl⟩, _, _, ⟨-, rfl⟩, _, _,
    rfl, _, _, rfl, _, _, ⟨_, _, ⟨rfl, rfl⟩, rfl⟩, rfl, rfl⟩ := hrun
  refine ⟨validateSourceDates_eq_ok.mp hdates, fun id' => ?_⟩
  by_cases hid : id' = id
  · subst hid
    simp [Pending.apply]
  · simp [Pending.apply, hid]

/-- `updateSource` has read dates that keep the rule with the given ones in place, and replaces the
given columns of the present row. -/
lemma updateSource_spec {input : UpdateSourceInput}
    (hrun : Exec H s (updateSource ctx id input) [] out ws) :
    ∃ existing row, out = .updated id input existing (input.assign ctx row) ∧
      (input.merge existing.dates).Consistent ∧ s (.source id) = some row ∧
      ∀ id', ws.apply s (.source id') =
        if id' = id then some (input.assign ctx row) else s (.source id') := by
  simp only [updateSource, updateSourceSeen, appendSourceAudit, exec_bind, exec_read, exec_ofExcept,
    exec_orFail, exec_lockItem, exec_failIf, exec_set, exec_pure] at hrun
  obtain ⟨_, _, ⟨-, rfl⟩, existing, _, ⟨-, rfl⟩, _, _, ⟨-, rfl⟩, _, _, ⟨hdates, rfl⟩, _, _, ⟨rfl, rfl⟩,
    row, _, ⟨hrow, rfl⟩, _, _, rfl, _, _, ⟨_, _, ⟨rfl, rfl⟩, rfl⟩, rfl, rfl⟩ := hrun
  refine ⟨existing, row, rfl, validateSourceDates_eq_ok.mp hdates,
    (Option.filter_eq_some_iff.mp hrow).1, fun id' => ?_⟩
  by_cases hid : id' = id
  · subst hid
    simp [Pending.apply]
  · simp [Pending.apply, hid]

end Calls

/-! ## Overlapping updates -/

/-- An update that gives no column of the rule, or finds those that it does not give as it has read
them. -/
def UpdateSourceInput.Undisturbed (input : UpdateSourceInput) (existing present : SourceDates) : Prop :=
  (input.publicationDate = none ∧ input.effectiveDate = none ∧ input.nextReviewAt = none ∧
      input.notes = none) ∨
    ((input.publicationDate = none → present.publicationDate = existing.publicationDate) ∧
      (input.effectiveDate = none → present.effectiveDate = existing.effectiveDate) ∧
      (input.nextReviewAt = none → present.nextReviewAt = existing.nextReviewAt) ∧
      (input.notes = none → present.notes = existing.notes))

/-- No update commits that another one has disturbed since it has read the row. -/
def SourceOutcome.Undisturbed : SourceOutcome → SourceDb → Prop
  | created _ _, _ => True
  | updated id input existing _, db =>
    ∀ row, db (.source id) = some row → input.Undisturbed existing.dates row.dates

/-- The given value, or one of two that agree when there is none. -/
lemma getD_congr {α : Type} {o : Option α} {a b : α} (h : o = none → a = b) : o.getD a = o.getD b := by
  cases o with
  | none => exact h rfl
  | some c => rfl

/-- An undisturbed update keeps the rule. -/
lemma UpdateSourceInput.Undisturbed.consistent {input : UpdateSourceInput}
    {existing present : SourceDates} (h : input.Undisturbed existing present)
    (hread : (input.merge existing).Consistent) (hpresent : present.Consistent) :
    (input.merge present).Consistent := by
  rcases h with ⟨hpub, heff, hreview, hnotes⟩ | ⟨hpub, heff, hreview, hnotes⟩
  · have hsame : input.merge present = present := by
      simp [UpdateSourceInput.merge, hpub, heff, hreview, hnotes]
    rwa [hsame]
  · have hsame : input.merge present = input.merge existing := by
      rw [UpdateSourceInput.merge, UpdateSourceInput.merge, getD_congr hpub, getD_congr heff,
        getD_congr hreview, getD_congr hnotes]
    rwa [hsame]

/-- **The dates of the sources stay consistent** in every run whose updates, when they commit, still
find the columns of the rule that they do not give as they have read them. -/
theorem source_dates_consistent
    {c : LockState SourceDb SourceItem (TxPoint SourceItem.Val RegulatoryFailure SourceOutcome) ℕ}
    (hc : (sourceSystem.restrict (CommitsMeet SourceOutcome.Undisturbed)).Reachable c) (id : Uuid)
    (row : SourceRow) (hrow : c.committed (.source id) = some row) : row.dates.Consistent := by
  have hexec : ∀ (H : Set SourceDb) s p out ws,
      (∀ id row, s (.source id) = some row → row.dates.Consistent) → s ∈ H → SourceProgram p →
      SourceOutcome.Undisturbed out s → Exec H s p [] out ws →
      ∀ id row, ws.apply s (.source id) = some row → row.dates.Consistent := by
    intro H s p out ws hI _ hp hmeet hrun id' row' hrow'
    cases hp with
    | createSource ctx id input =>
      obtain ⟨hdates, hspec⟩ := createSource_spec hrun
      rw [hspec] at hrow'
      split at hrow'
      · rw [← Option.some.inj hrow']
        exact hdates
      · exact hI id' row' hrow'
    | updateSource ctx id input =>
      obtain ⟨existing, present, rfl, hread, hpresent, hspec⟩ := updateSource_spec hrun
      rw [hspec] at hrow'
      split at hrow'
      · rw [← Option.some.inj hrow']
        exact (hmeet present hpresent).consistent hread (hI id present hpresent)
      · exact hI id' row' hrow'
  obtain ⟨-, hdates, -⟩ := txSystem_invariant_of_commits
    (I := fun _ (db : SourceDb) => ∀ id row, db (.source id) = some row → row.dates.Consistent)
    (fun _ hs => hs) hexec hc
  exact hdates id row hrow

/-! ## A run that breaks the rule -/

/-- An empty registry. -/
def noSources : SourceDb
  | .source _ => none
  | .key _ _ => none
  | .chain _ => []

/-- The tenant of the samples. -/
def sourceCtx : RegulatoryCtx := ⟨1, 2, 0⟩

/-- A source that was published on day 10 and is effective from day 20. -/
def sampleSource : CreateSourceInput := ⟨"SRC", ⟨some 10, some 20, none, none⟩, fun _ => none, none⟩

/-- An update of the effective date alone. -/
def sampleEffective : UpdateSourceInput := ⟨none, some (some 15), none, none, fun _ => none, none⟩

/-- An update of the publication date alone. -/
def samplePublication : UpdateSourceInput := ⟨some (some 18), none, none, none, fun _ => none, none⟩

/-- The registry with the sample source. -/
def sampleRegistry : SourceDb := serialRun [createSource sourceCtx 3 sampleSource] noSources

/-- The empty registry keeps the rule. -/
lemma reachable_noSources {C : SourceOutcome → SourceDb → Prop} :
    (sourceSystem.restrict (CommitsMeet C)).Reachable ⟨noSources, fun _ => none⟩ :=
  .init ⟨fun _ _ h => absurd h (by simp [noSources]), fun _ => rfl⟩

/-- The sample source keeps the rule after an update of its effective date. -/
theorem source_dates_consistent_sample : ∃ (db : SourceDb) (row : SourceRow),
    db (.source 3) = some row ∧ row.dates = ⟨some 10, some 15, none, none⟩ ∧
      row.dates.Consistent := by
  have hc : (sourceSystem.restrict (CommitsMeet SourceOutcome.Undisturbed)).Reachable
      ⟨serialRun [createSource sourceCtx 3 sampleSource, updateSource sourceCtx 3 sampleEffective]
        noSources, fun _ => none⟩ := by
    refine reachable_serialRun_of_commits 0 reachable_noSources ?_ ?_
    · intro p hp
      rcases List.mem_pair.mp hp with rfl | rfl
      · exact .createSource ..
      · exact .updateSource ..
    · refine ⟨trivial, ?_, trivial⟩
      rintro row ⟨⟩
      exact .inr ⟨fun _ => rfl, nofun, fun _ => rfl, fun _ => rfl⟩
  obtain ⟨row, hrow, hdates⟩ : ∃ row : SourceRow, serialRun [createSource sourceCtx 3 sampleSource,
      updateSource sourceCtx 3 sampleEffective] noSources (.source 3) = some row ∧
      row.dates = ⟨some 10, some 15, none, none⟩ :=
    Option.map_eq_some_iff.mp (by decide +kernel)
  exact ⟨_, row, hrow, hdates, source_dates_consistent hc 3 row hrow⟩

/-- **Two updates that overlap break the rule**: on the sample source, the publication moves to day 18
while another update, which has read day 10, sets the effective date to day 15. -/
theorem source_dates_overlap :
    ¬∀ c : LockState SourceDb SourceItem
        (TxPoint SourceItem.Val RegulatoryFailure SourceOutcome) ℕ,
      sourceSystem.Reachable c → ∀ id row, c.committed (.source id) = some row →
        row.dates.Consistent := by
  intro h
  have hc : sourceSystem.Reachable ⟨sampleRegistry, fun _ => none⟩ := by
    refine reachable_serialRun 0 (reachable_noSources (C := fun _ _ => True)).of_restrict ?_
    intro p hp
    rw [List.mem_singleton.mp hp]
    exact .createSource ..
  obtain ⟨s, hs, hcheck⟩ : ∃ s : SourceDb, sourceSystem.Reachable ⟨s, fun _ => none⟩ ∧
      decide ((s (.source 3)).map SourceRow.dates = some ⟨some 18, some 15, none, none⟩) = true :=
    reachable_of_overlapCheck (t := 0) (u := 1) (by decide) hc
    (SourceProgram.updateSource sourceCtx 3 sampleEffective)
    (SourceProgram.updateSource sourceCtx 3 samplePublication) (by decide +kernel)
  obtain ⟨row, hrow, hdates⟩ := Option.map_eq_some_iff.mp (of_decide_eq_true hcheck)
  have hconsistent := (h _ hs 3 row hrow).effective
  rw [hdates] at hconsistent
  obtain ⟨n, hn, -⟩ := hconsistent 18 rfl 15 rfl (by decide)
  cases hn

end GovAI
