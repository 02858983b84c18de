import GovAI.Paging.ListedRows
import GovAI.Workroom.Schema
import Mathlib.Data.PNat.Basic

/-!
# The lists of workrooms and of the regulatory registers

`GET /v1/workrooms/:id/runs` of `workroom-runs.ts`, `GET /v1/workrooms/:id/approvals` of
`workroom-approvals.ts`, and the lists of `regulatory/service.ts` that are built on `applyCursor` and
`nextCursorFrom`.  A page holds the newest rows before a cursor, and its cursor is the
`(created_at, id)` of its last row.  The column has microseconds and the cursor has milliseconds:
rows of the millisecond in which a page ends are lost.  A client reads every row exactly once if and
only if no page ends so (`list_paging_exact_iff`).
-/

namespace GovAI

/-! ## Cursors -/

/-- `next_cursor`: `before_created_at`, the text of a `Date` and so in milliseconds, and
`before_id`. -/
structure ListCursor where
  beforeCreatedAt : ℤ
  beforeId : Uuid
deriving DecidableEq

/-- The `Date` that the driver makes of a `timestamptz`, in milliseconds: what is below is dropped.
`toISOString` prints all of it. -/
def timestamptzDate (createdAt : ℤ) : ℤ := createdAt / 1000

/-- The microseconds of `$n::timestamptz` for the text of a `Date`. -/
def dateTimestamptz (date : ℤ) : ℤ := 1000 * date

/-- The cursor of a row. -/
def listCursorOf {ρ : Type} [ListedRow ρ] (r : ρ) : ListCursor where
  beforeCreatedAt := timestamptzDate (ListedRow.listedAt r)
  beforeId := ListedRow.id r

section Pages

variable {ρ : Type} [ListedRow ρ]

/-- The place of a cursor in a list. -/
def ListCursor.key (c : ListCursor) : (ℤ ×ₗ ℕ)ᵒᵈ :=
  OrderDual.toDual (toLex (dateTimestamptz c.beforeCreatedAt, c.beforeId.toNat))

/-- `applyCursor`, and the same condition of the two routes:
`created_at < $ts OR (created_at = $ts AND id < $id)`. -/
def BeforeCursor (c : ListCursor) (r : ρ) : Prop :=
  ListedRow.listedAt r < dateTimestamptz c.beforeCreatedAt ∨
    ListedRow.listedAt r = dateTimestamptz c.beforeCreatedAt ∧ ListedRow.id r < c.beforeId

instance (c : ListCursor) (r : ρ) : Decidable (BeforeCursor c r) :=
  inferInstanceAs (Decidable (_ ∨ _))

/-- `SELECT … WHERE … ORDER BY created_at DESC, id DESC LIMIT $n`. -/
def ListedTable.selectPage (table : ListedTable ρ) (matches? : ρ → Bool)
    (cursor : Option ListCursor) (limit : ℕ+) : List ρ :=
  ((table.rows.filter fun r => matches? r ∧ ∀ c ∈ cursor, BeforeCursor c r).insertionSort
    (listKey · ≤ listKey ·)).take limit

/-- `nextCursorFrom`: the cursor of the last row of a full page. -/
def nextCursorFrom (rows : List ρ) (limit : ℕ+) : Option ListCursor :=
  if rows.length = limit then rows.getLast?.map listCursorOf else none

/-- What the lists of `regulatory/service.ts` share: the page under their conditions `matches?`. -/
def regulatoryList (table : ListedTable ρ) (matches? : ρ → Bool) (limit : ℕ+)
    (cursor : Option ListCursor) : List ρ × Option ListCursor :=
  let rows := table.selectPage matches? cursor limit
  (rows, nextCursorFrom rows limit)

end Pages

/-! ## The runs of a workroom -/

/-- The values of `runs.status`. -/
inductive ListedRunStatus where
  | queued
  | running
  | completed
  | failed
  | denied
  | outcomeUnknown
  | awaitingApproval
deriving DecidableEq

/-- The values of `runs.mode`. -/
inductive ListedRunMode where
  | governed
  | passthrough
  | shadow
deriving DecidableEq

/-- A row of `runs`, as far as the list reads it.  The join adds at most one turn to a run: a run has
one `run_event` turn at most. -/
structure ListedRun where
  id : Uuid
  workroomId : Option Uuid
  workroomTaskId : Option Uuid
  status : ListedRunStatus
  mode : ListedRunMode
  createdAt : ℤ
deriving DecidableEq

instance : ListedRow ListedRun where
  listedAt := ListedRun.createdAt
  id := ListedRun.id

/-- `ListRunsQuery`; its cursor has both fields or none. -/
structure ListRunsQuery where
  status : Option ListedRunStatus := none
  mode : Option ListedRunMode := none
  workroomTaskId : Option Uuid := none
  limit : ℕ+ := 50

/-- The conditions of the query of the runs. -/
def ListRunsQuery.selects (query : ListRunsQuery) (workroomId : Uuid) (r : ListedRun) : Bool :=
  r.workroomId = some workroomId ∧ query.status.all (r.status = ·) ∧ query.mode.all (r.mode = ·) ∧
    query.workroomTaskId.all fun t => r.workroomTaskId = some t

/-- `GET /v1/workrooms/:id/runs`: `runs` and `next_cursor`. -/
def listWorkroomRuns (table : ListedTable ListedRun) (workroomId : Uuid) (query : ListRunsQuery)
    (cursor : Option ListCursor) : List ListedRun × Option ListCursor :=
  let runs := table.selectPage (query.selects workroomId) cursor query.limit
  (runs, nextCursorFrom runs query.limit)

/-! ## The approval requests of a workroom -/

/-- A row of `workroom_approval_requests`, as far as the list reads it.  Its subject kind is always
`passthrough_run`. -/
structure ListedApproval where
  id : Uuid
  workroomId : Uuid
  status : ApprovalStatus
  expiresAt : Option ℤ
  createdAt : ℤ
deriving DecidableEq

instance : ListedRow ListedApproval where
  listedAt := ListedApproval.createdAt
  id := ListedApproval.id

/-- `ListApprovalsQuery`. -/
structure ListApprovalsQuery where
  status : Option ApprovalStatus := none
  limit : ℕ+ := 50

/-- The condition on the status: a pending request that is past `expires_at` counts as expired. -/
def ApprovalStatus.selects (status : ApprovalStatus) (now : ℤ) (r : ListedApproval) : Bool :=
  match status with
  | .expired => r.status = .expired ∨ r.status = .pending ∧ r.expiresAt.any (· ≤ now)
  | .pending => r.status = .pending ∧ r.expiresAt.all (now < ·)
  | status => r.status = status

/-- The conditions of the query of the approval requests. -/
def ListApprovalsQuery.selects (query : ListApprovalsQuery) (workroomId : Uuid) (now : ℤ)
    (r : ListedApproval) : Bool :=
  r.workroomId = workroomId ∧ query.status.all fun s => s.selects now r

/-- `GET /v1/workrooms/:id/approvals`: `approvals` and `next_cursor`. -/
def listWorkroomApprovals (table : ListedTable ListedApproval) (workroomId : Uuid) (now : ℤ)
    (query : ListApprovalsQuery) (cursor : Option ListCursor) :
    List ListedApproval × Option ListCursor :=
  let approvals := table.selectPage (query.selects workroomId now) cursor query.limit
  (approvals, nextCursorFrom approvals query.limit)

/-! ## The pages of a client -/

section Visits

variable {ρ : Type} [ListedRow ρ] {table : ListedTable ρ} {matches? : ρ → Bool} {limit : ℕ+}

/-- A client that follows `next_cursor` until it is null has read every row of a condition exactly
once, the newest first. -/
def VisitsOnce (request : Option ListCursor → List ρ × Option ListCursor) (table : ListedTable ρ)
    (matches? : ρ → Bool) : Prop :=
  ∃ fuel visited, followPages (fun cursor => some (request cursor)) fuel none = some visited ∧
    visited.Perm (table.rows.filter matches?) ∧ visited.Pairwise NewerFirst

/-- No page ends in the middle of a millisecond: the row after the last one of a page was created in
an earlier millisecond, or exactly at the start of that of the last row and with a smaller `id`. -/
def PagesEndApart (limit : ℕ+) (rows : List ρ) : Prop :=
  ∀ k : ℕ, 0 < k → ∀ r r', rows[k * limit - 1]? = some r → rows[k * limit]? = some r' →
    timestamptzDate (ListedRow.listedAt r') < timestamptzDate (ListedRow.listedAt r) ∨
      ListedRow.listedAt r' = dateTimestamptz (timestamptzDate (ListedRow.listedAt r)) ∧
        ListedRow.id r' < ListedRow.id r

lemma ListCursor.key_lt_iff {c : ListCursor} {r : ρ} : c.key < listKey r ↔ BeforeCursor c r := by
  rw [ListCursor.key, listKey, OrderDual.toDual_lt_toDual, Prod.Lex.toLex_lt_toLex]
  rfl

/-- The cursor of a row is at its place or after it: dropping microseconds never goes up. -/
lemma listKey_le_cursor (r : ρ) : listKey r ≤ (listCursorOf r).key := by
  rw [listKey, ListCursor.key, OrderDual.toDual_le_toDual, Prod.Lex.toLex_le_toLex]
  change 1000 * (ListedRow.listedAt r / 1000) < ListedRow.listedAt r ∨
    1000 * (ListedRow.listedAt r / 1000) = ListedRow.listedAt r ∧ _
  rcases (Int.mul_ediv_self_le (by decide : (1000 : ℤ) ≠ 0) :
    1000 * (ListedRow.listedAt r / 1000) ≤ ListedRow.listedAt r).lt_or_eq with h | h
  · exact .inl h
  · exact .inr ⟨h, le_rfl⟩

/-- What the cursor of a row selects, as the clock of the cursor tells it. -/
lemma beforeCursor_listCursorOf {r r' : ρ} : BeforeCursor (listCursorOf r) r' ↔
    timestamptzDate (ListedRow.listedAt r') < timestamptzDate (ListedRow.listedAt r) ∨
      ListedRow.listedAt r' = dateTimestamptz (timestamptzDate (ListedRow.listedAt r)) ∧
        ListedRow.id r' < ListedRow.id r := by
  refine or_congr ?_ Iff.rfl
  simp only [listCursorOf, dateTimestamptz, timestamptzDate]
  omega

/-- A page is the first rows, in the order of the list, of those after the cursor. -/
lemma ListedTable.selectPage_eq (table : ListedTable ρ) (matches? : ρ → Bool)
    (cursor : Option ListCursor) (limit : ℕ+) :
    table.selectPage matches? cursor limit =
      (rowsAfter listKey (table.inOrder matches?) (cursor.map ListCursor.key)).take limit := by
  have hafter : ∀ r : ρ, (∀ c ∈ cursor, BeforeCursor c r) ↔
      ∀ k ∈ cursor.map ListCursor.key, k < listKey r := by
    intro r
    cases cursor with
    | none => simp
    | some c => simp [ListCursor.key_lt_iff]
  rw [ListedTable.selectPage, table.sort_filter_eq matches? hafter]

/-- An answer of a list. -/
lemma ListedTable.isAnswer (table : ListedTable ρ) (matches? : ρ → Bool)
    (cursor : Option ListCursor) (limit : ℕ+) :
    IsAnswer listCursorOf limit
      (rowsAfter listKey (table.inOrder matches?) (cursor.map ListCursor.key))
      (table.selectPage matches? cursor limit,
        nextCursorFrom (table.selectPage matches? cursor limit) limit) := by
  rw [table.selectPage_eq]
  generalize rowsAfter listKey (table.inOrder matches?) (cursor.map ListCursor.key) = remaining
  have hlimit := limit.pos
  constructor
  · rfl
  · intro hnone
    by_contra hlong
    have hlength : (remaining.take limit).length = limit := by
      rw [List.length_take]
      omega
    have hnil : remaining.take limit = [] := by
      rwa [nextCursorFrom, if_pos hlength, Option.map_eq_none_iff, List.getLast?_eq_none_iff] at hnone
    rw [hnil, List.length_nil] at hlength
    omega
  · intro c hc
    unfold nextCursorFrom at hc
    split at hc
    · rename_i hlength
      refine ⟨?_, hc⟩
      rw [List.length_take] at hlength
      omega
    · cases hc

/-- **One list.** A client that follows the cursors of a list reads every row once if and only if no
page ends in the middle of a millisecond. -/
lemma visitsOnce_iff {request : Option ListCursor → List ρ × Option ListCursor}
    (hrequest : ∀ cursor, request cursor = regulatoryList table matches? limit cursor) :
    VisitsOnce request table matches? ↔ PagesEndApart limit (table.inOrder matches?) := by
  have hsorted := table.inOrder_pairwise matches?
  have hfollow : (∃ fuel, followPages (fun cursor => some (request cursor)) fuel none =
      some (table.inOrder matches?)) ↔
        CursorsSelect listKey ListCursor.key listCursorOf limit (table.inOrder matches?) := by
    refine followPages_iff (fun r _ => listKey_le_cursor r) (fun cursor _ => ⟨_, rfl, ?_⟩) limit.pos
      hsorted
    rw [hrequest]
    exact table.isAnswer matches? cursor limit
  have hselect : CursorsSelect listKey ListCursor.key (listCursorOf : ρ → ListCursor) limit
      (table.inOrder matches?) ↔ PagesEndApart limit (table.inOrder matches?) := by
    refine forall_congr' fun k => forall_congr' fun _ => forall_congr' fun r =>
      forall_congr' fun r' => forall_congr' fun _ => forall_congr' fun _ => ?_
    rw [ListCursor.key_lt_iff, beforeCursor_listCursorOf]
  rw [← hselect, ← hfollow]
  constructor
  · rintro ⟨fuel, visited, hvisited, hrows⟩
    exact ⟨fuel, hvisited.trans (congrArg some ((table.eq_inOrder_iff matches?).mp hrows))⟩
  · rintro ⟨fuel, hfuel⟩
    exact ⟨fuel, _, hfuel, (table.eq_inOrder_iff matches?).mpr rfl⟩

end Visits

/-- **The lists.** On every table, for every filter and limit, a client that follows `next_cursor`
reads every matching run, approval request or row of a regulatory list exactly once, the newest
first, if and only if no page ends in the middle of a millisecond. -/
theorem list_paging_exact_iff {ρ : Type} [ListedRow ρ] (runs : ListedTable ListedRun)
    (approvals : ListedTable ListedApproval) (table : ListedTable ρ) (workroomId : Uuid) (now : ℤ)
    (runsQuery : ListRunsQuery) (approvalsQuery : ListApprovalsQuery) (matches? : ρ → Bool)
    (limit : ℕ+) :
    (VisitsOnce (listWorkroomRuns runs workroomId runsQuery) runs (runsQuery.selects workroomId) ↔
      PagesEndApart runsQuery.limit (runs.inOrder (runsQuery.selects workroomId))) ∧
    (VisitsOnce (listWorkroomApprovals approvals workroomId now approvalsQuery) approvals
        (approvalsQuery.selects workroomId now) ↔
      PagesEndApart approvalsQuery.limit
        (approvals.inOrder (approvalsQuery.selects workroomId now))) ∧
    (VisitsOnce (regulatoryList table matches? limit) table matches? ↔
      PagesEndApart limit (table.inOrder matches?)) := by
  refine ⟨?_, ?_, ?_⟩
  · exact visitsOnce_iff fun _ => rfl
  · exact visitsOnce_iff fun _ => rfl
  · exact visitsOnce_iff fun _ => rfl

/-- Two runs that were created in one millisecond. -/
def sampleListedRuns : ListedTable ListedRun where
  rows := [⟨1, some 7, none, .completed, .governed, 1700000000123456⟩,
    ⟨2, some 7, none, .completed, .governed, 1700000000123789⟩]
  ids_nodup := by decide

/-- A client with pages of one run never reads the older run: the cursor of the newer one stands for
the start of their millisecond. -/
theorem older_run_never_listed :
    followPages (fun cursor => some (listWorkroomRuns sampleListedRuns 7 { limit := 1 } cursor)) 2
        none = some [⟨2, some 7, none, .completed, .governed, 1700000000123789⟩] ∧
      ¬VisitsOnce (listWorkroomRuns sampleListedRuns 7 { limit := 1 }) sampleListedRuns
        (ListRunsQuery.selects { limit := 1 } 7) := by
  refine ⟨by decide +kernel, fun h => ?_⟩
  have hpages := (visitsOnce_iff fun _ => rfl).mp h
  have hsecond := hpages 1 one_pos ⟨2, some 7, none, .completed, .governed, 1700000000123789⟩
    ⟨1, some 7, none, .completed, .governed, 1700000000123456⟩ (by decide +kernel)
    (by decide +kernel)
  revert hsecond
  decide

end GovAI
