import GovAI.Library.KeysetPaging
import GovAI.Workroom.Lifecycle

/-!
# The audit subview of a workroom

`GET /v1/workrooms/:id/audit` pages through the events of the turns of a workroom, from the greatest
sequence number down, and gives the number of the last event of a full page as the cursor of the next.
The events lie on three chains with numbers of their own.  A walk through the pages returns every
event once exactly if no page ends between two events with the same number (`auditWalk_complete_iff`).
-/

namespace GovAI

/-- A row of the join of `workroom_turns` and `audit_events`. -/
structure AuditRow where
  turn : WorkroomTurnRow
  chain : ChainId
  event : ChainEvent
deriving DecidableEq

/-- The event of a turn, by its primary key. -/
def eventOf (db : WorkroomDb) (t : WorkroomTurnRow) : Option AuditRow := do
  let c ← db (.event t.auditEventId)
  let e ← (db (.chain c)).find? fun e => e.id = t.auditEventId
  pure ⟨t, c, e⟩

/-- `workroom_turns wt JOIN audit_events ae ON ae.id = wt.audit_event_id` for a workroom. -/
def auditRows (db : WorkroomDb) (workroomId : Uuid) : List AuditRow :=
  (db (.turns workroomId)).filterMap (eventOf db)

/-- `ORDER BY ae.sequence_number DESC`. -/
def AuditRow.key (r : AuditRow) : ℕᵒᵈ := OrderDual.toDual r.event.sequenceNumber

/-- The cursors that `AuditQuery` accepts: positive safe integers. -/
def acceptedSeq (n : ℕ) : Prop := 1 ≤ n ∧ n ≤ 2 ^ 53 - 1

/-- `next_before_seq`: the number of the last event of a full page. -/
def nextBeforeSeq (limit : ℕ) (page : List AuditRow) : Option ℕ :=
  if page.length = limit then page.getLast?.map fun r => jsNumber r.event.sequenceNumber else none

/-- The rows `WHERE ae.sequence_number < before_seq`, a page at a time. -/
def IsAuditPage (db : WorkroomDb) (workroomId : Uuid) (limit : ℕ) (before : Option ℕ)
    (page : List AuditRow) : Prop :=
  IsPage AuditRow.key (auditRows db workroomId) (before.map OrderDual.toDual) limit page

/-- A client follows `next_before_seq` until it is null (`true`) or refused (`false`). -/
inductive AuditWalk (db : WorkroomDb) (workroomId : Uuid) (limit : ℕ) :
    Option ℕ → List (List AuditRow) → Bool → Prop
  | ended {before : Option ℕ} {page : List AuditRow}
      (h : IsAuditPage db workroomId limit before page) (hnext : nextBeforeSeq limit page = none) :
      AuditWalk db workroomId limit before [page] true
  | refused {before : Option ℕ} {page : List AuditRow} {n : ℕ}
      (h : IsAuditPage db workroomId limit before page) (hnext : nextBeforeSeq limit page = some n)
      (hbad : ¬acceptedSeq n) : AuditWalk db workroomId limit before [page] false
  | next {before : Option ℕ} {page : List AuditRow} {n : ℕ} {pages : List (List AuditRow)} {b : Bool}
      (h : IsAuditPage db workroomId limit before page) (hnext : nextBeforeSeq limit page = some n)
      (hok : acceptedSeq n) (hrest : AuditWalk db workroomId limit (some n) pages b) :
      AuditWalk db workroomId limit before (page :: pages) b

/-- The walk came to its end and returned the event of every turn exactly once. -/
def CompleteWalk (db : WorkroomDb) (workroomId : Uuid) (pages : List (List AuditRow)) (ended : Bool) :
    Prop :=
  ended = true ∧ (pages.flatten.map fun r => r.event.id).Perm
    ((db (.turns workroomId)).map WorkroomTurnRow.auditEventId)

/-- The numbers of the events of a workroom, from the greatest down. -/
def auditKeys (db : WorkroomDb) (workroomId : Uuid) : List ℕᵒᵈ :=
  ((auditRows db workroomId).map AuditRow.key).insertionSort (· ≤ ·)

/-- No page ends between two equal numbers, and the first page does not end with a number that is no
safe integer. -/
def UntornPages (db : WorkroomDb) (workroomId : Uuid) (limit : ℕ) : Prop :=
  PagesSplit limit (auditKeys db workroomId) ∧
    ∀ n, (auditKeys db workroomId)[limit - 1]? = some n → OrderDual.ofDual n < 2 ^ 53

variable {db : WorkroomDb} {w : Uuid} {limit : ℕ} {before : Option ℕ} {page : List AuditRow}
  {pages : List (List AuditRow)} {b : Bool}

/-! ## The join -/

/-- Every turn has its event. -/
lemma eventOf_eq_some (h : Ledger db) {t : WorkroomTurnRow} (ht : t ∈ db (.turns w)) :
    ∃ r, eventOf db t = some r ∧ r.event.id = t.auditEventId := by
  obtain ⟨c, hc⟩ := Option.ne_none_iff_exists'.mp (h.anchored w t ht)
  obtain ⟨e, he, hid⟩ := h.listed _ c hc
  obtain ⟨e', he'⟩ := Option.isSome_iff_exists.mp
    (List.find?_isSome.mpr ⟨e, he, decide_eq_true hid⟩ :
      ((db (.chain c)).find? fun e => e.id = t.auditEventId).isSome = true)
  refine ⟨⟨t, c, e'⟩, ?_, ?_⟩
  · simp [eventOf, hc, he']
  · simpa using List.find?_some he'

/-- The join has one row for every turn. -/
lemma map_auditRows (h : Ledger db) : (auditRows db w).map (fun r => r.event.id) =
    (db (.turns w)).map WorkroomTurnRow.auditEventId := by
  have hall : ∀ ts : List WorkroomTurnRow, (∀ t ∈ ts, t ∈ db (.turns w)) →
      (ts.filterMap (eventOf db)).map (fun r => r.event.id) =
        ts.map WorkroomTurnRow.auditEventId := by
    intro ts hts
    induction ts with
    | nil => rfl
    | cons t ts ih =>
      obtain ⟨r, hr, hid⟩ := eventOf_eq_some h (hts t List.mem_cons_self)
      rw [List.filterMap_cons_some hr, List.map_cons, List.map_cons, hid,
        ih fun t' ht' => hts t' (List.mem_cons_of_mem t ht')]
  exact hall _ fun t ht => ht

/-- The numbers are positive. -/
lemma auditRows_pos (h : Ledger db) {r : AuditRow} (hr : r ∈ auditRows db w) :
    1 ≤ r.event.sequenceNumber := by
  obtain ⟨t, ht, hrow⟩ := List.mem_filterMap.mp hr
  simp only [eventOf, Option.pure_def, Option.bind_eq_bind, Option.bind_eq_some_iff] at hrow
  obtain ⟨c, -, e, he, heq⟩ := hrow
  obtain rfl := Option.some.inj heq
  have hmem : e.sequenceNumber ∈ (db (.chain c)).map ChainEvent.sequenceNumber :=
    List.mem_map_of_mem (List.mem_of_find?_eq_some he)
  rw [h.sequenced c] at hmem
  exact (List.mem_range'_1.mp hmem).1

/-! ## Cursors -/

/-- Which cursors are accepted. -/
lemma acceptedSeq_jsNumber {n : ℕ} (hpos : 1 ≤ n) : acceptedSeq (jsNumber n) ↔ n < 2 ^ 53 := by
  constructor
  · rintro ⟨-, hle⟩
    by_contra hlarge
    have := le_jsNumber (not_lt.mp hlarge)
    omega
  · intro hlt
    rw [jsNumber_eq_self hlt.le]
    exact ⟨hpos, by omega⟩

/-- What the cursor of a page says. -/
lemma nextBeforeSeq_eq_some {n : ℕ} (h : nextBeforeSeq limit page = some n) :
    page.length = limit ∧ ∃ r, page.getLast? = some r ∧ n = jsNumber r.event.sequenceNumber := by
  unfold nextBeforeSeq at h
  split at h
  · next hlength =>
    obtain ⟨r, hr, rfl⟩ := Option.map_eq_some_iff.mp h
    exact ⟨hlength, r, hr, rfl⟩
  · cases h

/-- A page has at most `limit` rows. -/
lemma IsAuditPage.length_le (h : IsAuditPage db w limit before page) : page.length ≤ limit := by
  obtain ⟨sorted, -, -, rfl⟩ := h
  exact List.length_take_le _ _

/-- The page without a cursor is short. -/
lemma IsAuditPage.short (h : IsAuditPage db w limit before page) (hlimit : 0 < limit)
    (hnext : nextBeforeSeq limit page = none) : page.length < limit := by
  refine lt_of_le_of_ne h.length_le fun hlength => ?_
  have hne : page ≠ [] := by
    rintro rfl
    exact hlimit.ne hlength
  rw [nextBeforeSeq, if_pos hlength, List.getLast?_eq_some_getLast hne] at hnext
  cases hnext

/-- A walk that comes to its end is a walk over the table of events. -/
lemma AuditWalk.walk (hledger : Ledger db) (hlimit : 0 < limit)
    (h : AuditWalk db w limit before pages true) :
    Walk AuditRow.key (auditRows db w) limit (before.map OrderDual.toDual) pages := by
  generalize hb : true = b at h
  induction h with
  | ended h hnext => exact .last h (h.short hlimit hnext)
  | refused => cases hb
  | @next before page n pages b h hnext hok hrest ih =>
    obtain ⟨hfull, r, hlast, rfl⟩ := nextBeforeSeq_eq_some hnext
    have hpos := auditRows_pos hledger (h.mem (List.mem_of_getLast? hlast)).1
    have hsafe := (acceptedSeq_jsNumber hpos).mp hok
    have hcursor : (some (jsNumber r.event.sequenceNumber)).map OrderDual.toDual = some r.key := by
      rw [jsNumber_eq_self hsafe.le]
      rfl
    have hrest' := ih hb
    rw [hcursor] at hrest'
    exact .full h hfull hlast hrest'

/-- A walk whose numbers are safe comes to its end. -/
lemma AuditWalk.ended_of_safe (hledger : Ledger db) (h : AuditWalk db w limit before pages b)
    (hsafe : ∀ page r, IsAuditPage db w limit before page → page.length = limit →
      page.getLast? = some r → r.event.sequenceNumber < 2 ^ 53) : b = true := by
  induction h with
  | ended => rfl
  | refused h hnext hbad =>
    obtain ⟨hfull, r, hlast, rfl⟩ := nextBeforeSeq_eq_some hnext
    have hpos := auditRows_pos hledger (h.mem (List.mem_of_getLast? hlast)).1
    exact absurd ((acceptedSeq_jsNumber hpos).mpr (hsafe _ r h hfull hlast)) hbad
  | @next before page n pages b h hnext hok hrest ih =>
    refine ih fun page' r' h' _ hlast' => ?_
    -- The rows of the next page lie below the accepted cursor.
    have hbelow := (h'.mem (List.mem_of_getLast? hlast')).2 (OrderDual.toDual n) rfl
    have hlt : r'.event.sequenceNumber < n := hbelow
    have := hok.2
    omega

/-! ## Complete walks -/

lemma rowsAfter_none (rows : List AuditRow) : rowsAfter AuditRow.key rows none = rows :=
  List.filter_eq_self.mpr fun r _ => by simp

lemma auditKeys_sorted (db : WorkroomDb) (w : Uuid) : (auditKeys db w).Pairwise (· ≤ ·) :=
  List.pairwise_insertionSort _ _

lemma auditKeys_perm (db : WorkroomDb) (w : Uuid) :
    (auditKeys db w).Perm ((auditRows db w).map AuditRow.key) :=
  List.perm_insertionSort _ _

/-- The number at which the first page ends. -/
lemma IsAuditPage.first_key (h : IsAuditPage db w limit none page) (hlimit : 0 < limit) :
    (auditKeys db w)[limit - 1]? =
      if page.length = limit then page.getLast?.map AuditRow.key else none := by
  obtain ⟨sorted, hperm, hsorted, rfl⟩ := h
  rw [Option.map_none, rowsAfter_none] at hperm
  have hkeys : auditKeys db w = sorted.map AuditRow.key :=
    ((auditKeys_perm db w).trans (hperm.symm.map _)).eq_of_pairwise (fun a b _ _ => le_antisymm)
      (auditKeys_sorted db w) (List.pairwise_map.mpr hsorted)
  rw [hkeys, List.getElem?_map, List.length_take]
  split
  · next hlength =>
    rw [List.getLast?_eq_getElem?, List.length_take, hlength, List.getElem?_take,
      if_pos (by omega)]
  · next hlength =>
    rw [List.getElem?_eq_none (by omega)]
    rfl

/-- A complete walk returns the table. -/
lemma AuditWalk.perm_of_complete (hledger : Ledger db) (hlimit : 0 < limit)
    (h : AuditWalk db w limit none pages b) (hcomplete : CompleteWalk db w pages b) :
    pages.flatten.Perm (auditRows db w) := by
  obtain ⟨rfl, hids⟩ := hcomplete
  have hsub := (h.walk hledger hlimit).subperm
  rw [Option.map_none, rowsAfter_none] at hsub
  refine hsub.perm_of_length_le ?_
  rw [← map_auditRows hledger] at hids
  have hlength := hids.length_eq
  rw [List.length_map, List.length_map] at hlength
  exact hlength.ge

/-- The walk from the first page is complete exactly for untorn pages. -/
lemma AuditWalk.complete_iff (hledger : Ledger db) (hlimit : 0 < limit)
    (h : AuditWalk db w limit none pages b) :
    CompleteWalk db w pages b ↔ UntornPages db w limit := by
  have hkeys : (auditKeys db w).Perm ((rowsAfter AuditRow.key (auditRows db w)
      ((none : Option ℕ).map OrderDual.toDual)).map AuditRow.key) := by
    rw [Option.map_none, rowsAfter_none]
    exact auditKeys_perm db w
  constructor
  · intro hcomplete
    have hperm := h.perm_of_complete hledger hlimit hcomplete
    obtain ⟨rfl, -⟩ := hcomplete
    refine ⟨?_, fun n hn => ?_⟩
    · refine ((h.walk hledger hlimit).perm_iff hlimit hkeys (auditKeys_sorted db w)).mp ?_
      rwa [Option.map_none, rowsAfter_none]
    · cases h with
      | ended h hnext =>
        rw [h.first_key hlimit, if_neg (h.short hlimit hnext).ne] at hn
        cases hn
      | next h hnext hok =>
        obtain ⟨hfull, r, hlast, rfl⟩ := nextBeforeSeq_eq_some hnext
        have hpos := auditRows_pos hledger (h.mem (List.mem_of_getLast? hlast)).1
        rw [h.first_key hlimit, if_pos hfull, hlast] at hn
        obtain rfl := Option.some.inj hn
        exact (acceptedSeq_jsNumber hpos).mp hok
  · rintro ⟨hsplit, hsafe⟩
    have hended : b = true := by
      refine h.ended_of_safe hledger fun page r hpage hfull hlast => hsafe r.key ?_
      rw [hpage.first_key hlimit, if_pos hfull, hlast]
      rfl
    subst hended
    have hperm := ((h.walk hledger hlimit).perm_iff hlimit hkeys (auditKeys_sorted db w)).mpr hsplit
    rw [Option.map_none, rowsAfter_none] at hperm
    refine ⟨rfl, ?_⟩
    rw [← map_auditRows hledger]
    exact hperm.map _

/-- A client can always walk. -/
lemma exists_auditWalk (hledger : Ledger db) (hlimit : 0 < limit) (before : Option ℕ) :
    ∃ pages b, AuditWalk db w limit before pages b := by
  generalize hn : (rowsAfter AuditRow.key (auditRows db w) (before.map OrderDual.toDual)).length = n
  induction n using Nat.strong_induction_on generalizing before with
  | _ n ih =>
    obtain ⟨page, hpage⟩ :=
      exists_isPage AuditRow.key (auditRows db w) (before.map OrderDual.toDual) limit
    cases hnext : nextBeforeSeq limit page with
    | none => exact ⟨_, _, .ended hpage hnext⟩
    | some m =>
      by_cases hok : acceptedSeq m
      · obtain ⟨hfull, r, hlast, rfl⟩ := nextBeforeSeq_eq_some hnext
        obtain ⟨hrow, -⟩ := hpage.mem (List.mem_of_getLast? hlast)
        have hsafe := (acceptedSeq_jsNumber (auditRows_pos hledger hrow)).mp hok
        obtain ⟨rest, hperm, -, hrest⟩ := hpage.rest hlast
        -- The full page is not among the rows after its last one.
        have hlt : (rowsAfter AuditRow.key (auditRows db w) ((some
            (jsNumber r.event.sequenceNumber)).map OrderDual.toDual)).length < n := by
          have hcursor : (some (jsNumber r.event.sequenceNumber)).map OrderDual.toDual =
              some r.key := by
            rw [jsNumber_eq_self hsafe.le]
            rfl
          have hlength := hperm.length_eq
          rw [List.length_append] at hlength
          have hfilter := List.length_filter_le (fun r' => r.key < r'.key) rest
          have := hrest.length_eq
          rw [hcursor]
          omega
        obtain ⟨pages, b, hwalk⟩ := ih _ hlt _ rfl
        exact ⟨_, _, .next hpage hnext hok hwalk⟩
      · exact ⟨_, _, .refused hpage hnext hok⟩

/-! ## Reachable states -/

/-- The ledger of a reachable state. -/
lemma ledger_of_reachable {sha256 : Bytes → Bytes}
    {c : LockState WorkroomDb WorkroomItem (TxPoint WorkroomItem.Val String Unit) TxId}
    (hc : (workroomSystem sha256).Reachable c) : Ledger c.committed := by
  obtain ⟨H, h, -⟩ := txSystem_invariant (I := ApprovalHistory)
    (fun s hs => approvals_of_initial hs) (fun H s p b ws h _ hp hrun => h.exec hp hrun) hc
  exact h.1.1

/-- **The audit subview.**  In every reachable state, for every workroom and every page size that the
route accepts, there is a walk through the pages, and a walk returns the event of every turn exactly
once if and only if no page ends between two events with the same number. -/
theorem auditWalk_complete_iff {sha256 : Bytes → Bytes}
    {c : LockState WorkroomDb WorkroomItem (TxPoint WorkroomItem.Val String Unit) TxId}
    (hc : (workroomSystem sha256).Reachable c) (w : Uuid) {limit : ℕ}
    (hlimit : 1 ≤ limit ∧ limit ≤ 200) :
    (∃ pages b, AuditWalk c.committed w limit none pages b) ∧
      ∀ pages b, AuditWalk c.committed w limit none pages b →
        (CompleteWalk c.committed w pages b ↔ UntornPages c.committed w limit) :=
  ⟨exists_auditWalk (ledger_of_reachable hc) hlimit.1 none,
    fun _ _ h => h.complete_iff (ledger_of_reachable hc) hlimit.1⟩

/-- The workroom of two users: its two turns lie on two chains, each as the first event. -/
lemma sampleWorkroom_keys :
    auditKeys (serialRun sampleWorkroom emptyWorkroomDb) (workroomUuid 10) =
      [OrderDual.toDual 1, OrderDual.toDual 1] := by
  decide +kernel

lemma reachable_sampleWorkroom :
    (workroomSystem fun _ => []).Reachable
      ⟨serialRun sampleWorkroom emptyWorkroomDb, fun _ => none⟩ :=
  reachable_serialRun 0 reachable_emptyWorkroomDb (by
    simp only [sampleWorkroom, List.forall_mem_cons, List.not_mem_nil, false_imp_iff, implies_true,
      and_true]
    exact ⟨.createWorkroom .., .addParticipant ..⟩)

/-- With pages of 50 both are returned. -/
theorem auditWalk_complete_sample :
    ∃ pages, AuditWalk (serialRun sampleWorkroom emptyWorkroomDb) (workroomUuid 10) 50 none pages true ∧
      CompleteWalk (serialRun sampleWorkroom emptyWorkroomDb) (workroomUuid 10) pages true := by
  obtain ⟨⟨pages, b, hwalk⟩, hiff⟩ :=
    auditWalk_complete_iff reachable_sampleWorkroom (workroomUuid 10) (show 1 ≤ 50 ∧ 50 ≤ 200 by decide)
  have huntorn : UntornPages (serialRun sampleWorkroom emptyWorkroomDb) (workroomUuid 10) 50 := by
    rw [UntornPages, sampleWorkroom_keys]
    refine ⟨fun k hk i j _ hj => ?_, nofun⟩
    obtain ⟨hlt, -⟩ := List.getElem?_eq_some_iff.mp hj
    simp only [List.length_cons, List.length_nil] at hlt
    omega
  have hcomplete := (hiff pages b hwalk).mpr huntorn
  have hended := hcomplete.1
  subst hended
  exact ⟨pages, hwalk, hcomplete⟩

/-- With pages of one event the walk stops after the first: the second event has the same number. -/
theorem auditWalk_not_complete :
    ¬∀ (c : LockState WorkroomDb WorkroomItem (TxPoint WorkroomItem.Val String Unit) TxId) (w : Uuid)
      (limit : ℕ) (pages : List (List AuditRow)) (b : Bool), (workroomSystem fun _ => []).Reachable c →
      1 ≤ limit ∧ limit ≤ 200 → AuditWalk c.committed w limit none pages b →
      CompleteWalk c.committed w pages b := by
  intro hclaim
  have hledger := ledger_of_reachable reachable_sampleWorkroom
  obtain ⟨pages, b, hwalk⟩ := exists_auditWalk (w := workroomUuid 10) hledger one_pos none
  have hcomplete := hclaim _ _ 1 pages b reachable_sampleWorkroom (by decide) hwalk
  obtain ⟨hsplit, -⟩ := (hwalk.complete_iff hledger one_pos).mp hcomplete
  rw [sampleWorkroom_keys] at hsplit
  exact lt_irrefl _ (hsplit 1 one_pos _ _ rfl rfl)

end GovAI
