import GovAI.Audit.AppendSystem
import GovAI.Audit.Verify

/-!
# Integrity of the audit chain under concurrency

The invariant of `appendSystem`: the rows of every chain, committed or not, are linked; only the
holder of the chain's advisory lock has uncommitted rows in it, and they stand behind the committed
ones; every row is the image of the fields that were signed.

The check of `audit_append_locked` under the lock is what carries the step: at the point `inserting`
the transaction holds the lock of the chain, and the row it is about to insert continues the rows it
sees.  Rows of another organisation are invisible to it; there the unique index on
`(chain_id, sequence_number)` refuses the row.
-/

namespace GovAI

/-! ## Rows and the fields they were signed with -/

/-- The fields of a stored row.  A `uuid` column has lost the spelling of the text it was given as
(letter case, hyphens), so the two identifiers the caller spells are arguments. -/
def EventRow.fields (r : EventRow) (idText subjectText : String) : EventFields where
  eventId := idText
  orgId := r.orgId.toText
  chainId := r.chainId
  sequenceNumber := r.sequenceNumber
  previousHmac := r.previousHmac
  eventType := r.eventType
  eventVersion := r.eventVersion
  subjectType := r.subjectType
  subjectId := subjectText
  occurredAt := r.occurredAt
  payloadHash := r.payloadHash
  payloadRef := r.payloadRef.map Uuid.toText
  keyId := r.keyId
  keyVersion := r.keyVersion
  evidenceStrength := r.evidenceStrength
  redactionMetadata := r.redactionMetadata

/-- The canonical bytes of a row are those of its own fields, with its two identifiers in some
spelling of the column's value. -/
def CanonicalOf (r : EventRow) : Prop :=
  ∃ idText subjectText, uuidIn idText = some r.id ∧ uuidIn subjectText = some r.subjectId ∧
    (r.fields idText subjectText).canonicalBytes = .ok r.canonicalBytes

/-- The canonical bytes, the hash and the tag of a row are those of its own fields. -/
def OwnFields (crypto : Crypto) (r : EventRow) : Prop := CanonicalOf r ∧ Authentic crypto r

/-! ## What the computations of `auditAppend` establish -/

/-- The fields an SQL call was signed with. -/
def AppendCall.fields (call : AppendCall) : EventFields where
  eventId := call.eventId
  orgId := call.orgId
  chainId := call.chainId
  sequenceNumber := call.expectedSequence
  previousHmac := call.expectedPrevHmac
  eventType := call.eventType
  eventVersion := call.eventVersion
  subjectType := call.subjectType
  subjectId := call.subjectId
  occurredAt := call.occurredAt
  payloadHash := call.payloadHash
  payloadRef := call.payloadId.map Uuid.toText
  keyId := call.keyId
  keyVersion := call.keyVersion
  evidenceStrength := call.evidenceStrength
  redactionMetadata := call.redactionMetadata

/-- A call whose bytes, hash, tag and lock key were computed from its other arguments. -/
structure SignedCall (crypto : Crypto) (call : AppendCall) : Prop where
  canonicalBytes : call.fields.canonicalBytes = .ok call.canonicalBytes
  canonicalHash : crypto.sha256 call.canonicalBytes = call.canonicalHash
  hmac : hmacSign ⟨crypto.kms, call.orgId, call.keyId, call.keyVersion⟩ call.canonicalBytes =
    call.hmac
  lockKey : call.chainLockKey = chainLockKey crypto call.chainId

/-- The argument checks bind the session to the organisation of the input. -/
lemma session_of_checkAppendInput {session : Option String} {input : AuditAppendInput}
    (h : checkAppendInput session input = .ok ()) : session = some input.orgId := by
  simp only [checkAppendInput, except_bind_eq_ok_iff, rejectIf_eq_ok_iff, not_or, not_not] at h
  obtain ⟨_, ⟨-, hsession⟩, -⟩ := h
  exact hsession

/-- Signing produces a signed call for the organisation of the input. -/
lemma signedCall_of_signAppend {crypto : Crypto} {input : AuditAppendInput}
    {prevHmac : Option Bytes} {nextSeq : ℤ} {eventId payloadId : Uuid} {call : AppendCall}
    (h : signAppend crypto input prevHmac nextSeq eventId payloadId = .ok call) :
    SignedCall crypto call ∧ call.orgId = input.orgId := by
  simp only [signAppend, except_bind_eq_ok_iff, except_pure_eq_ok_iff] at h
  obtain ⟨bytes, hbytes, rfl⟩ := h
  exact ⟨⟨hbytes, rfl, rfl, rfl⟩, rfl⟩

/-- A successful cast is a parsed identifier. -/
@[simp] lemma castUuid_eq_ok_iff {text : String} {u : Uuid} :
    castUuid text = .ok u ↔ uuidIn text = some u := by
  unfold castUuid
  cases uuidIn text <;> simp

/-- What a successful run of `audit_append_locked` has checked, and what it inserts. -/
lemma row_of_auditAppendLocked {session : Option String} {call : AppendCall}
    {head : Option EventRow} {row : EventRow} {payload : Option PayloadRow}
    (h : auditAppendLocked session call head = .ok (row, payload)) :
    ∃ id orgId subjectId, uuidIn call.eventId = some id ∧ uuidIn call.subjectId = some subjectId ∧
      session = some orgId.toText ∧ head.map EventRow.hmac = call.expectedPrevHmac ∧
      nextSequence head = call.expectedSequence ∧ row = call.row id orgId subjectId := by
  simp only [auditAppendLocked, checkAppendCall, checkAppendHead, except_bind_eq_ok_iff,
    castUuid_eq_ok_iff, rejectIf_eq_ok_iff, except_pure_eq_ok_iff, Prod.mk.injEq, not_or,
    not_not] at h
  obtain ⟨id, hid, orgId, -, subjectId, hsubject, -, -, -, -, -, ⟨-, ⟨-, hsession⟩, -⟩, -,
    ⟨-, hprev, hseq⟩, hrow, -⟩ := h
  exact ⟨id, orgId, subjectId, hid, hsubject, hsession, hprev, hseq, hrow.symm⟩

/-- Storing the redaction metadata keeps the canonical bytes. -/
lemma canonicalBytes_stored {e : EventFields} {bytes : Bytes} (h : e.canonicalBytes = .ok bytes) :
    { e with redactionMetadata := e.redactionMetadata.stored }.canonicalBytes = .ok bytes := by
  simp only [EventFields.canonicalBytes, EventFields.canonical, EventFields.toJson,
    except_map_eq_ok_iff, except_bind_eq_ok_iff] at h ⊢
  obtain ⟨text, ⟨date, hdate, htext⟩, hbytes⟩ := h
  exact ⟨text, ⟨date, hdate, canonicalize_obj_concat_stored htext⟩, hbytes⟩

/-- The row that is inserted for a signed call is the image of its own fields. -/
lemma ownFields_row {crypto : Crypto} {call : AppendCall} (hcall : SignedCall crypto call)
    {id orgId subjectId : Uuid} (hid : uuidIn call.eventId = some id)
    (hsubject : uuidIn call.subjectId = some subjectId) (horg : orgId.toText = call.orgId) :
    OwnFields crypto (call.row id orgId subjectId) := by
  refine ⟨⟨call.eventId, call.subjectId, hid, hsubject, ?_⟩, hcall.canonicalHash, ?_⟩
  · have h := canonicalBytes_stored hcall.canonicalBytes
    rw [AppendCall.fields, ← horg] at h
    exact h
  · have h := hcall.hmac
    rw [← horg] at h
    exact h

/-! ## The invariant -/

/-- The versions of the rows of one chain. -/
def AppendState.versions (s : AppendState) (chainId : String) : List (Version TxId EventRow) :=
  Version.select (fun r => r.chainId = chainId) s.events

/-- What holds of a transaction at each program point. -/
def PointOk (crypto : Crypto) (s : AppendState) (t : TxId) : AppendPoint → Prop
  | .waiting input | .locked input | .fresh input | .headRead input _ _ =>
      s.session t = some input.orgId
  | .calling call => SignedCall crypto call ∧ s.session t = some call.orgId
  | .inserting row _ =>
      OwnFields crypto row ∧ s.session t = some row.orgId.toText ∧
        s.lockOwner (chainLockKey crypto row.chainId) = some t ∧
        (s.head t row.chainId).map EventRow.hmac = row.previousHmac ∧
        nextSequence (s.head t row.chainId) = row.sequenceNumber
  | .closed | .idle | .aborted => True

/-- The invariant of the concurrent appends. -/
structure AppendInv (crypto : Crypto) (s : AppendState) : Prop where
  /-- The rows of every chain are linked. -/
  linked : ∀ c, LinkedRows (Version.rows (s.versions c))
  /-- Only the holder of a chain's lock has uncommitted rows in it, behind the committed ones. -/
  owned : ∀ c, Version.OwnedTail (s.lockOwner (chainLockKey crypto c)) (s.versions c)
  /-- Every row is the image of its own fields. -/
  ownFields : ∀ v ∈ s.events, OwnFields crypto v.row
  /-- A chain belongs to one organisation. -/
  oneOrg : ∀ v ∈ s.events, ∀ w ∈ s.events, v.row.chainId = w.row.chainId →
    v.row.orgId.toText = w.row.orgId.toText
  /-- Every transaction is where it may be. -/
  pointOk : ∀ t, PointOk crypto s t (s.point t)

/-- The rows of a chain that a transaction sees are those of the chain's versions. -/
lemma chainRows_visibleEvents (s : AppendState) (t : TxId) (c : String) :
    chainRows c (s.visibleEvents t) =
      (Version.visible t (s.versions c)).filter fun r => some r.orgId.toText = s.session t := by
  rw [AppendState.versions, Version.visible_select, chainRows, AppendState.visibleEvents,
    List.filter_filter, List.filter_filter]
  exact List.filter_congr fun r _ => Bool.and_comm _ _

/-- The head a transaction reads depends on its session and on the versions of the chain. -/
lemma head_congr {s s' : AppendState} {t : TxId} {c : String}
    (hsession : s'.session t = s.session t) (hversions : s'.versions c = s.versions c) :
    s'.head t c = s.head t c := by
  rw [AppendState.head, AppendState.head, chainRows_visibleEvents, chainRows_visibleEvents,
    hsession, hversions]

/-- What holds of a transaction survives every change that leaves its session alone, and leaves its
locks and the chains under them alone. -/
lemma PointOk.congr {crypto : Crypto} {s s' : AppendState} {t : TxId} {p : AppendPoint}
    (h : PointOk crypto s t p) (hsession : s'.session t = s.session t)
    (hlock : ∀ c, s.lockOwner (chainLockKey crypto c) = some t →
      s'.lockOwner (chainLockKey crypto c) = some t ∧ s'.versions c = s.versions c) :
    PointOk crypto s' t p := by
  cases p with
  | inserting row payload =>
    obtain ⟨hown, hs, hl, hprev, hseq⟩ := h
    obtain ⟨hl', hv⟩ := hlock row.chainId hl
    have hhead := head_congr hsession hv
    exact ⟨hown, hsession.trans hs, hl', by rw [hhead]; exact hprev, by rw [hhead]; exact hseq⟩
  | calling call => exact ⟨h.1, hsession.trans h.2⟩
  | waiting input => exact hsession.trans h
  | locked input => exact hsession.trans h
  | fresh input => exact hsession.trans h
  | headRead input prevHmac nextSeq => exact hsession.trans h
  | closed => trivial
  | idle => trivial
  | aborted => trivial

/-! ## What each kind of step preserves -/

/-- Moving to a program point that may be reached keeps the invariant. -/
lemma AppendInv.goto {crypto : Crypto} {s : AppendState} (h : AppendInv crypto s) {t : TxId}
    {p : AppendPoint} (hp : PointOk crypto s t p) : AppendInv crypto (s.goto t p) where
  linked := h.linked
  owned := h.owned
  ownFields := h.ownFields
  oneOrg := h.oneOrg
  pointOk u := by
    by_cases hu : u = t
    · subst hu
      have : PointOk crypto (s.goto u p) u p := hp.congr rfl fun c hc => ⟨hc, rfl⟩
      simpa [AppendState.goto] using this
    · have : PointOk crypto (s.goto t p) u (s.point u) :=
        (h.pointOk u).congr rfl fun c hc => ⟨hc, rfl⟩
      simpa [AppendState.goto, Function.update_of_ne hu] using this

/-- Opening a transaction keeps the invariant. -/
lemma AppendInv.begin {crypto : Crypto} {s : AppendState} (h : AppendInv crypto s) {t : TxId}
    (ht : s.point t = .closed) (org : Option String) :
    AppendInv crypto { s with session := Function.update s.session t org } where
  linked := h.linked
  owned := h.owned
  ownFields := h.ownFields
  oneOrg := h.oneOrg
  pointOk u := by
    by_cases hu : u = t
    · subst hu
      change PointOk crypto _ u (s.point u)
      rw [ht]
      trivial
    · exact (h.pointOk u).congr (by simp [Function.update_of_ne hu]) fun c hc => ⟨hc, rfl⟩

/-- A free lock, or one the transaction already holds, may be taken. -/
lemma AppendInv.takeLock {crypto : Crypto} {s : AppendState} (h : AppendInv crypto s) {t : TxId}
    {key : ℤ} (hfree : s.lockOwner key = none ∨ s.lockOwner key = some t) :
    AppendInv crypto (s.takeLock t key) where
  linked := h.linked
  owned c := by
    change Version.OwnedTail (Function.update s.lockOwner key (some t) _) (s.versions c)
    by_cases hc : chainLockKey crypto c = key
    · rw [hc, Function.update_self]
      have howned := h.owned c
      rw [hc] at howned
      rcases hfree with hfree | hfree
      · rw [hfree] at howned
        exact .of_committed howned.all_committed _
      · rwa [hfree] at howned
    · rw [Function.update_of_ne hc]
      exact h.owned c
  ownFields := h.ownFields
  oneOrg := h.oneOrg
  pointOk u := by
    refine (h.pointOk u).congr rfl fun c hc => ⟨?_, rfl⟩
    change Function.update s.lockOwner key (some t) _ = some u
    by_cases hk : chainLockKey crypto c = key
    · rw [hk] at hc ⊢
      rw [Function.update_self]
      rcases hfree with hfree | hfree
      · simp [hfree] at hc
      · rw [← hc, hfree]
    · rw [Function.update_of_ne hk]
      exact hc

/-- A row of a chain's versions is a row of the table, on that chain. -/
lemma mem_rows_versions {s : AppendState} {c : String} {r : EventRow} :
    r ∈ Version.rows (s.versions c) ↔ r.chainId = c ∧ ∃ v ∈ s.events, v.row = r := by
  rw [AppendState.versions, Version.rows_select, List.mem_filter, Version.rows, List.mem_map,
    decide_eq_true_eq, and_comm]

/-- The head of linked rows carries the last tag and the number of rows. -/
lemma headRow_of_linked {rows : List EventRow} (h : LinkedRows rows) :
    (headRow rows).map EventRow.hmac = lastTag EventRow.hmac none rows ∧
      nextSequence (headRow rows) = rows.length + 1 := by
  rw [headRow_eq_getLast? h.pairwise_lt, nextSequence, lastTag, Option.or_none]
  refine ⟨rfl, ?_⟩
  rcases List.eq_nil_or_concat rows with rfl | ⟨rs, r, rfl⟩
  · rfl
  · rw [List.concat_eq_append] at h
    have hseq : r.sequenceNumber = 0 + rs.length + 1 := (linkedFrom_append.mp h).2.1
    simp [hseq]

/-- **The step that carries the invariant.**  At the point of insertion, under the lock and with no
collision in the unique indexes, the new row continues the whole chain, and its organisation is the
one of every row already there. -/
lemma AppendInv.linked_concat {crypto : Crypto} {s : AppendState} (h : AppendInv crypto s)
    {t : TxId} {row : EventRow} {payload : Option PayloadRow}
    (hp : PointOk crypto s t (.inserting row payload)) (hfree : s.eventConflicts row = []) :
    LinkedRows (Version.rows (s.versions row.chainId) ++ [row]) ∧
      ∀ r ∈ Version.rows (s.versions row.chainId), r.orgId.toText = row.orgId.toText := by
  obtain ⟨-, hsession, hlock, hprev, hseq⟩ := hp
  have howned := h.owned row.chainId
  rw [hlock] at howned
  have hlinked := h.linked row.chainId
  have horg : ∀ r ∈ Version.rows (s.versions row.chainId),
      ∀ r' ∈ Version.rows (s.versions row.chainId), r.orgId.toText = r'.orgId.toText := by
    intro r hr r' hr'
    obtain ⟨hc, v, hv, rfl⟩ := mem_rows_versions.mp hr
    obtain ⟨hc', v', hv', rfl⟩ := mem_rows_versions.mp hr'
    exact h.oneOrg v hv v' hv' (hc.trans hc'.symm)
  have hhead : s.head t row.chainId = headRow ((Version.rows (s.versions row.chainId)).filter
      fun r => r.orgId.toText = row.orgId.toText) := by
    rw [AppendState.head, chainRows_visibleEvents, howned.visible_eq, hsession]
    congr 1
    exact List.filter_congr fun r _ => by simp
  rw [hhead] at hprev hseq
  by_cases hsame : ∀ r ∈ Version.rows (s.versions row.chainId), r.orgId.toText = row.orgId.toText
  · rw [List.filter_eq_self.mpr fun r hr => by simpa using hsame r hr] at hprev hseq
    obtain ⟨hlast, hnext⟩ := headRow_of_linked hlinked
    refine ⟨hlinked.concat ?_ ?_, hsame⟩
    · rw [← hseq, hnext]
      ring
    · rw [← hprev, hlast]
  · -- the chain belongs to another organisation: its first row occupies sequence number 1
    exfalso
    push Not at hsame
    obtain ⟨r, hr, hne⟩ := hsame
    have hnil : (Version.rows (s.versions row.chainId)).filter
        (fun r => r.orgId.toText = row.orgId.toText) = [] := by
      refine List.filter_eq_nil_iff.mpr fun r' hr' => ?_
      simpa [horg r' hr' r hr] using hne
    rw [hnil] at hseq
    cases hrows : Version.rows (s.versions row.chainId) with
    | nil => simp [hrows] at hr
    | cons r₀ rs =>
      have hr₀ : r₀ ∈ Version.rows (s.versions row.chainId) := by simp [hrows]
      obtain ⟨hc, v, hv, rfl⟩ := mem_rows_versions.mp hr₀
      have hone : v.row.sequenceNumber = row.sequenceNumber := by
        rw [hrows] at hlinked
        rw [hlinked.1, ← hseq]
        rfl
      have := List.filter_eq_nil_iff.mp hfree v hv
      simp [hc, hone] at this

/-- The versions of a chain after an insert. -/
lemma versions_insertRows (s : AppendState) (t : TxId) (row : EventRow)
    (payload : Option PayloadRow) (c : String) :
    (s.insertRows t row payload).versions c =
      s.versions c ++ if row.chainId = c then [⟨some t, row⟩] else [] := by
  simp only [AppendState.versions, AppendState.insertRows, Version.select_concat,
    decide_eq_true_eq]

/-- Inserting a row keeps the invariant. -/
lemma AppendInv.insert {crypto : Crypto} {s : AppendState} (h : AppendInv crypto s) {t : TxId}
    {row : EventRow} {payload : Option PayloadRow}
    (hp : PointOk crypto s t (.inserting row payload)) (hfree : s.eventConflicts row = []) :
    AppendInv crypto ((s.insertRows t row payload).goto t .idle) := by
  obtain ⟨hlinked, horg⟩ := h.linked_concat hp hfree
  obtain ⟨hown, -, hlock, -, -⟩ := hp
  have hversions : ∀ c, ((s.insertRows t row payload).goto t .idle).versions c =
      s.versions c ++ if row.chainId = c then [⟨some t, row⟩] else [] :=
    versions_insertRows s t row payload
  have hmem : ∀ v ∈ (s.insertRows t row payload).events, v ∈ s.events ∨ v.row = row := by
    intro v hv
    rcases List.mem_append.mp hv with hv | hv
    · exact .inl hv
    · exact .inr (by rw [List.mem_singleton.mp hv])
  have hone : ∀ v ∈ s.events, v.row.chainId = row.chainId →
      v.row.orgId.toText = row.orgId.toText := fun v hv hc =>
    horg v.row (mem_rows_versions.mpr ⟨hc, v, hv, rfl⟩)
  refine ⟨fun c => ?_, fun c => ?_, fun v hv => ?_, fun v hv w hw hc => ?_, fun u => ?_⟩
  · rw [hversions]
    by_cases hc : row.chainId = c
    · subst hc
      simpa [Version.rows] using hlinked
    · simpa [hc] using h.linked c
  · rw [hversions]
    by_cases hc : row.chainId = c
    · subst hc
      have howned := h.owned row.chainId
      rw [hlock] at howned
      simpa [AppendState.goto, AppendState.insertRows, hlock] using howned.concat row
    · simpa [hc, AppendState.goto, AppendState.insertRows] using h.owned c
  · rcases hmem v hv with hv | hv
    · exact h.ownFields v hv
    · rw [hv]
      exact hown
  · rcases hmem v hv with hv | hv <;> rcases hmem w hw with hw | hw
    · exact h.oneOrg v hv w hw hc
    · rw [hw] at hc ⊢
      exact hone v hv hc
    · rw [hv] at hc ⊢
      exact (hone w hw hc.symm).symm
    · rw [hv, hw]
  · by_cases hu : u = t
    · subst hu
      simp [AppendState.goto, PointOk]
    · have hpoint : ((s.insertRows t row payload).goto t .idle).point u = s.point u := by
        simp [AppendState.goto, AppendState.insertRows, Function.update_of_ne hu]
      rw [hpoint]
      refine (h.pointOk u).congr rfl fun c hc => ⟨hc, ?_⟩
      -- another transaction holds the lock of chain `c`, so `c` is not the chain of the new row
      have hne : row.chainId ≠ c := by
        rintro rfl
        exact hu (Option.some.inj (hc.symm.trans hlock))
      simp [hversions, hne]

/-- Ending a transaction keeps the invariant, provided the chains it holds are left with a committed
prefix of their rows and the other chains are left alone. -/
lemma AppendInv.finish {crypto : Crypto} {s : AppendState} (h : AppendInv crypto s) {t : TxId}
    {events : List (Version TxId EventRow)} (payloads : List (Version TxId PayloadRow))
    (hheld : ∀ c, s.lockOwner (chainLockKey crypto c) = some t →
      (∀ v ∈ (s.finish t events payloads).versions c, v.owner = none) ∧
        Version.rows ((s.finish t events payloads).versions c) <+: Version.rows (s.versions c))
    (hother : ∀ c, s.lockOwner (chainLockKey crypto c) ≠ some t →
      (s.finish t events payloads).versions c = s.versions c)
    (hrows : ∀ v ∈ events, ∃ w ∈ s.events, w.row = v.row) :
    AppendInv crypto (s.finish t events payloads) := by
  refine ⟨fun c => ?_, fun c => ?_, fun v hv => ?_, fun v hv w hw hc => ?_, fun u => ?_⟩
  · by_cases hc : s.lockOwner (chainLockKey crypto c) = some t
    · exact (h.linked c).of_isPrefix (hheld c hc).2
    · rw [hother c hc]
      exact h.linked c
  · by_cases hc : s.lockOwner (chainLockKey crypto c) = some t
    · exact .of_committed (hheld c hc).1 _
    · have hlock : (s.finish t events payloads).lockOwner (chainLockKey crypto c) =
          s.lockOwner (chainLockKey crypto c) := by
        simp [AppendState.finish, AppendState.releaseLocks, hc]
      rw [hother c hc, hlock]
      exact h.owned c
  · obtain ⟨v', hv', hrow⟩ := hrows v hv
    exact hrow ▸ h.ownFields v' hv'
  · obtain ⟨v', hv', hrow⟩ := hrows v hv
    obtain ⟨w', hw', hrow'⟩ := hrows w hw
    rw [← hrow, ← hrow'] at hc ⊢
    exact h.oneOrg v' hv' w' hw' hc
  · by_cases hu : u = t
    · subst hu
      simp [AppendState.finish, PointOk]
    · have hpoint : (s.finish t events payloads).point u = s.point u := by
        simp [AppendState.finish, Function.update_of_ne hu]
      rw [hpoint]
      refine (h.pointOk u).congr (by simp [AppendState.finish, Function.update_of_ne hu])
        fun c hc => ?_
      have hne : s.lockOwner (chainLockKey crypto c) ≠ some t := by
        rw [hc]
        simpa using hu
      exact ⟨by simp [AppendState.finish, AppendState.releaseLocks, hc, hu], hother c hne⟩

/-- Committing keeps the invariant. -/
lemma AppendInv.commit {crypto : Crypto} {s : AppendState} (h : AppendInv crypto s) (t : TxId) :
    AppendInv crypto (s.finish t (Version.commit t s.events) (Version.commit t s.payloads)) := by
  have hversions : ∀ c, (s.finish t (Version.commit t s.events)
      (Version.commit t s.payloads)).versions c = Version.commit t (s.versions c) :=
    fun c => Version.select_commit t _ _
  refine h.finish _ (fun c hc => ?_) (fun c hc => ?_) fun v hv => ?_
  · have howned := h.owned c
    rw [hc] at howned
    rw [hversions, Version.rows_commit]
    exact ⟨howned.commit, List.prefix_refl _⟩
  · rw [hversions]
    exact Version.commit_eq_self ((h.owned c).owner_ne hc)
  · obtain ⟨w, hw, rfl⟩ := List.mem_map.mp hv
    exact ⟨w, hw, by split <;> rfl⟩

/-- Rolling back keeps the invariant. -/
lemma AppendInv.rollback {crypto : Crypto} {s : AppendState} (h : AppendInv crypto s) (t : TxId) :
    AppendInv crypto
      (s.finish t (Version.rollback t s.events) (Version.rollback t s.payloads)) := by
  have hversions : ∀ c, (s.finish t (Version.rollback t s.events)
      (Version.rollback t s.payloads)).versions c = Version.rollback t (s.versions c) :=
    fun c => Version.select_rollback t _ _
  refine h.finish _ (fun c hc => ?_) (fun c hc => ?_) fun v hv => ?_
  · have howned := h.owned c
    rw [hc] at howned
    rw [hversions]
    exact howned.rollback
  · rw [hversions]
    exact Version.rollback_eq_self ((h.owned c).owner_ne hc)
  · exact ⟨v, List.mem_of_mem_filter hv, rfl⟩

/-- No collision at all means no collision among the events. -/
lemma eventConflicts_of_conflictOwners {s : AppendState} {row : EventRow}
    {payload : Option PayloadRow} (h : s.conflictOwners row payload = []) :
    s.eventConflicts row = [] := by
  rw [AppendState.conflictOwners, List.append_eq_nil_iff] at h
  exact List.map_eq_nil_iff.mp h.1

/-- **The step lemma.**  Every step of every transaction keeps the invariant. -/
theorem AppendInv.step {crypto : Crypto} {s s' : AppendState} (h : AppendInv crypto s) {t : TxId}
    {a : AppendAction} (hstep : appendStep crypto s t a = some s') : AppendInv crypto s' := by
  have hp := h.pointOk t
  unfold appendStep at hstep
  split at hstep
  case h_1 org hpt =>
    obtain rfl := Option.some.inj hstep
    exact (h.begin hpt org).goto trivial
  case h_2 input hpt =>
    split at hstep
    case h_1 hok =>
      obtain rfl := Option.some.inj hstep
      exact h.goto (session_of_checkAppendInput hok)
    case h_2 =>
      obtain rfl := Option.some.inj hstep
      exact h
  case h_3 input hpt =>
    rw [hpt] at hp
    dsimp only at hstep
    split_ifs at hstep with hfree
    obtain rfl := Option.some.inj hstep
    exact (h.takeLock hfree).goto hp
  case h_4 input hpt =>
    rw [hpt] at hp
    split at hstep
    · obtain rfl := Option.some.inj hstep
      exact h.goto trivial
    · obtain rfl := Option.some.inj hstep
      exact h.goto hp
    · obtain rfl := Option.some.inj hstep
      exact h.goto trivial
  case h_5 input hpt =>
    rw [hpt] at hp
    obtain rfl := Option.some.inj hstep
    exact h.goto hp
  case h_6 input prevHmac nextSeq hpt =>
    rw [hpt] at hp
    split at hstep
    case h_1 call hok =>
      obtain rfl := Option.some.inj hstep
      obtain ⟨hcall, horg⟩ := signedCall_of_signAppend hok
      exact h.goto ⟨hcall, by rw [horg]; exact hp⟩
    case h_2 =>
      obtain rfl := Option.some.inj hstep
      exact h.goto trivial
  case h_7 call hpt =>
    rw [hpt] at hp
    obtain ⟨hcall, hsession⟩ := hp
    split_ifs at hstep with hfree
    split at hstep
    case h_1 row payload hok =>
      obtain rfl := Option.some.inj hstep
      obtain ⟨id, orgId, subjectId, hid, hsubject, horg, hprev, hseq, rfl⟩ :=
        row_of_auditAppendLocked hok
      have horgText : orgId.toText = call.orgId :=
        Option.some.inj (horg.symm.trans hsession)
      refine (h.takeLock hfree).goto ⟨ownFields_row hcall hid hsubject horgText, horg, ?_,
        hprev, hseq⟩
      change Function.update s.lockOwner call.chainLockKey (some t) _ = some t
      rw [show chainLockKey crypto (call.row id orgId subjectId).chainId = call.chainLockKey from
        hcall.lockKey.symm, Function.update_self]
    case h_2 =>
      obtain rfl := Option.some.inj hstep
      exact h.goto trivial
  case h_8 row payload hpt =>
    rw [hpt] at hp
    dsimp only at hstep
    split_ifs at hstep with hfree hdup
    · obtain rfl := Option.some.inj hstep
      exact h.insert hp (eventConflicts_of_conflictOwners hfree)
    · obtain rfl := Option.some.inj hstep
      exact h.goto trivial
  case h_9 hpt =>
    obtain rfl := Option.some.inj hstep
    exact h.commit t
  case h_10 => simp at hstep
  case h_11 =>
    obtain rfl := Option.some.inj hstep
    exact h.rollback t
  case h_12 => simp at hstep

/-- The empty database satisfies the invariant. -/
lemma appendInv_empty (crypto : Crypto) : AppendInv crypto emptyAppendState where
  linked _ := trivial
  owned _ := Version.ownedTail_nil _
  ownFields := by simp [emptyAppendState]
  oneOrg := by simp [emptyAppendState]
  pointOk _ := trivial

/-- **The run lemma.**  The invariant holds in every reachable state. -/
theorem appendInv_of_reachable {crypto : Crypto} {s : AppendState}
    (hs : (appendSystem crypto).Reachable s) : AppendInv crypto s :=
  hs.invariant (fun _ h => h ▸ appendInv_empty crypto) fun _ _ _ _ h hstep => h.step hstep

/-! ## Integrity of every reachable chain -/

/-- A chain as it should be: sequence numbers `1 … n`, each row carrying the tag of the row before
it, and every row the image of its own fields. -/
structure IntactChain (crypto : Crypto) (rows : List EventRow) : Prop where
  sequence : rows.map EventRow.sequenceNumber = (List.range rows.length).map fun i : ℕ => (i : ℤ) + 1
  first : ∀ r ∈ rows.head?, r.previousHmac = none
  next : ∀ (i : ℕ) (hi : i + 1 < rows.length), rows[i + 1].previousHmac = some rows[i].hmac
  ownFields : ∀ r ∈ rows, OwnFields crypto r

/-- The committed rows of a chain are a prefix of all its rows. -/
lemma chain_isPrefix {crypto : Crypto} {s : AppendState} (h : AppendInv crypto s) (c : String) :
    s.chain c <+: Version.rows (s.versions c) := by
  have hchain : s.chain c = Version.committed (s.versions c) :=
    (Version.committed_select _ _).symm
  rw [hchain]
  exact (h.owned c).committed_isPrefix

/-- Linked rows that are images of their own fields form an intact chain. -/
lemma intactChain_of_linked {crypto : Crypto} {rows : List EventRow} (h : LinkedRows rows)
    (hown : ∀ r ∈ rows, OwnFields crypto r) : IntactChain crypto rows where
  sequence := by
    refine List.ext_getElem (by simp) fun i hi _ => ?_
    rw [List.length_map] at hi
    simp [h.seq_get i hi]
  first r hr := by
    cases rows with
    | nil => simp at hr
    | cons r₀ rs =>
      obtain rfl := Option.some.inj hr
      exact h.2.1
  next i hi := h.prev_get_succ i hi
  ownFields := hown

/-- The committed rows of a chain are linked. -/
lemma AppendInv.linked_chain {crypto : Crypto} {s : AppendState} (h : AppendInv crypto s)
    (c : String) : LinkedRows (s.chain c) :=
  (h.linked c).of_isPrefix (chain_isPrefix h c)

/-- A committed row of a chain is a row of the table, on that chain. -/
lemma mem_chain {crypto : Crypto} {s : AppendState} (h : AppendInv crypto s) {c : String}
    {r : EventRow} (hr : r ∈ s.chain c) : r.chainId = c ∧ ∃ v ∈ s.events, v.row = r :=
  mem_rows_versions.mp ((chain_isPrefix h c).subset hr)

/-- The committed rows of a chain are images of their own fields. -/
lemma AppendInv.ownFields_chain {crypto : Crypto} {s : AppendState} (h : AppendInv crypto s)
    {c : String} {r : EventRow} (hr : r ∈ s.chain c) : OwnFields crypto r := by
  obtain ⟨-, v, hv, rfl⟩ := mem_chain h hr
  exact h.ownFields v hv

/-- The committed rows of a chain belong to one organisation. -/
lemma AppendInv.exists_org {crypto : Crypto} {s : AppendState} (h : AppendInv crypto s)
    (c : String) : ∃ org, ∀ r ∈ s.chain c, r.orgId.toText = org := by
  cases hrows : s.chain c with
  | nil => exact ⟨"", by simp⟩
  | cons r₀ rs =>
    refine ⟨r₀.orgId.toText, fun r hr => ?_⟩
    obtain ⟨hc, v, hv, rfl⟩ := mem_chain h (by rw [hrows]; exact hr)
    obtain ⟨hc₀, v₀, hv₀, rfl⟩ := mem_chain h (by rw [hrows]; exact List.mem_cons_self)
    exact h.oneOrg v hv v₀ hv₀ (hc.trans hc₀.symm)

/-- Linked rows of one chain and one organisation are selected as they are. -/
lemma selectChain_eq_self {rows : List EventRow} {org c : String} (hlinked : LinkedRows rows)
    (hc : ∀ r ∈ rows, r.chainId = c) (horg : ∀ r ∈ rows, r.orgId.toText = org) :
    selectChain rows org c = rows := by
  have h₁ : rows.filter (fun r => r.orgId.toText = org) = rows :=
    List.filter_eq_self.mpr fun r hr => by simpa using horg r hr
  have h₂ : chainRows c rows = rows :=
    List.filter_eq_self.mpr fun r hr => by simpa using hc r hr
  rw [selectChain, h₁, h₂, orderBySequence_eq_self hlinked]

/-- A session of the chain's organisation selects the committed rows of the chain. -/
lemma AppendInv.selectChain_committed {crypto : Crypto} {s : AppendState} (h : AppendInv crypto s)
    {c org : String} (horg : ∀ r ∈ s.chain c, r.orgId.toText = org) :
    selectChain s.committedEvents org c = s.chain c := by
  have hfilter : chainRows c (s.committedEvents.filter fun r => r.orgId.toText = org) =
      s.chain c := by
    rw [chainRows, List.filter_comm]
    exact List.filter_eq_self.mpr fun r hr => by simpa using horg r hr
  rw [selectChain, hfilter, orderBySequence_eq_self (h.linked_chain c)]

/-- The committed chain is accepted. -/
lemma AppendInv.verifyFullChain_valid {crypto : Crypto} {s : AppendState} (h : AppendInv crypto s)
    {c org : String} (horg : ∀ r ∈ s.chain c, r.orgId.toText = org) :
    (verifyFullChain crypto s.committedEvents org c).valid = true := by
  rw [verifyFullChain_valid_iff, h.selectChain_committed horg]
  exact ⟨h.linked_chain c, fun r hr => (h.ownFields_chain hr).2⟩

/-- **Chain integrity under concurrency.**  In every reachable state of any interleaving of
transactions calling `auditAppend`, every chain of the committed table is intact and belongs to one
organisation, and `verifyFullChain` run for that organisation accepts it and counts its rows. -/
theorem audit_chain_integrity (crypto : Crypto) {s : AppendState}
    (hs : (appendSystem crypto).Reachable s) (chainId : String) :
    IntactChain crypto (s.chain chainId) ∧
      ∃ org, (∀ r ∈ s.chain chainId, r.orgId.toText = org) ∧
        verifyFullChain crypto s.committedEvents org chainId =
          { valid := true, events := (s.chain chainId).length, firstInvalidSeq := none,
            reason := none } := by
  have h := appendInv_of_reachable hs
  obtain ⟨org, horg⟩ := h.exists_org chainId
  refine ⟨intactChain_of_linked (h.linked_chain chainId) fun r hr => h.ownFields_chain hr,
    org, horg, ?_⟩
  rw [verifyFullChain_eq_of_valid _ _ _ _ (h.verifyFullChain_valid horg),
    h.selectChain_committed horg]

/-! ### A sample history -/

/-- Stand-ins for the primitives in the sample: the identity for SHA-256, and for the HMAC the
length of the message, which tells the three sample messages apart. -/
def sampleCrypto : Crypto where
  sha256 b := b
  kms := { hmacSha256 := fun _ _ _ _ message => [UInt8.ofNat message.length] }

/-- The organisation of the sample history. -/
def sampleOrg : String := "11111111-1111-4111-8111-111111111111"

/-- An input on the run chain of the sample organisation. -/
def sampleInput (eventType : String) : AuditAppendInput where
  orgId := sampleOrg
  chainId := sampleOrg ++ ":run"
  eventType := eventType
  eventVersion := "v1"
  subjectType := "run"
  subjectId := "22222222-2222-4222-8222-222222222222"
  occurredAt := 1700000000000
  payloadHash := [1, 2, 3]
  payloadEncrypted := none
  dekWrapped := none
  keyId := "k1"
  keyVersion := 1
  redactionMetadata := []
  evidenceStrength := none
  eventId := none

/-- Three events, one transaction each. -/
def sampleCalls : AppendCalls :=
  [(sampleInput "run.started", 1, 0), (sampleInput "run.denied", 2, 0),
    (sampleInput "run.reviewed", 3, 0)]

/-- The history writes three rows on the chain, with different tags. -/
lemma sampleCalls_rows :
    (appendAll sampleCrypto sampleOrg [] sampleCalls).map
        (List.map fun r => (r.hmac, r.chainId, r.orgId.toText)) =
      some [([235], sampleOrg ++ ":run", sampleOrg), ([234], sampleOrg ++ ":run", sampleOrg),
        ([236], sampleOrg ++ ":run", sampleOrg)] := by
  decide +kernel

/-- The three rows of the sample history, committed in a reachable state. -/
theorem reachable_sample :
    ∃ (s : AppendState) (r₁ r₂ r₃ : EventRow), (appendSystem sampleCrypto).Reachable s ∧
      s.committedEvents = [r₁, r₂, r₃] ∧ s.chain (sampleOrg ++ ":run") = [r₁, r₂, r₃] ∧
      (∀ r ∈ [r₁, r₂, r₃], r.orgId.toText = sampleOrg) ∧ r₂.hmac ≠ r₃.hmac := by
  obtain ⟨rows, hrows, hmap⟩ := Option.map_eq_some_iff.mp sampleCalls_rows
  obtain ⟨s, hs, hcommitted⟩ := reachable_appendAll hrows
  clear hrows
  obtain ⟨r₁, _, rfl, h₁, hmap⟩ := List.map_eq_cons_iff.mp hmap
  obtain ⟨r₂, _, rfl, h₂, hmap⟩ := List.map_eq_cons_iff.mp hmap
  obtain ⟨r₃, _, rfl, h₃, hmap⟩ := List.map_eq_cons_iff.mp hmap
  obtain rfl := List.map_eq_nil_iff.mp hmap
  simp only [Prod.mk.injEq] at h₁ h₂ h₃
  obtain ⟨-, hc₁, ho₁⟩ := h₁
  obtain ⟨ht₂, hc₂, ho₂⟩ := h₂
  obtain ⟨ht₃, hc₃, ho₃⟩ := h₃
  refine ⟨s, r₁, r₂, r₃, hs, hcommitted, ?_, by simp [ho₁, ho₂, ho₃], by simp [ht₂, ht₃]⟩
  simp [AppendState.chain, hcommitted, chainRows, hc₁, hc₂, hc₃]

/-- The theorem at the sample history. -/
theorem audit_chain_integrity_sample :
    ∃ s : AppendState, (s.chain (sampleOrg ++ ":run")).length = 3 ∧
      IntactChain sampleCrypto (s.chain (sampleOrg ++ ":run")) := by
  obtain ⟨s, r₁, r₂, r₃, hs, -, hchain, -, -⟩ := reachable_sample
  exact ⟨s, by rw [hchain]; rfl, (audit_chain_integrity sampleCrypto hs _).1⟩

end GovAI
