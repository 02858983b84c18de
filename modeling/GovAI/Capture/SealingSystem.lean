import GovAI.Capture.OutboxSystem
import GovAI.Capture.SealingOrder

/-!
# The sealing protocol

The invariant along the statements of a transaction, and the result for all interleavings:
`sealed_once_in_order`.
-/

namespace GovAI

open Function

variable {env : SealerEnv} {captures : Set (Uuid × Uuid)} {H : Set AuditDb} {db db' : AuditDb}

/-- Both invariants of the tables. -/
structure SealDbInv (env : SealerEnv) (captures : Set (Uuid × Uuid)) (db : AuditDb) : Prop where
  outbox : OutboxInv db
  events : SealInv env captures db

/-- What holds of a state and of the committed states before it. -/
structure SealHistory (env : SealerEnv) (captures : Set (Uuid × Uuid)) (H : Set AuditDb)
    (db : AuditDb) : Prop where
  inv : SealDbInv env captures db
  past : ∀ h ∈ H, SealDbInv env captures h ∧ Grow h db

/-- What holds of a transaction that runs alone. -/
structure SealTxInv (env : SealerEnv) (captures : Set (Uuid × Uuid)) (H : Set AuditDb)
    (x : SealTx) (db : AuditDb) : Prop where
  history : SealHistory env captures H db
  point : SealPointOk env db x.point

/-! ## What each statement establishes -/

/-- A snapshot, whether committed or the transaction's own view, does not know more events. -/
lemma SealHistory.grow_snapshot (h : SealHistory env captures H db) {snapshot : AuditDb}
    (hs : snapshot ∈ insert db H) : Grow snapshot db := by
  rcases Set.mem_insert_iff.mp hs with rfl | hs
  · exact .refl _
  · exact (h.past snapshot hs).2

/-- The history behind a state that keeps the invariants and has grown. -/
lemma SealHistory.step (h : SealHistory env captures H db) (hinv : SealDbInv env captures db')
    (hgrow : Grow db db') : SealHistory env captures H db' where
  inv := hinv
  past s hs := ⟨(h.past s hs).1, (h.past s hs).2.trans hgrow⟩

/-- An event that a call of `auditAppend` can read is in the database. -/
lemma SealHistory.eventById_of_readable (h : SealHistory env captures H db) {snapshot : AuditDb}
    (hs : snapshot ∈ insert db H) {session : Option String} {input : AuditAppendInput}
    {r : EventRow} (hr : r ∈ snapshot.readableEvents db session input) :
    db.eventById r.id = some r := by
  have hr := List.mem_of_mem_filter hr
  rcases List.mem_append.mp hr with hr | hr
  · obtain ⟨e, -, he⟩ := Option.bind_eq_some_iff.mp (Option.mem_toList.mp hr)
    have hevent := (h.grow_snapshot hs).event he
    rwa [(h.inv.events.ofId hevent).1]
  · exact (h.inv.events.ofChain hr).2

/-- The events of the same organisation in the chain are readable. -/
lemma mem_chainRows_readable {snapshot : AuditDb} {session : Option String}
    {input : AuditAppendInput} {r : EventRow} (hinv : SealInv env captures db)
    (hr : r ∈ db.eventChain input.chainId) (hvisible : session = some r.orgId.toText) :
    r ∈ chainRows input.chainId (snapshot.readableEvents db session input) := by
  refine List.mem_filter.mpr ⟨List.mem_filter.mpr ⟨List.mem_append.mpr (.inr hr), ?_⟩, ?_⟩
  · simp [rlsVisible, hvisible]
  · simp [(hinv.ofChain hr).1]

/-- A claim hands out a capture whose turn has come. -/
lemma held_of_claim (hinv : OutboxInv db) {session : Option String} {now : ℤ} {orgId : Option Uuid}
    {c : String} {row : OutboxRow}
    (hcall : auditCaptureClaimForSeal session now orgId c db = .ok (some row, db')) :
    Held db' row ∧ Grow db db' ∧ (SealInv env captures db → SealInv env captures db') := by
  have hinv' := hinv.claimForSeal hcall
  obtain ⟨hnone, -⟩ | ⟨state, old, hstate, -, hx, rfl, hseq, -, -, hrow, rfl⟩ :=
    auditCaptureClaimForSeal_eq_ok hcall
  · cases hnone
  · obtain rfl := Option.some.inj hrow
    refine ⟨⟨⟨_, update_self .., rfl, rfl, rfl⟩, state, hstate, hseq.le⟩, grow_setLifecycle hx,
      fun h => h.setLifecycle hinv hinv' hx (by simp [Lifecycle.toSealing])⟩

/-- A capture that is being sealed has its turn. -/
lemma held_of_load {snapshot : AuditDb} (hinv : OutboxInv snapshot) (hgrow : Grow snapshot db)
    {session : Option String} {x : Uuid} {row : OutboxRow}
    (hload : loadSealingCaptureForRecovery session x snapshot = some row) : Held db row := by
  obtain ⟨hrow, hsealing⟩ := Option.filter_eq_some_iff.mp hload
  obtain ⟨hx, rfl, -⟩ := outbox_of_selectCapture hrow
  obtain ⟨state, hstate, -⟩ := hinv.state hx
  have hseq := hinv.sealing hx hstate (by simpa using hsealing)
  exact Held.grow ⟨⟨row, hx, rfl, rfl, rfl⟩, state, hstate, hseq.le⟩ hgrow

/-- The input of the sealer carries the content of the capture. -/
lemma sealedAs_of_appendedRow {row : OutboxRow} {workerId : Option String} {sealedAt : ℤ}
    {input : AuditAppendInput} (hinput : sealingInput env row workerId sealedAt = .ok input)
    {r₁ : Uuid} {visible : List EventRow} {r : EventRow} (hr : AppendedRow input r₁ visible r) :
    r.id = env.eventIdOf row ∧ SealedAs row r := by
  simp only [sealingInput, except_bind_eq_ok_iff, except_pure_eq_ok_iff] at hinput
  obtain ⟨event, hevent, rfl⟩ := hinput
  simp only [buildAuditCaptureSealingEvent, except_bind_eq_ok_iff, except_pure_eq_ok_iff] at hevent
  obtain ⟨_, -, _, -, _, -, rfl⟩ := hevent
  refine ⟨?_, Uuid.toText_injective hr.orgId, hr.chainId, hr.eventType, hr.eventVersion,
    hr.subjectType, ?_, hr.payloadHash, hr.keyId, hr.keyVersion⟩
  · have hid := hr.id
    simp only [Option.getD_some, uuidIn_toText, Option.some.injEq] at hid
    exact hid.symm
  · have hsubject := hr.subjectId
    simp only [claimedOfRow, uuidIn_toText, Option.some.injEq] at hsubject
    exact hsubject.symm

/-- An id that is drawn at random is not derived from a capture. -/
lemma not_derived_of_version {r : Uuid} (hr : r.version = 4) : ¬env.Derived captures r := by
  rintro ⟨p, -, rfl⟩
  rw [deriveAuditSealerCaptureEventId, version_uuid5] at hr
  cases hr

/-- **Every statement keeps the invariant.** -/
lemma SealTxInv.step (hinj : Set.InjOn (uuid5 env.sha1 auditSealerCaptureEventNamespace)
      ((fun p => captureEventName p.1 p.2) '' captures)) {x x' : SealTx} {L : Set AuditItem}
    (h : SealTxInv env captures H x db) (hexec : SealExec env captures H x db L x' db') :
    SealTxInv env captures H x' db' := by
  obtain ⟨hhist, hpt⟩ := h
  obtain ⟨hinv, hevents⟩ := hhist.inv
  cases hexec with
  | skip => exact ⟨hhist, trivial⟩
  | insertCapture hsnapshot hcapture hcall =>
    obtain ⟨hevents', hgrow⟩ := hevents.captureInsertWith hinv hcapture hcall
    exact ⟨hhist.step ⟨hinv.captureInsertWith hcall, hevents'⟩ hgrow, trivial⟩
  | claim hcall =>
    obtain ⟨hheld, hgrow, hevents'⟩ := held_of_claim hinv hcall
    exact ⟨hhist.step ⟨hinv.claimForSeal hcall, hevents' hevents⟩ hgrow, hheld⟩
  | load hsnapshot hload =>
    obtain ⟨hpast, hgrow⟩ := hhist.past _ hsnapshot
    exact ⟨hhist, held_of_load hpast.outbox hgrow hload⟩
  | @append _ snapshot row workerId sealedAt input output r₁ r₂ hpoint hinput hsnapshot hr₁ hr₂
      hcall =>
    rw [hpoint] at hpt
    obtain ⟨hsession, ⟨rfl, r, e, he, hr, hid⟩ | ⟨r, hr, hfree, rfl⟩⟩ := auditAppendIn_eq_ok hcall
    · refine ⟨hhist, hpt, r, ?_⟩
      have hevent := hhist.eventById_of_readable hsnapshot hr
      simp only [sealingInput, except_bind_eq_ok_iff, except_pure_eq_ok_iff] at hinput
      obtain ⟨event, -, rfl⟩ := hinput
      simp only [Option.bind_some, uuidIn_toText, Option.some.injEq] at he
      rwa [hid, ← he] at hevent
    · obtain ⟨hid, hsame⟩ := sealedAs_of_appendedRow hinput hr
      have hnew : CaptureEvent env db row r := by
        refine ⟨hid, hpt, hsame, fun r' hr' horg => ?_⟩
        rw [hr.sequenceNumber]
        rw [hr.chainId] at hr'
        refine lt_nextSequence_headRow (mem_chainRows_readable hevents hr' ?_)
        rw [hsession, horg, hr.orgId]
      have hgrow := grow_addEvent hfree
      exact ⟨hhist.step ⟨hinv.addEvent r, hevents.addEvent hinv hinj hfree (.inr ⟨row, hnew⟩)⟩
        hgrow, hpt.grow hgrow, r, by rw [← hid]; exact update_self ..⟩
  | @markSealed _ row dbRow now hpoint hrow hcall =>
    rw [hpoint] at hpt
    obtain ⟨hheld, hevent⟩ := hpt
    obtain ⟨row', hrow', hkey', hcontent', -⟩ := hheld.stored
    have hinv' := hinv.markSealed hcall
    obtain ⟨row'', hx, hkey, -, ⟨-, rfl⟩ | ⟨state, org, -, hstate, -, -, hseq, -, -, rfl⟩⟩ :=
      auditCaptureMarkSealed_eq_ok hcall
    · exact ⟨hhist, trivial⟩
    · obtain rfl := Option.some.inj (hx.symm.trans hrow')
      rw [← eventIdOf_congr hkey' hcontent'] at hevent hinv' ⊢
      rw [← hkey] at hx
      exact ⟨hhist.step ⟨hinv', hevents.sealCapture hinv hinv' hx hstate hseq hevent⟩
        (grow_sealCapture hx hstate hseq), trivial⟩
  | markFailed hcall =>
    have hinv' := hinv.markFailed hcall
    obtain ⟨row, hx, rfl, -, rfl⟩ := auditCaptureMarkFailed_eq_ok hcall
    exact ⟨hhist.step ⟨hinv', hevents.setLifecycle hinv hinv' hx (by simp [Lifecycle.toFailed])⟩
      (grow_setLifecycle hx), trivial⟩
  | @directAppend _ snapshot input output r₁ r₂ id hid hderived hsnapshot hr₁ hr₂ hcall =>
    obtain ⟨-, ⟨rfl, -⟩ | ⟨r, hr, hfree, rfl⟩⟩ := auditAppendIn_eq_ok hcall
    · exact ⟨hhist, trivial⟩
    · obtain rfl := Option.some.inj (hr.id.symm.trans hid)
      have hnot : ¬env.Derived captures r.id := by
        cases he : input.eventId with
        | some text => exact hderived (by simp [he])
        | none =>
          rw [he, Option.getD_none, uuidIn_toText] at hid
          exact Option.some.inj hid ▸ not_derived_of_version hr₁
      exact ⟨hhist.step ⟨hinv.addEvent r, hevents.addEvent hinv hinj hfree (.inl hnot)⟩
        (grow_addEvent hfree), trivial⟩

/-! ## All interleavings -/

/-- What the sealing of captures promises. -/
structure SealedOnceInOrder (env : SealerEnv) (db : AuditDb) : Prop where
  /-- A capture has at most one event, in all chains. -/
  atMostOnce : ∀ x row, db.outbox x = some row →
    ∀ (c c' : String) (i j : ℕ) (r r' : EventRow), (db.eventChain c)[i]? = some r → (db.eventChain c')[j]? = some r' →
      r.id = env.eventIdOf row → r'.id = env.eventIdOf row → c = c' ∧ i = j
  /-- A sealed capture has an event with its content in the chain of its category, and a ref that
  points at it. -/
  sealed : ∀ x row, db.outbox x = some row → row.status = .sealed →
    ∃ r ref, r ∈ db.eventChain
        (auditCategoryChainId row.content.orgId.toText row.content.chainCategory) ∧
      r.id = env.eventIdOf row ∧ SealedAs row r ∧ row.lifecycle.auditEventId = some r.id ∧
      db.captureRef x = some ref ∧ ref.auditEventId = r.id
  /-- The events of two captures of a chain and category stand in the order of the captures. -/
  ordered : ∀ x y row row', db.outbox x = some row → db.outbox y = some row' →
    row.content.chainId = row'.content.chainId →
    row.content.chainCategory = row'.content.chainCategory → row.captureSeq < row'.captureSeq →
    ∀ c c' (r r' : EventRow), r ∈ db.eventChain c → r' ∈ db.eventChain c' →
      r.id = env.eventIdOf row → r'.id = env.eventIdOf row' →
        c = c' ∧ r.sequenceNumber < r'.sequenceNumber

/-- The promises follow from the invariants. -/
lemma SealDbInv.sealedOnceInOrder (h : SealDbInv env captures db) : SealedOnceInOrder env db := by
  obtain ⟨hinv, hevents⟩ := h
  have horigin : ∀ {x row r}, db.outbox x = some row → db.eventById (env.eventIdOf row) = some r →
      SealedAs row r := by
    intro x row r hx hr
    rw [SealerEnv.eventIdOf, hinv.key hx] at hr
    obtain ⟨row', hx', -, hsame, -⟩ := hevents.origin (hevents.known hx) hr
    obtain rfl := Option.some.inj (hx.symm.trans hx')
    exact hsame
  constructor
  case atMostOnce =>
    intro x row hx c c' i j r r' hi hj hid hid'
    obtain ⟨hc, hr⟩ := hevents.ofChain (List.mem_of_getElem? hi)
    obtain ⟨hc', hr'⟩ := hevents.ofChain (List.mem_of_getElem? hj)
    rw [hid, ← hid', hr'] at hr
    obtain rfl := Option.some.inj hr
    obtain rfl := hc.symm.trans hc'
    refine ⟨rfl, ?_⟩
    have hnodup := hevents.nodup c
    obtain ⟨hil, hi⟩ := List.getElem?_eq_some_iff.mp hi
    obtain ⟨hjl, hj⟩ := List.getElem?_eq_some_iff.mp hj
    refine (@List.Nodup.getElem_inj_iff _ _ hnodup _ (by simpa using hil) _ (by simpa using hjl)).mp ?_
    simp [hi, hj]
  case sealed =>
    intro x row hx hs
    obtain ⟨hid, r, hr⟩ := hevents.sealed hx hs
    obtain ⟨ref, href, hrefid⟩ := hinv.ref hx hs
    have hsame := horigin hx hr
    obtain ⟨hrid, hmem⟩ := hevents.ofId hr
    rw [hsame.chainId] at hmem
    exact ⟨r, ref, hmem, hrid, hsame, by rw [hid, hrid], href,
      Option.some.inj (hrefid.symm.trans (by rw [hid, hrid]))⟩
  case ordered =>
    intro x y row row' hx hy hc hcat hlt c c' r r' hmem hmem' hid hid'
    obtain ⟨rfl, hr⟩ := hevents.ofChain hmem
    obtain ⟨rfl, hr'⟩ := hevents.ofChain hmem'
    rw [hid] at hr
    rw [hid'] at hr'
    refine ⟨?_, hevents.order hx hy hc hcat hlt hr hr'⟩
    obtain ⟨state, hstate, horg, -⟩ := hinv.state hx
    obtain ⟨state', hstate', horg', -⟩ := hinv.state hy
    rw [hc] at hstate
    obtain rfl := Option.some.inj (hstate.symm.trans hstate')
    rw [(horigin hx hr).chainId, (horigin hy hr').chainId, hcat, ← horg, ← horg']

/-- The empty database satisfies both invariants. -/
lemma SealDbInv.empty : SealDbInv env captures emptyAuditDb := by
  refine ⟨.empty, ?_⟩
  constructor <;> simp [emptyAuditDb]

/-- **Exactly-once, in-order sealing.**  In every interleaving of sealing workers, recoveries,
inserts, failure markers and direct appends, with rollbacks and with commits after any statement, the
committed state has at most one event for each capture and exactly one, with the content of the
capture and a ref, for each sealed capture; the events of a capture chain and category stand in the
order of the captures. -/
theorem sealed_once_in_order {T : Type} [DecidableEq T]
    (hinj : Set.InjOn (uuid5 env.sha1 auditSealerCaptureEventNamespace)
      ((fun p => captureEventName p.1 p.2) '' captures))
    {c : LockState AuditDb AuditItem SealTx T}
    (hc : ((sealProtocol env captures).system T).Reachable c) :
    SealedOnceInOrder env c.committed := by
  have hinit : ∀ db, (sealProtocol env captures).init db → SealHistory env captures {db} db := by
    rintro _ rfl
    exact ⟨.empty, by rintro _ rfl; exact ⟨.empty, .refl _⟩⟩
  have hstart : ∀ H db x, SealHistory env captures H db → (sealProtocol env captures).start x →
      SealTxInv env captures H x db := by
    intro H db x hI hstart
    refine ⟨hI, ?_⟩
    rw [show x.point = .ready from hstart]
    trivial
  have hcommit : ∀ H x db, SealTxInv env captures H x db →
      SealHistory env captures (insert db H) db := by
    intro H x db hJ
    refine ⟨hJ.history.inv, fun s hs => ?_⟩
    rcases Set.mem_insert_iff.mp hs with rfl | hs
    · exact ⟨hJ.history.inv, .refl _⟩
    · exact hJ.history.past s hs
  obtain ⟨H, hhist, -⟩ := LockProtocol.invariant hinit hstart
    (fun _ _ _ _ _ _ hJ hexec => hJ.step hinj hexec) hcommit hc
  exact hhist.inv.sealedOnceInOrder

/-! ## Transactions that run alone -/

/-- `sealNextAuditCapture`, with arguments that its checks accept: at most one capture of the chain
is claimed, appended under its derived id and marked as sealed. -/
def sealNextAuditCapture (env : SealerEnv) (session : Option String) (now : ℤ) (orgId : Uuid)
    (chainId : String) (workerId : Option String) (sealedAt : ℤ)
    (randomEventId randomPayloadId : Uuid) (db : AuditDb) :
    Except String (Option OutboxRow × AuditDb) := do
  let (claimed, db) ← auditCaptureClaimForSeal session now (some orgId) chainId db
  match claimed with
  | none => return (none, db)
  | some row =>
      let auditEventInput ← sealingInput env row workerId sealedAt
      let (appendOut, db) ← auditAppendIn env session db db auditEventInput randomEventId
        randomPayloadId
      rejectIf (appendOut.eventId ≠ (env.eventIdOf row).toText)
        ("sealNextAuditCapture: internal invariant: auditAppend did not return the " ++
          "deterministic eventId")
      let db ← auditCaptureMarkSealed session now (some row.content.orgId) row.captureId
        (env.eventIdOf row) db
      return (some row, db)

section Alone

variable {T : Type} [DecidableEq T] {session : Option String} {now : ℤ}

/-- An insert that runs alone. -/
lemma reachable_insertLocked (t : T) {p : CaptureInsert} {seq : ℤ}
    (hc : ((sealProtocol env captures).system T).Reachable ⟨db, fun _ => none⟩)
    (hcapture : (p.orgId, p.captureId) ∈ captures)
    (hcall : auditCaptureInsertLocked session now p db = .ok (seq, db')) :
    ((sealProtocol env captures).system T).Reachable ⟨db', fun _ => none⟩ := by
  have hstart : (sealProtocol env captures).start ⟨session, .ready⟩ := rfl
  have hinsert : SealExec env captures {db} ⟨session, .ready⟩ db _ ⟨session, .ready⟩ db' :=
    .insertCapture (Set.mem_insert _ _) hcapture hcall
  exact LockProtocol.reachable_of_serialTx t hc hstart (LockProtocol.SerialTx.nil.snoc hinsert)

/-- A call of `sealNextAuditCapture` that runs alone. -/
lemma reachable_sealNext (t : T) {orgId : Uuid} {chainId : String} {workerId : Option String}
    {sealedAt : ℤ} {r₁ r₂ : Uuid} {claimed : Option OutboxRow}
    (hc : ((sealProtocol env captures).system T).Reachable ⟨db, fun _ => none⟩)
    (hr₁ : r₁.version = 4) (hr₂ : r₂.version = 4)
    (hcall : sealNextAuditCapture env session now orgId chainId workerId sealedAt r₁ r₂ db =
      .ok (claimed, db')) :
    ((sealProtocol env captures).system T).Reachable ⟨db', fun _ => none⟩ := by
  simp only [sealNextAuditCapture, except_bind_eq_ok_iff, Prod.exists] at hcall
  obtain ⟨result, db₁, hclaim, hcall⟩ := hcall
  cases result with
  | none =>
    simp only [except_pure_eq_ok_iff, Prod.mk.injEq] at hcall
    obtain ⟨-, rfl⟩ := hcall
    obtain ⟨-, rfl⟩ | ⟨state, row, -, -, -, -, -, -, -, hnone, -⟩ :=
      auditCaptureClaimForSeal_eq_ok hclaim
    · exact hc
    · cases hnone
  | some row =>
    simp only [except_bind_eq_ok_iff, except_pure_eq_ok_iff, Prod.exists, Prod.mk.injEq] at hcall
    obtain ⟨input, hinput, output, db₂, happend, _, -, db₃, hmark, -, rfl⟩ := hcall
    obtain ⟨dbRow, hx, hkey, hsession, -⟩ := auditCaptureMarkSealed_eq_ok hmark
    have hrow : db₂.selectCapture session row.captureId = some dbRow := by
      simp [AuditDb.selectCapture, hx, hkey, rlsVisible, hsession]
    have hclaimed : SealExec env captures {db} ⟨session, .ready⟩ db _
        ⟨session, .holding row⟩ db₁ := .claim hclaim
    have happended : SealExec env captures {db} ⟨session, .holding row⟩ db₁ _
        ⟨session, .appended row⟩ db₂ :=
      .append rfl hinput (Set.mem_insert _ _) hr₁ hr₂ happend
    have hsealed : SealExec env captures {db} ⟨session, .appended row⟩ db₂ _
        ⟨session, .ready⟩ db₃ := .markSealed rfl hrow hmark
    have hstart : (sealProtocol env captures).start ⟨session, .ready⟩ := rfl
    exact LockProtocol.reachable_of_serialTx t hc hstart
      (((LockProtocol.SerialTx.nil.snoc hclaimed).snoc happended).snoc hsealed)

end Alone

/-- Stand-ins for the primitives in the sample; the digest is the end of the hashed text. -/
def sampleEnv : SealerEnv where
  crypto := sampleCrypto
  sha1 b := Vector.ofFn fun i : Fin 20 => b.reverse.getD i 0
  timestampMillis us := us / 1000

/-- An id of version 4. -/
def sampleRandomId : Uuid := BitVec.ofNat 128 (4 * 2 ^ 76)

/-- The captures of the sample. -/
def sampleCaptures : Set (Uuid × Uuid) := {(1, 7), (1, 8)}

/-- The derived ids of the two captures differ. -/
lemma injOn_sampleCaptures :
    Set.InjOn (uuid5 sampleEnv.sha1 auditSealerCaptureEventNamespace)
      ((fun p => captureEventName p.1 p.2) '' sampleCaptures) := by
  have hne : uuid5 sampleEnv.sha1 auditSealerCaptureEventNamespace (captureEventName 1 7) ≠
      uuid5 sampleEnv.sha1 auditSealerCaptureEventNamespace (captureEventName 1 8) := by
    decide +kernel
  rw [sampleCaptures, Set.image_pair, Set.injOn_pair]
  exact fun h => absurd h hne

/-- Two captures of one chain are inserted and sealed one after the other. -/
def sampleSealing : Except String AuditDb := do
  let (_, db) ← auditCaptureInsertLocked sampleSession 0 sampleCapture emptyAuditDb
  let (_, db) ← auditCaptureInsertLocked sampleSession 1 { sampleCapture with captureId := 8 } db
  let (_, db) ← sealNextAuditCapture sampleEnv sampleSession 2 1 sampleCapture.chainId none 2
    sampleRandomId sampleRandomId db
  let (_, db) ← sealNextAuditCapture sampleEnv sampleSession 3 1 sampleCapture.chainId none 3
    sampleRandomId sampleRandomId db
  return db

/-- The statuses that these calls leave. -/
lemma sampleSealing_run :
    (sampleSealing.toOption.map fun db =>
      ((db.outbox 7).map OutboxRow.status, (db.outbox 8).map OutboxRow.status)) =
      some (some .sealed, some .sealed) := by
  decide +kernel

/-- The state they lead to is one that the interleavings reach. -/
lemma reachable_sampleSealing {db : AuditDb} (h : sampleSealing = .ok db) :
    ((sealProtocol sampleEnv sampleCaptures).system Unit).Reachable ⟨db, fun _ => none⟩ := by
  have hrandom : sampleRandomId.version = 4 := by decide +kernel
  simp only [sampleSealing, except_bind_eq_ok_iff, except_pure_eq_ok_iff, Prod.exists] at h
  obtain ⟨_, db₁, h₁, _, db₂, h₂, _, db₃, h₃, _, db₄, h₄, rfl⟩ := h
  have hempty : ((sealProtocol sampleEnv sampleCaptures).system Unit).Reachable
      ⟨emptyAuditDb, fun _ => none⟩ := .init ⟨rfl, fun _ => rfl⟩
  have hfirst := reachable_insertLocked () hempty (by simp [sampleCaptures, sampleCapture]) h₁
  have hsecond := reachable_insertLocked () hfirst (by simp [sampleCaptures, sampleCapture]) h₂
  exact reachable_sealNext () (reachable_sealNext () hsecond hrandom hrandom h₃) hrandom hrandom h₄

/-- A reachable state with two sealed captures of one chain. -/
theorem sealed_once_in_order_sample : ∃ c : LockState AuditDb AuditItem SealTx Unit,
    (c.committed.outbox 7).map OutboxRow.status = some .sealed ∧
      (c.committed.outbox 8).map OutboxRow.status = some .sealed ∧
      SealedOnceInOrder sampleEnv c.committed := by
  obtain ⟨db, hrun, hstatus⟩ := Option.map_eq_some_iff.mp sampleSealing_run
  simp only [Prod.mk.injEq] at hstatus
  obtain ⟨hfirst, hsecond⟩ := hstatus
  have hreach := reachable_sampleSealing (except_toOption_eq_some_iff.mp hrun)
  exact ⟨_, hfirst, hsecond, sealed_once_in_order injOn_sampleCaptures hreach⟩

end GovAI
