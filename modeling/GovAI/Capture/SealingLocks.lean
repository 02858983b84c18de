import GovAI.Audit.ChainIntegrity
import GovAI.Capture.OutboxInvariant
import GovAI.Capture.Sealer

/-!
# The locks of the sealing protocol

Every statement reads and writes only the items it locks, so the statements form a `LockProtocol`.
For each function this is one lemma: it succeeds on every database that agrees on the locked items,
with the same effect.
-/

namespace GovAI

open Function ItemStore

variable {session : Option String} {now : ℤ} {db db' t : AuditDb}

/-! ## Updates and inserts -/

/-- An update of a lifecycle depends on the row alone. -/
lemma updateLifecycle_congr {row row' : OutboxRow} {new : Lifecycle}
    (h : db.updateLifecycle row new = .ok (row', db')) (t : AuditDb) :
    t.updateLifecycle row new = .ok (row', t.setLifecycle row new) := by
  simp only [AuditDb.updateLifecycle, except_bind_eq_ok_iff, except_pure_eq_ok_iff,
    Prod.mk.injEq] at h ⊢
  obtain ⟨_, hguard, _, hcheck, rfl, -⟩ := h
  exact ⟨_, hguard, _, hcheck, rfl, rfl⟩

/-- An update of a chain state depends on the state alone. -/
lemma updateChainState_congr {c : String} {old new : ChainState}
    (h : db.updateChainState c old new = .ok db') (t : AuditDb) :
    t.updateChainState c old new = .ok (t.setState c new) := by
  simp only [AuditDb.updateChainState, except_bind_eq_ok_iff, except_pure_eq_ok_iff] at h ⊢
  obtain ⟨_, hguard, _, hcheck, -⟩ := h
  exact ⟨_, hguard, _, hcheck, rfl⟩

/-! ## The four functions -/

/-- `audit_capture_mark_failed` depends on the capture. -/
lemma auditCaptureMarkFailed_congr {orgId : Option Uuid} {x : Uuid}
    {errorClass errorMessage : Option String}
    (h : auditCaptureMarkFailed session now orgId x errorClass errorMessage db = .ok db')
    (ht : db.outbox x = t.outbox x) :
    ∃ row, db' = db.setLifecycle row
        (row.lifecycle.toFailed now (sanitizedError errorClass errorMessage)) ∧
      db.outbox x = some row ∧
      auditCaptureMarkFailed session now orgId x errorClass errorMessage t =
        .ok (t.setLifecycle row
          (row.lifecycle.toFailed now (sanitizedError errorClass errorMessage))) := by
  have hselect : t.selectCapture session x = db.selectCapture session x := by
    rw [AuditDb.selectCapture, AuditDb.selectCapture, ht]
  simp only [auditCaptureMarkFailed, except_bind_eq_ok_iff, hselect] at h ⊢
  obtain ⟨_, htenant, h⟩ := h
  cases hrow : db.selectCapture session x with
  | none => simp [hrow] at h
  | some row =>
    simp only [hrow, except_bind_eq_ok_iff, Prod.exists, except_pure_eq_ok_iff] at h ⊢
    obtain ⟨_, horg, _, hstatus, row', db₁, hupdate, rfl⟩ := h
    obtain ⟨-, rfl⟩ := updateLifecycle_eq_ok hupdate
    exact ⟨row, rfl, (outbox_of_selectCapture hrow).1, _, htenant, _, horg, _, hstatus, row',
      _, updateLifecycle_congr hupdate t, rfl⟩

/-- `audit_capture_insert_locked` depends on the state of its chain, and when it inserts, on the
capture and the index entry. -/
lemma captureInsertWith_congr {p : CaptureInsert} {existing : Option OutboxRow} {seq : ℤ}
    (h : captureInsertWith session now p existing db = .ok (seq, db'))
    (hstate : db.chainState p.chainId = t.chainState p.chainId)
    (hcapture : db.outbox p.captureId = t.outbox p.captureId)
    (hslot : db.outboxSlot (p.chainId, seq) = t.outboxSlot (p.chainId, seq)) :
    ∃ content state, content.chainId = p.chainId ∧
      ((db' = db.setState p.chainId state ∧
          captureInsertWith session now p existing t = .ok (seq, t.setState p.chainId state)) ∨
        (db' = db.addCapture state (newCapture now p content seq) ∧
          captureInsertWith session now p existing t =
            .ok (seq, t.addCapture state (newCapture now p content seq)))) := by
  simp only [captureInsertWith, except_bind_eq_ok_iff] at h ⊢
  obtain ⟨content, hcontent, state, hupsert, _, horg, h⟩ := h
  obtain ⟨-, hchain, -⟩ := content_of_checkCaptureInsert hcontent
  have hupsert' : upsertChainState session content t = .ok state := by
    unfold upsertChainState at hupsert ⊢
    rw [hchain] at hupsert ⊢
    rwa [← hstate]
  refine ⟨content, state, hchain, ?_⟩
  cases existing with
  | some row =>
    simp only [except_bind_eq_ok_iff, except_pure_eq_ok_iff, Prod.mk.injEq] at h ⊢
    obtain ⟨_, hsame, rfl, rfl⟩ := h
    exact .inl ⟨rfl, content, hcontent, state, hupsert', _, horg, _, hsame, rfl, rfl⟩
  | none =>
    simp only [except_bind_eq_ok_iff, except_pure_eq_ok_iff, Prod.mk.injEq] at h ⊢
    obtain ⟨db₁, hdb₁, db₂, hdb₂, rfl, rfl⟩ := h
    obtain rfl := updateChainState_eq_ok hdb₁
    simp only [AuditDb.insertCapture, except_bind_eq_ok_iff, except_pure_eq_ok_iff] at hdb₂
    obtain ⟨_, hfree, _, hfree', rfl⟩ := hdb₂
    refine .inr ⟨?_, content, hcontent, state, hupsert', _, horg, _,
      updateChainState_congr hdb₁ _, _, ?_, rfl, rfl⟩
    · simp [AuditDb.addCapture, AuditDb.setState, newCapture, hchain]
    · simp only [AuditDb.insertCapture, except_bind_eq_ok_iff, except_pure_eq_ok_iff]
      simp only [newCapture, AuditDb.setState, hchain, hcapture, hslot] at hfree hfree' ⊢
      refine ⟨_, hfree, _, hfree', ?_⟩
      simp [AuditDb.addCapture, hchain]

/-- `audit_capture_claim_for_seal`, when it claims a capture, depends on the state of the chain, the
index entry and the capture. -/
lemma auditCaptureClaimForSeal_congr {orgId : Option Uuid} {c : String} {row : OutboxRow}
    (h : auditCaptureClaimForSeal session now orgId c db = .ok (some row, db'))
    (hstate : db.chainState c = t.chainState c)
    (hslot : db.outboxSlot (c, row.captureSeq) = t.outboxSlot (c, row.captureSeq))
    (hcapture : db.outbox row.captureId = t.outbox row.captureId) :
    ∃ old new, old.captureId = row.captureId ∧ db' = db.setLifecycle old new ∧
      auditCaptureClaimForSeal session now orgId c t = .ok (some row, t.setLifecycle old new) := by
  have hselect : t.selectChainState session c = db.selectChainState session c := by
    rw [AuditDb.selectChainState, AuditDb.selectChainState, hstate]
  simp only [auditCaptureClaimForSeal, except_bind_eq_ok_iff, hselect] at h ⊢
  obtain ⟨_, htenant, h⟩ := h
  cases hst : db.selectChainState session c with
  | none => simp [hst] at h
  | some state =>
    simp only [hst, except_bind_eq_ok_iff] at h ⊢
    obtain ⟨_, horg, h⟩ := h
    split at h
    next old hold =>
      split at h
      next hwhere =>
        simp only [except_bind_eq_ok_iff, except_pure_eq_ok_iff, Prod.exists, Prod.mk.injEq,
          Option.some.injEq] at h
        obtain ⟨row', db₁, hupdate, rfl, rfl⟩ := h
        obtain ⟨rfl, rfl⟩ := updateLifecycle_eq_ok hupdate
        obtain ⟨x, hx, hselected⟩ := Option.bind_eq_some_iff.mp hold
        obtain ⟨-, rfl, -⟩ := outbox_of_selectCapture hselected
        dsimp only at hslot hcapture
        have hbind : (t.outboxSlot (c, state.lastSealedCaptureSeq + 1)).bind
            (t.selectCapture session) = some old := by
          rw [← hwhere.2.1, ← hslot, hwhere.2.1, hx, Option.bind_some, AuditDb.selectCapture,
            ← hcapture]
          exact hselected
        refine ⟨old, _, rfl, rfl, _, htenant, _, horg, ?_⟩
        simp only [hbind, if_pos hwhere, except_bind_eq_ok_iff, except_pure_eq_ok_iff]
        exact ⟨_, updateLifecycle_congr hupdate t, rfl⟩
      next => simp at h
    next => simp at h

/-- `audit_capture_mark_sealed` depends on the capture, on the state of its chain, on its ref and on
the ref of the event. -/
lemma auditCaptureMarkSealed_congr {orgId : Option Uuid} {x e : Uuid} {row : OutboxRow}
    (h : auditCaptureMarkSealed session now orgId x e db = .ok db')
    (hrow : db.selectCapture session x = some row) (hcapture : db.outbox x = t.outbox x)
    (hstate : db.chainState row.content.chainId = t.chainState row.content.chainId)
    (href : db.captureRef x = t.captureRef x) (hevent : db.refOfEvent e = t.refOfEvent e) :
    (db' = db ∧ auditCaptureMarkSealed session now orgId x e t = .ok t) ∨
      ∃ state org, db' = db.sealCapture state row org e now ∧
        auditCaptureMarkSealed session now orgId x e t = .ok (t.sealCapture state row org e now) := by
  have hselect : t.selectCapture session x = some row := by
    rw [← hrow, AuditDb.selectCapture, AuditDb.selectCapture, hcapture]
  have hstate' : t.selectChainState session row.content.chainId =
      db.selectChainState session row.content.chainId := by
    rw [AuditDb.selectChainState, AuditDb.selectChainState, hstate]
  have href' : t.selectRef session x = db.selectRef session x := by
    rw [AuditDb.selectRef, AuditDb.selectRef, href]
  obtain ⟨-, rfl, -⟩ := outbox_of_selectCapture hrow
  simp only [auditCaptureMarkSealed, except_bind_eq_ok_iff, hrow, hselect] at h ⊢
  obtain ⟨_, htenant, _, horg, h⟩ := h
  cases hstatus : row.status with
  | sealed =>
    simp only [hstatus, except_bind_eq_ok_iff, except_pure_eq_ok_iff] at h
    obtain ⟨_, hsame, rfl⟩ := h
    refine .inl ⟨rfl, _, htenant, _, horg, ?_⟩
    simp only [href', except_bind_eq_ok_iff, except_pure_eq_ok_iff]
    exact ⟨_, hsame, trivial⟩
  | sealing =>
    simp only [hstatus] at h
    cases hst : db.selectChainState session row.content.chainId with
    | none => simp [hst] at h
    | some state =>
      simp only [hst, except_bind_eq_ok_iff, Prod.exists] at h
      obtain ⟨_, hseq, db₁, hdb₁, row', db₂, hdb₂, hdb'⟩ := h
      cases orgId with
      | none => simp [AuditDb.insertRef] at hdb₁
      | some org =>
        simp only [AuditDb.insertRef, except_bind_eq_ok_iff, except_pure_eq_ok_iff] at hdb₁
        obtain ⟨_, hfree, _, hfree', rfl⟩ := hdb₁
        obtain ⟨-, rfl⟩ := updateLifecycle_eq_ok hdb₂
        obtain rfl := updateChainState_eq_ok hdb'
        refine .inr ⟨state, org, rfl, _, htenant, _, horg, ?_⟩
        rw [href] at hfree
        rw [hevent] at hfree'
        simp only [hstate', hst, except_bind_eq_ok_iff, Prod.exists]
        refine ⟨_, hseq, { t with
          captureRef := update t.captureRef row.captureId (some ⟨org, e, now⟩)
          refOfEvent := update t.refOfEvent e (some row.captureId) }, ?_, _, _,
          updateLifecycle_congr hdb₂ _, (updateChainState_congr hdb' _).trans rfl⟩
        simp only [AuditDb.insertRef, except_bind_eq_ok_iff, except_pure_eq_ok_iff]
        exact ⟨_, hfree, _, hfree', trivial⟩
  | captured => simp [hstatus] at h
  | failed => simp [hstatus] at h

/-! ## Effects are local -/

@[simp] lemma item_chainState (db : AuditDb) (c : String) :
    item db (.chainState c) = db.chainState c := rfl

@[simp] lemma item_capture (db : AuditDb) (x : Uuid) : item db (.capture x) = db.outbox x := rfl

@[simp] lemma item_slot (db : AuditDb) (c : String) (n : ℤ) :
    item db (.slot c n) = db.outboxSlot (c, n) := rfl

@[simp] lemma item_ref (db : AuditDb) (x : Uuid) : item db (.ref x) = db.captureRef x := rfl

@[simp] lemma item_refOfEvent (db : AuditDb) (e : Uuid) :
    item db (.refOfEvent e) = db.refOfEvent e := rfl

@[simp] lemma item_eventChain (db : AuditDb) (c : String) :
    item db (.eventChain c) = db.eventChain c := rfl

@[simp] lemma item_event (db : AuditDb) (e : Uuid) : item db (.event e) = db.eventById e := rfl

/-- An event is added to its chain. -/
def AuditDb.addEvent (db : AuditDb) (row : EventRow) : AuditDb :=
  { db with
    eventChain := update db.eventChain row.chainId (db.eventChain row.chainId ++ [row])
    eventById := update db.eventById row.id (some row) }

section Local

variable {L : Set AuditItem}

/-- Writing one entry of a table keeps the others, and does not look at them. -/
lemma update_congr {α β : Type*} [DecidableEq α] {f g : α → β} {a b : α} {v w : β}
    (hvw : v = w) (h : b ≠ a → f b = g b) : update f a v b = update g a w b := by
  by_cases hb : b = a
  · subst hb
    simpa using hvw
  · simpa [hb] using h hb

lemma localUpdate_setState {c : String} {state : ChainState} (hc : .chainState c ∈ L) :
    LocalUpdate L (fun db : AuditDb => db.setState c state) where
  frame db k hk := by
    cases k with
    | chainState c' => exact update_of_ne (by rintro rfl; exact hk hc) ..
    | _ => rfl
  congr db t h k hk := by
    cases k with
    | chainState c' => exact update_congr rfl fun _ => h _ hk
    | _ => exact h _ hk

lemma localUpdate_setLifecycle {row : OutboxRow} {new : Lifecycle}
    (hx : .capture row.captureId ∈ L) :
    LocalUpdate L (fun db : AuditDb => db.setLifecycle row new) where
  frame db k hk := by
    cases k with
    | capture x => exact update_of_ne (by rintro rfl; exact hk hx) ..
    | _ => rfl
  congr db t h k hk := by
    cases k with
    | capture x => exact update_congr rfl fun _ => h _ hk
    | _ => exact h _ hk

lemma localUpdate_addCapture {state : ChainState} {row : OutboxRow}
    (hc : .chainState row.content.chainId ∈ L) (hx : .capture row.captureId ∈ L)
    (hs : .slot row.content.chainId row.captureSeq ∈ L) :
    LocalUpdate L (fun db : AuditDb => db.addCapture state row) where
  frame db k hk := by
    cases k with
    | chainState c => exact update_of_ne (by rintro rfl; exact hk hc) ..
    | capture x => exact update_of_ne (by rintro rfl; exact hk hx) ..
    | slot c n => exact update_of_ne (by rintro ⟨⟩; exact hk hs) ..
    | _ => rfl
  congr db t h k hk := by
    cases k with
    | chainState c => exact update_congr rfl fun _ => h _ hk
    | capture x => exact update_congr rfl fun _ => h _ hk
    | slot c n => exact update_congr rfl fun _ => h _ hk
    | _ => exact h _ hk

lemma localUpdate_sealCapture {state : ChainState} {row : OutboxRow} {org e : Uuid} {now : ℤ}
    (hc : .chainState row.content.chainId ∈ L) (hx : .capture row.captureId ∈ L)
    (hr : .ref row.captureId ∈ L) (he : .refOfEvent e ∈ L) :
    LocalUpdate L (fun db : AuditDb => db.sealCapture state row org e now) where
  frame db k hk := by
    cases k with
    | chainState c => exact update_of_ne (by rintro rfl; exact hk hc) ..
    | capture x => exact update_of_ne (by rintro rfl; exact hk hx) ..
    | ref x => exact update_of_ne (by rintro rfl; exact hk hr) ..
    | refOfEvent e' => exact update_of_ne (by rintro rfl; exact hk he) ..
    | _ => rfl
  congr db t h k hk := by
    cases k with
    | chainState c => exact update_congr rfl fun _ => h _ hk
    | capture x => exact update_congr rfl fun _ => h _ hk
    | ref x => exact update_congr rfl fun _ => h _ hk
    | refOfEvent e' => exact update_congr rfl fun _ => h _ hk
    | _ => exact h _ hk

lemma localUpdate_addEvent {row : EventRow} (hc : .eventChain row.chainId ∈ L)
    (he : .event row.id ∈ L) : LocalUpdate L (fun db : AuditDb => db.addEvent row) where
  frame db k hk := by
    cases k with
    | eventChain c => exact update_of_ne (by rintro rfl; exact hk hc) ..
    | event e => exact update_of_ne (by rintro rfl; exact hk he) ..
    | _ => rfl
  congr db t h k hk := by
    cases k with
    | eventChain c =>
      have hchain : db.eventChain row.chainId = t.eventChain row.chainId := h _ hc
      exact update_congr (by rw [hchain]) fun _ => h _ hk
    | event e => exact update_congr rfl fun _ => h _ hk
    | _ => exact h _ hk

end Local

/-! ## `auditAppend` -/

section Append

variable {env : SealerEnv} {snapshot snapshot' : AuditDb} {input : AuditAppendInput}
  {output : AuditAppendOutput} {r₁ r₂ id : Uuid}

/-- What `auditAppend` inserts for an input. -/
structure AppendedRow (input : AuditAppendInput) (r₁ : Uuid) (visible : List EventRow)
    (row : EventRow) : Prop where
  id : uuidIn (input.eventId.getD r₁.toText) = some row.id
  orgId : row.orgId.toText = input.orgId
  chainId : row.chainId = input.chainId
  sequenceNumber : row.sequenceNumber = nextSequence (headRow (chainRows input.chainId visible))
  eventType : row.eventType = input.eventType
  eventVersion : row.eventVersion = input.eventVersion
  subjectType : row.subjectType = input.subjectType
  subjectId : uuidIn input.subjectId = some row.subjectId
  payloadHash : row.payloadHash = input.payloadHash
  keyId : row.keyId = input.keyId
  keyVersion : row.keyVersion = input.keyVersion

/-- `auditAppend` returns an event that it found under the explicit id, or inserts a row. -/
lemma auditAppend_eq_ok {crypto : Crypto} {visible : List EventRow}
    {inserted : Option (EventRow × Option PayloadRow)}
    (h : auditAppend crypto session visible input r₁ r₂ = .ok (output, inserted)) :
    session = some input.orgId ∧
      ((inserted = none ∧ ∃ row e, input.eventId.bind uuidIn = some e ∧ row ∈ visible ∧
          row.id = e) ∨
        ∃ row payload, inserted = some (row, payload) ∧ AppendedRow input r₁ visible row) := by
  simp only [auditAppend, except_bind_eq_ok_iff] at h
  obtain ⟨_, hcheck, existing, hfind, h⟩ := h
  have hsession := session_of_checkAppendInput hcheck
  refine ⟨hsession, ?_⟩
  cases existing with
  | some row =>
    simp only [except_bind_eq_ok_iff, except_pure_eq_ok_iff, Prod.mk.injEq] at h
    obtain ⟨_, -, -, rfl⟩ := h
    refine .inl ⟨rfl, row, ?_⟩
    unfold findExistingEvent at hfind
    split at hfind
    · simp at hfind
    · next text htext =>
      simp only [except_map_eq_ok_iff, castUuid_eq_ok_iff] at hfind
      obtain ⟨e, he, hfind⟩ := hfind
      exact ⟨e, by simp [htext, he], List.mem_of_find?_eq_some hfind,
        by simpa using List.find?_some hfind⟩
  | none =>
    simp only [except_bind_eq_ok_iff, except_pure_eq_ok_iff, Prod.mk.injEq] at h
    obtain ⟨call, hsign, ⟨row, payload⟩, hlocked, -, rfl⟩ := h
    obtain ⟨id, orgId, subjectId, hid, hsubject, horg, -, hseq, rfl⟩ :=
      row_of_auditAppendLocked hlocked
    simp only [signAppend, except_bind_eq_ok_iff, except_pure_eq_ok_iff] at hsign
    obtain ⟨bytes, -, rfl⟩ := hsign
    exact .inr ⟨_, payload, rfl, hid, Option.some.inj (horg.symm.trans hsession), rfl, hseq.symm, rfl,
      rfl, rfl, hsubject, rfl, rfl, rfl⟩

/-- `auditAppend` on the tables returns an event that can be read, or adds one with a free id. -/
lemma auditAppendIn_eq_ok
    (h : auditAppendIn env session snapshot db input r₁ r₂ = .ok (output, db')) :
    session = some input.orgId ∧
      ((db' = db ∧ ∃ row e, input.eventId.bind uuidIn = some e ∧
          row ∈ snapshot.readableEvents db session input ∧ row.id = e) ∨
        ∃ row, AppendedRow input r₁ (snapshot.readableEvents db session input) row ∧
          db.eventById row.id = none ∧ db' = db.addEvent row) := by
  simp only [auditAppendIn, except_bind_eq_ok_iff, Prod.exists] at h
  obtain ⟨output', inserted, happend, h⟩ := h
  obtain ⟨hsession, ⟨rfl, hrow⟩ | ⟨row, payload, rfl, hrow⟩⟩ := auditAppend_eq_ok happend
  · simp only [except_pure_eq_ok_iff, Prod.mk.injEq] at h
    exact ⟨hsession, .inl ⟨h.2.symm, hrow⟩⟩
  · simp only [except_bind_eq_ok_iff, except_pure_eq_ok_iff, Prod.mk.injEq,
      AuditDb.insertEvent, rejectIf_eq_ok_iff] at h
    obtain ⟨_, ⟨_, hfree, _, -, rfl⟩, -, rfl⟩ := h
    exact ⟨hsession, .inr ⟨row, hrow, by simpa using hfree, rfl⟩⟩

/-- `auditAppend` depends on the events of its chain, on the event with its id, and on what its
lookup saw under the explicit id. -/
lemma auditAppendIn_congr
    (h : auditAppendIn env session snapshot db input r₁ r₂ = .ok (output, db'))
    (hlookup : ∀ e, input.eventId.bind uuidIn = some e →
      snapshot'.eventById e = snapshot.eventById e)
    (hchain : db.eventChain input.chainId = t.eventChain input.chainId)
    (hid : uuidIn (input.eventId.getD r₁.toText) = some id)
    (hevent : db.eventById id = t.eventById id) :
    (db' = db ∧ auditAppendIn env session snapshot' t input r₁ r₂ = .ok (output, t)) ∨
      ∃ row, row.chainId = input.chainId ∧ row.id = id ∧ db' = db.addEvent row ∧
        auditAppendIn env session snapshot' t input r₁ r₂ = .ok (output, t.addEvent row) := by
  have hreadable : snapshot'.readableEvents t session input =
      snapshot.readableEvents db session input := by
    have hexplicit : (input.eventId.bind uuidIn).bind snapshot'.eventById =
        (input.eventId.bind uuidIn).bind snapshot.eventById := by
      cases he : input.eventId.bind uuidIn with
      | none => rfl
      | some e => exact hlookup e he
    rw [AuditDb.readableEvents, AuditDb.readableEvents, hexplicit, hchain]
  simp only [auditAppendIn, except_bind_eq_ok_iff, Prod.exists, hreadable] at h ⊢
  obtain ⟨output', inserted, happend, h⟩ := h
  obtain ⟨-, ⟨rfl, -⟩ | ⟨row, payload, rfl, hrow⟩⟩ := auditAppend_eq_ok happend
  · simp only [except_pure_eq_ok_iff, Prod.mk.injEq] at h
    obtain ⟨rfl, rfl⟩ := h
    exact .inl ⟨rfl, _, _, happend, rfl⟩
  · simp only [except_bind_eq_ok_iff, except_pure_eq_ok_iff, Prod.mk.injEq,
      AuditDb.insertEvent] at h
    obtain ⟨_, ⟨_, hfree, _, hnumber, rfl⟩, rfl, rfl⟩ := h
    obtain rfl := Option.some.inj (hrow.id.symm.trans hid)
    rw [hevent] at hfree
    rw [hrow.chainId, hchain] at hnumber
    refine .inr ⟨row, hrow.chainId, rfl, rfl, _, _, happend, ?_⟩
    simp only [except_bind_eq_ok_iff, except_pure_eq_ok_iff, AuditDb.insertEvent]
    exact ⟨_, ⟨_, hfree, _, by rwa [hrow.chainId], rfl⟩, rfl⟩

end Append

/-! ## The protocol -/

section Protocol

variable {env : SealerEnv} {captures : Set (Uuid × Uuid)} {H : Set AuditDb} {x x' : SealTx}
  {L : Set AuditItem}

/-- **Every statement is a local update of the items it locks.** -/
lemma SealExec.local (h : SealExec env captures H x db L x' db') (ht : AgreeOn L db t) :
    ∃ f : AuditDb → AuditDb, LocalUpdate L f ∧ db' = f db ∧
      SealExec env captures H x t L x' (f t) := by
  cases h with
  | skip => exact ⟨_, .id _, rfl, .skip⟩
  | @insertCapture _ snapshot now seq p hsnapshot hcapture hcall =>
    have hc : db.chainState p.chainId = t.chainState p.chainId := ht (.chainState _) (by simp)
    have hx : db.outbox p.captureId = t.outbox p.captureId := ht (.capture _) (by simp)
    have hs : db.outboxSlot (p.chainId, seq) = t.outboxSlot (p.chainId, seq) :=
      ht (.slot _ _) (by simp)
    -- a lookup in the transaction's own view finds the same in the other state
    obtain ⟨snapshot', hsnapshot', hlookup⟩ : ∃ snapshot' ∈ insert t H,
        snapshot'.selectCapture x.session p.captureId =
          snapshot.selectCapture x.session p.captureId := by
      rcases Set.mem_insert_iff.mp hsnapshot with rfl | hH
      · exact ⟨t, Set.mem_insert _ _, by rw [AuditDb.selectCapture, AuditDb.selectCapture, hx]⟩
      · exact ⟨snapshot, Set.mem_insert_of_mem _ hH, rfl⟩
    obtain ⟨content, state, hchain, ⟨rfl, hcall'⟩ | ⟨rfl, hcall'⟩⟩ :=
      captureInsertWith_congr hcall hc hx hs
    · exact ⟨_, localUpdate_setState (by simp), rfl,
        .insertCapture hsnapshot' hcapture (hlookup ▸ hcall')⟩
    · exact ⟨_, localUpdate_addCapture (by simp [newCapture, hchain]) (by simp [newCapture])
        (by simp [newCapture, hchain]), rfl,
        .insertCapture hsnapshot' hcapture (hlookup ▸ hcall')⟩
  | @claim _ now orgId chainId row hcall =>
    obtain ⟨old, new, hkey, rfl, hcall'⟩ := auditCaptureClaimForSeal_congr (t := t) hcall
      (ht (.chainState _) (by simp)) (ht (.slot _ _) (by simp)) (ht (.capture _) (by simp))
    exact ⟨_, localUpdate_setLifecycle (by simp [hkey]), rfl, .claim hcall'⟩
  | load hsnapshot hload => exact ⟨_, .id _, rfl, .load hsnapshot hload⟩
  | @append _ snapshot row workerId sealedAt input output r₁ r₂ hpoint hinput hsnapshot hr₁ hr₂
      hcall =>
    have he : input.eventId = some (env.eventIdOf row).toText := by
      simp only [sealingInput, except_bind_eq_ok_iff, except_pure_eq_ok_iff] at hinput
      obtain ⟨event, -, rfl⟩ := hinput
      rfl
    have hevent : db.eventById (env.eventIdOf row) = t.eventById (env.eventIdOf row) :=
      ht (.event _) (by simp)
    obtain ⟨snapshot', hsnapshot', hlookup⟩ : ∃ snapshot' ∈ insert t H,
        snapshot'.eventById (env.eventIdOf row) = snapshot.eventById (env.eventIdOf row) := by
      rcases Set.mem_insert_iff.mp hsnapshot with rfl | hH
      · exact ⟨t, Set.mem_insert _ _, hevent.symm⟩
      · exact ⟨snapshot, Set.mem_insert_of_mem _ hH, rfl⟩
    obtain ⟨rfl, hcall'⟩ | ⟨erow, hc, hid, rfl, hcall'⟩ :=
      @auditAppendIn_congr _ _ _ t _ _ snapshot' _ _ _ _ (env.eventIdOf row) hcall
      (fun e h => by
        have : env.eventIdOf row = e := by simpa [he, uuidIn_toText] using h
        exact this ▸ hlookup)
      (ht (.eventChain _) (by simp)) (by simp [he, uuidIn_toText]) hevent
    · exact ⟨_, .id _, rfl, .append hpoint hinput hsnapshot' hr₁ hr₂ hcall'⟩
    · exact ⟨_, localUpdate_addEvent (by simp [hc]) (by simp [hid]), rfl,
        .append hpoint hinput hsnapshot' hr₁ hr₂ hcall'⟩
  | @markSealed _ row dbRow now hpoint hrow hcall =>
    have hx : db.outbox row.captureId = t.outbox row.captureId := ht (.capture _) (by simp)
    have hkey := (outbox_of_selectCapture hrow).2.1
    have hrow' : t.selectCapture x.session row.captureId = some dbRow := by
      rw [← hrow, AuditDb.selectCapture, AuditDb.selectCapture, hx]
    obtain ⟨rfl, hcall'⟩ | ⟨state, org, rfl, hcall'⟩ := auditCaptureMarkSealed_congr (t := t) hcall
      hrow hx (ht (.chainState _) (by simp)) (ht (.ref _) (by simp)) (ht (.refOfEvent _) (by simp))
    · exact ⟨_, .id _, rfl, .markSealed hpoint hrow' hcall'⟩
    · exact ⟨_, localUpdate_sealCapture (by simp) (by simp [hkey]) (by simp [hkey]) (by simp), rfl,
        .markSealed hpoint hrow' hcall'⟩
  | @markFailed _ now orgId captureId errorClass errorMessage hcall =>
    obtain ⟨row, rfl, hrow, hcall'⟩ := auditCaptureMarkFailed_congr (t := t) hcall
      (ht (.capture _) (by simp))
    obtain ⟨row', hrow', hkey, -⟩ := auditCaptureMarkFailed_eq_ok hcall
    obtain rfl := Option.some.inj (hrow.symm.trans hrow')
    exact ⟨_, localUpdate_setLifecycle (by simp [hkey]), rfl, .markFailed hcall'⟩
  | @directAppend _ snapshot input output r₁ r₂ id hid hderived hsnapshot hr₁ hr₂ hcall =>
    have hevent : db.eventById id = t.eventById id := ht (.event _) (by simp)
    obtain ⟨snapshot', hsnapshot', hlookup⟩ : ∃ snapshot' ∈ insert t H,
        snapshot'.eventById id = snapshot.eventById id := by
      rcases Set.mem_insert_iff.mp hsnapshot with rfl | hH
      · exact ⟨t, Set.mem_insert _ _, hevent.symm⟩
      · exact ⟨snapshot, Set.mem_insert_of_mem _ hH, rfl⟩
    obtain ⟨rfl, hcall'⟩ | ⟨erow, hc, hid', rfl, hcall'⟩ :=
      @auditAppendIn_congr _ _ _ t _ _ snapshot' _ _ _ _ id hcall
      (fun e h => by
        obtain ⟨text, htext, he⟩ := Option.bind_eq_some_iff.mp h
        rw [htext, Option.getD_some, he] at hid
        exact Option.some.inj hid ▸ hlookup)
      (ht (.eventChain _) (by simp)) hid hevent
    · exact ⟨_, .id _, rfl, .directAppend hid hderived hsnapshot' hr₁ hr₂ hcall'⟩
    · exact ⟨_, localUpdate_addEvent (by simp [hc]) (by simp [hid']), rfl,
        .directAppend hid hderived hsnapshot' hr₁ hr₂ hcall'⟩

/-- A statement may look at more committed states. -/
lemma SealExec.mono {H' : Set AuditDb} (hH : H ⊆ H') (h : SealExec env captures H x db L x' db') :
    SealExec env captures H' x db L x' db' := by
  have hinsert : insert db H ⊆ insert db H' := Set.insert_subset_insert hH
  cases h with
  | skip => exact .skip
  | insertCapture hs hcapture hcall => exact .insertCapture (hinsert hs) hcapture hcall
  | claim hcall => exact .claim hcall
  | load hs hload => exact .load (hH hs) hload
  | append hpoint hinput hs hr₁ hr₂ hcall => exact .append hpoint hinput (hinsert hs) hr₁ hr₂ hcall
  | markSealed hpoint hrow hcall => exact .markSealed hpoint hrow hcall
  | markFailed hcall => exact .markFailed hcall
  | directAppend hid hd hs hr₁ hr₂ hcall => exact .directAppend hid hd (hinsert hs) hr₁ hr₂ hcall

/-- The transactions of the sealing protocol, on an empty database at first. -/
def sealProtocol (env : SealerEnv) (captures : Set (Uuid × Uuid)) :
    LockProtocol AuditDb AuditItem SealTx where
  init db := db = emptyAuditDb
  start x := x.point = .ready
  exec := SealExec env captures
  exec_frame {_ _ s _ _ _} h k hk := by
    obtain ⟨f, hf, rfl, -⟩ := h.local (t := s) fun _ _ => rfl
    exact hf.frame s k hk
  exec_local h ht := by
    obtain ⟨f, hf, rfl, h'⟩ := h.local ht
    rwa [← hf.eq_overlay ht]
  exec_mono := SealExec.mono

end Protocol

end GovAI
