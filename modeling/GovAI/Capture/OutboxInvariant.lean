import GovAI.Capture.Outbox
import Mathlib.Tactic

/-!
# The outbox invariant

Every committed call of the four outbox functions has one of four effects: it creates the state of a
chain, adds a capture behind the last one, moves the lifecycle of a capture, or seals the next
capture.  The first part of this module says so, function by function; the second part shows that
each effect keeps the correspondence between the captures, the counters of their chain, the refs and
the unique indexes.
-/

namespace GovAI

open Function

/-! ## Effects -/

/-- The state of a chain is written. -/
def AuditDb.setState (db : AuditDb) (chainId : String) (state : ChainState) : AuditDb :=
  { db with chainState := update db.chainState chainId (some state) }

/-- The lifecycle of a capture is written. -/
def AuditDb.setLifecycle (db : AuditDb) (row : OutboxRow) (new : Lifecycle) : AuditDb :=
  { db with outbox := update db.outbox row.captureId (some { row with lifecycle := new }) }

/-- A capture is added to its chain. -/
def AuditDb.addCapture (db : AuditDb) (state : ChainState) (row : OutboxRow) : AuditDb :=
  { db with
    chainState := update db.chainState row.content.chainId
      (some { state with lastCapturedSeq := row.captureSeq })
    outbox := update db.outbox row.captureId (some row)
    outboxSlot := update db.outboxSlot (row.content.chainId, row.captureSeq)
      (some row.captureId) }

/-- A capture is sealed as an audit event. -/
def AuditDb.sealCapture (db : AuditDb) (state : ChainState) (row : OutboxRow) (org auditEventId : Uuid)
    (now : ℤ) : AuditDb :=
  { db with
    chainState := update db.chainState row.content.chainId
      (some { state with lastSealedCaptureSeq := row.captureSeq })
    outbox := update db.outbox row.captureId
      (some { row with lifecycle := row.lifecycle.toSealed now auditEventId })
    captureRef := update db.captureRef row.captureId (some ⟨org, auditEventId, now⟩)
    refOfEvent := update db.refOfEvent auditEventId (some row.captureId) }

/-! ## What the functions do -/

section Functions

variable {session : Option String} {now : ℤ} {db db' : AuditDb}

/-- What a session sees is there. -/
lemma outbox_of_selectCapture {x : Uuid} {row : OutboxRow}
    (h : db.selectCapture session x = some row) :
    db.outbox x = some row ∧ row.captureId = x ∧ session = some row.content.orgId.toText := by
  simpa [AuditDb.selectCapture, Option.filter_eq_some_iff, rlsVisible] using h

/-- What a session sees is there. -/
lemma chainState_of_selectChainState {c : String} {state : ChainState}
    (h : db.selectChainState session c = some state) :
    db.chainState c = some state ∧ session = some state.orgId.toText := by
  simpa [AuditDb.selectChainState, Option.filter_eq_some_iff, rlsVisible] using h

/-- An update that succeeds writes the lifecycle. -/
lemma updateLifecycle_eq_ok {row row' : OutboxRow} {new : Lifecycle}
    (h : db.updateLifecycle row new = .ok (row', db')) :
    row' = { row with lifecycle := new } ∧ db' = db.setLifecycle row new := by
  simp only [AuditDb.updateLifecycle, except_bind_eq_ok_iff, except_pure_eq_ok_iff,
    Prod.mk.injEq] at h
  obtain ⟨_, -, _, -, rfl, rfl⟩ := h
  exact ⟨rfl, rfl⟩

/-- An update that succeeds writes the chain state. -/
lemma updateChainState_eq_ok {c : String} {old new : ChainState}
    (h : db.updateChainState c old new = .ok db') : db' = db.setState c new := by
  simp only [AuditDb.updateChainState, except_bind_eq_ok_iff, except_pure_eq_ok_iff] at h
  obtain ⟨_, -, _, -, rfl⟩ := h
  rfl

/-- The checked content is that of the arguments, for the tenant of the session. -/
lemma content_of_checkCaptureInsert {p : CaptureInsert} {content : CaptureContent}
    (h : checkCaptureInsert session p = .ok content) :
    content.orgId = p.orgId ∧ content.chainId = p.chainId ∧ session = some p.orgId.toText := by
  simp only [checkCaptureInsert, except_bind_eq_ok_iff, except_pure_eq_ok_iff,
    rejectIf_eq_ok_iff, TenantMismatch, not_or, Option.mem_def, Option.some.injEq,
    exists_eq_left', not_not] at h
  obtain ⟨_, ⟨-, hsession⟩, _, -, _, -, _, -, _, -, _, -, _, -, rfl⟩ := h
  exact ⟨rfl, rfl, hsession⟩

/-- `audit_capture_insert_locked` finds the state of the chain or creates it; then it returns the
capture it was given, or adds one behind the last. -/
lemma captureInsertWith_eq_ok {p : CaptureInsert} {existing : Option OutboxRow} {seq : ℤ}
    (h : captureInsertWith session now p existing db = .ok (seq, db')) :
    ∃ content state, content.orgId = p.orgId ∧ content.chainId = p.chainId ∧
      session = some p.orgId.toText ∧ state.orgId = p.orgId ∧
      (db.chainState p.chainId = some state ∨
        db.chainState p.chainId = none ∧ state = ⟨p.orgId, content.chainCategory, 0, 0⟩) ∧
      ((∃ row, existing = some row ∧ db' = db.setState p.chainId state) ∨
        (existing = none ∧ db.outbox p.captureId = none ∧
          db' = db.addCapture state (newCapture now p content (state.lastCapturedSeq + 1)))) := by
  simp only [captureInsertWith, except_bind_eq_ok_iff, rejectIf_eq_ok_iff, not_not] at h
  obtain ⟨content, hcontent, state, hupsert, _, horg, h⟩ := h
  obtain ⟨hcorg, hchain, hsession⟩ := content_of_checkCaptureInsert hcontent
  have hstate : db.chainState p.chainId = some state ∨
      db.chainState p.chainId = none ∧ state = ⟨p.orgId, content.chainCategory, 0, 0⟩ := by
    unfold upsertChainState at hupsert
    rw [hchain, hcorg] at hupsert
    split at hupsert
    next hnone => exact .inr ⟨hnone, (Except.ok.inj hupsert).symm⟩
    next st hsome =>
      simp only [except_bind_eq_ok_iff, except_pure_eq_ok_iff] at hupsert
      obtain ⟨_, -, rfl⟩ := hupsert
      exact .inl hsome
  refine ⟨content, state, hcorg, hchain, hsession, horg, hstate, ?_⟩
  cases existing with
  | some row =>
    simp only [except_bind_eq_ok_iff, except_pure_eq_ok_iff, Prod.mk.injEq] at h
    obtain ⟨_, -, -, rfl⟩ := h
    exact .inl ⟨row, rfl, rfl⟩
  | none =>
    simp only [except_bind_eq_ok_iff, except_pure_eq_ok_iff, Prod.mk.injEq] at h
    obtain ⟨db₁, hdb₁, db₂, hdb₂, -, rfl⟩ := h
    obtain rfl := updateChainState_eq_ok hdb₁
    simp only [AuditDb.insertCapture, except_bind_eq_ok_iff, rejectIf_eq_ok_iff,
      except_pure_eq_ok_iff] at hdb₂
    obtain ⟨_, hfree, _, -, rfl⟩ := hdb₂
    refine .inr ⟨rfl, by simpa [newCapture, AuditDb.setState] using hfree, ?_⟩
    simp [AuditDb.addCapture, AuditDb.setState, newCapture, hchain]

/-- `audit_capture_claim_for_seal` leaves the database as it is, or moves the capture behind the last
sealed one from `captured` to `sealing` and returns it. -/
lemma auditCaptureClaimForSeal_eq_ok {orgId : Option Uuid} {c : String} {r : Option OutboxRow}
    (h : auditCaptureClaimForSeal session now orgId c db = .ok (r, db')) :
    (r = none ∧ db' = db) ∨
    ∃ state row, db.chainState c = some state ∧
      db.outboxSlot (c, row.captureSeq) = some row.captureId ∧
      db.outbox row.captureId = some row ∧ row.content.chainId = c ∧
      row.captureSeq = state.lastSealedCaptureSeq + 1 ∧
      session = some row.content.orgId.toText ∧ row.status = .captured ∧
      r = some { row with lifecycle := row.lifecycle.toSealing now } ∧
      db' = db.setLifecycle row (row.lifecycle.toSealing now) := by
  simp only [auditCaptureClaimForSeal, except_bind_eq_ok_iff] at h
  obtain ⟨_, -, h⟩ := h
  split at h
  next =>
    simp only [except_pure_eq_ok_iff, Prod.mk.injEq] at h
    exact .inl ⟨h.1.symm, h.2.symm⟩
  next state hstate =>
    simp only [except_bind_eq_ok_iff] at h
    obtain ⟨_, -, h⟩ := h
    split at h
    next row hrow =>
      split at h
      next hwhere =>
        right
        obtain ⟨hc, hseq, hcaptured⟩ := hwhere
        simp only [except_bind_eq_ok_iff, except_pure_eq_ok_iff, Prod.exists, Prod.mk.injEq] at h
        obtain ⟨row', db₁, hupdate, rfl, rfl⟩ := h
        obtain ⟨rfl, rfl⟩ := updateLifecycle_eq_ok hupdate
        obtain ⟨x, hslot, hx⟩ := Option.bind_eq_some_iff.mp hrow
        obtain ⟨hx, rfl, hsession⟩ := outbox_of_selectCapture hx
        exact ⟨state, row, (chainState_of_selectChainState hstate).1, hseq ▸ hslot, hx, hc, hseq,
          hsession, hcaptured, rfl, rfl⟩
      next =>
        simp only [except_pure_eq_ok_iff, Prod.mk.injEq] at h
        exact .inl ⟨h.1.symm, h.2.symm⟩
    next =>
      simp only [except_pure_eq_ok_iff, Prod.mk.injEq] at h
      exact .inl ⟨h.1.symm, h.2.symm⟩

/-- `audit_capture_mark_sealed` finds the capture sealed as the same event, or seals the next one. -/
lemma auditCaptureMarkSealed_eq_ok {orgId : Option Uuid} {x e : Uuid}
    (h : auditCaptureMarkSealed session now orgId x e db = .ok db') :
    ∃ row, db.outbox x = some row ∧ row.captureId = x ∧
      session = some row.content.orgId.toText ∧
      ((row.status = .sealed ∧ db' = db) ∨
      ∃ state org, row.status = .sealing ∧ db.chainState row.content.chainId = some state ∧
        orgId = some org ∧ row.content.orgId = org ∧
        state.lastSealedCaptureSeq + 1 = row.captureSeq ∧ db.captureRef x = none ∧
        db.refOfEvent e = none ∧ db' = db.sealCapture state row org e now) := by
  simp only [auditCaptureMarkSealed, except_bind_eq_ok_iff] at h
  obtain ⟨_, -, h⟩ := h
  split at h
  next => simp at h
  next row hrow =>
    simp only [except_bind_eq_ok_iff, rejectIf_eq_ok_iff] at h
    obtain ⟨_, horg, h⟩ := h
    obtain ⟨hx, rfl, hsession⟩ := outbox_of_selectCapture hrow
    refine ⟨row, hx, rfl, hsession, ?_⟩
    split at h
    next hstatus =>
      simp only [except_bind_eq_ok_iff, except_pure_eq_ok_iff] at h
      obtain ⟨_, -, rfl⟩ := h
      exact .inl ⟨hstatus, rfl⟩
    next hstatus =>
      split at h
      next => simp at h
      next state hstate =>
        simp only [except_bind_eq_ok_iff, rejectIf_eq_ok_iff, not_not, Prod.exists] at h
        obtain ⟨_, hseq, db₁, hdb₁, row', db₂, hdb₂, hdb'⟩ := h
        cases orgId with
        | none => simp [AuditDb.insertRef] at hdb₁
        | some org =>
          simp only [AuditDb.insertRef, except_bind_eq_ok_iff, rejectIf_eq_ok_iff,
            except_pure_eq_ok_iff] at hdb₁
          obtain ⟨_, href, _, hevent, rfl⟩ := hdb₁
          obtain ⟨rfl, rfl⟩ := updateLifecycle_eq_ok hdb₂
          obtain rfl := updateChainState_eq_ok hdb'
          refine .inr ⟨state, org, hstatus, (chainState_of_selectChainState hstate).1, rfl,
            by simpa using horg, hseq, by simpa using href, by simpa using hevent, rfl⟩
    next => simp at h

/-- `audit_capture_mark_failed` moves a capture that is not sealed yet to `failed`. -/
lemma auditCaptureMarkFailed_eq_ok {orgId : Option Uuid} {x : Uuid}
    {errorClass errorMessage : Option String}
    (h : auditCaptureMarkFailed session now orgId x errorClass errorMessage db = .ok db') :
    ∃ row, db.outbox x = some row ∧ row.captureId = x ∧
      (row.status = .captured ∨ row.status = .sealing) ∧
      db' = db.setLifecycle row
        (row.lifecycle.toFailed now (sanitizedError errorClass errorMessage)) := by
  simp only [auditCaptureMarkFailed, except_bind_eq_ok_iff] at h
  obtain ⟨_, -, h⟩ := h
  split at h
  next => simp at h
  next row hrow =>
    simp only [except_bind_eq_ok_iff, rejectIf_eq_ok_iff, except_pure_eq_ok_iff,
      Prod.exists] at h
    obtain ⟨_, -, _, hstatus, row', db₁, hupdate, rfl⟩ := h
    obtain ⟨-, rfl⟩ := updateLifecycle_eq_ok hupdate
    obtain ⟨hx, hkey, -⟩ := outbox_of_selectCapture hrow
    refine ⟨row, hx, hkey, ?_, rfl⟩
    by_cases hcaptured : row.status = .captured
    · exact .inl hcaptured
    · exact .inr (by simpa [hcaptured] using hstatus)

end Functions

/-! ## The invariant -/

/-- The correspondence between the tables of the capture outbox. -/
structure OutboxInv (db : AuditDb) : Prop where
  /-- A capture is found under its own id. -/
  key : ∀ {x row}, db.outbox x = some row → row.captureId = x
  /-- Its chain has a state, of the same tenant, and counts it. -/
  state : ∀ {x row}, db.outbox x = some row → ∃ state,
    db.chainState row.content.chainId = some state ∧ state.orgId = row.content.orgId ∧
      1 ≤ row.captureSeq ∧ row.captureSeq ≤ state.lastCapturedSeq
  /-- The index on `(chain_id, capture_seq)` has it. -/
  slot : ∀ {x row}, db.outbox x = some row →
    db.outboxSlot (row.content.chainId, row.captureSeq) = some x
  /-- The index has nothing else. -/
  ofSlot : ∀ {c n x}, db.outboxSlot (c, n) = some x →
    ∃ row, db.outbox x = some row ∧ row.content.chainId = c ∧ row.captureSeq = n
  /-- No number up to the last one is skipped. -/
  filled : ∀ {c state n}, db.chainState c = some state → 1 ≤ n → n ≤ state.lastCapturedSeq →
    ∃ x, db.outboxSlot (c, n) = some x
  counters : ∀ {c state}, db.chainState c = some state →
    0 ≤ state.lastSealedCaptureSeq ∧ state.lastSealedCaptureSeq ≤ state.lastCapturedSeq
  /-- The sealed captures are the first ones. -/
  sealed_iff : ∀ {x row state}, db.outbox x = some row →
    db.chainState row.content.chainId = some state →
      (row.status = .sealed ↔ row.captureSeq ≤ state.lastSealedCaptureSeq)
  /-- Only the next one is being sealed. -/
  sealing : ∀ {x row state}, db.outbox x = some row →
    db.chainState row.content.chainId = some state → row.status = .sealing →
      row.captureSeq = state.lastSealedCaptureSeq + 1
  /-- A sealed capture has a ref. -/
  ref : ∀ {x row}, db.outbox x = some row → row.status = .sealed →
    ∃ ref, db.captureRef x = some ref ∧ row.lifecycle.auditEventId = some ref.auditEventId
  /-- Only sealed captures have refs. -/
  ofRef : ∀ {x ref}, db.captureRef x = some ref →
    ∃ row, db.outbox x = some row ∧ row.status = .sealed
  /-- The index on `audit_event_id` has every ref. -/
  refOfEvent : ∀ {x ref}, db.captureRef x = some ref → db.refOfEvent ref.auditEventId = some x

namespace OutboxInv

variable {db : AuditDb}

/-- Two captures of a chain with the same number are the same. -/
lemma eq_of_seq (h : OutboxInv db) {x y : Uuid} {row row' : OutboxRow}
    (hx : db.outbox x = some row) (hy : db.outbox y = some row')
    (hchain : row.content.chainId = row'.content.chainId)
    (hseq : row.captureSeq = row'.captureSeq) : x = y := by
  have hslot := h.slot hx
  rw [hchain, hseq, h.slot hy] at hslot
  exact (Option.some.inj hslot).symm

/-- The number behind the last one is free. -/
lemma slot_next (h : OutboxInv db) {c : String} {state : ChainState}
    (hstate : db.chainState c = some state) :
    db.outboxSlot (c, state.lastCapturedSeq + 1) = none := by
  cases hslot : db.outboxSlot (c, state.lastCapturedSeq + 1) with
  | none => rfl
  | some x =>
    obtain ⟨row, hx, rfl, hseq⟩ := h.ofSlot hslot
    obtain ⟨state', hstate', -, -, hle⟩ := h.state hx
    obtain rfl := Option.some.inj (hstate.symm.trans hstate')
    omega

/-- Creating the state of a chain, or leaving it as it is. -/
lemma setState (h : OutboxInv db) {c : String} {org : Uuid} {category : ChainCategory}
    {state : ChainState} (hstate : db.chainState c = some state ∨
      db.chainState c = none ∧ state = ⟨org, category, 0, 0⟩) : OutboxInv (db.setState c state) := by
  rcases hstate with hstate | ⟨hnone, rfl⟩
  · have : db.setState c state = db := by
      rw [AuditDb.setState, ← hstate, update_eq_self]
    rwa [this]
  · have hrow : ∀ {x row}, db.outbox x = some row → row.content.chainId ≠ c := by
      rintro x row hx rfl
      obtain ⟨state, hstate, -⟩ := h.state hx
      simp [hnone] at hstate
    refine ⟨h.key, fun hx => ?_, h.slot, h.ofSlot, fun {c' state n} hc' h₁ h₂ => ?_,
      fun {c' state} hc' => ?_, fun {x row state} hx hs => ?_, fun {x row state} hx hs => ?_, h.ref,
      h.ofRef, h.refOfEvent⟩
    · simpa [AuditDb.setState, update_of_ne (hrow hx)] using h.state hx
    · by_cases hc : c' = c
      · subst hc
        obtain rfl : _ = state := by simpa [AuditDb.setState] using hc'
        dsimp only at h₂
        omega
      · exact h.filled (by simpa [AuditDb.setState, update_of_ne hc] using hc') h₁ h₂
    · by_cases hc : c' = c
      · subst hc
        obtain rfl : _ = state := by simpa [AuditDb.setState] using hc'
        exact ⟨le_rfl, le_rfl⟩
      · exact h.counters (by simpa [AuditDb.setState, update_of_ne hc] using hc')
    · exact h.sealed_iff hx (by simpa [AuditDb.setState, update_of_ne (hrow hx)] using hs)
    · exact h.sealing hx (by simpa [AuditDb.setState, update_of_ne (hrow hx)] using hs)

/-- Adding a capture behind the last one of its chain. -/
lemma addCapture (h : OutboxInv db) {row : OutboxRow} {state : ChainState}
    (hstate : db.chainState row.content.chainId = some state) (horg : state.orgId = row.content.orgId)
    (hfree : db.outbox row.captureId = none) (hseq : row.captureSeq = state.lastCapturedSeq + 1)
    (hstatus : row.status = .captured) : OutboxInv (db.addCapture state row) := by
  have hcount := h.counters hstate
  have hslot := h.slot_next hstate
  -- the new capture and the old ones, and the chain of the new capture and the other ones
  have hrow : ∀ {x row'}, (db.addCapture state row).outbox x = some row' →
      x = row.captureId ∧ row' = row ∨ x ≠ row.captureId ∧ db.outbox x = some row' := by
    intro x row' hx
    by_cases hxr : x = row.captureId
    · subst hxr
      exact .inl ⟨rfl, by simpa [AuditDb.addCapture, eq_comm] using hx⟩
    · exact .inr ⟨hxr, by simpa [AuditDb.addCapture, update_of_ne hxr] using hx⟩
  have hold : ∀ {x row'}, db.outbox x = some row' →
      (db.addCapture state row).outbox x = some row' := by
    intro x row' hx
    have hxr : x ≠ row.captureId := by
      rintro rfl
      simp [hfree] at hx
    simpa [AuditDb.addCapture, update_of_ne hxr] using hx
  have hchain : ∀ {c state'}, (db.addCapture state row).chainState c = some state' →
      c = row.content.chainId ∧ state' = { state with lastCapturedSeq := row.captureSeq } ∨
        c ≠ row.content.chainId ∧ db.chainState c = some state' := by
    intro c state' hc
    by_cases hcr : c = row.content.chainId
    · subst hcr
      exact .inl ⟨rfl, by simpa [AuditDb.addCapture, eq_comm] using hc⟩
    · exact .inr ⟨hcr, by simpa [AuditDb.addCapture, update_of_ne hcr] using hc⟩
  have hstate' : ∀ {c st}, db.chainState c = some st → ∃ st',
      (db.addCapture state row).chainState c = some st' ∧ st'.orgId = st.orgId ∧
        st.lastCapturedSeq ≤ st'.lastCapturedSeq ∧
        st'.lastSealedCaptureSeq = st.lastSealedCaptureSeq := by
    intro c st hc
    by_cases hcr : c = row.content.chainId
    · subst hcr
      obtain rfl := Option.some.inj (hstate.symm.trans hc)
      exact ⟨{ state with lastCapturedSeq := row.captureSeq }, by simp [AuditDb.addCapture], rfl,
        by simp [hseq], rfl⟩
    · exact ⟨st, by simpa [AuditDb.addCapture, update_of_ne hcr] using hc, rfl, le_rfl, rfl⟩
  constructor
  case key =>
    intro x row' hx
    rcases hrow hx with ⟨rfl, rfl⟩ | ⟨-, hx⟩
    · rfl
    · exact h.key hx
  case state =>
    intro x row' hx
    rcases hrow hx with ⟨rfl, rfl⟩ | ⟨-, hx⟩
    · exact ⟨_, update_self .., horg, by omega, le_rfl⟩
    · obtain ⟨st, hst, horg', h₁, h₂⟩ := h.state hx
      obtain ⟨st', hst', horg'', hle, -⟩ := hstate' hst
      exact ⟨st', hst', horg''.trans horg', h₁, h₂.trans hle⟩
  case slot =>
    intro x row' hx
    rcases hrow hx with ⟨rfl, rfl⟩ | ⟨-, hx⟩
    · exact update_self ..
    · have hne : (row'.content.chainId, row'.captureSeq) ≠
          (row.content.chainId, row.captureSeq) := by
        intro heq
        have := h.slot hx
        rw [heq, hseq, hslot] at this
        simp at this
      simpa [AuditDb.addCapture, update_of_ne hne] using h.slot hx
  case ofSlot =>
    intro c n x hx
    by_cases hcn : (c, n) = (row.content.chainId, row.captureSeq)
    · obtain ⟨rfl, rfl⟩ := Prod.mk.inj hcn
      obtain rfl : row.captureId = x := by simpa [AuditDb.addCapture] using hx
      exact ⟨row, update_self .., rfl, rfl⟩
    · obtain ⟨row', hx', hc, hn⟩ := h.ofSlot (c := c) (n := n) (x := x)
        (by simpa [AuditDb.addCapture, update_of_ne hcn] using hx)
      exact ⟨row', hold hx', hc, hn⟩
  case filled =>
    intro c state' n hc h₁ h₂
    by_cases hcn : (c, n) = (row.content.chainId, row.captureSeq)
    · exact ⟨row.captureId, by simp [AuditDb.addCapture, hcn]⟩
    · have hslots : (db.addCapture state row).outboxSlot (c, n) = db.outboxSlot (c, n) :=
        update_of_ne hcn ..
      rw [hslots]
      rcases hchain hc with ⟨rfl, rfl⟩ | ⟨-, hc⟩
      · refine h.filled hstate h₁ ?_
        have : n ≠ row.captureSeq := fun hn => hcn (by rw [hn])
        dsimp only at h₂
        omega
      · exact h.filled hc h₁ h₂
  case counters =>
    intro c state' hc
    rcases hchain hc with ⟨rfl, rfl⟩ | ⟨-, hc⟩
    · dsimp only
      omega
    · exact h.counters hc
  case sealed_iff =>
    intro x row' state' hx hs
    rcases hrow hx with ⟨rfl, rfl⟩ | ⟨-, hx⟩
    · rcases hchain hs with ⟨-, rfl⟩ | ⟨hne, -⟩
      · simp only [hstatus, reduceCtorEq, false_iff, not_le]
        omega
      · exact absurd rfl hne
    · obtain ⟨st, hst, -⟩ := h.state hx
      obtain ⟨st', hst', -, -, hsealed⟩ := hstate' hst
      obtain rfl := Option.some.inj (hst'.symm.trans hs)
      rw [hsealed]
      exact h.sealed_iff hx hst
  case sealing =>
    intro x row' state' hx hs hsealing
    rcases hrow hx with ⟨rfl, rfl⟩ | ⟨-, hx⟩
    · simp [hstatus] at hsealing
    · obtain ⟨st, hst, -⟩ := h.state hx
      obtain ⟨st', hst', -, -, hsealed⟩ := hstate' hst
      obtain rfl := Option.some.inj (hst'.symm.trans hs)
      rw [hsealed]
      exact h.sealing hx hst hsealing
  case ref =>
    intro x row' hx hsealed
    rcases hrow hx with ⟨rfl, rfl⟩ | ⟨-, hx⟩
    · simp [hstatus] at hsealed
    · exact h.ref hx hsealed
  case ofRef =>
    intro x ref hx
    obtain ⟨row', hx', hsealed⟩ := h.ofRef hx
    exact ⟨row', hold hx', hsealed⟩
  case refOfEvent => exact h.refOfEvent

/-- The rows after one of them was replaced. -/
lemma update_outbox_eq_some {x y : Uuid} {new row : OutboxRow} :
    update db.outbox y (some new) x = some row ↔
      x = y ∧ row = new ∨ x ≠ y ∧ db.outbox x = some row := by
  by_cases hx : x = y
  · subst hx
    simp [eq_comm]
  · simp [hx]

/-- Moving the lifecycle of a capture between statuses other than `sealed`; to `sealing` only when
the capture is the next one. -/
lemma setLifecycle (h : OutboxInv db) {row : OutboxRow} {new : Lifecycle}
    (hrow : db.outbox row.captureId = some row) (hold : row.status ≠ .sealed)
    (hnew : new.status ≠ .sealed)
    (hnext : ∀ {state}, db.chainState row.content.chainId = some state → new.status = .sealing →
      row.captureSeq = state.lastSealedCaptureSeq + 1) : OutboxInv (db.setLifecycle row new) := by
  constructor
  case key =>
    intro x row' hx
    rcases update_outbox_eq_some.mp hx with ⟨rfl, rfl⟩ | ⟨-, hx⟩
    · rfl
    · exact h.key hx
  case state =>
    intro x row' hx
    rcases update_outbox_eq_some.mp hx with ⟨rfl, rfl⟩ | ⟨-, hx⟩
    · exact (h.state hrow :)
    · exact h.state hx
  case slot =>
    intro x row' hx
    rcases update_outbox_eq_some.mp hx with ⟨rfl, rfl⟩ | ⟨-, hx⟩
    · exact (h.slot hrow :)
    · exact h.slot hx
  case ofSlot =>
    intro c n x hx
    obtain ⟨row', hx', hc, hn⟩ := h.ofSlot hx
    by_cases hxr : x = row.captureId
    · subst hxr
      obtain rfl := Option.some.inj (hrow.symm.trans hx')
      exact ⟨_, update_self .., hc, hn⟩
    · exact ⟨row', update_outbox_eq_some.mpr (.inr ⟨hxr, hx'⟩), hc, hn⟩
  case filled => exact h.filled
  case counters => exact h.counters
  case sealed_iff =>
    intro x row' state hx hs
    rcases update_outbox_eq_some.mp hx with ⟨rfl, rfl⟩ | ⟨-, hx⟩
    · exact iff_of_false hnew fun hle => hold ((h.sealed_iff hrow hs).mpr hle)
    · exact h.sealed_iff hx hs
  case sealing =>
    intro x row' state hx hs hsealing
    rcases update_outbox_eq_some.mp hx with ⟨rfl, rfl⟩ | ⟨-, hx⟩
    · exact hnext hs hsealing
    · exact h.sealing hx hs hsealing
  case ref =>
    intro x row' hx hsealed
    rcases update_outbox_eq_some.mp hx with ⟨rfl, rfl⟩ | ⟨-, hx⟩
    · exact absurd hsealed hnew
    · exact h.ref hx hsealed
  case ofRef =>
    intro x ref hx
    obtain ⟨row', hx', hsealed⟩ := h.ofRef hx
    have hxr : x ≠ row.captureId := by
      rintro rfl
      obtain rfl := Option.some.inj (hrow.symm.trans hx')
      exact hold hsealed
    exact ⟨row', update_outbox_eq_some.mpr (.inr ⟨hxr, hx'⟩), hsealed⟩
  case refOfEvent => exact h.refOfEvent

/-- Sealing the next capture as an event that no ref points at. -/
lemma sealCapture (h : OutboxInv db) {row : OutboxRow} {state : ChainState} {org e : Uuid} {now : ℤ}
    (hrow : db.outbox row.captureId = some row)
    (hstate : db.chainState row.content.chainId = some state)
    (hseq : state.lastSealedCaptureSeq + 1 = row.captureSeq) (hevent : db.refOfEvent e = none) :
    OutboxInv (db.sealCapture state row org e now) := by
  have hchain : ∀ {c state'}, (db.sealCapture state row org e now).chainState c = some state' →
      c = row.content.chainId ∧ state' = { state with lastSealedCaptureSeq := row.captureSeq } ∨
        c ≠ row.content.chainId ∧ db.chainState c = some state' := by
    intro c state' hc
    by_cases hcr : c = row.content.chainId
    · subst hcr
      exact .inl ⟨rfl, by simpa [AuditDb.sealCapture, eq_comm] using hc⟩
    · exact .inr ⟨hcr, by simpa [AuditDb.sealCapture, update_of_ne hcr] using hc⟩
  have hstate' : ∀ {c st}, db.chainState c = some st → ∃ st',
      (db.sealCapture state row org e now).chainState c = some st' ∧ st'.orgId = st.orgId ∧
        st'.lastCapturedSeq = st.lastCapturedSeq := by
    intro c st hc
    by_cases hcr : c = row.content.chainId
    · subst hcr
      obtain rfl := Option.some.inj (hstate.symm.trans hc)
      exact ⟨{ state with lastSealedCaptureSeq := row.captureSeq }, update_self .., rfl, rfl⟩
    · exact ⟨st, by simpa [AuditDb.sealCapture, update_of_ne hcr] using hc, rfl, rfl⟩
  -- another capture of the same chain has another number
  have hother : ∀ {x row'}, x ≠ row.captureId → db.outbox x = some row' →
      row'.content.chainId = row.content.chainId → row'.captureSeq ≠ row.captureSeq :=
    fun hx hx' hc hn => hx (h.eq_of_seq hx' hrow hc hn)
  obtain ⟨st, hst, horg, hpos, hle⟩ := h.state hrow
  obtain rfl := Option.some.inj (hstate.symm.trans hst)
  have hcount := h.counters hstate
  constructor
  case key =>
    intro x row' hx
    rcases update_outbox_eq_some.mp hx with ⟨rfl, rfl⟩ | ⟨-, hx⟩
    · rfl
    · exact h.key hx
  case state =>
    intro x row' hx
    rcases update_outbox_eq_some.mp hx with ⟨rfl, rfl⟩ | ⟨-, hx⟩
    · exact ⟨_, update_self .., horg, hpos, hle⟩
    · obtain ⟨st, hst, horg', h₁, h₂⟩ := h.state hx
      obtain ⟨st', hst', horg'', hlast⟩ := hstate' hst
      exact ⟨st', hst', horg''.trans horg', h₁, by omega⟩
  case slot =>
    intro x row' hx
    rcases update_outbox_eq_some.mp hx with ⟨rfl, rfl⟩ | ⟨-, hx⟩
    · exact (h.slot hrow :)
    · exact h.slot hx
  case ofSlot =>
    intro c n x hx
    obtain ⟨row', hx', hc, hn⟩ := h.ofSlot hx
    by_cases hxr : x = row.captureId
    · subst hxr
      obtain rfl := Option.some.inj (hrow.symm.trans hx')
      exact ⟨_, update_self .., hc, hn⟩
    · exact ⟨row', update_outbox_eq_some.mpr (.inr ⟨hxr, hx'⟩), hc, hn⟩
  case filled =>
    intro c state' n hc h₁ h₂
    rcases hchain hc with ⟨rfl, rfl⟩ | ⟨-, hc⟩
    · exact h.filled hstate h₁ h₂
    · exact h.filled hc h₁ h₂
  case counters =>
    intro c state' hc
    rcases hchain hc with ⟨rfl, rfl⟩ | ⟨-, hc⟩
    · dsimp only
      omega
    · exact h.counters hc
  case sealed_iff =>
    intro x row' state' hx hs
    rcases update_outbox_eq_some.mp hx with ⟨rfl, rfl⟩ | ⟨hxr, hx⟩
    · rcases hchain hs with ⟨-, rfl⟩ | ⟨hne, -⟩
      · exact iff_of_true rfl le_rfl
      · exact absurd rfl hne
    · rcases hchain hs with ⟨hc, rfl⟩ | ⟨-, hs⟩
      · have hne := hother hxr hx hc
        rw [h.sealed_iff hx (hc ▸ hstate)]
        dsimp only
        omega
      · exact h.sealed_iff hx hs
  case sealing =>
    intro x row' state' hx hs hsealing
    rcases update_outbox_eq_some.mp hx with ⟨rfl, rfl⟩ | ⟨hxr, hx⟩
    · simp [Lifecycle.toSealed] at hsealing
    · rcases hchain hs with ⟨hc, rfl⟩ | ⟨-, hs⟩
      · have hnext := h.sealing hx (hc ▸ hstate) hsealing
        exact absurd (hnext.trans hseq) (hother hxr hx hc)
      · exact h.sealing hx hs hsealing
  case ref =>
    intro x row' hx hsealed
    rcases update_outbox_eq_some.mp hx with ⟨rfl, rfl⟩ | ⟨hxr, hx⟩
    · exact ⟨⟨org, e, now⟩, update_self .., rfl⟩
    · obtain ⟨ref, href', hid⟩ := h.ref hx hsealed
      exact ⟨ref, (update_of_ne hxr ..).trans href', hid⟩
  case ofRef =>
    intro x ref hx
    by_cases hxr : x = row.captureId
    · subst hxr
      exact ⟨_, update_self .., rfl⟩
    · obtain ⟨row', hx', hsealed⟩ := h.ofRef ((update_of_ne hxr ..).symm.trans hx)
      exact ⟨row', update_outbox_eq_some.mpr (.inr ⟨hxr, hx'⟩), hsealed⟩
  case refOfEvent =>
    intro x ref hx
    by_cases hxr : x = row.captureId
    · subst hxr
      obtain rfl : _ = ref := by simpa [AuditDb.sealCapture] using hx
      exact update_self ..
    · have hx := h.refOfEvent ((update_of_ne hxr ..).symm.trans hx)
      have hne : ref.auditEventId ≠ e := by
        intro he
        rw [he, hevent] at hx
        cases hx
      exact (update_of_ne hne ..).trans hx

/-! ### The functions keep the invariant -/

section Calls

variable {db' : AuditDb} {session : Option String} {now : ℤ}

/-- `audit_capture_insert_locked` keeps the invariant, whatever row its lookup returned. -/
lemma captureInsertWith (h : OutboxInv db) {p : CaptureInsert} {existing : Option OutboxRow} {seq : ℤ}
    (hcall : captureInsertWith session now p existing db = .ok (seq, db')) : OutboxInv db' := by
  obtain ⟨content, state, horg, hchain, -, hsorg, hstate, heffect⟩ := captureInsertWith_eq_ok hcall
  have hset : OutboxInv (db.setState p.chainId state) := h.setState hstate
  rcases heffect with ⟨_, -, rfl⟩ | ⟨-, hfree, rfl⟩
  · exact hset
  · have hsame : (db.setState p.chainId state).addCapture state
        (newCapture now p content (state.lastCapturedSeq + 1)) =
        db.addCapture state (newCapture now p content (state.lastCapturedSeq + 1)) := by
      simp [AuditDb.addCapture, AuditDb.setState, newCapture, hchain]
    rw [← hsame]
    refine hset.addCapture ?_ ?_ hfree rfl rfl
    · simp [AuditDb.setState, newCapture, hchain]
    · exact hsorg.trans horg.symm

/-- `audit_capture_claim_for_seal` keeps the invariant. -/
lemma claimForSeal (h : OutboxInv db) {orgId : Option Uuid} {c : String} {r : Option OutboxRow}
    (hcall : auditCaptureClaimForSeal session now orgId c db = .ok (r, db')) : OutboxInv db' := by
  rcases auditCaptureClaimForSeal_eq_ok hcall with
    ⟨-, rfl⟩ | ⟨state, row, hstate, -, hx, rfl, hseq, -, hcaptured, -, rfl⟩
  · exact h
  · refine h.setLifecycle hx (by simp [hcaptured]) (by simp [Lifecycle.toSealing]) ?_
    intro state' hstate' _
    obtain rfl := Option.some.inj (hstate.symm.trans hstate')
    exact hseq

/-- `audit_capture_mark_sealed` keeps the invariant. -/
lemma markSealed (h : OutboxInv db) {orgId : Option Uuid} {x e : Uuid}
    (hcall : auditCaptureMarkSealed session now orgId x e db = .ok db') : OutboxInv db' := by
  obtain ⟨row, hx, rfl, -, ⟨-, rfl⟩ | ⟨state, org, -, hstate, -, -, hseq, -, hevent, rfl⟩⟩ :=
    auditCaptureMarkSealed_eq_ok hcall
  · exact h
  · exact h.sealCapture hx hstate hseq hevent

/-- `audit_capture_mark_failed` keeps the invariant. -/
lemma markFailed (h : OutboxInv db) {orgId : Option Uuid} {x : Uuid}
    {errorClass errorMessage : Option String}
    (hcall : auditCaptureMarkFailed session now orgId x errorClass errorMessage db = .ok db') :
    OutboxInv db' := by
  obtain ⟨row, hx, rfl, hstatus, rfl⟩ := auditCaptureMarkFailed_eq_ok hcall
  refine h.setLifecycle hx ?_ (by simp [Lifecycle.toFailed]) (by simp [Lifecycle.toFailed])
  rcases hstatus with hstatus | hstatus <;> simp [hstatus]

end Calls

/-- The empty database satisfies the invariant. -/
lemma empty : OutboxInv emptyAuditDb := by
  constructor <;> simp [emptyAuditDb]

end OutboxInv

end GovAI
