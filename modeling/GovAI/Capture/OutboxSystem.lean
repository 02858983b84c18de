import GovAI.Capture.OutboxInvariant
import GovAI.Library.TransitionSystem
import Mathlib.Data.Set.Function
import Mathlib.Order.Interval.Set.Defs

/-!
# Sequences of outbox calls

The capture outbox as a state machine whose steps are the committed calls of its four functions, and
what it promises in every reachable state: `outbox_consistent`.
-/

namespace GovAI

open Function

/-! ## Sequences of calls -/

/-- A call of one of the four functions, with the session it comes from, the time of its
transaction and its advisory lock key. -/
inductive OutboxCall where
  | insertLocked (session : Option String) (now lockKey : ℤ) (p : CaptureInsert)
  | claimForSeal (session : Option String) (now lockKey : ℤ) (orgId : Option Uuid)
      (chainId : String)
  | markSealed (session : Option String) (now lockKey : ℤ) (orgId : Option Uuid)
      (captureId auditEventId : Uuid)
  | markFailed (session : Option String) (now : ℤ) (orgId : Option Uuid) (captureId : Uuid)
      (errorClass errorMessage : Option String)

/-- The database after a call, or the error of the call. -/
def OutboxCall.run (db : AuditDb) : OutboxCall → Except String AuditDb
  | insertLocked session now _ p => (auditCaptureInsertLocked session now p db).map Prod.snd
  | claimForSeal session now _ orgId chainId =>
      (auditCaptureClaimForSeal session now orgId chainId db).map Prod.snd
  | markSealed session now _ orgId captureId auditEventId =>
      auditCaptureMarkSealed session now orgId captureId auditEventId db
  | markFailed session now orgId captureId errorClass errorMessage =>
      auditCaptureMarkFailed session now orgId captureId errorClass errorMessage db

/-- All sequences of committed calls. -/
def outboxSystem : TransitionSystem AuditDb OutboxCall where
  init db := db = emptyAuditDb
  step db call db' := call.run db = .ok db'

/-- Every call keeps the invariant. -/
lemma OutboxInv.step {db db' : AuditDb} (h : OutboxInv db) {call : OutboxCall}
    (hstep : outboxSystem.step db call db') : OutboxInv db' := by
  cases call with
  | insertLocked session now lockKey p =>
    obtain ⟨⟨seq, _⟩, hcall, rfl⟩ := except_map_eq_ok_iff.mp hstep
    exact h.captureInsertWith hcall
  | claimForSeal session now lockKey orgId chainId =>
    obtain ⟨⟨r, _⟩, hcall, rfl⟩ := except_map_eq_ok_iff.mp hstep
    exact h.claimForSeal hcall
  | markSealed session now lockKey orgId captureId auditEventId => exact h.markSealed hstep
  | markFailed session now orgId captureId errorClass errorMessage => exact h.markFailed hstep

/-- The invariant holds after every sequence of committed calls. -/
theorem outboxInv_of_reachable {db : AuditDb} (h : outboxSystem.Reachable db) : OutboxInv db :=
  h.invariant (fun _ hdb => hdb ▸ .empty) fun _ _ _ _ ih hstep => ih.step hstep

/-- A call that commits is a step. -/
lemma OutboxCall.step_of_run {db db' : AuditDb} {call : OutboxCall}
    (h : (call.run db).toOption = some db') : outboxSystem.step db call db' :=
  except_toOption_eq_some_iff.mp h

/-! ## Consistency -/

namespace AuditDb

variable (db : AuditDb)

/-- The captures of a chain. -/
def captures (chainId : String) : Set OutboxRow :=
  {row | (∃ x, db.outbox x = some row) ∧ row.content.chainId = chainId}

/-- The ids of the sealed captures. -/
def sealedCaptures : Set Uuid := {x | ∃ row, db.outbox x = some row ∧ row.status = .sealed}

/-- The `audit_event_id` values of the sealed captures. -/
def sealedEvents : Set Uuid :=
  {e | ∃ x row, db.outbox x = some row ∧ row.status = .sealed ∧ row.lifecycle.auditEventId = some e}

end AuditDb

/-- What the outbox promises, chain by chain. -/
structure OutboxConsistent (db : AuditDb) : Prop where
  /-- Every capture has the tenant of its chain. -/
  tenant : ∀ c, ∀ row ∈ db.captures c, ∃ state, db.chainState c = some state ∧
    row.content.orgId = state.orgId
  /-- The numbers of the captures of a chain are `1, …, last_captured_seq`, each once. -/
  sequence : ∀ c state, db.chainState c = some state →
    Set.BijOn OutboxRow.captureSeq (db.captures c) (Set.Icc 1 state.lastCapturedSeq)
  counters : ∀ c state, db.chainState c = some state →
    0 ≤ state.lastSealedCaptureSeq ∧ state.lastSealedCaptureSeq ≤ state.lastCapturedSeq
  /-- The sealed captures are those up to `last_sealed_capture_seq`. -/
  sealed_iff : ∀ c state, db.chainState c = some state → ∀ row ∈ db.captures c,
    (row.status = .sealed ↔ row.captureSeq ≤ state.lastSealedCaptureSeq)
  /-- At most one capture is being sealed. -/
  sealing_unique : ∀ c, {row ∈ db.captures c | row.status = .sealing}.Subsingleton
  /-- It is the next one. -/
  sealing_next : ∀ c state, db.chainState c = some state → ∀ row ∈ db.captures c,
    row.status = .sealing → row.captureSeq = state.lastSealedCaptureSeq + 1
  /-- The refs are the graph of a bijection between the sealed captures and their events. -/
  refs : ∃ f : Uuid → Uuid, Set.BijOn f db.sealedCaptures db.sealedEvents ∧
    (∀ x row, db.outbox x = some row → row.status = .sealed →
      row.lifecycle.auditEventId = some (f x)) ∧
    ∀ x e, (∃ ref, db.captureRef x = some ref ∧ ref.auditEventId = e) ↔
      x ∈ db.sealedCaptures ∧ f x = e

/-- The refs are the graph of a bijection. -/
lemma OutboxInv.refs_bijOn {db : AuditDb} (h : OutboxInv db) :
    ∃ f : Uuid → Uuid, Set.BijOn f db.sealedCaptures db.sealedEvents ∧
      (∀ x row, db.outbox x = some row → row.status = .sealed →
        row.lifecycle.auditEventId = some (f x)) ∧
      ∀ x e, (∃ ref, db.captureRef x = some ref ∧ ref.auditEventId = e) ↔
        x ∈ db.sealedCaptures ∧ f x = e := by
  let f : Uuid → Uuid := fun x => ((db.captureRef x).map CaptureRef.auditEventId).getD 0
  have hf : ∀ {x ref}, db.captureRef x = some ref → f x = ref.auditEventId := by
    intro x ref hx
    simp [f, hx]
  have hrow : ∀ x row, db.outbox x = some row → row.status = .sealed →
      row.lifecycle.auditEventId = some (f x) := by
    intro x row hx hsealed
    obtain ⟨ref, href, hid⟩ := h.ref hx hsealed
    rw [hid, hf href]
  refine ⟨f, ⟨?_, ?_, ?_⟩, hrow, fun x e => ⟨?_, ?_⟩⟩
  · rintro x ⟨row, hx, hsealed⟩
    exact ⟨x, row, hx, hsealed, hrow x row hx hsealed⟩
  · rintro x ⟨row, hx, hsealed⟩ y ⟨row', hy, hsealed'⟩ hxy
    obtain ⟨ref, href, -⟩ := h.ref hx hsealed
    obtain ⟨ref', href', -⟩ := h.ref hy hsealed'
    have hevent := h.refOfEvent href
    rw [← hf href, hxy, hf href', h.refOfEvent href'] at hevent
    exact (Option.some.inj hevent).symm
  · rintro e ⟨x, row, hx, hsealed, hid⟩
    exact ⟨x, ⟨row, hx, hsealed⟩, Option.some.inj ((hrow x row hx hsealed).symm.trans hid)⟩
  · rintro ⟨ref, href, rfl⟩
    exact ⟨h.ofRef href, hf href⟩
  · rintro ⟨⟨row, hx, hsealed⟩, rfl⟩
    obtain ⟨ref, href, -⟩ := h.ref hx hsealed
    exact ⟨ref, href, (hf href).symm⟩

/-- **The outbox invariant.**  After every sequence of committed calls, by any tenants and with any
lock keys, the outbox is consistent. -/
theorem outbox_consistent {db : AuditDb} (h : outboxSystem.Reachable db) : OutboxConsistent db := by
  have hinv := outboxInv_of_reachable h
  refine ⟨?_, ?_, fun c state => hinv.counters, ?_, ?_, ?_, hinv.refs_bijOn⟩
  · rintro c row ⟨⟨x, hx⟩, rfl⟩
    obtain ⟨state, hstate, horg, -⟩ := hinv.state hx
    exact ⟨state, hstate, horg.symm⟩
  · intro c state hstate
    refine ⟨?_, ?_, ?_⟩
    · rintro row ⟨⟨x, hx⟩, rfl⟩
      obtain ⟨state', hstate', -, hpos, hle⟩ := hinv.state hx
      obtain rfl := Option.some.inj (hstate.symm.trans hstate')
      exact ⟨hpos, hle⟩
    · rintro row ⟨⟨x, hx⟩, hc⟩ row' ⟨⟨y, hy⟩, hc'⟩ hseq
      obtain rfl := hinv.eq_of_seq hx hy (hc.trans hc'.symm) hseq
      exact Option.some.inj (hx.symm.trans hy)
    · rintro n ⟨h₁, h₂⟩
      obtain ⟨x, hslot⟩ := hinv.filled hstate h₁ h₂
      obtain ⟨row, hx, hc, hn⟩ := hinv.ofSlot hslot
      exact ⟨row, ⟨⟨x, hx⟩, hc⟩, hn⟩
  · rintro c state hstate row ⟨⟨x, hx⟩, rfl⟩
    exact hinv.sealed_iff hx hstate
  · rintro c row ⟨⟨⟨x, hx⟩, rfl⟩, hsealing⟩ row' ⟨⟨⟨y, hy⟩, hc⟩, hsealing'⟩
    obtain ⟨state, hstate, -⟩ := hinv.state hx
    have hseq := hinv.sealing hx hstate hsealing
    have hseq' := hinv.sealing hy (hc ▸ hstate) hsealing'
    obtain rfl := hinv.eq_of_seq hx hy hc.symm (hseq.trans hseq'.symm)
    exact Option.some.inj (hx.symm.trans hy)
  · rintro c state hstate row ⟨⟨x, hx⟩, rfl⟩ hsealing
    exact hinv.sealing hx hstate hsealing

/-- A capture. -/
def sampleCapture : CaptureInsert where
  captureId := 7
  orgId := 1
  chainId := "org:1:run"
  chainCategory := "run"
  eventType := "run.completed"
  eventVersion := "1"
  subjectType := "run"
  subjectId := 2
  occurredAt := 0
  payloadHash := []
  payloadEncrypted := none
  dekWrapped := none
  keyId := "k"
  keyVersion := 1
  redactionMetadata := .obj []
  evidenceStrength := "hmac_internal"
  captureIntegrityTag := none
  captureIntegrityAlg := none
  posture := "strict"

/-- The tenant of the sample. -/
def sampleSession : Option String := some sampleCapture.orgId.toText

/-- Two captures of one chain are inserted; the first one is sealed, and the second one fails. -/
def sampleOutboxCalls : List OutboxCall :=
  [.insertLocked sampleSession 0 0 sampleCapture,
    .insertLocked sampleSession 1 0 { sampleCapture with captureId := 8, occurredAt := 1 },
    .claimForSeal sampleSession 2 0 (some 1) sampleCapture.chainId,
    .markSealed sampleSession 3 0 (some 1) 7 9,
    .claimForSeal sampleSession 4 0 (some 1) sampleCapture.chainId,
    .markFailed sampleSession 5 (some 1) 8 (some "timeout") none]

/-- The statuses that these calls leave. -/
lemma sampleOutboxCalls_run :
    ((sampleOutboxCalls.foldlM (fun (db : AuditDb) (call : OutboxCall) => (call.run db).toOption)
        emptyAuditDb).map fun db =>
      ((db.outbox 7).map OutboxRow.status, (db.outbox 8).map OutboxRow.status)) =
      some (some CaptureStatus.sealed, some CaptureStatus.failed) := by
  decide +kernel

/-- A consistent outbox with a sealed and a failed capture. -/
theorem outbox_consistent_sample : ∃ db, (db.outbox 7).map OutboxRow.status = some .sealed ∧
    (db.outbox 8).map OutboxRow.status = some .failed ∧ OutboxConsistent db := by
  obtain ⟨db, hrun, hstatus⟩ := Option.map_eq_some_iff.mp sampleOutboxCalls_run
  obtain ⟨hsealed, hfailed⟩ := Prod.mk.inj hstatus
  have hreach : outboxSystem.Reachable db :=
    .run (.init rfl) (.of_foldlM (fun _ _ _ => OutboxCall.step_of_run) hrun)
  exact ⟨db, hsealed, hfailed, outbox_consistent hreach⟩

end GovAI
