import GovAI.Audit.Append
import Mathlib.Logic.Function.Basic

/-!
# The capture outbox

The tables of `0025_audit_capture_outbox_foundation.sql` and the four functions that write them:
`audit_capture_insert_locked` (as replaced by `0026_audit_capture_idempotency_content_anchor.sql`),
`audit_capture_claim_for_seal`, `audit_capture_mark_sealed` and `audit_capture_mark_failed`, with
the triggers and constraints that guard their updates.  A function maps the database to its result
and the new database; an error leaves the database as it was.  The advisory lock key is no argument
of these definitions: it delays a call and has no other effect.
-/

namespace GovAI

open scoped OptionConditions

/-! ## Enumerated columns -/

/-- The values of `chain_category`. -/
inductive ChainCategory where
  | auth
  | run
  | policy
  | admin
deriving DecidableEq

/-- The text of a category. -/
def ChainCategory.text : ChainCategory → String
  | auth => "auth"
  | run => "run"
  | policy => "policy"
  | admin => "admin"

/-- The category written as a text. -/
def ChainCategory.ofText : String → Option ChainCategory
  | "auth" => some auth
  | "run" => some run
  | "policy" => some policy
  | "admin" => some admin
  | _ => none

/-- The values of `posture`. -/
inductive Posture where
  | strict
  | bestEffort
deriving DecidableEq

/-- The text of a posture. -/
def Posture.text : Posture → String
  | strict => "strict"
  | bestEffort => "best_effort"

/-- The posture written as a text. -/
def Posture.ofText : String → Option Posture
  | "strict" => some strict
  | "best_effort" => some bestEffort
  | _ => none

/-- The values of `capture_integrity_alg`. -/
inductive CaptureIntegrityAlg where
  | kmsHmacSha256
  | sha256Digest
deriving DecidableEq

/-- The text of an algorithm. -/
def CaptureIntegrityAlg.text : CaptureIntegrityAlg → String
  | kmsHmacSha256 => "kms_hmac_sha256"
  | sha256Digest => "sha256_digest"

/-- The algorithm written as a text. -/
def CaptureIntegrityAlg.ofText : String → Option CaptureIntegrityAlg
  | "kms_hmac_sha256" => some kmsHmacSha256
  | "sha256_digest" => some sha256Digest
  | _ => none

/-- The values of `status`. -/
inductive CaptureStatus where
  | captured
  | sealing
  | sealed
  | failed
deriving DecidableEq

/-- The text of a status. -/
def CaptureStatus.text : CaptureStatus → String
  | captured => "captured"
  | sealing => "sealing"
  | sealed => "sealed"
  | failed => "failed"

/-! ## Rows -/

/-- A row of `audit_capture_chain_state`. -/
structure ChainState where
  orgId : Uuid
  chainCategory : ChainCategory
  lastCapturedSeq : ℤ
  lastSealedCaptureSeq : ℤ
deriving DecidableEq

/-- The columns of `audit_capture_outbox` that a repeated insert has to match. -/
structure CaptureContent where
  orgId : Uuid
  chainId : String
  chainCategory : ChainCategory
  eventType : String
  eventVersion : String
  subjectType : String
  subjectId : Uuid
  /-- Microseconds from the epoch. -/
  occurredAt : ℤ
  payloadHash : Bytes
  payloadEncrypted : Option Bytes
  dekWrapped : Option Bytes
  keyId : String
  keyVersion : ℤ
  evidenceStrength : String
  captureIntegrityTag : Option Bytes
  captureIntegrityAlg : Option CaptureIntegrityAlg
  posture : Posture
deriving DecidableEq

/-- The columns of `audit_capture_outbox` that change in the life of a capture. -/
structure Lifecycle where
  status : CaptureStatus
  sealingStartedAt : Option ℤ
  sealedAt : Option ℤ
  failedAt : Option ℤ
  auditEventId : Option Uuid
  attempts : ℤ
  lastError : Option String

/-- A row of `audit_capture_outbox`. -/
structure OutboxRow where
  captureId : Uuid
  captureSeq : ℤ
  content : CaptureContent
  redactionMetadata : Json
  capturedAt : ℤ
  lifecycle : Lifecycle

/-- The status of a row. -/
abbrev OutboxRow.status (row : OutboxRow) : CaptureStatus := row.lifecycle.status

/-- A row of `audit_event_capture_refs`. -/
structure CaptureRef where
  orgId : Uuid
  auditEventId : Uuid
  sealedAt : ℤ

/-- The tables of the audit capture and of the audit chain, by their keys, and their unique
indexes. -/
structure AuditDb where
  /-- `audit_capture_chain_state` by `chain_id`. -/
  chainState : String → Option ChainState
  /-- `audit_capture_outbox` by `capture_id`. -/
  outbox : Uuid → Option OutboxRow
  /-- The unique index of the outbox on `(chain_id, capture_seq)`. -/
  outboxSlot : String × ℤ → Option Uuid
  /-- `audit_event_capture_refs` by `capture_id`. -/
  captureRef : Uuid → Option CaptureRef
  /-- The unique index of the refs on `audit_event_id`. -/
  refOfEvent : Uuid → Option Uuid
  /-- The rows of `audit_events` of each chain, in the order of insertion. -/
  eventChain : String → List EventRow
  /-- `audit_events` by `id`. -/
  eventById : Uuid → Option EventRow

/-- The database after the migrations. -/
def emptyAuditDb : AuditDb where
  chainState _ := none
  outbox _ := none
  outboxSlot _ := none
  captureRef _ := none
  refOfEvent _ := none
  eventChain _ := []
  eventById _ := none

/-! ## Sessions and row level security -/

/-- The test that every function starts with.  The comparison with a missing `p_org_id` is `NULL`
and does not raise. -/
def TenantMismatch (session : Option String) (orgId : Option Uuid) : Prop :=
  session.getD "" = "" ∨ ∃ org ∈ orgId, session ≠ some org.toText

instance (session : Option String) (orgId : Option Uuid) :
    Decidable (TenantMismatch session orgId) :=
  inferInstanceAs (Decidable (_ ∨ ∃ org ∈ orgId, session ≠ some org.toText))

/-- The policies of all three tables: `org_id::text = current_setting('app.org_id')`. -/
def rlsVisible (session : Option String) (orgId : Uuid) : Bool := session = some orgId.toText

/-- The chain state a session sees. -/
def AuditDb.selectChainState (db : AuditDb) (session : Option String) (chainId : String) :
    Option ChainState :=
  (db.chainState chainId).filter fun state => rlsVisible session state.orgId

/-- `SELECT * FROM audit_capture_outbox WHERE capture_id = …`. -/
def AuditDb.selectCapture (db : AuditDb) (session : Option String) (captureId : Uuid) :
    Option OutboxRow :=
  (db.outbox captureId).filter fun row =>
    row.captureId = captureId ∧ rlsVisible session row.content.orgId

/-- The ref a session sees. -/
def AuditDb.selectRef (db : AuditDb) (session : Option String) (captureId : Uuid) :
    Option CaptureRef :=
  (db.captureRef captureId).filter fun ref => rlsVisible session ref.orgId

/-! ## Triggers and constraints -/

/-- `audit_capture_outbox_guard` on an update of the lifecycle columns; no statement assigns a
column of identity or content. -/
def outboxGuard (old new : Lifecycle) : Except String Unit :=
  match old.status, new.status with
  | .captured, .sealing =>
      rejectIf new.sealingStartedAt.isNone
        "audit_capture_outbox: sealing_started_at required when status=sealing"
  | .captured, .failed | .sealing, .failed =>
      rejectIf new.failedAt.isNone
        "audit_capture_outbox: failed_at required when status=failed"
  | .sealing, .sealed =>
      rejectIf (new.auditEventId.isNone ∨ new.sealedAt.isNone)
        "audit_capture_outbox: audit_event_id and sealed_at required when status=sealed"
  | a, b =>
      if a = b then
        rejectIf (new.sealingStartedAt ≠ old.sealingStartedAt ∨ new.sealedAt ≠ old.sealedAt ∨
            new.failedAt ≠ old.failedAt ∨ new.auditEventId ≠ old.auditEventId)
          "audit_capture_outbox: lifecycle timestamps frozen at same-status update"
      else
        .error ("audit_capture_outbox: invalid status transition " ++ a.text ++ " -> " ++ b.text)

/-- The constraints of the outbox on the lifecycle columns. -/
def checkLifecycle (new : Lifecycle) : Except String Unit := do
  rejectIf (new.attempts < 0) "check constraint: attempts >= 0"
  rejectIf (2 ^ 31 ≤ new.attempts) "integer out of range"
  rejectIf (new.lastError.any fun e => 200 < e.length) "check constraint: length(last_error) <= 200"
  rejectIf (new.status = .sealed ∧ (new.auditEventId.isNone ∨ new.sealedAt.isNone))
    "check constraint: sealed rows have audit_event_id and sealed_at"
  rejectIf (new.status = .sealed ∧ new.failedAt.isSome)
    "check constraint: sealed rows have no failed_at"
  rejectIf (new.status = .failed ∧ new.failedAt.isNone)
    "check constraint: failed rows have failed_at"
  rejectIf (new.status = .failed ∧ (new.sealedAt.isSome ∨ new.auditEventId.isSome))
    "check constraint: failed rows have no sealed_at and no audit_event_id"

/-- `UPDATE audit_capture_outbox` of one row. -/
def AuditDb.updateLifecycle (db : AuditDb) (row : OutboxRow) (new : Lifecycle) :
    Except String (OutboxRow × AuditDb) := do
  outboxGuard row.lifecycle new
  checkLifecycle new
  let row' := { row with lifecycle := new }
  return (row', { db with outbox := Function.update db.outbox row.captureId (some row') })

/-- `audit_capture_chain_state_guard` on an update of the two counters. -/
def chainStateGuard (old new : ChainState) : Except String Unit := do
  rejectIf (new.lastCapturedSeq < old.lastCapturedSeq)
    ("audit_capture_chain_state: last_captured_seq cannot decrease (" ++
      toString old.lastCapturedSeq ++ " -> " ++ toString new.lastCapturedSeq ++ ")")
  rejectIf (new.lastSealedCaptureSeq ≠ old.lastSealedCaptureSeq ∧
      new.lastSealedCaptureSeq ≠ old.lastSealedCaptureSeq + 1)
    ("audit_capture_chain_state: last_sealed_capture_seq must advance exactly +1 (" ++
      toString old.lastSealedCaptureSeq ++ " -> " ++ toString new.lastSealedCaptureSeq ++ ")")

/-- The constraints of the chain state. -/
def checkChainState (new : ChainState) : Except String Unit := do
  rejectIf (new.lastCapturedSeq < 0) "check constraint: last_captured_seq >= 0"
  rejectIf (new.lastSealedCaptureSeq < 0) "check constraint: last_sealed_capture_seq >= 0"
  rejectIf (new.lastCapturedSeq < new.lastSealedCaptureSeq)
    "check constraint: last_sealed_capture_seq <= last_captured_seq"
  rejectIf (2 ^ 63 ≤ new.lastCapturedSeq) "bigint out of range"

/-- `UPDATE audit_capture_chain_state` of one row. -/
def AuditDb.updateChainState (db : AuditDb) (chainId : String) (old new : ChainState) :
    Except String AuditDb := do
  chainStateGuard old new
  checkChainState new
  return { db with chainState := Function.update db.chainState chainId (some new) }

/-! ## `audit_capture_insert_locked` -/

/-- The arguments of `audit_capture_insert_locked`. -/
structure CaptureInsert where
  captureId : Uuid
  orgId : Uuid
  chainId : String
  chainCategory : String
  eventType : String
  eventVersion : String
  subjectType : String
  subjectId : Uuid
  occurredAt : ℤ
  payloadHash : Bytes
  payloadEncrypted : Option Bytes
  dekWrapped : Option Bytes
  keyId : String
  keyVersion : ℤ
  redactionMetadata : Json
  evidenceStrength : String
  captureIntegrityTag : Option Bytes
  captureIntegrityAlg : Option String
  posture : String

/-- The keys that must not stand at the top of `redaction_metadata`. -/
def rawPayloadKeys : List String := ["prompt", "response", "raw_input", "raw_output"]

/-- `jsonb_typeof(j) = 'object'`. -/
def Json.isObject : Json → Bool
  | .obj _ => true
  | _ => false

/-- `j ? key`. -/
def Json.hasKey (j : Json) (key : String) : Bool := (j.prop key).isSome

/-- The value of an enumerated text, or the error of the function. -/
def parseEnum {α : Type} (value : Option α) (e : String) : Except String α :=
  match value with
  | some a => .ok a
  | none => .error e

/-- The check of `p_capture_integrity_alg`, which may be missing. -/
def parseAlg : Option String → Except String (Option CaptureIntegrityAlg)
  | none => .ok none
  | some alg =>
      (parseEnum (CaptureIntegrityAlg.ofText alg)
        ("audit_capture_insert_locked: invalid capture_integrity_alg " ++ alg)).map some

/-- The checks of `audit_capture_insert_locked` on its arguments; the result is the content of the
row to be inserted. -/
def checkCaptureInsert (session : Option String) (p : CaptureInsert) :
    Except String CaptureContent := do
  rejectIf (TenantMismatch session (some p.orgId))
    ("audit_capture_insert_locked: tenant mismatch (session=" ++
      (if session.getD "" = "" then "NULL" else session.getD "") ++
      " input=" ++ p.orgId.toText ++ ")")
  let chainCategory ← parseEnum (ChainCategory.ofText p.chainCategory)
    ("audit_capture_insert_locked: invalid chain_category " ++ p.chainCategory)
  let posture ← parseEnum (Posture.ofText p.posture)
    ("audit_capture_insert_locked: invalid posture " ++ p.posture)
  rejectIf (!p.redactionMetadata.isObject)
    "audit_capture_insert_locked: redaction_metadata must be a JSON object"
  rejectIf (rawPayloadKeys.any p.redactionMetadata.hasKey)
    ("audit_capture_insert_locked: redaction_metadata cannot contain raw payload keys " ++
      "at top level")
  rejectIf (p.captureIntegrityTag.isNone ≠ p.captureIntegrityAlg.isNone)
    "audit_capture_insert_locked: capture_integrity_tag/alg must be both null or both set"
  let captureIntegrityAlg ← parseAlg p.captureIntegrityAlg
  return {
    orgId := p.orgId
    chainId := p.chainId
    chainCategory := chainCategory
    eventType := p.eventType
    eventVersion := p.eventVersion
    subjectType := p.subjectType
    subjectId := p.subjectId
    occurredAt := p.occurredAt
    payloadHash := p.payloadHash
    payloadEncrypted := p.payloadEncrypted
    dekWrapped := p.dekWrapped
    keyId := p.keyId
    keyVersion := p.keyVersion
    evidenceStrength := p.evidenceStrength
    captureIntegrityTag := p.captureIntegrityTag
    captureIntegrityAlg := captureIntegrityAlg
    posture := posture }

/-- `INSERT … ON CONFLICT (chain_id) DO UPDATE`: the state of the chain, created if missing.  A row
of another tenant fails the policy of the update. -/
def upsertChainState (session : Option String) (content : CaptureContent) (db : AuditDb) :
    Except String ChainState :=
  match db.chainState content.chainId with
  | none => .ok ⟨content.orgId, content.chainCategory, 0, 0⟩
  | some state => do
      rejectIf (!rlsVisible session state.orgId)
        ("new row violates row-level security policy (USING expression) for table " ++
          "audit_capture_chain_state")
      return state

/-- A capture as it is inserted. -/
def newCapture (now : ℤ) (p : CaptureInsert) (content : CaptureContent) (captureSeq : ℤ) :
    OutboxRow where
  captureId := p.captureId
  captureSeq := captureSeq
  content := content
  redactionMetadata := p.redactionMetadata
  capturedAt := now
  lifecycle :=
    { status := .captured, sealingStartedAt := none, sealedAt := none, failedAt := none,
      auditEventId := none, attempts := 0, lastError := none }

/-- `INSERT INTO audit_capture_outbox`, with its two unique indexes. -/
def AuditDb.insertCapture (db : AuditDb) (row : OutboxRow) : Except String AuditDb := do
  rejectIf (db.outbox row.captureId).isSome
    "duplicate key value violates unique constraint audit_capture_outbox_capture_id_key"
  rejectIf (db.outboxSlot (row.content.chainId, row.captureSeq)).isSome
    "duplicate key value violates unique constraint audit_capture_outbox_chain_id_capture_seq_key"
  return { db with
    outbox := Function.update db.outbox row.captureId (some row)
    outboxSlot := Function.update db.outboxSlot (row.content.chainId, row.captureSeq)
      (some row.captureId) }

/-- `audit_capture_insert_locked`, given the row that its `SELECT … WHERE capture_id` returned.  The
result is the `capture_seq`. -/
def captureInsertWith (session : Option String) (now : ℤ) (p : CaptureInsert)
    (existing : Option OutboxRow) (db : AuditDb) : Except String (ℤ × AuditDb) := do
  let content ← checkCaptureInsert session p
  let state ← upsertChainState session content db
  rejectIf (state.orgId ≠ p.orgId) "audit_capture_insert_locked: chain_state tenant mismatch"
  let db := { db with chainState := Function.update db.chainState p.chainId (some state) }
  match existing with
  | some row =>
      rejectIf (row.content ≠ content)
        ("audit_capture_insert_locked: capture_id " ++ p.captureId.toText ++
          " already exists with divergent immutable content")
      return (row.captureSeq, db)
  | none =>
      let nextSeq := state.lastCapturedSeq + 1
      let db ← db.updateChainState p.chainId state { state with lastCapturedSeq := nextSeq }
      let db ← db.insertCapture (newCapture now p content nextSeq)
      return (nextSeq, db)

/-- `audit_capture_insert_locked`. -/
def auditCaptureInsertLocked (session : Option String) (now : ℤ) (p : CaptureInsert)
    (db : AuditDb) : Except String (ℤ × AuditDb) :=
  captureInsertWith session now p (db.selectCapture session p.captureId) db

/-! ## `audit_capture_claim_for_seal` -/

/-- The row a claim writes. -/
def Lifecycle.toSealing (l : Lifecycle) (now : ℤ) : Lifecycle :=
  { l with status := .sealing, sealingStartedAt := some now, attempts := l.attempts + 1 }

/-- `audit_capture_claim_for_seal`: the next capture of the chain goes from `captured` to
`sealing`. -/
def auditCaptureClaimForSeal (session : Option String) (now : ℤ) (orgId : Option Uuid)
    (chainId : String) (db : AuditDb) : Except String (Option OutboxRow × AuditDb) := do
  rejectIf (TenantMismatch session orgId) "audit_capture_claim_for_seal: tenant mismatch"
  match db.selectChainState session chainId with
  -- no captures yet on this chain
  | none => return (none, db)
  | some state =>
      rejectIf (∃ org ∈ orgId, state.orgId ≠ org)
        "audit_capture_claim_for_seal: tenant mismatch on chain state"
      let targetSeq := state.lastSealedCaptureSeq + 1
      match (db.outboxSlot (chainId, targetSeq)).bind (db.selectCapture session) with
      | some row =>
          if row.content.chainId = chainId ∧ row.captureSeq = targetSeq ∧
              row.status = .captured then do
            let (row', db) ← db.updateLifecycle row (row.lifecycle.toSealing now)
            return (some row', db)
          else return (none, db)
      | none => return (none, db)

/-! ## `audit_capture_mark_sealed` -/

/-- `INSERT INTO audit_event_capture_refs`, with its primary key and unique index. -/
def AuditDb.insertRef (db : AuditDb) (captureId : Uuid) (orgId : Option Uuid) (auditEventId : Uuid)
    (now : ℤ) : Except String AuditDb :=
  match orgId with
  | none => .error "null value in column org_id violates not-null constraint"
  | some org => do
      rejectIf (db.captureRef captureId).isSome
        "duplicate key value violates unique constraint audit_event_capture_refs_pkey"
      rejectIf (db.refOfEvent auditEventId).isSome
        ("duplicate key value violates unique constraint " ++
          "audit_event_capture_refs_audit_event_id_key")
      return { db with
        captureRef := Function.update db.captureRef captureId (some ⟨org, auditEventId, now⟩)
        refOfEvent := Function.update db.refOfEvent auditEventId (some captureId) }

/-- The row that sealing writes. -/
def Lifecycle.toSealed (l : Lifecycle) (now : ℤ) (auditEventId : Uuid) : Lifecycle :=
  { l with status := .sealed, sealedAt := some now, auditEventId := some auditEventId }

/-- `audit_capture_mark_sealed`: strictly in the order of `capture_seq`, and idempotent on the same
`audit_event_id`. -/
def auditCaptureMarkSealed (session : Option String) (now : ℤ) (orgId : Option Uuid)
    (captureId auditEventId : Uuid) (db : AuditDb) : Except String AuditDb := do
  rejectIf (TenantMismatch session orgId) "audit_capture_mark_sealed: tenant mismatch"
  match db.selectCapture session captureId with
  | none =>
      .error ("audit_capture_mark_sealed: capture_id " ++ captureId.toText ++ " not found")
  | some row =>
      rejectIf (∃ org ∈ orgId, row.content.orgId ≠ org)
        "audit_capture_mark_sealed: tenant mismatch on capture"
      match row.status with
      | .sealed =>
          rejectIf ((db.selectRef session captureId).map CaptureRef.auditEventId ≠
              some auditEventId)
            ("audit_capture_mark_sealed: capture already sealed with different audit_event_id")
          return db
      | .sealing =>
          match db.selectChainState session row.content.chainId with
          | none =>
              .error ("audit_capture_mark_sealed: sequence mismatch (chain=" ++
                row.content.chainId ++ ", expected next=0, capture_seq=" ++
                toString row.captureSeq ++ ")")
          | some state =>
              rejectIf (state.lastSealedCaptureSeq + 1 ≠ row.captureSeq)
                ("audit_capture_mark_sealed: sequence mismatch (chain=" ++ row.content.chainId ++
                  ", expected next=" ++ toString (state.lastSealedCaptureSeq + 1) ++
                  ", capture_seq=" ++ toString row.captureSeq ++ ")")
              let db ← db.insertRef captureId orgId auditEventId now
              let (_, db) ← db.updateLifecycle row (row.lifecycle.toSealed now auditEventId)
              db.updateChainState row.content.chainId state
                { state with lastSealedCaptureSeq := row.captureSeq }
      | status =>
          .error ("audit_capture_mark_sealed: capture status " ++ status.text ++
            " cannot transition to sealed")

/-! ## `audit_capture_mark_failed` -/

/-- `LEFT('[' || class || '] ' || message, 200)`. -/
def sanitizedError (errorClass errorMessage : Option String) : String :=
  let text := "[" ++ errorClass.getD "unknown" ++ "] " ++ errorMessage.getD "<no_message>"
  String.ofList (text.toList.take 200)

/-- The row that failing writes. -/
def Lifecycle.toFailed (l : Lifecycle) (now : ℤ) (error : String) : Lifecycle :=
  { l with
    status := .failed, failedAt := some now, attempts := l.attempts + 1, lastError := some error }

/-- `audit_capture_mark_failed`. -/
def auditCaptureMarkFailed (session : Option String) (now : ℤ) (orgId : Option Uuid)
    (captureId : Uuid) (errorClass errorMessage : Option String) (db : AuditDb) :
    Except String AuditDb := do
  rejectIf (TenantMismatch session orgId) "audit_capture_mark_failed: tenant mismatch"
  match db.selectCapture session captureId with
  | none =>
      .error ("audit_capture_mark_failed: capture_id " ++ captureId.toText ++ " not found")
  | some row =>
      rejectIf (∃ org ∈ orgId, row.content.orgId ≠ org)
        "audit_capture_mark_failed: tenant mismatch on capture"
      rejectIf (row.status ≠ .captured ∧ row.status ≠ .sealing)
        ("audit_capture_mark_failed: cannot fail capture in status " ++ row.status.text)
      let (_, db) ← db.updateLifecycle row
        (row.lifecycle.toFailed now (sanitizedError errorClass errorMessage))
      return db

end GovAI
