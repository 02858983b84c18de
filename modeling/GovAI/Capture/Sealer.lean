import GovAI.Capture.Outbox
import GovAI.Capture.SealerEventId
import GovAI.Library.LockedTransactions

/-!
# The audit sealer

`sealer.ts` and `stale-recovery.ts`: how a claimed capture becomes an event of the audit chain, and
the statements of all transactions that touch the outbox or the chain (sealing workers, stale
recovery, inserts, failure markers and direct appends), with the rows each of them locks.
-/

namespace GovAI

/-! ## The sealed event -/

/-- What the sealer takes from its platform: the cryptographic primitives, SHA-1, and the database
driver's conversion of a timestamp (microseconds) to a JavaScript date (milliseconds). -/
structure SealerEnv where
  crypto : Crypto
  sha1 : Bytes → Vector UInt8 20
  timestampMillis : ℤ → ℤ

/-- `ClaimedAuditCapture`; `occurredAt` is the instant that the ISO text denotes. -/
structure ClaimedAuditCapture where
  captureId : String
  orgId : String
  chainId : String
  chainCategory : ChainCategory
  captureSeq : String
  eventType : String
  eventVersion : String
  subjectType : String
  subjectId : String
  occurredAt : ℤ
  payloadHash : Bytes
  hasPayloadEncrypted : Bool
  hasDekWrapped : Bool
  keyId : String
  keyVersion : ℤ
  redactionMetadata : List (JsString × Json)
  evidenceStrength : String
  captureIntegrityAlg : Option CaptureIntegrityAlg
  hasCaptureIntegrityTag : Bool
  posture : Posture

/-- The properties of a value if it is a plain object. -/
def Json.plainObject : Json → List (JsString × Json)
  | .obj props => props
  | _ => []

/-- `mapOutboxRowToClaimedAuditCapture`. -/
def claimedOfRow (env : SealerEnv) (row : OutboxRow) : ClaimedAuditCapture where
  captureId := row.captureId.toText
  orgId := row.content.orgId.toText
  chainId := row.content.chainId
  chainCategory := row.content.chainCategory
  captureSeq := toString row.captureSeq
  eventType := row.content.eventType
  eventVersion := row.content.eventVersion
  subjectType := row.content.subjectType
  subjectId := row.content.subjectId.toText
  occurredAt := env.timestampMillis row.content.occurredAt
  payloadHash := row.content.payloadHash
  hasPayloadEncrypted := row.content.payloadEncrypted.isSome
  hasDekWrapped := row.content.dekWrapped.isSome
  keyId := row.content.keyId
  keyVersion := row.content.keyVersion
  redactionMetadata := row.redactionMetadata.plainObject
  evidenceStrength := row.content.evidenceStrength
  captureIntegrityAlg := row.content.captureIntegrityAlg
  hasCaptureIntegrityTag := row.content.captureIntegrityTag.isSome
  posture := row.content.posture

/-- `auditCategoryChainId`. -/
def auditCategoryChainId (orgId : String) (category : ChainCategory) : String :=
  orgId ++ ":" ++ category.text

/-- `safeWorkerId`: a safe subset of the characters, at most 64, and nothing if none is left. -/
def safeWorkerId (workerId : Option String) : Option String :=
  let cleaned := (workerId.getD "").toList.filter (fun c =>
    ('A' ≤ c ∧ c ≤ 'Z') ∨ ('a' ≤ c ∧ c ≤ 'z') ∨ ('0' ≤ c ∧ c ≤ '9') ∨
      c = '.' ∨ c = '_' ∨ c = ':' ∨ c = '-') |>.take 64
  if cleaned = [] then none else some (String.ofList cleaned)

/-- The top-level keys with which a capture is not sealed. -/
def bannedSealingKeys : List String :=
  ["prompt", "response", "raw_input", "raw_output", "messages", "completion", "requestBody",
    "responseBody"]

/-- `{ ...props, [key]: value }`. -/
def setProp (props : List (JsString × Json)) (key : String) (value : Json) :
    List (JsString × Json) :=
  if props.any fun p => p.1 == jsString key then
    props.map fun p => if p.1 == jsString key then (p.1, value) else p
  else props ++ [(jsString key, value)]

/-- The block `audit_sealer` of the redaction metadata. -/
def auditSealerBlock (claimed : ClaimedAuditCapture) (sealedAt : String)
    (worker : Option String) : Json :=
  .obj ([(jsString "version", .num (.int 1)),
      (jsString "capture_id", .text claimed.captureId),
      (jsString "capture_seq", .text claimed.captureSeq),
      (jsString "capture_chain_id", .text claimed.chainId),
      (jsString "chain_category", .text claimed.chainCategory.text),
      (jsString "posture", .text claimed.posture.text),
      (jsString "capture_integrity_alg",
        .nullable (claimed.captureIntegrityAlg.map CaptureIntegrityAlg.text)),
      (jsString "has_payload_encrypted", .bool claimed.hasPayloadEncrypted),
      (jsString "has_dek_wrapped", .bool claimed.hasDekWrapped),
      (jsString "has_capture_integrity_tag", .bool claimed.hasCaptureIntegrityTag),
      (jsString "sealed_at", .text sealedAt),
      (jsString "sealed_by", .text "audit-sealer-core")] ++
    (worker.map fun id => (jsString "worker_id", Json.text id)).toList)

/-- The loop over the banned keys. -/
def checkBannedKeys (redactionMetadata : List (JsString × Json)) : Except String Unit :=
  match bannedSealingKeys.find? fun key => (Json.obj redactionMetadata).hasKey key with
  | some banned =>
      .error ("buildAuditCaptureSealingEvent: refusing to seal claimed.redactionMetadata " ++
        "with banned top-level key " ++ banned)
  | none => .ok ()

/-- `buildAuditCaptureSealingEvent`. -/
def buildAuditCaptureSealingEvent (claimed : ClaimedAuditCapture) (workerId : Option String)
    (sealedAt : ℤ) : Except String AuditAppendInput := do
  checkBannedKeys claimed.redactionMetadata
  let sealedAtText ← toISOString sealedAt
  let _ ← toISOString claimed.occurredAt
  return {
    orgId := claimed.orgId
    chainId := auditCategoryChainId claimed.orgId claimed.chainCategory
    eventType := claimed.eventType
    eventVersion := claimed.eventVersion
    subjectType := claimed.subjectType
    subjectId := claimed.subjectId
    occurredAt := claimed.occurredAt
    payloadHash := claimed.payloadHash
    payloadEncrypted := none
    dekWrapped := none
    keyId := claimed.keyId
    keyVersion := claimed.keyVersion
    redactionMetadata := setProp claimed.redactionMetadata "audit_sealer"
      (auditSealerBlock claimed sealedAtText (safeWorkerId workerId))
    evidenceStrength := some (if claimed.evidenceStrength = "dev_signed" then .devSigned
      else .hmacInternal)
    eventId := none }

/-- The event id under which a row of the outbox is sealed. -/
def SealerEnv.eventIdOf (env : SealerEnv) (row : OutboxRow) : Uuid :=
  deriveAuditSealerCaptureEventId env.sha1 row.content.orgId row.captureId

/-- The argument of `auditAppend` for a claimed or reloaded row: the sealing event under its derived
id. -/
def sealingInput (env : SealerEnv) (row : OutboxRow) (workerId : Option String) (sealedAt : ℤ) :
    Except String AuditAppendInput := do
  let event ← buildAuditCaptureSealingEvent (claimedOfRow env row) workerId sealedAt
  return { event with eventId := some (env.eventIdOf row).toText }

/-! ## `auditAppend` on the tables -/

/-- `INSERT INTO audit_events`, with its primary key and its unique index on
`(chain_id, sequence_number)`. -/
def AuditDb.insertEvent (db : AuditDb) (row : EventRow) : Except String AuditDb := do
  rejectIf (db.eventById row.id).isSome
    "duplicate key value violates unique constraint audit_events_pkey"
  rejectIf ((db.eventChain row.chainId).any fun r => r.sequenceNumber = row.sequenceNumber)
    "duplicate key value violates unique constraint on (chain_id, sequence_number)"
  return { db with
    eventChain := Function.update db.eventChain row.chainId (db.eventChain row.chainId ++ [row])
    eventById := Function.update db.eventById row.id (some row) }

/-- The events a call of `auditAppend` can read: the one with its explicit id, looked up by the
primary key in `snapshot`, and those of its chain, which its advisory lock protects. -/
def AuditDb.readableEvents (snapshot db : AuditDb) (session : Option String)
    (input : AuditAppendInput) : List EventRow :=
  (((input.eventId.bind uuidIn).bind snapshot.eventById).toList ++
    db.eventChain input.chainId).filter fun r => rlsVisible session r.orgId

/-- `auditAppend` on the tables. -/
def auditAppendIn (env : SealerEnv) (session : Option String) (snapshot db : AuditDb)
    (input : AuditAppendInput) (randomEventId randomPayloadId : Uuid) :
    Except String (AuditAppendOutput × AuditDb) := do
  let (output, inserted) ← auditAppend env.crypto session (snapshot.readableEvents db session input)
    input randomEventId randomPayloadId
  match inserted with
  | none => return (output, db)
  | some (row, _) => return (output, ← db.insertEvent row)

/-! ## Items and locks -/

/-- What a statement can lock: a row, an index entry, or a whole chain of the audit log. -/
inductive AuditItem where
  | chainState (chainId : String)
  | capture (captureId : Uuid)
  | slot (chainId : String) (captureSeq : ℤ)
  | ref (captureId : Uuid)
  | refOfEvent (auditEventId : Uuid)
  | eventChain (chainId : String)
  | event (id : Uuid)
deriving DecidableEq

/-- The type of an item. -/
def AuditItem.Val : AuditItem → Type
  | chainState _ => Option ChainState
  | capture _ => Option OutboxRow
  | slot _ _ => Option Uuid
  | ref _ => Option CaptureRef
  | refOfEvent _ => Option Uuid
  | eventChain _ => List EventRow
  | event _ => Option EventRow

/-- The items of a database. -/
def AuditDb.toItems (db : AuditDb) : ∀ k : AuditItem, k.Val
  | .chainState c => db.chainState c
  | .capture x => db.outbox x
  | .slot c n => db.outboxSlot (c, n)
  | .ref x => db.captureRef x
  | .refOfEvent e => db.refOfEvent e
  | .eventChain c => db.eventChain c
  | .event e => db.eventById e

/-- The database with given items. -/
def AuditDb.ofItems (f : ∀ k : AuditItem, k.Val) : AuditDb where
  chainState c := f (.chainState c)
  outbox x := f (.capture x)
  outboxSlot p := f (.slot p.1 p.2)
  captureRef x := f (.ref x)
  refOfEvent e := f (.refOfEvent e)
  eventChain c := f (.eventChain c)
  eventById e := f (.event e)

instance : ItemStore AuditDb AuditItem where
  Val := AuditItem.Val
  items :=
    { toFun := AuditDb.toItems
      invFun := AuditDb.ofItems
      left_inv := fun _ => rfl
      right_inv := fun f => by funext k; cases k <;> rfl }

/-! ## The transactions -/

/-- Where a transaction is: between calls, holding a capture it has claimed or reloaded, or holding
one that it has appended. -/
inductive SealPoint where
  | ready
  | holding (row : OutboxRow)
  | appended (row : OutboxRow)

/-- A transaction of the system, with the organisation of its session. -/
structure SealTx where
  session : Option String
  point : SealPoint

/-- `loadSealingCaptureForRecovery`: the capture, if it is being sealed. -/
def loadSealingCaptureForRecovery (session : Option String) (captureId : Uuid) (db : AuditDb) :
    Option OutboxRow :=
  (db.selectCapture session captureId).filter fun row => row.status = .sealing

/-- An id that `deriveAuditSealerCaptureEventId` computes for one of the captures. -/
def SealerEnv.Derived (env : SealerEnv) (captures : Set (Uuid × Uuid)) (e : Uuid) : Prop :=
  ∃ p ∈ captures, e = deriveAuditSealerCaptureEventId env.sha1 p.1 p.2

/-- The statements, with the items they lock.  `H` are the committed states a statement may look at
without a lock; `captures` are the organisations and ids of all captures that are ever inserted.

Where `auditAppend` is called the random ids are of version 4, and a direct call gives no id or one
that is not derived from a capture, as all its callers in the repository do. -/
inductive SealExec (env : SealerEnv) (captures : Set (Uuid × Uuid)) (H : Set AuditDb) :
    SealTx → AuditDb → Set AuditItem → SealTx → AuditDb → Prop
  /-- A statement without effect, a failed one included; the transaction may also start over. -/
  | skip {x : SealTx} {db : AuditDb} : SealExec env captures H x db ∅ ⟨x.session, .ready⟩ db
  /-- `audit_capture_insert_locked`; the lookup by `capture_id` takes no lock. -/
  | insertCapture {x : SealTx} {db db' snapshot : AuditDb} {now seq : ℤ} {p : CaptureInsert}
      (hsnapshot : snapshot ∈ insert db H) (hcapture : (p.orgId, p.captureId) ∈ captures)
      (hcall : captureInsertWith x.session now p (snapshot.selectCapture x.session p.captureId) db =
        .ok (seq, db')) :
      SealExec env captures H x db
        {.chainState p.chainId, .capture p.captureId, .slot p.chainId seq}
        ⟨x.session, .ready⟩ db'
  /-- `claimAuditCaptureForSeal` with a result. -/
  | claim {x : SealTx} {db db' : AuditDb} {now : ℤ} {orgId : Uuid} {chainId : String}
      {row : OutboxRow}
      (hcall : auditCaptureClaimForSeal x.session now (some orgId) chainId db =
        .ok (some row, db')) :
      SealExec env captures H x db
        {.chainState chainId, .slot chainId row.captureSeq, .capture row.captureId}
        ⟨x.session, .holding row⟩ db'
  /-- `loadSealingCaptureForRecovery` with a result; it is the first statement of a recovery, so it
  sees a committed row. -/
  | load {x : SealTx} {db snapshot : AuditDb} {captureId : Uuid} {row : OutboxRow}
      (hsnapshot : snapshot ∈ H)
      (hload : loadSealingCaptureForRecovery x.session captureId snapshot = some row) :
      SealExec env captures H x db ∅ ⟨x.session, .holding row⟩ db
  /-- `auditAppend` of the sealing event. -/
  | append {x : SealTx} {db db' snapshot : AuditDb} {row : OutboxRow} {workerId : Option String}
      {sealedAt : ℤ} {input : AuditAppendInput} {output : AuditAppendOutput} {r₁ r₂ : Uuid}
      (hpoint : x.point = .holding row) (hinput : sealingInput env row workerId sealedAt = .ok input)
      (hsnapshot : snapshot ∈ insert db H) (hr₁ : r₁.version = 4) (hr₂ : r₂.version = 4)
      (hcall : auditAppendIn env x.session snapshot db input r₁ r₂ = .ok (output, db')) :
      SealExec env captures H x db {.eventChain input.chainId, .event (env.eventIdOf row)}
        ⟨x.session, .appended row⟩ db'
  /-- `markAuditCaptureSealed`. -/
  | markSealed {x : SealTx} {db db' : AuditDb} {row dbRow : OutboxRow} {now : ℤ}
      (hpoint : x.point = .appended row)
      (hrow : db.selectCapture x.session row.captureId = some dbRow)
      (hcall : auditCaptureMarkSealed x.session now (some row.content.orgId) row.captureId
        (env.eventIdOf row) db = .ok db') :
      SealExec env captures H x db
        {.capture row.captureId, .chainState dbRow.content.chainId, .ref row.captureId,
          .refOfEvent (env.eventIdOf row)}
        ⟨x.session, .ready⟩ db'
  /-- `markAuditCaptureFailed`. -/
  | markFailed {x : SealTx} {db db' : AuditDb} {now : ℤ} {orgId : Option Uuid} {captureId : Uuid}
      {errorClass errorMessage : Option String}
      (hcall : auditCaptureMarkFailed x.session now orgId captureId errorClass errorMessage db =
        .ok db') :
      SealExec env captures H x db {.capture captureId} ⟨x.session, .ready⟩ db'
  /-- A direct call of `auditAppend`. -/
  | directAppend {x : SealTx} {db db' snapshot : AuditDb} {input : AuditAppendInput}
      {output : AuditAppendOutput} {r₁ r₂ id : Uuid}
      (hid : uuidIn (input.eventId.getD r₁.toText) = some id) (hderived : input.eventId.isSome →
        ¬env.Derived captures id)
      (hsnapshot : snapshot ∈ insert db H) (hr₁ : r₁.version = 4) (hr₂ : r₂.version = 4)
      (hcall : auditAppendIn env x.session snapshot db input r₁ r₂ = .ok (output, db')) :
      SealExec env captures H x db {.eventChain input.chainId, .event id} ⟨x.session, .ready⟩ db'

end GovAI
