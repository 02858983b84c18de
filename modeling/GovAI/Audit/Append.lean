import GovAI.Audit.Event
import GovAI.Library.Fallible

/-!
# Appending to the audit chain

The computations of `auditAppend` (`append.ts`) and of the SQL function
`govai.audit_append_locked` (`0001_audit_chain.sql`): the checks, the explicit-id reuse, the event
that is signed and the row that is inserted.  What the two read from the database is an argument
here; `GovAI.Audit.AppendSystem` runs them statement by statement inside concurrent transactions.
-/

namespace GovAI

/-! ## Input and output -/

/-- `AuditAppendInput`. -/
structure AuditAppendInput where
  orgId : String
  chainId : String
  eventType : String
  eventVersion : String
  subjectType : String
  subjectId : String
  occurredAt : ℤ
  payloadHash : Bytes
  payloadEncrypted : Option Bytes
  dekWrapped : Option Bytes
  keyId : String
  keyVersion : ℤ
  /-- The properties of a `Record<string, unknown>`. -/
  redactionMetadata : List (JsString × Json)
  evidenceStrength : Option EvidenceStrength
  eventId : Option String

/-- `input.evidenceStrength ?? 'hmac_internal'`. -/
def AuditAppendInput.strength (input : AuditAppendInput) : EvidenceStrength :=
  input.evidenceStrength.getD .hmacInternal

/-- `AuditAppendOutput`; the canonical text is the one `canonicalBytes` encodes. -/
structure AuditAppendOutput where
  eventId : String
  payloadId : Option String
  sequenceNumber : ℤ
  hmac : Bytes
  canonicalBytes : Bytes
  canonicalHash : Bytes

/-- The checks before any lock: the tenant context and the shape of an explicit event id. -/
def checkAppendInput (sessionOrg : Option String) (input : AuditAppendInput) :
    Except String Unit := do
  rejectIf (sessionOrg.getD "" = "" ∨ sessionOrg ≠ some input.orgId)
    ("auditAppend: tenant context mismatch (session=" ++ sessionOrg.getD "NULL" ++
      " input=" ++ input.orgId ++ ")")
  match input.eventId with
  | some id =>
      rejectIf (!isUuid id)
        ("auditAppend: eventId, when provided, must be a UUID (got " ++
          String.ofList (quoteString (jsString id)) ++ ")")
  | none => pure ()

/-! ## Explicit event ids -/

/-- The value of an own property of an object. -/
def Json.prop (key : String) : Json → Option Json
  | .obj props => (props.find? fun p => p.1 == jsString key).map Prod.snd
  | _ => none

/-- `readSealerCaptureId`: `redaction_metadata.audit_sealer.capture_id` when it is a string. -/
def readSealerCaptureId (redaction : Json) : Option JsString :=
  match (redaction.prop "audit_sealer").bind (Json.prop "capture_id") with
  | some (.str s) => some s
  | _ => none

/-- The error of `assertExistingEventMatches` for a field. -/
def mismatch (field : String) : String :=
  "auditAppend: explicit eventId already exists with divergent immutable content " ++
    "(mismatch: " ++ field ++ ")"

/-- `assertExistingEventMatches`: the existing row must carry the content the caller is trying to
append. -/
def assertExistingEventMatches (input : AuditAppendInput) (row : EventRow) :
    Except String Unit := do
  rejectIf (row.orgId.toText ≠ input.orgId) (mismatch "org_id")
  rejectIf (row.chainId ≠ input.chainId) (mismatch "chain_id")
  rejectIf (row.eventType ≠ input.eventType) (mismatch "event_type")
  rejectIf (row.eventVersion ≠ input.eventVersion) (mismatch "event_version")
  rejectIf (row.subjectType ≠ input.subjectType) (mismatch "subject_type")
  rejectIf (row.subjectId.toText ≠ input.subjectId) (mismatch "subject_id")
  rejectIf (row.payloadHash ≠ input.payloadHash) (mismatch "payload_hash")
  rejectIf (input.payloadEncrypted.isSome ≠ input.dekWrapped.isSome)
    (mismatch "payload_storage_presence")
  rejectIf (row.payloadRef.isSome ≠ input.payloadEncrypted.isSome) (mismatch "payload_presence")
  rejectIf (row.keyId ≠ input.keyId) (mismatch "key_id")
  rejectIf (row.keyVersion ≠ input.keyVersion) (mismatch "key_version")
  rejectIf (row.evidenceStrength ≠ input.strength) (mismatch "evidence_strength")
  match readSealerCaptureId (.obj input.redactionMetadata) with
  | some id =>
      rejectIf (readSealerCaptureId row.redactionMetadata ≠ some id)
        (mismatch "redaction_metadata.audit_sealer.capture_id")
  | none => pure ()

/-- `existingEventToOutput`. -/
def existingEventToOutput (row : EventRow) : AuditAppendOutput where
  eventId := row.id.toText
  payloadId := row.payloadRef.map Uuid.toText
  sequenceNumber := row.sequenceNumber
  hmac := row.hmac
  canonicalBytes := row.canonicalBytes
  canonicalHash := row.canonicalHash

/-! ## The head of a chain -/

/-- The row with the greatest sequence number (`ORDER BY sequence_number DESC LIMIT 1`). -/
def headRow : List EventRow → Option EventRow
  | [] => none
  | r :: rs =>
      match headRow rs with
      | none => some r
      | some h => some (if h.sequenceNumber < r.sequenceNumber then r else h)

/-- The rows of one chain among those visible. -/
def chainRows (chainId : String) (rows : List EventRow) : List EventRow :=
  rows.filter fun r => r.chainId = chainId

/-! ## The event that is signed -/

/-- The arguments of `govai.audit_append_locked`, before SQL casts them. -/
structure AppendCall where
  eventId : String
  orgId : String
  chainId : String
  chainLockKey : ℤ
  expectedPrevHmac : Option Bytes
  expectedSequence : ℤ
  canonicalHash : Bytes
  canonicalBytes : Bytes
  hmac : Bytes
  eventType : String
  eventVersion : String
  subjectType : String
  subjectId : String
  occurredAt : ℤ
  payloadHash : Bytes
  payloadId : Option Uuid
  payloadEncrypted : Option Bytes
  dekWrapped : Option Bytes
  keyId : String
  keyVersion : ℤ
  redactionMetadata : Json
  evidenceStrength : EvidenceStrength

/-- The fields of a new event, after the chain head was read. -/
def AuditAppendInput.fields (input : AuditAppendInput) (eventId : String) (payloadId : Option Uuid)
    (prevHmac : Option Bytes) (nextSeq : ℤ) : EventFields where
  eventId := eventId
  orgId := input.orgId
  chainId := input.chainId
  sequenceNumber := nextSeq
  previousHmac := prevHmac
  eventType := input.eventType
  eventVersion := input.eventVersion
  subjectType := input.subjectType
  subjectId := input.subjectId
  occurredAt := input.occurredAt
  payloadHash := input.payloadHash
  payloadRef := payloadId.map Uuid.toText
  keyId := input.keyId
  keyVersion := input.keyVersion
  evidenceStrength := input.strength
  redactionMetadata := .obj input.redactionMetadata

/-- The signing part of `auditAppend`: canonicalise, hash, sign, and assemble the SQL call.
`randomEventId` and `randomPayloadId` are the two `randomUUID()` draws. -/
def signAppend (crypto : Crypto) (input : AuditAppendInput) (prevHmac : Option Bytes)
    (nextSeq : ℤ) (randomEventId randomPayloadId : Uuid) : Except String AppendCall := do
  let eventId := input.eventId.getD randomEventId.toText
  let payloadId := if input.payloadEncrypted.isSome then some randomPayloadId else none
  let canonicalBytes ← (input.fields eventId payloadId prevHmac nextSeq).canonicalBytes
  let ctx : HmacContext :=
    { kms := crypto.kms, orgId := input.orgId, keyId := input.keyId,
      keyVersion := input.keyVersion }
  return {
    eventId := eventId
    orgId := input.orgId
    chainId := input.chainId
    chainLockKey := chainLockKey crypto input.chainId
    expectedPrevHmac := prevHmac
    expectedSequence := nextSeq
    canonicalHash := crypto.sha256 canonicalBytes
    canonicalBytes := canonicalBytes
    hmac := hmacSign ctx canonicalBytes
    eventType := input.eventType
    eventVersion := input.eventVersion
    subjectType := input.subjectType
    subjectId := input.subjectId
    occurredAt := input.occurredAt
    payloadHash := input.payloadHash
    payloadId := payloadId
    payloadEncrypted := input.payloadEncrypted
    dekWrapped := input.dekWrapped
    keyId := input.keyId
    keyVersion := input.keyVersion
    redactionMetadata := .obj input.redactionMetadata
    evidenceStrength := input.strength }

/-! ## The SQL function -/

/-- The cast of a text parameter to `uuid`. -/
def castUuid (text : String) : Except String Uuid :=
  match uuidIn text with
  | some u => .ok u
  | none => .error ("invalid input syntax for type uuid: " ++ text)

/-- The checks of `audit_append_locked` on its arguments alone. -/
def checkAppendCall (sessionOrg : Option String) (orgId : Uuid) (call : AppendCall) :
    Except String Unit := do
  rejectIf (sessionOrg.getD "" = "" ∨ sessionOrg ≠ some orgId.toText)
    ("audit_append_locked: tenant mismatch (session=" ++
      (if sessionOrg.getD "" = "" then "NULL" else sessionOrg.getD "") ++
      " input=" ++ orgId.toText ++ ")")
  rejectIf (call.evidenceStrength ≠ .hmacInternal ∧ call.evidenceStrength ≠ .devSigned)
    ("audit_append_locked: evidence_strength " ++ call.evidenceStrength.text ++
      " not implemented in baseline")
  rejectIf (call.payloadEncrypted.isNone ∧ call.payloadId.isSome)
    "audit_append_locked: payload_id provided without payload_encrypted"
  rejectIf (call.payloadEncrypted.isSome ∧ (call.payloadId.isNone ∨ call.dekWrapped.isNone))
    "audit_append_locked: payload provided without payload_id or dek_wrapped"

/-- The sequence number that continues a chain with the given head. -/
def nextSequence (head : Option EventRow) : ℤ := (head.map EventRow.sequenceNumber).getD 0 + 1

/-- The re-check of the chain head under the lock. -/
def checkAppendHead (call : AppendCall) (head : Option EventRow) : Except String Unit := do
  rejectIf (head.map EventRow.hmac ≠ call.expectedPrevHmac)
    "audit_append_locked: previous_hmac mismatch (chain advanced)"
  rejectIf (nextSequence head ≠ call.expectedSequence)
    ("audit_append_locked: sequence mismatch (expected=" ++ toString call.expectedSequence ++
      " actual_next=" ++ toString (nextSequence head) ++ ")")

/-- The row that `audit_append_locked` inserts into `audit_events`. -/
def AppendCall.row (call : AppendCall) (id orgId subjectId : Uuid) : EventRow where
  id := id
  orgId := orgId
  chainId := call.chainId
  sequenceNumber := call.expectedSequence
  eventType := call.eventType
  eventVersion := call.eventVersion
  subjectType := call.subjectType
  subjectId := subjectId
  occurredAt := call.occurredAt
  payloadHash := call.payloadHash
  payloadRef := call.payloadId
  redactionMetadata := call.redactionMetadata.stored
  previousHmac := call.expectedPrevHmac
  hmac := call.hmac
  canonicalHash := call.canonicalHash
  canonicalBytes := call.canonicalBytes
  keyId := call.keyId
  keyVersion := call.keyVersion
  evidenceStrength := call.evidenceStrength

/-- The row that `audit_append_locked` inserts into `audit_event_payloads`, if any. -/
def AppendCall.payloadRow (call : AppendCall) (orgId : Uuid) : Option PayloadRow :=
  match call.payloadId, call.payloadEncrypted, call.dekWrapped with
  | some id, some encrypted, some dek =>
      some { id := id, orgId := orgId, encryptedPayload := encrypted, dekWrapped := dek,
             keyId := call.keyId, keyVersion := call.keyVersion }
  | _, _, _ => none

/-- `audit_append_locked` up to its inserts: casts, checks, and the head re-read.  The result is
what it inserts. -/
def auditAppendLocked (sessionOrg : Option String) (call : AppendCall) (head : Option EventRow) :
    Except String (EventRow × Option PayloadRow) := do
  let id ← castUuid call.eventId
  let orgId ← castUuid call.orgId
  let subjectId ← castUuid call.subjectId
  rejectIf (2 ^ 63 ≤ call.expectedSequence) "bigint out of range"
  rejectIf (2 ^ 31 ≤ call.keyVersion ∨ call.keyVersion < -2 ^ 31) "integer out of range"
  checkAppendCall sessionOrg orgId call
  checkAppendHead call head
  return (call.row id orgId subjectId, call.payloadRow orgId)

/-! ## The whole call -/

/-- `findExistingEventById`, when an explicit id is given. -/
def findExistingEvent (visible : List EventRow) (input : AuditAppendInput) :
    Except String (Option EventRow) :=
  match input.eventId with
  | none => .ok none
  | some text => (castUuid text).map fun id => visible.find? fun r => r.id = id

/-- The output of a call that inserted a row. -/
def AppendCall.output (call : AppendCall) : AuditAppendOutput where
  eventId := call.eventId
  payloadId := call.payloadId.map Uuid.toText
  sequenceNumber := call.expectedSequence
  hmac := call.hmac
  canonicalBytes := call.canonicalBytes
  canonicalHash := call.canonicalHash

/-- `auditAppend` as one computation, for a transaction that sees the rows `visible` throughout the
call: what it returns, and what it inserts (nothing when it reuses an existing event). -/
def auditAppend (crypto : Crypto) (sessionOrg : Option String) (visible : List EventRow)
    (input : AuditAppendInput) (randomEventId randomPayloadId : Uuid) :
    Except String (AuditAppendOutput × Option (EventRow × Option PayloadRow)) := do
  checkAppendInput sessionOrg input
  match ← findExistingEvent visible input with
  | some row =>
      assertExistingEventMatches input row
      return (existingEventToOutput row, none)
  | none =>
      let head := headRow (chainRows input.chainId visible)
      let call ← signAppend crypto input (head.map EventRow.hmac) (nextSequence head)
        randomEventId randomPayloadId
      let inserted ← auditAppendLocked sessionOrg call head
      return (call.output, some inserted)

end GovAI
