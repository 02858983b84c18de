import GovAI.Audit.CanonicalJson
import Mathlib.Data.BitVec

/-!
# Audit events

The row of `govai.audit_events`, the sixteen fields that `auditAppend` canonicalises and signs, and
the primitives they rest on.  SHA-256 and the KMS are parameters (`Crypto`); the only thing assumed
of the KMS is that its HMAC is a function of the organisation, key id, key version and message.
-/

namespace GovAI

/-! ## Bytes, identifiers and dates -/

/-- A byte string (`Uint8Array`, `Buffer`, `bytea`). -/
abbrev Bytes := List UInt8

/-- `Buffer.from(text, 'utf8')`. -/
def utf8Bytes (text : List Char) : Bytes := text.flatMap String.utf8EncodeChar

/-- `buffer.toString('hex')`. -/
def toHex (b : Bytes) : String :=
  String.ofList (b.flatMap fun x => [hexDigit (x.toNat / 16), hexDigit (x.toNat % 16)])

/-- A value of the SQL type `uuid`. -/
abbrev Uuid := BitVec 128

/-- The equality test of uuids is lawful, as that of texts is. -/
theorem lawfulBEq_uuid : LawfulBEq Uuid := inferInstance

/-- The hexadecimal digits of a `uuid` from position `hi` down to position `lo`. -/
def Uuid.digits (u : Uuid) (hi lo : ℕ) : List Char :=
  ((List.range' lo (hi + 1 - lo)).reverse).map fun i => hexDigit (u.toNat / 16 ^ i % 16)

/-- `uuid::text`: lower case, in groups of 8-4-4-4-12. -/
def Uuid.toText (u : Uuid) : String :=
  String.ofList (u.digits 31 24 ++ '-' :: u.digits 23 20 ++ '-' :: u.digits 19 16 ++
    '-' :: u.digits 15 12 ++ '-' :: u.digits 11 0)

/-- The text of a `uuid` has 36 characters. -/
lemma Uuid.length_toText (u : Uuid) : u.toText.length = 36 := by
  simp only [Uuid.toText, Uuid.digits, String.length_ofList, List.length_append, List.length_cons,
    List.length_map, List.length_reverse, List.length_range']

/-- The value of a hexadecimal digit of either case. -/
def hexValue (c : Char) : Option ℕ :=
  if '0' ≤ c ∧ c ≤ '9' then some (c.toNat - 48)
  else if 'a' ≤ c ∧ c ≤ 'f' then some (c.toNat - 87)
  else if 'A' ≤ c ∧ c ≤ 'F' then some (c.toNat - 55)
  else none

/-- A hexadecimal digit is read back. -/
lemma hexValue_hexDigit {n : ℕ} (hn : n < 16) : hexValue (hexDigit n) = some n := by
  revert n
  decide

/-- The value of a byte written as two hexadecimal digits. -/
def hexByte (c d : Char) : Option ℕ := do
  return (← hexValue c) * 16 + (← hexValue d)

/-- The scanning loop of `text::uuid`, from byte `i` on: two digits for each byte, and a hyphen
allowed after every second byte. -/
def uuidScan (i acc : ℕ) : List Char → Option ℕ
  | [] => if i = 16 then some acc else none
  | '-' :: c :: d :: rest =>
      if i % 2 = 0 ∧ 0 < i ∧ i < 16 then
        (hexByte c d).bind fun b => uuidScan (i + 1) (acc * 256 + b) rest
      else none
  | c :: d :: rest =>
      if i < 16 then (hexByte c d).bind fun b => uuidScan (i + 1) (acc * 256 + b) rest else none
  | [_] => none

/-- `text::uuid`: digits of either case, hyphens optional, braces optional. -/
def uuidIn (text : String) : Option Uuid :=
  let digits : Option (List Char) :=
    match text.toList with
    | '\x7b' :: rest => if rest.getLast? = some '\x7d' then some rest.dropLast else none
    | cs => some cs
  digits.bind fun cs => (uuidScan 0 0 cs).map (BitVec.ofNat 128)

/-- The test `UUID_RE` of `append.ts`: 8-4-4-4-12 hexadecimal digits of either case. -/
def isUuid (text : String) : Bool :=
  let cs := text.toList
  cs.length = 36 &&
    cs.zipIdx.all fun ci =>
      if ci.2 = 8 ∨ ci.2 = 13 ∨ ci.2 = 18 ∨ ci.2 = 23 then ci.1 = '-' else (hexValue ci.1).isSome

/-- A number printed with at least `width` digits. -/
def padded (width n : ℕ) : List Char :=
  let ds := Nat.toDigits 10 n
  List.replicate (width - ds.length) '0' ++ ds

/-- Year, month and day of a day count from 1970-01-01. -/
def civilFromDays (days : ℤ) : ℤ × ℕ × ℕ :=
  let z := days + 719468
  let era := z / 146097
  let doe := (z - era * 146097).toNat
  let yoe := (doe - doe / 1460 + doe / 36524 - doe / 146096) / 365
  let doy := doe - (365 * yoe + yoe / 4 - yoe / 100)
  let mp := (5 * doy + 2) / 153
  let month := if mp < 10 then mp + 3 else mp - 9
  let year := (yoe : ℤ) + era * 400 + (if month ≤ 2 then 1 else 0)
  (year, month, doy - (153 * mp + 2) / 5 + 1)

/-- `date.toISOString()` of a date given in milliseconds from the epoch. -/
def toISOString (ms : ℤ) : Except String String :=
  if 8640000000000000 < ms.natAbs then .error "Invalid time value"
  else
    let (year, month, day) := civilFromDays (ms / 86400000)
    let t := (ms % 86400000).toNat
    let yearText :=
      if 0 ≤ year ∧ year ≤ 9999 then padded 4 year.toNat
      else (if year < 0 then '-' else '+') :: padded 6 year.natAbs
    .ok (String.ofList (yearText ++ '-' :: padded 2 month ++ '-' :: padded 2 day ++
      'T' :: padded 2 (t / 3600000) ++ ':' :: padded 2 (t / 60000 % 60) ++
      ':' :: padded 2 (t / 1000 % 60) ++ '.' :: padded 3 (t % 1000) ++ ['Z']))

/-! ## Primitives -/

/-- The KMS operation the audit chain uses: an HMAC under a derived key. -/
structure Kms where
  /-- `kms.hmacSha256({ purpose, orgId, keyId, version, message })`. -/
  hmacSha256 (purpose orgId keyId : String) (version : ℤ) (message : Bytes) : Bytes

/-- The cryptographic primitives, kept abstract. -/
structure Crypto where
  /-- `sha256` of `hash.ts`. -/
  sha256 : Bytes → Bytes
  /-- The injected key management service. -/
  kms : Kms

/-- `HmacContext` of `hmac.ts`. -/
structure HmacContext where
  kms : Kms
  orgId : String
  keyId : String
  keyVersion : ℤ

/-- `hmacSign`. -/
def hmacSign (ctx : HmacContext) (message : Bytes) : Bytes :=
  ctx.kms.hmacSha256 "audit_hmac" ctx.orgId ctx.keyId ctx.keyVersion message

/-- `hmacVerify`: the tag is recomputed and compared without an early exit. -/
def hmacVerify (ctx : HmacContext) (message expected : Bytes) : Bool :=
  let actual := hmacSign ctx message
  if actual.length ≠ expected.length then false
  else (actual.zip expected).foldl (fun diff p => diff ||| (p.1 ^^^ p.2)) 0 == 0

/-- The accumulated difference is zero exactly when it started at zero and the lists agree. -/
lemma foldl_xor_eq_zero_iff {xs ys : Bytes} (hlen : xs.length = ys.length) (d : UInt8) :
    (xs.zip ys).foldl (fun diff p => diff ||| (p.1 ^^^ p.2)) d = 0 ↔ d = 0 ∧ xs = ys := by
  induction xs generalizing ys d with
  | nil =>
    obtain rfl := List.length_eq_zero_iff.mp hlen.symm
    simp
  | cons x xs ih =>
    obtain ⟨y, ys, rfl⟩ := List.exists_cons_of_length_eq_add_one hlen.symm
    have h : d ||| (x ^^^ y) = 0 ↔ d = 0 ∧ x = y := by
      simp [← UInt8.toBitVec_inj, BitVec.or_eq_zero_iff, BitVec.xor_eq_zero_iff]
    simp only [List.zip_cons_cons, List.foldl_cons, List.cons.injEq]
    rw [ih (by simpa using hlen), h]
    tauto

/-- `hmacVerify` accepts exactly the tag that `hmacSign` computes. -/
@[simp] theorem hmacVerify_eq_true_iff (ctx : HmacContext) (message expected : Bytes) :
    hmacVerify ctx message expected = true ↔ hmacSign ctx message = expected := by
  unfold hmacVerify
  by_cases hlen : (hmacSign ctx message).length = expected.length
  · simpa [hlen] using foldl_xor_eq_zero_iff hlen 0
  · simp only [ne_eq, hlen, not_false_eq_true, ↓reduceIte, Bool.false_eq_true, false_iff]
    rintro rfl
    exact hlen rfl

/-- The first eight bytes of a digest as a big-endian signed integer. -/
def bigInt64 (digest : Bytes) : ℤ :=
  (BitVec.ofNat 64 ((digest.take 8).foldl (fun acc b => acc * 256 + b.toNat) 0)).toInt

/-- `chainLockKey`: the advisory lock key of a chain. -/
def chainLockKey (crypto : Crypto) (chainId : String) : ℤ :=
  bigInt64 (crypto.sha256 (utf8Bytes chainId.toList))

/-! ## Fields and rows -/

/-- The values of the `evidence_strength` column. -/
inductive EvidenceStrength where
  | hmacInternal
  | devSigned
  | externalAnchor
  | customerSigned
  | icpBrasilTsa
deriving DecidableEq

/-- The text stored in the column. -/
def EvidenceStrength.text : EvidenceStrength → String
  | hmacInternal => "hmac_internal"
  | devSigned => "dev_signed"
  | externalAnchor => "external_anchor"
  | customerSigned => "customer_signed"
  | icpBrasilTsa => "icp_brasil_tsa"

/-- The fields of an event as `auditAppend` passes them to `canonicalize`. -/
structure EventFields where
  eventId : String
  orgId : String
  chainId : String
  sequenceNumber : ℤ
  previousHmac : Option Bytes
  eventType : String
  eventVersion : String
  subjectType : String
  subjectId : String
  /-- Milliseconds from the epoch. -/
  occurredAt : ℤ
  payloadHash : Bytes
  payloadRef : Option String
  keyId : String
  keyVersion : ℤ
  evidenceStrength : EvidenceStrength
  redactionMetadata : Json

/-- A text or `null`. -/
def Json.nullable : Option String → Json
  | none => .null
  | some s => .text s

/-- The properties of the object literal in `auditAppend` that precede `redaction_metadata`. -/
def EventFields.boundProps (e : EventFields) (occurredAt : String) : List (JsString × Json) :=
  [(jsString "event_id", .text e.eventId),
    (jsString "org_id", .text e.orgId),
    (jsString "chain_id", .text e.chainId),
    (jsString "sequence_number", .text (toString e.sequenceNumber)),
    (jsString "previous_hmac", .nullable (e.previousHmac.map toHex)),
    (jsString "event_type", .text e.eventType),
    (jsString "event_version", .text e.eventVersion),
    (jsString "subject_type", .text e.subjectType),
    (jsString "subject_id", .text e.subjectId),
    (jsString "occurred_at", .text occurredAt),
    (jsString "payload_hash", .text (toHex e.payloadHash)),
    (jsString "payload_ref", .nullable e.payloadRef),
    (jsString "key_id", .text e.keyId),
    (jsString "key_version", .num (.int e.keyVersion)),
    (jsString "evidence_strength", .text e.evidenceStrength.text)]

/-- The object literal that `auditAppend` hands to `canonicalize`. -/
def EventFields.toJson (e : EventFields) (occurredAt : String) : Json :=
  .obj (e.boundProps occurredAt ++ [(jsString "redaction_metadata", e.redactionMetadata)])

/-- The canonical text of an event, or the error thrown on the way. -/
def EventFields.canonical (e : EventFields) : Except String (List Char) := do
  canonicalize (e.toJson (← toISOString e.occurredAt))

/-- The bytes that are hashed and signed. -/
def EventFields.canonicalBytes (e : EventFields) : Except String Bytes :=
  e.canonical.map utf8Bytes

/-- A row of `govai.audit_events`. -/
structure EventRow where
  id : Uuid
  orgId : Uuid
  chainId : String
  sequenceNumber : ℤ
  eventType : String
  eventVersion : String
  subjectType : String
  subjectId : Uuid
  occurredAt : ℤ
  payloadHash : Bytes
  payloadRef : Option Uuid
  redactionMetadata : Json
  previousHmac : Option Bytes
  hmac : Bytes
  canonicalHash : Bytes
  canonicalBytes : Bytes
  keyId : String
  keyVersion : ℤ
  evidenceStrength : EvidenceStrength

/-- A row of `govai.audit_event_payloads`. -/
structure PayloadRow where
  id : Uuid
  orgId : Uuid
  encryptedPayload : Bytes
  dekWrapped : Bytes
  keyId : String
  keyVersion : ℤ

/-- The signing context of a stored row. -/
def EventRow.hmacContext (kms : Kms) (r : EventRow) : HmacContext where
  kms := kms
  orgId := r.orgId.toText
  keyId := r.keyId
  keyVersion := r.keyVersion

end GovAI
