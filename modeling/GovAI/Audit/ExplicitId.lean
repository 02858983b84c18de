import GovAI.Audit.ChainIntegrity
import GovAI.Library.Fallible

/-!
# Appending under an explicit event id

One call of `auditAppend` on the stored tables, for a session that sees them throughout the call.  A call
whose explicit id already has a row changes no table, and it answers with that row only if
`assertExistingEventMatches` accepts it.  That list of fields leaves out `occurred_at`;
`explicit_id_idempotent_iff` says that this is the only gap.
-/

namespace GovAI

attribute [local instance] lawfulBEq_uuid

open scoped OptionConditions

/-! ## The tables -/

/-- The rows of `audit_events`, whose primary key is unique, and of `audit_event_payloads`. -/
structure AuditTables where
  events : List EventRow
  payloads : List PayloadRow
  events_nodup : (events.map EventRow.id).Nodup

/-- No rows. -/
def emptyAuditTables : AuditTables := ⟨[], [], List.nodup_nil⟩

/-- The events that a session sees under row level security. -/
def AuditTables.visible (db : AuditTables) (session : Option String) : List EventRow :=
  db.events.filter fun r => some r.orgId.toText = session

/-- The inserts of `audit_append_locked`, under the primary keys and the unique index on
`(chain_id, sequence_number)`. -/
def AuditTables.insert (db : AuditTables) (row : EventRow) (payload : Option PayloadRow) :
    Except String AuditTables :=
  if hid : row.id ∈ db.events.map EventRow.id then .error "audit_events_pkey"
  else do
    rejectIf (∃ r ∈ db.events, r.chainId = row.chainId ∧ r.sequenceNumber = row.sequenceNumber)
      "audit_events_chain_id_sequence_number_key"
    rejectIf (∃ p ∈ db.payloads, ∃ q ∈ payload, p.id = q.id) "audit_event_payloads_pkey"
    return ⟨db.events ++ [row], db.payloads ++ payload.toList, by
      rw [List.map_append]
      exact List.nodup_append'.mpr ⟨db.events_nodup, List.nodup_singleton _, by simpa using hid⟩⟩

/-- A call of `auditAppend` on the tables: its answer and the tables after it.  A call that throws is
rolled back. -/
def AuditTables.append (crypto : Crypto) (session : Option String) (db : AuditTables)
    (input : AuditAppendInput) (randomEventId randomPayloadId : Uuid) :
    Except String (AuditAppendOutput × AuditTables) := do
  let (output, inserted) ←
    auditAppend crypto session (db.visible session) input randomEventId randomPayloadId
  match inserted with
  | none => return (output, db)
  | some (row, payload) => return (output, ← db.insert row payload)

/-! ## Agreement -/

/-- What `readSealerCaptureId` finds in the input it finds in the row. -/
def SameCapture (input : AuditAppendInput) (row : EventRow) : Prop :=
  ∀ id, readSealerCaptureId (.obj input.redactionMetadata) = some id →
    readSealerCaptureId row.redactionMetadata = some id

/-- The row agrees with the input on the fields that `assertExistingEventMatches` compares. -/
structure MatchesExisting (input : AuditAppendInput) (row : EventRow) : Prop where
  orgId : row.orgId.toText = input.orgId
  chainId : row.chainId = input.chainId
  eventType : row.eventType = input.eventType
  eventVersion : row.eventVersion = input.eventVersion
  subjectType : row.subjectType = input.subjectType
  subjectId : row.subjectId.toText = input.subjectId
  payloadHash : row.payloadHash = input.payloadHash
  payload : row.payloadRef.isSome = input.payloadEncrypted.isSome
  keyId : row.keyId = input.keyId
  keyVersion : row.keyVersion = input.keyVersion
  evidenceStrength : row.evidenceStrength = input.strength
  capture : SameCapture input row

/-- The row agrees with the input on every field that the canonical form binds and the caller fixed. -/
def AgreesWithInput (input : AuditAppendInput) (row : EventRow) : Prop :=
  MatchesExisting input row ∧ row.occurredAt = input.occurredAt

/-- What the checks of `assertExistingEventMatches` demand. -/
lemma matchesExisting_of_assert {input : AuditAppendInput} {row : EventRow}
    (h : assertExistingEventMatches input row = .ok ()) : MatchesExisting input row := by
  simp only [assertExistingEventMatches, except_bind_eq_ok_iff, rejectIf_eq_ok_iff, not_not] at h
  obtain ⟨_, horg, _, hchain, _, htype, _, hversion, _, hsubject, _, hid, _, hhash, _, -, _, hpayload,
    _, hkey, _, hkeyVersion, _, hstrength, hcapture⟩ := h
  refine ⟨horg, hchain, htype, hversion, hsubject, hid, hhash, hpayload, hkey, hkeyVersion, hstrength,
    fun id hsome => ?_⟩
  rw [hsome] at hcapture
  simpa using hcapture

/-! ## The call -/

variable {crypto : Crypto} {session : Option String} {db : AuditTables} {input : AuditAppendInput}
  {randomEventId randomPayloadId : Uuid} {row : EventRow}

/-- The row of an id is the only one. -/
lemma AuditTables.eq_of_id (db : AuditTables) {r r' : EventRow} (hr : r ∈ db.events)
    (hr' : r' ∈ db.events) (h : r.id = r'.id) : r = r' :=
  List.inj_on_of_nodup_map db.events_nodup hr hr' h

/-- The lookup finds the row of the id if the session sees it. -/
lemma findExistingEvent_eq (hrow : row ∈ db.events)
    (hid : input.eventId.bind uuidIn = some row.id) :
    findExistingEvent (db.visible session) input =
      .ok (if some row.orgId.toText = session then some row else none) := by
  obtain ⟨text, htext, huuid⟩ := Option.bind_eq_some_iff.mp hid
  have hfind : (db.visible session).find? (fun r => r.id = row.id) =
      if some row.orgId.toText = session then some row else none := by
    split
    · next hvisible =>
      have hmem : row ∈ db.visible session := List.mem_filter.mpr ⟨hrow, by simpa using hvisible⟩
      have hsome : ((db.visible session).find? fun r => r.id = row.id).isSome = true := by
        rw [List.find?_isSome]
        exact ⟨row, hmem, decide_eq_true rfl⟩
      obtain ⟨r, hr⟩ := Option.isSome_iff_exists.mp hsome
      have hrid := List.find?_some hr
      simp only [decide_eq_true_eq] at hrid
      rw [hr, db.eq_of_id (List.mem_of_mem_filter (List.mem_of_find?_eq_some hr)) hrow hrid]
    · next hhidden =>
      refine List.find?_eq_none.mpr fun r hr hrid => hhidden ?_
      have heq := db.eq_of_id (List.mem_of_mem_filter hr) hrow (of_decide_eq_true hrid)
      rw [← heq]
      exact of_decide_eq_true (List.mem_filter.mp hr).2
  simp only [findExistingEvent, htext, castUuid, huuid, Except.map, hfind]

/-- A row that the session does not see keeps its id: the insert fails. -/
lemma AuditTables.insert_ne_ok {call : AppendCall} {head : Option EventRow} {new : EventRow}
    {payload : Option PayloadRow} {db' : AuditTables} (hrow : row ∈ db.events)
    (hid : uuidIn call.eventId = some row.id)
    (hlocked : auditAppendLocked session call head = .ok (new, payload)) :
    db.insert new payload ≠ .ok db' := by
  obtain ⟨id, orgId, subjectId, hid', -, -, -, -, rfl⟩ := row_of_auditAppendLocked hlocked
  have hmem : (call.row id orgId subjectId).id ∈ db.events.map EventRow.id := by
    rw [hid] at hid'
    have heq : (call.row id orgId subjectId).id = row.id := (Option.some.inj hid').symm
    rw [heq]
    exact List.mem_map_of_mem hrow
  intro h
  rw [AuditTables.insert, dif_pos hmem] at h
  cases h

/-- **A call under an id that has a row** answers with that row, inserts nothing, and has compared
it. -/
theorem AuditTables.append_existing {output : AuditAppendOutput} {db' : AuditTables}
    (hrow : row ∈ db.events) (hid : input.eventId.bind uuidIn = some row.id) :
    db.append crypto session input randomEventId randomPayloadId = .ok (output, db') ↔
      checkAppendInput session input = .ok () ∧ assertExistingEventMatches input row = .ok () ∧
        existingEventToOutput row = output ∧ db = db' := by
  have hsession : checkAppendInput session input = .ok () →
      assertExistingEventMatches input row = .ok () → some row.orgId.toText = session := by
    intro hcheck hassert
    rw [session_of_checkAppendInput hcheck, (matchesExisting_of_assert hassert).orgId]
  by_cases hvisible : some row.orgId.toText = session
  · simp only [AuditTables.append, auditAppend, except_bind_eq_ok_iff, except_pure_eq_ok_iff,
      findExistingEvent_eq hrow hid, hvisible, ↓reduceIte, Except.ok.injEq, exists_eq_left']
    constructor
    · rintro ⟨⟨_, _⟩, ⟨_, hcheck, _, hassert, heq⟩, hdone⟩
      obtain ⟨rfl, rfl⟩ := Prod.mk.inj heq
      obtain ⟨rfl, rfl⟩ := Prod.mk.inj ((except_pure_eq_ok_iff).mp hdone)
      exact ⟨hcheck, hassert, rfl, rfl⟩
    · rintro ⟨hcheck, hassert, rfl, rfl⟩
      exact ⟨_, ⟨(), hcheck, (), hassert, rfl⟩, rfl⟩
  · simp only [AuditTables.append, auditAppend, except_bind_eq_ok_iff, except_pure_eq_ok_iff,
      findExistingEvent_eq hrow hid, hvisible, ↓reduceIte, Except.ok.injEq, exists_eq_left']
    constructor
    · rintro ⟨⟨_, _⟩, ⟨_, -, call, hsign, ⟨new, payload⟩, hlocked, heq⟩, hdone⟩
      obtain ⟨rfl, rfl⟩ := Prod.mk.inj heq
      simp only [except_bind_eq_ok_iff, except_pure_eq_ok_iff] at hdone
      obtain ⟨_, hinsert, -⟩ := hdone
      obtain ⟨text, htext, huuid⟩ := Option.bind_eq_some_iff.mp hid
      have hcall : call.eventId = text := by
        simp only [signAppend, except_bind_eq_ok_iff, except_pure_eq_ok_iff, htext,
          Option.getD_some] at hsign
        obtain ⟨_, -, rfl⟩ := hsign
        rfl
      exact absurd hinsert (AuditTables.insert_ne_ok hrow (by rw [hcall, huuid]) hlocked)
    · rintro ⟨hcheck, hassert, -⟩
      exact absurd (hsession hcheck hassert) hvisible

/-! ## Idempotent, or refused -/

/-- The call changes no table if its id has a row, and returns only if that row agrees with the input
on every field that the canonical form binds and the caller fixed. -/
def IdempotentOrRefuses (crypto : Crypto) (session : Option String) (db : AuditTables)
    (input : AuditAppendInput) (randomEventId randomPayloadId : Uuid) : Prop :=
  ∀ row ∈ db.events, input.eventId.bind uuidIn = some row.id → ∀ output db',
    db.append crypto session input randomEventId randomPayloadId = .ok (output, db') →
      db' = db ∧ AgreesWithInput input row ∧ output = existingEventToOutput row

/-- **When an append under an explicit id is idempotent or refused.**  Exactly when the row of the id,
if there is one, carries the `occurred_at` of the input, unless the call is refused by the argument
checks or by the fields that are compared. -/
theorem explicit_id_idempotent_iff (crypto : Crypto) (session : Option String) (db : AuditTables)
    (input : AuditAppendInput) (randomEventId randomPayloadId : Uuid) :
    IdempotentOrRefuses crypto session db input randomEventId randomPayloadId ↔
      ∀ row ∈ db.events, input.eventId.bind uuidIn = some row.id →
        row.occurredAt = input.occurredAt ∨ checkAppendInput session input ≠ .ok () ∨
          assertExistingEventMatches input row ≠ .ok () := by
  refine forall₃_congr fun row hrow hid => ?_
  constructor
  · intro h
    by_contra hcond
    push Not at hcond
    obtain ⟨hdate, hcheck, hassert⟩ := hcond
    have hcall := (@AuditTables.append_existing crypto _ _ _ randomEventId randomPayloadId _ _ _ hrow hid).mpr ⟨hcheck, hassert, rfl, rfl⟩
    exact hdate (h _ _ hcall).2.1.2
  · intro hcond output db' hcall
    obtain ⟨hcheck, hassert, rfl, rfl⟩ := (AuditTables.append_existing hrow hid).mp hcall
    have hdate := hcond.resolve_right fun h => h.elim (fun h => h hcheck) fun h => h hassert
    exact ⟨rfl, ⟨matchesExisting_of_assert hassert, hdate⟩, rfl⟩

/-! ## A second append at another time -/

/-- An append under a fixed id, for an event that occurred at some time. -/
def sampleKeyedInput (occurredAt : ℤ) : AuditAppendInput :=
  { sampleInput "run.started" with
    occurredAt := occurredAt, eventId := some "33333333-3333-4333-8333-333333333333" }

/-- The number and the date of the first row after two appends under one id, and the number that the
second one is answered with. -/
def sampleKeyedAppends : Option (List (Uuid × ℤ) × ℤ) :=
  ((emptyAuditTables.append sampleCrypto (some sampleOrg) (sampleKeyedInput 0) 0 0).bind fun p =>
    (p.2.append sampleCrypto (some sampleOrg) (sampleKeyedInput 1) 0 0).map fun q =>
      (p.2.events.map fun r => (r.id, r.occurredAt), q.1.sequenceNumber)).toOption

/-- The second append differs in `occurred_at` and is answered with the first event. -/
theorem explicit_id_not_idempotent :
    ¬∀ (crypto : Crypto) (session : Option String) (db : AuditTables) (input : AuditAppendInput)
      (randomEventId randomPayloadId : Uuid),
      IdempotentOrRefuses crypto session db input randomEventId randomPayloadId := by
  intro hclaim
  have hrun : sampleKeyedAppends =
      some ([(BitVec.ofNat 128 0x33333333333343338333333333333333, 0)], 1) := by
    decide +kernel
  obtain ⟨⟨_, db⟩, -, hsecond⟩ :=
    except_bind_eq_ok_iff.mp (except_toOption_eq_some_iff.mp hrun)
  obtain ⟨⟨output, db'⟩, hcall, heq⟩ := except_map_eq_ok_iff.mp hsecond
  obtain ⟨row, rest, hevents, hrow, -⟩ := List.map_eq_cons_iff.mp (Prod.mk.inj heq).1
  obtain ⟨hid, hdate⟩ := Prod.mk.inj hrow
  have hmem : row ∈ db.events := by rw [hevents]; exact List.mem_cons_self
  have hkey : (sampleKeyedInput 1).eventId.bind uuidIn = some row.id := by
    rw [hid]
    decide +kernel
  have hagrees := (hclaim _ _ _ _ _ _ row hmem hkey _ _ hcall).2.1.2
  rw [hdate] at hagrees
  cases hagrees

end GovAI
