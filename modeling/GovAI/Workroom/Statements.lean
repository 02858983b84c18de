import GovAI.Workroom.Schema

/-!
# The statements that the workroom transactions share

`auditAppend` (the columns read back; the bytes that are signed are the subject of `Audit.Append`),
the numbering of the turns, and the lookups of workrooms and participants under the row level
security of the caller's organisation.  Each has one lemma that says what it does when it runs alone.
-/

namespace GovAI

open TxProgram

variable {H : Set WorkroomDb} {s : WorkroomDb} {ws ws' : Pending WorkroomItem.Val}

/-- What `authenticateApiKey` returns. -/
structure AuthIdentity where
  orgId : Uuid
  userId : Uuid
  roles : List String
deriving DecidableEq

/-! ## The audit chain -/

/-- `chainIdFor`. -/
def chainIdFor (orgId : Uuid) (category : ChainCategory) : ChainId := ⟨orgId, category⟩

/-- The number of the next event of a chain. -/
def nextSequenceNumber (events : List ChainEvent) : ℕ :=
  (events.getLast?.map ChainEvent.sequenceNumber).getD 0 + 1

/-- `auditAppend` without an explicit event id: `id` is the `randomUUID()` that it draws. -/
def Workroom.auditAppend (chain : ChainId) (id : Uuid) (eventType : EventType) (subjectId : Uuid)
    (occurredAt : ℤ) (redaction : EventMeta := {}) : WorkroomTx ChainEvent := do
  let events ← lockItem (WorkroomItem.chain chain)
  let existing ← lockItem (WorkroomItem.event id)
  failIf (existing.isSome = true) "audit_events_pkey"
  let event : ChainEvent :=
    ⟨id, nextSequenceNumber events, eventType, subjectId, occurredAt, redaction⟩
  set (WorkroomItem.chain chain) (events ++ [event])
  set (WorkroomItem.event id) (some chain)
  pure event

/-! ## Turns -/

/-- `SELECT COALESCE(MAX(turn_number), 0)`. -/
def maxTurnNumber (turns : List WorkroomTurnRow) : ℕ := (turns.map WorkroomTurnRow.turnNumber).foldl max 0

/-- `nextTurnNumber`: the advisory lock of the workroom, and the next number as a double. -/
def nextTurnNumber (workroomId : Uuid) : WorkroomTx ℕ := do
  let turns ← lockItem (WorkroomItem.turns workroomId)
  pure (jsNumber (maxTurnNumber turns + 1))

/-- `INSERT INTO workroom_turns`, with the unique index on `(workroom_id, turn_number)`. -/
def insertWorkroomTurn (workroomId : Uuid) (turn : WorkroomTurnRow) : WorkroomTx Unit := do
  let turns ← lockItem (WorkroomItem.turns workroomId)
  failIf (turn.turnNumber ∈ turns.map WorkroomTurnRow.turnNumber) "workroom_turns_workroom_id_turn_number_key"
  set (WorkroomItem.turns workroomId) (turns ++ [turn])

/-- `ensureRunEventTurn`, which `insertRunEventTurn` repeats: at most one `run_event` turn for a
run. -/
def ensureRunEventTurn (workroomId participantId runId auditEventId : Uuid) : WorkroomTx Bool := do
  let _ ← lockItem (WorkroomItem.turns workroomId)
  let existing ← read fun db => db (.runEventTurn runId)
  if existing.isSome then
    pure false
  else do
    let turnNumber ← nextTurnNumber workroomId
    let inserted ← lockItem (WorkroomItem.runEventTurn runId)
    failIf (inserted.isSome = true) "workroom_turns_run_event_payload_ref_uniq"
    insertWorkroomTurn workroomId ⟨turnNumber, some participantId, .runEvent, auditEventId, some runId⟩
    set (WorkroomItem.runEventTurn runId) (some auditEventId)
    pure true

/-! ## Lookups -/

/-- `getWorkroom` under the policy of the organisation. -/
def getWorkroom (orgId workroomId : Uuid) (db : WorkroomDb) : Option WorkroomRow :=
  (db (.workroom workroomId)).filter fun w => w.orgId = orgId

/-- `getActiveHumanParticipant`, through the unique index of the active humans. -/
def getActiveHumanParticipant (orgId workroomId userId : Uuid) (db : WorkroomDb) :
    Option ParticipantRow :=
  ((db (.activeHuman workroomId userId)).bind fun id => db (.participant id)).filter fun p =>
    p.orgId = orgId

end GovAI
