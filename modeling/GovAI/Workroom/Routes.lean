import GovAI.Workroom.Statements

/-!
# The workroom routes

The transactions of `workrooms.ts`, `workroom-transcript.ts` and `workroom-approvals.ts`.  Ids that a
route draws with `randomUUID()` and the readings of its clocks are arguments.  A request that a route
refuses rolls back with the error code of the answer.
-/

namespace GovAI

open TxProgram

/-! ## Workrooms -/

/-- The fields of `CreateBody` that are used. -/
structure CreateWorkroomBody where
  workspaceId : Uuid
  governanceMode : Option GovernanceMode

/-- `hasAnyRole`. -/
def AuthIdentity.hasAnyRole (identity : AuthIdentity) (roles : List String) : Bool :=
  roles.any fun role => role ∈ identity.roles

/-- `INSERT INTO workroom_participants`, with the partial unique indexes on the active members. -/
def insertParticipant (row : ParticipantRow) : WorkroomTx Unit := do
  let existing ← lockItem (WorkroomItem.participant row.id)
  failIf (existing.isSome = true) "participant_already_active"
  match row.kind, row.userId, row.agentProfileId with
  | .human, some userId, none => do
    let member ← lockItem (WorkroomItem.activeHuman row.workroomId userId)
    failIf (member.isSome = true) "participant_already_active"
    set (WorkroomItem.participant row.id) (some row)
    set (WorkroomItem.activeHuman row.workroomId userId) (some row.id)
  | .agent, none, some agentProfileId => do
    let member ← lockItem (WorkroomItem.activeAgent row.workroomId agentProfileId)
    failIf (member.isSome = true) "participant_already_active"
    set (WorkroomItem.participant row.id) (some row)
    set (WorkroomItem.activeAgent row.workroomId agentProfileId) (some row.id)
  | _, _, _ => fail "workroom_participants_check"

/-- `POST /v1/workrooms`. -/
def createWorkroom (identity : AuthIdentity) (body : CreateWorkroomBody)
    (workroomId participantId eventId : Uuid) (occurredAt : ℤ) : WorkroomTx Unit := do
  failIf (identity.hasAnyRole ["developer", "admin"] = false) "forbidden"
  let governanceMode := body.governanceMode.getD .governanceActive
  let disallowed ← read fun db => db (.org identity.orgId)
  failIf (governanceMode = .auditOnly ∧ disallowed = true) "audit_only_disallowed"
  let existing ← lockItem (WorkroomItem.workroom workroomId)
  failIf (existing.isSome = true) "workrooms_pkey"
  set (WorkroomItem.workroom workroomId) (some ⟨identity.orgId, body.workspaceId, governanceMode⟩)
  insertParticipant ⟨participantId, identity.orgId, workroomId, .human, .humanOwner,
    some identity.userId, none, none, none, .active⟩
  let event ← Workroom.auditAppend (chainIdFor identity.orgId .run) eventId .workroomLifecycle
    workroomId occurredAt
  insertWorkroomTurn workroomId ⟨1, some participantId, .stateTransition, event.id, none⟩

/-! ## Participants -/

/-- `ParticipantBody`. -/
inductive ParticipantBody where
  | human (role : ParticipantRole) (userId : Uuid)
  | agent (role : ParticipantRole) (agentProfileId : Uuid)

/-- The row of a new participant. -/
def ParticipantBody.row (body : ParticipantBody) (id orgId workroomId : Uuid)
    (addedBy : Option Uuid) : ParticipantRow :=
  match body with
  | human role userId => ⟨id, orgId, workroomId, .human, role, some userId, none, addedBy, none, .active⟩
  | agent role profile =>
    ⟨id, orgId, workroomId, .agent, role, none, some profile, addedBy, none, .active⟩

/-- The caller's active `human_owner` row. -/
def getActiveOwner (orgId workroomId userId : Uuid) (db : WorkroomDb) : Option ParticipantRow :=
  (getActiveHumanParticipant orgId workroomId userId db).filter fun p => p.role = .humanOwner

/-- The agent profile of a new participant exists and is enabled. -/
def checkAgentProfile (orgId : Uuid) : ParticipantBody → WorkroomTx Unit
  | .human _ _ => pure ()
  | .agent _ agentProfileId => do
    let found ← read fun db =>
      (db (.agentProfile agentProfileId)).filter fun profile => profile.orgId = orgId
    let profile ← orFail "agent_profile_not_found" found
    failIf (profile.isDisabled = true) "agent_profile_disabled"

/-- `POST /v1/workrooms/:id/participants`. -/
def addParticipant (identity : AuthIdentity) (workroomId : Uuid) (body : ParticipantBody)
    (participantId eventId : Uuid) (occurredAt : ℤ) : WorkroomTx Unit := do
  let workroom ← read (getWorkroom identity.orgId workroomId)
  let _ ← orFail "workroom_not_found" workroom
  let owner ← read (getActiveOwner identity.orgId workroomId identity.userId)
  failIf (owner = none ∧ identity.hasAnyRole ["admin"] = false) "forbidden"
  checkAgentProfile identity.orgId body
  insertParticipant (body.row participantId identity.orgId workroomId (owner.map ParticipantRow.id))
  let event ← Workroom.auditAppend (chainIdFor identity.orgId .admin) eventId .workroomParticipant
    participantId occurredAt
  let turnNumber ← nextTurnNumber workroomId
  insertWorkroomTurn workroomId
    ⟨turnNumber, owner.map ParticipantRow.id, .participantChange, event.id, none⟩

/-- `UPDATE workroom_participants SET status = 'removed'`, under
`workroom_participants_soft_remove_only`. -/
def softRemove (row : ParticipantRow) (now : ℤ) : WorkroomTx Unit := do
  failIf (row.status = .removed ∨ row.removedAt.isSome = true)
    "workroom_participants update is restricted to soft-remove only"
  set (WorkroomItem.participant row.id) (some { row with status := .removed, removedAt := some now })
  match row.kind, row.userId, row.agentProfileId with
  | .human, some userId, _ => set (WorkroomItem.activeHuman row.workroomId userId) none
  | .agent, _, some agentProfileId => set (WorkroomItem.activeAgent row.workroomId agentProfileId) none
  | _, _, _ => pure ()

/-- `DELETE /v1/workrooms/:id/participants/:participantId`. -/
def removeParticipant (identity : AuthIdentity) (workroomId participantId eventId : Uuid)
    (now occurredAt : ℤ) : WorkroomTx Unit := do
  let workroom ← read (getWorkroom identity.orgId workroomId)
  let _ ← orFail "workroom_not_found" workroom
  let owner ← read (getActiveOwner identity.orgId workroomId identity.userId)
  let owner ← orFail "forbidden" owner
  let target ← read fun db => (db (.participant participantId)).filter fun p =>
    p.orgId = identity.orgId ∧ p.workroomId = workroomId
  let target ← orFail "participant_not_found" target
  failIf (target.status = .removed) "participant_already_removed"
  let row ← lockItem (WorkroomItem.participant participantId)
  let row ← orFail "participant_not_found" row
  softRemove row now
  let event ← Workroom.auditAppend (chainIdFor identity.orgId .admin) eventId .workroomParticipant
    participantId occurredAt
  let turnNumber ← nextTurnNumber workroomId
  insertWorkroomTurn workroomId ⟨turnNumber, some owner.id, .participantChange, event.id, none⟩

/-! ## The transcript -/

/-- The caller, as an active participant of the workroom. -/
def activeCaller (identity : AuthIdentity) (workroomId : Uuid) : WorkroomTx ParticipantRow := do
  let workroom ← read (getWorkroom identity.orgId workroomId)
  let _ ← orFail "workroom_not_found" workroom
  let participant ← read (getActiveHumanParticipant identity.orgId workroomId identity.userId)
  orFail "forbidden" participant

/-- `POST /v1/workrooms/:id/messages`. -/
def postMessage (identity : AuthIdentity) (workroomId messageId eventId : Uuid) (occurredAt : ℤ) :
    WorkroomTx Unit := do
  let participant ← activeCaller identity workroomId
  let turnNumber ← nextTurnNumber workroomId
  let event ← Workroom.auditAppend (chainIdFor identity.orgId .run) eventId .workroomMessage
    messageId occurredAt
  insertWorkroomTurn workroomId ⟨turnNumber, some participant.id, .message, event.id, some messageId⟩

/-- `POST /v1/workrooms/:id/tasks`. -/
def createTask (identity : AuthIdentity) (workroomId : Uuid) (assignedParticipantId : Option Uuid)
    (taskId eventId : Uuid) (occurredAt : ℤ) : WorkroomTx Unit := do
  let participant ← activeCaller identity workroomId
  let assignee ← read fun db => assignedParticipantId.all fun id =>
    (db (.participant id)).any fun p =>
      p.orgId = identity.orgId ∧ p.workroomId = workroomId ∧ p.status = .active
  failIf (assignee = false) "assigned_participant_not_found"
  let turnNumber ← nextTurnNumber workroomId
  let event ← Workroom.auditAppend (chainIdFor identity.orgId .run) eventId .workroomTaskCreated
    taskId occurredAt
  insertWorkroomTurn workroomId ⟨turnNumber, some participant.id, .task, event.id, some taskId⟩

end GovAI
