import GovAI.Workroom.Footprint
import GovAI.Workroom.System

/-!
# The participants of a workroom

The rows of participants are never deleted, their ids, users, workrooms and roles never change, and the
index of the active humans leads to such a row (`Members`).  Every route that writes participants keeps
this (`MembersSince`).
-/

namespace GovAI

open TxProgram Function

variable {H : Set WorkroomDb} {s s' v v' : WorkroomDb} {ws ws' : Pending WorkroomItem.Val}

/-! ## Participants -/

/-- The columns of a participant that never change. -/
structure SameMember (p p' : ParticipantRow) : Prop where
  id : p'.id = p.id
  workroomId : p'.workroomId = p.workroomId
  role : p'.role = p.role
  userId : p'.userId = p.userId

lemma SameMember.refl (p : ParticipantRow) : SameMember p p := ⟨rfl, rfl, rfl, rfl⟩

lemma SameMember.trans {p p' p'' : ParticipantRow} (h : SameMember p p') (h' : SameMember p' p'') :
    SameMember p p'' :=
  ⟨h'.id.trans h.id, h'.workroomId.trans h.workroomId, h'.role.trans h.role,
    h'.userId.trans h.userId⟩

/-- Participants are never deleted. -/
def MemberGrows (v v' : WorkroomDb) : Prop :=
  ∀ id p, v (.participant id) = some p → ∃ p', v' (.participant id) = some p' ∧ SameMember p p'

lemma MemberGrows.refl (v : WorkroomDb) : MemberGrows v v := fun _ p h => ⟨p, h, .refl p⟩

lemma MemberGrows.trans {v₁ v₂ v₃ : WorkroomDb} (h : MemberGrows v₁ v₂) (h' : MemberGrows v₂ v₃) :
    MemberGrows v₁ v₃ := by
  intro id p hp
  obtain ⟨p', hp', hsame⟩ := h id p hp
  obtain ⟨p'', hp'', hsame'⟩ := h' id p' hp'
  exact ⟨p'', hp'', hsame.trans hsame'⟩

/-- The primary key and the index of the active humans belong to the rows. -/
structure Members (v : WorkroomDb) : Prop where
  keyed : ∀ id p, v (.participant id) = some p → p.id = id
  indexed : ∀ w user id, v (.activeHuman w user) = some id →
    ∃ p, v (.participant id) = some p ∧ p.workroomId = w ∧ p.userId = some user

/-- The active participant that a request reads. -/
lemma Members.active (h : Members v) {orgId w user : Uuid} {p : ParticipantRow}
    (hp : getActiveHumanParticipant orgId w user v = some p) :
    v (.participant p.id) = some p ∧ p.workroomId = w ∧ p.userId = some user := by
  obtain ⟨hp, -⟩ := Option.filter_eq_some_iff.mp hp
  obtain ⟨id, hid, hrow⟩ := Option.bind_eq_some_iff.mp hp
  obtain ⟨p', hp', hw, huser⟩ := h.indexed w user id hid
  obtain rfl := Option.some.inj (hrow.symm.trans hp')
  rw [h.keyed id p hrow]
  exact ⟨hrow, hw, huser⟩

/-- What a transaction keeps: the rows are in order and have grown. -/
def MembersSince (s v : WorkroomDb) : Prop := Members v ∧ MemberGrows s v

/-- It depends on the participants and their index alone. -/
lemma MembersSince.congr (h : MembersSince s v)
    (hrow : ∀ id, v' (.participant id) = v (.participant id))
    (hactive : ∀ w user, v' (.activeHuman w user) = v (.activeHuman w user)) : MembersSince s v' := by
  refine ⟨⟨fun id p hp => ?_, fun w user id hid => ?_⟩, fun id p hp => ?_⟩
  · rw [hrow] at hp
    exact h.1.keyed id p hp
  · rw [hactive] at hid
    rw [hrow]
    exact h.1.indexed w user id hid
  · rw [hrow]
    exact h.2 id p hp

/-- A new row. -/
lemma MembersSince.insert (h : MembersSince s v) {row : ParticipantRow}
    (hfree : v (.participant row.id) = none)
    (hrow : ∀ id, v' (.participant id) = if id = row.id then some row else v (.participant id))
    (hactive : ∀ w user id, v' (.activeHuman w user) = some id → v (.activeHuman w user) = some id ∨
      (id = row.id ∧ row.workroomId = w ∧ row.userId = some user)) : MembersSince s v' := by
  have hold : ∀ id p, v (.participant id) = some p → v' (.participant id) = some p := by
    intro id p hp
    rw [hrow, if_neg, hp]
    rintro rfl
    rw [hfree] at hp
    cases hp
  refine ⟨⟨fun id p hp => ?_, fun w user id hid => ?_⟩, fun id p hp => ?_⟩
  · rw [hrow] at hp
    split at hp
    · next heq => rw [← Option.some.inj hp, heq]
    · exact h.1.keyed id p hp
  · rcases hactive w user id hid with hid | ⟨rfl, hw, huser⟩
    · obtain ⟨p, hp, hw, huser⟩ := h.1.indexed w user id hid
      exact ⟨p, hold id p hp, hw, huser⟩
    · exact ⟨row, by rw [hrow, if_pos rfl], hw, huser⟩
  · obtain ⟨p', hp', hsame⟩ := h.2 id p hp
    exact ⟨p', hold id p' hp', hsame⟩

/-- A row whose status changes. -/
lemma MembersSince.remove (h : MembersSince s v) {row row' : ParticipantRow}
    (hold : v (.participant row.id) = some row) (hsame : SameMember row row')
    (hrow : ∀ id, v' (.participant id) = if id = row.id then some row' else v (.participant id))
    (hactive : ∀ w user id, v' (.activeHuman w user) = some id → v (.activeHuman w user) = some id) :
    MembersSince s v' := by
  have hstep : MemberGrows v v' := by
    intro id p hp
    rw [hrow]
    split
    · next heq =>
      rw [heq, hold] at hp
      exact ⟨row', rfl, Option.some.inj hp ▸ hsame⟩
    · exact ⟨p, hp, .refl p⟩
  refine ⟨⟨fun id p hp => ?_, fun w user id hid => ?_⟩, h.2.trans hstep⟩
  · rw [hrow] at hp
    split at hp
    · next heq => rw [← Option.some.inj hp, heq, hsame.id]
    · exact h.1.keyed id p hp
  · obtain ⟨p, hp, hw, huser⟩ := h.1.indexed w user id (hactive w user id hid)
    obtain ⟨p', hp', hsame'⟩ := hstep id p hp
    exact ⟨p', hp', hsame'.workroomId.trans hw, hsame'.userId.trans huser⟩

/-! ## The routes of the participants -/

section Routes

variable {identity : AuthIdentity} {workroomId participantId eventId : Uuid} {occurredAt now : ℤ}

lemma auditAppend_members {c : ChainId} {id subjectId : Uuid} {eventType : EventType}
    {redaction : EventMeta} : Keeps (MembersSince s)
      (Workroom.auditAppend c id eventType subjectId occurredAt redaction) := by
  intro H s ws e ws' h hrun
  obtain ⟨-, -, heq⟩ := auditAppend_spec hrun
  rw [heq]
  exact h.congr (fun _ => addEvent_row rfl) fun _ _ => addEvent_row rfl

lemma insertWorkroomTurn_members {t : WorkroomTurnRow} :
    Keeps (MembersSince s) (insertWorkroomTurn workroomId t) := by
  intro H s ws e ws' h hrun
  obtain ⟨-, heq⟩ := insertWorkroomTurn_spec hrun
  rw [heq]
  exact h.congr (fun _ => addTurn_row rfl) fun _ _ => addTurn_row rfl

lemma nextTurnNumber_keeps (P : WorkroomDb → Prop) : Keeps P (nextTurnNumber workroomId) := by
  unfold nextTurnNumber
  exact keeps_bind (keeps_lockItem _) fun _ => keeps_pure _

lemma insertParticipant_members (row : ParticipantRow) :
    Keeps (MembersSince s) (insertParticipant row) := by
  intro H s ws u ws' h hrun
  simp only [insertParticipant, exec_bind, exec_lockItem, exec_failIf] at hrun
  obtain ⟨_, _, ⟨rfl, rfl⟩, _, _, ⟨hfree, rfl⟩, hrun⟩ := hrun
  replace hfree := Option.not_isSome_iff_eq_none.mp hfree
  split at hrun
  · next user hkind huser hprofile =>
    simp only [exec_bind, exec_lockItem, exec_failIf, exec_set] at hrun
    obtain ⟨_, _, ⟨rfl, rfl⟩, _, _, ⟨-, rfl⟩, _, _, rfl, rfl⟩ := hrun
    refine h.insert hfree (fun id => ?_) fun w user' id hid => ?_
    · rw [Pending.apply, update_of_ne (by simp), Pending.apply, update_participant]
    · by_cases hkey : w = row.workroomId ∧ user' = user
      · obtain ⟨rfl, rfl⟩ := hkey
        rw [Pending.apply, update_self] at hid
        exact .inr ⟨(Option.some.inj hid).symm, rfl, huser⟩
      · left
        rwa [Pending.apply, update_of_ne (by simpa using hkey), Pending.apply,
          update_of_ne (by simp)] at hid
  · simp only [exec_bind, exec_lockItem, exec_failIf, exec_set] at hrun
    obtain ⟨_, _, ⟨rfl, rfl⟩, _, _, ⟨-, rfl⟩, _, _, rfl, rfl⟩ := hrun
    refine h.insert hfree (fun id => ?_) fun w user' id hid => ?_
    · rw [Pending.apply, update_of_ne (by simp), Pending.apply, update_participant]
    · left
      rwa [Pending.apply, update_of_ne (by simp), Pending.apply, update_of_ne (by simp)] at hid
  · exact absurd hrun (exec_fail _ _)

lemma softRemove_members (row : ParticipantRow) :
    Triple (fun v => MembersSince s v ∧ v (.participant row.id) = some row) (softRemove row now)
      fun _ => MembersSince s := by
  rintro H s ws u ws' ⟨h, hold⟩ hrun
  simp only [softRemove, exec_bind, exec_failIf, exec_set] at hrun
  obtain ⟨_, _, ⟨-, rfl⟩, _, _, rfl, hrun⟩ := hrun
  have hsame : SameMember row { row with status := .removed, removedAt := some now } :=
    ⟨rfl, rfl, rfl, rfl⟩
  split at hrun
  · next user₀ hkind huser =>
    obtain rfl := (exec_set _ _ _).mp hrun
    refine h.remove hold hsame (fun id => ?_) fun w user id hid => ?_
    · rw [Pending.apply, update_of_ne (by simp), Pending.apply, update_participant]
    · rw [Pending.apply] at hid
      by_cases hkey : w = row.workroomId ∧ user = user₀
      · obtain ⟨rfl, rfl⟩ := hkey
        rw [update_self] at hid
        cases hid
      · rwa [update_of_ne (by simpa using hkey), Pending.apply, update_of_ne (by simp)] at hid
  · obtain rfl := (exec_set _ _ _).mp hrun
    refine h.remove hold hsame (fun id => ?_) fun w user id hid => ?_
    · rw [Pending.apply, update_of_ne (by simp), Pending.apply, update_participant]
    · rwa [Pending.apply, update_of_ne (by simp), Pending.apply, update_of_ne (by simp)] at hid
  · obtain ⟨-, rfl⟩ := (exec_pure _ _).mp hrun
    refine h.remove hold hsame (fun id => ?_) fun w user id hid => ?_
    · rw [Pending.apply, update_participant]
    · rwa [Pending.apply, update_of_ne (by simp)] at hid

lemma createWorkroom_members (body : CreateWorkroomBody) :
    Keeps (MembersSince s)
      (createWorkroom identity body workroomId participantId eventId occurredAt) := by
  unfold createWorkroom
  refine keeps_bind (keeps_failIf _ _) fun _ => keeps_bind (keeps_read _) fun _ => ?_
  refine keeps_bind (keeps_failIf _ _) fun _ => keeps_bind (keeps_lockItem _) fun _ => ?_
  refine keeps_bind (keeps_failIf _ _) fun _ => keeps_bind (keeps_set fun v h => ?_) fun _ => ?_
  · exact h.congr (fun _ => update_of_ne (by simp) _ _) fun _ _ => update_of_ne (by simp) _ _
  refine keeps_bind (insertParticipant_members _) fun _ => ?_
  exact keeps_bind auditAppend_members fun _ => insertWorkroomTurn_members

lemma addParticipant_members (body : ParticipantBody) :
    Keeps (MembersSince s)
      (addParticipant identity workroomId body participantId eventId occurredAt) := by
  unfold addParticipant
  refine keeps_bind (keeps_read _) fun _ => keeps_bind (keeps_orFail _ _) fun _ => ?_
  refine keeps_bind (keeps_read _) fun _ => keeps_bind (keeps_failIf _ _) fun _ => keeps_bind ?_ fun _ => ?_
  · cases body with
    | human role userId => exact keeps_pure _
    | agent role profile =>
      refine keeps_bind (keeps_read _) fun _ => keeps_bind (keeps_orFail _ _) fun _ => ?_
      exact keeps_failIf _ _
  refine keeps_bind (insertParticipant_members _) fun _ => keeps_bind auditAppend_members fun _ => ?_
  exact keeps_bind (nextTurnNumber_keeps _) fun _ => insertWorkroomTurn_members

lemma removeParticipant_members :
    Keeps (MembersSince s)
      (removeParticipant identity workroomId participantId eventId now occurredAt) := by
  unfold removeParticipant
  refine keeps_bind (keeps_read _) fun _ => keeps_bind (keeps_orFail _ _) fun _ => ?_
  refine keeps_bind (keeps_read _) fun _ => keeps_bind (keeps_orFail _ _) fun _ => ?_
  refine keeps_bind (keeps_read _) fun _ => keeps_bind (keeps_orFail _ _) fun _ => ?_
  refine keeps_bind (keeps_failIf _ _) fun _ => ?_
  refine triple_bind (Q := fun o v => MembersSince s v ∧ v (.participant participantId) = o)
    (triple_lockItem fun v h => ⟨h, rfl⟩) fun o => ?_
  refine triple_bind (Q := fun row v => MembersSince s v ∧ v (.participant row.id) = some row)
    (triple_orFail fun row v h ho => ?_) fun row => ?_
  · obtain ⟨h, hrow⟩ := h
    rw [ho] at hrow
    rw [h.1.keyed _ row hrow]
    exact ⟨h, hrow⟩
  refine triple_bind (softRemove_members row) fun _ => keeps_bind auditAppend_members fun _ => ?_
  exact keeps_bind (nextTurnNumber_keeps _) fun _ => insertWorkroomTurn_members

lemma postMessage_members {messageId : Uuid} :
    Keeps (MembersSince s) (postMessage identity workroomId messageId eventId occurredAt) := by
  unfold postMessage
  refine keeps_bind (activeCaller_keeps _) fun _ => keeps_bind (nextTurnNumber_keeps _) fun _ => ?_
  exact keeps_bind auditAppend_members fun _ => insertWorkroomTurn_members

lemma createTask_members {taskId : Uuid} (assigned : Option Uuid) :
    Keeps (MembersSince s) (createTask identity workroomId assigned taskId eventId occurredAt) := by
  unfold createTask
  refine keeps_bind (activeCaller_keeps _) fun _ => keeps_bind (keeps_read _) fun _ => ?_
  refine keeps_bind (keeps_failIf _ _) fun _ => keeps_bind (nextTurnNumber_keeps _) fun _ => ?_
  exact keeps_bind auditAppend_members fun _ => insertWorkroomTurn_members

end Routes

end GovAI
