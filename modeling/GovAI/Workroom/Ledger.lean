import GovAI.Workroom.Statements
import Mathlib.Data.List.Range

/-!
# Events and turns

What the shared statements do to the chains and to the turns, as two updates of the database
(`addEvent`, `addTurn`), and the invariant that they keep: the events of a chain and the turns of a
workroom are numbered from 1 without gaps, event ids are unique, and every turn is anchored to an
event.
-/

namespace GovAI

open TxProgram Function

variable {H : Set WorkroomDb} {s db : WorkroomDb} {ws ws' : Pending WorkroomItem.Val}

/-! ## Items after a write -/

section Items

@[simp] lemma update_chain (c c' : ChainId) (v : List ChainEvent) :
    update db (.chain c) v (.chain c') = if c' = c then v else db (.chain c') := by
  by_cases h : c' = c
  · subst h
    simp
  · simp [h]

@[simp] lemma update_event (i j : Uuid) (v : Option ChainId) :
    update db (.event i) v (.event j) = if j = i then v else db (.event j) := by
  by_cases h : j = i
  · subst h
    simp
  · simp [h]

@[simp] lemma update_turns (w w' : Uuid) (v : List WorkroomTurnRow) :
    update db (.turns w) v (.turns w') = if w' = w then v else db (.turns w') := by
  by_cases h : w' = w
  · subst h
    simp
  · simp [h]

@[simp] lemma update_runEventTurn (r r' : Uuid) (v : Option Uuid) :
    update db (.runEventTurn r) v (.runEventTurn r') =
      if r' = r then v else db (.runEventTurn r') := by
  by_cases h : r' = r
  · subst h
    simp
  · simp [h]

@[simp] lemma update_approval (a a' : Uuid) (v : Option ApprovalRow) :
    update db (.approval a) v (.approval a') = if a' = a then v else db (.approval a') := by
  by_cases h : a' = a
  · subst h
    simp
  · simp [h]

@[simp] lemma update_decision (a a' : Uuid) (v : Option DecisionRow) :
    update db (.decision a) v (.decision a') = if a' = a then v else db (.decision a') := by
  by_cases h : a' = a
  · subst h
    simp
  · simp [h]

@[simp] lemma update_participant (p p' : Uuid) (v : Option ParticipantRow) :
    update db (.participant p) v (.participant p') =
      if p' = p then v else db (.participant p') := by
  by_cases h : p' = p
  · subst h
    simp
  · simp [h]

@[simp] lemma update_run (r r' : Uuid) (v : Option RunRow) :
    update db (.run r) v (.run r') = if r' = r then v else db (.run r') := by
  by_cases h : r' = r
  · subst h
    simp
  · simp [h]

end Items

/-! ## Adding an event, adding a turn -/

/-- The database with one more event at the end of a chain. -/
def addEvent (db : WorkroomDb) (c : ChainId) (e : ChainEvent) : WorkroomDb :=
  update (update db (.chain c) (db (.chain c) ++ [e])) (.event e.id) (some c)

/-- The database with one more turn. -/
def addTurn (db : WorkroomDb) (workroomId : Uuid) (t : WorkroomTurnRow) : WorkroomDb :=
  update db (.turns workroomId) (db (.turns workroomId) ++ [t])

/-- What `auditAppend` does. -/
lemma auditAppend_spec {c : ChainId} {id subjectId : Uuid} {eventType : EventType} {occurredAt : ℤ}
    {redaction : EventMeta} {e : ChainEvent}
    (h : Exec H s (Workroom.auditAppend c id eventType subjectId occurredAt redaction) ws e ws') :
    ws.apply s (.event id) = none ∧
      e = ⟨id, nextSequenceNumber (ws.apply s (.chain c)), eventType, subjectId, occurredAt,
        redaction⟩ ∧
      ws'.apply s = addEvent (ws.apply s) c e := by
  simp only [Workroom.auditAppend, exec_bind, exec_lockItem, exec_failIf, exec_set, exec_pure] at h
  obtain ⟨_, _, ⟨rfl, rfl⟩, _, _, ⟨rfl, rfl⟩, _, _, ⟨hfree, rfl⟩, _, _, rfl, _, _, rfl, rfl, rfl⟩ := h
  exact ⟨by simpa using hfree, rfl, rfl⟩

/-- What `nextTurnNumber` does. -/
lemma nextTurnNumber_spec {workroomId : Uuid} {n : ℕ}
    (h : Exec H s (nextTurnNumber workroomId) ws n ws') :
    n = jsNumber (maxTurnNumber (ws.apply s (.turns workroomId)) + 1) ∧ ws' = ws := by
  simp only [nextTurnNumber, exec_bind, exec_lockItem, exec_pure] at h
  obtain ⟨_, _, ⟨rfl, rfl⟩, rfl, rfl⟩ := h
  exact ⟨rfl, rfl⟩

/-- What the insert of a turn does. -/
lemma insertWorkroomTurn_spec {workroomId : Uuid} {t : WorkroomTurnRow} {u : Unit}
    (h : Exec H s (insertWorkroomTurn workroomId t) ws u ws') :
    t.turnNumber ∉ (ws.apply s (.turns workroomId)).map WorkroomTurnRow.turnNumber ∧
      ws'.apply s = addTurn (ws.apply s) workroomId t := by
  simp only [insertWorkroomTurn, exec_bind, exec_lockItem, exec_failIf, exec_set] at h
  obtain ⟨_, _, ⟨rfl, rfl⟩, _, _, ⟨hfree, rfl⟩, rfl⟩ := h
  exact ⟨hfree, rfl⟩

/-! ## The ledger -/

/-- Events and turns are numbered and linked as they should. -/
structure Ledger (db : WorkroomDb) : Prop where
  /-- The turns of a workroom have the numbers `1..n`. -/
  numbered : ∀ w, (db (.turns w)).map WorkroomTurnRow.turnNumber =
    List.range' 1 (db (.turns w)).length
  /-- The numbers of the turns are exact doubles. -/
  bounded : ∀ w, (db (.turns w)).length ≤ 2 ^ 53
  /-- The events of a chain have the numbers `1..n`. -/
  sequenced : ∀ c, (db (.chain c)).map ChainEvent.sequenceNumber =
    List.range' 1 (db (.chain c)).length
  /-- The primary key of the events is complete. -/
  indexed : ∀ c, ∀ e ∈ db (.chain c), db (.event e.id) = some c
  /-- The primary key of the events has no other entries. -/
  listed : ∀ i c, db (.event i) = some c → ∃ e ∈ db (.chain c), e.id = i
  /-- Every turn has an event. -/
  anchored : ∀ w, ∀ t ∈ db (.turns w), db (.event t.auditEventId) ≠ none

/-- The ledger depends on events and turns only. -/
lemma Ledger.congr {db' : WorkroomDb} (h : Ledger db) (hturns : ∀ w, db' (.turns w) = db (.turns w))
    (hchain : ∀ c, db' (.chain c) = db (.chain c)) (hevent : ∀ i, db' (.event i) = db (.event i)) :
    Ledger db' where
  numbered w := by rw [hturns]; exact h.numbered w
  bounded w := by rw [hturns]; exact h.bounded w
  sequenced c := by rw [hchain]; exact h.sequenced c
  indexed c e he := by rw [hchain] at he; rw [hevent]; exact h.indexed c e he
  listed i c hi := by rw [hevent] at hi; rw [hchain]; exact h.listed i c hi
  anchored w t ht := by rw [hturns] at ht; rw [hevent]; exact h.anchored w t ht

/-- No rows make an empty ledger. -/
lemma ledger_empty : Ledger emptyWorkroomDb where
  numbered _ := rfl
  bounded _ := Nat.zero_le _
  sequenced _ := rfl
  indexed _ _ he := by cases he
  listed _ _ hi := by cases hi
  anchored _ _ ht := by cases ht

lemma range'_one_concat (n : ℕ) : List.range' 1 n ++ [n + 1] = List.range' 1 (n + 1) := by
  rw [List.range'_1_concat, Nat.add_comm 1 n]

/-- The number of the next event. -/
lemma nextSequenceNumber_eq {events : List ChainEvent}
    (h : events.map ChainEvent.sequenceNumber = List.range' 1 events.length) :
    nextSequenceNumber events = events.length + 1 := by
  have hlast : events.getLast?.map ChainEvent.sequenceNumber =
      (List.range' 1 events.length).getLast? := by
    rw [← h, List.getLast?_map]
  rw [nextSequenceNumber, hlast]
  cases events.length with
  | zero => rfl
  | succ n => rw [← range'_one_concat, List.getLast?_concat, Option.getD_some]

/-- The greatest number of the turns. -/
lemma maxTurnNumber_eq {turns : List WorkroomTurnRow}
    (h : turns.map WorkroomTurnRow.turnNumber = List.range' 1 turns.length) :
    maxTurnNumber turns = turns.length := by
  rw [maxTurnNumber, h]
  induction turns.length with
  | zero => rfl
  | succ n ih =>
    rw [← range'_one_concat, List.foldl_concat, ih]
    exact max_eq_right (Nat.le_succ n)

/-- **Adding an event keeps the ledger.** -/
lemma Ledger.addEvent (h : Ledger db) {c : ChainId} {e : ChainEvent}
    (hfree : db (.event e.id) = none)
    (hseq : e.sequenceNumber = nextSequenceNumber (db (.chain c))) :
    Ledger (addEvent db c e) where
  numbered w := by simpa [GovAI.addEvent] using h.numbered w
  bounded w := by simpa [GovAI.addEvent] using h.bounded w
  sequenced c' := by
    by_cases hc : c' = c
    · subst hc
      rw [nextSequenceNumber_eq (h.sequenced c')] at hseq
      simp [GovAI.addEvent, h.sequenced, hseq, range'_one_concat]
    · simpa [GovAI.addEvent, hc] using h.sequenced c'
  indexed c' e' he' := by
    have hold : ∀ c', ∀ e' ∈ db (.chain c'), GovAI.addEvent db c e (.event e'.id) = some c' := by
      intro c' e' he'
      have hindex := h.indexed c' e' he'
      have hne : e'.id ≠ e.id := by
        intro heq
        rw [heq, hfree] at hindex
        cases hindex
      simpa [GovAI.addEvent, hne] using hindex
    by_cases hc : c' = c
    · subst hc
      simp only [GovAI.addEvent, ne_eq, reduceCtorEq, not_false_eq_true, update_of_ne, update_self,
        List.mem_append, List.mem_singleton] at he'
      rcases he' with he' | rfl
      · exact hold c' e' he'
      · simp [GovAI.addEvent]
    · refine hold c' e' ?_
      simpa [GovAI.addEvent, hc] using he'
  listed i c' hi := by
    by_cases heq : i = e.id
    · subst heq
      obtain rfl : c = c' := by simpa [GovAI.addEvent] using hi
      exact ⟨e, by simp [GovAI.addEvent], rfl⟩
    · obtain ⟨e', he', hid⟩ := h.listed i c' (by simpa [GovAI.addEvent, heq] using hi)
      refine ⟨e', ?_, hid⟩
      by_cases hc : c' = c
      · subst hc
        simp [GovAI.addEvent, he']
      · simpa [GovAI.addEvent, hc] using he'
  anchored w t ht := by
    have hevent := h.anchored w t (by simpa [GovAI.addEvent] using ht)
    by_cases heq : t.auditEventId = e.id
    · simp [GovAI.addEvent, heq]
    · simpa [GovAI.addEvent, heq] using hevent

/-- The numbers that the routes give to a turn: the one that follows the greatest, or 1 for the first
turn of a new workroom. -/
def NextTurn (turns : List WorkroomTurnRow) (n : ℕ) : Prop :=
  n = jsNumber (maxTurnNumber turns + 1) ∨ n = 1

/-- Such a number is free only if it is the next one, and then it is a double. -/
lemma Ledger.nextTurn (h : Ledger db) {w : Uuid} {n : ℕ} (hn : NextTurn (db (.turns w)) n)
    (hfree : n ∉ (db (.turns w)).map WorkroomTurnRow.turnNumber) :
    n = (db (.turns w)).length + 1 ∧ n ≤ 2 ^ 53 := by
  have hbound := h.bounded w
  rw [h.numbered w, List.mem_range'_1] at hfree
  rcases hn with rfl | rfl
  · rw [maxTurnNumber_eq (h.numbered w)] at hfree ⊢
    rcases hbound.lt_or_eq with hlt | heq
    · rw [jsNumber_eq_self hlt]
      exact ⟨rfl, hlt⟩
    · rw [heq] at hfree
      exact absurd (show 1 ≤ jsNumber (2 ^ 53 + 1) ∧ jsNumber (2 ^ 53 + 1) < 1 + 2 ^ 53 by decide)
        hfree
  · omega

/-- **Adding a turn keeps the ledger.** -/
lemma Ledger.addTurn (h : Ledger db) {w : Uuid} {t : WorkroomTurnRow}
    (hnext : NextTurn (db (.turns w)) t.turnNumber)
    (hfree : t.turnNumber ∉ (db (.turns w)).map WorkroomTurnRow.turnNumber)
    (hevent : db (.event t.auditEventId) ≠ none) : Ledger (addTurn db w t) where
  numbered w' := by
    by_cases hw : w' = w
    · subst hw
      simp [GovAI.addTurn, h.numbered, (h.nextTurn hnext hfree).1, range'_one_concat]
    · simpa [GovAI.addTurn, hw] using h.numbered w'
  bounded w' := by
    by_cases hw : w' = w
    · subst hw
      obtain ⟨hn, hle⟩ := h.nextTurn hnext hfree
      simpa [GovAI.addTurn, hn] using hle
    · simpa [GovAI.addTurn, hw] using h.bounded w'
  sequenced c := by simpa [GovAI.addTurn] using h.sequenced c
  indexed c e he := by simpa [GovAI.addTurn] using h.indexed c e (by simpa [GovAI.addTurn] using he)
  listed i c hi := by
    simpa [GovAI.addTurn] using h.listed i c (by simpa [GovAI.addTurn] using hi)
  anchored w' t' ht' := by
    have hsame : ∀ i, GovAI.addTurn db w t (.event i) = db (.event i) := fun i => by
      simp [GovAI.addTurn]
    rw [hsame]
    by_cases hw : w' = w
    · subst hw
      simp only [GovAI.addTurn, update_self, List.mem_append, List.mem_singleton] at ht'
      rcases ht' with ht' | rfl
      · exact h.anchored w' t' ht'
      · exact hevent
    · exact h.anchored w' t' (by simpa [GovAI.addTurn, hw] using ht')

end GovAI
