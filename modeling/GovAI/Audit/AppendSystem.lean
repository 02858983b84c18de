import GovAI.Audit.Append
import GovAI.Library.RowVersions
import GovAI.Library.TransitionSystem

/-!
# Concurrent appends

Any number of transactions calling `auditAppend`, interleaved statement by statement at the
isolation level READ COMMITTED.  The tables are heaps of row versions; a transaction sees the
committed rows and its own, of its own organisation only (row level security).  The advisory lock
taken with `pg_advisory_xact_lock` is held to the end of the transaction.  A transaction may be
rolled back between any two statements, which also stands for crashes, deadlock victims and every
error of the database that the model does not spell out.
-/

namespace GovAI

/-- An open database session with its transaction. -/
abbrev TxId := ℕ

/-- The program point of a transaction that calls `auditAppend`. -/
inductive AppendPoint where
  /-- No transaction is open. -/
  | closed
  /-- Between two calls. -/
  | idle
  /-- A statement failed; only `ROLLBACK` is left. -/
  | aborted
  /-- The argument checks passed; the advisory lock is requested. -/
  | waiting (input : AuditAppendInput)
  /-- The lock is held. -/
  | locked (input : AuditAppendInput)
  /-- No explicit id was given, or no row has it. -/
  | fresh (input : AuditAppendInput)
  /-- The chain head was read. -/
  | headRead (input : AuditAppendInput) (prevHmac : Option Bytes) (nextSeq : ℤ)
  /-- The event was signed; `audit_append_locked` is called. -/
  | calling (call : AppendCall)
  /-- `audit_append_locked` passed its checks and inserts. -/
  | inserting (row : EventRow) (payload : Option PayloadRow)

/-- The database and the program points of all transactions. -/
structure AppendState where
  events : List (Version TxId EventRow)
  payloads : List (Version TxId PayloadRow)
  /-- The holder of each advisory lock. -/
  lockOwner : ℤ → Option TxId
  /-- `app.org_id` of each session. -/
  session : TxId → Option String
  point : TxId → AppendPoint

/-- The steps of the system. -/
inductive AppendAction where
  /-- `BEGIN` and the setting of the tenant context. -/
  | begin (org : Option String)
  /-- `auditAppend` is called; its argument checks run. -/
  | call (input : AuditAppendInput)
  /-- `SELECT pg_advisory_xact_lock`. -/
  | lock
  /-- `findExistingEventById` and `assertExistingEventMatches`. -/
  | lookup
  /-- The head of the chain is read. -/
  | readHead
  /-- The event is canonicalised and signed, with the two `randomUUID()` draws. -/
  | sign (randomEventId randomPayloadId : Uuid)
  /-- `audit_append_locked` up to its inserts. -/
  | check
  /-- The inserts of `audit_append_locked`. -/
  | insert
  | commit
  | rollback

namespace AppendState

/-- The events a transaction sees. -/
def visibleEvents (s : AppendState) (t : TxId) : List EventRow :=
  (Version.visible t s.events).filter fun r => some r.orgId.toText = s.session t

/-- The head of a chain as a transaction reads it. -/
def head (s : AppendState) (t : TxId) (chainId : String) : Option EventRow :=
  headRow (chainRows chainId (s.visibleEvents t))

/-- The committed events. -/
def committedEvents (s : AppendState) : List EventRow := Version.committed s.events

/-- The committed rows of one chain, in the order of insertion. -/
def chain (s : AppendState) (chainId : String) : List EventRow :=
  chainRows chainId s.committedEvents

/-- A transaction moves to another program point. -/
def goto (s : AppendState) (t : TxId) (p : AppendPoint) : AppendState :=
  { s with point := Function.update s.point t p }

/-- A transaction takes an advisory lock. -/
def takeLock (s : AppendState) (t : TxId) (key : ℤ) : AppendState :=
  { s with lockOwner := Function.update s.lockOwner key (some t) }

/-- The locks of a transaction are released. -/
def releaseLocks (s : AppendState) (t : TxId) : ℤ → Option TxId :=
  fun key => if s.lockOwner key = some t then none else s.lockOwner key

/-- The rows that an insert of `row` collides with: the primary key and the unique index on
`(chain_id, sequence_number)` cover committed and uncommitted rows of every organisation. -/
def eventConflicts (s : AppendState) (row : EventRow) : List (Version TxId EventRow) :=
  s.events.filter fun v =>
    v.row.id = row.id ∨ (v.row.chainId = row.chainId ∧ v.row.sequenceNumber = row.sequenceNumber)

/-- The payload rows with the primary key of a new one. -/
def payloadConflicts (s : AppendState) (payload : Option PayloadRow) :
    List (Version TxId PayloadRow) :=
  s.payloads.filter fun v => payload.any fun p => p.id = v.row.id

/-- The owners of the rows an insert collides with. -/
def conflictOwners (s : AppendState) (row : EventRow) (payload : Option PayloadRow) :
    List (Option TxId) :=
  (s.eventConflicts row).map Version.owner ++ (s.payloadConflicts payload).map Version.owner

/-- The collisions of an insert depend on the two tables only. -/
lemma conflictOwners_congr {s s' : AppendState} (hevents : s'.events = s.events)
    (hpayloads : s'.payloads = s.payloads) (row : EventRow) (payload : Option PayloadRow) :
    s'.conflictOwners row payload = s.conflictOwners row payload := by
  simp only [conflictOwners, eventConflicts, payloadConflicts, hevents, hpayloads]

/-- Both rows are written. -/
def insertRows (s : AppendState) (t : TxId) (row : EventRow) (payload : Option PayloadRow) :
    AppendState :=
  { s with
    events := s.events ++ [⟨some t, row⟩]
    payloads := s.payloads ++ (payload.toList.map fun p => ⟨some t, p⟩) }

@[simp] theorem goto_point (s : AppendState) (t : TxId) (p : AppendPoint) :
    (s.goto t p).point t = p := Function.update_self ..

@[simp] theorem goto_session (s : AppendState) (t : TxId) (p : AppendPoint) :
    (s.goto t p).session = s.session := rfl

@[simp] theorem goto_lockOwner (s : AppendState) (t : TxId) (p : AppendPoint) :
    (s.goto t p).lockOwner = s.lockOwner := rfl

@[simp] theorem goto_visibleEvents (s : AppendState) (t u : TxId) (p : AppendPoint) :
    (s.goto t p).visibleEvents u = s.visibleEvents u := rfl

@[simp] theorem takeLock_session (s : AppendState) (t : TxId) (key : ℤ) :
    (s.takeLock t key).session = s.session := rfl

@[simp] theorem takeLock_visibleEvents (s : AppendState) (t u : TxId) (key : ℤ) :
    (s.takeLock t key).visibleEvents u = s.visibleEvents u := rfl

/-- The end of a transaction, with what becomes of its rows. -/
def finish (s : AppendState) (t : TxId) (events : List (Version TxId EventRow))
    (payloads : List (Version TxId PayloadRow)) : AppendState where
  events := events
  payloads := payloads
  lockOwner := s.releaseLocks t
  session := Function.update s.session t none
  point := Function.update s.point t .closed

end AppendState

/-- One step of transaction `t`; `none` when the step is not possible (a lock or a unique index
makes it wait, or the transaction is elsewhere).  An error thrown by TypeScript returns to the
caller, an error of the database dooms the transaction. -/
def appendStep (crypto : Crypto) (s : AppendState) (t : TxId) (a : AppendAction) :
    Option AppendState :=
  match a, s.point t with
  | .begin org, .closed =>
      some ({ s with session := Function.update s.session t org }.goto t .idle)
  | .call input, .idle =>
      match checkAppendInput (s.session t) input with
      | .ok _ => some (s.goto t (.waiting input))
      | .error _ => some s
  | .lock, .waiting input =>
      let key := chainLockKey crypto input.chainId
      if s.lockOwner key = none ∨ s.lockOwner key = some t then
        some ((s.takeLock t key).goto t (.locked input))
      else none
  | .lookup, .locked input =>
      match findExistingEvent (s.visibleEvents t) input with
      | .error _ => some (s.goto t .aborted)
      | .ok none => some (s.goto t (.fresh input))
      -- the call returns the existing event or throws a mismatch; either way nothing is written
      | .ok (some _) => some (s.goto t .idle)
  | .readHead, .fresh input =>
      let head := s.head t input.chainId
      some (s.goto t (.headRead input (head.map EventRow.hmac) (nextSequence head)))
  | .sign randomEventId randomPayloadId, .headRead input prevHmac nextSeq =>
      match signAppend crypto input prevHmac nextSeq randomEventId randomPayloadId with
      | .ok call => some (s.goto t (.calling call))
      | .error _ => some (s.goto t .idle)
  | .check, .calling call =>
      if s.lockOwner call.chainLockKey = none ∨ s.lockOwner call.chainLockKey = some t then
        match auditAppendLocked (s.session t) call (s.head t call.chainId) with
        | .ok (row, payload) =>
            some ((s.takeLock t call.chainLockKey).goto t (.inserting row payload))
        | .error _ => some (s.goto t .aborted)
      else none
  | .insert, .inserting row payload =>
      let owners := s.conflictOwners row payload
      if owners = [] then some ((s.insertRows t row payload).goto t .idle)
      else if owners.all fun o => o = none ∨ o = some t then some (s.goto t .aborted)
      else none
  | .commit, .idle =>
      some (s.finish t (Version.commit t s.events) (Version.commit t s.payloads))
  | .rollback, .closed => none
  | .rollback, _ =>
      some (s.finish t (Version.rollback t s.events) (Version.rollback t s.payloads))
  | _, _ => none

/-- The empty database, without any open transaction. -/
def emptyAppendState : AppendState where
  events := []
  payloads := []
  lockOwner _ := none
  session _ := none
  point _ := .closed

/-- All interleavings of transactions that call `auditAppend`. -/
def appendSystem (crypto : Crypto) : TransitionSystem AppendState (TxId × AppendAction) where
  init s := s = emptyAppendState
  step s a s' := appendStep crypto s a.1 a.2 = some s'

/-! ## A call that runs alone -/

/-- Between transactions: nothing is open, locked or uncommitted. -/
structure Quiescent (s : AppendState) : Prop where
  closed : ∀ t, s.point t = .closed
  noSession : ∀ t, s.session t = none
  unlocked : ∀ key, s.lockOwner key = none
  events : ∀ v ∈ s.events, v.owner = none
  payloads : ∀ v ∈ s.payloads, v.owner = none

/-- The state with one more committed event, and its payload. -/
def AppendState.addCommitted (s : AppendState) (row : EventRow) (payload : Option PayloadRow) :
    AppendState :=
  { s with
    events := s.events ++ [⟨none, row⟩]
    payloads := s.payloads ++ (payload.toList.map fun p => ⟨none, p⟩) }

/-- Adding committed rows keeps a state quiescent. -/
lemma Quiescent.addCommitted {s : AppendState} (hq : Quiescent s) (row : EventRow)
    (payload : Option PayloadRow) : Quiescent (s.addCommitted row payload) where
  closed := hq.closed
  noSession := hq.noSession
  unlocked := hq.unlocked
  events v hv := by
    rcases List.mem_append.mp hv with hv | hv
    · exact hq.events v hv
    · rw [List.mem_singleton.mp hv]
  payloads v hv := by
    rcases List.mem_append.mp hv with hv | hv
    · exact hq.payloads v hv
    · obtain ⟨p, -, rfl⟩ := List.mem_map.mp hv
      rfl

/-- The state `s'` inside a transaction `t` that started in `s` and has written nothing yet. -/
structure OnlyOpen (s : AppendState) (t : TxId) (org : String) (s' : AppendState) : Prop where
  events : s'.events = s.events
  payloads : s'.payloads = s.payloads
  session : s'.session t = some org
  otherSession : ∀ u, u ≠ t → s'.session u = none
  otherPoint : ∀ u, u ≠ t → s'.point u = .closed
  locks : ∀ key, s'.lockOwner key = none ∨ s'.lockOwner key = some t

section Alone

variable {crypto : Crypto} {s s' : AppendState} {t : TxId} {org : String}

/-- Moving the open transaction keeps it the only one. -/
lemma OnlyOpen.goto (h : OnlyOpen s t org s') (p : AppendPoint) : OnlyOpen s t org (s'.goto t p) :=
  { h with otherPoint := fun u hu => (Function.update_of_ne hu ..).trans (h.otherPoint u hu) }

/-- Taking a lock keeps the transaction the only one. -/
lemma OnlyOpen.takeLock (h : OnlyOpen s t org s') (key : ℤ) :
    OnlyOpen s t org (s'.takeLock t key) where
  events := h.events
  payloads := h.payloads
  session := h.session
  otherSession := h.otherSession
  otherPoint := h.otherPoint
  locks k := by
    by_cases hk : k = key
    · exact .inr (by simp [AppendState.takeLock, hk])
    · simpa [AppendState.takeLock, Function.update_of_ne hk] using h.locks k

/-- `BEGIN` in a quiescent state. -/
lemma Quiescent.begin (hq : Quiescent s) (t : TxId) (org : String) :
    ∃ s₁, appendStep crypto s t (.begin (some org)) = some s₁ ∧ s₁.point t = .idle ∧
      OnlyOpen s t org s₁ := by
  have h : appendStep crypto s t (.begin (some org)) =
      some ({ s with session := Function.update s.session t (some org) }.goto t .idle) := by
    simp only [appendStep, hq.closed]
  have ho : OnlyOpen s t org { s with session := Function.update s.session t (some org) } :=
    ⟨rfl, rfl, Function.update_self ..,
      fun u hu => (Function.update_of_ne hu ..).trans (hq.noSession u),
      fun u _ => hq.closed u, fun key => .inl (hq.unlocked key)⟩
  exact ⟨_, h, AppendState.goto_point .., ho.goto _⟩

/-- The only open transaction sees the committed rows of its organisation. -/
lemma OnlyOpen.visibleEvents (hq : Quiescent s) (h : OnlyOpen s t org s') :
    s'.visibleEvents t = s.committedEvents.filter fun r => r.orgId.toText = org := by
  have hall : Version.visible t s.events = s.committedEvents := by
    simp only [Version.visible, AppendState.committedEvents, Version.committed]
    congr 1
    exact List.filter_congr fun v hv => by simp [hq.events v hv]
  simp [AppendState.visibleEvents, h.events, h.session, hall]

/-- From the argument checks to the lookup. -/
lemma OnlyOpen.start (hq : Quiescent s) (h : OnlyOpen s t org s') (hp : s'.point t = .idle)
    {input : AuditAppendInput} (hcheck : checkAppendInput (some org) input = .ok ())
    (hlookup : findExistingEvent (s.committedEvents.filter fun r => r.orgId.toText = org) input =
      .ok none) :
    ∃ s₄, (appendSystem crypto).Run s' [(t, .call input), (t, .lock), (t, .lookup)] s₄ ∧
      s₄.point t = .fresh input ∧ OnlyOpen s t org s₄ := by
  have h₁ : appendStep crypto s' t (.call input) = some (s'.goto t (.waiting input)) := by
    simp [appendStep, hp, h.session, hcheck]
  have ho₁ := h.goto (.waiting input)
  have h₂ : appendStep crypto (s'.goto t (.waiting input)) t .lock =
      some (((s'.goto t (.waiting input)).takeLock t (chainLockKey crypto input.chainId)).goto t
        (.locked input)) := by
    have := ho₁.locks (chainLockKey crypto input.chainId)
    simp only [appendStep, AppendState.goto_point, this, ↓reduceIte]
  have ho₂ := (ho₁.takeLock (chainLockKey crypto input.chainId)).goto (.locked input)
  generalize hs' : ((s'.goto t (.waiting input)).takeLock t
    (chainLockKey crypto input.chainId)).goto t (.locked input) = s₃ at h₂ ho₂
  have hp₃ : s₃.point t = .locked input := by simp [← hs']
  have h₃ : appendStep crypto s₃ t .lookup = some (s₃.goto t (.fresh input)) := by
    simp only [appendStep, hp₃, ho₂.visibleEvents hq, hlookup]
  exact ⟨_, .cons h₁ (.cons h₂ (.single h₃)), AppendState.goto_point .., ho₂.goto _⟩

/-- From the lookup to the call of `audit_append_locked`. -/
lemma OnlyOpen.signed (hq : Quiescent s) (h : OnlyOpen s t org s') {input : AuditAppendInput}
    (hp : s'.point t = .fresh input) {head : Option EventRow}
    (hhead : head = headRow (chainRows input.chainId
      (s.committedEvents.filter fun r => r.orgId.toText = org)))
    {eventId payloadId : Uuid} {call : AppendCall}
    (hsign : signAppend crypto input (head.map EventRow.hmac) (nextSequence head) eventId
      payloadId = .ok call) :
    ∃ s₆, (appendSystem crypto).Run s' [(t, .readHead), (t, .sign eventId payloadId)] s₆ ∧
      s₆.point t = .calling call ∧ OnlyOpen s t org s₆ := by
  have hread : s'.head t input.chainId = head := by
    rw [AppendState.head, h.visibleEvents hq, hhead]
  have h₁ : appendStep crypto s' t .readHead =
      some (s'.goto t (.headRead input (head.map EventRow.hmac) (nextSequence head))) := by
    simp only [appendStep, hp, hread]
  have ho := h.goto (.headRead input (head.map EventRow.hmac) (nextSequence head))
  generalize hs' : s'.goto t (.headRead input (head.map EventRow.hmac) (nextSequence head)) = s₅
    at h₁ ho
  have hp₅ : s₅.point t = .headRead input (head.map EventRow.hmac) (nextSequence head) := by
    simp [← hs']
  have h₂ : appendStep crypto s₅ t (.sign eventId payloadId) = some (s₅.goto t (.calling call)) := by
    simp only [appendStep, hp₅, hsign]
  exact ⟨_, .cons h₁ (.single h₂), AppendState.goto_point .., ho.goto _⟩

/-- Committing the rows that were just written in an otherwise committed heap. -/
lemma commit_append_own {R : Type} {h : List (Version TxId R)} (hh : ∀ v ∈ h, v.owner = none)
    (rows : List R) :
    Version.commit t (h ++ rows.map fun r => ⟨some t, r⟩) = h ++ rows.map fun r => ⟨none, r⟩ := by
  have h₁ : Version.commit t h = h := Version.commit_eq_self fun v hv => by simp [hh v hv]
  have h₂ : Version.commit t (h ++ rows.map fun r => ⟨some t, r⟩) =
      Version.commit t h ++ Version.commit t (rows.map fun r => ⟨some t, r⟩) := List.map_append
  rw [h₂, h₁]
  simp [Version.commit, Function.comp_def]

/-- Committing the rows of the only open transaction leaves them committed and nothing open. -/
lemma OnlyOpen.finish_eq (hq : Quiescent s) (h : OnlyOpen s t org s') (row : EventRow)
    (payload : Option PayloadRow) :
    ((s'.insertRows t row payload).goto t .idle).finish t
        (Version.commit t (s'.insertRows t row payload).events)
        (Version.commit t (s'.insertRows t row payload).payloads) =
      s.addCommitted row payload := by
  have h₁ : Version.commit t (s'.insertRows t row payload).events = s.events ++ [⟨none, row⟩] := by
    rw [AppendState.insertRows, h.events]
    exact commit_append_own hq.events [row]
  have h₂ : Version.commit t (s'.insertRows t row payload).payloads =
      s.payloads ++ (payload.toList.map fun p => ⟨none, p⟩) := by
    rw [AppendState.insertRows, h.payloads]
    exact commit_append_own hq.payloads _
  have h₃ : ((s'.insertRows t row payload).goto t .idle).releaseLocks t = s.lockOwner := by
    funext key
    have hl := hq.unlocked key
    rcases h.locks key with h | h <;>
      simp [AppendState.releaseLocks, AppendState.goto, AppendState.insertRows, h, hl]
  have h₄ : Function.update s'.session t none = s.session := by
    funext u
    by_cases hu : u = t
    · simp [hu, hq.noSession]
    · simp [Function.update_of_ne hu, h.otherSession u hu, hq.noSession]
  have h₅ : Function.update (Function.update s'.point t .idle) t .closed = s.point := by
    funext u
    by_cases hu : u = t
    · simp [hu, hq.closed]
    · simp [Function.update_of_ne hu, h.otherPoint u hu, hq.closed]
  rw [AppendState.finish, h₁, h₂, h₃]
  exact AppendState.mk.injEq .. |>.mpr ⟨rfl, rfl, rfl, h₄, h₅⟩

/-- From `audit_append_locked` to the commit. -/
lemma OnlyOpen.inserted (hq : Quiescent s) (h : OnlyOpen s t org s') {call : AppendCall}
    (hp : s'.point t = .calling call) {row : EventRow} {payload : Option PayloadRow}
    (hlocked : auditAppendLocked (some org) call (headRow (chainRows call.chainId
      (s.committedEvents.filter fun r => r.orgId.toText = org))) = .ok (row, payload))
    (hfree : s.conflictOwners row payload = []) :
    (appendSystem crypto).Run s' [(t, .check), (t, .insert), (t, .commit)]
      (s.addCommitted row payload) := by
  have h₁ : appendStep crypto s' t .check =
      some ((s'.takeLock t call.chainLockKey).goto t (.inserting row payload)) := by
    have := h.locks call.chainLockKey
    simp only [appendStep, hp, this, ↓reduceIte, AppendState.head, h.visibleEvents hq, h.session,
      hlocked]
  have ho := (h.takeLock call.chainLockKey).goto (.inserting row payload)
  generalize hs' : (s'.takeLock t call.chainLockKey).goto t (.inserting row payload) = s₇ at h₁ ho
  have hp₇ : s₇.point t = .inserting row payload := by simp [← hs']
  have h₂ : appendStep crypto s₇ t .insert = some ((s₇.insertRows t row payload).goto t .idle) := by
    have := AppendState.conflictOwners_congr ho.events ho.payloads row payload
    simp only [appendStep, hp₇, this, hfree, ↓reduceIte]
  have h₃ : appendStep crypto ((s₇.insertRows t row payload).goto t .idle) t .commit =
      some (s.addCommitted row payload) := by
    simp only [appendStep, AppendState.goto_point]
    exact congrArg some (ho.finish_eq hq row payload)
  exact .cons h₁ (.cons h₂ (.single h₃))

end Alone

/-- The labels of one call in a transaction of its own. -/
def appendLabels (t : TxId) (org : String) (input : AuditAppendInput) (eventId payloadId : Uuid) :
    List (TxId × AppendAction) :=
  [(t, AppendAction.begin (some org))] ++
    [(t, AppendAction.call input), (t, .lock), (t, .lookup)] ++
    [(t, AppendAction.readHead), (t, .sign eventId payloadId)] ++
    [(t, AppendAction.check), (t, .insert), (t, .commit)]

/-- **A call that runs alone.**  Between transactions, a call of `auditAppend` that inserts a row,
run in a transaction of its own, ends with exactly that row committed. -/
theorem run_auditAppend {crypto : Crypto} {s : AppendState} (hq : Quiescent s) (t : TxId)
    {org : String} {input : AuditAppendInput} {eventId payloadId : Uuid} {out : AuditAppendOutput}
    {row : EventRow} {payload : Option PayloadRow}
    (h : auditAppend crypto (some org)
      (s.committedEvents.filter fun r => r.orgId.toText = org) input eventId payloadId =
        .ok (out, some (row, payload)))
    (hfree : s.conflictOwners row payload = []) :
    (appendSystem crypto).Run s (appendLabels t org input eventId payloadId)
      (s.addCommitted row payload) := by
  simp only [auditAppend, except_bind_eq_ok_iff] at h
  obtain ⟨⟨⟩, hcheck, existing, hexisting, h⟩ := h
  cases existing with
  | some r =>
    simp only [except_bind_eq_ok_iff, except_pure_eq_ok_iff, Prod.mk.injEq] at h
    obtain ⟨-, -, -, hno⟩ := h
    exact absurd hno (by simp)
  | none =>
    simp only [except_bind_eq_ok_iff, except_pure_eq_ok_iff, Prod.mk.injEq,
      Option.some.injEq] at h
    obtain ⟨call, hsign, _, hlocked, -, rfl⟩ := h
    have hchain : call.chainId = input.chainId := by
      simp only [signAppend, except_bind_eq_ok_iff, except_pure_eq_ok_iff] at hsign
      obtain ⟨_, -, rfl⟩ := hsign
      rfl
    obtain ⟨s₁, h₁, hp₁, ho₁⟩ := hq.begin t org
    obtain ⟨s₂, h₂, hp₂, ho₂⟩ := ho₁.start hq hp₁ hcheck hexisting
    obtain ⟨s₃, h₃, hp₃, ho₃⟩ := ho₂.signed hq hp₂ rfl hsign
    have h₄ : (appendSystem crypto).Run s₃ [(t, .check), (t, .insert), (t, .commit)]
        (s.addCommitted row payload) :=
      ho₃.inserted hq hp₃ (by rw [hchain]; exact hlocked) hfree
    exact (((TransitionSystem.Run.single h₁).append h₂).append h₃).append h₄

/-! ## Sequential histories -/

/-- The calls of a sequential history, one transaction each: the input and the two random draws. -/
abbrev AppendCalls := List (AuditAppendInput × Uuid × Uuid)

/-- The committed rows after calls of one organisation that run one after the other, each of them
inserting a row without a payload. -/
def appendAll (crypto : Crypto) (org : String) (rows : List EventRow) :
    AppendCalls → Option (List EventRow)
  | [] => some rows
  | (input, eventId, payloadId) :: rest =>
      match auditAppend crypto (some org) (rows.filter fun r => r.orgId.toText = org) input
          eventId payloadId with
      | .ok (_, some (row, none)) =>
          if rows.any fun r => r.id = row.id ∨
              (r.chainId = row.chainId ∧ r.sequenceNumber = row.sequenceNumber) then none
          else appendAll crypto org (rows ++ [row]) rest
      | _ => none

/-- A sequential history runs from every quiescent reachable state. -/
theorem reachable_appendAll_from {crypto : Crypto} {org : String} {rows : List EventRow}
    {calls : AppendCalls} {s : AppendState} (hs : (appendSystem crypto).Reachable s)
    (hq : Quiescent s) (h : appendAll crypto org s.committedEvents calls = some rows) :
    ∃ s', (appendSystem crypto).Reachable s' ∧ s'.committedEvents = rows := by
  induction calls generalizing s with
  | nil => exact ⟨s, hs, by simpa [appendAll] using h⟩
  | cons call rest ih =>
    obtain ⟨input, eventId, payloadId⟩ := call
    rw [appendAll] at h
    split at h
    case h_1 out row hok =>
      split_ifs at h with hdup
      have hevents : s.committedEvents = Version.rows s.events := by
        rw [AppendState.committedEvents, Version.committed,
          List.filter_eq_self.mpr fun v hv => by simp [hq.events v hv]]
      have hfree : s.conflictOwners row none = [] := by
        have hno : s.eventConflicts row = [] := by
          refine List.filter_eq_nil_iff.mpr fun v hv hconf => hdup ?_
          rw [hevents, Version.rows, List.any_map]
          exact List.any_eq_true.mpr ⟨v, hv, by simpa using hconf⟩
        simp [AppendState.conflictOwners, hno, AppendState.payloadConflicts]
      have hrun := run_auditAppend hq 0 hok hfree
      refine ih (hs.run hrun) (hq.addCommitted row none) ?_
      have hnew : (s.addCommitted row none).committedEvents = s.committedEvents ++ [row] := by
        simp [AppendState.committedEvents, AppendState.addCommitted, Version.committed,
          Version.rows, List.filter_append]
      rwa [hnew]
    case h_2 => simp at h

/-- The empty database is quiescent. -/
lemma quiescent_empty : Quiescent emptyAppendState where
  closed _ := rfl
  noSession _ := rfl
  unlocked _ := rfl
  events := by simp [emptyAppendState]
  payloads := by simp [emptyAppendState]

/-- **Sequential histories are reachable.** -/
theorem reachable_appendAll {crypto : Crypto} {org : String} {rows : List EventRow}
    {calls : AppendCalls} (h : appendAll crypto org [] calls = some rows) :
    ∃ s, (appendSystem crypto).Reachable s ∧ s.committedEvents = rows :=
  reachable_appendAll_from (.init rfl) quiescent_empty h

end GovAI
