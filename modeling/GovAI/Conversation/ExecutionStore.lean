import GovAI.Conversation.Schema

/-!
# The fenced execution plane

The statements of `execution-store.ts`.  A statement sees the committed rows of the moment it starts
(its snapshot); an UPDATE evaluates its predicates on the row it found there and once more on the
current row, after waiting for it, while correlated subqueries keep reading the snapshot.  What a
statement writes has to pass the trigger and the constraints of the table.
-/

namespace GovAI

/-! ## Tables -/

/-- The row written to a key, and the rows of the other keys. -/
lemma lookup_insert_eq {ρ : Type} (t : Table ρ) (x y : Uuid) (r : ρ) :
    (t.insert x r).lookup y = if y = x then some r else t.lookup y := by
  split
  · next h => subst h; exact AList.lookup_insert t
  · next h => exact AList.lookup_insert_ne h

/-- Overwrite the row of an attempt. -/
def ConvDb.setAttempt (db : ConvDb) (x : Uuid) (a : AttemptRow) : ConvDb :=
  { db with attempts := db.attempts.insert x a }

section
variable (db : ConvDb) (x : Uuid) (a : AttemptRow)

@[simp] lemma ConvDb.setAttempt_orgs : (db.setAttempt x a).orgs = db.orgs := rfl
@[simp] lemma ConvDb.setAttempt_credentials : (db.setAttempt x a).credentials = db.credentials := rfl
@[simp] lemma ConvDb.setAttempt_conversations :
    (db.setAttempt x a).conversations = db.conversations := rfl
@[simp] lemma ConvDb.setAttempt_branches : (db.setAttempt x a).branches = db.branches := rfl
@[simp] lemma ConvDb.setAttempt_contents : (db.setAttempt x a).contents = db.contents := rfl
@[simp] lemma ConvDb.setAttempt_turns : (db.setAttempt x a).turns = db.turns := rfl
@[simp] lemma ConvDb.setAttempt_items : (db.setAttempt x a).items = db.items := rfl
@[simp] lemma ConvDb.setAttempt_forkBindings :
    (db.setAttempt x a).forkBindings = db.forkBindings := rfl
@[simp] lemma ConvDb.setAttempt_attempts (y : Uuid) :
    (db.setAttempt x a).attempts.lookup y = if y = x then some a else db.attempts.lookup y :=
  lookup_insert_eq ..

end

/-! ## Statements -/

/-- What a statement runs under: the owner context of its transaction, the rows that were committed
when it started, and the database time. -/
structure Statement where
  owner : OwnerScope
  snapshot : ConvDb
  now : ℤ

/-- The dual-predicate policy: a row is visible to its owner. -/
def OwnerScope.Sees (owner : OwnerScope) (conv : Lineage) : Prop := conv.toOwnerScope = owner

instance (owner : OwnerScope) (conv : Lineage) : Decidable (owner.Sees conv) :=
  inferInstanceAs (Decidable (conv.toOwnerScope = owner))

/-- `UPDATE … SET … WHERE a.id = x AND cond RETURNING a.*`. -/
def updateAttempt (st : Statement) (x : Uuid) (cond : ConvDb → AttemptRow → Prop)
    [∀ s a, Decidable (cond s a)] (set : AttemptRow → AttemptRow) (db : ConvDb) :
    Except String (Option AttemptRow × ConvDb) :=
  match st.snapshot.attempts.lookup x, db.attempts.lookup x with
  | some seen, some current =>
    if st.owner.Sees seen.conv ∧ cond st.snapshot seen ∧ cond st.snapshot current then do
      checkUpdate current (set current)
      return (some (set current), db.setAttempt x (set current))
    else return (none, db)
  | _, _ => return (none, db)

/-- The two ways in which an UPDATE ends normally. -/
lemma updateAttempt_eq_ok {st : Statement} {x : Uuid} {cond : ConvDb → AttemptRow → Prop}
    [∀ s a, Decidable (cond s a)] {set : AttemptRow → AttemptRow} {db db' : ConvDb}
    {r : Option AttemptRow} (h : updateAttempt st x cond set db = .ok (r, db')) :
    (r = none ∧ db' = db) ∨
    ∃ seen a, st.snapshot.attempts.lookup x = some seen ∧ db.attempts.lookup x = some a ∧
      st.owner.Sees seen.conv ∧ cond st.snapshot seen ∧ cond st.snapshot a ∧
      checkUpdate a (set a) = .ok () ∧ r = some (set a) ∧ db' = db.setAttempt x (set a) := by
  unfold updateAttempt at h
  split at h
  · next seen a hseen ha =>
    split at h
    · next hcond =>
      simp only [except_bind_eq_ok_iff, except_pure_eq_ok_iff, Prod.mk.injEq] at h
      obtain ⟨_, hcheck, rfl, rfl⟩ := h
      exact .inr ⟨seen, a, hseen, ha, hcond.1, hcond.2.1, hcond.2.2, hcheck, rfl, rfl⟩
    · simp only [except_pure_eq_ok_iff, Prod.mk.injEq] at h
      exact .inl ⟨h.1.symm, h.2.symm⟩
  · simp only [except_pure_eq_ok_iff, Prod.mk.injEq] at h
    exact .inl ⟨h.1.symm, h.2.symm⟩

/-! ## The queue of a branch -/

/-- The scalar subquery `(SELECT t.turn_seq … WHERE t.id = a.turn_id)`. -/
def ConvDb.turnSeqOf (db : ConvDb) (a : AttemptRow) : Option ℕ :=
  ((db.turns.lookup a.turnId).filter fun t => t.conv = a.conv ∧ t.branchId = a.branchId).map
    (·.turnSeq)

/-- The turn has no current attempt, or a non-terminal one. -/
def ConvDb.Blocking (db : ConvDb) (x : Uuid) (t : TurnRow) : Prop :=
  t.currentAttemptId = none ∨ ∃ y ∈ t.currentAttemptId, ∃ a ∈ db.attempts.lookup y,
    a.conv = t.conv ∧ a.branchId = t.branchId ∧ a.turnId = x ∧ a.state.nonTerminal

instance (db : ConvDb) (x : Uuid) (t : TurnRow) : Decidable (db.Blocking x t) :=
  inferInstanceAs (Decidable (_ ∨ _))

/-- `BRANCH_HEAD_PREDICATE`: no lower turn of the branch of `a` is blocking. -/
def BranchHead (db : ConvDb) (a : AttemptRow) : Prop :=
  ∀ e ∈ db.turns.entries, e.2.conv = a.conv → e.2.branchId = a.branchId →
    (∃ seq ∈ db.turnSeqOf a, e.2.turnSeq < seq) → ¬db.Blocking e.1 e.2

instance (db : ConvDb) (a : AttemptRow) : Decidable (BranchHead db a) :=
  inferInstanceAs (Decidable (∀ e ∈ db.turns.entries, _))

/-- A lease of `leaseMs` milliseconds from now on. -/
def Statement.lease (st : Statement) (leaseMs : ℕ) : ℤ := st.now + 1000 * leaseMs

/-- `claim_deadline_at < bound`; NULL when there is no deadline. -/
def AttemptRow.DeadlineBefore (a : AttemptRow) (bound : ℤ) : Prop :=
  ∃ d ∈ a.claimDeadlineAt, d < bound

instance (a : AttemptRow) (bound : ℤ) : Decidable (a.DeadlineBefore bound) :=
  inferInstanceAs (Decidable (∃ d ∈ a.claimDeadlineAt, d < bound))

/-- `claim_deadline_at > now()`. -/
def AttemptRow.LeaseValid (a : AttemptRow) (now : ℤ) : Prop := ∃ d ∈ a.claimDeadlineAt, now < d

instance (a : AttemptRow) (now : ℤ) : Decidable (a.LeaseValid now) :=
  inferInstanceAs (Decidable (∃ d ∈ a.claimDeadlineAt, now < d))

/-! ## Claiming and recovery -/

/-- The columns that every claim and rotation writes. -/
def AttemptRow.claimedBy (a : AttemptRow) (st : Statement) (token : Uuid) (claimant : String)
    (leaseMs : ℕ) : AttemptRow :=
  { a with
    claimToken := some token, claimant := some claimant,
    claimDeadlineAt := some (st.lease leaseMs), heartbeatAt := some st.now }

/-- `claimQueuedHead`: the head-of-queue claim of an unclaimed attempt. -/
def claimQueuedHead (st : Statement) (attemptId claimToken : Uuid) (claimant : String)
    (leaseMs : ℕ) : ConvDb → Except String (Option AttemptRow × ConvDb) :=
  updateAttempt st attemptId
    (fun s a => a.state = .accepted ∧ a.claimToken = none ∧ a.stopRequested = false ∧
      BranchHead s a)
    (·.claimedBy st claimToken claimant leaseMs)

/-- `rotateExpiredAcceptedClaim`: re-claim an accepted attempt whose lease has lapsed. -/
def rotateExpiredAcceptedClaim (st : Statement) (attemptId expectedToken claimToken : Uuid)
    (claimant : String) (leaseMs : ℕ) : ConvDb → Except String (Option AttemptRow × ConvDb) :=
  updateAttempt st attemptId
    (fun s a => a.state = .accepted ∧ a.claimToken = some expectedToken ∧ a.DeadlineBefore st.now ∧
      a.stopRequested = false ∧ BranchHead s a)
    (·.claimedBy st claimToken claimant leaseMs)

/-- `restoreProvenanceAbsentDispatching`: a stranded attempt without provenance goes back to
`accepted` under a new claim. -/
def restoreProvenanceAbsentDispatching (st : Statement) (attemptId expectedToken claimToken : Uuid)
    (claimant : String) (leaseMs graceMs : ℕ) :
    ConvDb → Except String (Option AttemptRow × ConvDb) :=
  updateAttempt st attemptId
    (fun _ a => a.state = .dispatching ∧ a.claimToken = some expectedToken ∧ ¬a.Provenance ∧
      a.DeadlineBefore (st.now - 1000 * graceMs))
    (fun a => { a.claimedBy st claimToken claimant leaseMs with state := .accepted })

/-- `ratchetStrandedToOutcomeUnknown`. -/
def ratchetStrandedToOutcomeUnknown (st : Statement) (attemptId expectedToken : Uuid)
    (graceMs : ℕ) : ConvDb → Except String (Option AttemptRow × ConvDb) :=
  updateAttempt st attemptId
    (fun _ a => (a.state = .dispatching ∨ a.state = .streaming) ∧
      a.claimToken = some expectedToken ∧ a.Provenance ∧ a.DeadlineBefore (st.now - 1000 * graceMs))
    (fun a => { a with state := .outcomeUnknown, terminalAt := some st.now })

/-! ## The dispatch boundary -/

/-- `lockRootForDispatch`: the status of the root, read under its share lock. -/
def lockRootForDispatch (st : Statement) (conversationId : Uuid) (db : ConvDb) :
    Option ConversationStatus :=
  ((db.conversations.lookup conversationId).filter fun c => c.owner = st.owner).map (·.status)

/-- `isRootExecutionEligible`. -/
def isRootExecutionEligible (status : ConversationStatus) : Bool :=
  status = .active ∨ status = .archived

/-- The arguments of `commitDispatchBoundary`. -/
structure BoundaryArgs where
  attemptId : Uuid
  claimToken : Uuid
  leaseMs : ℕ
  causalVersionAtBuild : ℕ
  candidateRequestId : Uuid
  continuationParent : Option (Bytes × Bytes × String × ℤ)
deriving DecidableEq

/-- The columns `continuation_parent_*` that a boundary commit writes. -/
def BoundaryArgs.continuationColumns (b : BoundaryArgs) : ContinuationParent where
  ciphertext := b.continuationParent.map (·.1)
  dekWrapped := b.continuationParent.map (·.2.1)
  kmsKeyId := b.continuationParent.map (·.2.2.1)
  kmsKeyVersion := b.continuationParent.map (·.2.2.2)

/-- `commitDispatchBoundary`: `accepted → dispatching`, before any provider POST. -/
def commitDispatchBoundary (st : Statement) (b : BoundaryArgs) :
    ConvDb → Except String (Option AttemptRow × ConvDb) :=
  updateAttempt st b.attemptId
    (fun s a => a.state = .accepted ∧ a.claimToken = some b.claimToken ∧ a.LeaseValid st.now ∧
      a.stopRequested = false ∧
      (∃ r ∈ s.branches.lookup a.branchId, r.conv = a.conv ∧
        r.causalVersion = b.causalVersionAtBuild) ∧
      BranchHead s a)
    (fun a => { a with
      state := .dispatching
      dispatchBoundaryCommittedAt := a.dispatchBoundaryCommittedAt.or (some st.now)
      govaiRequestId := a.govaiRequestId.or (some b.candidateRequestId)
      causalVersionAtBuild := some b.causalVersionAtBuild
      continuationParent := b.continuationColumns
      claimDeadlineAt := some (st.lease b.leaseMs)
      heartbeatAt := some st.now })

/-- `commitCredentialProvenance`: the credential of the POST, committed before the POST. -/
def commitCredentialProvenance (st : Statement) (attemptId claimToken providerCredentialId : Uuid)
    (provider : String) : ConvDb → Except String (Option AttemptRow × ConvDb) :=
  updateAttempt st attemptId
    (fun s a => a.state = .dispatching ∧ a.claimToken = some claimToken ∧ a.LeaseValid st.now ∧
      ¬a.Provenance ∧
      ∃ pc ∈ s.credentials.lookup providerCredentialId, pc.orgId = a.conv.orgId ∧
        pc.provider = provider ∧ pc.active)
    (fun a => { a with providerCredentialId := some providerCredentialId })

/-- `restoreDispatchingToAccepted`: the fenced restore, which keeps the claim. -/
def restoreDispatchingToAccepted (st : Statement) (attemptId claimToken : Uuid) (leaseMs : ℕ) :
    ConvDb → Except String (Option AttemptRow × ConvDb) :=
  updateAttempt st attemptId
    (fun _ a => a.state = .dispatching ∧ a.claimToken = some claimToken ∧ a.LeaseValid st.now ∧
      ¬a.Provenance)
    (fun a => { a with
      state := .accepted, claimDeadlineAt := some (st.lease leaseMs), heartbeatAt := some st.now })

/-- What `readPrePostAuthority` reports. -/
structure PrePostAuthority where
  state : AttemptState
  leaseValid : Bool
  stopRequested : Bool

/-- `readPrePostAuthority`. -/
def readPrePostAuthority (st : Statement) (attemptId claimToken : Uuid) (db : ConvDb) :
    Option PrePostAuthority :=
  ((db.attempts.lookup attemptId).filter fun a =>
      st.owner.Sees a.conv ∧ a.claimToken = some claimToken).map fun a =>
    ⟨a.state, a.LeaseValid st.now, a.stopRequested⟩

/-! ## The claimed execution -/

/-- `heartbeatClaim`: the renewal of a live lease. -/
def heartbeatClaim (st : Statement) (attemptId claimToken : Uuid) (leaseMs : ℕ) :
    ConvDb → Except String (Option AttemptRow × ConvDb) :=
  updateAttempt st attemptId
    (fun _ a => a.claimToken = some claimToken ∧ a.LeaseValid st.now ∧ a.state.nonTerminal)
    (fun a => { a with claimDeadlineAt := some (st.lease leaseMs), heartbeatAt := some st.now })

/-- `markStreaming`: `dispatching → streaming`. -/
def markStreaming (st : Statement) (attemptId claimToken : Uuid) :
    ConvDb → Except String (Option AttemptRow × ConvDb) :=
  updateAttempt st attemptId
    (fun _ a => a.state = .dispatching ∧ a.claimToken = some claimToken)
    (fun a => { a with state := .streaming })

/-- `finalizeAttempt`: the fenced terminal transition. -/
def finalizeAttempt (st : Statement) (attemptId claimToken : Uuid) (state : AttemptState)
    (errorClass : Option AttemptErrorClass) : ConvDb → Except String (Option AttemptRow × ConvDb) :=
  updateAttempt st attemptId
    (fun _ a => a.claimToken = some claimToken ∧ a.state.nonTerminal)
    (fun a => { a with state := state, errorClass := errorClass, terminalAt := some st.now })

/-- `bumpBranchCausalVersion`. -/
def bumpBranchCausalVersion (st : Statement) (conv : Lineage) (branchId : Uuid) (db : ConvDb) :
    ConvDb :=
  match db.branches.lookup branchId with
  | some b =>
    if st.owner.Sees b.conv ∧ b.conv.conversationId = conv.conversationId then
      { db with
        branches := db.branches.insert branchId { b with causalVersion := b.causalVersion + 1 } }
    else db
  | none => db

/-! ## Output items -/

/-- `nextAttemptItemSeq`: one more than the largest `item_seq` of the attempt. -/
def nextAttemptItemSeq (st : Statement) (attemptId : Uuid) (db : ConvDb) : ℕ :=
  ((db.items.filter fun i => st.owner.Sees i.conv ∧ i.attemptId = some attemptId).map
    (·.itemSeq)).foldr max 0 + 1

/-- The SELECT of `appendFencedOutputItem`: the item row, if the attempt still carries the token in
a receiving state. -/
def fencedOutputItem (st : Statement) (attemptId claimToken : Uuid) (itemSeq : ℕ)
    (itemType : ConversationItemType) (contentId : Uuid) (db : ConvDb) : Option ItemRow :=
  ((db.attempts.lookup attemptId).filter fun a =>
      st.owner.Sees a.conv ∧ a.claimToken = some claimToken ∧
        (a.state = .dispatching ∨ a.state = .streaming)).map fun a =>
    { conv := a.conv, branchId := a.branchId, turnId := a.turnId, attemptId := some attemptId,
      itemSeq := itemSeq, itemType := itemType, contentId := contentId }

/-- The unique indexes of `ai_conversation_items`: `item_seq` within the turn-owned items of a turn,
and within the items of an attempt. -/
def ItemRow.SameSlot (i j : ItemRow) : Prop :=
  i.conv = j.conv ∧ i.branchId = j.branchId ∧ i.turnId = j.turnId ∧ i.attemptId = j.attemptId ∧
    i.itemSeq = j.itemSeq

instance (i j : ItemRow) : Decidable (i.SameSlot j) :=
  inferInstanceAs (Decidable (_ ∧ _))

/-- Insert an item: the unique index, then the row. -/
def insertItem (i : ItemRow) (db : ConvDb) : Except String ConvDb := do
  rejectIf (∃ j ∈ db.items, j.SameSlot i) "ai_conversation_items: duplicate item_seq"
  return { db with items := db.items ++ [i] }

/-- `insertContent` / `insertWorkerContent`: a new row under a fresh id. -/
def insertContent (contentId : Uuid) (row : ContentRow) (db : ConvDb) : Except String ConvDb := do
  rejectIf (contentId ∈ db.contents) "ai_conversation_content: duplicate id"
  rejectIf (row.status = .active ∧ row.dekWrapped = none)
    "ai_conversation_content: status consistency"
  return { db with contents := db.contents.insert contentId row }

end GovAI
