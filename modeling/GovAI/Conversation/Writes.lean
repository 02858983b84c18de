import GovAI.Conversation.System

/-!
# What the statements of the workers write

The operations of a worker write a single row of `ai_conversation_attempts`, possibly with the
causal version of a branch, or append one output item.  `AttemptWrite` lists the row changes with
the predicates under which they happen, and `Op.exec_done` says that nothing else is written.
-/

namespace GovAI

/-! ## Row changes -/

/-- The change that the UPDATE of an operation makes to the row `a` of the attempt `x`. -/
inductive AttemptWrite (deps : ExecutorDeps) (st : Statement) :
    Op → Uuid → AttemptRow → AttemptRow → Prop
  | claim {x t : Uuid} {a : AttemptRow} (hstate : a.state = .accepted) (htoken : a.claimToken = none)
      (hstop : a.stopRequested = false) (hhead : BranchHead st.snapshot a) :
      AttemptWrite deps st (.claim x t) x a (a.claimedBy st t deps.claimant deps.leaseMs)
  | rotate {x e t : Uuid} {a : AttemptRow} (hstate : a.state = .accepted)
      (htoken : a.claimToken = some e) (hdeadline : a.DeadlineBefore st.now)
      (hstop : a.stopRequested = false) (hhead : BranchHead st.snapshot a) :
      AttemptWrite deps st (.rotate x e t) x a (a.claimedBy st t deps.claimant deps.leaseMs)
  | reclaim {x e t : Uuid} {a : AttemptRow} (hstate : a.state = .dispatching)
      (htoken : a.claimToken = some e) (hprov : ¬a.Provenance)
      (hdeadline : a.DeadlineBefore (st.now - 1000 * deps.recoveryGraceMs)) :
      AttemptWrite deps st (.reclaim x e t) x a
        { a.claimedBy st t deps.claimant deps.leaseMs with state := .accepted }
  | ratchet {x e : Uuid} {a : AttemptRow} (hstate : a.state = .dispatching ∨ a.state = .streaming)
      (htoken : a.claimToken = some e) (hprov : a.Provenance)
      (hdeadline : a.DeadlineBefore (st.now - 1000 * deps.recoveryGraceMs)) :
      AttemptWrite deps st (.ratchet x e) x a
        { a with state := .outcomeUnknown, terminalAt := some st.now }
  | boundary {b : BoundaryArgs} {a : AttemptRow} (hstate : a.state = .accepted)
      (htoken : a.claimToken = some b.claimToken) (hlease : a.LeaseValid st.now)
      (hstop : a.stopRequested = false)
      (hversion : ∃ r ∈ st.snapshot.branches.lookup a.branchId, r.conv = a.conv ∧
        r.causalVersion = b.causalVersionAtBuild)
      (hhead : BranchHead st.snapshot a) :
      AttemptWrite deps st (.boundary b) b.attemptId a
        { a with
          state := .dispatching
          dispatchBoundaryCommittedAt := a.dispatchBoundaryCommittedAt.or (some st.now)
          govaiRequestId := a.govaiRequestId.or (some b.candidateRequestId)
          causalVersionAtBuild := some b.causalVersionAtBuild
          continuationParent := b.continuationColumns
          claimDeadlineAt := some (st.lease b.leaseMs)
          heartbeatAt := some st.now }
  | provenance {x t c : Uuid} {p : DispatchProvider} {a : AttemptRow} (hstate : a.state = .dispatching)
      (htoken : a.claimToken = some t) (hlease : a.LeaseValid st.now) (hprov : ¬a.Provenance) :
      AttemptWrite deps st (.provenance x t c p) x a { a with providerCredentialId := some c }
  | restore {x t : Uuid} {a : AttemptRow} (hstate : a.state = .dispatching)
      (htoken : a.claimToken = some t) (hlease : a.LeaseValid st.now) (hprov : ¬a.Provenance) :
      AttemptWrite deps st (.restore x t) x a
        { a with
          state := .accepted, claimDeadlineAt := some (st.lease deps.leaseMs)
          heartbeatAt := some st.now }
  | heartbeat {x t : Uuid} {a : AttemptRow} (hstate : a.state.nonTerminal)
      (htoken : a.claimToken = some t) (hlease : a.LeaseValid st.now) :
      AttemptWrite deps st (.heartbeat x t) x a
        { a with claimDeadlineAt := some (st.lease deps.leaseMs), heartbeatAt := some st.now }
  | markStreaming {x t : Uuid} {a : AttemptRow} (hstate : a.state = .dispatching)
      (htoken : a.claimToken = some t) :
      AttemptWrite deps st (.markStreaming x t) x a { a with state := .streaming }
  | finalize {context : ExecutionContext} {x t : Uuid} {state : AttemptState}
      {errorClass : Option AttemptErrorClass} {a : AttemptRow} (hstate : a.state.nonTerminal)
      (htoken : a.claimToken = some t) :
      AttemptWrite deps st (.finalize context x t state errorClass) x a
        { a with state := state, errorClass := errorClass, terminalAt := some st.now }

/-! ## The causal version -/

section
variable (st : Statement) (conv : Lineage) (branchId : Uuid) (db : ConvDb)

/-- The bump touches the branches only. -/
lemma bumpBranchCausalVersion_eq : ∃ branches,
    bumpBranchCausalVersion st conv branchId db = { db with branches := branches } := by
  unfold bumpBranchCausalVersion
  split
  · split
    · exact ⟨_, rfl⟩
    · exact ⟨db.branches, rfl⟩
  · exact ⟨db.branches, rfl⟩

@[simp] lemma bumpBranchCausalVersion_orgs :
    (bumpBranchCausalVersion st conv branchId db).orgs = db.orgs := by
  obtain ⟨_, h⟩ := bumpBranchCausalVersion_eq st conv branchId db
  rw [h]

@[simp] lemma bumpBranchCausalVersion_credentials :
    (bumpBranchCausalVersion st conv branchId db).credentials = db.credentials := by
  obtain ⟨_, h⟩ := bumpBranchCausalVersion_eq st conv branchId db
  rw [h]

@[simp] lemma bumpBranchCausalVersion_conversations :
    (bumpBranchCausalVersion st conv branchId db).conversations = db.conversations := by
  obtain ⟨_, h⟩ := bumpBranchCausalVersion_eq st conv branchId db
  rw [h]

@[simp] lemma bumpBranchCausalVersion_contents :
    (bumpBranchCausalVersion st conv branchId db).contents = db.contents := by
  obtain ⟨_, h⟩ := bumpBranchCausalVersion_eq st conv branchId db
  rw [h]

@[simp] lemma bumpBranchCausalVersion_turns :
    (bumpBranchCausalVersion st conv branchId db).turns = db.turns := by
  obtain ⟨_, h⟩ := bumpBranchCausalVersion_eq st conv branchId db
  rw [h]

@[simp] lemma bumpBranchCausalVersion_attempts :
    (bumpBranchCausalVersion st conv branchId db).attempts = db.attempts := by
  obtain ⟨_, h⟩ := bumpBranchCausalVersion_eq st conv branchId db
  rw [h]

@[simp] lemma bumpBranchCausalVersion_items :
    (bumpBranchCausalVersion st conv branchId db).items = db.items := by
  obtain ⟨_, h⟩ := bumpBranchCausalVersion_eq st conv branchId db
  rw [h]

@[simp] lemma bumpBranchCausalVersion_forkBindings :
    (bumpBranchCausalVersion st conv branchId db).forkBindings = db.forkBindings := by
  obtain ⟨_, h⟩ := bumpBranchCausalVersion_eq st conv branchId db
  rw [h]

end

/-- A branch keeps everything but its causal version, which does not go down. -/
lemma bumpBranchCausalVersion_branches {st : Statement} {conv : Lineage} {branchId : Uuid}
    {db : ConvDb} (y : Uuid) :
    (bumpBranchCausalVersion st conv branchId db).branches.lookup y = db.branches.lookup y ∨
    ∃ b, db.branches.lookup y = some b ∧
      (bumpBranchCausalVersion st conv branchId db).branches.lookup y =
        some { b with causalVersion := b.causalVersion + 1 } := by
  unfold bumpBranchCausalVersion
  split
  · next b hb =>
    split
    · rw [lookup_insert_eq]
      split
      · next h => exact .inr ⟨b, h ▸ hb, rfl⟩
      · exact .inl rfl
    · exact .inl rfl
  · exact .inl rfl

/-! ## The operations -/

/-- How an operation ends its transaction. -/
inductive ExecOutcome (deps : ExecutorDeps) (st : Statement) (db : ConvDb) : Op → Bool → ConvDb → Prop
  /-- Nothing is written, and the answer is negative. -/
  | idle (op : Op) : ExecOutcome deps st db op false db
  /-- One attempt is written, and possibly a causal version. -/
  | write {op : Op} {reply : Bool} {x : Uuid} {seen a a' : AttemptRow} {db' : ConvDb}
      (hwrite : AttemptWrite deps st op x a a') (hseen : st.snapshot.attempts.lookup x = some seen)
      (hrow : db.attempts.lookup x = some a) (hcheck : checkUpdate a a' = .ok ())
      (hdb : db' = db.setAttempt x a' ∨ ∃ conv branchId,
        db' = bumpBranchCausalVersion st conv branchId (db.setAttempt x a'))
      (hreply : reply = true ∨ ∃ e, op = .ratchet x e) : ExecOutcome deps st db op reply db'
  /-- One output item is appended with its content. -/
  | item {p : OutputArgs} {i : ItemRow} {db' : ConvDb} (hnew : p.contentId ∉ db.contents)
      (hslot : ¬∃ j ∈ db.items, j.SameSlot i)
      (hdb : db' = { db with contents := db.contents.insert p.contentId p.content
                             items := db.items ++ [i] }) :
      ExecOutcome deps st db (.commitItem p i) true db'

/-- An operation of one UPDATE. -/
lemma ExecOutcome.of_update {deps : ExecutorDeps} {st : Statement} {db db' : ConvDb} {op : Op}
    {reply : Bool} {x : Uuid} {cond : ConvDb → AttemptRow → Prop} [∀ s a, Decidable (cond s a)]
    {set : AttemptRow → AttemptRow}
    (h : (updateAttempt st x cond set db).map OpResult.ofUpdate = .ok (.done reply db'))
    (hwrite : ∀ a, cond st.snapshot a → AttemptWrite deps st op x a (set a)) :
    ExecOutcome deps st db op reply db' := by
  obtain ⟨⟨r, db''⟩, hupdate, hdone⟩ := except_map_eq_ok_iff.mp h
  simp only [OpResult.ofUpdate, OpResult.done.injEq] at hdone
  obtain ⟨rfl, rfl⟩ := hdone
  rcases updateAttempt_eq_ok hupdate with ⟨rfl, rfl⟩ |
    ⟨seen, a, hseen, hrow, -, -, hcond, hcheck, rfl, rfl⟩
  · exact .idle _
  · exact .write (hwrite a hcond) hseen hrow hcheck (.inl rfl) (.inl rfl)

/-- `ratchetAndWake` writes what its UPDATE writes. -/
lemma ratchetAndWake_outcome {deps : ExecutorDeps} {st : Statement} {db db' : ConvDb} {x e : Uuid}
    {r : Bool} (h : ratchetAndWake deps st x e db = .ok (r, db')) :
    ExecOutcome deps st db (.ratchet x e) false db' := by
  simp only [ratchetAndWake, except_bind_eq_ok_iff, Prod.exists] at h
  obtain ⟨ratcheted, db₁, hupdate, h⟩ := h
  rcases updateAttempt_eq_ok hupdate with ⟨rfl, rfl⟩ |
    ⟨seen, a, hseen, hrow, -, -, ⟨hstate, htoken, hprov, hdeadline⟩, hcheck, rfl, rfl⟩
  · simp only [except_pure_eq_ok_iff, Prod.mk.injEq] at h
    exact h.2 ▸ .idle _
  · refine .write (.ratchet hstate htoken hprov hdeadline) hseen hrow hcheck ?_ (.inr ⟨e, rfl⟩)
    simp only at h
    split at h
    · simp only [except_pure_eq_ok_iff, Prod.mk.injEq] at h
      exact .inl h.2.symm
    · simp only [except_pure_eq_ok_iff, Prod.mk.injEq] at h
      exact .inr ⟨_, _, h.2.symm⟩

/-- `finalizeAndWake` writes what its UPDATE writes. -/
lemma finalizeAndWake_outcome {deps : ExecutorDeps} {st : Statement} {context : ExecutionContext}
    {db db' : ConvDb} {x t : Uuid} {state : AttemptState} {errorClass : Option AttemptErrorClass}
    {r : Bool} (h : finalizeAndWake st context x t state errorClass db = .ok (r, db')) :
    ExecOutcome deps st db (.finalize context x t state errorClass) r db' := by
  simp only [finalizeAndWake, except_bind_eq_ok_iff, Prod.exists] at h
  obtain ⟨finalized, db₁, hupdate, h⟩ := h
  rcases updateAttempt_eq_ok hupdate with ⟨rfl, rfl⟩ |
    ⟨seen, a, hseen, hrow, -, -, ⟨htoken, hstate⟩, hcheck, rfl, rfl⟩
  · simp only [except_pure_eq_ok_iff, Prod.mk.injEq] at h
    obtain ⟨rfl, rfl⟩ := h
    exact .idle _
  · simp only [except_pure_eq_ok_iff, Prod.mk.injEq] at h
    obtain ⟨rfl, rfl⟩ := h
    exact .write (.finalize hstate htoken) hseen hrow hcheck (.inr ⟨_, _, rfl⟩) (.inl rfl)

/-- A successful `insertContent` adds a row under a new id. -/
lemma insertContent_eq_ok {contentId : Uuid} {row : ContentRow} {db db' : ConvDb}
    (h : insertContent contentId row db = .ok db') :
    contentId ∉ db.contents ∧ db' = { db with contents := db.contents.insert contentId row } := by
  simp only [insertContent, except_bind_eq_ok_iff, rejectIf_eq_ok_iff, except_pure_eq_ok_iff] at h
  obtain ⟨_, hnew, _, -, rfl⟩ := h
  exact ⟨hnew, rfl⟩

/-- A successful `insertItem` appends an item to a free slot. -/
lemma insertItem_eq_ok {i : ItemRow} {db db' : ConvDb} (h : insertItem i db = .ok db') :
    (¬∃ j ∈ db.items, j.SameSlot i) ∧ db' = { db with items := db.items ++ [i] } := by
  simp only [insertItem, except_bind_eq_ok_iff, rejectIf_eq_ok_iff, except_pure_eq_ok_iff] at h
  obtain ⟨_, hslot, rfl⟩ := h
  exact ⟨hslot, rfl⟩

/-- What an operation writes when its transaction commits. -/
theorem Op.exec_done {deps : ExecutorDeps} {st : Statement} {db db' : ConvDb} {op : Op}
    {reply : Bool} (h : op.exec deps st db = .ok (.done reply db')) :
    ExecOutcome deps st db op reply db' := by
  cases op with
  | claim x t =>
    refine .of_update h fun a hmay => ?_
    obtain ⟨hs, ht, hstop, hhead⟩ := hmay
    exact .claim hs ht hstop hhead
  | rotate x e t =>
    refine .of_update h fun a hmay => ?_
    obtain ⟨hs, ht, hd, hstop, hhead⟩ := hmay
    exact .rotate hs ht hd hstop hhead
  | reclaim x e t =>
    simp only [Op.exec, except_bind_eq_ok_iff, Prod.exists] at h
    obtain ⟨r, db₁, hupdate, h⟩ := h
    rcases updateAttempt_eq_ok hupdate with ⟨rfl, rfl⟩ |
      ⟨seen, a, hseen, hrow, -, -, ⟨hs, ht, hp, hd⟩, hcheck, rfl, rfl⟩
    · simp at h
    · simp only [except_pure_eq_ok_iff, OpResult.done.injEq] at h
      obtain ⟨rfl, rfl⟩ := h
      exact .write (.reclaim hs ht hp hd) hseen hrow hcheck (.inl rfl) (.inl rfl)
  | ratchet x e =>
    obtain ⟨⟨r, db₁⟩, hratchet, hdone⟩ := except_map_eq_ok_iff.mp h
    simp only [OpResult.done.injEq] at hdone
    obtain ⟨rfl, rfl⟩ := hdone
    exact ratchetAndWake_outcome hratchet
  | lockRoot c b =>
    simp only [Op.exec] at h
    split at h
    · simp at h
    · simp only [Except.ok.injEq, OpResult.done.injEq] at h
      obtain ⟨rfl, rfl⟩ := h
      exact .idle _
  | boundary b =>
    refine .of_update h fun a hmay => ?_
    obtain ⟨hs, ht, hl, hstop, hv, hhead⟩ := hmay
    exact .boundary hs ht hl hstop hv hhead
  | authority x t c p =>
    simp only [Op.exec] at h
    split at h
    · simp only [Except.ok.injEq, OpResult.done.injEq] at h
      obtain ⟨rfl, rfl⟩ := h
      exact .idle _
    · split at h
      · simp at h
      · simp only [Except.ok.injEq, OpResult.done.injEq] at h
        obtain ⟨rfl, rfl⟩ := h
        exact .idle _
  | provenance x t c p =>
    refine .of_update h fun a hmay => ?_
    obtain ⟨hs, ht, hl, hp, _⟩ := hmay
    exact .provenance hs ht hl hp
  | restore x t =>
    refine .of_update h fun a hmay => ?_
    obtain ⟨hs, ht, hl, hp⟩ := hmay
    exact .restore hs ht hl hp
  | heartbeat x t =>
    refine .of_update h fun a hmay => ?_
    obtain ⟨ht, hl, hs⟩ := hmay
    exact .heartbeat hs ht hl
  | markStreaming x t =>
    refine .of_update h fun a hmay => ?_
    obtain ⟨hs, ht⟩ := hmay
    exact .markStreaming hs ht
  | itemSeq p => simp [Op.exec] at h
  | append p seq =>
    simp only [Op.exec] at h
    split at h
    · simp only [Except.ok.injEq, OpResult.done.injEq] at h
      obtain ⟨rfl, rfl⟩ := h
      exact .idle _
    · simp at h
  | commitItem p i =>
    simp only [Op.exec, except_bind_eq_ok_iff, except_pure_eq_ok_iff, OpResult.done.injEq] at h
    obtain ⟨db₁, hcontent, db₂, hitem, rfl, rfl⟩ := h
    obtain ⟨hnew, rfl⟩ := insertContent_eq_ok hcontent
    obtain ⟨hslot, rfl⟩ := insertItem_eq_ok hitem
    exact .item hnew hslot rfl
  | finalize context x t state errorClass =>
    obtain ⟨⟨r, db₁⟩, hfinalize, hdone⟩ := except_map_eq_ok_iff.mp h
    simp only [OpResult.done.injEq] at hdone
    obtain ⟨rfl, rfl⟩ := hdone
    exact finalizeAndWake_outcome hfinalize

/-- The statements that follow another one in a transaction. -/
inductive OpNext (st : Statement) (db : ConvDb) : Op → Op → Prop
  | reclaim {x e t : Uuid} : OpNext st db (.reclaim x e t) (.ratchet x e)
  | lockRoot {c : Uuid} {b : BoundaryArgs} : OpNext st db (.lockRoot c b) (.boundary b)
  | authority {x t c : Uuid} {p : DispatchProvider} :
      OpNext st db (.authority x t c p) (.provenance x t c p)
  | itemSeq {p : OutputArgs} :
      OpNext st db (.itemSeq p) (.append p (nextAttemptItemSeq st p.attemptId db))
  | append {p : OutputArgs} {seq : ℕ} {i : ItemRow}
      (hitem : fencedOutputItem st p.attemptId p.claimToken seq p.itemType p.contentId db = some i) :
      OpNext st db (.append p seq) (.commitItem p i)

/-- What an operation goes on with when its transaction does not end. -/
theorem Op.exec_next {deps : ExecutorDeps} {st : Statement} {db : ConvDb} {op op' : Op}
    (h : op.exec deps st db = .ok (.next op')) : OpNext st db op op' := by
  cases op with
  | reclaim x e t =>
    simp only [Op.exec, except_bind_eq_ok_iff, Prod.exists] at h
    obtain ⟨r, db₁, -, h⟩ := h
    split at h
    · simp at h
    · simp only [except_pure_eq_ok_iff, OpResult.next.injEq] at h
      exact h ▸ .reclaim
  | lockRoot c b =>
    simp only [Op.exec] at h
    split at h
    · simp only [Except.ok.injEq, OpResult.next.injEq] at h
      exact h ▸ .lockRoot
    · simp at h
  | authority x t c p =>
    simp only [Op.exec] at h
    split at h
    · simp at h
    · split at h
      · simp only [Except.ok.injEq, OpResult.next.injEq] at h
        exact h ▸ .authority
      · simp at h
  | itemSeq p =>
    simp only [Op.exec, Except.ok.injEq, OpResult.next.injEq] at h
    exact h ▸ .itemSeq
  | append p seq =>
    simp only [Op.exec] at h
    split at h
    · simp at h
    · next i hitem =>
      simp only [Except.ok.injEq, OpResult.next.injEq] at h
      exact h ▸ .append hitem
  | commitItem p i =>
    simp only [Op.exec, except_bind_eq_ok_iff, except_pure_eq_ok_iff, reduceCtorEq, and_false] at h
    obtain ⟨_, _, _, h⟩ := h
    exact h.elim
  | _ => simp [Op.exec, OpResult.ofUpdate] at h

/-- An UPDATE fails only if its row change does not pass the trigger and the constraints. -/
lemma updateAttempt_eq_error {st : Statement} {x : Uuid} {cond : ConvDb → AttemptRow → Prop}
    [∀ s a, Decidable (cond s a)] {set : AttemptRow → AttemptRow} {db : ConvDb} {e : String}
    (h : updateAttempt st x cond set db = .error e) :
    ∃ a, db.attempts.lookup x = some a ∧ cond st.snapshot a ∧ checkUpdate a (set a) = .error e := by
  unfold updateAttempt at h
  split at h
  · next seen a _ hrow =>
    split at h
    · next hcond =>
      refine ⟨a, hrow, hcond.2.2, ?_⟩
      cases hcheck : checkUpdate a (set a) with
      | error e' =>
        rw [hcheck] at h
        cases h
        rfl
      | ok u =>
        rw [hcheck] at h
        cases h
    · cases h
  · cases h

/-- The condition under which an operation is refused: its row change does not pass the trigger and
the constraints, or its output item cannot be inserted. -/
def Op.Refused (deps : ExecutorDeps) (st : Statement) (db : ConvDb) (op : Op) : Prop :=
  (∃ x a a' e, AttemptWrite deps st op x a a' ∧ db.attempts.lookup x = some a ∧
    checkUpdate a a' = .error e) ∨ ∃ p i, op = .commitItem p i

/-- The operations of one UPDATE. -/
lemma Op.Refused.of_update {deps : ExecutorDeps} {st : Statement} {db : ConvDb} {op : Op}
    {x : Uuid} {cond : ConvDb → AttemptRow → Prop} [∀ s a, Decidable (cond s a)]
    {set : AttemptRow → AttemptRow} {e : String} (h : updateAttempt st x cond set db = .error e)
    (hwrite : ∀ a, cond st.snapshot a → AttemptWrite deps st op x a (set a)) :
    op.Refused deps st db := by
  obtain ⟨a, hrow, hcond, hcheck⟩ := updateAttempt_eq_error h
  exact .inl ⟨x, a, set a, e, hwrite a hcond, hrow, hcheck⟩

/-- The first part of a sequence fails, or the rest does. -/
lemma except_bind_eq_error {ε α β : Type} {x : Except ε α} {f : α → Except ε β} {e : ε}
    (h : x >>= f = .error e) : x = .error e ∨ ∃ a, x = .ok a ∧ f a = .error e := by
  cases x with
  | error e' =>
    cases h
    exact .inl rfl
  | ok a => exact .inr ⟨a, rfl, h⟩

/-- A mapped computation fails when the computation does. -/
lemma except_map_eq_error {ε α β : Type} {x : Except ε α} {f : α → β} {e : ε}
    (h : x.map f = .error e) : x = .error e := by
  cases x with
  | error e' =>
    cases h
    rfl
  | ok a => cases h

/-- When a statement of a worker ends with an error. -/
theorem Op.exec_error {deps : ExecutorDeps} {st : Statement} {db : ConvDb} {op : Op} {e : String}
    (h : op.exec deps st db = .error e) : op.Refused deps st db := by
  cases op with
  | claim x t =>
    exact .of_update (except_map_eq_error h) fun a ⟨hs, ht, hstop, hhead⟩ => .claim hs ht hstop hhead
  | rotate x e t =>
    exact .of_update (except_map_eq_error h) fun a ⟨hs, ht, hd, hstop, hhead⟩ =>
      .rotate hs ht hd hstop hhead
  | reclaim x e t =>
    rcases except_bind_eq_error h with hupdate | ⟨⟨r, db₁⟩, -, h⟩
    · exact .of_update hupdate fun a ⟨hs, ht, hp, hd⟩ => .reclaim hs ht hp hd
    · split at h <;> cases h
  | ratchet x e =>
    rcases except_bind_eq_error (except_map_eq_error h) with hupdate | ⟨⟨r, db₁⟩, -, h⟩
    · exact .of_update hupdate fun a ⟨hs, ht, hp, hd⟩ => .ratchet hs ht hp hd
    · simp only at h
      split at h
      · cases h
      · split at h <;> cases h
  | lockRoot c b =>
    simp only [Op.exec] at h
    split at h <;> cases h
  | boundary b =>
    exact .of_update (except_map_eq_error h) fun a ⟨hs, ht, hl, hstop, hv, hhead⟩ =>
      .boundary hs ht hl hstop hv hhead
  | authority x t c p =>
    simp only [Op.exec] at h
    split at h
    · cases h
    · split at h <;> cases h
  | provenance x t c p =>
    exact .of_update (except_map_eq_error h) fun a ⟨hs, ht, hl, hp, _⟩ => .provenance hs ht hl hp
  | restore x t =>
    exact .of_update (except_map_eq_error h) fun a ⟨hs, ht, hl, hp⟩ => .restore hs ht hl hp
  | heartbeat x t =>
    exact .of_update (except_map_eq_error h) fun a ⟨ht, hl, hs⟩ => .heartbeat hs ht hl
  | markStreaming x t =>
    exact .of_update (except_map_eq_error h) fun a ⟨hs, ht⟩ => .markStreaming hs ht
  | itemSeq p => cases h
  | append p seq =>
    simp only [Op.exec] at h
    split at h <;> cases h
  | commitItem p i => exact .inr ⟨p, i, rfl⟩
  | finalize context x t state errorClass =>
    rcases except_bind_eq_error (except_map_eq_error h) with hupdate | ⟨⟨r, db₁⟩, -, h⟩
    · exact .of_update hupdate fun a ⟨ht, hs⟩ => .finalize hs ht
    · simp only at h
      split at h <;> cases h

end GovAI
