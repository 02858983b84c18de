import GovAI.Conversation.Writes

/-!
# How the conversation tables grow

Every commit of the system is a sequence of primitive steps (`DbStep`): other tables, a new branch, a
new fork binding, a new turn with its attempt and input items, the change of one attempt, one more
output item.  Two facts are proved once for the primitive steps and hold of every commit: the tables
only grow (`ConvDb.Grows`: rows are never deleted, the turns, items and contents are never changed, a
terminal attempt is frozen), and they keep their shape (`ConvDb.Shape`: every turn has one attempt
and every attempt one turn, the turns of a branch are numbered from 1 without gaps, a fork has its
source, the rows satisfy the CHECK matrix).
-/

namespace GovAI

/-! ## Growth of an attempt -/

/-- What no change of an attempt undoes. -/
structure AttemptRow.Grows (a a' : AttemptRow) : Prop where
  conv : a'.conv = a.conv
  branchId : a'.branchId = a.branchId
  turnId : a'.turnId = a.turnId
  attemptSeq : a'.attemptSeq = a.attemptSeq
  createdAt : a'.createdAt = a.createdAt
  terminal : a.state.nonTerminal = false → a' = a
  provenance : a.Provenance →
    a'.providerCredentialId = a.providerCredentialId ∧ a'.claimToken = a.claimToken
  claimed : a.claimToken ≠ none → a'.claimToken ≠ none

lemma AttemptRow.Grows.refl (a : AttemptRow) : a.Grows a :=
  ⟨rfl, rfl, rfl, rfl, rfl, fun _ => rfl, fun _ => ⟨rfl, rfl⟩, id⟩

lemma AttemptRow.Grows.trans {a b c : AttemptRow} (h : a.Grows b) (h' : b.Grows c) : a.Grows c where
  conv := h'.conv.trans h.conv
  branchId := h'.branchId.trans h.branchId
  turnId := h'.turnId.trans h.turnId
  attemptSeq := h'.attemptSeq.trans h.attemptSeq
  createdAt := h'.createdAt.trans h.createdAt
  terminal ha := by
    have hb := h.terminal ha
    subst hb
    exact h'.terminal ha
  provenance ha := by
    obtain ⟨hp, ht⟩ := h.provenance ha
    have hb : b.Provenance := by
      rw [AttemptRow.Provenance, hp]
      exact ha
    obtain ⟨hp', ht'⟩ := h'.provenance hb
    exact ⟨hp'.trans hp, ht'.trans ht⟩
  claimed ha := h'.claimed (h.claimed ha)

/-- The changes of the workers start from a non-terminal row. -/
lemma AttemptWrite.nonTerminal {deps : ExecutorDeps} {st : Statement} {op : Op} {x : Uuid}
    {a a' : AttemptRow} (h : AttemptWrite deps st op x a a') : a.state.nonTerminal = true := by
  cases h with
  | heartbeat hstate => exact hstate
  | finalize hstate => exact hstate
  | ratchet hstate => rcases hstate with hstate | hstate <;> rw [hstate] <;> rfl
  | claim hstate | rotate hstate | reclaim hstate | boundary hstate | provenance hstate
  | restore hstate | markStreaming hstate => rw [hstate]; rfl

/-- The changes of the workers let a row grow. -/
lemma AttemptWrite.grows {deps : ExecutorDeps} {st : Statement} {op : Op} {x : Uuid}
    {a a' : AttemptRow} (h : AttemptWrite deps st op x a a') (ha : a.Checks) : a.Grows a' := by
  have hterminal : a.state.nonTerminal = false → a' = a := fun hf => by
    rw [h.nonTerminal] at hf
    cases hf
  cases h with
  | claim hstate htoken =>
    exact ⟨rfl, rfl, rfl, rfl, rfl, hterminal,
      fun hp => absurd hp (ha.acceptedNoProvenance hstate), fun _ => nofun⟩
  | rotate hstate htoken =>
    exact ⟨rfl, rfl, rfl, rfl, rfl, hterminal,
      fun hp => absurd hp (ha.acceptedNoProvenance hstate), fun _ => nofun⟩
  | reclaim hstate htoken hprov =>
    exact ⟨rfl, rfl, rfl, rfl, rfl, hterminal, fun hp => absurd hp hprov, fun _ => nofun⟩
  | provenance hstate htoken hlease hprov =>
    exact ⟨rfl, rfl, rfl, rfl, rfl, hterminal, fun hp => absurd hp hprov, id⟩
  | _ => exact ⟨rfl, rfl, rfl, rfl, rfl, hterminal, fun _ => ⟨rfl, rfl⟩, id⟩

/-- A row that is not accepted is claimed. -/
lemma AttemptWrite.claimed {deps : ExecutorDeps} {st : Statement} {op : Op} {x : Uuid}
    {a a' : AttemptRow} (h : AttemptWrite deps st op x a a') : a'.claimToken ≠ none := by
  cases h with
  | claim | rotate | reclaim => exact nofun
  | ratchet _ htoken | boundary _ htoken | provenance _ htoken | restore _ htoken
  | heartbeat _ htoken | markStreaming _ htoken | finalize _ htoken =>
    intro hnone
    exact absurd (htoken.symm.trans hnone) nofun

/-- A row that gets its first claim is at the head of its queue. -/
lemma AttemptWrite.firstClaim {deps : ExecutorDeps} {st : Statement} {op : Op} {x : Uuid}
    {a a' : AttemptRow} (h : AttemptWrite deps st op x a a') :
    a.claimToken ≠ none ∨ BranchHead st.snapshot a := by
  cases h with
  | claim _ _ _ hhead => exact .inr hhead
  | rotate _ htoken | reclaim _ htoken | ratchet _ htoken | boundary _ htoken
  | provenance _ htoken | restore _ htoken | heartbeat _ htoken | markStreaming _ htoken
  | finalize _ htoken =>
    rw [htoken]
    exact .inl nofun

/-! ## Growth of the tables -/

/-- The tables only grow. -/
structure ConvDb.Grows (db db' : ConvDb) : Prop where
  branches : ∀ y b, db.branches.lookup y = some b →
    ∃ v, b.causalVersion ≤ v ∧ db'.branches.lookup y = some { b with causalVersion := v }
  contents : ∀ y c, db.contents.lookup y = some c → db'.contents.lookup y = some c
  turns : ∃ new, db'.turns.entries = new ++ db.turns.entries
  attempts : ∀ x a, db.attempts.lookup x = some a →
    ∃ a', db'.attempts.lookup x = some a' ∧ a.Grows a'
  items : ∃ new, db'.items = db.items ++ new
  forkBindings : ∃ new, db'.forkBindings = db.forkBindings ++ new

lemma ConvDb.Grows.refl (db : ConvDb) : db.Grows db where
  branches _ b h := ⟨b.causalVersion, le_rfl, h⟩
  contents _ _ h := h
  turns := ⟨[], rfl⟩
  attempts _ a h := ⟨a, h, .refl a⟩
  items := ⟨[], (List.append_nil _).symm⟩
  forkBindings := ⟨[], (List.append_nil _).symm⟩

lemma ConvDb.Grows.trans {db₁ db₂ db₃ : ConvDb} (h : db₁.Grows db₂) (h' : db₂.Grows db₃) :
    db₁.Grows db₃ where
  branches y b hb := by
    obtain ⟨v, hv, hb₂⟩ := h.branches y b hb
    obtain ⟨v', hv', hb₃⟩ := h'.branches y _ hb₂
    exact ⟨v', hv.trans hv', hb₃⟩
  contents y c hc := h'.contents y c (h.contents y c hc)
  turns := by
    obtain ⟨new, hnew⟩ := h.turns
    obtain ⟨new', hnew'⟩ := h'.turns
    exact ⟨new' ++ new, by rw [hnew', hnew, List.append_assoc]⟩
  attempts x a ha := by
    obtain ⟨a₂, ha₂, hg⟩ := h.attempts x a ha
    obtain ⟨a₃, ha₃, hg'⟩ := h'.attempts x a₂ ha₂
    exact ⟨a₃, ha₃, hg.trans hg'⟩
  items := by
    obtain ⟨new, hnew⟩ := h.items
    obtain ⟨new', hnew'⟩ := h'.items
    exact ⟨new ++ new', by rw [hnew', hnew, List.append_assoc]⟩
  forkBindings := by
    obtain ⟨new, hnew⟩ := h.forkBindings
    obtain ⟨new', hnew'⟩ := h'.forkBindings
    exact ⟨new ++ new', by rw [hnew', hnew, List.append_assoc]⟩

/-- A turn is never changed. -/
lemma ConvDb.Grows.turn {db db' : ConvDb} (h : db.Grows db') {y : Uuid} {t : TurnRow}
    (ht : db.turns.lookup y = some t) : db'.turns.lookup y = some t := by
  obtain ⟨new, hnew⟩ := h.turns
  have hmem := AList.mem_lookup_iff.mp (Option.mem_def.mpr ht)
  exact AList.mem_lookup_iff.mpr (hnew ▸ List.mem_append_right _ hmem)

/-- An attempt that is terminal is never changed. -/
lemma ConvDb.Grows.terminal {db db' : ConvDb} (h : db.Grows db') {x : Uuid} {a : AttemptRow}
    (ha : db.attempts.lookup x = some a) (hterminal : a.state.nonTerminal = false) :
    db'.attempts.lookup x = some a := by
  obtain ⟨a', ha', hg⟩ := h.attempts x a ha
  rw [ha', hg.terminal hterminal]

/-! ## The shape of the tables -/

/-- Every turn of the branch below `seq` has a terminal attempt. -/
def ConvDb.Settled (db : ConvDb) (conv : Lineage) (branchId : Uuid) (seq : ℕ) : Prop :=
  ∀ y t, db.turns.lookup y = some t → t.conv = conv → t.branchId = branchId → t.turnSeq < seq →
    ∀ x ∈ t.currentAttemptId, ∀ a, db.attempts.lookup x = some a → a.state.nonTerminal = false

/-- The source that the fork columns of a branch name. -/
def ConvDb.ForkSource (db : ConvDb) (b : BranchRow) : Prop :=
  b.fork = ⟨none, none, none, none⟩ ∨ ∃ parentId turnId attemptId mode source,
    b.fork = ⟨some parentId, some turnId, some attemptId, some mode⟩ ∧
    db.attempts.lookup attemptId = some source ∧ source.conv = b.conv ∧
    source.branchId = parentId ∧ source.turnId = turnId ∧ forkPinValid mode source.state

/-- What the constraints and the code keep of the tables. -/
structure ConvDb.Shape (db : ConvDb) : Prop where
  checks : ∀ x a, db.attempts.lookup x = some a → a.Checks
  attemptTurn : ∀ x a, db.attempts.lookup x = some a →
    ∃ t, db.turns.lookup a.turnId = some t ∧ t.conv = a.conv ∧ t.branchId = a.branchId ∧
      t.currentAttemptId = some x
  attemptSeq : ∀ x a, db.attempts.lookup x = some a → a.attemptSeq = 1
  claimed : ∀ x a, db.attempts.lookup x = some a → a.state ≠ .accepted ∨ a.Crossed →
    a.claimToken ≠ none
  timed : ∀ x a, db.attempts.lookup x = some a → a.state.nonTerminal = true → a.terminalAt = none
  turnAttempt : ∀ y t, db.turns.lookup y = some t → ∃ x a, t.currentAttemptId = some x ∧
    db.attempts.lookup x = some a ∧ a.turnId = y ∧ a.conv = t.conv ∧ a.branchId = t.branchId
  turnBranch : ∀ y t, db.turns.lookup y = some t →
    ∃ b, db.branches.lookup t.branchId = some b ∧ b.conv = t.conv
  turnSeqPos : ∀ y t, db.turns.lookup y = some t → 1 ≤ t.turnSeq
  turnSeqUnique : ∀ y y' t t', db.turns.lookup y = some t → db.turns.lookup y' = some t' →
    t.conv = t'.conv → t.branchId = t'.branchId → t.turnSeq = t'.turnSeq → y = y'
  turnSeqDense : ∀ y t k, db.turns.lookup y = some t → 1 ≤ k → k ≤ t.turnSeq →
    ∃ y' t', db.turns.lookup y' = some t' ∧ t'.conv = t.conv ∧ t'.branchId = t.branchId ∧
      t'.turnSeq = k
  clientTurnUnique : ∀ y y' t t', db.turns.lookup y = some t → db.turns.lookup y' = some t' →
    t.conv.orgId = t'.conv.orgId → t.conv.conversationId = t'.conv.conversationId →
    t.clientTurnId = t'.clientTurnId → y = y'
  forkSource : ∀ y b, db.branches.lookup y = some b → db.ForkSource b
  forkKeyUnique : db.forkBindings.Pairwise fun b b' => ¬(b.conv.orgId = b'.conv.orgId ∧
    b.conv.conversationId = b'.conv.conversationId ∧ b.clientForkId = b'.clientForkId)
  items : ∀ i ∈ db.items, ∃ t, db.turns.lookup i.turnId = some t ∧ t.conv = i.conv ∧
    t.branchId = i.branchId ∧ ∀ x ∈ i.attemptId, t.currentAttemptId = some x

/-! ## Primitive steps -/

/-- A new turn with its attempt and its input items. -/
structure Minted (db db' : ConvDb) (turnId attemptId : Uuid) (t : TurnRow) (now : ℤ) : Prop where
  turnNew : turnId ∉ db.turns
  attemptNew : attemptId ∉ db.attempts
  current : t.currentAttemptId = some attemptId
  clientNew : ∀ y u, db.turns.lookup y = some u → ¬(u.conv.orgId = t.conv.orgId ∧
    u.conv.conversationId = t.conv.conversationId ∧ u.clientTurnId = t.clientTurnId)
  seqPos : 1 ≤ t.turnSeq
  seqNew : ∀ y u, db.turns.lookup y = some u → ¬(u.conv = t.conv ∧ u.branchId = t.branchId ∧
    u.turnSeq = t.turnSeq)
  seqDense : ∀ k, 1 ≤ k → k < t.turnSeq → ∃ y u, db.turns.lookup y = some u ∧ u.conv = t.conv ∧
    u.branchId = t.branchId ∧ u.turnSeq = k
  branch : ∃ b, db.branches.lookup t.branchId = some b ∧ b.conv = t.conv
  turns : db'.turns = db.turns.insert turnId t
  attempts : db'.attempts = db.attempts.insert attemptId (.born t.conv t.branchId turnId 1 now)
  contents : ∀ y c, db.contents.lookup y = some c → db'.contents.lookup y = some c
  items : ∃ new, db'.items = db.items ++ new ∧ ∀ i ∈ new, i.conv = t.conv ∧
    i.branchId = t.branchId ∧ i.turnId = turnId ∧ i.attemptId = none
  branches : db'.branches = db.branches
  forkBindings : db'.forkBindings = db.forkBindings

/-- A primitive step; `H` are the states that an UPDATE may have read its predicates from. -/
inductive DbStep (H : ConvDb → Prop) (db : ConvDb) : ConvDb → Prop
  /-- Tables without rows of a turn. -/
  | tables (orgs : Table TenantFacts) (credentials : Table CredentialRow)
      (conversations : Table ConversationRow) : DbStep H db { db with
        orgs := orgs, credentials := credentials, conversations := conversations }
  | branch {y : Uuid} {b : BranchRow} (hnew : y ∉ db.branches) (hsource : db.ForkSource b) :
      DbStep H db { db with branches := db.branches.insert y b }
  | binding {b : ForkBinding} (hnew : ¬ClientForkTaken b.conv b.clientForkId db) :
      DbStep H db { db with forkBindings := db.forkBindings ++ [b] }
  | mint {turnId attemptId : Uuid} {t : TurnRow} {now : ℤ} {db' : ConvDb}
      (h : Minted db db' turnId attemptId t now) : DbStep H db db'
  /-- The change of one attempt; a first claim has found the attempt at the head of its queue. -/
  | attempt {x : Uuid} {a a' : AttemptRow} {db' : ConvDb} (hrow : db.attempts.lookup x = some a)
      (hgrows : a.Grows a') (hcheck : checkUpdate a a' = .ok ())
      (hstate : a'.state ≠ .accepted ∨ a'.Crossed → a'.claimToken ≠ none)
      (hclaim : a'.claimToken ≠ none → a.claimToken ≠ none ∨ ∃ db₀, H db₀ ∧
        (∃ seen, db₀.attempts.lookup x = some seen) ∧ BranchHead db₀ a)
      (hdb : db' = db.setAttempt x a' ∨ ∃ st conv branchId,
        db' = bumpBranchCausalVersion st conv branchId (db.setAttempt x a')) : DbStep H db db'
  /-- One more output item of an attempt. -/
  | item {y : Uuid} {c : ContentRow} {i : ItemRow} (hnew : y ∉ db.contents)
      (hslot : ¬∃ j ∈ db.items, j.SameSlot i) (howned : ∃ x a, i.attemptId = some x ∧
        db.attempts.lookup x = some a ∧ a.conv = i.conv ∧ a.branchId = i.branchId ∧
        a.turnId = i.turnId) :
      DbStep H db { db with contents := db.contents.insert y c, items := db.items ++ [i] }

/-- A row under a new key leaves the other rows. -/
lemma lookup_insert_of_new {ρ : Type} {t : Table ρ} {x y : Uuid} {r r' : ρ} (hnew : x ∉ t)
    (h : t.lookup y = some r) : (t.insert x r').lookup y = some r := by
  rw [lookup_insert_eq, if_neg]
  · exact h
  · rintro rfl
    exact hnew (AList.lookup_isSome.mp (h ▸ rfl))

/-- A lookup after an insertion: the new row, or an old one. -/
lemma lookup_insert_cases {ρ : Type} {t : Table ρ} {x y : Uuid} {r r' : ρ}
    (h : (t.insert x r').lookup y = some r) : y = x ∧ r = r' ∨ y ≠ x ∧ t.lookup y = some r := by
  rw [lookup_insert_eq] at h
  split at h
  · next hy => exact .inl ⟨hy, (Option.some.inj h).symm⟩
  · next hy => exact .inr ⟨hy, h⟩

/-- A changed attempt in a table of attempts. -/
lemma ConvDb.Grows.setAttempt {db : ConvDb} {x : Uuid} {a a' : AttemptRow}
    (hrow : db.attempts.lookup x = some a) (hgrows : a.Grows a') : db.Grows (db.setAttempt x a') where
  branches _ b h := ⟨b.causalVersion, le_rfl, h⟩
  contents _ _ h := h
  turns := ⟨[], rfl⟩
  attempts y b hb := by
    rw [ConvDb.setAttempt_attempts]
    split
    · next hy =>
      subst hy
      obtain rfl : a = b := Option.some.inj (hrow.symm.trans hb)
      exact ⟨a', rfl, hgrows⟩
    · exact ⟨b, hb, .refl b⟩
  items := ⟨[], (List.append_nil _).symm⟩
  forkBindings := ⟨[], (List.append_nil _).symm⟩

/-- A bump lets the tables grow. -/
lemma ConvDb.Grows.bump (st : Statement) (conv : Lineage) (branchId : Uuid) (db : ConvDb) :
    db.Grows (bumpBranchCausalVersion st conv branchId db) where
  branches y b hb := by
    rcases @bumpBranchCausalVersion_branches st conv branchId _ y with
      h | ⟨b', hb', h⟩
    · exact ⟨b.causalVersion, le_rfl, h.trans hb⟩
    · obtain rfl : b' = b := Option.some.inj (hb'.symm.trans hb)
      exact ⟨b'.causalVersion + 1, Nat.le_succ _, h⟩
  contents y c h := by rwa [bumpBranchCausalVersion_contents]
  turns := ⟨[], by rw [bumpBranchCausalVersion_turns]; rfl⟩
  attempts x a ha := ⟨a, by rwa [bumpBranchCausalVersion_attempts], .refl a⟩
  items := ⟨[], by rw [bumpBranchCausalVersion_items, List.append_nil]⟩
  forkBindings := ⟨[], by rw [bumpBranchCausalVersion_forkBindings, List.append_nil]⟩

/-- A primitive step lets the tables grow. -/
theorem DbStep.grows {H : ConvDb → Prop} {db db' : ConvDb} (h : DbStep H db db') : db.Grows db' := by
  cases h with
  | tables =>
    exact ⟨fun _ b h => ⟨b.causalVersion, le_rfl, h⟩, fun _ _ h => h, ⟨[], rfl⟩,
      fun _ a h => ⟨a, h, .refl a⟩, ⟨[], (List.append_nil _).symm⟩, ⟨[], (List.append_nil _).symm⟩⟩
  | branch hnew =>
    exact ⟨fun _ b h => ⟨b.causalVersion, le_rfl, lookup_insert_of_new hnew h⟩, fun _ _ h => h,
      ⟨[], rfl⟩, fun _ a h => ⟨a, h, .refl a⟩, ⟨[], (List.append_nil _).symm⟩,
      ⟨[], (List.append_nil _).symm⟩⟩
  | binding =>
    exact ⟨fun _ b h => ⟨b.causalVersion, le_rfl, h⟩, fun _ _ h => h, ⟨[], rfl⟩,
      fun _ a h => ⟨a, h, .refl a⟩, ⟨[], (List.append_nil _).symm⟩, ⟨_, rfl⟩⟩
  | @mint turnId _ t _ _ h =>
    obtain ⟨new, hnew, -⟩ := h.items
    refine ⟨fun _ b hb => ⟨b.causalVersion, le_rfl, ?_⟩, h.contents, ⟨[⟨turnId, t⟩], ?_⟩,
      fun _ a ha => ⟨a, ?_, .refl a⟩, ⟨new, hnew⟩, ⟨[], ?_⟩⟩
    · rw [h.branches]
      exact hb
    · rw [h.turns, AList.entries_insert_of_notMem h.turnNew]
      rfl
    · rw [h.attempts]
      exact lookup_insert_of_new h.attemptNew ha
    · rw [h.forkBindings, List.append_nil]
  | attempt hrow hgrows _ _ _ hdb =>
    rcases hdb with rfl | ⟨st, conv, branchId, rfl⟩
    · exact .setAttempt hrow hgrows
    · exact (ConvDb.Grows.setAttempt hrow hgrows).trans (.bump ..)
  | item hnew =>
    exact ⟨fun _ b h => ⟨b.causalVersion, le_rfl, h⟩, fun _ _ h => lookup_insert_of_new hnew h,
      ⟨[], rfl⟩, fun _ a h => ⟨a, h, .refl a⟩, ⟨_, rfl⟩, ⟨[], (List.append_nil _).symm⟩⟩

/-! ## Every step keeps the shape -/

/-- The state of a pinned source is terminal. -/
lemma forkPinValid_terminal {mode : ForkBoundaryMode} {state : AttemptState}
    (h : forkPinValid mode state) : state.nonTerminal = false := by
  cases mode <;> cases state <;> first | rfl | cases h

/-- The source of a fork stays what it is. -/
lemma ConvDb.ForkSource.mono {db db' : ConvDb} (hg : db.Grows db') {b b' : BranchRow}
    (h : db.ForkSource b) (hconv : b'.conv = b.conv) (hfork : b'.fork = b.fork) :
    db'.ForkSource b' := by
  rcases h with h | ⟨parentId, turnId, attemptId, mode, source, hb, hrow, hc, hbranch, hturn, hpin⟩
  · exact .inl (hfork.trans h)
  · exact .inr ⟨parentId, turnId, attemptId, mode, source, hfork.trans hb,
      hg.terminal hrow (forkPinValid_terminal hpin), hc.trans hconv.symm, hbranch, hturn, hpin⟩

/-- A step that leaves the turns, attempts, items and bindings keeps the shape. -/
lemma ConvDb.Shape.of_branches {db db' : ConvDb} (h : db.Shape) (hg : db.Grows db')
    (hturns : db'.turns = db.turns) (hattempts : db'.attempts = db.attempts)
    (hitems : db'.items = db.items) (hbindings : db'.forkBindings = db.forkBindings)
    (hsource : ∀ y b, db'.branches.lookup y = some b → db'.ForkSource b) : db'.Shape where
  checks := hattempts ▸ h.checks
  attemptTurn := by rw [hattempts, hturns]; exact h.attemptTurn
  attemptSeq := hattempts ▸ h.attemptSeq
  claimed := hattempts ▸ h.claimed
  timed := hattempts ▸ h.timed
  turnAttempt := by rw [hattempts, hturns]; exact h.turnAttempt
  turnBranch y t ht := by
    obtain ⟨b, hb, hconv⟩ := h.turnBranch y t (hturns ▸ ht)
    obtain ⟨v, -, hb'⟩ := hg.branches _ b hb
    exact ⟨_, hb', hconv⟩
  turnSeqPos := hturns ▸ h.turnSeqPos
  turnSeqUnique := hturns ▸ h.turnSeqUnique
  turnSeqDense := hturns ▸ h.turnSeqDense
  clientTurnUnique := hturns ▸ h.clientTurnUnique
  forkSource := hsource
  forkKeyUnique := hbindings ▸ h.forkKeyUnique
  items := by rw [hitems, hturns]; exact h.items

/-- The bump of a causal version keeps the shape. -/
lemma ConvDb.Shape.bump {db : ConvDb} (h : db.Shape) (st : Statement) (conv : Lineage)
    (branchId : Uuid) : (bumpBranchCausalVersion st conv branchId db).Shape := by
  have hg := ConvDb.Grows.bump st conv branchId db
  refine h.of_branches hg (by simp) (by simp) (by simp) (by simp) fun y b hb => ?_
  rcases @bumpBranchCausalVersion_branches st conv branchId _ y with
    h' | ⟨b', hb', h'⟩
  · exact (h.forkSource y b (h'.symm.trans hb)).mono hg rfl rfl
  · rw [h', Option.some.injEq] at hb
    subst hb
    exact (h.forkSource y b' hb').mono hg rfl rfl

/-- The change of an attempt keeps the shape. -/
lemma ConvDb.Shape.setAttempt {db : ConvDb} (h : db.Shape) {x : Uuid} {a a' : AttemptRow}
    (hrow : db.attempts.lookup x = some a) (hgrows : a.Grows a') (hcheck : checkUpdate a a' = .ok ())
    (hstate : a'.state ≠ .accepted ∨ a'.Crossed → a'.claimToken ≠ none) :
    (db.setAttempt x a').Shape where
  checks y b hb := by
    rcases lookup_insert_cases hb with ⟨-, rfl⟩ | ⟨-, hb⟩
    · exact checks_of_checkUpdate hcheck
    · exact h.checks y b hb
  attemptTurn y b hb := by
    rcases lookup_insert_cases hb with ⟨rfl, rfl⟩ | ⟨-, hb⟩
    · rw [hgrows.turnId, hgrows.conv, hgrows.branchId]
      exact h.attemptTurn y a hrow
    · exact h.attemptTurn y b hb
  attemptSeq y b hb := by
    rcases lookup_insert_cases hb with ⟨rfl, rfl⟩ | ⟨-, hb⟩
    · exact hgrows.attemptSeq.trans (h.attemptSeq y a hrow)
    · exact h.attemptSeq y b hb
  claimed y b hb := by
    rcases lookup_insert_cases hb with ⟨-, rfl⟩ | ⟨-, hb⟩
    · exact hstate
    · exact h.claimed y b hb
  timed y b hb hnon := by
    rcases lookup_insert_cases hb with ⟨rfl, rfl⟩ | ⟨-, hb⟩
    · by_cases hold : a.state.nonTerminal = true
      · exact (terminalAt_of_checkUpdate hcheck hold hnon).trans (h.timed y a hrow hold)
      · rw [hgrows.terminal (by simpa using hold)] at hnon
        exact absurd hnon hold
    · exact h.timed y b hb hnon
  turnAttempt y t ht := by
    obtain ⟨x', b, hcurrent, hb, hturn, hconv, hbranch⟩ := h.turnAttempt y t ht
    obtain ⟨b', hb', hg⟩ := (ConvDb.Grows.setAttempt hrow hgrows).attempts x' b hb
    exact ⟨x', b', hcurrent, hb', hg.turnId.trans hturn, hg.conv.trans hconv,
      hg.branchId.trans hbranch⟩
  turnBranch := h.turnBranch
  turnSeqPos := h.turnSeqPos
  turnSeqUnique := h.turnSeqUnique
  turnSeqDense := h.turnSeqDense
  clientTurnUnique := h.clientTurnUnique
  forkSource y b hb := (h.forkSource y b hb).mono (.setAttempt hrow hgrows) rfl rfl
  forkKeyUnique := h.forkKeyUnique
  items := h.items

/-- A new turn keeps the shape. -/
lemma Minted.shape {db db' : ConvDb} {turnId attemptId : Uuid} {t : TurnRow} {now : ℤ}
    (m : Minted db db' turnId attemptId t now) (hg : db.Grows db') (h : db.Shape) : db'.Shape := by
  have hself : db'.turns.lookup turnId = some t := by
    rw [m.turns]
    exact AList.lookup_insert _
  have hborn : db'.attempts.lookup attemptId = some (.born t.conv t.branchId turnId 1 now) := by
    rw [m.attempts]
    exact AList.lookup_insert _
  have hturn : ∀ {y u}, db'.turns.lookup y = some u → y = turnId ∧ u = t ∨
      db.turns.lookup y = some u := fun {y u} hu => by
    rw [m.turns] at hu
    exact (lookup_insert_cases hu).imp_right And.right
  have hattempt : ∀ {x a}, db'.attempts.lookup x = some a → x = attemptId ∧
      a = .born t.conv t.branchId turnId 1 now ∨ db.attempts.lookup x = some a := fun {x a} ha => by
    rw [m.attempts] at ha
    exact (lookup_insert_cases ha).imp_right And.right
  constructor
  case checks =>
    intro x a ha
    rcases hattempt ha with ⟨-, rfl⟩ | ha
    · exact AttemptRow.born_checks _ _ _ le_rfl _
    · exact h.checks x a ha
  case attemptTurn =>
    intro x a ha
    rcases hattempt ha with ⟨rfl, rfl⟩ | ha
    · exact ⟨t, hself, rfl, rfl, m.current⟩
    · obtain ⟨u, hu, hrest⟩ := h.attemptTurn x a ha
      exact ⟨u, hg.turn hu, hrest⟩
  case attemptSeq =>
    intro x a ha
    rcases hattempt ha with ⟨-, rfl⟩ | ha
    · rfl
    · exact h.attemptSeq x a ha
  case claimed =>
    intro x a ha hstate
    rcases hattempt ha with ⟨-, rfl⟩ | ha
    · exact hstate.elim (absurd rfl) (absurd rfl)
    · exact h.claimed x a ha hstate
  case timed =>
    intro x a ha hnon
    rcases hattempt ha with ⟨-, rfl⟩ | ha
    · rfl
    · exact h.timed x a ha hnon
  case turnAttempt =>
    intro y u hu
    rcases hturn hu with ⟨rfl, rfl⟩ | hu
    · exact ⟨attemptId, _, m.current, hborn, rfl, rfl, rfl⟩
    · obtain ⟨x, a, hcurrent, ha, hturnId, hconv, hbranch⟩ := h.turnAttempt y u hu
      obtain ⟨a', ha', hag⟩ := hg.attempts x a ha
      exact ⟨x, a', hcurrent, ha', hag.turnId.trans hturnId, hag.conv.trans hconv,
        hag.branchId.trans hbranch⟩
  case turnBranch =>
    intro y u hu
    rw [m.branches]
    rcases hturn hu with ⟨-, rfl⟩ | hu
    · exact m.branch
    · exact h.turnBranch y u hu
  case turnSeqPos =>
    intro y u hu
    rcases hturn hu with ⟨-, rfl⟩ | hu
    · exact m.seqPos
    · exact h.turnSeqPos y u hu
  case turnSeqUnique =>
    intro y y' u u' hu hu' hconv hbranch hseq
    rcases hturn hu with ⟨rfl, rfl⟩ | hu <;> rcases hturn hu' with ⟨rfl, rfl⟩ | hu'
    · rfl
    · exact absurd ⟨hconv.symm, hbranch.symm, hseq.symm⟩ (m.seqNew y' u' hu')
    · exact absurd ⟨hconv, hbranch, hseq⟩ (m.seqNew y u hu)
    · exact h.turnSeqUnique y y' u u' hu hu' hconv hbranch hseq
  case turnSeqDense =>
    intro y u k hu hk hku
    rcases hturn hu with ⟨rfl, rfl⟩ | hu
    · rcases Nat.lt_or_ge k u.turnSeq with hlt | hge
      · obtain ⟨y', u', hu', hrest⟩ := m.seqDense k hk hlt
        exact ⟨y', u', hg.turn hu', hrest⟩
      · exact ⟨y, u, hself, rfl, rfl, le_antisymm hge hku⟩
    · obtain ⟨y', u', hu', hrest⟩ := h.turnSeqDense y u k hu hk hku
      exact ⟨y', u', hg.turn hu', hrest⟩
  case clientTurnUnique =>
    intro y y' u u' hu hu' horg hconv hclient
    rcases hturn hu with ⟨rfl, rfl⟩ | hu <;> rcases hturn hu' with ⟨rfl, rfl⟩ | hu'
    · rfl
    · exact absurd ⟨horg.symm, hconv.symm, hclient.symm⟩ (m.clientNew y' u' hu')
    · exact absurd ⟨horg, hconv, hclient⟩ (m.clientNew y u hu)
    · exact h.clientTurnUnique y y' u u' hu hu' horg hconv hclient
  case forkSource =>
    intro y b hb
    rw [m.branches] at hb
    exact (h.forkSource y b hb).mono hg rfl rfl
  case forkKeyUnique => exact m.forkBindings ▸ h.forkKeyUnique
  case items =>
    obtain ⟨new, hitems, hnew⟩ := m.items
    intro i hi
    rw [hitems, List.mem_append] at hi
    rcases hi with hi | hi
    · obtain ⟨u, hu, hrest⟩ := h.items i hi
      exact ⟨u, hg.turn hu, hrest⟩
    · obtain ⟨hconv, hbranch, hturnId, hattemptId⟩ := hnew i hi
      refine ⟨t, hturnId ▸ hself, hconv.symm, hbranch.symm, fun x hx => ?_⟩
      rw [hattemptId] at hx
      cases hx

/-- **Shape.** A primitive step keeps the shape of the tables. -/
theorem DbStep.shape {H : ConvDb → Prop} {db db' : ConvDb} (step : DbStep H db db') (h : db.Shape) :
    db'.Shape := by
  have hg := step.grows
  cases step with
  | tables =>
    exact h.of_branches hg rfl rfl rfl rfl fun y b hb => (h.forkSource y b hb).mono hg rfl rfl
  | branch hnew hsource =>
    refine h.of_branches hg rfl rfl rfl rfl fun y b hb => ?_
    rcases lookup_insert_cases hb with ⟨-, rfl⟩ | ⟨-, hb⟩
    · exact hsource.mono hg rfl rfl
    · exact (h.forkSource y b hb).mono hg rfl rfl
  | binding hnew =>
    refine { h with forkSource := fun y b hb => (h.forkSource y b hb).mono hg rfl rfl,
                    forkKeyUnique := ?_ }
    refine List.pairwise_append.mpr ⟨h.forkKeyUnique, List.pairwise_singleton _ _, ?_⟩
    intro b' hb' b'' hb'' hsame
    obtain rfl := List.mem_singleton.mp hb''
    exact hnew ⟨b', hb', hsame⟩
  | mint m => exact m.shape hg h
  | attempt hrow hgrows hcheck hstate _ hdb =>
    have hset := h.setAttempt hrow hgrows hcheck hstate
    rcases hdb with rfl | ⟨st, conv, branchId, rfl⟩
    · exact hset
    · exact hset.bump st conv branchId
  | item hnew hslot howned =>
    refine { h with forkSource := fun y b hb => (h.forkSource y b hb).mono hg rfl rfl, items := ?_ }
    intro j hj
    rcases List.mem_append.mp hj with hj | hj
    · exact h.items j hj
    · obtain rfl := List.mem_singleton.mp hj
      obtain ⟨x, a, hx, ha, hconv, hbranch, hturn⟩ := howned
      obtain ⟨t, ht, htconv, htbranch, hcurrent⟩ := h.attemptTurn x a ha
      refine ⟨t, hturn ▸ ht, htconv.trans hconv, htbranch.trans hbranch, fun x' hx' => ?_⟩
      obtain rfl : x = x' := Option.some.inj (hx.symm.trans hx')
      exact hcurrent

/-! ## The turns below a claimed attempt -/

/-- At an attempt of the tables, the predicate of the queries says that the turns below are
settled. -/
lemma branchHead_iff_settled {db : ConvDb} (h : db.Shape) {a : AttemptRow} {t : TurnRow}
    (ht : db.turns.lookup a.turnId = some t) (hconv : t.conv = a.conv)
    (hbranch : t.branchId = a.branchId) :
    BranchHead db a ↔ db.Settled a.conv a.branchId t.turnSeq := by
  have hseq : db.turnSeqOf a = some t.turnSeq := by
    simp [ConvDb.turnSeqOf, ht, hconv, hbranch, Option.filter]
  have hlower : ∀ n, (∃ seq ∈ db.turnSeqOf a, n < seq) ↔ n < t.turnSeq := by
    intro n
    rw [hseq]
    simp
  constructor
  · intro hhead y u hu huconv hubranch hlt x hx b hb
    have hnot := hhead ⟨y, u⟩ (AList.mem_lookup_iff.mp hu) huconv hubranch ((hlower _).mpr hlt)
    obtain ⟨x', b', hx', hb', hbturn, hbconv, hbbranch⟩ := h.turnAttempt y u hu
    obtain rfl : x' = x := Option.some.inj (hx'.symm.trans hx)
    obtain rfl : b' = b := Option.some.inj (hb'.symm.trans hb)
    by_contra hblocking
    exact hnot (.inr ⟨x', hx', b', hb', hbconv, hbbranch, hbturn, by simpa using hblocking⟩)
  · intro hsettled e he heconv hebranch hlt hblocking
    have hu : db.turns.lookup e.1 = some e.2 := AList.mem_lookup_iff.mpr he
    rcases hblocking with hnone | ⟨x, hx, b, hb, -, -, -, hnon⟩
    · obtain ⟨x', -, hx', -⟩ := h.turnAttempt e.1 e.2 hu
      rw [hnone] at hx'
      cases hx'
    · have := hsettled e.1 e.2 hu heconv hebranch ((hlower _).mp hlt) x hx b hb
      rw [hnon] at this
      cases this

/-- What is settled below an existing turn stays settled. -/
lemma ConvDb.Settled.mono {db db' : ConvDb} (hg : db.Grows db') (h : db.Shape) (h' : db'.Shape)
    {y : Uuid} {t : TurnRow} (ht : db.turns.lookup y = some t)
    (hs : db.Settled t.conv t.branchId t.turnSeq) : db'.Settled t.conv t.branchId t.turnSeq := by
  intro z u hu hconv hbranch hlt x hx a ha
  obtain ⟨z', u', hu', hconv', hbranch', hseq'⟩ :=
    h.turnSeqDense y t u.turnSeq ht (h'.turnSeqPos z u hu) hlt.le
  obtain rfl : z = z' := h'.turnSeqUnique z z' u u' hu (hg.turn hu') (hconv.trans hconv'.symm)
    (hbranch.trans hbranch'.symm) hseq'.symm
  obtain rfl : u = u' := Option.some.inj (hu.symm.trans (hg.turn hu'))
  obtain ⟨x', a₀, hx', ha₀, -⟩ := h.turnAttempt z u hu'
  obtain rfl : x' = x := Option.some.inj (hx'.symm.trans hx)
  have hterminal := hs z u hu' hconv' hbranch' hlt x' hx a₀ ha₀
  obtain rfl : a = a₀ := Option.some.inj (ha.symm.trans (hg.terminal ha₀ hterminal))
  exact hterminal

/-- Below every claimed attempt the turns are settled. -/
def ConvDb.ClaimsSettled (db : ConvDb) : Prop :=
  ∀ x a t, db.attempts.lookup x = some a → a.claimToken ≠ none →
    db.turns.lookup a.turnId = some t → db.Settled t.conv t.branchId t.turnSeq

/-- **Order of claims.** A primitive step keeps the turns below every claimed attempt settled, if
the states that UPDATEs read have grown into the current one. -/
theorem DbStep.claimsSettled {H : ConvDb → Prop} {db db' : ConvDb} (step : DbStep H db db')
    (hH : ∀ db₀, H db₀ → db₀.Shape ∧ db₀.Grows db) (h : db.Shape) (hs : db.ClaimsSettled) :
    db'.ClaimsSettled := by
  have hg := step.grows
  have h' := step.shape h
  intro x a' t ha' hclaimed ht
  -- A claim of the row before the step suffices.
  have hold : ∀ a, db.attempts.lookup x = some a → a.claimToken ≠ none → a'.turnId = a.turnId →
      db'.Settled t.conv t.branchId t.turnSeq := by
    intro a ha hclaim hturn
    obtain ⟨u, hu, -⟩ := h.attemptTurn x a ha
    obtain rfl : t = u := Option.some.inj (ht.symm.trans (hturn ▸ hg.turn hu))
    exact (hs x a t ha hclaim hu).mono hg h h' hu
  cases step with
  | mint m =>
    rw [m.attempts] at ha'
    rcases lookup_insert_cases ha' with ⟨-, rfl⟩ | ⟨-, ha⟩
    · exact absurd rfl hclaimed
    · exact hold a' ha hclaimed rfl
  | @attempt x₀ a a₀ _ hrow hgrows _ _ hclaim hdb =>
    have ha'' : (db.setAttempt x₀ a₀).attempts.lookup x = some a' := by
      rcases hdb with rfl | ⟨st, conv, branchId, rfl⟩
      · exact ha'
      · rwa [bumpBranchCausalVersion_attempts] at ha'
    rcases lookup_insert_cases ha'' with ⟨rfl, rfl⟩ | ⟨-, ha⟩
    · rcases hclaim hclaimed with hclaim | ⟨db₀, hdb₀, ⟨seen, hseen⟩, hhead⟩
      · exact hold a hrow hclaim hgrows.turnId
      · obtain ⟨h₀, hg₀⟩ := hH db₀ hdb₀
        obtain ⟨u, hu, huconv, hubranch, -⟩ := h₀.attemptTurn x seen hseen
        obtain ⟨a₁, ha₁, hag⟩ := hg₀.attempts x seen hseen
        obtain rfl : a₁ = a := Option.some.inj (ha₁.symm.trans hrow)
        have hturn : a'.turnId = seen.turnId := hgrows.turnId.trans hag.turnId
        have hu' : db'.turns.lookup a'.turnId = some u := hturn ▸ hg.turn (hg₀.turn hu)
        obtain rfl : t = u := Option.some.inj (ht.symm.trans hu')
        have hua : db₀.turns.lookup a₁.turnId = some t := hag.turnId ▸ hu
        have hsettled := (branchHead_iff_settled h₀ hua (huconv.trans hag.conv.symm)
          (hubranch.trans hag.branchId.symm)).mp hhead
        rw [hag.conv, hag.branchId, ← huconv, ← hubranch] at hsettled
        exact hsettled.mono (hg₀.trans hg) h₀ h' hu
    · exact hold a' ha hclaimed rfl
  | tables | branch | binding | item => exact hold a' ha' hclaimed rfl

end GovAI
