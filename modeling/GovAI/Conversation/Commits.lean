import GovAI.Conversation.Growth

/-!
# What the commits of sends and forks write

The transactions of `sendTurn`, `createFork` and `createConversation` as sequences of primitive
steps: a send mints a turn; a fork adds a branch and a binding and, when it regenerates, mints the
first turn of the new branch.
-/

namespace GovAI

/-! ## Inserts -/

/-- A turn that could be inserted. -/
structure TurnInserted (turnId : Uuid) (t : TurnRow) (db db' : ConvDb) : Prop where
  new : turnId ∉ db.turns
  seqPos : 1 ≤ t.turnSeq
  clientNew : ∀ y u, db.turns.lookup y = some u → ¬(u.conv.orgId = t.conv.orgId ∧
    u.conv.conversationId = t.conv.conversationId ∧ u.clientTurnId = t.clientTurnId)
  seqNew : ∀ y u, db.turns.lookup y = some u → ¬(u.conv = t.conv ∧ u.branchId = t.branchId ∧
    u.turnSeq = t.turnSeq)
  branch : ∃ b, db.branches.lookup t.branchId = some b ∧ b.conv = t.conv
  config : ∃ c, db.contents.lookup t.nativeRequestConfigContentId = some c ∧ c.conv = t.conv
  eq : db' = { db with turns := db.turns.insert turnId t }

lemma insertTurn_eq_ok {turnId : Uuid} {t : TurnRow} {db db' : ConvDb}
    (h : insertTurn turnId t db = .ok db') : TurnInserted turnId t db db' := by
  simp only [insertTurn, except_bind_eq_ok_iff, rejectIf_eq_ok_iff, except_pure_eq_ok_iff,
    exists_and_left, exists_const, not_not] at h
  obtain ⟨hnew, hseq, hclient, hunique, hbranch, hconfig, rfl⟩ := h
  obtain ⟨b, hb, hbconv⟩ := hbranch
  obtain ⟨c, hc, hcconv⟩ := hconfig
  exact ⟨hnew, not_lt.mp hseq,
    fun y u hu hsame => hclient ⟨⟨y, u⟩, AList.mem_lookup_iff.mp hu, hsame⟩,
    fun y u hu hsame => hunique ⟨⟨y, u⟩, AList.mem_lookup_iff.mp hu, hsame⟩,
    ⟨b, hb, hbconv⟩, ⟨c, hc, hcconv⟩, rfl⟩

lemma insertAttempt_eq_ok {attemptId branchId turnId : Uuid} {conv : Lineage} {attemptSeq : ℕ}
    {now : ℤ} {db db' : ConvDb}
    (h : insertAttempt attemptId conv branchId turnId attemptSeq now db = .ok db') :
    attemptId ∉ db.attempts ∧ db' = { db with
      attempts := db.attempts.insert attemptId (.born conv branchId turnId attemptSeq now) } := by
  simp only [insertAttempt, except_bind_eq_ok_iff, rejectIf_eq_ok_iff, except_pure_eq_ok_iff,
    exists_and_left, exists_const] at h
  exact ⟨h.1, h.2.2.2.2.symm⟩

/-- The copies of a child turn: contents under new ids, and one item for each. -/
lemma insertCopies_eq_ok {copies : List (Uuid × ContentRow × ItemRow)} {db db' : ConvDb}
    (h : insertCopies copies db = .ok db') :
    (∀ y c, db.contents.lookup y = some c → db'.contents.lookup y = some c) ∧
    ∃ contents, db' = { db with contents := contents, items := db.items ++ copies.map (·.2.2) } := by
  induction copies generalizing db with
  | nil =>
    cases h
    exact ⟨fun _ _ hc => hc, db'.contents, by simp⟩
  | cons copy rest ih =>
    obtain ⟨contentId, content, item⟩ := copy
    simp only [insertCopies, except_bind_eq_ok_iff] at h
    obtain ⟨db₁, h₁, db₂, h₂, h⟩ := h
    obtain ⟨hnew, rfl⟩ := insertContent_eq_ok h₁
    obtain ⟨-, rfl⟩ := insertItem_eq_ok h₂
    obtain ⟨hcontents, contents, rfl⟩ := ih h
    refine ⟨fun y c hc => hcontents y c (lookup_insert_of_new hnew hc), contents, ?_⟩
    simp [List.append_assoc]

lemma insertForkBinding_eq_ok {b : ForkBinding} {db db' : ConvDb}
    (h : insertForkBinding b db = .ok db') : ¬ClientForkTaken b.conv b.clientForkId db ∧
      db' = { db with forkBindings := db.forkBindings ++ [b] } := by
  simp only [insertForkBinding, except_bind_eq_ok_iff, rejectIf_eq_ok_iff, except_pure_eq_ok_iff,
    exists_and_left, exists_const] at h
  exact ⟨h.1, h.2.2.symm⟩

/-- The trigger and the foreign key of the pin admit a branch only with its source. -/
lemma forkSource_of_forkPinGuard {b : BranchRow} {db : ConvDb} (h : forkPinGuard b db = .ok ()) :
    db.ForkSource b := by
  obtain ⟨conv, provider, surface, model, version, ⟨parentId, turnId, attemptId, mode⟩, now⟩ := b
  unfold forkPinGuard at h
  split at h
  · next parentId turnId attemptId mode h₁ h₂ h₃ h₄ =>
    simp only at h₁ h₂ h₃ h₄
    subst h₁ h₂ h₃ h₄
    split at h
    · cases h
    · next source hsource =>
      simp only [rejectIf_eq_ok_iff, not_not] at h
      simp only [getForkSourceAttempt, Option.filter_eq_some_iff, decide_eq_true_eq] at hsource
      obtain ⟨hrow, hconv, hbranch, hturn⟩ := hsource
      exact .inr ⟨_, _, _, _, source, rfl, hrow, hconv, hbranch, hturn, h⟩
  · next h₁ h₂ h₃ h₄ =>
    simp only at h₁ h₂ h₃ h₄
    subst h₁ h₂ h₃ h₄
    exact .inl rfl
  · cases h

lemma insertBranch_eq_ok {y : Uuid} {b : BranchRow} {db db' : ConvDb}
    (h : insertBranch y b db = .ok db') :
    y ∉ db.branches ∧ db.ForkSource b ∧ db' = { db with branches := db.branches.insert y b } := by
  simp only [insertBranch, except_bind_eq_ok_iff, rejectIf_eq_ok_iff, except_pure_eq_ok_iff,
    exists_and_left, exists_const, not_not] at h
  obtain ⟨hnew, -, -, -, _, hguard, rfl⟩ := h
  exact ⟨hnew, forkSource_of_forkPinGuard hguard, rfl⟩

/-! ## Sends -/

/-- The rows of a reservation, and what the transaction has read for them. -/
lemma reserveTurn_eq_reserved {conv : Lineage} {input : SendTurnInput} {content : ContentRow}
    {ids : ReservationIds} {now : ℤ} {db : ConvDb} {r : Reservation}
    (h : reserveTurn conv input content ids now db = .reserved r) :
    ¬ClientTurnTaken conv input.clientTurnId.value db ∧
    r = { ids := ids, conv := conv, branchId := input.branchId.value
          clientTurnId := input.clientTurnId.value
          turnSeq := nextTurnSeq conv input.branchId.value db, content := content, now := now } := by
  unfold reserveTurn at h
  split at h
  · cases h
  · split at h
    · cases h
    · split_ifs at h with _ htaken
      cases h
      exact ⟨htaken, rfl⟩

/-- The maximum of a list is in the list, unless it is zero. -/
lemma foldr_max_mem (l : List ℕ) : l.foldr max 0 ∈ l ∨ l.foldr max 0 = 0 := by
  induction l with
  | nil => exact .inr rfl
  | cons n l ih =>
    rw [List.foldr_cons]
    rcases max_choice n (l.foldr max 0) with hn | hn
    · rw [hn]
      exact .inl (List.mem_cons_self ..)
    · rw [hn]
      exact ih.imp_left (List.mem_cons_of_mem _)

/-- The numbers below the next one are taken. -/
lemma exists_turn_of_lt_nextTurnSeq {db : ConvDb} (h : db.Shape) {conv : Lineage} {branchId : Uuid}
    {k : ℕ} (hk : 1 ≤ k) (hlt : k < nextTurnSeq conv branchId db) :
    ∃ y t, db.turns.lookup y = some t ∧ t.conv = conv ∧ t.branchId = branchId ∧ t.turnSeq = k := by
  have hle := Nat.lt_succ_iff.mp hlt
  rcases foldr_max_mem ((db.turns.entries.filter fun e => e.2.conv = conv ∧ e.2.branchId = branchId).map
    (·.2.turnSeq)) with hmem | hzero
  · obtain ⟨e, he, hseq⟩ := List.mem_map.mp hmem
    simp only [List.mem_filter, decide_eq_true_eq] at he
    obtain ⟨he, hconv, hbranch⟩ := he
    have ht : db.turns.lookup e.1 = some e.2 := AList.mem_lookup_iff.mpr he
    obtain ⟨y, t, hy, htconv, htbranch, htseq⟩ := h.turnSeqDense e.1 e.2 k ht hk (hseq ▸ hle)
    exact ⟨y, t, hy, htconv.trans hconv, htbranch.trans hbranch, htseq⟩
  · rw [hzero] at hle
    exact absurd hk (by omega)

/-- The commit of a send mints its turn. -/
lemma Reservation.commit_minted {r : Reservation} {db db' : ConvDb} (h : r.commit db = .ok db')
    (hdense : ∀ k, 1 ≤ k → k < r.turnSeq → ∃ y u, db.turns.lookup y = some u ∧ u.conv = r.conv ∧
      u.branchId = r.branchId ∧ u.turnSeq = k) :
    Minted db db' r.ids.turnId r.ids.attemptId r.turn r.now := by
  simp only [Reservation.commit, except_bind_eq_ok_iff] at h
  obtain ⟨db₁, h₁, db₂, h₂, db₃, h₃, h₄⟩ := h
  obtain ⟨hcontent, rfl⟩ := insertContent_eq_ok h₁
  obtain ⟨hnew, hseq, hclient, hunique, hbranch, -, rfl⟩ := insertTurn_eq_ok h₂
  obtain ⟨hattempt, rfl⟩ := insertAttempt_eq_ok h₃
  obtain ⟨-, rfl⟩ := insertItem_eq_ok h₄
  exact
    { turnNew := hnew, attemptNew := hattempt, current := rfl, clientNew := hclient, seqPos := hseq
      seqNew := hunique, seqDense := hdense, branch := hbranch, turns := rfl, attempts := rfl
      contents := fun _ _ hc => lookup_insert_of_new hcontent hc
      items := ⟨_, rfl, fun i hi => List.mem_singleton.mp hi ▸ ⟨rfl, rfl, rfl, rfl⟩⟩
      branches := rfl, forkBindings := rfl }

/-! ## Forks -/

/-- The items of a child turn. -/
lemma copyItems_spec {conv : Lineage} {childBranchId childTurnId : Uuid} {freshId : ℕ → Uuid}
    {db : ConvDb} {k : ℕ} {items : List ItemRow} {copies : List (Uuid × ContentRow × ItemRow)}
    (h : copyItems conv childBranchId childTurnId freshId db k items = some copies) :
    ∀ copy ∈ copies, ∃ i ∈ items, ∃ id content, copyableContent conv i.contentId db = some content ∧
      copy = (id, content,
        { i with branchId := childBranchId, turnId := childTurnId, contentId := id }) := by
  induction items generalizing k copies with
  | nil =>
    cases h
    exact fun _ => nofun
  | cons i rest ih =>
    simp only [copyItems, bind, Option.bind_eq_some_iff, pure, Option.some.injEq] at h
    obtain ⟨content, hcontent, copies', hrest, rfl⟩ := h
    intro copy hcopy
    rcases List.mem_cons.mp hcopy with rfl | hcopy
    · exact ⟨i, List.mem_cons_self .., _, content, hcontent, rfl⟩
    · obtain ⟨j, hj, hspec⟩ := ih hrest copy hcopy
      exact ⟨j, List.mem_cons_of_mem _ hj, hspec⟩

/-- The items that a regeneration copies belong to the child turn. -/
lemma mintRegenerationChild_items {conv : Lineage} {parentBranchId sourceTurnId : Uuid}
    {ids : ForkIds} {db : ConvDb} {child : ForkChild}
    (h : mintRegenerationChild conv parentBranchId sourceTurnId ids db = .ok child) :
    child.turnId = ids.turnId ∧ ∀ i ∈ child.copies.map (·.2.2), i.conv = conv ∧
      i.branchId = ids.branchId ∧ i.turnId = ids.turnId ∧ i.attemptId = none := by
  unfold mintRegenerationChild at h
  split at h
  · cases h
  · split at h
    · cases h
    · split at h
      · cases h
      · next copies hcopies =>
        cases h
        refine ⟨rfl, fun i hi => ?_⟩
        obtain ⟨copy, hcopy, rfl⟩ := List.mem_map.mp hi
        obtain ⟨j, hj, _, _, -, rfl⟩ := copyItems_spec hcopies copy hcopy
        have hj := List.mem_insertionSort _ |>.mp hj
        simp only [List.mem_filter, decide_eq_true_eq] at hj
        exact ⟨hj.2.1, rfl, rfl, hj.2.2.2.2⟩

/-- The rows of a fork, and what the transaction has read for them. -/
structure ForkReserved (sha256 : Bytes → Bytes) (conv : Lineage) (input : CreateForkInput)
    (ids : ForkIds) (now : ℤ) (db : ConvDb) (parent : BranchRow) (r : ForkReservation) : Prop where
  parentRow : getBranchInConversation conv input.parentBranchId.value db = some parent
  source : ∃ source, getForkSourceAttempt conv input.parentBranchId.value
    input.forkedFromTurnId.value input.forkedFromAttemptId.value db = some source ∧
    forkPinValid input.boundaryMode source.state
  branchId : r.branchId = ids.branchId
  branch : r.branch =
    { conv := conv, provider := input.provider.getD parent.provider
      surface := input.surface.getD parent.surface, model := input.model.getD parent.model
      causalVersion := 0
      fork := ⟨some input.parentBranchId.value, some input.forkedFromTurnId.value,
        some input.forkedFromAttemptId.value, some input.boundaryMode⟩
      createdAt := now }
  binding : r.binding = ⟨conv, input.clientForkId.value,
    forkIntentHash sha256 (buildForkIntent conv.conversationId input
      (input.provider.getD parent.provider) (input.surface.getD parent.surface)
      (input.model.getD parent.model)), 1, ids.branchId⟩
  child : (input.boundaryMode = .afterAttempt ∧ r.child = none) ∨
    (input.boundaryMode = .beforeAttemptOutput ∧ ∃ child, r.child = some child ∧
      mintRegenerationChild conv input.parentBranchId.value input.forkedFromTurnId.value ids db =
        .ok child)

lemma reserveFork_eq_reserved {sha256 : Bytes → Bytes} {conv : Lineage} {input : CreateForkInput}
    {ids : ForkIds} {now : ℤ} {db : ConvDb} {r : ForkReservation}
    (h : reserveFork sha256 conv input ids now db = .reserved r) :
    ∃ parent, ForkReserved sha256 conv input ids now db parent r := by
  unfold reserveFork at h
  split at h
  · cases h
  · split at h
    · cases h
    · next parent hparent =>
      split at h
      · cases h
      · next source hsource =>
        split at h
        · cases h
        · next hpin =>
          have hpin' : forkPinValid input.boundaryMode source.state = true := by simpa using hpin
          dsimp only at h
          split at h
          · cases h
          · split at h
            · cases h
            · split at h
              · cases h
              · split at h
                · next hmode =>
                  cases h
                  exact ⟨parent, hparent, ⟨source, hsource, hpin'⟩, rfl, by rw [hmode], rfl,
                    .inl ⟨hmode, rfl⟩⟩
                · next hmode =>
                  split at h
                  · cases h
                  · next child hchild =>
                    cases h
                    exact ⟨parent, hparent, ⟨source, hsource, hpin'⟩, rfl, by rw [hmode], rfl,
                      .inr ⟨hmode, child, rfl, hchild⟩⟩

/-- The commit of a child turn mints it. -/
lemma ForkChild.commit_minted {c : ForkChild} {conv : Lineage} {branchId : Uuid} {now : ℤ}
    {db db' : ConvDb} (h : c.commit conv branchId now db = .ok db')
    (hitems : ∀ i ∈ c.copies.map (·.2.2), i.conv = conv ∧ i.branchId = branchId ∧
      i.turnId = c.turnId ∧ i.attemptId = none) :
    Minted db db' c.turnId c.attemptId (c.turn conv branchId) now := by
  simp only [ForkChild.commit, except_bind_eq_ok_iff] at h
  obtain ⟨db₁, h₁, db₂, h₂, db₃, h₃, h₄⟩ := h
  obtain ⟨hcontent, rfl⟩ := insertContent_eq_ok h₁
  obtain ⟨hnew, hseq, hclient, hunique, hbranch, -, rfl⟩ := insertTurn_eq_ok h₂
  obtain ⟨hattempt, rfl⟩ := insertAttempt_eq_ok h₃
  obtain ⟨hcontents, contents, rfl⟩ := insertCopies_eq_ok h₄
  exact
    { turnNew := hnew, attemptNew := hattempt, current := rfl, clientNew := hclient, seqPos := hseq
      seqNew := hunique
      seqDense := fun k hk hlt => absurd (lt_of_le_of_lt hk hlt) (lt_irrefl 1)
      branch := hbranch, turns := rfl, attempts := rfl
      contents := fun y row hc => hcontents y row (lookup_insert_of_new hcontent hc)
      items := ⟨_, rfl, hitems⟩, branches := rfl, forkBindings := rfl }

/-! ## Commits as primitive steps -/

/-- Primitive steps in sequence. -/
abbrev DbSteps (H : ConvDb → Prop) : ConvDb → ConvDb → Prop := Relation.ReflTransGen (DbStep H)

lemma DbSteps.grows {H : ConvDb → Prop} {db db' : ConvDb} (h : DbSteps H db db') : db.Grows db' := by
  induction h with
  | refl => exact .refl db
  | tail _ step ih => exact ih.trans step.grows

lemma DbSteps.shape {H : ConvDb → Prop} {db db' : ConvDb} (h : DbSteps H db db') (hs : db.Shape) :
    db'.Shape := by
  induction h with
  | refl => exact hs
  | tail _ step ih => exact step.shape ih

lemma DbSteps.claimsSettled {H : ConvDb → Prop} {db db' : ConvDb} (h : DbSteps H db db')
    (hH : ∀ db₀, H db₀ → db₀.Shape ∧ db₀.Grows db) (hs : db.Shape) (hc : db.ClaimsSettled) :
    db'.ClaimsSettled := by
  induction h with
  | refl => exact hc
  | tail hsteps step ih =>
    exact step.claimsSettled (fun db₀ hdb₀ =>
      ⟨(hH db₀ hdb₀).1, (hH db₀ hdb₀).2.trans (DbSteps.grows hsteps)⟩)
      (DbSteps.shape hsteps hs) ih

/-- The tables with the branch and the binding of a fork. -/
def ForkReservation.bound (r : ForkReservation) (db : ConvDb) : ConvDb :=
  { db with
    branches := db.branches.insert r.branchId r.branch
    forkBindings := db.forkBindings ++ [r.binding] }

/-- The commit of a fork: the branch, the binding, and the turn of a regeneration. -/
structure ForkCommitted (r : ForkReservation) (db db' : ConvDb) : Prop where
  branchNew : r.branchId ∉ db.branches
  source : db.ForkSource r.branch
  bindingNew : ¬ClientForkTaken r.binding.conv r.binding.clientForkId db
  child : (r.child = none ∧ db' = r.bound db) ∨ ∃ child, r.child = some child ∧
    Minted (r.bound db) db' child.turnId child.attemptId (child.turn r.branch.conv r.branchId) r.now

lemma ForkReservation.commit_eq_ok {sha256 : Bytes → Bytes} {conv : Lineage}
    {input : CreateForkInput} {ids : ForkIds} {now : ℤ} {db₀ : ConvDb} {parent : BranchRow}
    {r : ForkReservation} (hr : ForkReserved sha256 conv input ids now db₀ parent r)
    {db db' : ConvDb} (h : r.commit db = .ok db') : ForkCommitted r db db' := by
  simp only [ForkReservation.commit, except_bind_eq_ok_iff] at h
  obtain ⟨db₁, h₁, db₂, h₂, h₃⟩ := h
  obtain ⟨hnew, hsource, rfl⟩ := insertBranch_eq_ok h₁
  obtain ⟨htaken, rfl⟩ := insertForkBinding_eq_ok h₂
  refine ⟨hnew, hsource, htaken, ?_⟩
  rcases hr.child with ⟨-, hnone⟩ | ⟨-, child, hchild, hmint⟩
  · rw [hnone] at h₃
    cases h₃
    exact .inl ⟨hnone, rfl⟩
  · rw [hchild] at h₃
    obtain ⟨hturn, hitems⟩ := mintRegenerationChild_items hmint
    refine .inr ⟨child, hchild, ForkChild.commit_minted h₃ fun i hi => ?_⟩
    rw [hr.branchId, hturn, hr.branch]
    exact hitems i hi

/-- A fork is a branch, a binding and possibly a turn. -/
lemma ForkCommitted.steps {H : ConvDb → Prop} {r : ForkReservation} {db db' : ConvDb}
    (h : ForkCommitted r db db') : DbSteps H db db' := by
  let db₁ : ConvDb := { db with branches := db.branches.insert r.branchId r.branch }
  have hbinding : DbStep H db₁ (r.bound db) := .binding h.bindingNew
  have hsteps : DbSteps H db (r.bound db) :=
    (Relation.ReflTransGen.single (.branch h.branchNew h.source)).tail hbinding
  rcases h.child with ⟨-, rfl⟩ | ⟨child, -, hminted⟩
  · exact hsteps
  · exact hsteps.tail (.mint hminted)

/-- A new conversation is a row of `ai_conversations` and its root branch. -/
lemma createConversation_steps {H : ConvDb → Prop} {conversationId branchId : Uuid}
    {c : ConversationRow} {now : ℤ} {db db' : ConvDb}
    (h : createConversation conversationId branchId c now db = .ok db') : DbSteps H db db' := by
  simp only [createConversation, except_bind_eq_ok_iff, rejectIf_eq_ok_iff, exists_and_left,
    exists_const] at h
  obtain ⟨hnew, hsource, rfl⟩ := insertBranch_eq_ok h.2.2.2
  exact (Relation.ReflTransGen.single (.tables db.orgs db.credentials
    (db.conversations.insert conversationId c))).tail (.branch hnew hsource)

end GovAI
