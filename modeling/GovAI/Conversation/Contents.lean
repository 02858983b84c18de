import GovAI.Conversation.Loads

/-!
# The contents of the items

Every item of the tables has its content row, of the same conversation: the items of a send and the
copies of a fork are inserted with it, and a drive encrypts the output of an attempt for the
conversation that its execution context names.
-/

namespace GovAI

variable {env : ConvEnv} {s s' : ConvState} {label : ConvLabel} {db db' : ConvDb}

/-- Every item has its content. -/
def ConvDb.ItemContents (db : ConvDb) : Prop :=
  ∀ i ∈ db.items, ∃ c, db.contents.lookup i.contentId = some c ∧ c.conv = i.conv

/-- The content of an output in flight belongs to the conversation of the attempt. -/
def ConvState.OutputContents (s : ConvState) : Prop :=
  ∀ owner op p, s.InFlight owner op → op.output = some p →
    ∃ a, s.db.attempts.lookup p.attemptId = some a ∧ p.content.conv = a.conv

/-- The output that a drive sends to be stored on its own. -/
lemma DriveMove.output {deps : ExecutorDeps} {token : Uuid} {d d' : Drive}
    (h : DriveMove deps token db d d') {op : Op} (hcall : d'.call = some op) {p : OutputArgs}
    (hp : op.output = some p) : p.attemptId = d.attemptId ∧ p.content.ForOutput d := by
  cases h with
  | persist _ _ hcontent | fullChunk _ _ _ hcontent | eof _ _ hcontent
  | upstreamError _ _ hcontent =>
    cases hcall
    cases hp
    exact ⟨rfl, hcontent⟩
  | reject | noCredential | blocked | localError | noResponse | evidenceLost | upstreamErrorLost
  | encryptFails | evidenceEmitted | evidenceFails =>
    obtain ⟨context, -, rfl⟩ := Drive.finalize_call hcall
    cases hp
  | _ => cases hcall <;> cases hp

/-- No output is sent on an answer. -/
lemma Drive.resume_output {token : Uuid} {d : Drive} {reply : Bool} {op : Op}
    (hcall : (d.resume token reply).call = some op) : op.output = none := by
  unfold Drive.resume at hcall
  split at hcall
  case h_4 =>
    cases hcall
    rfl
  case h_6 | h_9 =>
    obtain ⟨context, -, rfl⟩ := Drive.finalize_call hcall
    rfl
  all_goals cases hcall

/-- No output is sent on an exception. -/
lemma Drive.raise_output {token : Uuid} {d : Drive} {op : Op}
    (hcall : (d.raise token).call = some op) : op.output = none := by
  unfold Drive.raise at hcall
  split at hcall
  case h_8 => cases hcall
  all_goals
    obtain ⟨context, -, rfl⟩ := Drive.finalize_call hcall
    rfl

/-- Output in flight after a step was so before, or a drive has sent it. -/
lemma ConvStep.output (step : ConvStep env s label s') {owner : OwnerScope} {op : Op}
    (hf : s'.InFlight owner op) {p : OutputArgs} (hp : op.output = some p) :
    (∃ op₀, s.InFlight owner op₀ ∧ op₀.output = some p) ∨
    ∃ t d, s.drives t = some d ∧ p.attemptId = d.attemptId ∧ p.content.ForOutput d := by
  have hnone : ∀ {op : Op}, op.output = some p → op.output = none → False := fun h h' => by
    rw [h] at h'
    cases h'
  cases step with
  | arm hfresh harms =>
    rcases hf.of_update (s := s) rfl .inl with hold | ⟨-, hcall⟩
    · exact .inl ⟨op, hold, hp⟩
    · cases hcall
      cases op with
      | itemSeq | append | commitItem => exact harms.elim
      | _ => cases hp
  | move hd hmove =>
    rcases hf.of_update (s := s) rfl .inl with hold | ⟨-, hcall⟩
    · exact .inl ⟨op, hold, hp⟩
    · exact .inr ⟨_, _, hd, hmove.output hcall hp⟩
  | fetch =>
    rcases hf.of_update (s := s) rfl .inl with hold | ⟨-, hcall⟩
    · exact .inl ⟨op, hold, hp⟩
    · cases hcall
  | serveNext hd hcall hst hexec =>
    rcases hf.of_update (s := s) rfl .inl with hold | ⟨howner, hcall'⟩
    · exact .inl ⟨op, hold, hp⟩
    · cases hcall'
      exact .inl ⟨_, .inr ⟨_, _, hd, howner, hcall⟩, (Op.exec_next hexec).output.symm.trans hp⟩
  | serveDone =>
    rcases hf.of_update (s := s) rfl .inl with hold | ⟨-, hcall⟩
    · exact .inl ⟨op, hold, hp⟩
    · exact (hnone hp (Drive.resume_output hcall)).elim
  | raise hd hcall =>
    rcases hf.of_update (s := s) rfl (.of_raise hd hcall) with hold | ⟨-, hcall'⟩
    · exact .inl ⟨op, hold, hp⟩
    · exact (hnone hp (Drive.raise_output hcall')).elim
  | crash hd =>
    rcases hf.of_update (s := s) rfl (.of_crash hd) with hold | ⟨-, hcall'⟩
    · exact .inl ⟨op, hold, hp⟩
    · cases hcall'
  | spawn hspawns =>
    rcases hf with ho | hd
    · rcases List.mem_cons.mp ho with heq | ho
      · cases heq
        cases op with
        | itemSeq | append | commitItem => exact hspawns.elim
        | _ => cases hp
      · exact .inl ⟨op, .inl ho, hp⟩
    · exact .inl ⟨op, .inr hd, hp⟩
  | orphanNext ho hst hexec =>
    rcases hf with ho' | hd
    · rcases mem_orphans_of_replaced ho ho' with heq | hmem
      · cases heq
        refine .inl ⟨_, .inl ?_, (Op.exec_next hexec).output.symm.trans hp⟩
        rw [ho]
        exact List.mem_append_right _ (List.mem_cons_self ..)
      · exact .inl ⟨op, .inl hmem, hp⟩
    · exact .inl ⟨op, .inr hd, hp⟩
  | orphanDone ho | orphanLost ho =>
    rcases hf with ho' | hd
    · exact .inl ⟨op, .inl (mem_orphans_of_removed ho ho'), hp⟩
    · exact .inl ⟨op, .inr hd, hp⟩
  | _ => exact .inl ⟨op, hf, hp⟩

theorem reachable_outputContents (hs : (conversationSystem env).Reachable s) :
    s.OutputContents := by
  refine hs.invariant (I := ConvState.OutputContents) ?_ ?_
  · rintro _ ⟨orgs, credentials, rfl⟩ owner op p (ho | ⟨t, d, hd, -⟩)
    · cases ho
    · cases hd
  · intro s label s' hs h step owner op p hf hp
    have hg := step.grows (reachable_history hs)
    obtain ⟨a, ha, hconv⟩ : ∃ a, s.db.attempts.lookup p.attemptId = some a ∧
        p.content.conv = a.conv := by
      rcases step.output hf hp with ⟨op₀, hold, hp₀⟩ | ⟨t, d, hd, hx, -, -, c, hc, hconv⟩
      · exact h owner op₀ p hold hp₀
      · obtain ⟨l, rfl, hof⟩ := (reachable_contexts hs t d hd).context c hc
        obtain ⟨a, -, ha, -, -, -, hca, -⟩ := hof l rfl
        exact ⟨a, hx ▸ ha, hconv.trans hca⟩
    obtain ⟨a', ha', hag⟩ := hg.attempts _ a ha
    exact ⟨a', ha', hconv.trans hag.conv.symm⟩

/-- The copies of a child turn come with their contents. -/
lemma insertCopies_contents {copies : List (Uuid × ContentRow × ItemRow)}
    (h : insertCopies copies db = .ok db')
    (hcopies : ∀ copy ∈ copies, copy.2.2.contentId = copy.1 ∧ copy.2.1.conv = copy.2.2.conv) :
    ∀ i ∈ copies.map (·.2.2), ∃ c, db'.contents.lookup i.contentId = some c ∧ c.conv = i.conv := by
  induction copies generalizing db with
  | nil => exact fun _ => nofun
  | cons copy rest ih =>
    obtain ⟨contentId, content, item⟩ := copy
    simp only [insertCopies, except_bind_eq_ok_iff] at h
    obtain ⟨db₁, h₁, db₂, h₂, h⟩ := h
    obtain ⟨-, rfl⟩ := insertContent_eq_ok h₁
    obtain ⟨-, rfl⟩ := insertItem_eq_ok h₂
    intro i hi
    rcases List.mem_cons.mp hi with rfl | hi
    · obtain ⟨hid, hconv⟩ := hcopies _ (List.mem_cons_self ..)
      refine ⟨content, (insertCopies_eq_ok h).1 _ _ ?_, hconv⟩
      dsimp only at hid ⊢
      rw [hid]
      exact AList.lookup_insert _
    · exact ih h (fun copy hcopy => hcopies copy (List.mem_cons_of_mem _ hcopy)) i hi

/-- The items that a fork mints come with their contents. -/
lemma ForkReservation.commit_contents {sha256 : Bytes → Bytes} {conv : Lineage}
    {input : CreateForkInput} {ids : ForkIds} {now : ℤ} {db₀ : ConvDb} {parent : BranchRow}
    {r : ForkReservation} (hr : ForkReserved sha256 conv input ids now db₀ parent r)
    (h : r.commit db = .ok db') (hold : db.ItemContents) : db'.ItemContents := by
  simp only [ForkReservation.commit, except_bind_eq_ok_iff] at h
  obtain ⟨db₁, h₁, db₂, h₂, h₃⟩ := h
  obtain ⟨-, -, rfl⟩ := insertBranch_eq_ok h₁
  obtain ⟨-, rfl⟩ := insertForkBinding_eq_ok h₂
  rcases hr.child with ⟨-, hnone⟩ | ⟨-, child, hchild, hmint⟩
  · rw [hnone] at h₃
    cases h₃
    exact hold
  · rw [hchild] at h₃
    simp only [ForkChild.commit, except_bind_eq_ok_iff] at h₃
    obtain ⟨db₃, h₃, db₄, h₄, db₅, h₅, h₆⟩ := h₃
    obtain ⟨hnew, rfl⟩ := insertContent_eq_ok h₃
    obtain ⟨-, -, -, -, -, -, rfl⟩ := insertTurn_eq_ok h₄
    obtain ⟨-, rfl⟩ := insertAttempt_eq_ok h₅
    have hcopies : ∀ copy ∈ child.copies,
        copy.2.2.contentId = copy.1 ∧ copy.2.1.conv = copy.2.2.conv := by
      unfold mintRegenerationChild at hmint
      split at hmint
      · cases hmint
      · split at hmint
        · cases hmint
        · split at hmint
          · cases hmint
          · next copies hcopies =>
            cases hmint
            intro copy hcopy
            obtain ⟨i, hi, id, content, hcontent, rfl⟩ := copyItems_spec hcopies copy hcopy
            simp only [copyableContent, Option.filter_eq_some_iff, decide_eq_true_eq] at hcontent
            have hi := List.mem_insertionSort _ |>.mp hi
            simp only [List.mem_filter, decide_eq_true_eq] at hi
            exact ⟨rfl, hcontent.2.1.trans hi.2.1.symm⟩
    have hnewItems := insertCopies_contents h₆ hcopies
    obtain ⟨hkeep, contents, rfl⟩ := insertCopies_eq_ok h₆
    intro i hi
    rcases List.mem_append.mp hi with hi | hi
    · obtain ⟨c, hc, hconv⟩ := hold i hi
      exact ⟨c, hkeep _ c (lookup_insert_of_new hnew hc), hconv⟩
    · exact hnewItems i hi

/-- The contents of the items after a commit. -/
lemma Committed.itemContents (h : Committed env s db') (hist : s.History env)
    (hout : s.OutputContents) (hold : s.db.ItemContents) : db'.ItemContents := by
  have hsame : ∀ {db' : ConvDb}, s.db.Grows db' → db'.items = s.db.items → db'.ItemContents := by
    intro db' hg hitems i hi
    obtain ⟨c, hc, hconv⟩ := hold i (hitems ▸ hi)
    exact ⟨c, hg.contents _ c hc, hconv⟩
  have hg := (h.steps hist).grows
  cases h with
  | exec hflight hst hexec =>
    cases Op.exec_done hexec with
    | idle => exact hold
    | write _ _ _ _ hdb =>
      rcases hdb with rfl | ⟨conv, branchId, rfl⟩
      · exact hsame hg rfl
      · exact hsame hg (bumpBranchCausalVersion_items ..)
    | @item p i _ hnew hslot hdb =>
      rw [hdb]
      intro j hj
      rcases List.mem_append.mp hj with hj | hj
      · obtain ⟨c, hc, hconv⟩ := hold j hj
        exact ⟨c, lookup_insert_of_new hnew hc, hconv⟩
      · obtain rfl := List.mem_singleton.mp hj
        obtain ⟨st, seq, db₀, hpast, hitem⟩ := hist.calls.item _ _ _ hflight
        obtain ⟨a, ha, hconv⟩ := hout _ _ p hflight rfl
        simp only [fencedOutputItem, Option.map_eq_some_iff, Option.filter_eq_some_iff] at hitem
        obtain ⟨a₀, ⟨ha₀, -⟩, rfl⟩ := hitem
        obtain ⟨a', ha', hag⟩ := (hist.grows db₀ hpast).attempts _ a₀ ha₀
        obtain rfl : a = a' := Option.some.inj (ha.symm.trans ha')
        exact ⟨p.content, AList.lookup_insert _, hconv.trans hag.conv⟩
  | @send n c r _ hc hp hr =>
    obtain ⟨content, ids, now, db₀, hpast, hprepared, hreserve⟩ := hist.calls.send n c r hc hp
    obtain ⟨-, rfl⟩ := reserveTurn_eq_reserved hreserve
    simp only [Reservation.commit, except_bind_eq_ok_iff] at hr
    obtain ⟨db₁, h₁, db₂, h₂, db₃, h₃, h₄⟩ := hr
    obtain ⟨hnew, rfl⟩ := insertContent_eq_ok h₁
    obtain ⟨-, -, -, -, -, -, rfl⟩ := insertTurn_eq_ok h₂
    obtain ⟨-, rfl⟩ := insertAttempt_eq_ok h₃
    obtain ⟨-, rfl⟩ := insertItem_eq_ok h₄
    intro i hi
    rcases List.mem_append.mp hi with hi | hi
    · obtain ⟨c, hc, hconv⟩ := hold i hi
      exact ⟨c, lookup_insert_of_new hnew hc, hconv⟩
    · obtain rfl := List.mem_singleton.mp hi
      exact ⟨content, AList.lookup_insert _, hprepared.conv⟩
  | @fork n c r _ hc hp hr =>
    obtain ⟨ids, now, db₀, hpast, hreserve⟩ := hist.calls.fork n c r hc hp
    obtain ⟨parent, hreserved⟩ := reserveFork_eq_reserved hreserve
    exact ForkReservation.commit_contents hreserved hr hold
  | external h =>
    refine hsame hg ?_
    cases h with
    | create h =>
      simp only [createConversation, except_bind_eq_ok_iff, rejectIf_eq_ok_iff, exists_and_left,
        exists_const] at h
      obtain ⟨-, -, rfl⟩ := insertBranch_eq_ok h.2.2.2
      rfl
    | _ => rfl

/-- **Contents.** Every item of a reachable state has its content. -/
theorem reachable_itemContents (hs : (conversationSystem env).Reachable s) : s.db.ItemContents := by
  refine hs.invariant (I := fun s => s.db.ItemContents) ?_ ?_
  · rintro _ ⟨orgs, credentials, rfl⟩ i hi
    cases hi
  · intro s label s' hs h step
    rcases step.commit_cases with ⟨hdb, -⟩ | ⟨hcommit, -⟩
    · exact hdb ▸ h
    · exact hcommit.itemContents (reachable_history hs) (reachable_outputContents hs) h

end GovAI
