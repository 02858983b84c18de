import GovAI.Capture.SealingLocks

/-!
# Exactly-once, in-order sealing

What all interleavings of sealing workers, recoveries, inserts, failure markers and direct appends
keep: an event with the id of a capture carries the content of this capture, and it is there only
when every earlier capture of the chain is sealed; a sealed capture has its event.  From this it
follows that a capture has at most one event, that a sealed one has exactly one, and that the events
of a capture chain stand in the audit chain in the order of `capture_seq`.

The statements are those of one transaction that runs alone; `LockProtocol.invariant` carries them
to every interleaving.
-/

namespace GovAI

open Function

/-! ## The invariant -/

/-- An event with the content of a capture. -/
structure SealedAs (row : OutboxRow) (r : EventRow) : Prop where
  orgId : r.orgId = row.content.orgId
  chainId : r.chainId = auditCategoryChainId row.content.orgId.toText row.content.chainCategory
  eventType : r.eventType = row.content.eventType
  eventVersion : r.eventVersion = row.content.eventVersion
  subjectType : r.subjectType = row.content.subjectType
  subjectId : r.subjectId = row.content.subjectId
  payloadHash : r.payloadHash = row.content.payloadHash
  keyId : r.keyId = row.content.keyId
  keyVersion : r.keyVersion = row.content.keyVersion

/-- Every capture of the chain before this one is sealed. -/
def AuditDb.Reached (db : AuditDb) (row : OutboxRow) : Prop :=
  ∃ state, db.chainState row.content.chainId = some state ∧
    row.captureSeq ≤ state.lastSealedCaptureSeq + 1

/-- The correspondence between the outbox and the audit chain. -/
structure SealInv (env : SealerEnv) (captures : Set (Uuid × Uuid)) (db : AuditDb) : Prop where
  ofChain : ∀ {c r}, r ∈ db.eventChain c → r.chainId = c ∧ db.eventById r.id = some r
  ofId : ∀ {e r}, db.eventById e = some r → r.id = e ∧ r ∈ db.eventChain r.chainId
  nodup : ∀ c, ((db.eventChain c).map EventRow.id).Nodup
  known : ∀ {x row}, db.outbox x = some row → (row.content.orgId, x) ∈ captures
  /-- An event with the id of a capture is the event of this capture, whose turn has come. -/
  origin : ∀ {org x r}, (org, x) ∈ captures →
    db.eventById (deriveAuditSealerCaptureEventId env.sha1 org x) = some r →
      ∃ row, db.outbox x = some row ∧ row.content.orgId = org ∧ SealedAs row r ∧ db.Reached row
  /-- A sealed capture has its event. -/
  sealed : ∀ {x row}, db.outbox x = some row → row.status = .sealed →
    row.lifecycle.auditEventId = some (env.eventIdOf row) ∧
      ∃ r, db.eventById (env.eventIdOf row) = some r
  /-- The events of the captures of a chain stand in the order of the captures. -/
  order : ∀ {x y row row' r r'}, db.outbox x = some row → db.outbox y = some row' →
    row.content.chainId = row'.content.chainId →
    row.content.chainCategory = row'.content.chainCategory → row.captureSeq < row'.captureSeq →
    db.eventById (env.eventIdOf row) = some r → db.eventById (env.eventIdOf row') = some r' →
      r.sequenceNumber < r'.sequenceNumber

/-- What a statement leaves: captures keep their content, chains do not lose sealed captures, events
stay. -/
structure Grow (db db' : AuditDb) : Prop where
  outbox : ∀ {x row}, db.outbox x = some row → ∃ row', db'.outbox x = some row' ∧
    row'.captureId = row.captureId ∧ row'.content = row.content ∧ row'.captureSeq = row.captureSeq
  chainState : ∀ {c state}, db.chainState c = some state → ∃ state',
    db'.chainState c = some state' ∧ state.lastSealedCaptureSeq ≤ state'.lastSealedCaptureSeq
  event : ∀ {e r}, db.eventById e = some r → db'.eventById e = some r

/-- A capture that a transaction holds: it is still in the outbox, and its turn has come. -/
structure Held (db : AuditDb) (row : OutboxRow) : Prop where
  stored : ∃ row', db.outbox row.captureId = some row' ∧ row'.captureId = row.captureId ∧
    row'.content = row.content ∧ row'.captureSeq = row.captureSeq
  reached : db.Reached row

/-- What holds at each program point. -/
def SealPointOk (env : SealerEnv) (db : AuditDb) : SealPoint → Prop
  | .ready => True
  | .holding row => Held db row
  | .appended row => Held db row ∧ ∃ r, db.eventById (env.eventIdOf row) = some r

section Growth

variable {env : SealerEnv} {captures : Set (Uuid × Uuid)} {db db' db'' : AuditDb} {row : OutboxRow}

lemma Grow.refl (db : AuditDb) : Grow db db :=
  ⟨fun h => ⟨_, h, rfl, rfl, rfl⟩, fun h => ⟨_, h, le_rfl⟩, fun h => h⟩

lemma Grow.trans (h : Grow db db') (h' : Grow db' db'') : Grow db db'' where
  outbox hx := by
    obtain ⟨row', hx', hid, hcontent, hseq⟩ := h.outbox hx
    obtain ⟨row'', hx'', hid', hcontent', hseq'⟩ := h'.outbox hx'
    exact ⟨row'', hx'', hid'.trans hid, hcontent'.trans hcontent, hseq'.trans hseq⟩
  chainState hc := by
    obtain ⟨st, hst, hle⟩ := h.chainState hc
    obtain ⟨st', hst', hle'⟩ := h'.chainState hst
    exact ⟨st', hst', hle.trans hle'⟩
  event he := h'.event (h.event he)

lemma AuditDb.Reached.grow (h : db.Reached row) (hgrow : Grow db db') : db'.Reached row := by
  obtain ⟨state, hstate, hle⟩ := h
  obtain ⟨state', hstate', hle'⟩ := hgrow.chainState hstate
  exact ⟨state', hstate', by omega⟩

lemma AuditDb.Reached.congr (h : db.Reached row) {row' : OutboxRow}
    (hcontent : row'.content = row.content) (hseq : row'.captureSeq = row.captureSeq) :
    db.Reached row' := by
  rwa [AuditDb.Reached, hcontent, hseq]

lemma Held.grow (h : Held db row) (hgrow : Grow db db') : Held db' row where
  stored := by
    obtain ⟨row', hx, hid, hcontent, hseq⟩ := h.stored
    rw [← hid] at hx
    obtain ⟨row'', hx', hid', hcontent', hseq'⟩ := hgrow.outbox hx
    rw [hid] at hx'
    exact ⟨row'', hx', hid'.trans hid, hcontent'.trans hcontent, hseq'.trans hseq⟩
  reached := h.reached.grow hgrow

/-- The event id of a capture depends on its id and organisation. -/
lemma eventIdOf_congr {row' : OutboxRow} (hid : row'.captureId = row.captureId)
    (hcontent : row'.content = row.content) : env.eventIdOf row' = env.eventIdOf row := by
  rw [SealerEnv.eventIdOf, hid, hcontent, SealerEnv.eventIdOf]

lemma SealedAs.congr {r : EventRow} (h : SealedAs row r) {row' : OutboxRow}
    (hcontent : row'.content = row.content) : SealedAs row' r := by
  cases row'
  cases row
  dsimp only at hcontent
  subst hcontent
  exact ⟨h.1, h.2, h.3, h.4, h.5, h.6, h.7, h.8, h.9⟩

end Growth

/-! ## Effects on the outbox -/

section Outbox

variable {env : SealerEnv} {captures : Set (Uuid × Uuid)} {db db' : AuditDb} {row : OutboxRow}
  {state : ChainState}

lemma grow_setState {c : String} (h : db.chainState c = some state ∨ db.chainState c = none) :
    Grow db (db.setState c state) where
  outbox hx := ⟨_, hx, rfl, rfl, rfl⟩
  chainState {c' st} hc := by
    by_cases hcc : c' = c
    · subst hcc
      rcases h with h | h
      · obtain rfl := Option.some.inj (h.symm.trans hc)
        exact ⟨state, update_self .., le_rfl⟩
      · simp [h] at hc
    · exact ⟨st, (update_of_ne hcc ..).trans hc, le_rfl⟩
  event he := he

lemma grow_addCapture (hfree : db.outbox row.captureId = none)
    (h : db.chainState row.content.chainId = some state ∨
      db.chainState row.content.chainId = none) : Grow db (db.addCapture state row) where
  outbox {x row'} hx := by
    have hne : x ≠ row.captureId := by
      rintro rfl
      simp [hfree] at hx
    exact ⟨row', (update_of_ne hne ..).trans hx, rfl, rfl, rfl⟩
  chainState {c st} hc := by
    by_cases hcc : c = row.content.chainId
    · subst hcc
      rcases h with h | h
      · obtain rfl := Option.some.inj (h.symm.trans hc)
        exact ⟨_, update_self .., le_rfl⟩
      · simp [h] at hc
    · exact ⟨st, (update_of_ne hcc ..).trans hc, le_rfl⟩
  event he := he

lemma grow_setLifecycle {new : Lifecycle} (hrow : db.outbox row.captureId = some row) :
    Grow db (db.setLifecycle row new) where
  outbox {x row'} hx := by
    by_cases hxr : x = row.captureId
    · subst hxr
      obtain rfl := Option.some.inj (hrow.symm.trans hx)
      exact ⟨_, update_self .., rfl, rfl, rfl⟩
    · exact ⟨row', (update_of_ne hxr ..).trans hx, rfl, rfl, rfl⟩
  chainState hc := ⟨_, hc, le_rfl⟩
  event he := he

lemma grow_sealCapture {org e : Uuid} {now : ℤ} (hrow : db.outbox row.captureId = some row)
    (hstate : db.chainState row.content.chainId = some state)
    (hseq : state.lastSealedCaptureSeq + 1 = row.captureSeq) :
    Grow db (db.sealCapture state row org e now) where
  outbox {x row'} hx := by
    by_cases hxr : x = row.captureId
    · subst hxr
      obtain rfl := Option.some.inj (hrow.symm.trans hx)
      exact ⟨_, update_self .., rfl, rfl, rfl⟩
    · exact ⟨row', (update_of_ne hxr ..).trans hx, rfl, rfl, rfl⟩
  chainState {c st} hc := by
    by_cases hcc : c = row.content.chainId
    · subst hcc
      obtain rfl := Option.some.inj (hstate.symm.trans hc)
      exact ⟨_, update_self .., by dsimp only; omega⟩
    · exact ⟨st, (update_of_ne hcc ..).trans hc, le_rfl⟩
  event he := he

/-- A change of the outbox alone: the rows are old ones with the same content, or new captures; the
sealed ones have their event. -/
lemma SealInv.of_outbox (h : SealInv env captures db) (hinv : OutboxInv db) (hinv' : OutboxInv db')
    (hgrow : Grow db db') (hchain : db'.eventChain = db.eventChain)
    (hid : db'.eventById = db.eventById)
    (hrows : ∀ {x row'}, db'.outbox x = some row' →
      (∃ row, db.outbox x = some row ∧ row'.content = row.content ∧
        row'.captureSeq = row.captureSeq) ∨
      db.outbox x = none ∧ (row'.content.orgId, x) ∈ captures)
    (hsealed : ∀ {x row'}, db'.outbox x = some row' → row'.status = .sealed →
      row'.lifecycle.auditEventId = some (env.eventIdOf row') ∧
        ∃ r, db.eventById (env.eventIdOf row') = some r) : SealInv env captures db' := by
  have hknown : ∀ {x row'}, db'.outbox x = some row' → (row'.content.orgId, x) ∈ captures := by
    intro x row' hx
    rcases hrows hx with ⟨row, hx', hcontent, -⟩ | ⟨-, hcapture⟩
    · rw [hcontent]
      exact h.known hx'
    · exact hcapture
  -- a capture with an event is an old one
  have hold : ∀ {x row' r}, db'.outbox x = some row' → db.eventById (env.eventIdOf row') = some r →
      ∃ row, db.outbox x = some row ∧ row'.content = row.content ∧
        row'.captureSeq = row.captureSeq ∧ env.eventIdOf row' = env.eventIdOf row := by
    intro x row' r hx hr
    have hkey := hinv'.key hx
    rcases hrows hx with ⟨row, hx', hcontent, hseq⟩ | ⟨hnone, hcapture⟩
    · exact ⟨row, hx', hcontent, hseq, eventIdOf_congr (hkey.trans (hinv.key hx').symm) hcontent⟩
    · rw [SealerEnv.eventIdOf, hkey] at hr
      obtain ⟨row, hx', -⟩ := h.origin hcapture hr
      simp [hnone] at hx'
  constructor
  case ofChain => rw [hchain, hid]; exact h.ofChain
  case ofId => rw [hchain, hid]; exact h.ofId
  case nodup => rw [hchain]; exact h.nodup
  case known => exact hknown
  case origin =>
    intro org x r hcapture hr
    rw [hid] at hr
    obtain ⟨row, hx, horg, hsame, hreached⟩ := h.origin hcapture hr
    obtain ⟨row', hx', -, hcontent, hseq⟩ := hgrow.outbox hx
    exact ⟨row', hx', by rw [hcontent, horg], hsame.congr hcontent,
      (hreached.grow hgrow).congr hcontent hseq⟩
  case sealed => rw [hid]; exact hsealed
  case order =>
    intro x y row₁ row₂ r₁ r₂ hx hy hc hcat hlt hr₁ hr₂
    rw [hid] at hr₁ hr₂
    obtain ⟨old₁, hx', hcontent₁, hseq₁, he₁⟩ := hold hx hr₁
    obtain ⟨old₂, hy', hcontent₂, hseq₂, he₂⟩ := hold hy hr₂
    rw [hcontent₁, hcontent₂] at hc hcat
    exact h.order hx' hy' hc hcat (by omega) (he₁ ▸ hr₁) (he₂ ▸ hr₂)

/-- `audit_capture_insert_locked` keeps the correspondence. -/
lemma SealInv.captureInsertWith (h : SealInv env captures db) (hinv : OutboxInv db)
    {session : Option String} {now seq : ℤ} {p : CaptureInsert} {existing : Option OutboxRow}
    (hcapture : (p.orgId, p.captureId) ∈ captures)
    (hcall : captureInsertWith session now p existing db = .ok (seq, db')) :
    SealInv env captures db' ∧ Grow db db' := by
  have hinv' := hinv.captureInsertWith hcall
  obtain ⟨content, state, horg, hchain, -, -, hstate, heffect⟩ := captureInsertWith_eq_ok hcall
  have hstate' : db.chainState p.chainId = some state ∨ db.chainState p.chainId = none :=
    hstate.imp_right And.left
  rcases heffect with ⟨_, -, rfl⟩ | ⟨-, hfree, rfl⟩
  · have hgrow := grow_setState hstate'
    exact ⟨h.of_outbox hinv hinv' hgrow rfl rfl (fun hx => .inl ⟨_, hx, rfl, rfl⟩)
      fun hx hs => h.sealed hx hs, hgrow⟩
  · have hgrow : Grow db (db.addCapture state
        (newCapture now p content (state.lastCapturedSeq + 1))) :=
      grow_addCapture hfree (by rwa [newCapture, hchain])
    refine ⟨h.of_outbox hinv hinv' hgrow rfl rfl (fun hx => ?_) (fun hx hs => ?_), hgrow⟩
    · rcases OutboxInv.update_outbox_eq_some.mp hx with ⟨rfl, rfl⟩ | ⟨-, hx⟩
      · exact .inr ⟨hfree, by rwa [newCapture, horg]⟩
      · exact .inl ⟨_, hx, rfl, rfl⟩
    · rcases OutboxInv.update_outbox_eq_some.mp hx with ⟨rfl, rfl⟩ | ⟨-, hx⟩
      · simp [newCapture] at hs
      · exact h.sealed hx hs

/-- Moving a capture between the other statuses keeps the correspondence. -/
lemma SealInv.setLifecycle (h : SealInv env captures db) (hinv : OutboxInv db)
    {new : Lifecycle} (hinv' : OutboxInv (db.setLifecycle row new))
    (hrow : db.outbox row.captureId = some row) (hnew : new.status ≠ .sealed) :
    SealInv env captures (db.setLifecycle row new) := by
  refine h.of_outbox hinv hinv' (grow_setLifecycle hrow) rfl rfl (fun hx => ?_) fun hx hs => ?_
  · rcases OutboxInv.update_outbox_eq_some.mp hx with ⟨rfl, rfl⟩ | ⟨-, hx⟩
    · exact .inl ⟨row, hrow, rfl, rfl⟩
    · exact .inl ⟨_, hx, rfl, rfl⟩
  · rcases OutboxInv.update_outbox_eq_some.mp hx with ⟨rfl, rfl⟩ | ⟨-, hx⟩
    · exact absurd hs hnew
    · exact h.sealed hx hs

/-- Sealing a capture whose event is there keeps the correspondence. -/
lemma SealInv.sealCapture (h : SealInv env captures db) (hinv : OutboxInv db) {org : Uuid} {now : ℤ}
    (hinv' : OutboxInv (db.sealCapture state row org (env.eventIdOf row) now))
    (hrow : db.outbox row.captureId = some row)
    (hstate : db.chainState row.content.chainId = some state)
    (hseq : state.lastSealedCaptureSeq + 1 = row.captureSeq)
    (hevent : ∃ r, db.eventById (env.eventIdOf row) = some r) :
    SealInv env captures (db.sealCapture state row org (env.eventIdOf row) now) := by
  refine h.of_outbox hinv hinv' (grow_sealCapture hrow hstate hseq) rfl rfl (fun hx => ?_)
    fun hx hs => ?_
  · rcases OutboxInv.update_outbox_eq_some.mp hx with ⟨rfl, rfl⟩ | ⟨-, hx⟩
    · exact .inl ⟨row, hrow, rfl, rfl⟩
    · exact .inl ⟨_, hx, rfl, rfl⟩
  · rcases OutboxInv.update_outbox_eq_some.mp hx with ⟨rfl, rfl⟩ | ⟨-, hx⟩
    · exact ⟨rfl, hevent⟩
    · exact h.sealed hx hs

end Outbox

/-! ## Effects on the audit chain -/

section Events

variable {env : SealerEnv} {captures : Set (Uuid × Uuid)} {db db' : AuditDb} {row : OutboxRow}
  {r : EventRow}

/-- The next sequence number exceeds those of all rows the head was read from. -/
lemma lt_nextSequence_headRow {rows : List EventRow} (h : r ∈ rows) :
    r.sequenceNumber < nextSequence (headRow rows) := by
  have hhead : ∃ head, headRow rows = some head ∧ r.sequenceNumber ≤ head.sequenceNumber := by
    induction rows with
    | nil => cases h
    | cons r₀ rows ih =>
      rw [headRow]
      cases hrows : headRow rows with
      | none =>
        rcases List.mem_cons.mp h with rfl | h
        · exact ⟨r, rfl, le_rfl⟩
        · obtain ⟨head, hhead, -⟩ := ih h
          simp [hrows] at hhead
      | some head =>
        refine ⟨_, rfl, ?_⟩
        rcases List.mem_cons.mp h with rfl | h
        · split <;> omega
        · obtain ⟨head', hhead', hle⟩ := ih h
          obtain rfl := Option.some.inj (hrows.symm.trans hhead')
          split <;> omega
  obtain ⟨head, hhead, hle⟩ := hhead
  simp only [nextSequence, hhead, Option.map_some, Option.getD_some]
  omega

lemma grow_addEvent (hfree : db.eventById r.id = none) : Grow db (db.addEvent r) where
  outbox hx := ⟨_, hx, rfl, rfl, rfl⟩
  chainState hc := ⟨_, hc, le_rfl⟩
  event {e r'} he := by
    have hne : e ≠ r.id := by
      rintro rfl
      simp [hfree] at he
    exact (update_of_ne hne ..).trans he

/-- The outbox does not depend on the audit chain. -/
lemma OutboxInv.addEvent (h : OutboxInv db) (r : EventRow) : OutboxInv (db.addEvent r) :=
  ⟨h.key, h.state, h.slot, h.ofSlot, h.filled, h.counters, h.sealed_iff, h.sealing, h.ref, h.ofRef,
    h.refOfEvent⟩

/-- Two captures have the same event id only if they are the same. -/
lemma eventId_inj (hinj : Set.InjOn (uuid5 env.sha1 auditSealerCaptureEventNamespace)
      ((fun p => captureEventName p.1 p.2) '' captures)) {org org' x x' : Uuid}
    (h : (org, x) ∈ captures) (h' : (org', x') ∈ captures)
    (heq : deriveAuditSealerCaptureEventId env.sha1 org x =
      deriveAuditSealerCaptureEventId env.sha1 org' x') : org = org' ∧ x = x' :=
  captureEventName_inj (hinj ⟨_, h, rfl⟩ ⟨_, h', rfl⟩ heq)

/-- What the transaction that appends a capture knows of the new event. -/
structure CaptureEvent (env : SealerEnv) (db : AuditDb) (row : OutboxRow) (r : EventRow) : Prop where
  id : r.id = env.eventIdOf row
  held : Held db row
  sealedAs : SealedAs row r
  last : ∀ r' ∈ db.eventChain r.chainId, r'.orgId = r.orgId → r'.sequenceNumber < r.sequenceNumber

/-- **The step that carries the order.**  A new event stands behind the events of all earlier
captures of its chain, and no later capture has an event yet. -/
lemma SealInv.order_addEvent (h : SealInv env captures db) (hinv : OutboxInv db)
    (hfree : db.eventById r.id = none) (hnew : CaptureEvent env db row r)
    {x : Uuid} {other : OutboxRow} {r' : EventRow} (hx : db.outbox x = some other)
    (hchain : other.content.chainId = row.content.chainId)
    (hcat : other.content.chainCategory = row.content.chainCategory)
    (hr' : db.eventById (env.eventIdOf other) = some r') :
    other.captureSeq < row.captureSeq ∧ r'.sequenceNumber < r.sequenceNumber := by
  obtain ⟨row', hrow', hkey', hcontent', hseq'⟩ := hnew.held.stored
  obtain ⟨state, hstate, horg, -⟩ := hinv.state hx
  obtain ⟨state', hstate', horg', -⟩ := hinv.state hrow'
  rw [hchain] at hstate
  rw [hcontent'] at hstate' horg'
  obtain rfl := Option.some.inj (hstate.symm.trans hstate')
  have horgs : other.content.orgId = row.content.orgId := horg.symm.trans horg'
  -- the event of the other capture is an event of this capture, whose turn has come
  have hkey := hinv.key hx
  rw [SealerEnv.eventIdOf, hkey] at hr'
  obtain ⟨other', hx', -, hsame, hreached⟩ := h.origin (h.known hx) hr'
  obtain rfl := Option.some.inj (hx.symm.trans hx')
  obtain ⟨st, hst, hle⟩ := hreached
  rw [hchain] at hst
  obtain rfl := Option.some.inj (hstate.symm.trans hst)
  have hnotSealed : ¬row'.status = .sealed := by
    intro hsealed
    obtain ⟨-, e, he⟩ := h.sealed hrow' hsealed
    rw [eventIdOf_congr hkey' hcontent', ← hnew.id, hfree] at he
    cases he
  rw [hinv.sealed_iff hrow' (hcontent' ▸ hstate), hseq'] at hnotSealed
  refine ⟨?_, hnew.last r' ?_ (hsame.orgId.trans (horgs.trans hnew.sealedAs.orgId.symm))⟩
  · rcases lt_or_eq_of_le (show other.captureSeq ≤ row.captureSeq by omega) with hlt | heq
    · exact hlt
    · have hxy := hinv.eq_of_seq hx hrow' (by rw [hchain, hcontent']) (by rw [heq, hseq'])
      subst hxy
      rw [horgs, ← SealerEnv.eventIdOf, ← hnew.id, hfree] at hr'
      cases hr'
  · rw [hnew.sealedAs.chainId, ← horgs, ← hcat, ← hsame.chainId]
    exact (h.ofId hr').2

/-- Adding an event keeps the correspondence, if it is the event of a capture whose turn has come, or
of none. -/
lemma SealInv.addEvent (h : SealInv env captures db) (hinv : OutboxInv db)
    (hinj : Set.InjOn (uuid5 env.sha1 auditSealerCaptureEventNamespace)
      ((fun p => captureEventName p.1 p.2) '' captures))
    (hfree : db.eventById r.id = none)
    (hnew : ¬env.Derived captures r.id ∨ ∃ row, CaptureEvent env db row r) :
    SealInv env captures (db.addEvent r) := by
  have hgrow := grow_addEvent hfree
  have hevent : ∀ {e r'}, (db.addEvent r).eventById e = some r' →
      e = r.id ∧ r' = r ∨ e ≠ r.id ∧ db.eventById e = some r' := by
    intro e r' he
    by_cases her : e = r.id
    · subst her
      exact .inl ⟨rfl, by simpa [AuditDb.addEvent, eq_comm] using he⟩
    · exact .inr ⟨her, (update_of_ne her ..).symm.trans he⟩
  -- a capture whose event is the new one is the capture that was appended
  have hown : ∀ {x other}, db.outbox x = some other → env.eventIdOf other = r.id →
      ∃ row, CaptureEvent env db row r ∧ x = row.captureId ∧ other.content = row.content ∧
        other.captureSeq = row.captureSeq := by
    intro x other hx he
    have hkey := hinv.key hx
    rcases hnew with hnew | ⟨row, hnew⟩
    · exact absurd ⟨_, h.known hx, by rw [← he, SealerEnv.eventIdOf, hkey]⟩ hnew
    · obtain ⟨row', hrow', hkey', hcontent', hseq'⟩ := hnew.held.stored
      have hknown := h.known hrow'
      rw [hcontent'] at hknown
      rw [hnew.id, SealerEnv.eventIdOf, SealerEnv.eventIdOf, hkey] at he
      obtain ⟨-, rfl⟩ := eventId_inj hinj (h.known hx) hknown he
      obtain rfl := Option.some.inj (hx.symm.trans hrow')
      exact ⟨row, hnew, rfl, hcontent', hseq'⟩
  constructor
  case ofChain =>
    intro c r' hr'
    by_cases hc : c = r.chainId
    · subst hc
      have hr'' : r' ∈ db.eventChain r.chainId ++ [r] := by simpa [AuditDb.addEvent] using hr'
      rcases List.mem_append.mp hr'' with hr' | hr'
      · exact ⟨(h.ofChain hr').1, hgrow.event (h.ofChain hr').2⟩
      · obtain rfl := List.mem_singleton.mp hr'
        exact ⟨rfl, update_self ..⟩
    · have hr'' : r' ∈ db.eventChain c := by simpa [AuditDb.addEvent, hc] using hr'
      exact ⟨(h.ofChain hr'').1, hgrow.event (h.ofChain hr'').2⟩
  case ofId =>
    intro e r' he
    rcases hevent he with ⟨rfl, rfl⟩ | ⟨-, he⟩
    · exact ⟨rfl, by simp [AuditDb.addEvent]⟩
    · refine ⟨(h.ofId he).1, ?_⟩
      by_cases hc : r'.chainId = r.chainId
      · have := (h.ofId he).2
        rw [hc] at this
        simp [AuditDb.addEvent, hc, this]
      · simpa [AuditDb.addEvent, hc] using (h.ofId he).2
  case nodup =>
    intro c
    by_cases hc : c = r.chainId
    · subst hc
      have hnotMem : r.id ∉ (db.eventChain r.chainId).map EventRow.id := by
        intro hmem
        obtain ⟨r', hr', hid⟩ := List.mem_map.mp hmem
        have := (h.ofChain hr').2
        rw [hid, hfree] at this
        cases this
      have hids : ((db.addEvent r).eventChain r.chainId).map EventRow.id =
          (db.eventChain r.chainId).map EventRow.id ++ [r.id] := by simp [AuditDb.addEvent]
      rw [hids]
      refine List.nodup_append.mpr ⟨h.nodup _, List.nodup_singleton _, ?_⟩
      rintro e he e' he' rfl
      exact hnotMem (List.mem_singleton.mp he' ▸ he)
    · simpa [AuditDb.addEvent, hc] using h.nodup c
  case known => exact h.known
  case origin =>
    intro org x r' hcapture hr'
    rcases hevent hr' with ⟨he, rfl⟩ | ⟨-, hr'⟩
    · rcases hnew with hnew | ⟨row, hnew⟩
      · exact absurd ⟨_, hcapture, he.symm⟩ hnew
      · obtain ⟨row', hrow', hkey', hcontent', hseq'⟩ := hnew.held.stored
        have hknown := h.known hrow'
        rw [hcontent'] at hknown
        rw [hnew.id, SealerEnv.eventIdOf] at he
        obtain ⟨rfl, rfl⟩ := eventId_inj hinj hcapture hknown he
        exact ⟨row', hrow', by rw [hcontent'], hnew.sealedAs.congr hcontent',
          hnew.held.reached.congr hcontent' hseq'⟩
    · exact h.origin hcapture hr'
  case sealed =>
    intro x other hx hs
    obtain ⟨hid, r', hr'⟩ := h.sealed hx hs
    exact ⟨hid, r', hgrow.event hr'⟩
  case order =>
    intro x y row₁ row₂ r₁ r₂ hx hy hc hcat hlt hr₁ hr₂
    rcases hevent hr₁ with ⟨he₁, rfl⟩ | ⟨-, hold₁⟩
    · obtain ⟨row, hnew', -, hcontent, hseq⟩ := hown hx he₁
      rcases hevent hr₂ with ⟨he₂, -⟩ | ⟨-, hold₂⟩
      · obtain ⟨-, hxy⟩ := eventId_inj hinj (h.known hx) (h.known hy) (by
          rw [← hinv.key hx, ← hinv.key hy, ← SealerEnv.eventIdOf, ← SealerEnv.eventIdOf, he₁, he₂])
        subst hxy
        obtain rfl := Option.some.inj (hx.symm.trans hy)
        omega
      · have hlt' := (h.order_addEvent hinv hfree hnew' hy (by rw [← hc, hcontent])
          (by rw [← hcat, hcontent]) hold₂).1
        omega
    · rcases hevent hr₂ with ⟨he₂, rfl⟩ | ⟨-, hold₂⟩
      · obtain ⟨row, hnew', -, hcontent, hseq⟩ := hown hy he₂
        exact (h.order_addEvent hinv hfree hnew' hx (by rw [hc, hcontent])
          (by rw [hcat, hcontent]) hold₁).2
      · exact h.order hx hy hc hcat hlt hold₁ hold₂

end Events

end GovAI
