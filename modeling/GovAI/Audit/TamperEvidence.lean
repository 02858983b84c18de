import GovAI.Audit.SignedFields

/-!
# What `verifyFullChain` detects

The verifier links the columns `sequence_number` and `previous_hmac` of the stored rows to each
other and checks hash and tag of `canonical_bytes`, but it never decodes those bytes: nothing ties
the columns to the values that were signed.  Whoever can write the table can therefore delete,
reorder or duplicate interior rows and rewrite the two columns, without the HMAC key.

`verifyFullChain_detects_iff` is the exact extent of the protection against such a writer: an accepted
row list is an unaltered prefix exactly when its rows still carry the columns that their bytes name,
and these bytes were signed for the chain by an append that committed.
-/

namespace GovAI

/-! ## The signatures an adversary has -/

/-- A call that `auditAppend` has signed on the way to a state. -/
def Signed (crypto : Crypto) (s : AppendState) (call : AppendCall) : Prop :=
  ∃ (s₁ : AppendState) (t : TxId) (acts : List (TxId × AppendAction)),
    (appendSystem crypto).Reachable s₁ ∧ s₁.point t = .calling call ∧
      (appendSystem crypto).Run s₁ acts s

/-- A stored row with the bytes, the tag and the key of a call. -/
structure AppendCall.Carries (call : AppendCall) (r : EventRow) : Prop where
  orgId : call.orgId = r.orgId.toText
  keyId : call.keyId = r.keyId
  keyVersion : call.keyVersion = r.keyVersion
  canonicalBytes : call.canonicalBytes = r.canonicalBytes
  hmac : call.hmac = r.hmac

/-- A stored row whose tag was signed, for its organisation and its key. -/
def SignedRow (crypto : Crypto) (s : AppendState) (r : EventRow) : Prop :=
  ∃ call, Signed crypto s call ∧ call.Carries r

/-- The rows an adversary without the key can store: a tag that verifies was signed. -/
def Unforged (crypto : Crypto) (s : AppendState) (stored : List EventRow) : Prop :=
  ∀ r ∈ stored, hmacVerify (r.hmacContext crypto.kms) r.canonicalBytes r.hmac = true →
    SignedRow crypto s r

section Signing

variable {crypto : Crypto} {s s' : AppendState} {t : TxId} {a : AppendAction} {call : AppendCall}
  {r : EventRow}

/-- What was signed stays signed. -/
lemma Signed.step (h : Signed crypto s call) (hstep : appendStep crypto s t a = some s') :
    Signed crypto s' call := by
  obtain ⟨s₁, u, acts, hs₁, hpoint, hrun⟩ := h
  exact ⟨s₁, u, acts ++ [(t, a)], hs₁, hpoint, hrun.append (.single hstep)⟩

/-- A row that was signed stays signed. -/
lemma SignedRow.step (h : SignedRow crypto s r) (hstep : appendStep crypto s t a = some s') :
    SignedRow crypto s' r := by
  obtain ⟨call, hcall, hcarries⟩ := h
  exact ⟨call, hcall.step hstep, hcarries⟩

/-- The bytes and the tag of a signed call are those of its own fields. -/
lemma Signed.signedCall (h : Signed crypto s call) : SignedCall crypto call := by
  obtain ⟨s₁, u, -, hs₁, hpoint, -⟩ := h
  have hok := (appendInv_of_reachable hs₁).pointOk u
  rw [hpoint] at hok
  exact hok.1

/-- Every row was signed: those in the table, and those about to be inserted. -/
structure RowsSigned (crypto : Crypto) (s : AppendState) : Prop where
  events : ∀ v ∈ s.events, SignedRow crypto s v.row
  inserting : ∀ t row payload, s.point t = .inserting row payload → SignedRow crypto s row

/-- Signed rows stay signed in a step that takes every row from the table or from the point of
insertion, and every row about to be inserted from such a point or from a call. -/
lemma RowsSigned.next (h : RowsSigned crypto s) (hstep : appendStep crypto s t a = some s')
    (hevents : ∀ v ∈ s'.events, (∃ w ∈ s.events, w.row = v.row) ∨
      ∃ payload, s.point t = .inserting v.row payload)
    (hother : ∀ u, u ≠ t → s'.point u = s.point u)
    (hpoint : ∀ row payload, s'.point t = .inserting row payload → SignedRow crypto s row) :
    RowsSigned crypto s' where
  events v hv := by
    rcases hevents v hv with ⟨w, hw, hrow⟩ | ⟨payload, hinsert⟩
    · exact hrow ▸ (h.events w hw).step hstep
    · exact (h.inserting t v.row payload hinsert).step hstep
  inserting u row payload hu := by
    by_cases hut : u = t
    · subst hut
      exact (hpoint row payload hu).step hstep
    · rw [hother u hut] at hu
      exact (h.inserting u row payload hu).step hstep

/-- Moving to a point that inserts nothing keeps the rows signed. -/
lemma RowsSigned.goto {s₀ : AppendState} {p : AppendPoint} (h : RowsSigned crypto s)
    (hstep : appendStep crypto s t a = some (s₀.goto t p)) (hevents : s₀.events = s.events)
    (hpoints : s₀.point = s.point)
    (hp : ∀ row payload, p = .inserting row payload → SignedRow crypto s row) :
    RowsSigned crypto (s₀.goto t p) := by
  refine h.next hstep (fun v hv => .inl ⟨v, hevents ▸ hv, rfl⟩) (fun u hu => ?_)
    fun row payload hrow => hp row payload (by rwa [AppendState.goto_point] at hrow)
  rw [AppendState.goto, hpoints]
  exact Function.update_of_ne hu ..

/-- Ending a transaction keeps the rows signed. -/
lemma RowsSigned.finish {events : List (Version TxId EventRow)}
    {payloads : List (Version TxId PayloadRow)} (h : RowsSigned crypto s)
    (hstep : appendStep crypto s t a = some (s.finish t events payloads))
    (hrows : ∀ v ∈ events, ∃ w ∈ s.events, w.row = v.row) :
    RowsSigned crypto (s.finish t events payloads) := by
  refine h.next hstep (fun v hv => .inl (hrows v hv)) (fun u hu => Function.update_of_ne hu ..)
    fun row payload hrow => ?_
  have hclosed : (s.finish t events payloads).point t = .closed := Function.update_self ..
  rw [hclosed] at hrow
  cases hrow

/-- The row of a call that `audit_append_locked` accepts carries the tag of the call. -/
lemma carries_of_auditAppendLocked {head : Option EventRow} {row : EventRow}
    {payload : Option PayloadRow} (hsession : s.session t = some call.orgId)
    (h : auditAppendLocked (s.session t) call head = .ok (row, payload)) : call.Carries row := by
  obtain ⟨id, orgId, subjectId, -, -, horg, -, -, rfl⟩ := row_of_auditAppendLocked h
  exact ⟨Option.some.inj (hsession.symm.trans horg), rfl, rfl, rfl, rfl⟩

/-- Every step keeps the rows signed. -/
theorem RowsSigned.step (hs : (appendSystem crypto).Reachable s) (h : RowsSigned crypto s)
    (hstep : appendStep crypto s t a = some s') : RowsSigned crypto s' := by
  have hstep' := hstep
  unfold appendStep at hstep
  split at hstep
  case h_1 =>
    obtain rfl := Option.some.inj hstep
    exact h.goto hstep' rfl rfl (by simp)
  case h_2 =>
    split at hstep <;> obtain rfl := Option.some.inj hstep
    · exact h.goto hstep' rfl rfl (by simp)
    · exact h
  case h_3 =>
    dsimp only at hstep
    split_ifs at hstep
    obtain rfl := Option.some.inj hstep
    exact h.goto hstep' rfl rfl (by simp)
  case h_4 =>
    split at hstep <;> obtain rfl := Option.some.inj hstep <;> exact h.goto hstep' rfl rfl (by simp)
  case h_5 =>
    obtain rfl := Option.some.inj hstep
    exact h.goto hstep' rfl rfl (by simp)
  case h_6 =>
    split at hstep <;> obtain rfl := Option.some.inj hstep <;> exact h.goto hstep' rfl rfl (by simp)
  case h_7 call hpoint =>
    have hok := (appendInv_of_reachable hs).pointOk t
    rw [hpoint] at hok
    split_ifs at hstep
    split at hstep <;> obtain rfl := Option.some.inj hstep
    case h_1 row payload hlocked =>
      refine h.goto hstep' rfl rfl fun row' payload' hrow => ?_
      obtain ⟨rfl, rfl⟩ := AppendPoint.inserting.inj hrow
      exact ⟨call, ⟨s, t, [], hs, hpoint, .nil s⟩, carries_of_auditAppendLocked hok.2 hlocked⟩
    case h_2 => exact h.goto hstep' rfl rfl (by simp)
  case h_8 row payload hpoint =>
    dsimp only at hstep
    split_ifs at hstep <;> obtain rfl := Option.some.inj hstep
    · refine h.next hstep' (fun v hv => ?_) (fun u hu => Function.update_of_ne hu ..)
        fun row' payload' hrow => ?_
      · rcases List.mem_append.mp hv with hv | hv
        · exact .inl ⟨v, hv, rfl⟩
        · rw [List.mem_singleton.mp hv]
          exact .inr ⟨payload, hpoint⟩
      · rw [AppendState.goto_point] at hrow
        cases hrow
    · exact h.goto hstep' rfl rfl (by simp)
  case h_9 =>
    obtain rfl := Option.some.inj hstep
    refine h.finish hstep' fun v hv => ?_
    obtain ⟨w, hw, rfl⟩ := List.mem_map.mp hv
    exact ⟨w, hw, by split <;> rfl⟩
  case h_10 => simp at hstep
  case h_11 =>
    obtain rfl := Option.some.inj hstep
    exact h.finish hstep' fun v hv => ⟨v, List.mem_of_mem_filter hv, rfl⟩
  case h_12 => simp at hstep

/-- In every reachable state the rows of the table were signed. -/
theorem rowsSigned_of_reachable (hs : (appendSystem crypto).Reachable s) : RowsSigned crypto s := by
  refine hs.invariant (fun _ hinit => ?_) fun _ _ _ hs h hstep => h.step hs hstep
  rw [hinit]
  exact ⟨by simp [emptyAppendState], by simp [emptyAppendState]⟩

/-- A committed row was signed. -/
lemma signedRow_of_mem_committed (hs : (appendSystem crypto).Reachable s)
    (hr : r ∈ s.committedEvents) : SignedRow crypto s r := by
  obtain ⟨v, hv, rfl⟩ := List.mem_map.mp hr
  exact (rowsSigned_of_reachable hs).events v (List.mem_of_mem_filter hv)

/-- The tag of a signed row is the one of the committed row with the same bytes. -/
lemma SignedRow.hmac_eq (hs : (appendSystem crypto).Reachable s) (h : SignedRow crypto s r)
    {o : EventRow} (ho : o ∈ s.committedEvents) (hbytes : o.canonicalBytes = r.canonicalBytes) :
    o.hmac = r.hmac := by
  obtain ⟨call, hcall, hcarries⟩ := h
  obtain ⟨call', hcall', hcarries'⟩ := signedRow_of_mem_committed hs ho
  -- the bytes name the organisation and the key
  have hsame := EventFields.samePlace hcall'.signedCall.canonicalBytes
    (by rw [hcarries'.canonicalBytes, hbytes, ← hcarries.canonicalBytes]
        exact hcall.signedCall.canonicalBytes)
  have horg : call'.orgId = call.orgId := hsame.orgId
  have hkey : call'.keyId = call.keyId := hsame.keyId
  have hversion : call'.keyVersion = call.keyVersion := hsame.keyVersion
  rw [← hcarries'.hmac, ← hcarries.hmac, ← hcall.signedCall.hmac, ← hcall'.signedCall.hmac, horg,
    hkey, hversion, hcarries.canonicalBytes, hcarries'.canonicalBytes, hbytes]

end Signing

/-! ## What is accepted -/

/-- A stored row `r` that still is the committed row `o`: the signed bytes and the tag are there,
and the two columns that the verifier links are the values signed inside those bytes. -/
structure Unaltered (o r : EventRow) : Prop where
  canonicalBytes : r.canonicalBytes = o.canonicalBytes
  hmac : r.hmac = o.hmac
  sequenceNumber : r.sequenceNumber = o.sequenceNumber
  previousHmac : r.previousHmac = o.previousHmac

/-- The stored rows are, one by one and unaltered, the first rows of the original chain. -/
def UnalteredPrefix (original stored : List EventRow) : Prop :=
  ∃ taken, taken <+: original ∧ List.Forall₂ Unaltered taken stored

/-- What the verifier leaves open about a stored row: its bytes name the chain asked for and the two
linked columns, and an append that committed has signed them. -/
structure ColumnsSigned (s : AppendState) (chainId : String) (r : EventRow) : Prop where
  columns : ∃ e : EventFields, e.canonicalBytes = .ok r.canonicalBytes ∧ e.chainId = chainId ∧
    e.sequenceNumber = r.sequenceNumber ∧ e.previousHmac = r.previousHmac
  committed : ∃ o ∈ s.committedEvents, o.canonicalBytes = r.canonicalBytes

/-- Linked rows that are each an unaltered row of a linked chain are a prefix of it: the sequence
number fixes the place. -/
lemma unalteredPrefix_of_forall {original stored : List EventRow} (horiginal : LinkedRows original)
    (hstored : LinkedRows stored) (h : ∀ r ∈ stored, ∃ o ∈ original, Unaltered o r) :
    UnalteredPrefix original stored := by
  have hplace : ∀ (i : ℕ) (hi : i < stored.length),
      ∃ hi' : i < original.length, Unaltered original[i] stored[i] := by
    intro i hi
    obtain ⟨o, ho, hun⟩ := h stored[i] (List.getElem_mem hi)
    obtain ⟨j, hj, rfl⟩ := List.getElem_of_mem ho
    have hseq := hun.sequenceNumber
    rw [hstored.seq_get i hi, horiginal.seq_get j hj] at hseq
    obtain rfl : i = j := by omega
    exact ⟨hj, hun⟩
  refine ⟨original.take stored.length, List.take_prefix _ _, ?_⟩
  rw [List.forall₂_iff_get]
  have hlen : stored.length ≤ original.length := by
    by_contra hlt
    obtain ⟨hlt', -⟩ := hplace original.length (by omega)
    omega
  refine ⟨by simpa using hlen, fun i h₁ h₂ => ?_⟩
  simpa using (hplace i h₂).2

/-- A committed row of the chain names its own columns. -/
lemma AppendInv.columnsSigned {crypto : Crypto} {s : AppendState} (h : AppendInv crypto s)
    {c : String} {o r : EventRow} (ho : o ∈ s.chain c) (hun : Unaltered o r) :
    ColumnsSigned s c r := by
  obtain ⟨idText, subjectText, -, -, hbytes⟩ := (h.ownFields_chain ho).1
  rw [← hun.canonicalBytes] at hbytes
  exact ⟨⟨o.fields idText subjectText, hbytes, (mem_chain h ho).1, hun.sequenceNumber.symm,
    hun.previousHmac.symm⟩, o, List.mem_of_mem_filter ho, hun.canonicalBytes.symm⟩

/-- A signed row with signed columns is a committed row of the chain. -/
lemma ColumnsSigned.exists_unaltered {crypto : Crypto} {s : AppendState}
    (hs : (appendSystem crypto).Reachable s) {c : String} {r : EventRow}
    (h : ColumnsSigned s c r) (hsigned : SignedRow crypto s r) : ∃ o ∈ s.chain c, Unaltered o r := by
  obtain ⟨⟨e, hbytes, hchain, hseq, hprev⟩, o, ho, hsame⟩ := h
  have hown : o ∈ s.chain o.chainId := List.mem_filter.mpr ⟨ho, by simp⟩
  obtain ⟨idText, subjectText, -, -, horiginal⟩ :=
    ((appendInv_of_reachable hs).ownFields_chain hown).1
  have hplace := EventFields.samePlace horiginal (hsame ▸ hbytes)
  have hplaceChain : o.chainId = e.chainId := hplace.chainId
  have hplaceSeq : o.sequenceNumber = e.sequenceNumber := hplace.sequenceNumber
  have hplacePrev : o.previousHmac = e.previousHmac := hplace.previousHmac
  refine ⟨o, by rwa [hplaceChain, hchain] at hown, hsame.symm, (hsigned.hmac_eq hs ho hsame).symm,
    ?_, ?_⟩
  · rw [hplaceSeq, hseq]
  · rw [hplacePrev, hprev]

/-- The selected rows are rows of the table. -/
lemma mem_of_mem_selectChain {table : List EventRow} {org c : String} {r : EventRow}
    (hr : r ∈ selectChain table org c) : r ∈ table :=
  List.mem_of_mem_filter (List.mem_of_mem_filter ((List.mem_insertionSort _).mp hr))

/-- **What `verifyFullChain` detects.**  For every reachable state and every table that an adversary
without the key has stored in place of the original one: if `verifyFullChain` accepts, the selected
rows are an unaltered prefix of the original chain exactly when the bytes of each of them name its
chain and its two linked columns, and an append that committed has signed them. -/
theorem verifyFullChain_detects_iff {crypto : Crypto} {s : AppendState}
    (hs : (appendSystem crypto).Reachable s) {table : List EventRow} {org chainId : String}
    (hstored : Unforged crypto s table)
    (hvalid : (verifyFullChain crypto table org chainId).valid = true) :
    UnalteredPrefix (s.chain chainId) (selectChain table org chainId) ↔
      ∀ r ∈ selectChain table org chainId, ColumnsSigned s chainId r := by
  have h := appendInv_of_reachable hs
  obtain ⟨hlinked, hauth⟩ := (verifyFullChain_valid_iff ..).mp hvalid
  constructor
  · rintro ⟨taken, htaken, hall⟩ r hr
    obtain ⟨i, hi, rfl⟩ := List.getElem_of_mem hr
    obtain ⟨hlen, hget⟩ := List.forall₂_iff_get.mp hall
    exact h.columnsSigned (htaken.subset (List.getElem_mem (by omega))) (hget i (by omega) hi)
  · intro hcolumns
    refine unalteredPrefix_of_forall (h.linked_chain chainId) hlinked fun r hr => ?_
    have hsigned := hstored r (mem_of_mem_selectChain hr)
      ((hmacVerify_eq_true_iff ..).mpr (hauth r hr).2)
    exact (hcolumns r hr).exists_unaltered hs hsigned

/-- The committed rows are no forgery. -/
lemma unforged_of_subset {crypto : Crypto} {s : AppendState}
    (hs : (appendSystem crypto).Reachable s) {stored : List EventRow}
    (hstored : ∀ r ∈ stored, ∃ o ∈ s.committedEvents, o.orgId = r.orgId ∧ o.keyId = r.keyId ∧
      o.keyVersion = r.keyVersion ∧ o.canonicalBytes = r.canonicalBytes ∧ o.hmac = r.hmac) :
    Unforged crypto s stored := by
  intro r hr _
  obtain ⟨o, ho, horg, hkey, hversion, hbytes, htag⟩ := hstored r hr
  obtain ⟨call, hcall, hcarries⟩ := signedRow_of_mem_committed hs ho
  exact ⟨call, hcall, horg ▸ hcarries.orgId, hkey ▸ hcarries.keyId, hversion ▸ hcarries.keyVersion,
    hbytes ▸ hcarries.canonicalBytes, htag ▸ hcarries.hmac⟩

/-- The theorem at the sample history, with nothing altered. -/
theorem verifyFullChain_detects_iff_sample :
    ∃ s : AppendState, (s.chain (sampleOrg ++ ":run")).length = 3 ∧
      UnalteredPrefix (s.chain (sampleOrg ++ ":run"))
        (selectChain s.committedEvents sampleOrg (sampleOrg ++ ":run")) := by
  obtain ⟨s, r₁, r₂, r₃, hs, -, hchain, horg, -⟩ := reachable_sample
  have h := appendInv_of_reachable hs
  have hvalid := h.verifyFullChain_valid (c := sampleOrg ++ ":run") (by rw [hchain]; exact horg)
  have hstored : Unforged sampleCrypto s s.committedEvents :=
    unforged_of_subset hs fun r hr => ⟨r, hr, rfl, rfl, rfl, rfl, rfl⟩
  refine ⟨s, by rw [hchain]; rfl, (verifyFullChain_detects_iff hs hstored hvalid).mpr fun r hr => ?_⟩
  rw [h.selectChain_committed (by rw [hchain]; exact horg)] at hr
  exact h.columnsSigned hr ⟨rfl, rfl, rfl, rfl⟩

/-- The deletion of the second of three rows: the third one takes its place, with `sequence_number`
and `previous_hmac` rewritten. -/
def deleteSecond (r₁ r₃ : EventRow) : List EventRow :=
  [r₁, { r₃ with sequenceNumber := 2, previousHmac := some r₁.hmac }]

/-- **Deleting an interior row is accepted.**  In a reachable state with three committed rows on a
chain, the table without the second row, the columns of the third one rewritten, holds only tags
that were signed, and `verifyFullChain` accepts it, although it is no prefix of the chain. -/
theorem verifyFullChain_accepts_deletion :
    ∃ (s : AppendState) (table : List EventRow), (appendSystem sampleCrypto).Reachable s ∧
      (∀ b b', sampleCrypto.sha256 b = sampleCrypto.sha256 b' → b = b') ∧
      Unforged sampleCrypto s table ∧
      (verifyFullChain sampleCrypto table sampleOrg (sampleOrg ++ ":run")).valid = true ∧
      ¬UnalteredPrefix (s.chain (sampleOrg ++ ":run"))
        (selectChain table sampleOrg (sampleOrg ++ ":run")) := by
  obtain ⟨s, r₁, r₂, r₃, hs, hcommitted, hchain, horg, htags⟩ := reachable_sample
  have h := appendInv_of_reachable hs
  have hmem : ∀ r ∈ [r₁, r₂, r₃], r.chainId = sampleOrg ++ ":run" ∧ Authentic sampleCrypto r := by
    intro r hr
    rw [← hchain] at hr
    exact ⟨(mem_chain h hr).1, (h.ownFields_chain hr).2⟩
  obtain ⟨⟨hseq₁, hprev₁, -⟩, -⟩ : LinkedRows [r₁, r₂, r₃] ∧ True :=
    ⟨hchain ▸ h.linked_chain _, trivial⟩
  have hlinked : LinkedRows (deleteSecond r₁ r₃) := ⟨hseq₁, hprev₁, rfl, rfl, trivial⟩
  have hselect : selectChain (deleteSecond r₁ r₃) sampleOrg (sampleOrg ++ ":run") =
      deleteSecond r₁ r₃ := by
    refine selectChain_eq_self hlinked (fun r hr => ?_) fun r hr => ?_
    · rcases List.mem_pair.mp hr with rfl | rfl
      · exact (hmem r (by simp)).1
      · exact (hmem r₃ (by simp)).1
    · rcases List.mem_pair.mp hr with rfl | rfl
      · exact horg r (by simp)
      · exact horg r₃ (by simp)
  refine ⟨s, deleteSecond r₁ r₃, hs, fun b b' hb => hb, unforged_of_subset hs fun r hr => ?_, ?_, ?_⟩
  · rw [hcommitted]
    rcases List.mem_pair.mp hr with rfl | rfl
    · exact ⟨r, by simp, rfl, rfl, rfl, rfl, rfl⟩
    · exact ⟨r₃, by simp, rfl, rfl, rfl, rfl, rfl⟩
  · rw [verifyFullChain_valid_iff, hselect]
    refine ⟨hlinked, fun r hr => ?_⟩
    rcases List.mem_pair.mp hr with rfl | rfl
    · exact (hmem r (by simp)).2
    · exact (hmem r₃ (by simp)).2
  · -- the second stored row would have to carry the tag of the deleted one
    rw [hselect, hchain]
    rintro ⟨taken, htaken, hall⟩
    obtain ⟨o₁, o₂, rfl, -, hun⟩ : ∃ o₁ o₂, taken = [o₁, o₂] ∧ Unaltered o₁ r₁ ∧
        Unaltered o₂ { r₃ with sequenceNumber := 2, previousHmac := some r₁.hmac } := by
      cases hall with
      | cons h₁ hrest =>
        cases hrest with
        | cons h₂ hnil =>
          cases hnil
          exact ⟨_, _, rfl, h₁, h₂⟩
    obtain ⟨rest, hrest⟩ := htaken
    simp only [List.cons_append, List.nil_append, List.cons.injEq] at hrest
    exact htags (hrest.2.1 ▸ hun.hmac.symm)

end GovAI
