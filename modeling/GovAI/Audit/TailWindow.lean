import GovAI.Audit.ChainIntegrity

/-!
# Verifying the tail of a chain

`verifyTailWindow` of `packages/core-audit/src/verify.ts`: the last rows of a chain are read and one
loop checks the canonical hash, the HMAC and the link of each row to the row before it.  It starts from
the `previous_hmac` of its first row, compares no sequence numbers and skips a row whose
`previous_hmac` is NULL, so on a window that holds the whole chain it accepts more than
`verifyFullChain`; `verifyTailWindow_agrees_iff` says exactly when.
-/

namespace GovAI

/-- The checks of one row, in the order of the loop body; the result is the reason to reject. -/
def checkTailRow (crypto : Crypto) (prev : Option Bytes) (row : EventRow) : Option String :=
  let seq := toString row.sequenceNumber
  if crypto.sha256 row.canonicalBytes ≠ row.canonicalHash then
    some ("canonical_hash mismatch at seq " ++ seq)
  else if !hmacVerify (row.hmacContext crypto.kms) row.canonicalBytes row.hmac then
    some ("hmac mismatch at seq " ++ seq)
  else if prev.isSome ∧ row.previousHmac.isSome ∧ prev ≠ row.previousHmac then
    some ("previous_hmac chain break at seq " ++ seq)
  else none

/-- The loop of `verifyTailWindow`. -/
def verifyTailRows (crypto : Crypto) (total : ℕ) (prev : Option Bytes) : List EventRow → VerifyResult
  | [] => { valid := true, events := total, firstInvalidSeq := none, reason := none }
  | row :: rest =>
      match checkTailRow crypto prev row with
      | some reason =>
          { valid := false, events := total, firstInvalidSeq := some row.sequenceNumber,
            reason := some reason }
      | none => verifyTailRows crypto total (some row.hmac) rest

/-- `ORDER BY sequence_number DESC LIMIT`, put back in ascending order.  The sequence numbers of a
chain are unique, so the two orders are the reverse of each other. -/
def selectTail (table : List EventRow) (org chainId : String) (windowSize : ℕ) : List EventRow :=
  ((selectChain table org chainId).reverse.take windowSize).reverse

/-- `verifyTailWindow` on the stored rows `table`, in a session of the organisation `org`. -/
def verifyTailWindow (crypto : Crypto) (table : List EventRow) (org chainId : String)
    (windowSize : ℕ) : VerifyResult :=
  let rows := selectTail table org chainId windowSize
  if rows.length = 0 then
    { valid := true, events := 0, firstInvalidSeq := none, reason := none }
  else verifyTailRows crypto rows.length (rows.head?.bind EventRow.previousHmac) rows

/-! ## What acceptance means -/

/-- No row has a `previous_hmac` other than NULL and the HMAC of the row before it. -/
def Unbroken (rows : List EventRow) : Prop :=
  rows.IsChain fun a b => b.previousHmac = none ∨ b.previousHmac = some a.hmac

/-- The rows have the positions `1, 2, …`. -/
def Positioned (rows : List EventRow) : Prop :=
  ∀ (i : ℕ) (hi : i < rows.length), rows[i].sequenceNumber = i + 1

/-- `previous_hmac` is NULL in the first row and in no other. -/
def NullExactlyFirst (rows : List EventRow) : Prop :=
  (∀ r ∈ rows.head?, r.previousHmac = none) ∧ ∀ r ∈ rows.tail, r.previousHmac ≠ none

/-- A row passes when it is authentic and does not break the link. -/
lemma checkTailRow_eq_none_iff (crypto : Crypto) (prev : Option Bytes) (row : EventRow) :
    checkTailRow crypto prev row = none ↔
      Authentic crypto row ∧ (prev = none ∨ row.previousHmac = none ∨ row.previousHmac = prev) := by
  have hlink : (prev = none ∨ row.previousHmac = none ∨ row.previousHmac = prev) ↔
      ¬(prev.isSome ∧ row.previousHmac.isSome ∧ prev ≠ row.previousHmac) := by
    cases prev <;> cases row.previousHmac <;> simp [eq_comm]
  unfold checkTailRow Authentic
  rw [hlink, ← hmacVerify_eq_true_iff]
  split_ifs with h₁ h₂ h₃ <;> simp_all

/-- The loop accepts exactly authentic rows without a broken link. -/
lemma verifyTailRows_cons_valid_iff (crypto : Crypto) (total : ℕ) (first : EventRow)
    (rows : List EventRow) :
    (verifyTailRows crypto total (some first.hmac) rows).valid = true ↔
      (∀ r ∈ rows, Authentic crypto r) ∧ Unbroken (first :: rows) := by
  induction rows generalizing first with
  | nil => simp [verifyTailRows, Unbroken]
  | cons row rest ih =>
    have hstep : Unbroken (first :: row :: rest) ↔
        (row.previousHmac = none ∨ row.previousHmac = some first.hmac) ∧ Unbroken (row :: rest) :=
      List.isChain_cons_cons
    rw [verifyTailRows, hstep, List.forall_mem_cons]
    cases hcheck : checkTailRow crypto (some first.hmac) row with
    | some reason =>
      have hno := (checkTailRow_eq_none_iff crypto (some first.hmac) row).not.mp (by simp [hcheck])
      simp only [Bool.false_eq_true, false_iff]
      rintro ⟨⟨hauth, -⟩, hlink, -⟩
      exact hno ⟨hauth, .inr hlink⟩
    | none =>
      obtain ⟨hauth, hlink⟩ := (checkTailRow_eq_none_iff ..).mp hcheck
      have hlink' : row.previousHmac = none ∨ row.previousHmac = some first.hmac := by simpa using hlink
      simp only [ih, hauth, hlink', true_and]

/-- **What `verifyTailWindow` establishes** of the rows it reads. -/
theorem verifyTailWindow_valid_iff (crypto : Crypto) (table : List EventRow) (org chainId : String)
    (windowSize : ℕ) :
    (verifyTailWindow crypto table org chainId windowSize).valid = true ↔
      (∀ r ∈ selectTail table org chainId windowSize, Authentic crypto r) ∧
        Unbroken (selectTail table org chainId windowSize) := by
  unfold verifyTailWindow
  cases hrows : selectTail table org chainId windowSize with
  | nil => simp [Unbroken]
  | cons first rest =>
    have hfirst : checkTailRow crypto first.previousHmac first = none ↔ Authentic crypto first := by
      rw [checkTailRow_eq_none_iff]
      simp
    simp only [List.length_cons, Nat.add_eq_zero_iff, one_ne_zero, and_false, ↓reduceIte,
      List.head?_cons, Option.bind_some, List.forall_mem_cons]
    rw [verifyTailRows]
    cases hcheck : checkTailRow crypto first.previousHmac first with
    | some reason =>
      have hno := hfirst.not.mp (by simp [hcheck])
      simp [hno]
    | none => simp only [verifyTailRows_cons_valid_iff, hfirst.mp hcheck, true_and]

/-! ## The two verifications -/

/-- Linked rows are positioned, have NULL exactly in the first row, and are unbroken. -/
lemma linkedRows_iff (rows : List EventRow) :
    LinkedRows rows ↔ Positioned rows ∧ NullExactlyFirst rows ∧ Unbroken rows := by
  have hsplit : (rows.IsChain fun a b => b.previousHmac = some a.hmac) ↔
      (∀ r ∈ rows.tail, r.previousHmac ≠ none) ∧ Unbroken rows := by
    induction rows with
    | nil => simp [Unbroken]
    | cons a rows ih =>
      cases rows with
      | nil => simp [Unbroken]
      | cons b rest =>
        have hrest : Unbroken (a :: b :: rest) ↔
            (b.previousHmac = none ∨ b.previousHmac = some a.hmac) ∧ Unbroken (b :: rest) :=
          List.isChain_cons_cons
        rw [List.isChain_cons_cons, ih, hrest, List.tail_cons, List.tail_cons, List.forall_mem_cons]
        constructor
        · rintro ⟨hb, hnull, hunbroken⟩
          exact ⟨⟨by rw [hb]; exact Option.some_ne_none _, hnull⟩, .inr hb, hunbroken⟩
        · rintro ⟨⟨hb, hnull⟩, hlink, hunbroken⟩
          exact ⟨hlink.resolve_left hb, hnull, hunbroken⟩
  rw [LinkedRows, Linked, linkedFrom_iff, hsplit]
  simp only [Positioned, NullExactlyFirst, zero_add, and_assoc]

/-- A window is a final part of the chain. -/
lemma selectTail_eq_drop (table : List EventRow) (org chainId : String) (windowSize : ℕ) :
    selectTail table org chainId windowSize = (selectChain table org chainId).drop
      ((selectChain table org chainId).length - windowSize) := by
  rw [selectTail, List.take_reverse, List.reverse_reverse]

/-- A window that is large enough is the chain. -/
lemma selectTail_eq_self {table : List EventRow} {org chainId : String} {windowSize : ℕ}
    (h : (selectChain table org chainId).length ≤ windowSize) :
    selectTail table org chainId windowSize = selectChain table org chainId := by
  rw [selectTail_eq_drop, Nat.sub_eq_zero_of_le h, List.drop_zero]

/-- What the whole chain satisfies, every window does. -/
theorem verifyTailWindow_of_verifyFullChain {crypto : Crypto} {table : List EventRow}
    {org chainId : String} (windowSize : ℕ)
    (h : (verifyFullChain crypto table org chainId).valid = true) :
    (verifyTailWindow crypto table org chainId windowSize).valid = true := by
  obtain ⟨hlinked, hauth⟩ := (verifyFullChain_valid_iff ..).mp h
  obtain ⟨-, -, hunbroken⟩ := (linkedRows_iff _).mp hlinked
  rw [verifyTailWindow_valid_iff, selectTail_eq_drop]
  exact ⟨fun r hr => hauth r (List.mem_of_mem_drop hr), hunbroken.suffix (List.drop_suffix _ _)⟩

/-- The two verifications agree: on a window that holds the whole chain they accept the same rows, and
on a smaller one the tail accepts what the chain does. -/
def TailAgrees (crypto : Crypto) (table : List EventRow) (org chainId : String) (windowSize : ℕ) :
    Prop :=
  if (selectChain table org chainId).length ≤ windowSize then
    (verifyTailWindow crypto table org chainId windowSize).valid = true ↔
      (verifyFullChain crypto table org chainId).valid = true
  else
    (verifyFullChain crypto table org chainId).valid = true →
      (verifyTailWindow crypto table org chainId windowSize).valid = true

/-- **When the tail window agrees with the whole chain.**  For every stored rows and every window: the
window is smaller than the chain, or the rows are numbered from 1 with a NULL `previous_hmac` exactly
in the first one, or a row is not authentic, or a row names another predecessor than the row before
it. -/
theorem verifyTailWindow_agrees_iff (crypto : Crypto) (table : List EventRow) (org chainId : String)
    (windowSize : ℕ) :
    TailAgrees crypto table org chainId windowSize ↔
      windowSize < (selectChain table org chainId).length ∨
        (Positioned (selectChain table org chainId) ∧
          NullExactlyFirst (selectChain table org chainId)) ∨
        (∃ r ∈ selectChain table org chainId, ¬Authentic crypto r) ∨
        ¬Unbroken (selectChain table org chainId) := by
  unfold TailAgrees
  split
  · next hsize =>
    rw [verifyTailWindow_valid_iff, selectTail_eq_self hsize, verifyFullChain_valid_iff,
      linkedRows_iff]
    have hlt : ¬windowSize < (selectChain table org chainId).length := not_lt.mpr hsize
    have hauth : (∃ r ∈ selectChain table org chainId, ¬Authentic crypto r) ↔
        ¬∀ r ∈ selectChain table org chainId, Authentic crypto r := by
      push Not
      rfl
    rw [hauth]
    tauto
  · next hsize =>
    exact iff_of_true (verifyTailWindow_of_verifyFullChain windowSize) (.inl (not_le.mp hsize))

/-- An authentic row at position 2 that names a predecessor. -/
def sampleTailRow : EventRow where
  id := 2
  orgId := BitVec.ofNat 128 0x11111111111141118111111111111111
  chainId := sampleOrg ++ ":run"
  sequenceNumber := 2
  eventType := "run.denied"
  eventVersion := "v1"
  subjectType := "run"
  subjectId := 0
  occurredAt := 1700000000000
  payloadHash := []
  payloadRef := none
  redactionMetadata := .obj []
  previousHmac := some [1]
  hmac := [0]
  canonicalHash := []
  canonicalBytes := []
  keyId := "k1"
  keyVersion := 1
  evidenceStrength := .hmacInternal

/-- A chain that has lost its first row: a window of the whole chain accepts it, `verifyFullChain` does
not. -/
theorem verifyTailWindow_not_agrees :
    ¬∀ (crypto : Crypto) (table : List EventRow) (org chainId : String) (windowSize : ℕ),
      0 < windowSize → TailAgrees crypto table org chainId windowSize := by
  intro hclaim
  have h := hclaim sampleCrypto [sampleTailRow] sampleOrg (sampleOrg ++ ":run") 32 (by decide)
  have hlength : (selectChain [sampleTailRow] sampleOrg (sampleOrg ++ ":run")).length ≤ 32 := by
    decide +kernel
  rw [TailAgrees, if_pos hlength] at h
  have htail : (verifyTailWindow sampleCrypto [sampleTailRow] sampleOrg (sampleOrg ++ ":run")
      32).valid = true := by decide +kernel
  have hfull : (verifyFullChain sampleCrypto [sampleTailRow] sampleOrg
      (sampleOrg ++ ":run")).valid = false := by decide +kernel
  rw [h.mp htail] at hfull
  cases hfull

end GovAI
