import GovAI.Audit.Append
import GovAI.Library.LinkedChain

/-!
# Verifying the audit chain

`verifyFullChain` of `packages/core-audit/src/verify.ts`: the rows of a chain are read in the order
of their sequence numbers, and one loop checks the sequence numbers, the copies of the previous
HMAC, the canonical hash and the HMAC of each row.  `verifyRows_valid_iff` says what acceptance
means: the rows are linked by their *columns*, and each row's hash and tag fit its own bytes.
-/

namespace GovAI

/-- `VerifyResult`. -/
structure VerifyResult where
  valid : Bool
  events : ℕ
  firstInvalidSeq : Option ℤ
  reason : Option String
deriving DecidableEq

/-- The checks of one row, in the order of the loop body; the result is the reason to reject. -/
def checkRow (crypto : Crypto) (expectedSeq : ℤ) (prev : Option Bytes) (row : EventRow) :
    Option String :=
  let seq := toString row.sequenceNumber
  if row.sequenceNumber ≠ expectedSeq then
    some ("sequence gap: expected " ++ toString expectedSeq ++ ", got " ++ seq)
  else if prev.isNone ≠ row.previousHmac.isNone then
    some ("previous_hmac null mismatch at seq " ++ seq)
  else if prev.isSome ∧ row.previousHmac.isSome ∧ prev ≠ row.previousHmac then
    some ("previous_hmac chain break at seq " ++ seq)
  else if crypto.sha256 row.canonicalBytes ≠ row.canonicalHash then
    some ("canonical_hash mismatch at seq " ++ seq)
  else if !hmacVerify (row.hmacContext crypto.kms) row.canonicalBytes row.hmac then
    some ("hmac mismatch at seq " ++ seq)
  else none

/-- The loop of `verifyFullChain`. -/
def verifyRows (crypto : Crypto) (total : ℕ) (expectedSeq : ℤ) (prev : Option Bytes) :
    List EventRow → VerifyResult
  | [] => { valid := true, events := total, firstInvalidSeq := none, reason := none }
  | row :: rest =>
      match checkRow crypto expectedSeq prev row with
      | some reason =>
          { valid := false, events := total, firstInvalidSeq := some row.sequenceNumber,
            reason := some reason }
      | none => verifyRows crypto total (expectedSeq + 1) (some row.hmac) rest

/-- `ORDER BY sequence_number ASC`. -/
def orderBySequence (rows : List EventRow) : List EventRow :=
  rows.insertionSort fun a b => a.sequenceNumber ≤ b.sequenceNumber

/-- The rows of `table` that a session of the organisation `org` reads for a chain. -/
def selectChain (table : List EventRow) (org chainId : String) : List EventRow :=
  orderBySequence (chainRows chainId (table.filter fun r => r.orgId.toText = org))

/-- `verifyFullChain` on the stored rows `table`, in a session of the organisation `org`. -/
def verifyFullChain (crypto : Crypto) (table : List EventRow) (org chainId : String) :
    VerifyResult :=
  let rows := selectChain table org chainId
  if rows.length = 0 then
    { valid := true, events := 0, firstInvalidSeq := none, reason := none }
  else verifyRows crypto rows.length 1 none rows

/-! ## What acceptance means -/

/-- Rows linked by their columns: positions from one, each row carrying the tag of the row before
it. -/
abbrev LinkedRows (rows : List EventRow) : Prop :=
  Linked EventRow.sequenceNumber EventRow.previousHmac EventRow.hmac rows

/-- The hash and the tag of a row fit its canonical bytes. -/
def Authentic (crypto : Crypto) (r : EventRow) : Prop :=
  crypto.sha256 r.canonicalBytes = r.canonicalHash ∧
    hmacSign (r.hmacContext crypto.kms) r.canonicalBytes = r.hmac

/-- A row passes when it has the expected position and previous tag and is authentic. -/
theorem checkRow_eq_none_iff (crypto : Crypto) (expectedSeq : ℤ) (prev : Option Bytes)
    (row : EventRow) :
    checkRow crypto expectedSeq prev row = none ↔
      row.sequenceNumber = expectedSeq ∧ row.previousHmac = prev ∧ Authentic crypto row := by
  have hprev : row.previousHmac = prev ↔
      prev.isNone = row.previousHmac.isNone ∧
        ¬(prev.isSome ∧ row.previousHmac.isSome ∧ prev ≠ row.previousHmac) := by
    cases prev <;> cases row.previousHmac <;> simp [eq_comm]
  unfold checkRow Authentic
  rw [hprev, ← hmacVerify_eq_true_iff]
  split_ifs with h₁ h₂ h₃ h₄ h₅ <;> simp_all

/-- The loop accepts exactly the rows that continue the chain and are authentic. -/
theorem verifyRows_valid_iff (crypto : Crypto) (total : ℕ) (expectedSeq : ℤ) (prev : Option Bytes)
    (rows : List EventRow) :
    (verifyRows crypto total expectedSeq prev rows).valid = true ↔
      LinkedFrom EventRow.sequenceNumber EventRow.previousHmac EventRow.hmac (expectedSeq - 1)
        prev rows ∧ ∀ r ∈ rows, Authentic crypto r := by
  induction rows generalizing expectedSeq prev with
  | nil => simp [verifyRows]
  | cons row rest ih =>
    rw [verifyRows]
    cases hcheck : checkRow crypto expectedSeq prev row with
    | some reason =>
      have hno : ¬(row.sequenceNumber = expectedSeq ∧ row.previousHmac = prev ∧
          Authentic crypto row) := by
        rw [← checkRow_eq_none_iff, hcheck]
        simp
      simp only [linkedFrom_cons, sub_add_cancel, List.forall_mem_cons, Bool.false_eq_true,
        false_iff]
      tauto
    | none =>
      obtain ⟨hseq, hprev, hauth⟩ := (checkRow_eq_none_iff ..).mp hcheck
      simp only [ih, linkedFrom_cons, sub_add_cancel, List.forall_mem_cons, add_sub_cancel_right,
        hseq, hprev, hauth, true_and]

/-- An accepted chain is reported with its number of rows and without a reason. -/
theorem verifyRows_eq_of_valid (crypto : Crypto) (total : ℕ) (expectedSeq : ℤ)
    (prev : Option Bytes) (rows : List EventRow)
    (h : (verifyRows crypto total expectedSeq prev rows).valid = true) :
    verifyRows crypto total expectedSeq prev rows =
      { valid := true, events := total, firstInvalidSeq := none, reason := none } := by
  induction rows generalizing expectedSeq prev with
  | nil => rfl
  | cons row rest ih =>
    rw [verifyRows] at h ⊢
    cases hcheck : checkRow crypto expectedSeq prev row with
    | some reason => simp [hcheck] at h
    | none =>
      simp only [hcheck] at h ⊢
      exact ih _ _ h

/-- **What `verifyFullChain` establishes.**  It accepts exactly when the selected rows are linked by
their columns and each of them is authentic. -/
theorem verifyFullChain_valid_iff (crypto : Crypto) (table : List EventRow) (org chainId : String) :
    (verifyFullChain crypto table org chainId).valid = true ↔
      LinkedRows (selectChain table org chainId) ∧
        ∀ r ∈ selectChain table org chainId, Authentic crypto r := by
  unfold verifyFullChain
  by_cases hlen : (selectChain table org chainId).length = 0
  · simp [List.length_eq_zero_iff.mp hlen]
  · simp only [hlen, ↓reduceIte, verifyRows_valid_iff, sub_self]

/-- The result of an accepting run. -/
theorem verifyFullChain_eq_of_valid (crypto : Crypto) (table : List EventRow)
    (org chainId : String) (h : (verifyFullChain crypto table org chainId).valid = true) :
    verifyFullChain crypto table org chainId =
      { valid := true, events := (selectChain table org chainId).length,
        firstInvalidSeq := none, reason := none } := by
  unfold verifyFullChain at h ⊢
  by_cases hlen : (selectChain table org chainId).length = 0
  · simp [hlen]
  · simp only [hlen, ↓reduceIte] at h ⊢
    exact verifyRows_eq_of_valid _ _ _ _ _ h

/-! ## Linked rows read back in order -/

/-- The head of linked rows is their last row. -/
theorem headRow_eq_getLast? {rows : List EventRow}
    (h : rows.Pairwise fun a b => a.sequenceNumber < b.sequenceNumber) :
    headRow rows = rows.getLast? := by
  induction rows with
  | nil => rfl
  | cons r rs ih =>
    obtain ⟨hr, hrs⟩ := List.pairwise_cons.mp h
    rw [headRow, ih hrs, List.getLast?_cons]
    cases hlast : rs.getLast? with
    | none => rfl
    | some l =>
      have hl : r.sequenceNumber < l.sequenceNumber := hr l (List.mem_of_getLast? hlast)
      simp [not_lt.mpr hl.le]

/-- Linked rows are read back in the order in which they were inserted. -/
theorem orderBySequence_eq_self {rows : List EventRow} (h : LinkedRows rows) :
    orderBySequence rows = rows :=
  List.Pairwise.insertionSort_eq (h.pairwise_lt.imp fun hab => hab.le)

end GovAI
