import GovAI.Evidence.Reports
import Mathlib.Data.String.Basic

/-!
# Paging through the evidence gaps

`GET /v1/evidence/gaps` cuts a gap list by `LIMIT` and `OFFSET` and names the next offset after a
full page.  The lists of captures and of invocations are ordered by a time alone.  Rows of one
transaction have the same time, each page is a query of its own, and the database may order such
rows differently each time.  The pages show every gap once, whatever it chooses, exactly if no page
ends among gaps of one time (`gapPages_perm_iff`); gaps of chains are ordered by the chain and
always show once.
-/

namespace GovAI

/-- The invariants of `GapsQuery`. -/
inductive GapInvariant where
  | ec1
  | ec2
  | ec3seal
  | ec3drop
  | ec4
deriving DecidableEq

/-- An item of the answer. -/
inductive GapItem where
  | ec1 (row : Ec1GapRow)
  | ec2 (row : Ec2GapRow)
  | ec3seal (row : Ec3SealRow)
  | ec3drop (estimate : DropEstimate)
  | ec4 (row : ProviderInvocation)

section Route

variable {db : EvidenceTables} {now : ℤ} {window : ReportWindow} {κ : Type} [LinearOrder κ]
  {collate : String ↪ κ} (orders : GapOrders db now window collate)

/-- The `items` of the answer. -/
def gapItems (invariant : GapInvariant) (limit cursor : ℕ) : List GapItem :=
  let scope : ReportScope := { window with sampleLimit := some limit, offset := some cursor }
  match invariant with
  | .ec1 => (ec1GapList orders scope).map .ec1
  | .ec2 => (ec2Gaps orders scope).map .ec2
  | .ec3seal => (ec3SealList orders scope).map .ec3seal
  | .ec3drop => if cursor = 0 then [.ec3drop (nativeDropEstimate zeroDropSnapshot)] else []
  | .ec4 => (ec4List orders scope).map .ec4

/-- The answer of `GET /v1/evidence/gaps`: `items` and `next_cursor`. -/
def evidenceGaps (invariant : GapInvariant) (limit cursor : ℕ) : List GapItem × Option ℕ :=
  let items := gapItems orders invariant limit cursor
  (items, if invariant = .ec3drop then none
    else if items.length = limit then some (cursor + limit) else none)

/-- What a client has read that follows `next_cursor` from 0 until it is null. -/
def readGaps (invariant : GapInvariant) (limit fuel : ℕ) : Option (List GapItem) :=
  followPages (fun after => some (evidenceGaps orders invariant limit (after.getD 0))) fuel (some 0)

end Route

variable (db : EvidenceTables) (now : ℤ) (window : ReportWindow)

/-- The gaps of an invariant. -/
def gapRows : GapInvariant → List GapItem
  | .ec1 => (ec1GapRows db now window).map .ec1
  | .ec2 => (ec2GapRows db now window).map .ec2
  | .ec3seal => (ec3SealRows db now window).map .ec3seal
  | .ec3drop => [.ec3drop (nativeDropEstimate zeroDropSnapshot)]
  | .ec4 => (ec4Rows db now window).map .ec4

/-- No page ends among gaps of one time. -/
def GapTiesFit (limit : ℕ) : GapInvariant → Prop
  | .ec1 => TiesFit (fun row => -row.capturedAt) limit (ec1GapRows db now window)
  | .ec3seal => TiesFit (fun row => row.capturedAt) limit (ec3SealRows db now window)
  | .ec4 => TiesFit (fun row => -row.createdAt) limit (ec4Rows db now window)
  | .ec2 | .ec3drop => True

/-! ## The rows of a list differ -/

/-- No two rows of the list of captures are the same. -/
lemma ec1GapRows_nodup : (ec1GapRows db now window).Nodup := by
  refine List.Nodup.of_map Ec1GapRow.captureId ?_
  rw [ec1GapRows, List.map_map]
  exact db.captureIds_nodup.sublist (List.filter_sublist.map _)

/-- No two rows of the list of native captures are the same. -/
lemma ec3SealRows_nodup : (ec3SealRows db now window).Nodup := by
  refine List.Nodup.of_map Ec3SealRow.captureId ?_
  rw [ec3SealRows, List.map_map]
  exact db.captureIds_nodup.sublist (List.filter_sublist.map _)

/-- No two rows of the list of invocations are the same. -/
lemma ec4Rows_nodup : (ec4Rows db now window).Nodup := by
  refine List.Nodup.of_map ProviderInvocation.id ?_
  rw [ec4Rows, evidenceProviderWithoutAudit]
  exact db.invocationIds_nodup.sublist ((List.filter_sublist.trans List.filter_sublist).map _)

/-- A row of the list of chains names its chain. -/
lemma ec2GapRowOf_chainId {chainId : String} {row : Ec2GapRow}
    (h : ec2GapRowOf db now window chainId = some row) : row.chainId = chainId := by
  obtain ⟨_, -, rfl⟩ := Option.map_eq_some_iff.mp h
  rfl

/-- Each chain has one row at most. -/
lemma ec2GapRows_chainIds_nodup : ((ec2GapRows db now window).map (·.chainId)).Nodup := by
  have hsub : ((ec2GapRows db now window).map (·.chainId)).Sublist
      (chainsInWindow db now window) := by
    rw [ec2GapRows]
    induction chainsInWindow db now window with
    | nil => exact List.Sublist.slnil
    | cons chainId chains ih =>
      rw [List.filterMap_cons]
      cases hrow : ec2GapRowOf db now window chainId with
      | none => exact ih.cons _
      | some row =>
        rw [List.map_cons, ec2GapRowOf_chainId db now window hrow]
        exact ih.cons_cons _
  exact (List.nodup_dedup _).sublist hsub

/-- No chain ties with another one. -/
lemma ec2GapRows_tiesFit {κ : Type} [LinearOrder κ] (collate : String ↪ κ) (limit : ℕ) :
    TiesFit (fun row : Ec2GapRow => collate row.chainId) limit (ec2GapRows db now window) := by
  refine tiesFit_of_nodup ?_ limit
  have h := (ec2GapRows_chainIds_nodup db now window).map collate.injective
  rwa [List.map_map] at h

/-! ## Reading all pages -/

section Reading

variable {db now window} {κ κ' ρ : Type} [LinearOrder κ] [LinearOrder κ'] {collate : String ↪ κ}
  (orders : GapOrders db now window collate) {invariant : GapInvariant} {limit : ℕ} {f : ρ → GapItem}
  {list : ℕ → List ρ}

/-- The items of a request for captures. -/
lemma gapItems_ec1 (hmax : limit ≤ 500) (cursor : ℕ) : gapItems orders .ec1 limit cursor =
    (offsetPage limit cursor (orders.ec1 cursor)).map .ec1 := by
  simp [gapItems, ec1GapList, sampleLimitOf, min_eq_left hmax]

/-- The items of a request for chains. -/
lemma gapItems_ec2 (hmax : limit ≤ 500) (cursor : ℕ) : gapItems orders .ec2 limit cursor =
    (offsetPage limit cursor (orders.ec2 cursor)).map .ec2 := by
  simp [gapItems, ec2Gaps, sampleLimitOf, min_eq_left hmax]

/-- The items of a request for native captures. -/
lemma gapItems_ec3seal (hmax : limit ≤ 500) (cursor : ℕ) : gapItems orders .ec3seal limit cursor =
    (offsetPage limit cursor (orders.ec3seal cursor)).map .ec3seal := by
  simp [gapItems, ec3SealList, sampleLimitOf, min_eq_left hmax]

/-- The items of a request for invocations. -/
lemma gapItems_ec4 (hmax : limit ≤ 500) (cursor : ℕ) : gapItems orders .ec4 limit cursor =
    (offsetPage limit cursor (orders.ec4 cursor)).map .ec4 := by
  simp [gapItems, ec4List, sampleLimitOf, min_eq_left hmax]

/-- A client of a list that is cut by offsets reads the pages of `offsetVisit`. -/
lemma readGaps_eq (hlimit : 0 < limit) (hdrop : invariant ≠ .ec3drop)
    (hlist : ∀ cursor, gapItems orders invariant limit cursor =
      (offsetPage limit cursor (list cursor)).map f) {n : ℕ} (hn : ∀ c, (list c).length = n) :
    readGaps orders invariant limit (n / limit + 1) =
      some ((offsetVisit list limit n).map f) := by
  have hrequest : (fun after => some (evidenceGaps orders invariant limit (after.getD 0))) =
      fun after => (offsetRequest list limit after).map fun answer => (answer.1.map f, answer.2) := by
    funext after
    simp [evidenceGaps, offsetRequest, offsetAnswer, hlist, hdrop]
  rw [readGaps, hrequest, followPages_map, followOffsets_eq hlimit hn, Option.map_some]

/-- A client of a list that is cut by offsets reads as many items as there are rows. -/
lemma readGaps_length (hlimit : 0 < limit) (hdrop : invariant ≠ .ec3drop)
    (hlist : ∀ cursor, gapItems orders invariant limit cursor =
      (offsetPage limit cursor (list cursor)).map f) {rows : List ρ} {key : ρ → κ'}
    (hordered : ∀ c, IsOrdered key rows (list c)) : ∃ items,
    readGaps orders invariant limit ((rows.map f).length / limit + 1) = some items ∧
      items.length = rows.length := by
  have hlength := fun c => (hordered c).perm.length_eq
  rw [List.length_map, readGaps_eq orders hlimit hdrop hlist hlength]
  refine ⟨_, rfl, ?_⟩
  rw [List.length_map, followOffsets_length hlimit hlength]

/-- Every item of a list that is cut by offsets is read once, if it is so for the rows. -/
lemma readGaps_perm_iff (hlimit : 0 < limit) (hdrop : invariant ≠ .ec3drop)
    (hf : Function.Injective f) {rows : List ρ} {key : ρ → κ'}
    (hlist : ∀ cursor, gapItems orders invariant limit cursor =
      (offsetPage limit cursor (list cursor)).map f) (hordered : ∀ c, IsOrdered key rows (list c)) :
    (∃ items, readGaps orders invariant limit ((rows.map f).length / limit + 1) = some items ∧
      items.Perm (rows.map f)) ↔ (offsetVisit list limit rows.length).Perm rows := by
  rw [List.length_map, readGaps_eq orders hlimit hdrop hlist fun c => (hordered c).perm.length_eq]
  constructor
  · rintro ⟨items, hitems, hperm⟩
    obtain rfl := Option.some.inj hitems
    exact (List.map_perm_map_iff hf).mp hperm
  · exact fun h => ⟨_, rfl, h.map f⟩

end Reading

/-- There are orders with any given one for the captures. -/
lemma exists_gapOrders {κ : Type} [LinearOrder κ] (collate : String ↪ κ) :
    Nonempty (GapOrders db now window collate) := by
  choose ec1 hec1 using fun _ : ℕ =>
    exists_isOrdered (fun row : Ec1GapRow => -row.capturedAt) (ec1GapRows db now window)
  choose ec2 hec2 using fun _ : ℕ =>
    exists_isOrdered (fun row : Ec2GapRow => collate row.chainId) (ec2GapRows db now window)
  choose ec3seal hec3seal using fun _ : ℕ =>
    exists_isOrdered (fun row : Ec3SealRow => row.capturedAt) (ec3SealRows db now window)
  choose ec4 hec4 using fun _ : ℕ =>
    exists_isOrdered (fun row : ProviderInvocation => -row.createdAt) (ec4Rows db now window)
  exact ⟨⟨ec1, hec1, ec2, hec2, ec3seal, hec3seal, ec4, hec4⟩⟩

/-- **Paging through gaps.** Whatever orders the database gives tied rows, a client that follows
`next_cursor` from 0 reads every gap exactly once, if and only if no page ends among gaps of one
time. -/
theorem gapPages_perm_iff {κ : Type} [LinearOrder κ] (collate : String ↪ κ)
    (invariant : GapInvariant) (limit : ℕ) (hpos : 1 ≤ limit) (hmax : limit ≤ 500) :
    (∀ orders : GapOrders db now window collate, ∃ items,
      readGaps orders invariant limit ((gapRows db now window invariant).length / limit + 1) =
        some items ∧ items.Perm (gapRows db now window invariant)) ↔
      GapTiesFit db now window limit invariant := by
  obtain ⟨base⟩ := exists_gapOrders db now window collate
  cases invariant with
  | ec1 =>
    have hiff := fun orders : GapOrders db now window collate =>
      readGaps_perm_iff orders hpos (by decide) (fun a b h => by injection h)
        (gapItems_ec1 orders hmax) orders.ec1_ordered
    refine Iff.trans ⟨fun h list hlist => ?_, fun h orders => ?_⟩
      (followOffsets_perm_iff hpos (ec1GapRows_nodup db now window))
    · exact (hiff { base with ec1 := list, ec1_ordered := hlist }).mp (h _)
    · exact (hiff orders).mpr (h _ orders.ec1_ordered)
  | ec2 =>
    refine iff_of_true (fun orders => ?_) trivial
    refine (readGaps_perm_iff orders hpos (by decide) (fun a b h => by injection h)
      (gapItems_ec2 orders hmax) orders.ec2_ordered).mpr ?_
    have hnodup := List.Nodup.of_map _ (ec2GapRows_chainIds_nodup db now window)
    exact (followOffsets_perm_iff hpos hnodup).mpr
      (ec2GapRows_tiesFit db now window collate limit) _ orders.ec2_ordered
  | ec3seal =>
    have hiff := fun orders : GapOrders db now window collate =>
      readGaps_perm_iff orders hpos (by decide) (fun a b h => by injection h)
        (gapItems_ec3seal orders hmax) orders.ec3seal_ordered
    refine Iff.trans ⟨fun h list hlist => ?_, fun h orders => ?_⟩
      (followOffsets_perm_iff hpos (ec3SealRows_nodup db now window))
    · exact (hiff { base with ec3seal := list, ec3seal_ordered := hlist }).mp (h _)
    · exact (hiff orders).mpr (h _ orders.ec3seal_ordered)
  | ec3drop => exact iff_of_true (fun orders => ⟨_, rfl, List.Perm.refl _⟩) trivial
  | ec4 =>
    have hiff := fun orders : GapOrders db now window collate =>
      readGaps_perm_iff orders hpos (by decide) (fun a b h => by injection h)
        (gapItems_ec4 orders hmax) orders.ec4_ordered
    refine Iff.trans ⟨fun h list hlist => ?_, fun h orders => ?_⟩
      (followOffsets_perm_iff hpos (ec4Rows_nodup db now window))
    · exact (hiff { base with ec4 := list, ec4_ordered := hlist }).mp (h _)
    · exact (hiff orders).mpr (h _ orders.ec4_ordered)

/-! ## Two captures of one transaction -/

/-- A failed capture. -/
def sampleFailedCapture (captureId : Uuid) (captureSeq : ℤ) : OutboxRow where
  captureId := captureId
  captureSeq := captureSeq
  content :=
    { orgId := 1, chainId := "org:1:run", chainCategory := .run, eventType := "run.completed",
      eventVersion := "1", subjectType := "run", subjectId := 2, occurredAt := 0,
      payloadHash := [], payloadEncrypted := none, dekWrapped := none, keyId := "k",
      keyVersion := 1, evidenceStrength := "hmac_internal", captureIntegrityTag := none,
      captureIntegrityAlg := none, posture := .bestEffort }
  redactionMetadata := .obj []
  capturedAt := 0
  lifecycle :=
    { status := .failed, sealingStartedAt := none, sealedAt := none, failedAt := some 0,
      auditEventId := none, attempts := 5, lastError := some "kms" }

/-- Two failed captures with one time. -/
def sampleTiedTables : EvidenceTables where
  auditCaptureOutbox := [sampleFailedCapture 7 1, sampleFailedCapture 8 2]
  providerInvocations := []
  auditEvents := []
  captureIds_nodup := by decide
  captureSeqs_ne := by decide
  invocationIds_nodup := by decide

/-- The report window of the sample: an hour. -/
def sampleWindow : ReportWindow := ⟨3600, 60⟩

/-- On pages of one row the first capture shows twice and the second one never. -/
theorem tied_gap_lost : ∃ orders : GapOrders sampleTiedTables 0 sampleWindow
      (Function.Embedding.refl String),
    readGaps orders .ec1 1 3 = some [.ec1 (.ofRow (sampleFailedCapture 7 1)),
      .ec1 (.ofRow (sampleFailedCapture 7 1))] ∧
    GapItem.ec1 (.ofRow (sampleFailedCapture 8 2)) ∈ gapRows sampleTiedTables 0 sampleWindow .ec1 := by
  obtain ⟨base⟩ := exists_gapOrders sampleTiedTables 0 sampleWindow (Function.Embedding.refl String)
  let first := Ec1GapRow.ofRow (sampleFailedCapture 7 1)
  let second := Ec1GapRow.ofRow (sampleFailedCapture 8 2)
  have hrows : ec1GapRows sampleTiedTables 0 sampleWindow = [first, second] := by decide
  have hordered : ∀ offset, IsOrdered (fun row : Ec1GapRow => -row.capturedAt)
      (ec1GapRows sampleTiedTables 0 sampleWindow)
      (if offset = 0 then [first, second] else [second, first]) := by
    intro offset
    rw [hrows]
    by_cases hoffset : offset = 0
    · rw [if_pos hoffset]
      exact ⟨List.Perm.refl _, by decide⟩
    · rw [if_neg hoffset]
      exact ⟨List.Perm.swap _ _ _, by decide⟩
  refine ⟨{ base with ec1 := _, ec1_ordered := hordered }, rfl, ?_⟩
  rw [gapRows, hrows]
  exact List.mem_cons_of_mem _ List.mem_cons_self

/-- On pages of two rows the ties fit, and both captures show in every order. -/
theorem gapPages_perm_iff_sample :
    GapTiesFit sampleTiedTables 0 sampleWindow 2 .ec1 ∧
      ∀ orders : GapOrders sampleTiedTables 0 sampleWindow (Function.Embedding.refl String), ∃ items,
        readGaps orders .ec1 2 ((gapRows sampleTiedTables 0 sampleWindow .ec1).length / 2 + 1) =
          some items ∧ items.Perm (gapRows sampleTiedTables 0 sampleWindow .ec1) := by
  have hfit : GapTiesFit sampleTiedTables 0 sampleWindow 2 .ec1 := by
    intro r _ k
    rcases Nat.eq_zero_or_pos k with rfl | hk
    · exact .inl (by simp)
    · have hlength : (ec1GapRows sampleTiedTables 0 sampleWindow).length = 2 := by decide
      exact .inr (List.countP_le_length.trans (by omega))
  exact ⟨hfit, (gapPages_perm_iff sampleTiedTables 0 sampleWindow (Function.Embedding.refl String)
    .ec1 2 (by decide) (by decide)).mpr hfit⟩

end GovAI
