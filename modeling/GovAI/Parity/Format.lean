import GovAI.Library.Fallible
import GovAI.Parity.KeyScan
import GovAI.Parity.Validity

/-!
# Formatting the parity manifest

The formatter may run on a manifest whose findings concern only the order of rows or of keys.  Then the
rendered text parses back to the same manifest up to these orders, has no finding and no duplicate key,
and is rendered to itself.
-/

namespace GovAI

/-! ## Sorting by a key -/

/-- Insertion by a strict comparison of keys is insertion by the weak one when no key is repeated. -/
lemma orderedInsert_strict {α β : Type} [LinearOrder β] {key : α → β} {r : α → α → Prop}
    [DecidableRel r] (hr : ∀ a b, r a b ↔ key a < key b) {a : α} {l : List α}
    (hne : ∀ b ∈ l, key a ≠ key b) :
    l.orderedInsert r a = l.orderedInsert (fun a b => key a ≤ key b) a := by
  induction l with
  | nil => rfl
  | cons b l ih =>
    obtain ⟨hb, hl⟩ := List.forall_mem_cons.mp hne
    have hiff : r a b ↔ key a ≤ key b := (hr a b).trans hb.le_iff_lt.symm
    by_cases hab : key a ≤ key b
    · rw [List.orderedInsert, List.orderedInsert, if_pos (hiff.mpr hab), if_pos hab]
    · rw [List.orderedInsert, List.orderedInsert, if_neg (mt hiff.mp hab), if_neg hab, ih hl]

/-- **A strict comparison sorts a list without repeated keys.** -/
theorem pairwise_insertionSort_strict {α β : Type} [LinearOrder β] {key : α → β}
    {r : α → α → Prop} [DecidableRel r] (hr : ∀ a b, r a b ↔ key a < key b) {l : List α}
    (hne : l.Pairwise fun a b => key a ≠ key b) : (l.insertionSort r).Pairwise r := by
  have hsort : l.insertionSort r = l.insertionSort fun a b => key a ≤ key b := by
    induction l with
    | nil => rfl
    | cons a l ih =>
      obtain ⟨ha, hl⟩ := List.pairwise_cons.mp hne
      rw [List.insertionSort_cons, List.insertionSort_cons, ih hl]
      exact orderedInsert_strict hr fun b hb => ha b ((List.mem_insertionSort _).mp hb)
  have htotal : Std.Total fun a b : α => key a ≤ key b := ⟨fun a b => le_total (key a) (key b)⟩
  have htrans : IsTrans α fun a b => key a ≤ key b := ⟨fun a b c => le_trans⟩
  have hle := List.pairwise_insertionSort (fun a b : α => key a ≤ key b) l
  have hne' : (l.insertionSort fun a b => key a ≤ key b).Pairwise fun a b => key a ≠ key b :=
    ((List.perm_insertionSort _ l).pairwise_iff fun h => h.symm).mpr hne
  rw [hsort]
  exact hle.imp₂ (fun a b hab hab' => (hr a b).mpr (lt_of_le_of_ne hab hab')) hne'

/-! ## Canonical rows -/

section Rows

variable {parseUrl : JsString → Option ParsedUrl} {snap : Option JsonValue}

/-- A field that is not in the schema is not in a valid row. -/
lemma ValidRow.get_eq_none {row : JsonValue} (h : ValidRow parseUrl snap row) {f : String}
    (hf : f ∉ rowFields) : row.get f = none := by
  by_contra hsome
  have hmem := (isSome_get_iff h.is_object).mp (Option.isSome_iff_ne_none.mpr hsome)
  obtain ⟨g, hg, hgf⟩ := List.mem_map.mp ((h.mem_keys _).mp hmem)
  exact hf (jsString_inj.mp hgf ▸ hg)

/-- **The canonical row has the same fields.** -/
theorem ValidRow.get_canonicalRow {row : JsonValue} (h : ValidRow parseUrl snap row) :
    (canonicalRow row).get = row.get := by
  funext f
  rw [canonicalRow, get_orderedObject]
  split
  · rfl
  · rename_i hf
    exact (h.get_eq_none hf).symm

/-- The keys of the canonical row are the fields of the schema in their order. -/
lemma ValidRow.objectKeys_canonicalRow {row : JsonValue} (h : ValidRow parseUrl snap row) :
    objectKeys (canonicalRow row) = rowFields.map jsString :=
  objectKeys_orderedObject fun _ hf =>
    (isSome_get_iff h.is_object).mpr ((h.mem_keys _).mpr (List.mem_map_of_mem hf))

/-- A canonical row is canonical. -/
lemma ValidRow.canonicalRow_canonicalRow {row : JsonValue} (h : ValidRow parseUrl snap row) :
    canonicalRow (canonicalRow row) = canonicalRow row := by
  rw [canonicalRow, h.get_canonicalRow]
  rfl

/-- The place of a row in the order is read off its fields. -/
lemma orderKey_congr {a c : JsonValue} (h : a.get = c.get) : orderKey a = orderKey c := by
  simp only [orderKey, rowRank, rowText, h]

/-- The rank of a surface is its index. -/
lemma surfaceRank_injective {s t : Surface}
    (h : surfaceRank (jsString s.text) = surfaceRank (jsString t.text)) : s = t := by
  have hrank : ∀ u : Surface, surfaceRank (jsString u.text) = u.ctorIdx := by
    intro u
    cases u <;> simp [surfaceRank, surfaces, List.findIdx?_cons, Surface.text, Surface.ctorIdx]
  rw [hrank, hrank] at h
  cases s <;> cases t <;> first | rfl | exact absurd h (by decide)

/-- Rows with different keys have different places. -/
lemma orderKey_ne {a c : JsonValue} (ha : RowFacts a.get) (hc : RowFacts c.get)
    (hne : rowKey a.get ≠ rowKey c.get) : orderKey a ≠ orderKey c := by
  intro h
  have hrank : rowRank a = rowRank c := congrArg (fun k => (ofLex k).1) h
  have hid : rowText a "capability_id" = rowText c "capability_id" :=
    map_toNat_inj.mp (congrArg (fun k => (ofLex (ofLex k).2).2) h)
  simp only [rowRank, rowText, ha.surface_eq, hc.surface_eq, ha.id_eq, hc.id_eq] at hrank hid
  rw [ha.key_eq, hc.key_eq, surfaceRank_injective hrank, hid] at hne
  exact hne rfl

/-- The rows of a manifest: valid, with distinct keys. -/
structure ValidRows (parseUrl : JsString → Option ParsedUrl) (snap : Option JsonValue)
    (rows : List JsonValue) : Prop where
  valid : ∀ row ∈ rows, ValidRow parseUrl snap row
  distinct : rows.Pairwise fun a c => rowKey a.get ≠ rowKey c.get

/-- Sorted rows are the same rows. -/
lemma ValidRows.sorted {rows : List JsonValue} (h : ValidRows parseUrl snap rows) :
    ValidRows parseUrl snap (rows.insertionSort rowBefore) ∧
      (rows.insertionSort rowBefore).Pairwise rowBefore := by
  have hperm := List.perm_insertionSort rowBefore rows
  refine ⟨⟨fun row hrow => h.valid row (hperm.mem_iff.mp hrow),
    (hperm.pairwise_iff fun hne => hne.symm).mpr h.distinct⟩, ?_⟩
  refine @pairwise_insertionSort_strict _ _ _ orderKey rowBefore _ (fun _ _ => rowBefore_iff) _ ?_
  refine h.distinct.imp_of_mem fun {a c} ha hc hne => ?_
  obtain ⟨-, ⟨factsA⟩⟩ := rowFacts_of_issues (h.valid a ha).no_issue
  obtain ⟨-, ⟨factsC⟩⟩ := rowFacts_of_issues (h.valid c hc).no_issue
  exact orderKey_ne factsA factsC hne

/-- **The canonical rows are in order, and canonical themselves.** -/
theorem ValidRows.canonicalRows_canonicalRows {rows : List JsonValue}
    (h : ValidRows parseUrl snap rows) :
    (canonicalRows rows).Pairwise rowBefore ∧ canonicalRows (canonicalRows rows) = canonicalRows rows := by
  obtain ⟨hvalid, hsorted⟩ := h.sorted
  have hpair : (canonicalRows rows).Pairwise rowBefore := by
    rw [canonicalRows, List.pairwise_map]
    refine hsorted.imp_of_mem fun {a c} ha hc hac => ?_
    rw [rowBefore_iff, orderKey_congr (hvalid.valid a ha).get_canonicalRow,
      orderKey_congr (hvalid.valid c hc).get_canonicalRow]
    exact rowBefore_iff.mp hac
  refine ⟨hpair, ?_⟩
  rw [canonicalRows, List.Pairwise.insertionSort_eq hpair, canonicalRows, List.map_map]
  exact List.map_congr_left fun row hrow => (hvalid.valid row hrow).canonicalRow_canonicalRow

/-- Rows in the order of the renderer have no finding about their order. -/
lemma orderFindings_eq_nil {rows : List JsonValue} {i : ℕ}
    (hfacts : ∀ row ∈ rows, Nonempty (RowFacts row.get)) (h : rows.Pairwise rowBefore) :
    orderFindings i rows = [] := by
  induction rows generalizing i with
  | nil => rfl
  | cons a rest ih =>
    cases rest with
    | nil => rfl
    | cons c rest =>
      obtain ⟨⟨ha⟩, hrest⟩ := List.forall_mem_cons.mp hfacts
      obtain ⟨hc⟩ := hrest c List.mem_cons_self
      obtain ⟨hac, hpair⟩ := List.pairwise_cons.mp h
      have horder := (outOfOrder_iff ha hc).mpr (rowBefore_iff.mp (hac c List.mem_cons_self))
      rw [orderFindings, horder, if_neg Bool.false_ne_true]
      exact ih hrest hpair

/-- `String` converts the fields by which valid rows are compared. -/
lemma comparisonThrows_eq_false {rows : List JsonValue}
    (hfacts : ∀ row ∈ rows, Nonempty (RowFacts row.get)) : comparisonThrows rows = false := by
  have hrow : ∀ row ∈ rows, (["surface", "family", "capability_id"].any fun f =>
      (row.get f).any stringThrows) = false := by
    intro row hrow
    obtain ⟨facts⟩ := hfacts row hrow
    simp [facts.surface_eq, facts.family_eq, facts.id_eq, stringThrows]
  clear hfacts
  induction rows with
  | nil => rfl
  | cons a rest ih =>
    cases rest with
    | nil => rfl
    | cons c rest =>
      rw [comparisonThrows, ih (List.forall_mem_cons.mp hrow).2, Bool.and_false, Bool.or_false,
        List.any_eq_false]
      intro row hpair
      rw [Bool.not_eq_true]
      exact hrow row (List.mem_append_left rest hpair)

/-- **The canonical rows have no finding**, and they can be compared. -/
theorem ValidRows.no_finding {rows : List JsonValue} (h : ValidRows parseUrl snap rows) :
    rowsFindings parseUrl snap 0 [] (canonicalRows rows) = [] ∧
      (canonicalRows rows).all isObject = true ∧ orderFindings 1 (canonicalRows rows) = [] ∧
      comparisonThrows (canonicalRows rows) = false := by
  obtain ⟨hvalid, -⟩ := h.sorted
  obtain ⟨hpair, -⟩ := h.canonicalRows_canonicalRows
  have hget : ∀ row ∈ rows.insertionSort rowBefore, (canonicalRow row).get = row.get :=
    fun row hrow => (hvalid.valid row hrow).get_canonicalRow
  have hfacts : ∀ row ∈ canonicalRows rows, Nonempty (RowFacts row.get) := by
    intro row hrow
    obtain ⟨r, hr, rfl⟩ := List.mem_map.mp hrow
    rw [hget r hr]
    exact (rowFacts_of_issues (hvalid.valid r hr).no_issue).2
  refine ⟨rowsFindings_eq_nil ?_ ?_ ?_, ?_, orderFindings_eq_nil hfacts hpair,
    comparisonThrows_eq_false hfacts⟩
  · intro row hrow
    obtain ⟨r, hr, rfl⟩ := List.mem_map.mp hrow
    exact ⟨rfl, (hvalid.valid r hr).objectKeys_canonicalRow, by
      rw [hget r hr]
      exact (hvalid.valid r hr).no_issue⟩
  · rw [canonicalRows, List.pairwise_map]
    refine hvalid.distinct.imp_of_mem fun {a c} ha hc hne => ?_
    rwa [hget a ha, hget c hc]
  · exact fun _ _ _ hkey => absurd hkey List.not_mem_nil
  · rw [List.all_eq_true]
    intro row hrow
    obtain ⟨r, -, rfl⟩ := List.mem_map.mp hrow
    rfl

end Rows

/-! ## The manifest -/

/-- What a manifest shows that has no invalid finding. -/
structure ManifestFacts (parseUrl : JsString → Option ParsedUrl) (m : JsonValue)
    (rows : List JsonValue) : Prop where
  is_object : isObject m = true
  rows_eq : m.get "capabilities" = some (.arr rows)
  count_eq : isInteger (m.get "capability_count") rows.length = true
  no_issue : rootIssues m = []
  valid_rows : ValidRows parseUrl (m.get "research_snapshot_date") rows

/-- Nothing of the root is reported. -/
lemma rootIssues_eq_nil_iff {m : JsonValue} : rootIssues m = [] ↔
    (∀ k ∈ objectKeys m, k ∈ rootFields.map jsString) ∧ isInteger (m.get "schema_version") 1 = true ∧
      m.get "name" = some (.str (jsString "native-experience-parity-v1")) ∧
      isStringWith isCalendarDate (m.get "research_snapshot_date") = true ∧
      isStringWith isSha (m.get "source_anchor") = true ∧ isNonempty (m.get "description") = true ∧
      isNonempty (m.get "verify") = true ∧ isNonempty (m.get "doc") = true := by
  simp only [rootIssues, List.append_eq_nil_iff, report_eq_nil_iff, List.flatMap_cons,
    List.flatMap_nil, List.append_nil, Bool.not_eq_false', isText_iff, decide_eq_false_iff_not,
    not_not, List.filter_eq_nil_iff, Bool.not_eq_true, List.contains_iff_mem, and_assoc]

section Manifest

variable {parseUrl : JsString → Option ParsedUrl} {m : JsonValue}

/-- **A manifest without an invalid finding** has valid rows with distinct keys. -/
theorem manifestFacts_of_findings
    (h : ∀ f ∈ parityFindings parseUrl m, f.code ≠ .invalid) :
    ∃ rows, ManifestFacts parseUrl m rows := by
  have hnil : ∀ {issues : List (List MessagePart)},
      (∀ f ∈ issues.map (ParityFinding.mk .invalid), f.code ≠ .invalid) → issues = [] := by
    intro issues hall
    by_contra hne
    obtain ⟨message, rest, rfl⟩ := List.exists_cons_of_ne_nil hne
    exact hall _ List.mem_cons_self rfl
  unfold parityFindings at h
  split at h
  · rename_i hobject
    obtain ⟨hroot, h⟩ := List.forall_mem_append.mp h
    split at h
    · rename_i rows hrows
      obtain ⟨h, -⟩ := List.forall_mem_append.mp h
      obtain ⟨hcount, hfindings⟩ := List.forall_mem_append.mp h
      obtain ⟨hvalid, hdistinct, -⟩ := validRows_of_findings hfindings
      exact ⟨rows, hobject, hrows, by simpa using hnil hcount, hnil hroot, hvalid, hdistinct⟩
    · exact absurd rfl (h _ List.mem_cons_self)
  · exact absurd rfl (h _ List.mem_cons_self)

/-- Every field of the root is there, and all but the rows are strings or numbers. -/
lemma ManifestFacts.scalar {rows : List JsonValue} (h : ManifestFacts parseUrl m rows) {f : String}
    (hf : f ∈ rootFields) (hne : f ≠ "capabilities") :
    (∃ s, m.get f = some (.str s)) ∨ ∃ x, m.get f = some (.num x) := by
  obtain ⟨-, hversion, hname, hdate, hsha, hdescription, hverify, hdoc⟩ :=
    rootIssues_eq_nil_iff.mp h.no_issue
  simp only [rootFields, List.mem_cons, List.not_mem_nil, or_false] at hf
  rcases hf with rfl | rfl | rfl | rfl | rfl | rfl | rfl | rfl | rfl
  · obtain ⟨x, hx, -⟩ := eq_of_isInteger hversion
    exact .inr ⟨x, hx⟩
  · exact .inl ⟨_, hname⟩
  · exact .inl (exists_of_isNonempty hdescription)
  · exact .inl (exists_of_isStringWith hdate)
  · exact .inl (exists_of_isStringWith hsha)
  · exact .inl (exists_of_isNonempty hverify)
  · exact .inl (exists_of_isNonempty hdoc)
  · obtain ⟨x, hx, -⟩ := eq_of_isInteger h.count_eq
    exact .inr ⟨x, hx⟩
  · exact absurd rfl hne

/-- A key that is no field of the root is not in the manifest. -/
lemma ManifestFacts.get_eq_none {rows : List JsonValue} (h : ManifestFacts parseUrl m rows)
    {f : String} (hf : f ∉ rootFields) : m.get f = none := by
  by_contra hsome
  have hmem := (isSome_get_iff h.is_object).mp (Option.isSome_iff_ne_none.mpr hsome)
  obtain ⟨g, hg, hgf⟩ := List.mem_map.mp ((rootIssues_eq_nil_iff.mp h.no_issue).1 _ hmem)
  exact hf (jsString_inj.mp hgf ▸ hg)

/-- **The value that is rendered**: the manifest with its rows in canonical form and order. -/
theorem ManifestFacts.canonicalManifest_eq {rows : List JsonValue}
    (h : ManifestFacts parseUrl m rows) : ∃ count, m.get "capability_count" = some (.num count) ∧
      canonicalManifest m = some (orderedObject rootFields (rootField m rows count)) := by
  obtain ⟨count, hcount, hint⟩ := eq_of_isInteger h.count_eq
  refine ⟨count, hcount, ?_⟩
  have hlength : (canonicalRows rows).length = rows.length := by
    rw [canonicalRows, List.length_map, List.length_insertionSort]
  have hprinted := count.2
  rw [hint, ← hlength] at hprinted
  have hlt : (canonicalRows rows).length < 10 ^ 21 := by simpa [JsNumber.Printed] using hprinted
  have heq : (⟨.int (canonicalRows rows).length, hprinted⟩ : JsonNumber) = count :=
    Subtype.ext (hint.trans (congrArg (fun n : ℕ => JsNumber.int n) hlength.symm)).symm
  unfold canonicalManifest
  rw [h.rows_eq]
  simp only [hlt, dif_pos, heq]

/-- The fields of the rendered value. -/
lemma ManifestFacts.get_canonical {rows : List JsonValue} (h : ManifestFacts parseUrl m rows)
    {count : JsonNumber} (hcount : m.get "capability_count" = some (.num count)) (f : String) :
    (orderedObject rootFields (rootField m rows count)).get f =
      if f = "capabilities" then some (.arr (canonicalRows rows)) else m.get f := by
  rw [get_orderedObject]
  unfold rootField
  by_cases hrows : f = "capabilities"
  · subst hrows
    rw [if_pos (by decide), if_neg (by decide)]
  · simp only [if_neg hrows]
    by_cases hf : f ∈ rootFields
    · rw [if_pos hf]
      split
      · rename_i hc
        rw [hc, hcount]
      · rfl
    · rw [if_neg hf, h.get_eq_none hf]

/-- The keys of the rendered value are the fields of the root in their order. -/
lemma ManifestFacts.objectKeys_canonical {rows : List JsonValue} (h : ManifestFacts parseUrl m rows)
    (count : JsonNumber) :
    objectKeys (orderedObject rootFields (rootField m rows count)) = rootFields.map jsString := by
  refine objectKeys_orderedObject fun f hf => ?_
  unfold rootField
  split
  · rfl
  · split
    · rfl
    · rename_i hne
      rcases h.scalar hf hne with ⟨s, hs⟩ | ⟨x, hx⟩
      · rw [hs]
        rfl
      · rw [hx]
        rfl

/-- **The rendered value has no finding.** -/
theorem ManifestFacts.validate_canonical {rows : List JsonValue} (h : ManifestFacts parseUrl m rows)
    {count : JsonNumber} (hcount : m.get "capability_count" = some (.num count)) :
    validateParityManifestFindings parseUrl (orderedObject rootFields (rootField m rows count)) =
      .ok [] := by
  have hget := h.get_canonical hcount
  have hroot : rootIssues (orderedObject rootFields (rootField m rows count)) = [] := by
    rw [rootIssues_eq_nil_iff, h.objectKeys_canonical]
    simp only [hget, String.reduceEq, if_false]
    exact ⟨fun _ hk => hk, (rootIssues_eq_nil_iff.mp h.no_issue).2⟩
  have hlength : (canonicalRows rows).length = rows.length := by
    rw [canonicalRows, List.length_map, List.length_insertionSort]
  obtain ⟨hfindings, hobjects, horder, hthrows⟩ := h.valid_rows.no_finding
  have hobject : isObject (orderedObject rootFields (rootField m rows count)) = true := rfl
  have hnone : parityFindings parseUrl (orderedObject rootFields (rootField m rows count)) = [] := by
    unfold parityFindings
    rw [if_pos hobject, hroot, hget, if_pos rfl]
    simp only [hget, String.reduceEq, if_false, hlength, h.count_eq, hfindings, hobjects, horder]
    rfl
  have hcompared : comparedRows (orderedObject rootFields (rootField m rows count)) =
      canonicalRows rows := by
    unfold comparedRows
    rw [hget, if_pos rfl]
    exact if_pos hobjects
  rw [validateParityManifestFindings, hnone, hcompared, hthrows]
  rfl

/-- **The rendered value is rendered to itself.** -/
theorem ManifestFacts.canonicalManifest_canonical {rows : List JsonValue}
    (h : ManifestFacts parseUrl m rows) {count : JsonNumber}
    (hcount : m.get "capability_count" = some (.num count))
    (hcanonical : canonicalManifest m = some (orderedObject rootFields (rootField m rows count))) :
    canonicalManifest (orderedObject rootFields (rootField m rows count)) =
      some (orderedObject rootFields (rootField m rows count)) := by
  have hget := h.get_canonical hcount
  have hrows := h.valid_rows.canonicalRows_canonicalRows.2
  have hfield : ∀ n, rootField (orderedObject rootFields (rootField m rows count))
      (canonicalRows rows) n = rootField m rows n := by
    intro n
    funext f
    unfold rootField
    rw [hrows]
    split
    · rfl
    · split
      · rfl
      · rename_i hne
        exact (hget f).trans (if_neg hne)
  unfold canonicalManifest at hcanonical ⊢
  rw [h.rows_eq] at hcanonical
  rw [hget, if_pos rfl]
  simp only [hrows, hfield]
  exact hcanonical

/-- The rendered value is settled when the manifest is. -/
lemma ManifestFacts.settled_canonical {rows : List JsonValue} (h : ManifestFacts parseUrl m rows)
    (hm : m.Settled) (count : JsonNumber) :
    (orderedObject rootFields (rootField m rows count)).Settled := by
  obtain ⟨⟨hroot, hrow⟩, hindex⟩ := fields_plain
  have hindex : ∀ f, f ∈ rootFields ∨ f ∈ rowFields → arrayIndex (jsString f) = none := fun f hf =>
    of_decide_eq_true (List.all_eq_true.mp hindex f (List.mem_append.mpr hf))
  have hsettled : ∀ row ∈ rows, row.Settled := by
    cases hm.get h.rows_eq with
    | arr hitems => exact hitems
  refine settled_orderedObject hroot (fun f hf => hindex f (.inl hf)) fun f _ v hv => ?_
  unfold rootField at hv
  split at hv
  · obtain rfl := Option.some.inj hv
    exact .num count
  · split at hv
    · obtain rfl := Option.some.inj hv
      refine .arr fun row hrow' => ?_
      obtain ⟨r, hr, rfl⟩ := List.mem_map.mp hrow'
      have hr' := hsettled r ((List.mem_insertionSort _).mp hr)
      exact settled_orderedObject hrow (fun f hf => hindex f (.inr hf))
        fun f _ w hw => hr'.get hw
    · exact hm.get hv

end Manifest

/-! ## The content is kept -/

namespace JsonValue

/-- A value is the same as itself. -/
lemma same_refl (v : JsonValue) : v.Same v := by
  induction v using inductionOn with
  | null => rfl
  | bool b => rfl
  | num x => rfl
  | str s => rfl
  | arr items ih => exact ⟨items, rfl, sameItems_iff.mpr (List.forall₂_same.mpr ih)⟩
  | obj props ih => exact ⟨props, rfl, rfl, sameProps_iff.mpr fun p hp => ⟨p.2, hp, ih p hp⟩⟩

/-- A property that is found was written. -/
lemma mem_of_get {props : List (JsString × JsonValue)} {f : String} {v : JsonValue}
    (h : (JsonValue.obj props).get f = some v) : (jsString f, v) ∈ props := by
  obtain ⟨p, hp, rfl⟩ := Option.map_eq_some_iff.mp h
  have hkey : p.1 = jsString f := by simpa using List.find?_some hp
  exact hkey ▸ List.mem_of_find?_eq_some hp

/-- A property is found when the keys are distinct. -/
lemma get_of_mem {props : List (JsString × JsonValue)} (hkeys : (props.map (·.1)).Nodup)
    {f : String} {v : JsonValue} (h : (jsString f, v) ∈ props) :
    (JsonValue.obj props).get f = some v := by
  obtain ⟨w, hw⟩ := Option.isSome_iff_exists.mp
    ((isSome_get_iff (v := .obj props) rfl).mpr (List.mem_map_of_mem (f := (·.1)) h))
  have heq := eq_of_key_eq hkeys (mem_of_get hw) h rfl
  rw [hw, (Prod.mk.inj heq).2]

/-- An object is the same as one with the same keys and the same values under them. -/
lemma same_of_get {v w : JsonValue} (hv : GovAI.isObject v = true) (hw : GovAI.isObject w = true)
    (hkeys : (GovAI.objectKeys v).Nodup) (hkeys' : (GovAI.objectKeys w).Nodup)
    (hmem : ∀ k, k ∈ GovAI.objectKeys v ↔ k ∈ GovAI.objectKeys w)
    (hfield : ∀ k ∈ GovAI.objectKeys v, ∃ f, k = jsString f)
    (hget : ∀ f x, v.get f = some x → ∃ y, w.get f = some y ∧ x.Same y) : v.Same w := by
  cases v with
  | obj props =>
    cases w with
    | obj props' =>
      refine ⟨props', rfl, ?_, sameProps_iff.mpr fun p hp => ?_⟩
      · have hperm := (List.perm_ext_iff_of_nodup hkeys hkeys').mpr hmem
        simpa [GovAI.objectKeys] using hperm.length_eq
      · obtain ⟨f, hf⟩ := hfield p.1 (List.mem_map_of_mem hp)
        have hp' : (jsString f, p.2) ∈ props := hf ▸ hp
        obtain ⟨y, hy, hsame⟩ := hget f p.2 (get_of_mem hkeys hp')
        exact ⟨y, hf ▸ mem_of_get hy, hsame⟩
    | _ => exact absurd hw Bool.false_ne_true
  | _ => exact absurd hv Bool.false_ne_true

end JsonValue

/-- The manifest with other rows. -/
def withRows (m : JsonValue) (rows : List JsonValue) : JsonValue :=
  match m with
  | .obj props => .obj (writeProp props (jsString "capabilities", .arr rows))
  | v => v

/-- The manifests are the same up to the order of rows and of keys. -/
def SameManifest (m w : JsonValue) : Prop :=
  ∃ rows rows', m.get "capabilities" = some (.arr rows) ∧ rows'.Perm rows ∧ (withRows m rows').Same w

/-- The fields of a manifest with other rows. -/
lemma get_withRows {m : JsonValue} {rows₀ : List JsonValue}
    (h : m.get "capabilities" = some (.arr rows₀)) (rows : List JsonValue) :
    objectKeys (withRows m rows) = objectKeys m ∧
      ∀ f, (withRows m rows).get f = if f = "capabilities" then some (.arr rows) else m.get f := by
  cases m with
  | obj props =>
    have hmem : jsString "capabilities" ∈ props.map (·.1) :=
      (isSome_get_iff (v := .obj props) rfl).mp (Option.isSome_iff_exists.mpr ⟨_, h⟩)
    have hwrite : writeProp props (jsString "capabilities", JsonValue.arr rows) =
        props.map fun q => if q.1 = jsString "capabilities" then
          (jsString "capabilities", JsonValue.arr rows) else q := if_pos hmem
    simp only [withRows, hwrite]
    refine ⟨?_, fun f => ?_⟩
    · simp only [objectKeys, List.map_map]
      refine List.map_congr_left fun q _ => ?_
      by_cases hq : q.1 = jsString "capabilities" <;> simp [hq]
    · clear h hwrite
      simp only [JsonValue.get]
      induction props with
      | nil => exact absurd hmem List.not_mem_nil
      | cons q props ih =>
        by_cases hq : q.1 = jsString "capabilities"
        · by_cases hf : f = "capabilities"
          · simp [hq, hf]
          · have hfq : ¬"capabilities" = f := fun h => hf h.symm
            have hrest : ((props.map fun q => if q.1 = jsString "capabilities" then
                (jsString "capabilities", JsonValue.arr rows) else q).find?
                  fun x => decide (x.1 = jsString f)) = props.find? fun x => decide (x.1 = jsString f) := by
              clear ih hmem
              induction props with
              | nil => rfl
              | cons r props ih' =>
                by_cases hr : r.1 = jsString "capabilities"
                · simp [hr, hfq, ih']
                · by_cases hrf : r.1 = jsString f <;> simp [hr, hrf, ih', hf]
            simp [hq, hf, hfq, hrest]
        · have hmem' : jsString "capabilities" ∈ props.map (·.1) := by
            rcases List.mem_cons.mp hmem with h | h
            · exact absurd h.symm hq
            · exact h
          by_cases hf : f = "capabilities"
          · subst hf
            simpa [hq] using ih hmem'
          · by_cases hqf : q.1 = jsString f
            · simp [hqf, hf]
            · simpa [hq, hqf] using ih hmem'
  | _ => cases h

section Manifest

variable {parseUrl : JsString → Option ParsedUrl} {m : JsonValue}

/-- A valid row is the same as its canonical form. -/
lemma ValidRow.same_canonicalRow {snap : Option JsonValue} {row : JsonValue}
    (h : ValidRow parseUrl snap row) (hrow : row.Settled) : row.Same (canonicalRow row) := by
  have hnodup : (rowFields.map jsString).Nodup :=
    fields_plain.1.2.map fun _ _ h => jsString_inj.mp h
  have hkeys : (objectKeys row).Nodup := by
    cases hrow with
    | obj hkeys _ _ => exact hkeys
    | _ => exact absurd h.is_object Bool.false_ne_true
  refine JsonValue.same_of_get h.is_object rfl hkeys ?_ ?_ ?_ ?_
  · rw [h.objectKeys_canonicalRow]
    exact hnodup
  · rw [h.objectKeys_canonicalRow]
    exact h.mem_keys
  · intro k hk
    obtain ⟨f, -, rfl⟩ := List.mem_map.mp ((h.mem_keys k).mp hk)
    exact ⟨f, rfl⟩
  · intro f x hx
    exact ⟨x, by rw [h.get_canonicalRow, hx], x.same_refl⟩

/-- The value of a property has its numbers among those of the object. -/
lemma JsonValue.AllNumbers.get {p : JsonNumber → Prop} {v x : JsonValue} (hv : v.AllNumbers p)
    {f : String} (h : v.get f = some x) : x.AllNumbers p := by
  cases v with
  | obj props =>
    obtain ⟨q, hq, rfl⟩ := Option.map_eq_some_iff.mp h
    exact JsonValue.allNumbersProps_iff.mp hv q (List.mem_of_find?_eq_some hq)
  | _ => cases h

/-- An object with ordered fields has the numbers of its fields. -/
lemma allNumbers_orderedObject {p : JsonNumber → Prop} {fields : List String}
    {field : String → Option JsonValue}
    (h : ∀ f v, field f = some v → v.AllNumbers p) : (orderedObject fields field).AllNumbers p := by
  refine JsonValue.allNumbersProps_iff.mpr fun q hq => ?_
  obtain ⟨f, -, hf⟩ := List.mem_filterMap.mp hq
  obtain ⟨v, hv, rfl⟩ := Option.map_eq_some_iff.mp hf
  exact h f v hv

/-- The rendered value has its numbers from the manifest. -/
lemma ManifestFacts.allNumbers {rows : List JsonValue} (h : ManifestFacts parseUrl m rows)
    {p : JsonNumber → Prop} (hm : m.AllNumbers p) {count : JsonNumber}
    (hcount : m.get "capability_count" = some (.num count)) :
    (orderedObject rootFields (rootField m rows count)).AllNumbers p := by
  have hrows : ∀ row ∈ rows, row.AllNumbers p :=
    JsonValue.allNumbersItems_iff.mp (hm.get h.rows_eq)
  refine allNumbers_orderedObject fun f v hv => ?_
  unfold rootField at hv
  split at hv
  · exact Option.some.inj hv ▸ hm.get hcount
  · split at hv
    · obtain rfl := Option.some.inj hv
      refine JsonValue.allNumbersItems_iff.mpr fun row hrow => ?_
      obtain ⟨r, hr, rfl⟩ := List.mem_map.mp hrow
      exact allNumbers_orderedObject fun _ _ hx =>
        (hrows r ((List.mem_insertionSort _).mp hr)).get hx
    · exact hm.get hv

/-- **The rendered value is the manifest up to the order of rows and keys.** -/
theorem ManifestFacts.sameManifest {rows : List JsonValue} (h : ManifestFacts parseUrl m rows)
    (hm : m.Settled) {count : JsonNumber}
    (hcount : m.get "capability_count" = some (.num count)) :
    SameManifest m (orderedObject rootFields (rootField m rows count)) := by
  have hrows : ∀ row ∈ rows, row.Settled := by
    cases hm.get h.rows_eq with
    | arr hitems => exact hitems
  have hperm := List.perm_insertionSort rowBefore rows
  refine ⟨rows, rows.insertionSort rowBefore, h.rows_eq, hperm, ?_⟩
  obtain ⟨hkeysEq, hgetWith⟩ := get_withRows h.rows_eq (rows.insertionSort rowBefore)
  have hkeys : (objectKeys m).Nodup := by
    cases hm with
    | obj hkeys _ _ => exact hkeys
    | _ => exact absurd h.is_object Bool.false_ne_true
  have hmem : ∀ k, k ∈ objectKeys m ↔ k ∈ rootFields.map jsString := by
    refine fun k => ⟨(rootIssues_eq_nil_iff.mp h.no_issue).1 k, fun hk => ?_⟩
    obtain ⟨f, hf, rfl⟩ := List.mem_map.mp hk
    refine (isSome_get_iff h.is_object).mp ?_
    by_cases hcap : f = "capabilities"
    · rw [hcap, h.rows_eq]
      rfl
    · rcases h.scalar hf hcap with ⟨s, hs⟩ | ⟨x, hx⟩
      · rw [hs]
        rfl
      · rw [hx]
        rfl
  refine JsonValue.same_of_get ?_ rfl ?_ ?_ ?_ ?_ ?_
  · cases m with
    | obj props => rfl
    | _ => exact absurd h.is_object Bool.false_ne_true
  · rwa [hkeysEq]
  · rw [h.objectKeys_canonical]
    exact fields_plain.1.1.map fun _ _ h => jsString_inj.mp h
  · rw [hkeysEq, h.objectKeys_canonical]
    exact hmem
  · intro k hk
    rw [hkeysEq] at hk
    obtain ⟨f, -, rfl⟩ := List.mem_map.mp ((hmem k).mp hk)
    exact ⟨f, rfl⟩
  · intro f x hx
    rw [hgetWith] at hx
    rw [h.get_canonical hcount]
    by_cases hf : f = "capabilities"
    · rw [if_pos hf] at hx ⊢
      obtain rfl := Option.some.inj hx
      refine ⟨_, rfl, _, rfl, JsonValue.sameItems_iff.mpr ?_⟩
      rw [canonicalRows, List.forall₂_map_right_iff, List.forall₂_same]
      intro row hrow
      have hrow' := hperm.mem_iff.mp hrow
      exact (h.valid_rows.valid row hrow').same_canonicalRow (hrows row hrow')
    · rw [if_neg hf] at hx ⊢
      exact ⟨x, hx, x.same_refl⟩

end Manifest

/-! ## The main results -/

/-- **A key is reported exactly when some object of the text has two members with one key**, at
whatever depth, keys compared after their escapes are decoded. -/
theorem findDuplicateJsonKeys_ne_nil_iff {number : List Char → Option JsonNumber} {text : JsString}
    {m : JsonValue} (hparse : jsonParseUnits number text = some m) :
    findDuplicateJsonKeys text ≠ [] ↔ ∃ t, jsonTree text = some t ∧ t.HasDuplicateKey := by
  rw [jsonParseUnits_eq] at hparse
  obtain ⟨t, ht, -⟩ := Option.bind_eq_some_iff.mp hparse
  rw [findDuplicateJsonKeys_eq ht, ne_eq, JsonTree.duplicates_eq_nil_iff, not_not, ht]
  exact ⟨fun h => ⟨t, rfl, h⟩, fun ⟨u, hu, h⟩ => (Option.some.inj hu) ▸ h⟩

/-- An object with the key `a` and its escape. -/
def sampleAliasText : List Char :=
  ['\x7b', '"', 'a', '"', ':', 'n', 'u', 'l', 'l', ',', '"', '\\', 'u', '0', '0', '6', '1', '"', ':',
    '[', ']', '\x7d']

/-- A key and its escape are one key. -/
theorem findDuplicateJsonKeys_ne_nil_iff_sample :
    findDuplicateJsonKeys (textUnits sampleAliasText) ≠ [] := by
  have htree : jsonTree (textUnits sampleAliasText) =
      some (.obj [([0x61], .null), ([0x61], .arr [])]) := by
    rw [jsonTree, show jsonText false _ = _ from readsAs_textUnits _, Option.bind_some]
    rfl
  have hparse : jsonParseUnits (fun _ => none) (textUnits sampleAliasText) =
      some (.obj (ownProps [([0x61], .null), ([0x61], .arr [])])) := by
    rw [jsonParseUnits_eq, htree]
    rfl
  exact (findDuplicateJsonKeys_ne_nil_iff hparse).mpr ⟨_, htree, .here (by decide)⟩

/-- **Formatting keeps the content of the manifest**: when every finding concerns the order of rows or
of keys, the rendered text parses back to the same manifest up to these orders, which has no finding,
its text has no duplicate key, and it is rendered to the same text again. -/
theorem renderParityManifest_keeps_content {number : List Char → Option JsonNumber}
    (parseUrl : JsString → Option ParsedUrl) {text : JsString} {m : JsonValue}
    (hnumber : m.AllNumbers fun x => number (numberText x.1) = some x)
    (hparse : jsonParseUnits number text = some m) {findings : List ParityFinding}
    (hvalidate : validateParityManifestFindings parseUrl m = .ok findings)
    (hfindings : ∀ f ∈ findings, f.code = .rowOrder ∨ f.code = .keyOrder) :
    ∃ out w, renderParityManifest m = some out ∧ jsonParseUnits number out = some w ∧
      SameManifest m w ∧ validateParityManifestFindings parseUrl w = .ok [] ∧
      findDuplicateJsonKeys out = [] ∧ renderParityManifest w = some out := by
  have hm := settled_of_parse hparse
  have hlist : parityFindings parseUrl m = findings := by
    unfold validateParityManifestFindings at hvalidate
    split at hvalidate
    · cases hvalidate
    · exact Except.ok.inj hvalidate
  obtain ⟨rows, h⟩ := manifestFacts_of_findings fun f hf => by
    rcases hfindings f (hlist ▸ hf) with h | h <;> rw [h] <;> decide
  obtain ⟨count, hcount, hcanonical⟩ := h.canonicalManifest_eq
  set w := orderedObject rootFields (rootField m rows count) with hw
  obtain ⟨hdistinct, hreread⟩ := (h.settled_canonical hm count).spec
  have htree := jsonTree_pretty w
  refine ⟨textUnits (jsonPretty 0 w ++ ['\n']), w, ?_, ?_, h.sameManifest hm hcount,
    h.validate_canonical hcount, ?_, ?_⟩
  · rw [renderParityManifest, hcanonical]
    rfl
  · rw [jsonParseUnits_eq, htree, Option.bind_some,
      JsonValue.value_tree (h.allNumbers hnumber hcount), hreread]
  · rw [findDuplicateJsonKeys_eq htree, JsonTree.duplicates_eq_nil_iff]
    exact JsonValue.not_hasDuplicateKey_tree hdistinct
  · rw [renderParityManifest, h.canonicalManifest_canonical hcount hcanonical]
    rfl

/-- A row of a capability that is missing. -/
def sampleParityRow (id f : String) : Option JsonValue :=
  if f ∈ boolFields then some (.bool (f = "provider_exposed"))
  else match f with
    | "provider" => some (.text "openai")
    | "surface" => some (.text "OPENAI_API")
    | "family" => some (.text "files")
    | "capability_id" => some (.text id)
    | "capability_name" => some (.text "Files")
    | "official_status" => some (.text "GA")
    | "official_source" => some (.text "https://openai.com/")
    | "source_type" => some (.text "guide")
    | "verified_at" => some (.text "2026-07-01")
    | "classification" => some (.text "MISSING")
    | "notes" => some (.text "")
    | _ => some .null

lemma one_natAbs_lt : (1 : ℤ).natAbs < 10 ^ 21 := by decide

lemma two_natAbs_lt : (2 : ℤ).natAbs < 10 ^ 21 := by decide

/-- A manifest with two rows in the wrong order, and whose keys are so, too. -/
def sampleParityManifest : JsonValue :=
  orderedObject rootFields fun f =>
    match f with
    | "schema_version" => some (.int 1 one_natAbs_lt)
    | "name" => some (.text "native-experience-parity-v1")
    | "research_snapshot_date" => some (.text "2026-07-01")
    | "source_anchor" => some (.str (List.replicate 40 0x61))
    | "capability_count" => some (.int 2 two_natAbs_lt)
    | "capabilities" => some (.arr [orderedObject rowFields.reverse (sampleParityRow "files-read"),
        orderedObject rowFields.reverse (sampleParityRow "files-list")])
    | _ => some (.text "parity")

/-- Every source is found on the first host. -/
def sampleParseUrl (_ : JsString) : Option ParsedUrl :=
  some ⟨jsString "https:", jsString "openai.com", jsString "/"⟩

/-- The sample is a value that `JSON.parse` returns. -/
lemma settled_sampleParityManifest : sampleParityManifest.Settled := by
  obtain ⟨⟨hroot, hrow⟩, hindex⟩ := fields_plain
  have hindex : ∀ f, f ∈ rootFields ∨ f ∈ rowFields → arrayIndex (jsString f) = none := fun f hf =>
    of_decide_eq_true (List.all_eq_true.mp hindex f (List.mem_append.mpr hf))
  have hrowSettled : ∀ id, (orderedObject rowFields.reverse (sampleParityRow id)).Settled := by
    refine fun id => settled_orderedObject (List.nodup_reverse.mpr hrow)
      (fun f hf => hindex f (.inr (List.mem_reverse.mp hf))) fun f _ v hv => ?_
    unfold sampleParityRow at hv
    split at hv
    · exact Option.some.inj hv ▸ .bool _
    · split at hv <;> first | exact Option.some.inj hv ▸ .str _ | exact Option.some.inj hv ▸ .null
  refine settled_orderedObject hroot (fun f hf => hindex f (.inl hf)) fun f _ v hv => ?_
  split at hv
  · exact Option.some.inj hv ▸ .num _
  · exact Option.some.inj hv ▸ .str _
  · exact Option.some.inj hv ▸ .str _
  · exact Option.some.inj hv ▸ .str _
  · exact Option.some.inj hv ▸ .num _
  · obtain rfl := Option.some.inj hv
    refine .arr fun row h => ?_
    rcases List.mem_pair.mp h with rfl | rfl <;> exact hrowSettled _
  · exact Option.some.inj hv ▸ .str _

/-- The sample has findings about its rows and their keys, and formatting repairs it. -/
theorem renderParityManifest_keeps_content_sample :
    (validateParityManifestFindings sampleParseUrl sampleParityManifest).toOption.map
        (List.map ParityFinding.code) = some [.keyOrder, .keyOrder, .rowOrder] ∧
      ∃ out w, renderParityManifest sampleParityManifest = some out ∧
        jsonParseUnits exactNumber out = some w ∧ SameManifest sampleParityManifest w ∧
        validateParityManifestFindings sampleParseUrl w = .ok [] ∧
        findDuplicateJsonKeys out = [] ∧ renderParityManifest w = some out := by
  have hcodes : (validateParityManifestFindings sampleParseUrl sampleParityManifest).toOption.map
      (List.map ParityFinding.code) = some [.keyOrder, .keyOrder, .rowOrder] := by decide +kernel
  have hnumber : sampleParityManifest.AllNumbers fun x => exactNumber (numberText x.1) = some x :=
    JsonValue.allNumbers_of_forall exactNumber_numberText _
  have hparse : jsonParseUnits exactNumber
      (textUnits (jsonPretty 0 sampleParityManifest ++ ['\n'])) = some sampleParityManifest := by
    rw [jsonParseUnits_eq, jsonTree_pretty, Option.bind_some, JsonValue.value_tree hnumber,
      settled_sampleParityManifest.spec.2]
  obtain ⟨findings, hvalidate, hmap⟩ := Option.map_eq_some_iff.mp hcodes
  refine ⟨hcodes, renderParityManifest_keeps_content sampleParseUrl hnumber hparse
    (except_toOption_eq_some_iff.mp hvalidate) fun f hf => ?_⟩
  have hmem := List.mem_map_of_mem (f := ParityFinding.code) hf
  rw [hmap] at hmem
  simpa [or_comm] using hmem

end GovAI
