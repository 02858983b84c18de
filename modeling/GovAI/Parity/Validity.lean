import GovAI.Parity.Render

/-!
# What the validator of the parity manifest grants

A manifest without an invalid finding has rows with exactly the fields of the schema, each a valid row
by its fields, and no two rows with the same key.  Conversely such rows, in canonical form and order,
have no finding at all.
-/

namespace GovAI

/-! ## Single checks -/

@[simp] lemma report_eq_nil_iff {c : Bool} {message : List MessagePart} :
    report c message = [] ↔ c = false := by
  cases c <;> simp [report]

@[simp] lemma isText_iff {v : Option JsonValue} {s : String} :
    isText v s = true ↔ v = some (.str (jsString s)) := by
  unfold isText
  split
  · simp
  · rename_i hne
    exact iff_of_false Bool.false_ne_true fun h => hne _ h

/-- The value is the text of the member that was found. -/
lemma oneOf_eq_some {α : Type} {text : α → String} {vocab : List α} {v : Option JsonValue} {a : α}
    (h : oneOf text vocab v = some a) : v = some (.str (jsString (text a))) ∧ a ∈ vocab :=
  ⟨isText_iff.mp (List.find?_some (p := fun a => isText v (text a)) h), List.mem_of_find?_eq_some h⟩

/-- A string that is not empty. -/
lemma exists_of_isNonempty {v : Option JsonValue} (h : isNonempty v = true) :
    ∃ s, v = some (.str s) := by
  unfold isNonempty at h
  split at h
  · exact ⟨_, rfl⟩
  · exact absurd h Bool.false_ne_true

/-- A string with a property. -/
lemma exists_of_isStringWith {p : JsString → Bool} {v : Option JsonValue}
    (h : isStringWith p v = true) : ∃ s, v = some (.str s) := by
  unfold isStringWith at h
  split at h
  · exact ⟨_, rfl⟩
  · exact absurd h Bool.false_ne_true

/-- A number is an integer. -/
lemma eq_of_isInteger {v : Option JsonValue} {n : ℤ} (h : isInteger v n = true) :
    ∃ x : JsonNumber, v = some (.num x) ∧ x.1 = .int n := by
  unfold isInteger at h
  split at h
  · rename_i x
    exact ⟨x, rfl, of_decide_eq_true h⟩
  · exact absurd h Bool.false_ne_true

/-- A property is there when its key is. -/
lemma isSome_get_iff {v : JsonValue} (hv : isObject v = true) {f : String} :
    (v.get f).isSome = true ↔ jsString f ∈ objectKeys v := by
  cases v with
  | obj props =>
    simp only [JsonValue.get, objectKeys, Option.isSome_map, List.find?_isSome, List.mem_map,
      decide_eq_true_eq]
  | _ => exact absurd hv Bool.false_ne_true

/-! ## A valid row -/

section Row

variable {parseUrl : JsString → Option ParsedUrl} {snap : Option JsonValue}

/-- What a row shows that passes the checks of its fields. -/
structure RowFacts (field : String → Option JsonValue) where
  /-- The surface. -/
  surface : Surface
  /-- The capability id. -/
  capabilityId : JsString
  /-- The family. -/
  family : JsString
  surface_eq : field "surface" = some (.str (jsString surface.text))
  id_eq : field "capability_id" = some (.str capabilityId)
  family_eq : field "family" = some (.str family)
  key_eq : rowKey field = some (jsString surface.text ++ (asciiUnit '/' :: capabilityId))

/-- **The fields of a row that passes its checks**, and the row was not seen before. -/
theorem rowFacts_of_issues {seen : Bool} {field : String → Option JsonValue}
    (h : rowIssues parseUrl snap seen field = []) : seen = false ∧ Nonempty (RowFacts field) := by
  unfold rowIssues at h
  split at h
  · exact absurd h (List.cons_ne_nil _ _)
  · rename_i surface hsurface
    simp only [List.append_eq_nil_iff, report_eq_nil_iff, List.flatMap_cons, List.flatMap_nil,
      List.append_nil, Bool.not_eq_false'] at h
    obtain ⟨⟨⟨⟨⟨-, hid⟩, hfamily, -⟩, -⟩, -⟩, -⟩ := h
    obtain ⟨family, hfamily⟩ := exists_of_isNonempty hfamily
    unfold idIssues at hid
    split at hid
    · exact absurd hid (List.cons_ne_nil _ _)
    · rename_i key hkey
      refine ⟨report_eq_nil_iff.mp hid, ?_⟩
      have hkey' := hkey
      unfold rowKey at hkey'
      rw [hsurface] at hkey'
      split at hkey'
      · rename_i surface' id hs hcapability
        obtain rfl := Option.some.inj hs
        split at hkey'
        · rw [← hkey'] at hkey
          exact ⟨⟨surface, id, family, (oneOf_eq_some hsurface).1, hcapability, hfamily, hkey⟩⟩
        · exact absurd hkey' nofun
      · exact absurd hkey' nofun

/-- A row is valid: an object with the fields of the schema that pass their checks. -/
structure ValidRow (parseUrl : JsString → Option ParsedUrl) (snap : Option JsonValue)
    (row : JsonValue) : Prop where
  is_object : isObject row = true
  mem_keys : ∀ k, k ∈ objectKeys row ↔ k ∈ rowFields.map jsString
  no_issue : rowIssues parseUrl snap false row.get = []

/-- The keys of a row are those of the schema when their check finds nothing invalid. -/
lemma mem_keys_of_rowKeyFindings {row : JsonValue} (h : ∀ f ∈ rowKeyFindings row, f.code ≠ .invalid)
    (k : JsString) : k ∈ objectKeys row ↔ k ∈ rowFields.map jsString := by
  unfold rowKeyFindings at h
  dsimp only at h
  split at h
  · exact absurd rfl (h _ List.mem_cons_self)
  · rename_i hexact
    simp only [not_or, not_not, List.filter_eq_nil_iff, Bool.not_eq_true, Bool.not_eq_false',
      List.contains_iff_mem] at hexact
    obtain ⟨hmissing, hextra, -⟩ := hexact
    refine ⟨hextra k, fun hk => ?_⟩
    obtain ⟨f, hf, rfl⟩ := List.mem_map.mp hk
    exact hmissing f hf

/-- **A row without an invalid finding is valid and was not seen before.** -/
theorem validRow_of_findings {i : ℕ} {seen : Bool} {row : JsonValue}
    (h : ∀ f ∈ rowFindings parseUrl snap i seen row, f.code ≠ .invalid) :
    seen = false ∧ ValidRow parseUrl snap row := by
  have hfields : ∀ {place : List MessagePart}, (∀ f ∈ (rowKeyFindings row ++
      (rowIssues parseUrl snap seen row.get).map (ParityFinding.mk .invalid)).map
        (ParityFinding.inRow place), f.code ≠ .invalid) →
      (∀ f ∈ rowKeyFindings row, f.code ≠ .invalid) ∧ rowIssues parseUrl snap seen row.get = [] := by
    intro place hall
    rw [List.map_append, List.forall_mem_append] at hall
    obtain ⟨hkeys, hissues⟩ := hall
    refine ⟨fun f hf => hkeys (f.inRow place) (List.mem_map_of_mem hf), ?_⟩
    by_contra hne
    obtain ⟨message, rest, hcons⟩ := List.exists_cons_of_ne_nil hne
    rw [hcons] at hissues
    exact hissues _ List.mem_cons_self rfl
  cases row with
  | obj props =>
    obtain ⟨hkeys, hissues⟩ := hfields h
    obtain ⟨hseen, -⟩ := rowFacts_of_issues hissues
    subst hseen
    exact ⟨rfl, rfl, mem_keys_of_rowKeyFindings hkeys, hissues⟩
  | arr items =>
    obtain ⟨-, hissues⟩ := hfields h
    obtain ⟨-, ⟨facts⟩⟩ := rowFacts_of_issues hissues
    exact absurd facts.surface_eq nofun
  | _ => exact absurd rfl (h _ List.mem_cons_self)

/-- **Rows without an invalid finding are valid and have distinct keys.** -/
theorem validRows_of_findings {rows : List JsonValue} {i : ℕ} {seen : List JsString}
    (h : ∀ f ∈ rowsFindings parseUrl snap i seen rows, f.code ≠ .invalid) :
    (∀ row ∈ rows, ValidRow parseUrl snap row) ∧
      rows.Pairwise (fun a c => rowKey a.get ≠ rowKey c.get) ∧
      ∀ row ∈ rows, ∀ key ∈ seen, rowKey row.get ≠ some key := by
  induction rows generalizing i seen with
  | nil => exact ⟨fun _ h => absurd h List.not_mem_nil, .nil, fun _ h => absurd h List.not_mem_nil⟩
  | cons row rest ih =>
    rw [rowsFindings, List.forall_mem_append] at h
    obtain ⟨hrow, hrest⟩ := h
    obtain ⟨hseen, hvalid⟩ := validRow_of_findings hrow
    obtain ⟨hall, hpair, hnew⟩ := ih hrest
    obtain ⟨-, ⟨facts⟩⟩ := rowFacts_of_issues hvalid.no_issue
    rw [facts.key_eq, Option.any_some] at hseen
    refine ⟨List.forall_mem_cons.mpr ⟨hvalid, hall⟩, List.pairwise_cons.mpr ⟨fun c hc heq => ?_, hpair⟩,
      List.forall_mem_cons.mpr ⟨fun key hkey heq => ?_, fun c hc key hkey => ?_⟩⟩
    · refine hnew c hc _ (List.mem_append_left _ ?_) (heq ▸ facts.key_eq)
      rw [facts.key_eq]
      exact List.mem_singleton_self _
    · rw [facts.key_eq] at heq
      obtain rfl := Option.some.inj heq
      simp [hkey] at hseen
    · exact hnew c hc key (List.mem_append_right _ hkey)

/-- **Valid rows in canonical form with distinct keys have no finding.** -/
theorem rowsFindings_eq_nil {rows : List JsonValue} {i : ℕ} {seen : List JsString}
    (hrows : ∀ row ∈ rows, isObject row = true ∧ objectKeys row = rowFields.map jsString ∧
      rowIssues parseUrl snap false row.get = [])
    (hpair : rows.Pairwise (fun a c => rowKey a.get ≠ rowKey c.get))
    (hnew : ∀ row ∈ rows, ∀ key ∈ seen, rowKey row.get ≠ some key) :
    rowsFindings parseUrl snap i seen rows = [] := by
  induction rows generalizing i seen with
  | nil => rfl
  | cons row rest ih =>
    obtain ⟨⟨hobject, hkeys, hissues⟩, hrows⟩ := List.forall_mem_cons.mp hrows
    obtain ⟨hhead, hpair⟩ := List.pairwise_cons.mp hpair
    obtain ⟨hnewRow, hnewRest⟩ := List.forall_mem_cons.mp hnew
    obtain ⟨-, ⟨facts⟩⟩ := rowFacts_of_issues hissues
    have hseen : ((rowKey row.get).any fun key => seen.contains key) = false := by
      rw [facts.key_eq, Option.any_some]
      by_contra hmem
      rw [Bool.not_eq_false, List.contains_iff_mem] at hmem
      exact hnewRow _ hmem facts.key_eq
    have hnoKeys : rowKeyFindings row = [] := by
      unfold rowKeyFindings
      simp [hkeys]
    have hrow : rowFindings parseUrl snap i false row = [] := by
      cases row with
      | obj props => simp [rowFindings, hnoKeys, hissues]
      | _ => exact absurd hobject Bool.false_ne_true
    rw [rowsFindings, hseen, hrow, List.nil_append]
    refine ih hrows hpair fun c hc key hkey => ?_
    rcases List.mem_append.mp hkey with hkey | hkey
    · rw [facts.key_eq] at hkey
      obtain rfl := List.mem_singleton.mp hkey
      exact fun heq => hhead c hc (facts.key_eq.trans heq.symm)
    · exact hnewRest c hc key hkey

/-! ## Order -/

/-- A string is not after itself. -/
lemma keyLe_refl (s : JsString) : keyLe s s = true := decide_eq_true le_rfl

/-- Of two different strings exactly one is after the other. -/
lemma keyLe_eq_false_iff {s t : JsString} (hst : s ≠ t) : keyLe t s = false ↔ keyLe s t = true := by
  constructor
  · intro h
    rw [keyLe, decide_eq_false_iff_not, not_le] at h
    exact decide_eq_true h.le
  · intro h
    by_contra hback
    exact hst (keyLe_antisymm h (by simpa using hback))

/-- The validator's comparison of two rows is the order of the renderer. -/
theorem outOfOrder_iff {a c : JsonValue} (ha : RowFacts a.get) (hc : RowFacts c.get) :
    outOfOrder a c = false ↔ orderKey a < orderKey c := by
  rw [← rowBefore_iff]
  simp only [outOfOrder, rowBefore, rowRank, rowText, ha.surface_eq, hc.surface_eq, ha.family_eq,
    hc.family_eq, ha.id_eq, hc.id_eq, stringOfProperty, stringOf, unitsAfter]
  generalize surfaceRank (jsString ha.surface.text) = m
  generalize surfaceRank (jsString hc.surface.text) = n
  rcases lt_trichotomy m n with hmn | rfl | hmn
  · simp [hmn, hmn.ne, hmn.le]
  · by_cases hfamily : ha.family = hc.family
    · simp [hfamily, keyLe_refl]
    · simp [hfamily, keyLe_eq_false_iff hfamily]
  · simp [hmn, hmn.ne', hmn.le]

end Row

end GovAI
