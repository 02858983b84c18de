import GovAI.Json.RoundTrip

/-!
# The canonical text is a canonical form

`canonicalize` on the values that JSON can express: `null`, booleans, finite numbers, strings,
arrays and objects, where a property whose value is `undefined` is left out.  The text determines
the value up to the order of keys, and `JSON.parse` of the text is the value again.
-/

namespace GovAI

/-! ## The value of an input -/

mutual

/-- The JSON value of an input of `canonicalize`, properties with the value `undefined` left out;
`none` where the input has no JSON value. -/
def Json.value : Json → Option JsonValue
  | .null => some .null
  | .bool b => some (.bool b)
  | .num x => if h : x.Printed then some (.num ⟨x, h⟩) else none
  | .str s => some (.str s)
  | .arr items => (Json.valueItems items).map .arr
  | .obj props => (Json.valueProps props).map .obj
  | _ => none

/-- The values of the items of an array. -/
def Json.valueItems : List Json → Option (List JsonValue)
  | [] => some []
  | v :: rest => do
    let w ← v.value
    let rest ← Json.valueItems rest
    return w :: rest

/-- The present properties of an object with their values. -/
def Json.valueProps : List (JsString × Json) → Option (List (JsString × JsonValue))
  | [] => some []
  | (_, .undefined) :: rest => Json.valueProps rest
  | (k, v) :: rest => do
    let w ← v.value
    let rest ← Json.valueProps rest
    return (k, w) :: rest

end

mutual

/-- A value of `JSON.parse` as an input of `canonicalize`. -/
def JsonValue.toJson : JsonValue → Json
  | .null => .null
  | .bool b => .bool b
  | .num x => .num x.1
  | .str s => .str s
  | .arr items => .arr (JsonValue.toJsonItems items)
  | .obj props => .obj (JsonValue.toJsonProps props)

/-- The items of an array as inputs. -/
def JsonValue.toJsonItems : List JsonValue → List Json
  | [] => []
  | v :: rest => v.toJson :: JsonValue.toJsonItems rest

/-- The properties of an object as inputs. -/
def JsonValue.toJsonProps : List (JsString × JsonValue) → List (JsString × Json)
  | [] => []
  | (k, v) :: rest => (k, v.toJson) :: JsonValue.toJsonProps rest

end

/-- A property that is not `undefined` has the value of its content. -/
lemma Json.valueProps_cons (k : JsString) {v : Json} (hv : v ≠ .undefined)
    (rest : List (JsString × Json)) :
    Json.valueProps ((k, v) :: rest) = (do
      let w ← v.value
      let rest ← Json.valueProps rest
      return (k, w) :: rest) := by
  cases v <;> first | rfl | exact absurd rfl hv

/-- A parsed value is not `undefined`. -/
lemma JsonValue.toJson_ne_undefined (v : JsonValue) : v.toJson ≠ .undefined := by
  cases v <;> simp [JsonValue.toJson]

mutual

/-- A parsed value has itself as its value. -/
theorem JsonValue.value_toJson : ∀ v : JsonValue, v.toJson.value = some v
  | .null | .bool _ | .str _ => rfl
  | .num x => by simp [JsonValue.toJson, Json.value, x.2]
  | .arr items => by simp [JsonValue.toJson, Json.value, JsonValue.value_toJsonItems items]
  | .obj props => by simp [JsonValue.toJson, Json.value, JsonValue.value_toJsonProps props]

/-- The items of a parsed array have themselves as their values. -/
theorem JsonValue.value_toJsonItems :
    ∀ items : List JsonValue, Json.valueItems (JsonValue.toJsonItems items) = some items
  | [] => rfl
  | v :: rest => by
    simp [JsonValue.toJsonItems, Json.valueItems, JsonValue.value_toJson v,
      JsonValue.value_toJsonItems rest]

/-- The properties of a parsed object have themselves as their values. -/
theorem JsonValue.value_toJsonProps : ∀ props : List (JsString × JsonValue),
    Json.valueProps (JsonValue.toJsonProps props) = some props
  | [] => rfl
  | (k, v) :: rest => by
    rw [JsonValue.toJsonProps, Json.valueProps_cons k v.toJson_ne_undefined]
    simp [JsonValue.value_toJson v, JsonValue.value_toJsonProps rest]

end

/-! ## The canonical text -/

/-- Properties that all have a text. -/
lemma propTexts_of_texts (props : List (JsString × List Char)) :
    propTexts (props.map fun p => (p.1, some (.ok p.2))) =
      .ok (props.map fun p => quoteString p.1 ++ ':' :: p.2) := by
  induction props with
  | nil => rfl
  | cons p props ih => simp [propTexts, ih, bind, Except.bind, pure, Except.pure]

/-- `undefined` apart, a property contributes the text of its value. -/
lemma stringifyProps_cons (k : JsString) {v : Json} (hv : v ≠ .undefined)
    (rest : List (JsString × Json)) :
    stringifyProps ((k, v) :: rest) = (k, some (stringify v)) :: stringifyProps rest := by
  cases v <;> first | rfl | exact absurd rfl hv

mutual

/-- **The canonical text of an input is the canonical JSON of its value.** -/
theorem stringify_eq_of_value : ∀ (a : Json) (v : JsonValue), a.value = some v →
    stringify a = .ok (stableCanonicalJson v)
  | .null, v, h => by
    obtain rfl : JsonValue.null = v := by simpa [Json.value] using h
    rfl
  | .bool b, v, h => by
    obtain rfl : JsonValue.bool b = v := by simpa [Json.value] using h
    rfl
  | .num x, v, h => by
    simp only [Json.value] at h
    split at h
    · obtain rfl := Option.some.inj h
      rfl
    · simp at h
  | .str s, v, h => by
    obtain rfl : JsonValue.str s = v := by simpa [Json.value] using h
    rfl
  | .arr items, v, h => by
    obtain ⟨vs, hvs, rfl⟩ : ∃ vs, Json.valueItems items = some vs ∧ JsonValue.arr vs = v := by
      simpa [Json.value] using h
    simp [stringify, stringifyItems_eq_of_value items vs hvs, stableCanonicalJson, bind,
      Except.bind, pure, Except.pure]
  | .obj props, v, h => by
    obtain ⟨vs, hvs, rfl⟩ : ∃ vs, Json.valueProps props = some vs ∧ JsonValue.obj vs = v := by
      simpa [Json.value] using h
    have hpresent := stringifyProps_eq_of_value props vs hvs
    have htexts : propTexts (sortProps (stringifyProps props)) =
        .ok ((sortProps (vs.map fun p => (p.1, stableCanonicalJson p.2))).map fun p =>
          quoteString p.1 ++ ':' :: p.2) := by
      have hmap : vs.map (fun p => (p.1, some (Except.ok (ε := String) (stableCanonicalJson p.2)))) =
          (vs.map fun p => (p.1, stableCanonicalJson p.2)).map fun p => (p.1, some (.ok p.2)) := by
        simp
      rw [← propTexts_filter, ← sortProps_filter, hpresent, hmap,
        sortProps_map (fun text => some (Except.ok text)), propTexts_of_texts]
    simp [stringify, htexts, stableCanonicalJson, bind, Except.bind, pure, Except.pure]
  | .nonFinite _, _, h | .bigint, _, h | .undefined, _, h | .other _, _, h => by
    simp [Json.value] at h

/-- The texts of the items are the canonical JSON of their values. -/
theorem stringifyItems_eq_of_value : ∀ (items : List Json) (vs : List JsonValue),
    Json.valueItems items = some vs → stringifyItems items = .ok (vs.map stableCanonicalJson)
  | [], vs, h => by
    obtain rfl : [] = vs := by simpa [Json.valueItems] using h
    rfl
  | a :: rest, vs, h => by
    obtain ⟨v, hv, ws, hws, rfl⟩ : ∃ v, a.value = some v ∧ ∃ ws, Json.valueItems rest = some ws ∧
        v :: ws = vs := by
      simpa [Json.valueItems, Option.bind_eq_some_iff] using h
    simp [stringifyItems, stringify_eq_of_value a v hv, stringifyItems_eq_of_value rest ws hws,
      bind, Except.bind, pure, Except.pure]

/-- The properties that have a text are those that have a value. -/
theorem stringifyProps_eq_of_value : ∀ (props : List (JsString × Json))
    (vs : List (JsString × JsonValue)), Json.valueProps props = some vs →
      (stringifyProps props).filter (fun p => p.2.isSome) =
        vs.map fun p => (p.1, some (.ok (stableCanonicalJson p.2)))
  | [], vs, h => by
    obtain rfl : [] = vs := by simpa [Json.valueProps] using h
    rfl
  | (k, a) :: rest, vs, h => by
    by_cases ha : a = .undefined
    · subst ha
      rw [Json.valueProps] at h
      simpa [stringifyProps] using stringifyProps_eq_of_value rest vs h
    · rw [Json.valueProps_cons k ha] at h
      obtain ⟨v, hv, ws, hws, rfl⟩ : ∃ v, a.value = some v ∧
          ∃ ws, Json.valueProps rest = some ws ∧ (k, v) :: ws = vs := by
        simpa [Option.bind_eq_some_iff] using h
      rw [stringifyProps_cons k ha, stringify_eq_of_value a v hv]
      simp [stringifyProps_eq_of_value rest ws hws]

end

/-- The canonical text of an input that has a JSON value. -/
lemma canonicalize_of_value {a : Json} {v : JsonValue} (h : a.value = some v) :
    canonicalize a = .ok (jsonStringify v.sorted) := by
  rw [← stableCanonicalJson_eq]
  exact stringify_eq_of_value a v h

/-- **`canonicalize` is a canonical form.**  Two inputs with JSON values have the same canonical
text exactly when the values are the same up to the order of keys; `JSON.parse` of the text, when
it reads the numbers of the value back, is the value again up to that order, and its canonical text
is the same. -/
theorem canonicalize_canonicalForm {a b : Json} {va vb : JsonValue} (ha : a.value = some va)
    (hb : b.value = some vb) (hda : va.Distinct) (hdb : vb.Distinct) :
    (canonicalize a = canonicalize b ↔ va.Same vb) ∧
      ∃ text, canonicalize a = .ok text ∧
        ∀ number : List Char → Option JsonNumber,
          va.AllNumbers (fun x => number (numberText x.1) = some x) →
          ∃ w, jsonParse number text = some w ∧ w.Same va ∧ canonicalize w.toJson = .ok text := by
  rw [canonicalize_of_value ha, canonicalize_of_value hb]
  refine ⟨?_, _, rfl, ?_⟩
  · rw [Except.ok.injEq]
    exact jsonStringify_sorted_eq_iff hda hdb
  · intro number hnumbers
    obtain ⟨hsd, hss, hsn⟩ := JsonValue.rearranges_sorted.spec hda
    obtain ⟨hrd, hrs, -⟩ := JsonValue.rearranges_reread.spec hsd
    have hsorted : va.sorted.reread.sorted = va.sorted := hrs.trans hss
    refine ⟨va.sorted.reread, jsonParse_jsonStringify (hsn _ hnumbers), ?_, ?_⟩
    · exact (JsonValue.same_iff_sorted_eq hrd hda).mpr hsorted
    · rw [canonicalize_of_value (JsonValue.value_toJson _), hsorted]

/-- Two spellings of one object have one canonical text: `{b: null, x: undefined, a: [true]}` and
`{a: [true], b: null}`. -/
theorem canonicalize_canonicalForm_sample :
    canonicalize (.obj [([98], .null), ([120], .undefined), ([97], .arr [.bool true])]) =
      canonicalize (.obj [([97], .arr [.bool true]), ([98], .null)]) := by
  have hda : (JsonValue.obj [([98], .null), ([97], .arr [.bool true])]).Distinct := by
    simp [JsonValue.Distinct, JsonValue.DistinctProps, JsonValue.DistinctItems]
  have hdb : (JsonValue.obj [([97], .arr [.bool true]), ([98], .null)]).Distinct := by
    simp [JsonValue.Distinct, JsonValue.DistinctProps, JsonValue.DistinctItems]
  refine (canonicalize_canonicalForm rfl rfl hda hdb).1.mpr ?_
  simp [JsonValue.Same, JsonValue.SameItems]

end GovAI
