import GovAI.Json.Number

/-!
# What is printed is read back

`JSON.parse` applied to `JSON.stringify` of a value returns the value again, each object in the
order in which JavaScript walks its properties.  So two values with the same canonical text are the
same up to the order of keys.
-/

namespace GovAI

/-! ## Own properties of an object with distinct keys -/

/-- Properties with new keys are appended. -/
lemma foldl_writeProp {α : Type} {acc props : List (JsString × α)}
    (h : ((acc ++ props).map (·.1)).Nodup) : props.foldl writeProp acc = acc ++ props := by
  induction props generalizing acc with
  | nil => simp
  | cons p props ih =>
    have hnew : p.1 ∉ acc.map (·.1) := by
      intro hmem
      rw [List.map_append, List.map_cons] at h
      exact (List.nodup_append.mp h).2.2 _ hmem _ (by simp) rfl
    rw [List.foldl_cons, writeProp, if_neg hnew, ih (by simpa using h)]
    simp

/-- The order of own properties is a permutation. -/
lemma ownOrder_perm {α : Type} (props : List (JsString × α)) : (ownOrder props).Perm props :=
  ((List.perm_insertionSort _ _).append_right _).trans (List.filter_append_perm _ props)

/-- With distinct keys the own properties are those that were written. -/
lemma ownProps_perm {α : Type} {props : List (JsString × α)} (h : (props.map (·.1)).Nodup) :
    (ownProps props).Perm props := by
  rw [ownProps, foldl_writeProp (by simpa using h)]
  exact ownOrder_perm props

namespace JsonValue

/-! ## The value that is read back -/

mutual

/-- The value as `JSON.parse` returns it: the properties of every object in the order of
JavaScript. -/
def reread : JsonValue → JsonValue
  | .arr items => .arr (rereadItems items)
  | .obj props => .obj (ownProps (rereadProps props))
  | v => v

/-- The items of an array, reread. -/
def rereadItems : List JsonValue → List JsonValue
  | [] => []
  | v :: rest => v.reread :: rereadItems rest

/-- The properties of an object, reread. -/
def rereadProps : List (JsString × JsonValue) → List (JsString × JsonValue)
  | [] => []
  | (k, v) :: rest => (k, v.reread) :: rereadProps rest

end

mutual

/-- A property of all numbers in a value. -/
def AllNumbers (p : JsonNumber → Prop) : JsonValue → Prop
  | .num x => p x
  | .arr items => AllNumbersItems p items
  | .obj props => AllNumbersProps p props
  | _ => True

/-- A property of all numbers in the items of an array. -/
def AllNumbersItems (p : JsonNumber → Prop) : List JsonValue → Prop
  | [] => True
  | v :: rest => v.AllNumbers p ∧ AllNumbersItems p rest

/-- A property of all numbers in the values of an object. -/
def AllNumbersProps (p : JsonNumber → Prop) : List (JsString × JsonValue) → Prop
  | [] => True
  | (_, v) :: rest => v.AllNumbers p ∧ AllNumbersProps p rest

end

@[simp] lemma rereadItems_eq (items : List JsonValue) :
    rereadItems items = items.map reread := by
  induction items with
  | nil => rfl
  | cons v items ih => simp [rereadItems, ih]

@[simp] lemma rereadProps_eq (props : List (JsString × JsonValue)) :
    rereadProps props = props.map fun p => (p.1, p.2.reread) := by
  induction props with
  | nil => rfl
  | cons p props ih => simp [rereadProps, ih]

@[simp] lemma allNumbersItems_iff {p : JsonNumber → Prop} {items : List JsonValue} :
    AllNumbersItems p items ↔ ∀ v ∈ items, v.AllNumbers p := by
  induction items with
  | nil => simp [AllNumbersItems]
  | cons v items ih => simp [AllNumbersItems, ih]

@[simp] lemma allNumbersProps_iff {p : JsonNumber → Prop} {props : List (JsString × JsonValue)} :
    AllNumbersProps p props ↔ ∀ q ∈ props, q.2.AllNumbers p := by
  induction props with
  | nil => simp [AllNumbersProps]
  | cons q props ih => simp [AllNumbersProps, ih]

/-- A map that changes nothing but the order of the properties of objects. -/
structure Rearranges (f : JsonValue → JsonValue) : Prop where
  /-- `null` is kept. -/
  null : f .null = .null
  /-- Booleans are kept. -/
  bool : ∀ b, f (.bool b) = .bool b
  /-- Numbers are kept. -/
  num : ∀ x, f (.num x) = .num x
  /-- Strings are kept. -/
  str : ∀ s, f (.str s) = .str s
  /-- Arrays are kept item by item. -/
  arr : ∀ items, f (.arr items) = .arr (items.map f)
  /-- The properties of an object are permuted. -/
  obj : ∀ props, (props.map (·.1)).Nodup →
    ∃ props', f (.obj props) = .obj props' ∧ props'.Perm (props.map fun p => (p.1, f p.2))

/-- **A rearranged value has distinct keys, the same sorted form and the same numbers.** -/
theorem Rearranges.spec {f : JsonValue → JsonValue} (hf : Rearranges f) {v : JsonValue}
    (hv : v.Distinct) : (f v).Distinct ∧ (f v).sorted = v.sorted ∧
      ∀ p, v.AllNumbers p → (f v).AllNumbers p := by
  induction v using inductionOn with
  | null => rw [hf.null]; exact ⟨hv, rfl, fun _ h => h⟩
  | bool b => rw [hf.bool]; exact ⟨hv, rfl, fun _ h => h⟩
  | num x => rw [hf.num]; exact ⟨hv, rfl, fun _ h => h⟩
  | str s => rw [hf.str]; exact ⟨hv, rfl, fun _ h => h⟩
  | arr items ih =>
    have hitems : ∀ v ∈ items, v.Distinct := by simpa [Distinct] using hv
    have hsorted : (items.map f).map sorted = items.map sorted := by
      rw [List.map_map]
      exact List.map_congr_left fun v hv => (ih v hv (hitems v hv)).2.1
    rw [hf.arr]
    refine ⟨?_, by simp only [sorted, sortedItems_eq, hsorted], ?_⟩
    · simp only [Distinct, distinctItems_iff, List.forall_mem_map]
      exact fun v hv => (ih v hv (hitems v hv)).1
    · intro p hp
      simp only [AllNumbers, allNumbersItems_iff, List.forall_mem_map] at hp ⊢
      exact fun v hv => (ih v hv (hitems v hv)).2.2 p (hp v hv)
  | obj props ih =>
    obtain ⟨hkeys, hprops⟩ : (props.map (·.1)).Nodup ∧ ∀ p ∈ props, p.2.Distinct := by
      simpa only [Distinct, distinctProps_iff] using hv
    obtain ⟨props', heq, hperm⟩ := hf.obj props hkeys
    have hkeys' : (props'.map (·.1)).Nodup :=
      (hperm.map (·.1)).nodup_iff.mpr (by rwa [keys_map_values])
    rw [heq]
    refine ⟨?_, ?_, ?_⟩
    · simp only [Distinct, distinctProps_iff]
      refine ⟨hkeys', ?_⟩
      intro p hp
      obtain ⟨q, hq, rfl⟩ := List.mem_map.mp (hperm.mem_iff.mp hp)
      exact (ih q hq (hprops q hq)).1
    · have hvalues : (props.map fun p => (p.1, f p.2)).map (fun p => (p.1, p.2.sorted)) =
          props.map fun p => (p.1, p.2.sorted) := by
        rw [List.map_map]
        exact List.map_congr_left fun p hp => by simp [(ih p hp (hprops p hp)).2.1]
      simp only [sorted, sortedProps_eq, obj.injEq]
      refine (sortProps_eq_iff_perm ?_).mpr ?_
      · rwa [keys_map_values]
      · have := hperm.map fun p => (p.1, p.2.sorted)
        rwa [hvalues] at this
    · intro p hp
      simp only [AllNumbers, allNumbersProps_iff] at hp ⊢
      intro q hq
      obtain ⟨r, hr, rfl⟩ := List.mem_map.mp (hperm.mem_iff.mp hq)
      exact (ih r hr (hprops r hr)).2.2 p (hp r hr)

/-- Rereading a value rearranges it. -/
lemma rearranges_reread : Rearranges reread where
  null := rfl
  bool _ := rfl
  num _ := rfl
  str _ := rfl
  arr items := by rw [reread, rereadItems_eq]
  obj props hkeys := by
    refine ⟨_, rfl, ?_⟩
    rw [rereadProps_eq]
    exact ownProps_perm (by rwa [keys_map_values])

/-- Sorting the keys of a value rearranges it. -/
lemma rearranges_sorted : Rearranges sorted where
  null := rfl
  bool _ := rfl
  num _ := rfl
  str _ := rfl
  arr items := by rw [sorted, sortedItems_eq]
  obj props _ := by
    refine ⟨_, rfl, ?_⟩
    rw [sortedProps_eq]
    exact sortProps_perm _

end JsonValue

/-! ## The parser on printed values -/

/-- Parts joined by commas, the first one taken off. -/
lemma joinComma_cons_cons (a b : List Char) (parts : List (List Char)) :
    joinComma (a :: b :: parts) = a ++ ',' :: joinComma (b :: parts) := by
  simp [joinComma, List.intercalate_cons_cons]

/-- A single part. -/
lemma joinComma_singleton (a : List Char) : joinComma [a] = a := by
  simp [joinComma, List.intercalate]

/-- The text of a number begins with a minus sign or a digit. -/
lemma numberText_head (x : JsonNumber) :
    ∃ c cs, numberText x.1 = c :: cs ∧ (c = '-' ∨ c.isDigit = true) := by
  obtain ⟨hsign, ⟨hint, -⟩, -, -⟩ := x.numeral_wellFormed
  rw [numberText_eq_numeral, Numeral.text]
  rcases hsign with hsign | hsign
  · obtain ⟨d, ds, hd⟩ := List.exists_cons_of_ne_nil hint.1
    rw [hsign, hd]
    exact ⟨d, _, rfl, .inr (hint.2 d (by simp [hd]))⟩
  · rw [hsign]
    exact ⟨'-', _, rfl, .inl rfl⟩

/-- The text of a value begins with neither white space nor a closing bracket. -/
lemma jsonStringify_head (v : JsonValue) :
    ∃ c cs, jsonStringify v = c :: cs ∧ isJsonSpace c = false ∧ c ≠ ']' := by
  cases v with
  | null => exact ⟨'n', _, rfl, rfl, by decide⟩
  | bool b =>
    cases b with
    | true => exact ⟨'t', _, rfl, rfl, by decide⟩
    | false => exact ⟨'f', _, rfl, rfl, by decide⟩
  | num x =>
    obtain ⟨c, cs, htext, hc⟩ := numberText_head x
    refine ⟨c, cs, htext, ?_, ?_⟩
    · by_contra hspace
      simp only [isJsonSpace, Bool.not_eq_false, Bool.or_eq_true, decide_eq_true_eq] at hspace
      rcases hspace with ((rfl | rfl) | rfl) | rfl <;> exact absurd hc (by decide)
    · rintro rfl
      exact absurd hc (by decide)
  | str s => exact ⟨'"', _, rfl, rfl, by decide⟩
  | arr items => exact ⟨'[', _, rfl, rfl, by decide⟩
  | obj props => exact ⟨'\x7b', _, rfl, rfl, by decide⟩

/-- White space is skipped up to another character. -/
@[simp] lemma skipSpace_cons {c : Char} (hc : isJsonSpace c = false) (cs : List Char) :
    skipSpace (c :: cs) = c :: cs := by
  simp [skipSpace, hc]

section Parse

variable {number : List Char → Option JsonNumber}

/-- A text that begins with a minus sign or a digit is parsed as a number. -/
lemma parseValue_of_head {c : Char} (hc : c = '-' ∨ c.isDigit = true) (fuel : ℕ) (cs : List Char) :
    parseValue number (fuel + 1) (c :: cs) = (do
      let (numeral, rest) ← scanNumber (c :: cs)
      let x ← number numeral.text
      return (.num x, rest)) := by
  have hspace : isJsonSpace c = false := by
    by_contra hspace
    simp only [isJsonSpace, Bool.not_eq_false, Bool.or_eq_true, decide_eq_true_eq] at hspace
    rcases hspace with ((rfl | rfl) | rfl) | rfl <;> exact absurd hc (by decide)
  have hne : ∀ d : Char, ¬ (d = '-' ∨ d.isDigit = true) → c ≠ d := by
    rintro d hd rfl
    exact hd hc
  rw [parseValue, skipSpace_cons hspace]
  split
  all_goals rename_i heq
  · exact absurd (List.cons.inj heq).1 (hne '[' (by decide))
  · exact absurd (List.cons.inj heq).1 (hne '\x7b' (by decide))
  · exact absurd (List.cons.inj heq).1 (hne '"' (by decide))
  · exact absurd (List.cons.inj heq).1 (hne 'n' (by decide))
  · exact absurd (List.cons.inj heq).1 (hne 't' (by decide))
  · exact absurd (List.cons.inj heq).1 (hne 'f' (by decide))
  · rfl

/-- A value is read back by every call with enough fuel in front of a delimiter. -/
def ReadBack (number : List Char → Option JsonNumber) (v : JsonValue) : Prop :=
  ∀ fuel rest, (jsonStringify v).length ≤ fuel → Delimited rest →
    parseValue number fuel (jsonStringify v ++ rest) = some (v.reread, rest)

/-- A number is read back. -/
lemma readBack_num {x : JsonNumber} (hx : number (numberText x.1) = some x) :
    ReadBack number (.num x) := by
  intro fuel rest hfuel hrest
  obtain ⟨c, cs, htext, hc⟩ := numberText_head x
  simp only [jsonStringify] at hfuel ⊢
  obtain ⟨fuel, rfl⟩ : ∃ k, fuel = k + 1 := ⟨fuel - 1, by rw [htext] at hfuel; simp at hfuel; omega⟩
  have hscan := scanNumber_text x.numeral_wellFormed hrest.endsNumeral
  rw [← numberText_eq_numeral, htext, List.cons_append] at hscan
  rw [htext, List.cons_append, parseValue_of_head hc, hscan]
  simp [← numberText_eq_numeral, hx, JsonValue.reread]

/-- The items of an array are read back when each of them is. -/
lemma parseItems_joinComma {items : List JsonValue} (hne : items ≠ [])
    (h : ∀ v ∈ items, ReadBack number v) {fuel : ℕ}
    (hfuel : (joinComma (items.map jsonStringify)).length < fuel) (rest : List Char) :
    parseItems number fuel (joinComma (items.map jsonStringify) ++ ']' :: rest) =
      some (items.map JsonValue.reread, rest) := by
  induction items generalizing fuel with
  | nil => exact absurd rfl hne
  | cons v items ih =>
    obtain ⟨fuel, rfl⟩ : ∃ k, fuel = k + 1 := ⟨fuel - 1, by omega⟩
    have hv := h v (by simp)
    cases items with
    | nil =>
      simp only [List.map_cons, List.map_nil, joinComma_singleton] at hfuel ⊢
      have hend : Delimited (']' :: rest) := by simp [Delimited]
      rw [parseItems, hv fuel _ (by omega) hend]
      simp [skipSpace, isJsonSpace]
    | cons w items =>
      have hrest := @ih (by simp) (fun u hu => h u (by simp [hu])) fuel
      simp only [List.map_cons, joinComma_cons_cons, List.length_append, List.length_cons,
        List.append_assoc, List.cons_append] at hfuel hrest ⊢
      have hcomma : ∀ cs, Delimited (',' :: cs) := fun cs => by simp [Delimited]
      rw [parseItems, hv fuel _ (by omega) (hcomma _)]
      simp [skipSpace, isJsonSpace, hrest (by omega)]

/-- The properties of an object are read back when each of their values is. -/
lemma parseProps_joinComma {props : List (JsString × JsonValue)} (hne : props ≠ [])
    (h : ∀ p ∈ props, ReadBack number p.2) {fuel : ℕ}
    (hfuel : (joinComma (jsonStringifyProps props)).length < fuel) (rest : List Char) :
    parseProps number fuel (joinComma (jsonStringifyProps props) ++ '\x7d' :: rest) =
      some (props.map fun p => (p.1, p.2.reread), rest) := by
  induction props generalizing fuel with
  | nil => exact absurd rfl hne
  | cons p props ih =>
    obtain ⟨fuel, rfl⟩ : ∃ k, fuel = k + 1 := ⟨fuel - 1, by omega⟩
    have hp := h p (by simp)
    rw [JsonValue.jsonStringifyProps_eq] at hfuel ⊢
    cases props with
    | nil =>
      simp only [List.map_cons, List.map_nil, joinComma_singleton, quoteString, List.length_append,
        List.length_cons, List.cons_append, List.append_assoc, List.nil_append] at hfuel ⊢
      have hend : Delimited ('\x7d' :: rest) := by simp [Delimited]
      simp only [parseProps, skipSpace_cons (c := '"') rfl, parseChars_quoteUnits]
      simp [skipSpace_cons, isJsonSpace, hp fuel _ (by omega) hend]
    | cons q props =>
      have hrest := @ih (by simp) (fun u hu => h u (by simp [hu])) fuel
      rw [JsonValue.jsonStringifyProps_eq] at hrest
      simp only [List.map_cons, joinComma_cons_cons, quoteString, List.length_append,
        List.length_cons, List.cons_append, List.append_assoc, List.nil_append] at hfuel hrest ⊢
      have hcomma : ∀ cs, Delimited (',' :: cs) := fun cs => by simp [Delimited]
      simp only [parseProps, skipSpace_cons (c := '"') rfl, parseChars_quoteUnits]
      simp [skipSpace_cons, isJsonSpace, hp fuel _ (by omega) (hcomma _), hrest (by omega)]

/-- An array is read back when each of its items is. -/
lemma readBack_arr {items : List JsonValue} (h : ∀ v ∈ items, ReadBack number v) :
    ReadBack number (.arr items) := by
  intro fuel rest hfuel _
  simp only [jsonStringify, JsonValue.jsonStringifyItems_eq, List.length_append, List.length_cons,
    List.length_nil] at hfuel
  obtain ⟨fuel, rfl⟩ : ∃ k, fuel = k + 1 := ⟨fuel - 1, by omega⟩
  simp only [jsonStringify, JsonValue.jsonStringifyItems_eq, JsonValue.reread,
    JsonValue.rereadItems_eq, List.cons_append, List.append_assoc, List.nil_append]
  rw [parseValue, skipSpace_cons rfl]
  cases items with
  | nil => simp [joinComma, skipSpace, isJsonSpace]
  | cons v items =>
    have hitems := @parseItems_joinComma number _ (by simp) h fuel (by omega) rest
    obtain ⟨c, cs, htext, hspace, hc⟩ := jsonStringify_head v
    obtain ⟨ds, hds⟩ : ∃ ds, joinComma ((v :: items).map jsonStringify) ++ ']' :: rest =
        c :: ds := by
      cases items with
      | nil => exact ⟨_, by rw [List.map_singleton, joinComma_singleton, htext]; rfl⟩
      | cons w items =>
        exact ⟨_, by rw [List.map_cons, List.map_cons, joinComma_cons_cons, htext]; rfl⟩
    rw [hds] at hitems ⊢
    simp only [skipSpace_cons hspace]
    split
    · rename_i heq
      exact absurd (List.cons.inj heq).1 hc
    · rw [hitems]
      rfl

/-- An object is read back when each of its values is. -/
lemma readBack_obj {props : List (JsString × JsonValue)} (h : ∀ p ∈ props, ReadBack number p.2) :
    ReadBack number (.obj props) := by
  intro fuel rest hfuel _
  simp only [jsonStringify, List.length_append, List.length_cons, List.length_nil] at hfuel
  obtain ⟨fuel, rfl⟩ : ∃ k, fuel = k + 1 := ⟨fuel - 1, by omega⟩
  simp only [jsonStringify, JsonValue.reread, JsonValue.rereadProps_eq, List.cons_append,
    List.append_assoc, List.nil_append]
  rw [parseValue, skipSpace_cons rfl]
  cases props with
  | nil =>
    simp [jsonStringifyProps, joinComma, skipSpace, isJsonSpace]
    rfl
  | cons p props =>
    have hprops := @parseProps_joinComma number _ (by simp) h fuel (by omega) rest
    obtain ⟨ds, hds⟩ : ∃ ds, joinComma (jsonStringifyProps (p :: props)) ++ '\x7d' :: rest =
        '"' :: ds := by
      rw [JsonValue.jsonStringifyProps_eq]
      cases props with
      | nil => exact ⟨_, by rw [List.map_singleton, joinComma_singleton]; rfl⟩
      | cons q props => exact ⟨_, by rw [List.map_cons, List.map_cons, joinComma_cons_cons]; rfl⟩
    rw [hds] at hprops ⊢
    simp [skipSpace_cons, isJsonSpace, hprops]

/-- Every value is read back whose numbers are. -/
lemma readBack_of_numbers {v : JsonValue}
    (hv : v.AllNumbers fun x => number (numberText x.1) = some x) : ReadBack number v := by
  induction v using JsonValue.inductionOn with
  | null =>
    intro fuel rest hfuel _
    obtain ⟨fuel, rfl⟩ : ∃ k, fuel = k + 1 := ⟨fuel - 1, by simp [jsonStringify] at hfuel; omega⟩
    simp [jsonStringify, parseValue, skipSpace, isJsonSpace, JsonValue.reread]
  | bool b =>
    intro fuel rest hfuel _
    obtain ⟨fuel, rfl⟩ : ∃ k, fuel = k + 1 :=
      ⟨fuel - 1, by cases b <;> simp [jsonStringify] at hfuel <;> omega⟩
    cases b <;> simp [jsonStringify, parseValue, skipSpace, isJsonSpace, JsonValue.reread]
  | num x => exact readBack_num hv
  | str s =>
    intro fuel rest hfuel _
    obtain ⟨fuel, rfl⟩ : ∃ k, fuel = k + 1 :=
      ⟨fuel - 1, by simp [jsonStringify, quoteString] at hfuel; omega⟩
    simp only [jsonStringify, quoteString, List.cons_append, List.append_assoc, List.nil_append]
    rw [parseValue, skipSpace_cons rfl]
    simp [parseChars_quoteUnits, JsonValue.reread]
  | arr items ih =>
    have hitems := JsonValue.allNumbersItems_iff.mp hv
    exact readBack_arr fun v hv => ih v hv (hitems v hv)
  | obj props ih =>
    have hprops := JsonValue.allNumbersProps_iff.mp hv
    exact readBack_obj fun p hp => ih p hp (hprops p hp)

/-- **`JSON.parse` returns the value that was printed**, provided that its numbers are read back. -/
theorem jsonParse_jsonStringify {v : JsonValue}
    (hv : v.AllNumbers fun x => number (numberText x.1) = some x) :
    jsonParse number (jsonStringify v) = some v.reread := by
  have hread := readBack_of_numbers hv ((jsonStringify v).length + 1) [] (by omega)
    (by simp [Delimited])
  rw [List.append_nil] at hread
  rw [jsonParse, hread]
  rfl

end Parse

/-- A reader of numerals that inverts `JSON.stringify` on all finite numbers. -/
noncomputable def exactNumber (text : List Char) : Option JsonNumber :=
  open Classical in if h : ∃ x : JsonNumber, numberText x.1 = text then some h.choose else none

/-- The exact reader inverts the printing of numbers. -/
lemma exactNumber_numberText (x : JsonNumber) : exactNumber (numberText x.1) = some x := by
  have h : ∃ y : JsonNumber, numberText y.1 = numberText x.1 := ⟨x, rfl⟩
  rw [exactNumber, dif_pos h]
  exact congrArg some (numberText_injective h.choose_spec)

namespace JsonValue

/-- A property of all numbers holds of the numbers of any value. -/
lemma allNumbers_of_forall {p : JsonNumber → Prop} (hp : ∀ x, p x) (v : JsonValue) :
    v.AllNumbers p := by
  induction v using inductionOn with
  | null => trivial
  | bool b => trivial
  | num x => exact hp x
  | str s => trivial
  | arr items ih => exact allNumbersItems_iff.mpr ih
  | obj props ih => exact allNumbersProps_iff.mpr ih

end JsonValue

/-- **`JSON.stringify` is injective up to the order of keys.** -/
theorem sorted_eq_of_jsonStringify_eq {a b : JsonValue} (ha : a.Distinct) (hb : b.Distinct)
    (h : jsonStringify a = jsonStringify b) : a.sorted = b.sorted := by
  have hread := fun v => jsonParse_jsonStringify
    (JsonValue.allNumbers_of_forall exactNumber_numberText v)
  have hab : a.reread = b.reread := by
    have := hread a
    rw [h, hread b] at this
    exact (Option.some.inj this).symm
  rw [← (JsonValue.rearranges_reread.spec ha).2.1, hab, (JsonValue.rearranges_reread.spec hb).2.1]

/-- **The rendering with sorted keys is a canonical form**: two values have the same text exactly
when they are the same up to the order of keys. -/
theorem jsonStringify_sorted_eq_iff {a b : JsonValue} (ha : a.Distinct) (hb : b.Distinct) :
    jsonStringify a.sorted = jsonStringify b.sorted ↔ a.Same b := by
  obtain ⟨ha', has, -⟩ := JsonValue.rearranges_sorted.spec ha
  obtain ⟨hb', hbs, -⟩ := JsonValue.rearranges_sorted.spec hb
  rw [JsonValue.same_iff_sorted_eq ha hb]
  constructor
  · intro h
    rw [← has, ← hbs]
    exact sorted_eq_of_jsonStringify_eq ha' hb' h
  · intro h
    rw [h]

end GovAI
