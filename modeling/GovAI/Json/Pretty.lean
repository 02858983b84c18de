import GovAI.Json.Reads
import GovAI.Json.RoundTrip

/-!
# Indented JSON

`JSON.stringify` with an indentation of two spaces.  Its text is read back: the syntax tree of the
text is the tree of the value, so `JSON.parse` returns the value again and no key is written twice.
-/

namespace GovAI

/-! ## The rendering -/

/-- A line break with the indentation of a nesting depth. -/
def lineBreak (depth : ℕ) : List Char := '\n' :: List.replicate (2 * depth) ' '

/-- Parts on lines of their own, with commas between them. -/
def joinLines (depth : ℕ) (parts : List (List Char)) : List Char :=
  List.intercalate (',' :: lineBreak depth) parts

/-- The parts of an array or an object between its brackets. -/
def bracketed (left right : Char) (depth : ℕ) (parts : List (List Char)) : List Char :=
  if parts = [] then [left, right]
  else left :: (lineBreak (depth + 1) ++ (joinLines (depth + 1) parts ++ (lineBreak depth ++ [right])))

mutual

/-- `JSON.stringify(v, null, 2)` at a nesting depth. -/
def jsonPretty : ℕ → JsonValue → List Char
  | depth, .arr items => bracketed '[' ']' depth (prettyItems (depth + 1) items)
  | depth, .obj props => bracketed '\x7b' '\x7d' depth (prettyProps (depth + 1) props)
  | _, v => jsonStringify v

/-- The texts of the items of an array. -/
def prettyItems : ℕ → List JsonValue → List (List Char)
  | _, [] => []
  | depth, v :: rest => jsonPretty depth v :: prettyItems depth rest

/-- The texts of the properties of an object. -/
def prettyProps : ℕ → List (JsString × JsonValue) → List (List Char)
  | _, [] => []
  | depth, (k, v) :: rest =>
    (quoteString k ++ (':' :: ' ' :: jsonPretty depth v)) :: prettyProps depth rest

end

mutual

/-- The syntax tree of the text of a value. -/
def JsonValue.tree : JsonValue → JsonTree
  | .null => .null
  | .bool b => .bool b
  | .num x => .num (numberText x.1)
  | .str s => .str s
  | .arr items => .arr (treeItems items)
  | .obj props => .obj (treeProps props)

/-- The trees of the items of an array. -/
def JsonValue.treeItems : List JsonValue → List JsonTree
  | [] => []
  | v :: rest => v.tree :: treeItems rest

/-- The trees of the properties of an object. -/
def JsonValue.treeProps : List (JsString × JsonValue) → List (JsString × JsonTree)
  | [] => []
  | (k, v) :: rest => (k, v.tree) :: treeProps rest

end

@[simp] lemma prettyItems_eq (depth : ℕ) (items : List JsonValue) :
    prettyItems depth items = items.map (jsonPretty depth) := by
  induction items with
  | nil => rfl
  | cons v items ih => simp [prettyItems, ih]

@[simp] lemma prettyProps_eq (depth : ℕ) (props : List (JsString × JsonValue)) :
    prettyProps depth props =
      props.map fun p => quoteString p.1 ++ (':' :: ' ' :: jsonPretty depth p.2) := by
  induction props with
  | nil => rfl
  | cons p props ih => simp [prettyProps, ih]

namespace JsonValue

@[simp] lemma treeItems_eq (items : List JsonValue) : treeItems items = items.map tree := by
  induction items with
  | nil => rfl
  | cons v items ih => simp [treeItems, ih]

@[simp] lemma treeProps_eq (props : List (JsString × JsonValue)) :
    treeProps props = props.map fun p => (p.1, p.2.tree) := by
  induction props with
  | nil => rfl
  | cons p props ih => simp [treeProps, ih]

/-- **The tree of a value has no duplicate key**, since the keys of an object are distinct. -/
theorem not_hasDuplicateKey_tree {v : JsonValue} (hv : v.Distinct) : ¬v.tree.HasDuplicateKey := by
  induction v using inductionOn with
  | null => exact nofun
  | bool b => exact nofun
  | num x => exact nofun
  | str s => exact nofun
  | arr items ih =>
    have hitems : ∀ w ∈ items, w.Distinct := by simpa [Distinct] using hv
    simp only [tree, treeItems_eq]
    rintro (_ | ⟨ht, hdup⟩)
    obtain ⟨w, hw, rfl⟩ := List.mem_map.mp ht
    exact ih w hw (hitems w hw) hdup
  | obj props ih =>
    obtain ⟨hkeys, hprops⟩ : (props.map (·.1)).Nodup ∧ ∀ p ∈ props, p.2.Distinct := by
      simpa only [Distinct, distinctProps_iff] using hv
    simp only [tree, treeProps_eq]
    intro hdup
    cases hdup with
    | here hnot => exact hnot (by rwa [keys_map_values])
    | member hm hdup =>
      obtain ⟨p, hp, rfl⟩ := List.mem_map.mp hm
      exact ih p hp (hprops p hp) hdup

/-- **The value of its tree is the value reread**, provided that its numbers are read back. -/
theorem value_tree {number : List Char → Option JsonNumber} {v : JsonValue}
    (hv : v.AllNumbers fun x => number (numberText x.1) = some x) :
    v.tree.value number = some v.reread := by
  induction v using inductionOn with
  | null => rfl
  | bool b => rfl
  | num x =>
    have hx : number (numberText x.1) = some x := hv
    simp [tree, JsonTree.value, hx, reread]
  | str s => rfl
  | arr items ih =>
    have hnumbers := allNumbersItems_iff.mp hv
    have hitems : ∀ ws : List JsonValue, (∀ w ∈ ws, w ∈ items) →
        JsonTree.itemValues number (ws.map tree) = some (ws.map reread) := by
      intro ws hws
      induction ws with
      | nil => rfl
      | cons w ws ih' =>
        have hw := hws w List.mem_cons_self
        have hrest := ih' fun u hu => hws u (List.mem_cons_of_mem w hu)
        simp [JsonTree.itemValues, ih w hw (hnumbers w hw), hrest]
    simp [tree, JsonTree.value, reread, hitems items fun _ h => h]
  | obj props ih =>
    have hnumbers := allNumbersProps_iff.mp hv
    have hprops : ∀ qs : List (JsString × JsonValue), (∀ q ∈ qs, q ∈ props) →
        JsonTree.memberValues number (qs.map fun q => (q.1, q.2.tree)) =
          some (qs.map fun q => (q.1, q.2.reread)) := by
      intro qs hqs
      induction qs with
      | nil => rfl
      | cons q qs ih' =>
        have hq := hqs q List.mem_cons_self
        have hrest := ih' fun u hu => hqs u (List.mem_cons_of_mem q hu)
        simp [JsonTree.memberValues, ih q hq (hnumbers q hq), hrest]
    simp [tree, JsonTree.value, reread, hprops props fun _ h => h]

end JsonValue

/-! ## The text is read back -/

/-- Parts on lines of their own, the first one taken off. -/
lemma joinLines_cons_cons (depth : ℕ) (a b : List Char) (parts : List (List Char)) :
    joinLines depth (a :: b :: parts) =
      a ++ (',' :: (lineBreak depth ++ joinLines depth (b :: parts))) := by
  simp [joinLines, List.intercalate_cons_cons]

/-- A single part. -/
lemma joinLines_singleton (depth : ℕ) (a : List Char) : joinLines depth [a] = a := by
  simp [joinLines, List.intercalate]

/-- A line break is white space. -/
@[simp] lemma skipSpace_lineBreak (depth : ℕ) (cs : List Char) :
    skipSpace (lineBreak depth ++ cs) = skipSpace cs := by
  rw [skipSpace, List.dropWhile_append_of_pos, skipSpace]
  intro c hc
  rcases List.mem_cons.mp hc with rfl | hc
  · rfl
  · rw [List.eq_of_mem_replicate hc]
    rfl

/-- A space is white space. -/
@[simp] lemma skipSpace_space (cs : List Char) : skipSpace (' ' :: cs) = skipSpace cs := by
  simp [skipSpace, isJsonSpace]

/-- The readers skip white space first. -/
lemma read_of_skipSpace_eq {cs ds : List Char} (h : skipSpace cs = skipSpace ds) (fuel : ℕ) :
    readTree fuel cs = readTree fuel ds ∧ readItems fuel cs = readItems fuel ds ∧
      readMembers fuel cs = readMembers fuel ds := by
  cases fuel with
  | zero => exact ⟨rfl, rfl, rfl⟩
  | succ fuel =>
    have htree : ∀ k, readTree k cs = readTree k ds := by
      intro k
      cases k with
      | zero => rfl
      | succ k => simp only [readTree, h]
    exact ⟨htree _, by simp only [readItems, htree], by simp only [readMembers, h]⟩

/-- The first character of the text of a value is that of its compact text. -/
lemma jsonPretty_head (depth : ℕ) (v : JsonValue) :
    ∃ c cs, jsonPretty depth v = c :: cs ∧ isJsonSpace c = false ∧ c ≠ ']' := by
  have hbracket : ∀ (left right : Char) (parts : List (List Char)),
      ∃ cs, bracketed left right depth parts = left :: cs := by
    intro left right parts
    unfold bracketed
    split
    · exact ⟨_, rfl⟩
    · exact ⟨_, rfl⟩
  cases v with
  | arr items =>
    obtain ⟨cs, hcs⟩ := hbracket '[' ']' (prettyItems (depth + 1) items)
    exact ⟨'[', cs, hcs, rfl, by decide⟩
  | obj props =>
    obtain ⟨cs, hcs⟩ := hbracket '\x7b' '\x7d' (prettyProps (depth + 1) props)
    exact ⟨'\x7b', cs, hcs, rfl, by decide⟩
  | null => exact jsonStringify_head .null
  | bool b => exact jsonStringify_head (.bool b)
  | num x => exact jsonStringify_head (.num x)
  | str s => exact jsonStringify_head (.str s)

/-- The tree of a value is read from its text by every call with enough fuel, in front of anything
that does not continue a numeral. -/
def TreeReadBack (v : JsonValue) : Prop :=
  ∀ depth fuel rest, (jsonPretty depth v).length ≤ fuel → EndsNumeral rest →
    readTree fuel (jsonPretty depth v ++ rest) = some (v.tree, rest)

/-- A text that begins with a minus sign or a digit is read as a numeral. -/
lemma readTree_of_head {c : Char} (hc : c = '-' ∨ c.isDigit = true) (fuel : ℕ) (cs : List Char) :
    readTree (fuel + 1) (c :: cs) = (scanNumber (c :: cs)).map fun r => (.num r.1.text, r.2) := by
  have hspace : isJsonSpace c = false := by
    by_contra hspace
    simp only [isJsonSpace, Bool.not_eq_false, Bool.or_eq_true, decide_eq_true_eq] at hspace
    rcases hspace with ((rfl | rfl) | rfl) | rfl <;> exact absurd hc (by decide)
  have hne : ∀ d : Char, ¬ (d = '-' ∨ d.isDigit = true) → c ≠ d := by
    rintro d hd rfl
    exact hd hc
  rw [readTree, skipSpace_cons hspace]
  split
  all_goals rename_i heq
  · exact absurd (List.cons.inj heq).1 (hne '[' (by decide))
  · exact absurd (List.cons.inj heq).1 (hne '\x7b' (by decide))
  · exact absurd (List.cons.inj heq).1 (hne '"' (by decide))
  · exact absurd (List.cons.inj heq).1 (hne 'n' (by decide))
  · exact absurd (List.cons.inj heq).1 (hne 't' (by decide))
  · exact absurd (List.cons.inj heq).1 (hne 'f' (by decide))
  · rfl

/-- The tree of a number is read back. -/
lemma treeReadBack_num (x : JsonNumber) : TreeReadBack (.num x) := by
  intro depth fuel rest hfuel hrest
  obtain ⟨c, cs, htext, hc⟩ := numberText_head x
  simp only [jsonPretty, jsonStringify] at hfuel ⊢
  obtain ⟨fuel, rfl⟩ : ∃ k, fuel = k + 1 := ⟨fuel - 1, by rw [htext] at hfuel; simp at hfuel; omega⟩
  have hscan := scanNumber_text x.numeral_wellFormed hrest
  rw [← numberText_eq_numeral, htext, List.cons_append] at hscan
  rw [htext, List.cons_append, readTree_of_head hc, hscan, Option.map_some, JsonValue.tree,
    numberText_eq_numeral]

/-- The trees of items are read back when each is. -/
lemma readItems_joinLines {items : List JsonValue} (hne : items ≠ [])
    (h : ∀ v ∈ items, TreeReadBack v) {depth fuel : ℕ}
    (hfuel : (joinLines depth (items.map (jsonPretty depth))).length < fuel) (outer : ℕ)
    (rest : List Char) :
    readItems fuel (joinLines depth (items.map (jsonPretty depth)) ++
        (lineBreak outer ++ ']' :: rest)) = some (items.map JsonValue.tree, rest) := by
  induction items generalizing fuel with
  | nil => exact absurd rfl hne
  | cons v items ih =>
    obtain ⟨fuel, rfl⟩ : ∃ k, fuel = k + 1 := ⟨fuel - 1, by omega⟩
    have hv := h v List.mem_cons_self
    cases items with
    | nil =>
      simp only [List.map_cons, List.map_nil, joinLines_singleton] at hfuel ⊢
      have hend : EndsNumeral (lineBreak outer ++ ']' :: rest) := by simp [EndsNumeral, lineBreak]
      rw [readItems, hv depth fuel _ (by omega) hend]
      simp [skipSpace_cons, isJsonSpace]
    | cons w items =>
      have hrest := @ih (by simp) (fun u hu => h u (List.mem_cons_of_mem v hu)) fuel
      simp only [List.map_cons, joinLines_cons_cons, List.length_append, List.length_cons,
        List.append_assoc, List.cons_append] at hfuel hrest ⊢
      have hcomma : ∀ cs, EndsNumeral (',' :: cs) := fun cs => by simp [EndsNumeral]
      have hbreak := fun cs => (read_of_skipSpace_eq (skipSpace_lineBreak depth cs) fuel).2.1
      rw [readItems, hv depth fuel _ (by omega) (hcomma _)]
      simp [skipSpace_cons, isJsonSpace, hbreak, hrest (by omega)]

/-- The trees of properties are read back when those of their values are. -/
lemma readMembers_joinLines {props : List (JsString × JsonValue)} (hne : props ≠ [])
    (h : ∀ p ∈ props, TreeReadBack p.2) {depth fuel : ℕ}
    (hfuel : (joinLines depth (prettyProps depth props)).length < fuel) (outer : ℕ)
    (rest : List Char) :
    readMembers fuel (joinLines depth (prettyProps depth props) ++
        (lineBreak outer ++ '\x7d' :: rest)) =
      some (props.map fun p => (p.1, p.2.tree), rest) := by
  induction props generalizing fuel with
  | nil => exact absurd rfl hne
  | cons p props ih =>
    obtain ⟨fuel, rfl⟩ : ∃ k, fuel = k + 1 := ⟨fuel - 1, by omega⟩
    have hp := h p List.mem_cons_self
    have hspace := fun cs => (read_of_skipSpace_eq (skipSpace_space cs) fuel).1
    rw [prettyProps_eq] at hfuel ⊢
    cases props with
    | nil =>
      simp only [List.map_cons, List.map_nil, joinLines_singleton, quoteString, List.length_append,
        List.length_cons, List.cons_append, List.append_assoc, List.nil_append] at hfuel ⊢
      have hend : EndsNumeral (lineBreak outer ++ '\x7d' :: rest) := by
        simp [EndsNumeral, lineBreak]
      simp only [readMembers, skipSpace_cons (c := '"') rfl, parseChars_quoteUnits]
      simp [skipSpace_cons, isJsonSpace, hspace, hp depth fuel _ (by omega) hend]
    | cons q props =>
      have hrest := @ih (by simp) (fun u hu => h u (List.mem_cons_of_mem p hu)) fuel
      rw [prettyProps_eq] at hrest
      simp only [List.map_cons, joinLines_cons_cons, quoteString, List.length_append,
        List.length_cons, List.cons_append, List.append_assoc, List.nil_append] at hfuel hrest ⊢
      have hcomma : ∀ cs, EndsNumeral (',' :: cs) := fun cs => by simp [EndsNumeral]
      have hbreak := fun cs => (read_of_skipSpace_eq (skipSpace_lineBreak depth cs) fuel).2.2
      simp only [readMembers, skipSpace_cons (c := '"') rfl, parseChars_quoteUnits]
      simp [skipSpace_cons, isJsonSpace, hspace, hp depth fuel _ (by omega) (hcomma _), hbreak,
        hrest (by omega)]

/-- The tree of an array is read back when those of its items are. -/
lemma treeReadBack_arr {items : List JsonValue} (h : ∀ v ∈ items, TreeReadBack v) :
    TreeReadBack (.arr items) := by
  intro depth fuel rest hfuel _
  obtain ⟨fuel, rfl⟩ : ∃ k, fuel = k + 1 := ⟨fuel - 1, by
    have : 0 < (jsonPretty depth (.arr items)).length := by
      simp only [jsonPretty, bracketed]
      split <;> simp
    omega⟩
  simp only [jsonPretty, prettyItems_eq, bracketed, List.map_eq_nil_iff] at hfuel ⊢
  cases items with
  | nil => simp [readTree, skipSpace, isJsonSpace, JsonValue.tree]
  | cons v items =>
    rw [if_neg (by simp)] at hfuel ⊢
    simp only [List.length_cons, List.length_append] at hfuel
    have hitems := @readItems_joinLines _ (by simp) h (depth + 1) fuel (by omega) depth rest
    rw [List.cons_append, readTree, skipSpace_cons rfl]
    simp only [List.append_assoc, List.singleton_append, skipSpace_lineBreak]
    obtain ⟨c, cs, htext, hspace, hc⟩ := jsonPretty_head (depth + 1) v
    obtain ⟨ds, hds⟩ : ∃ ds, joinLines (depth + 1) ((v :: items).map (jsonPretty (depth + 1))) ++
        (lineBreak depth ++ ']' :: rest) = c :: ds := by
      cases items with
      | nil => exact ⟨_, by rw [List.map_singleton, joinLines_singleton, htext]; rfl⟩
      | cons w items =>
        exact ⟨_, by rw [List.map_cons, List.map_cons, joinLines_cons_cons, htext]; rfl⟩
    rw [hds] at hitems ⊢
    rw [skipSpace_cons hspace]
    split
    · rename_i heq
      exact absurd (List.cons.inj heq).1 hc
    · rw [hitems, Option.map_some, JsonValue.tree, JsonValue.treeItems_eq]

/-- The tree of an object is read back when those of its values are. -/
lemma treeReadBack_obj {props : List (JsString × JsonValue)} (h : ∀ p ∈ props, TreeReadBack p.2) :
    TreeReadBack (.obj props) := by
  intro depth fuel rest hfuel _
  obtain ⟨fuel, rfl⟩ : ∃ k, fuel = k + 1 := ⟨fuel - 1, by
    have : 0 < (jsonPretty depth (.obj props)).length := by
      simp only [jsonPretty, bracketed]
      split <;> simp
    omega⟩
  simp only [jsonPretty, bracketed] at hfuel ⊢
  cases props with
  | nil => simp [prettyProps, readTree, skipSpace, isJsonSpace, JsonValue.tree]
  | cons p props =>
    rw [if_neg (by simp [prettyProps_eq])] at hfuel ⊢
    simp only [List.length_cons, List.length_append] at hfuel
    have hprops := @readMembers_joinLines _ (by simp) h (depth + 1) fuel (by omega) depth rest
    rw [List.cons_append, readTree, skipSpace_cons rfl]
    simp only [List.append_assoc, List.singleton_append, skipSpace_lineBreak]
    obtain ⟨ds, hds⟩ : ∃ ds, joinLines (depth + 1) (prettyProps (depth + 1) (p :: props)) ++
        (lineBreak depth ++ '\x7d' :: rest) = '"' :: ds := by
      rw [prettyProps_eq]
      cases props with
      | nil => exact ⟨_, by rw [List.map_singleton, joinLines_singleton]; rfl⟩
      | cons q props => exact ⟨_, by rw [List.map_cons, List.map_cons, joinLines_cons_cons]; rfl⟩
    rw [hds] at hprops ⊢
    rw [skipSpace_cons rfl]
    split
    · rename_i heq
      exact absurd (List.cons.inj heq).1 (by decide)
    · rw [hprops, Option.map_some, JsonValue.tree, JsonValue.treeProps_eq]

/-- **The tree of every value is read back from its text.** -/
theorem treeReadBack (v : JsonValue) : TreeReadBack v := by
  have hpos : ∀ {w : JsonValue} {fuel : ℕ}, (jsonStringify w).length ≤ fuel → ∃ k, fuel = k + 1 := by
    intro w fuel hfuel
    obtain ⟨c, cs, htext, -⟩ := jsonStringify_head w
    rw [htext, List.length_cons] at hfuel
    exact ⟨fuel - 1, by omega⟩
  induction v using JsonValue.inductionOn with
  | null =>
    intro depth fuel rest hfuel _
    obtain ⟨fuel, rfl⟩ := @hpos .null _ hfuel
    simp [jsonPretty, jsonStringify, readTree, skipSpace, isJsonSpace, JsonValue.tree]
  | bool b =>
    intro depth fuel rest hfuel _
    obtain ⟨fuel, rfl⟩ := @hpos (.bool b) _ hfuel
    cases b <;>
      simp [jsonPretty, jsonStringify, readTree, skipSpace, isJsonSpace, JsonValue.tree]
  | num x => exact treeReadBack_num x
  | str s =>
    intro depth fuel rest hfuel _
    obtain ⟨fuel, rfl⟩ := @hpos (.str s) _ hfuel
    simp only [jsonPretty, jsonStringify, quoteString, List.cons_append, List.append_assoc,
      List.nil_append]
    rw [readTree, skipSpace_cons rfl]
    simp [parseChars_quoteUnits, JsonValue.tree]
  | arr items ih => exact treeReadBack_arr ih
  | obj props ih => exact treeReadBack_obj ih

/-- **The tree of a text with a final line break is that of the value.** -/
theorem jsonTree_pretty (v : JsonValue) :
    jsonTree (textUnits (jsonPretty 0 v ++ ['\n'])) = some v.tree := by
  have hend : EndsNumeral ['\n'] := by simp [EndsNumeral]
  have hread := treeReadBack v 0 ((jsonPretty 0 v ++ ['\n']).length + 1) ['\n']
    (by rw [List.length_append]; omega) hend
  rw [jsonTree, show jsonText false _ = _ from readsAs_textUnits _, Option.bind_some, readText, hread]
  rfl

end GovAI
