import GovAI.Json.Parse

/-!
# The syntax tree of a JSON text

`JSON.parse` keeps of every object the last value of each key.  The syntax tree of a text keeps every
member of every object as it is written, and numerals as their texts, so that one can say of a text
that a key is written twice.  The value of the tree is what `JSON.parse` returns.
-/

namespace GovAI

attribute [local instance] lawfulBEq_jsString

namespace JsonTree

/-- Induction over a syntax tree: arrays by their items, objects by the values of their members. -/
@[elab_as_elim]
theorem inductionOn {motive : JsonTree → Prop} (null : motive .null)
    (bool : ∀ b, motive (.bool b)) (num : ∀ x, motive (.num x)) (str : ∀ s, motive (.str s))
    (arr : ∀ items, (∀ t ∈ items, motive t) → motive (.arr items))
    (obj : ∀ members, (∀ m ∈ members, motive m.2) → motive (.obj members)) : ∀ t, motive t
  | .null => null
  | .bool b => bool b
  | .num x => num x
  | .str s => str s
  | .arr items => arr items fun t ht =>
      have := List.sizeOf_lt_of_mem ht
      inductionOn null bool num str arr obj t
  | .obj members => obj members fun m hm =>
      have hm' := List.sizeOf_lt_of_mem hm
      have ht : sizeOf m.2 < sizeOf m := by
        rw [show sizeOf m = 1 + sizeOf m.1 + sizeOf m.2 from Prod.mk.sizeOf_spec m.1 m.2]
        omega
      inductionOn null bool num str arr obj m.2

/-! ## The value of a tree -/

section Value

variable (number : List Char → Option JsonNumber)

mutual

/-- The value that `JSON.parse` makes of a tree. -/
def value : JsonTree → Option JsonValue
  | .null => some .null
  | .bool b => some (.bool b)
  | .num text => (number text).map .num
  | .str s => some (.str s)
  | .arr items => (itemValues items).map .arr
  | .obj members => (memberValues members).map fun props => .obj (ownProps props)

/-- The values of the items of an array. -/
def itemValues : List JsonTree → Option (List JsonValue)
  | [] => some []
  | t :: rest => do
    let v ← t.value
    let vs ← itemValues rest
    return v :: vs

/-- The values of the members of an object. -/
def memberValues : List (JsString × JsonTree) → Option (List (JsString × JsonValue))
  | [] => some []
  | (k, t) :: rest => do
    let v ← t.value
    let props ← memberValues rest
    return (k, v) :: props

end

end Value

/-! ## Duplicate keys -/

/-- Some object of the tree, at whatever depth, has two members with the same key. -/
inductive HasDuplicateKey : JsonTree → Prop
  | here {members : List (JsString × JsonTree)} :
      ¬(members.map (·.1)).Nodup → HasDuplicateKey (.obj members)
  | item {items : List JsonTree} {t : JsonTree} :
      t ∈ items → HasDuplicateKey t → HasDuplicateKey (.arr items)
  | member {members : List (JsString × JsonTree)} {m : JsString × JsonTree} :
      m ∈ members → HasDuplicateKey m.2 → HasDuplicateKey (.obj members)

mutual

/-- The keys that an earlier member of the same object has, in the order of the text. -/
def duplicates : JsonTree → List JsString
  | .arr items => itemDuplicates items
  | .obj members => memberDuplicates [] members
  | _ => []

/-- The repeated keys inside the items of an array. -/
def itemDuplicates : List JsonTree → List JsString
  | [] => []
  | t :: rest => t.duplicates ++ itemDuplicates rest

/-- The repeated keys of the members of an object that has the keys `seen` already. -/
def memberDuplicates : List JsString → List (JsString × JsonTree) → List JsString
  | _, [] => []
  | seen, (k, t) :: rest =>
    (if k ∈ seen then [k] else []) ++ (t.duplicates ++ memberDuplicates (k :: seen) rest)

end

/-- Nothing is repeated in an array when nothing is in its items. -/
lemma itemDuplicates_eq_nil_iff {items : List JsonTree} :
    itemDuplicates items = [] ↔ ∀ t ∈ items, t.duplicates = [] := by
  induction items with
  | nil => simp [itemDuplicates]
  | cons t rest ih => simp [itemDuplicates, ih]

/-- Nothing is repeated among members when their keys are new and distinct and nothing is repeated in
their values. -/
lemma memberDuplicates_eq_nil_iff {seen : List JsString} {members : List (JsString × JsonTree)} :
    memberDuplicates seen members = [] ↔ (∀ m ∈ members, m.1 ∉ seen) ∧
      (members.map (·.1)).Nodup ∧ ∀ m ∈ members, m.2.duplicates = [] := by
  induction members generalizing seen with
  | nil => simp [memberDuplicates]
  | cons m rest ih =>
    have hhead : (if m.1 ∈ seen then [m.1] else []) = [] ↔ m.1 ∉ seen := by
      by_cases h : m.1 ∈ seen <;> simp [h]
    have hfresh : (∀ q ∈ rest, q.1 ∉ m.1 :: seen) ↔
        (∀ q ∈ rest, q.1 ∉ seen) ∧ m.1 ∉ rest.map (·.1) := by
      simp only [List.mem_cons, not_or, List.mem_map, not_exists, not_and]
      exact ⟨fun h => ⟨fun q hq => (h q hq).2, fun q hq => (h q hq).1⟩,
        fun h q hq => ⟨h.2 q hq, h.1 q hq⟩⟩
    simp only [memberDuplicates, List.append_eq_nil_iff, hhead, ih, hfresh, List.forall_mem_cons,
      List.map_cons, List.nodup_cons]
    constructor
    · rintro ⟨hm, ht, ⟨hseen, hnew⟩, hkeys, hrest⟩
      exact ⟨⟨hm, hseen⟩, ⟨hnew, hkeys⟩, ht, hrest⟩
    · rintro ⟨⟨hm, hseen⟩, ⟨hnew, hkeys⟩, ht, hrest⟩
      exact ⟨hm, ht, ⟨hseen, hnew⟩, hkeys, hrest⟩

/-- **The list of repeated keys is empty exactly when no object has two members with one key.** -/
theorem duplicates_eq_nil_iff {t : JsonTree} : t.duplicates = [] ↔ ¬t.HasDuplicateKey := by
  induction t using inductionOn with
  | null => exact ⟨fun _ => nofun, fun _ => rfl⟩
  | bool b => exact ⟨fun _ => nofun, fun _ => rfl⟩
  | num x => exact ⟨fun _ => nofun, fun _ => rfl⟩
  | str s => exact ⟨fun _ => nofun, fun _ => rfl⟩
  | arr items ih =>
    rw [duplicates, itemDuplicates_eq_nil_iff]
    constructor
    · rintro h (_ | ⟨ht, hdup⟩)
      exact (ih _ ht).mp (h _ ht) hdup
    · exact fun h t ht => (ih t ht).mpr fun hdup => h (.item ht hdup)
  | obj members ih =>
    rw [duplicates, memberDuplicates_eq_nil_iff]
    constructor
    · rintro ⟨-, hkeys, h⟩ hdup
      cases hdup with
      | here hnot => exact hnot hkeys
      | member hm hdup => exact (ih _ hm).mp (h _ hm) hdup
    · intro h
      refine ⟨fun m _ => List.not_mem_nil, ?_, fun m hm => (ih m hm).mpr fun hdup => h (.member hm hdup)⟩
      by_contra hkeys
      exact h (.here hkeys)

end JsonTree

/-! ## Reading a tree -/

section Parse

variable (number : List Char → Option JsonNumber)

/-- The value of a tree that was read, with the text that follows. -/
def valueOfRead (r : JsonTree × List Char) : Option (JsonValue × List Char) :=
  (r.1.value number).map fun v => (v, r.2)

/-- The values of items that were read, with the text that follows. -/
def itemsOfRead (r : List JsonTree × List Char) : Option (List JsonValue × List Char) :=
  (JsonTree.itemValues number r.1).map fun vs => (vs, r.2)

/-- The values of members that were read, with the text that follows. -/
def membersOfRead (r : List (JsString × JsonTree) × List Char) :
    Option (List (JsString × JsonValue) × List Char) :=
  (JsonTree.memberValues number r.1).map fun props => (props, r.2)

/-- The items of an array are parsed by reading them, when this holds of each value. -/
lemma parseItems_eq_read {fuel : ℕ}
    (hvalue : ∀ cs, parseValue number fuel cs = (readTree fuel cs).bind (valueOfRead number))
    (hitems : ∀ cs, parseItems number fuel cs = (readItems fuel cs).bind (itemsOfRead number))
    (cs : List Char) :
    parseItems number (fuel + 1) cs = (readItems (fuel + 1) cs).bind (itemsOfRead number) := by
  rw [parseItems, readItems, hvalue]
  rcases hread : readTree fuel cs with _ | ⟨t, cs₁⟩
  · rfl
  · cases hv : t.value number with
    | none =>
      simp only [valueOfRead, hv, Option.bind_eq_bind, Option.bind_some, Option.map_none,
        Option.bind_none]
      split
      · cases readItems fuel _ <;> simp [itemsOfRead, JsonTree.itemValues, hv]
      · simp [itemsOfRead, JsonTree.itemValues, hv]
      · rfl
    | some v =>
      simp only [valueOfRead, hv, Option.bind_eq_bind, Option.bind_some, Option.map_some]
      generalize skipSpace cs₁ = ds
      split
      · rename_i cs₂
        rw [hitems]
        try simp only
        rcases readItems fuel cs₂ with _ | ⟨ts, rest⟩
        · rfl
        · cases hts : JsonTree.itemValues number ts <;>
            simp [itemsOfRead, JsonTree.itemValues, hv, hts]
      · simp [itemsOfRead, JsonTree.itemValues, hv]
      · rfl

/-- The members of an object are parsed by reading them, when this holds of each value. -/
lemma parseProps_eq_read {fuel : ℕ}
    (hvalue : ∀ cs, parseValue number fuel cs = (readTree fuel cs).bind (valueOfRead number))
    (hprops : ∀ cs, parseProps number fuel cs = (readMembers fuel cs).bind (membersOfRead number))
    (cs : List Char) :
    parseProps number (fuel + 1) cs = (readMembers (fuel + 1) cs).bind (membersOfRead number) := by
  rw [parseProps, readMembers]
  generalize skipSpace cs = ds
  split
  · rename_i cs'
    try simp only
    rcases parseChars cs' with _ | ⟨k, cs₁⟩
    · rfl
    simp only [Option.bind_eq_bind, Option.bind_some]
    generalize skipSpace cs₁ = ds
    split
    · rename_i cs₂
      rw [hvalue]
      try simp only
      rcases readTree fuel cs₂ with _ | ⟨t, cs₃⟩
      · rfl
      cases hv : t.value number with
      | none =>
        simp only [valueOfRead, hv, Option.bind_some, Option.map_none, Option.bind_none]
        split
        · cases readMembers fuel _ <;> simp [membersOfRead, JsonTree.memberValues, hv]
        · simp [membersOfRead, JsonTree.memberValues, hv]
        · rfl
      | some v =>
        simp only [valueOfRead, hv, Option.bind_some, Option.map_some]
        generalize skipSpace cs₃ = ds
        split
        · rename_i cs₄
          rw [hprops]
          try simp only
          rcases readMembers fuel cs₄ with _ | ⟨ms, rest⟩
          · rfl
          · cases hms : JsonTree.memberValues number ms <;>
              simp [membersOfRead, JsonTree.memberValues, hv, hms]
        · simp [membersOfRead, JsonTree.memberValues, hv]
        · rfl
    · rfl
  · rfl

/-- A value is parsed by reading it, when this holds of items and members with less fuel. -/
lemma parseValue_eq_read {fuel : ℕ}
    (hitems : ∀ cs, parseItems number fuel cs = (readItems fuel cs).bind (itemsOfRead number))
    (hprops : ∀ cs, parseProps number fuel cs = (readMembers fuel cs).bind (membersOfRead number))
    (cs : List Char) :
    parseValue number (fuel + 1) cs = (readTree (fuel + 1) cs).bind (valueOfRead number) := by
  rw [parseValue, readTree]
  generalize skipSpace cs = ds
  split
  · rename_i cs'
    try simp only
    generalize skipSpace cs' = es
    split
    · rfl
    · have harr : ((readItems fuel es).bind (itemsOfRead number)).map
            (fun r => (JsonValue.arr r.1, r.2)) =
          ((readItems fuel es).map fun r => (JsonTree.arr r.1, r.2)).bind (valueOfRead number) := by
        rcases readItems fuel es with _ | ⟨ts, rest⟩
        · rfl
        · cases hts : JsonTree.itemValues number ts <;>
            simp [valueOfRead, itemsOfRead, JsonTree.value, hts]
      rw [hitems]
      exact harr
  · rename_i cs'
    try simp only
    generalize skipSpace cs' = es
    split
    · rfl
    · have hobj : ((readMembers fuel es).bind (membersOfRead number)).map
            (fun r => (JsonValue.obj (ownProps r.1), r.2)) =
          ((readMembers fuel es).map fun r => (JsonTree.obj r.1, r.2)).bind (valueOfRead number) := by
        rcases readMembers fuel es with _ | ⟨ms, rest⟩
        · rfl
        · cases hms : JsonTree.memberValues number ms <;>
            simp [valueOfRead, membersOfRead, JsonTree.value, hms]
      rw [hprops]
      exact hobj
  · rename_i cs'
    try simp only
    cases parseChars cs' <;> rfl
  · rfl
  · rfl
  · rfl
  · have hnumber : (scanNumber ds >>= fun r =>
        number r.1.text >>= fun x => pure (JsonValue.num x, r.2)) =
        ((scanNumber ds).map fun r => (JsonTree.num r.1.text, r.2)).bind (valueOfRead number) := by
      rcases scanNumber ds with _ | ⟨x, rest⟩
      · rfl
      · cases hx : number x.text <;> simp [valueOfRead, JsonTree.value, hx]
    exact hnumber

/-- **`JSON.parse` reads the syntax tree and evaluates it.** -/
theorem parse_eq_read (fuel : ℕ) :
    (∀ cs, parseValue number fuel cs = (readTree fuel cs).bind (valueOfRead number)) ∧
      (∀ cs, parseItems number fuel cs = (readItems fuel cs).bind (itemsOfRead number)) ∧
      ∀ cs, parseProps number fuel cs = (readMembers fuel cs).bind (membersOfRead number) := by
  induction fuel with
  | zero => exact ⟨fun _ => rfl, fun _ => rfl, fun _ => rfl⟩
  | succ fuel ih =>
    obtain ⟨hvalue, hitems, hprops⟩ := ih
    exact ⟨parseValue_eq_read number hitems hprops, parseItems_eq_read number hvalue hitems,
      parseProps_eq_read number hvalue hprops⟩

end Parse

/-- The tree of a whole text. -/
def readText (text : List Char) : Option JsonTree := do
  let (t, rest) ← readTree (text.length + 1) text
  if skipSpace rest = [] then some t else none

/-- The syntax tree of a string that `JSON.parse` accepts. -/
def jsonTree (s : JsString) : Option JsonTree := (jsonText false s).bind readText

/-- `JSON.parse` returns the value of the tree of the text. -/
lemma jsonParse_eq (number : List Char → Option JsonNumber) (text : List Char) :
    jsonParse number text = (readText text).bind (·.value number) := by
  rw [jsonParse, readText, (parse_eq_read number _).1]
  rcases readTree (text.length + 1) text with _ | ⟨t, rest⟩
  · rfl
  · by_cases hrest : skipSpace rest = []
    · cases hv : t.value number <;> simp [valueOfRead, hv, hrest]
    · cases hv : t.value number <;> simp [valueOfRead, hv, hrest]

/-- **`JSON.parse` of a string returns the value of its tree.** -/
theorem jsonParseUnits_eq (number : List Char → Option JsonNumber) (s : JsString) :
    jsonParseUnits number s = (jsonTree s).bind (·.value number) := by
  rw [jsonParseUnits, jsonTree, Option.bind_assoc]
  exact congrArg _ (funext (jsonParse_eq number))

end GovAI
