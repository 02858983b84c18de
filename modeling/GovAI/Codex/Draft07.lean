import GovAI.Codex.SchemaSubset
import GovAI.Json.Order
import Mathlib.Logic.Relation

/-!
# JSON Schema draft-07

What draft-07 says of the keywords that the validator supports: a schema is a boolean or an object of
assertions; beside `$ref` every other keyword is ignored; two values are equal up to the order of
keys.  What it says of a schema with another keyword (`pattern`, `not`, …) is a parameter.
References make the meaning recursive; a value is valid if it is so after enough unfoldings
(`Valid`), and on schemas whose references resolve and whose evaluation ends (`Evaluable`) the
meaning satisfies its defining equation (`valid_iff`).

Beside it stands the strict reading of the same keywords (`Strict`), for which a schema that the subset
cannot express holds of no value.
-/

namespace GovAI

/-! ## One step -/

/-- The value has the type. -/
def HasType (name : JsString) : JsonValue → Prop
  | .null => name = jsString "null"
  | .bool _ => name = jsString "boolean"
  | .str _ => name = jsString "string"
  | .arr _ => name = jsString "array"
  | .obj _ => name = jsString "object"
  | .num x => name = jsString "number" ∨ name = jsString "integer" ∧ ∃ z : ℤ, x.1.toRat = z

/-- What the keywords say that look at the value alone; `eq` compares with `enum` and `const`. -/
structure ValueAssertions (eq : JsonValue → JsonValue → Prop) (schema value : JsonValue) : Prop where
  type : ∀ t, schema.get "type" = some t → ∃ name, .str name ∈ allowedTypes t ∧ HasType name value
  enum : ∀ options, schema.get "enum" = some (.arr options) → ∃ option ∈ options, eq option value
  const : ∀ c, schema.get "const" = some c → eq c value
  minimum : ∀ m x, schema.get "minimum" = some (.num m) → value = .num x → m.1.toRat ≤ x.1.toRat
  maximum : ∀ m x, schema.get "maximum" = some (.num m) → value = .num x → x.1.toRat ≤ m.1.toRat
  minLength : ∀ m s, schema.get "minLength" = some (.num m) → value = .str s →
    m.1.toRat ≤ codePointCount s
  maxLength : ∀ m s, schema.get "maxLength" = some (.num m) → value = .str s →
    (codePointCount s : ℚ) ≤ m.1.toRat
  required : ∀ keys members, schema.get "required" = some (.arr keys) → value = .obj members →
    ∀ key, .str key ∈ keys → key ∈ members.map (·.1)

/-- The subschema for a property of the value: the one of its name or the one for the others. -/
def memberSchema (schema : JsonValue) (key : JsString) : Option JsonValue :=
  match (schema.get "properties").bind (·.own key) with
  | some sub => some sub
  | none => schema.get "additionalProperties"

/-- What the keywords say that look at parts of the value or apply other schemas to it, where `V`
says what is valid. -/
structure PartAssertions (V : JsonValue → JsonValue → Prop) (schema value : JsonValue) : Prop where
  members : ∀ props, value = .obj props → ∀ p ∈ props, ∀ sub, memberSchema schema p.1 = some sub →
    V sub p.2
  allOf : ∀ subs, branches schema "allOf" = some subs → ∀ sub ∈ subs, V sub value
  anyOf : ∀ subs, branches schema "anyOf" = some subs → ∃ sub ∈ subs, V sub value
  oneOf : ∀ subs, branches schema "oneOf" = some subs →
    ∃! i : ℕ, ∃ sub, subs[i]? = some sub ∧ V sub value

/-- What `items` says: one schema for all items, or one for each position. -/
def ItemAssertions (V : JsonValue → JsonValue → Prop) (schema value : JsonValue) : Prop :=
  ∀ items, value = .arr items → ∀ sub, schema.get "items" = some sub →
    match sub with
    | .arr subs => ∀ p ∈ subs.zip items, V p.1 p.2
    | sub => ∀ item ∈ items, V sub item

/-- The keywords of a schema are annotations or supported ones. -/
def Supported (schema : JsonValue) : Prop :=
  ∀ keys ∈ schema.objectKeys, unsupportedKeywords keys = []

/-- One step of the meaning of a schema; `other` is the meaning of schemas with other keywords. -/
def ValidStep (root : JsonValue) (other V : JsonValue → JsonValue → Prop)
    (schema value : JsonValue) : Prop :=
  match schema with
  | .bool b => b = true
  | .obj _ =>
    match schema.get "$ref" with
    | some (.str ref) => ∃ target, resolvePointer root ref = .ok target ∧ V target value
    | _ => (¬Supported schema ∧ other schema value) ∨
        (Supported schema ∧ ValueAssertions JsonValue.Same schema value ∧
          PartAssertions V schema value ∧ ItemAssertions V schema value)
  | _ => False

/-- A meaning after some unfoldings of references and subschemas, given one step of it. -/
def unfolded (step : (JsonValue → JsonValue → Prop) → JsonValue → JsonValue → Prop) :
    ℕ → JsonValue → JsonValue → Prop
  | 0 => fun _ _ => False
  | n + 1 => step (unfolded step n)

/-- What holds after any number of unfoldings from some number on. -/
def Settled (step : (JsonValue → JsonValue → Prop) → JsonValue → JsonValue → Prop)
    (schema value : JsonValue) : Prop :=
  ∃ n, ∀ m ≥ n, unfolded step m schema value

/-- The value is valid. -/
def Valid (root : JsonValue) (other : JsonValue → JsonValue → Prop) : JsonValue → JsonValue → Prop :=
  Settled (ValidStep root other)

/-! ## The strict reading -/

/-- What the keywords of a node say in the strict reading: there are supported ones only, those beside
`$ref` count as well, `enum` and `const` compare texts, and a list under `items` holds of no item. -/
structure StrictNode (root : JsonValue) (P : JsonValue → JsonValue → Prop) (schema value : JsonValue) :
    Prop where
  supported : Supported schema
  ref : ∀ ref target, schema.get "$ref" = some (.str ref) → resolvePointer root ref = .ok target →
    P target value
  values : ValueAssertions (deepEqual · ·) schema value
  parts : PartAssertions P schema value
  items : ∀ items, value = .arr items → ∀ sub, schema.get "items" = some sub →
    match sub with
    | .arr subs => subs = [] ∨ items = []
    | sub => ∀ item ∈ items, P sub item

/-- One step of the strict reading. -/
def StrictStep (root : JsonValue) (P : JsonValue → JsonValue → Prop) (schema value : JsonValue) :
    Prop :=
  schema = .bool true ∨ schema.isRecord ∧ StrictNode root P schema value

/-- The value is valid in the strict reading. -/
def Strict (root : JsonValue) : JsonValue → JsonValue → Prop := Settled (StrictStep root)

/-! ## Evaluation -/

/-- The schemas that the keywords of a node apply, and to which values. -/
def keywordCalls (schema value : JsonValue) : List (JsonValue × JsonValue) :=
  (match value with
    | .obj props => props.filterMap fun p => (memberSchema schema p.1).map (·, p.2)
    | .arr items =>
      match schema.get "items" with
      | some (.arr subs) => subs.zip items
      | some sub => items.map (sub, ·)
      | none => []
    | _ => []) ++
  ((branches schema "allOf").getD [] ++ (branches schema "anyOf").getD [] ++
    (branches schema "oneOf").getD []).map (·, value)

/-- The schema that the reference of a node applies. -/
def refCalls (root schema value : JsonValue) : List (JsonValue × JsonValue) :=
  match schema.get "$ref" with
  | some (.str ref) => ((resolvePointer root ref).toOption.toList).map (·, value)
  | _ => []

instance (schema : JsonValue) : Decidable (Supported schema) := by
  unfold Supported
  infer_instance

/-- What the evaluation of a node evaluates next; nothing below an unsupported keyword, its
reference apart. -/
def schemaCalls (root : JsonValue) (node : JsonValue × JsonValue) : List (JsonValue × JsonValue) :=
  refCalls root node.1 node.2 ++ if Supported node.1 then keywordCalls node.1 node.2 else []

/-- The keywords of a node have values of the form that draft-07 asks, and its reference resolves. -/
structure WellFormedNode (root schema : JsonValue) : Prop where
  isSchema : schema.isRecord ∨ ∃ b, schema = .bool b
  ref : ∀ r, schema.get "$ref" = some r → ∃ ref target, r = .str ref ∧
    resolvePointer root ref = .ok target
  type : ∀ t, schema.get "type" = some t → ∀ name ∈ allowedTypes t, ∃ s, name = .str s
  required : ∀ keys, schema.get "required" = some (.arr keys) → ∀ key ∈ keys, ∃ s, key = .str s

/-- The evaluation of the value against the schema ends, and every schema on the way is well formed;
in particular every reference resolves, and none leads back without a step into the value. -/
inductive Evaluable (root : JsonValue) : JsonValue × JsonValue → Prop
  | node {node : JsonValue × JsonValue} (hnode : WellFormedNode root node.1)
      (hcalls : ∀ call ∈ schemaCalls root node, Evaluable root call) : Evaluable root node

/-- The evaluation of one node reaches another. -/
def Reaches (root : JsonValue) : JsonValue × JsonValue → JsonValue × JsonValue → Prop :=
  Relation.ReflTransGen fun node call => call ∈ schemaCalls root node

/-! ## The defining equation -/

section Step

variable {root : JsonValue} {other V W : JsonValue → JsonValue → Prop} {schema value : JsonValue}

/-- The property schemas are among the calls. -/
lemma mem_keywordCalls_member {props : List (JsString × JsonValue)} {p : JsString × JsonValue}
    (hp : p ∈ props) {sub : JsonValue} (hsub : memberSchema schema p.1 = some sub) :
    (sub, p.2) ∈ keywordCalls schema (.obj props) :=
  List.mem_append_left _ (List.mem_filterMap.mpr ⟨p, hp, by rw [hsub]; rfl⟩)

/-- The item schemas are among the calls. -/
lemma mem_keywordCalls_item {items : List JsonValue} {item sub : JsonValue} (hitem : item ∈ items)
    (hsub : schema.get "items" = some sub) (harr : ∀ subs, sub ≠ .arr subs) :
    (sub, item) ∈ keywordCalls schema (.arr items) := by
  refine List.mem_append_left _ ?_
  change _ ∈ match schema.get "items" with
    | some (.arr subs) => subs.zip items
    | some sub => items.map (sub, ·)
    | none => []
  rw [hsub]
  split
  · next subs heq => exact absurd (Option.some.inj heq) (harr subs)
  · next heq =>
    obtain rfl := Option.some.inj heq
    exact List.mem_map_of_mem hitem
  · next heq => cases heq

/-- The branches are among the calls. -/
lemma mem_keywordCalls_branch {keyword : String} (hkeyword : keyword ∈ ["allOf", "anyOf", "oneOf"])
    {subs : List JsonValue} (hsubs : branches schema keyword = some subs) {sub : JsonValue}
    (hsub : sub ∈ subs) : (sub, value) ∈ keywordCalls schema value := by
  refine List.mem_append_right _ (List.mem_map_of_mem ?_)
  rw [List.mem_append, List.mem_append]
  simp only [List.mem_cons, List.not_mem_nil, or_false] at hkeyword
  rcases hkeyword with rfl | rfl | rfl
  · exact .inl (.inl (by rw [hsubs]; exact hsub))
  · exact .inl (.inr (by rw [hsubs]; exact hsub))
  · exact .inr (by rw [hsubs]; exact hsub)

/-- What the keywords say depends on the calls alone. -/
lemma PartAssertions.congr (h : ∀ call ∈ keywordCalls schema value, V call.1 call.2 → W call.1 call.2)
    (hone : ∀ subs, branches schema "oneOf" = some subs → ∀ sub ∈ subs, W sub value → V sub value)
    (hV : PartAssertions V schema value) : PartAssertions W schema value where
  members := by
    rintro props rfl p hp sub hsub
    exact h _ (mem_keywordCalls_member hp hsub) (hV.members props rfl p hp sub hsub)
  allOf := fun subs hsubs sub hsub =>
    h _ (mem_keywordCalls_branch (by decide) hsubs hsub) (hV.allOf subs hsubs sub hsub)
  anyOf := fun subs hsubs => by
    obtain ⟨sub, hsub, hvalid⟩ := hV.anyOf subs hsubs
    exact ⟨sub, hsub, h _ (mem_keywordCalls_branch (by decide) hsubs hsub) hvalid⟩
  oneOf := fun subs hsubs => by
    obtain ⟨i, ⟨sub, hi, hvalid⟩, hunique⟩ := hV.oneOf subs hsubs
    have hbranch := fun (j : ℕ) (sub : JsonValue) (hj : subs[j]? = some sub) =>
      h (sub, value) (mem_keywordCalls_branch (by decide) hsubs (List.mem_of_getElem? hj))
    refine ⟨i, ⟨sub, hi, hbranch i sub hi hvalid⟩, ?_⟩
    rintro j ⟨sub', hj, hvalid'⟩
    exact hunique j ⟨sub', hj, hone subs hsubs sub' (List.mem_of_getElem? hj) hvalid'⟩

/-- What `items` says depends on the calls alone. -/
lemma ItemAssertions.congr (h : ∀ call ∈ keywordCalls schema value, V call.1 call.2 → W call.1 call.2)
    (hV : ItemAssertions V schema value) : ItemAssertions W schema value := by
  rintro items rfl sub hsub
  have hitems := hV items rfl sub hsub
  split
  · next subs =>
    refine fun p hp => h p (List.mem_append_left _ ?_) (hitems p hp)
    change p ∈ match schema.get "items" with
      | some (.arr subs) => subs.zip items
      | some sub => items.map (sub, ·)
      | none => []
    rw [hsub]
    exact hp
  · next harr =>
    have hitems : ∀ item ∈ items, V sub item := by
      cases sub with
      | arr subs => exact absurd rfl (harr subs)
      | _ => exact hitems
    exact fun item hitem => h _ (mem_keywordCalls_item hitem hsub harr) (hitems item hitem)

/-- A step of the meaning depends on the calls alone. -/
lemma ValidStep.congr (h : ∀ call ∈ schemaCalls root (schema, value),
    (V call.1 call.2 ↔ W call.1 call.2)) (hV : ValidStep root other V schema value) :
    ValidStep root other W schema value := by
  cases schema with
  | bool b => exact hV
  | obj props =>
    rw [ValidStep] at hV ⊢
    split at hV
    · next ref href =>
      obtain ⟨target, htarget, hvalid⟩ := hV
      refine ⟨target, htarget, (h (target, value) (List.mem_append_left _ ?_)).mp hvalid⟩
      simp [refCalls, href, htarget, Except.toOption]
    · refine hV.imp_right ?_
      rintro ⟨hsupported, hvalue, hparts, hitems⟩
      have hcalls : ∀ call ∈ keywordCalls (.obj props) value,
          (V call.1 call.2 ↔ W call.1 call.2) := by
        refine fun call hcall => h call (List.mem_append_right _ ?_)
        rw [if_pos hsupported]
        exact hcall
      refine ⟨hsupported, hvalue, hparts.congr (fun call hcall => (hcalls call hcall).mp)
        fun subs hsubs sub hsub => (hcalls (sub, value) ?_).mpr,
        hitems.congr fun call hcall => (hcalls call hcall).mp⟩
      exact mem_keywordCalls_branch (by decide) hsubs hsub
  | _ => exact hV

/-- A step of the strict reading depends on the calls alone. -/
lemma StrictStep.congr (h : ∀ call ∈ schemaCalls root (schema, value),
    (V call.1 call.2 ↔ W call.1 call.2)) (hV : StrictStep root V schema value) :
    StrictStep root W schema value := by
  refine hV.imp_right ?_
  rintro ⟨hrecord, hV⟩
  have hcalls : ∀ call ∈ keywordCalls schema value, (V call.1 call.2 ↔ W call.1 call.2) := by
    refine fun call hcall => h call (List.mem_append_right _ ?_)
    rw [if_pos hV.supported]
    exact hcall
  refine ⟨hrecord, hV.supported, fun ref target href htarget => ?_, hV.values,
    hV.parts.congr (fun call hcall => (hcalls call hcall).mp) fun subs hsubs sub hsub =>
      (hcalls (sub, value) (mem_keywordCalls_branch (by decide) hsubs hsub)).mpr, ?_⟩
  · refine (h (target, value) (List.mem_append_left _ ?_)).mp (hV.ref ref target href htarget)
    simp [refCalls, href, htarget, Except.toOption]
  · rintro items rfl sub hsub
    have hitems := hV.items items rfl sub hsub
    cases sub with
    | arr subs => exact hitems
    | _ => exact fun item hitem =>
        (hcalls _ (mem_keywordCalls_item hitem hsub fun _ => (by rintro ⟨⟩))).mp (hitems item hitem)

end Step

/-- Bounds for the members of a list have a common one. -/
lemma exists_common_bound {α : Type} {l : List α} {P : α → ℕ → Prop}
    (h : ∀ a ∈ l, ∃ n, ∀ m ≥ n, P a m) : ∃ n, ∀ a ∈ l, ∀ m ≥ n, P a m := by
  induction l with
  | nil => exact ⟨0, fun _ ha => nomatch ha⟩
  | cons a l ih =>
    obtain ⟨n, hn⟩ := h a List.mem_cons_self
    obtain ⟨k, hk⟩ := ih fun b hb => h b (List.mem_cons_of_mem _ hb)
    refine ⟨max n k, fun b hb m hm => ?_⟩
    rcases List.mem_cons.mp hb with rfl | hb
    · exact hn m ((le_max_left n k).trans hm)
    · exact hk b hb m ((le_max_right n k).trans hm)

variable {root : JsonValue} {other : JsonValue → JsonValue → Prop} {node : JsonValue × JsonValue}

/-- Where the evaluation ends, a meaning whose steps depend on the calls alone settles after some
unfoldings, and it satisfies its defining equation. -/
lemma settles {step : (JsonValue → JsonValue → Prop) → JsonValue → JsonValue → Prop}
    (hcongr : ∀ {V W : JsonValue → JsonValue → Prop} {schema value : JsonValue},
      (∀ call ∈ schemaCalls root (schema, value), (V call.1 call.2 ↔ W call.1 call.2)) →
        step V schema value → step W schema value) (h : Evaluable root node) :
    (∃ n, ∀ m ≥ n, (unfolded step m node.1 node.2 ↔ Settled step node.1 node.2)) ∧
      (Settled step node.1 node.2 ↔ step (Settled step) node.1 node.2) := by
  induction h with
  | @node node hnode hcalls ih =>
    obtain ⟨n, hn⟩ := exists_common_bound fun call hcall => (ih call hcall).1
    have hstep : ∀ m ≥ n + 1, (unfolded step m node.1 node.2 ↔ step (Settled step) node.1 node.2) := by
      intro m hm
      obtain ⟨k, rfl⟩ : ∃ k, m = k + 1 := ⟨m - 1, by omega⟩
      have hk : n ≤ k := by omega
      exact ⟨hcongr fun call hcall => hn call hcall k hk,
        hcongr fun call hcall => (hn call hcall k hk).symm⟩
    have hsettled : Settled step node.1 node.2 ↔ step (Settled step) node.1 node.2 := by
      constructor
      · rintro ⟨k, hk⟩
        exact (hstep (max k (n + 1)) (le_max_right _ _)).mp (hk _ (le_max_left _ _))
      · exact fun h => ⟨n + 1, fun m hm => (hstep m hm).mpr h⟩
    exact ⟨⟨n + 1, fun m hm => (hstep m hm).trans hsettled.symm⟩, hsettled⟩

/-- **The meaning satisfies its defining equation** wherever the evaluation ends. -/
theorem valid_iff (h : Evaluable root node) : Valid root other node.1 node.2 ↔
    ValidStep root other (Valid root other) node.1 node.2 :=
  (settles ValidStep.congr h).2

/-- The strict reading satisfies its defining equation wherever the evaluation ends. -/
theorem strict_iff (h : Evaluable root node) : Strict root node.1 node.2 ↔
    StrictStep root (Strict root) node.1 node.2 :=
  (settles StrictStep.congr h).2

/-- What the evaluation of a node evaluates next is evaluable. -/
lemma Evaluable.call (h : Evaluable root node) {call : JsonValue × JsonValue}
    (hcall : call ∈ schemaCalls root node) : Evaluable root call := by
  cases h with
  | node _ hcalls => exact hcalls call hcall

/-! ## References that descend -/

/-- Every schema that the evaluation reaches is well formed, its reference resolves, and no chain of
references and branches goes on for ever at one value. -/
def ReferencesDescend (root : JsonValue) (node : JsonValue × JsonValue) : Prop :=
  ∀ reached, Reaches root node reached → WellFormedNode root reached.1 ∧
    Acc (fun call caller => call ∈ schemaCalls root caller ∧ call.2 = caller.2) reached

/-- A call has the value of its caller or a part of it. -/
lemma call_value {call : JsonValue × JsonValue} (hcall : call ∈ schemaCalls root node) :
    call.2 = node.2 ∨ sizeOf call.2 < sizeOf node.2 := by
  rcases List.mem_append.mp hcall with hcall | hcall
  · rw [refCalls] at hcall
    split at hcall
    · obtain ⟨target, -, rfl⟩ := List.mem_map.mp hcall
      exact .inl rfl
    · cases hcall
  · split at hcall
    · rcases List.mem_append.mp hcall with hcall | hcall
      · right
        have hitem : ∀ {items : List JsonValue} {item : JsonValue}, item ∈ items →
            sizeOf item < sizeOf (JsonValue.arr items) := by
          intro items item hmem
          have := List.sizeOf_lt_of_mem hmem
          rw [JsonValue.arr.sizeOf_spec]
          omega
        split at hcall
        · next props hprops =>
          obtain ⟨p, hp, hpair⟩ := List.mem_filterMap.mp hcall
          obtain ⟨sub, -, rfl⟩ := Option.map_eq_some_iff.mp hpair
          have hlt := List.sizeOf_lt_of_mem hp
          rw [hprops, JsonValue.obj.sizeOf_spec]
          rw [show sizeOf p = 1 + sizeOf p.1 + sizeOf p.2 from Prod.mk.sizeOf_spec p.1 p.2] at hlt
          change sizeOf p.2 < _
          omega
        · next items hitems =>
          rw [hitems]
          split at hcall
          · exact hitem (List.of_mem_zip hcall).2
          · obtain ⟨item, hmem, rfl⟩ := List.mem_map.mp hcall
            exact hitem hmem
          · cases hcall
        · cases hcall
      · obtain ⟨sub, -, rfl⟩ := List.mem_map.mp hcall
        exact .inl rfl
    · cases hcall

/-- **Where references descend, the evaluation ends.** -/
theorem evaluable_of_descend (h : ReferencesDescend root node) : Evaluable root node := by
  generalize hsize : sizeOf node.2 = size
  induction size using Nat.strong_induction_on generalizing node with
  | _ size ih =>
    have hacc := (h node .refl).2
    induction hacc with
    | intro node _ ihAcc =>
      refine .node (h node .refl).1 fun call hcall => ?_
      have hdescend : ReferencesDescend root call :=
        fun reached hreached => h reached (.head hcall hreached)
      rcases call_value hcall with heq | hlt
      · exact ihAcc call ⟨hcall, heq⟩ hdescend (by rw [heq, hsize])
      · exact ih (sizeOf call.2) (hsize ▸ hlt) hdescend rfl

/-- Where the evaluation ends, references descend. -/
lemma Evaluable.descend (h : Evaluable root node) : ReferencesDescend root node := by
  induction h with
  | @node node hnode hcalls ih =>
    intro reached hreached
    rcases Relation.ReflTransGen.cases_head hreached with rfl | ⟨call, hcall, hrest⟩
    · exact ⟨hnode, .intro _ fun call hcall => (ih call hcall.1 call .refl).2⟩
    · exact ih call hcall reached hrest

end GovAI
