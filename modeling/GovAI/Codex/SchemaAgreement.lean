import GovAI.Codex.SchemaRun
import GovAI.Json.RoundTrip

/-!
# The validator against draft-07

The validator agrees with the strict reading, which differs from draft-07 in what it refuses for reasons
other than the value: keywords outside the subset, keywords beside `$ref`, members of `enum` whose keys
come in another order, `items` by position.  A refusal is safe except in a branch of `oneOf`, where it
can make the branch beside it the only one.
-/

namespace GovAI

variable {root : JsonValue} {node : JsonValue × JsonValue}

/-! ## Distinct keys -/

/-- The keys of the schema and of the value are distinct, as they are in JavaScript. -/
def DistinctNode (node : JsonValue × JsonValue) : Prop := node.1.Distinct ∧ node.2.Distinct

/-- A property has distinct keys if the object has. -/
lemma JsonValue.Distinct.own {v w : JsonValue} {key : JsString} (h : v.Distinct)
    (hw : v.own key = some w) : w.Distinct := by
  cases v with
  | obj props =>
    obtain ⟨p, hp, rfl⟩ := Option.map_eq_some_iff.mp hw
    exact JsonValue.distinctProps_iff.mp h.2 p (List.mem_of_find?_eq_some hp)
  | _ => cases hw

/-- A keyword has a value with distinct keys if the schema has. -/
lemma JsonValue.Distinct.get {v w : JsonValue} {key : String} (h : v.Distinct)
    (hw : v.get key = some w) : w.Distinct := by
  cases v with
  | obj props =>
    have hown : (JsonValue.obj props).own (jsString key) = some w := hw
    exact h.own hown
  | _ => cases hw

/-- The subschema for a property has distinct keys. -/
lemma JsonValue.Distinct.memberSchema {schema sub : JsonValue} {key : JsString} (h : schema.Distinct)
    (hsub : memberSchema schema key = some sub) : sub.Distinct := by
  rw [GovAI.memberSchema] at hsub
  split at hsub
  · next hprop =>
    obtain rfl := Option.some.inj hsub
    obtain ⟨props, hprops, hown⟩ := Option.bind_eq_some_iff.mp hprop
    exact (h.get hprops).own hown
  · exact h.get hsub

/-- A branch has distinct keys. -/
lemma JsonValue.Distinct.branches {schema sub : JsonValue} {keyword : String} (h : schema.Distinct)
    (hsub : sub ∈ (branches schema keyword).getD []) : sub.Distinct := by
  rw [GovAI.branches] at hsub
  split at hsub
  · next subs hsubs => exact JsonValue.distinctItems_iff.mp (h.get hsubs) sub hsub
  · cases hsub

/-- The target of a reference has distinct keys. -/
lemma resolvePointer_distinct (hroot : root.Distinct) {ref : JsString} {target : JsonValue}
    (h : resolvePointer root ref = .ok target) : target.Distinct := by
  have hfollow : ∀ (keys : List JsString) (node : JsonValue), node.Distinct →
      followKeys ref node keys = .ok target → target.Distinct := by
    intro keys
    induction keys with
    | nil =>
      rintro node hnode ⟨⟩
      exact hnode
    | cons key keys ih =>
      intro node hnode hkeys
      rw [followKeys] at hkeys
      split at hkeys
      · next child hchild => exact ih child (hnode.own hchild) hkeys
      · cases hkeys
  unfold resolvePointer at h
  split at h
  · obtain ⟨found, hfound, htarget⟩ := except_bind_eq_ok_iff.mp h
    have hsame : found = target := by
      split at htarget
      · exact Except.ok.inj htarget
      · exact Except.ok.inj htarget
      · cases htarget
    exact hfollow _ _ hroot (hsame ▸ hfound)
  · cases h

/-- Calls keep the keys distinct. -/
lemma DistinctNode.call (hroot : root.Distinct) (h : DistinctNode node)
    {call : JsonValue × JsonValue} (hcall : call ∈ schemaCalls root node) : DistinctNode call := by
  obtain ⟨hschema, hvalue⟩ := h
  rcases List.mem_append.mp hcall with hcall | hcall
  · rw [refCalls] at hcall
    split at hcall
    · next ref href =>
      obtain ⟨target, htarget, rfl⟩ := List.mem_map.mp hcall
      rw [Option.mem_toList, except_toOption_eq_some_iff] at htarget
      exact ⟨resolvePointer_distinct hroot htarget, hvalue⟩
    · cases hcall
  · split at hcall
    · rcases List.mem_append.mp hcall with hcall | hcall
      · split at hcall
        · next props hprops =>
          obtain ⟨p, hp, hpair⟩ := List.mem_filterMap.mp hcall
          obtain ⟨sub, hsub, rfl⟩ := Option.map_eq_some_iff.mp hpair
          rw [hprops] at hvalue
          exact ⟨hschema.memberSchema hsub, JsonValue.distinctProps_iff.mp hvalue.2 p hp⟩
        · next items hitems =>
          rw [hitems] at hvalue
          have hitem := JsonValue.distinctItems_iff.mp hvalue
          split at hcall
          · next subs hsubs =>
            obtain ⟨hleft, hright⟩ := List.of_mem_zip hcall
            exact ⟨JsonValue.distinctItems_iff.mp (hschema.get hsubs) _ hleft, hitem _ hright⟩
          · next sub hsub =>
            obtain ⟨item, hmem, rfl⟩ := List.mem_map.mp hcall
            exact ⟨hschema.get hsub, hitem item hmem⟩
          · cases hcall
        · cases hcall
      · obtain ⟨sub, hsub, rfl⟩ := List.mem_map.mp hcall
        rw [List.mem_append, List.mem_append] at hsub
        rcases hsub with (hsub | hsub) | hsub
        · exact ⟨hschema.branches hsub, hvalue⟩
        · exact ⟨hschema.branches hsub, hvalue⟩
        · exact ⟨hschema.branches hsub, hvalue⟩
    · cases hcall

/-- Values with one text are equal up to the order of keys. -/
lemma same_of_deepEqual {a b : JsonValue} (ha : a.Distinct) (hb : b.Distinct)
    (h : deepEqual a b = true) : a.Same b :=
  (JsonValue.same_iff_sorted_eq ha hb).mpr
    (sorted_eq_of_jsonStringify_eq ha hb (of_decide_eq_true h))

/-! ## Evaluation of the validator -/

/-- What the keywords beside `$ref` make the validator look at; of the branches of `anyOf` only those up
to the first one that holds. -/
inductive KeywordCall (root : JsonValue) : JsonValue × JsonValue → JsonValue × JsonValue → Prop
  | member {schema sub : JsonValue} {props : List (JsString × JsonValue)} {p : JsString × JsonValue}
      (hp : p ∈ props) (hsub : memberSchema schema p.1 = some sub) :
      KeywordCall root (schema, .obj props) (sub, p.2)
  | item {schema sub item : JsonValue} {items : List JsonValue} (hitem : item ∈ items)
      (hsub : schema.get "items" = some sub) (harr : ∀ subs, sub ≠ .arr subs) :
      KeywordCall root (schema, .arr items) (sub, item)
  | allOf {schema sub value : JsonValue} {subs : List JsonValue}
      (hsubs : branches schema "allOf" = some subs) (hsub : sub ∈ subs) :
      KeywordCall root (schema, value) (sub, value)
  | anyOf {schema sub value : JsonValue} {before after : List JsonValue}
      (hsubs : branches schema "anyOf" = some (before ++ sub :: after))
      (hbefore : ∀ earlier ∈ before, ¬Strict root earlier value) :
      KeywordCall root (schema, value) (sub, value)
  | oneOf {schema sub value : JsonValue} {subs : List JsonValue}
      (hsubs : branches schema "oneOf" = some subs) (hsub : sub ∈ subs) :
      KeywordCall root (schema, value) (sub, value)

/-- The evaluation of a node looks at another one, as far as draft-07 gives it a meaning: nothing below
an unsupported keyword, and nothing beside `$ref`. -/
def Calls (root : JsonValue) (node call : JsonValue × JsonValue) : Prop :=
  call ∈ refCalls root node.1 node.2 ∨
    node.1.get "$ref" = none ∧ Supported node.1 ∧ KeywordCall root node call

/-- The evaluation of one node leads to another. -/
def EvaluatesNode (root : JsonValue) : JsonValue × JsonValue → JsonValue × JsonValue → Prop :=
  Relation.ReflTransGen (Calls root)

/-- A keyword call is one of the calls of the node. -/
lemma KeywordCall.mem {call : JsonValue × JsonValue} (h : KeywordCall root node call) :
    call ∈ keywordCalls node.1 node.2 := by
  cases h with
  | member hp hsub => exact mem_keywordCalls_member hp hsub
  | item hitem hsub harr => exact mem_keywordCalls_item hitem hsub harr
  | allOf hsubs hsub => exact mem_keywordCalls_branch (by decide) hsubs hsub
  | anyOf hsubs => exact mem_keywordCalls_branch (by decide) hsubs (by simp)
  | oneOf hsubs hsub => exact mem_keywordCalls_branch (by decide) hsubs hsub

/-- What the evaluation looks at is one of the calls of the node. -/
lemma Calls.mem {call : JsonValue × JsonValue} (h : Calls root node call) :
    call ∈ schemaCalls root node := by
  rcases h with href | ⟨-, hsupported, hkeyword⟩
  · exact List.mem_append_left _ href
  · refine List.mem_append_right _ ?_
    rw [if_pos hsupported]
    exact hkeyword.mem

/-- Of the branches of which one holds in the strict reading there is a first. -/
lemma exists_first {P : JsonValue → Prop} {subs : List JsonValue} (h : ∃ sub ∈ subs, P sub) :
    ∃ before sub after, subs = before ++ sub :: after ∧ (∀ earlier ∈ before, ¬P earlier) ∧ P sub := by
  induction subs with
  | nil =>
    obtain ⟨sub, hsub, -⟩ := h
    cases hsub
  | cons head subs ih =>
    by_cases hhead : P head
    · exact ⟨[], head, subs, rfl, by simp, hhead⟩
    · obtain ⟨sub, hsub, hP⟩ := h
      rcases List.mem_cons.mp hsub with rfl | hsub
      · exact absurd hP hhead
      · obtain ⟨before, first, after, rfl, hbefore, hfirst⟩ := ih ⟨sub, hsub, hP⟩
        exact ⟨head :: before, first, after, rfl, List.forall_mem_cons.mpr ⟨hhead, hbefore⟩, hfirst⟩

/-! ## No over-acceptance -/

variable {other : JsonValue → JsonValue → Prop}

/-- No `oneOf` that is evaluated has a branch under which the value is valid, but not in the strict
reading. -/
def OneOfFaithful (root : JsonValue) (other : JsonValue → JsonValue → Prop)
    (node : JsonValue × JsonValue) : Prop :=
  ∀ reached, EvaluatesNode root node reached → reached.1.get "$ref" = none → Supported reached.1 →
    ∀ subs, branches reached.1 "oneOf" = some subs → ∀ sub ∈ subs,
      Valid root other sub reached.2 → Strict root sub reached.2

/-- What a call leads to the node leads to. -/
lemma OneOfFaithful.call (h : OneOfFaithful root other node) {call : JsonValue × JsonValue}
    (hcall : Calls root node call) : OneOfFaithful root other call :=
  fun reached hreached => h reached (.head hcall hreached)

/-- What the keywords say of the value, with another comparison. -/
lemma ValueAssertions.imp {eq eq' : JsonValue → JsonValue → Prop} {schema value : JsonValue}
    (h : ValueAssertions eq schema value)
    (henum : ∀ options, schema.get "enum" = some (.arr options) → ∀ option ∈ options,
      eq option value → eq' option value)
    (hconst : ∀ c, schema.get "const" = some c → eq c value → eq' c value) :
    ValueAssertions eq' schema value :=
  { h with
    enum := fun options hoptions => by
      obtain ⟨option, hmem, heq⟩ := h.enum options hoptions
      exact ⟨option, hmem, henum options hoptions option hmem heq⟩
    const := fun c hc => hconst c hc (h.const c hc) }

/-- What the strict reading says of parts holds in another reading that follows from it where the
evaluation looks. -/
lemma PartAssertions.of_strict {V : JsonValue → JsonValue → Prop} {schema value : JsonValue}
    (hcalls : ∀ call, KeywordCall root (schema, value) call → Strict root call.1 call.2 →
      V call.1 call.2)
    (hone : ∀ subs, branches schema "oneOf" = some subs → ∀ sub ∈ subs, V sub value →
      Strict root sub value)
    (h : PartAssertions (Strict root) schema value) : PartAssertions V schema value where
  members := by
    rintro props rfl p hp sub hsub
    exact hcalls _ (.member hp hsub) (h.members props rfl p hp sub hsub)
  allOf := fun subs hsubs sub hsub => hcalls _ (.allOf hsubs hsub) (h.allOf subs hsubs sub hsub)
  anyOf := fun subs hsubs => by
    obtain ⟨before, sub, after, rfl, hbefore, hstrict⟩ := exists_first (h.anyOf subs hsubs)
    exact ⟨sub, by simp, hcalls _ (.anyOf hsubs hbefore) hstrict⟩
  oneOf := fun subs hsubs => by
    obtain ⟨i, ⟨sub, hi, hstrict⟩, hunique⟩ := h.oneOf subs hsubs
    have hsub := List.mem_of_getElem? hi
    refine ⟨i, ⟨sub, hi, hcalls _ (.oneOf hsubs hsub) hstrict⟩, ?_⟩
    rintro j ⟨sub', hj, hV⟩
    exact hunique j ⟨sub', hj, hone subs hsubs sub' (List.mem_of_getElem? hj) hV⟩

/-- A reference that is no text is none. -/
lemma WellFormedNode.get_ref_eq_none {schema : JsonValue} (h : WellFormedNode root schema)
    (hno : ∀ ref, schema.get "$ref" ≠ some (.str ref)) : schema.get "$ref" = none := by
  cases hget : schema.get "$ref" with
  | none => rfl
  | some r =>
    obtain ⟨ref, target, rfl, -⟩ := h.ref r hget
    exact absurd hget (hno ref)

/-- From the strict reading of a node follows what draft-07 says of it, where it does so for the calls
and no branch of its `oneOf` is refused for another reason than the value. -/
lemma validStep_of_strictNode (hnode : WellFormedNode root node.1) (hdistinct : DistinctNode node)
    (hrecord : node.1.isRecord) (hcalls : ∀ call, Calls root node call → Strict root call.1 call.2 →
      Valid root other call.1 call.2)
    (hone : node.1.get "$ref" = none → Supported node.1 → ∀ subs, branches node.1 "oneOf" = some subs →
      ∀ sub ∈ subs, Valid root other sub node.2 → Strict root sub node.2)
    (h : StrictNode root (Strict root) node.1 node.2) :
    ValidStep root other (Valid root other) node.1 node.2 := by
  obtain ⟨schema, value⟩ := node
  cases schema with
  | obj props =>
    rw [ValidStep]
    split
    · next ref href =>
      obtain ⟨_, target, heq, htarget⟩ := hnode.ref _ href
      obtain rfl := JsonValue.str.inj heq
      refine ⟨target, htarget, hcalls (target, value) (.inl ?_) (h.ref ref target href htarget)⟩
      simp [refCalls, href, htarget, Except.toOption]
    · next hno =>
      have href := hnode.get_ref_eq_none hno
      have hkeyword : ∀ call, KeywordCall root (.obj props, value) call →
          Strict root call.1 call.2 → Valid root other call.1 call.2 :=
        fun call hcall => hcalls call (.inr ⟨href, h.supported, hcall⟩)
      refine .inr ⟨h.supported, h.values.imp ?_ ?_,
        h.parts.of_strict hkeyword (hone href h.supported), ?_⟩
      · intro options hoptions option hmem heq
        have hmem' := JsonValue.distinctItems_iff.mp (hdistinct.1.get hoptions) option hmem
        exact same_of_deepEqual hmem' hdistinct.2 heq
      · exact fun c hc heq => same_of_deepEqual (hdistinct.1.get hc) hdistinct.2 heq
      · rintro items rfl sub hsub
        have hitems := h.items items rfl sub hsub
        cases sub with
        | arr subs =>
          intro p hp
          obtain ⟨hleft, hright⟩ := List.of_mem_zip hp
          rcases hitems with rfl | rfl
          · cases hleft
          · cases hright
        | _ => exact fun item hitem =>
            hkeyword _ (.item hitem hsub fun _ => (by rintro ⟨⟩)) (hitems item hitem)
  | _ => cases hrecord

/-- **What is valid in the strict reading is valid**, where no branch of a `oneOf` is refused for another
reason than the value. -/
theorem valid_of_strict (hroot : root.Distinct) (h : Evaluable root node)
    (hdistinct : DistinctNode node) (hfaithful : OneOfFaithful root other node)
    (hstrict : Strict root node.1 node.2) : Valid root other node.1 node.2 := by
  induction h with
  | @node node hnode hcalls ih =>
    have heval : Evaluable root node := .node hnode hcalls
    rw [valid_iff heval]
    rcases (strict_iff heval).mp hstrict with htrue | ⟨hrecord, hstrict⟩
    · rw [htrue]
      exact rfl
    · exact validStep_of_strictNode hnode hdistinct hrecord (fun call hcall => ih call hcall.mem
        (hdistinct.call hroot hcall.mem) (hfaithful.call hcall)) (hfaithful node .refl) hstrict

/-! ## Agreement -/

/-- A node on which the validator refuses for reasons of the value only: supported keywords and
annotations, `$ref` alone, no list under `items` for the items of the value, and nothing in `enum` and
`const` that is equal to the value up to the order of keys only. -/
structure PlainNode (schema value : JsonValue) : Prop where
  supported : Supported schema
  refAlone : ∀ r, schema.get "$ref" = some r → ∀ keys ∈ schema.objectKeys, ∀ key ∈ keys,
    key = jsString "$ref" ∨ key ∈ annotationKeywords.map jsString
  enum : ∀ options, schema.get "enum" = some (.arr options) → ∀ option ∈ options,
    option.Same value → deepEqual option value
  const : ∀ c, schema.get "const" = some c → c.Same value → deepEqual c value
  items : ∀ subs items, schema.get "items" = some (.arr subs) → value = .arr items →
    subs = [] ∨ items = []

/-- The nodes that are evaluated are plain. -/
def Plain (root : JsonValue) (node : JsonValue × JsonValue) : Prop :=
  ∀ reached, EvaluatesNode root node reached → PlainNode reached.1 reached.2

/-- What a call leads to the node leads to. -/
lemma Plain.call (h : Plain root node) {call : JsonValue × JsonValue}
    (hcall : Calls root node call) : Plain root call :=
  fun reached hreached => h reached (.head hcall hreached)

/-- Neither an array nor an object. -/
def JsonValue.IsScalar : JsonValue → Prop
  | .arr _ | .obj _ => False
  | _ => True

/-- For a scalar the comparison of the validator is equality. -/
lemma deepEqual_of_same {a b : JsonValue} (ha : a.IsScalar) (h : a.Same b) : deepEqual a b = true := by
  have heq : a = b := by
    cases a with
    | arr items => exact ha.elim
    | obj props => exact ha.elim
    | _ => exact h
  rw [heq]
  exact decide_eq_true rfl

/-- A node with supported keywords, `$ref` alone, scalars in `enum` and `const` and one schema under
`items` is plain for every value. -/
lemma plainNode_of_scalar {schema : JsonValue} (hsupported : Supported schema)
    (hrefAlone : ∀ r, schema.get "$ref" = some r → ∀ keys ∈ schema.objectKeys, ∀ key ∈ keys,
      key = jsString "$ref" ∨ key ∈ annotationKeywords.map jsString)
    (henum : ∀ options, schema.get "enum" = some (.arr options) → ∀ option ∈ options,
      option.IsScalar)
    (hconst : ∀ c, schema.get "const" = some c → c.IsScalar)
    (hitems : ∀ subs, schema.get "items" ≠ some (.arr subs)) (value : JsonValue) :
    PlainNode schema value where
  supported := hsupported
  refAlone := hrefAlone
  enum options hoptions option hmem := deepEqual_of_same (henum options hoptions option hmem)
  const c hc := deepEqual_of_same (hconst c hc)
  items subs _ hsubs := absurd hsubs (hitems subs)

/-- Beside a lone `$ref` there is no other keyword. -/
lemma PlainNode.get_eq_none {schema value r : JsonValue} (h : PlainNode schema value)
    (hr : schema.get "$ref" = some r) {keyword : String}
    (hkeyword : jsString keyword ≠ jsString "$ref" ∧
      jsString keyword ∉ annotationKeywords.map jsString) : schema.get keyword = none := by
  cases schema with
  | obj props =>
    rw [JsonValue.get, Option.map_eq_none_iff, List.find?_eq_none]
    intro p hp hkey
    have hmem : p.1 ∈ props.map (·.1) := List.mem_map_of_mem hp
    rw [of_decide_eq_true hkey] at hmem
    rcases h.refAlone r hr _ rfl _ hmem with heq | hann
    · exact hkeyword.1 heq
    · exact hkeyword.2 hann
  | _ => rfl

/-- Beside a lone `$ref` nothing is demanded. -/
lemma PlainNode.strictNode_of_ref {schema value target : JsonValue} {ref : JsString}
    {P : JsonValue → JsonValue → Prop} (h : PlainNode schema value)
    (href : schema.get "$ref" = some (.str ref)) (htarget : resolvePointer root ref = .ok target)
    (hP : P target value) : StrictNode root P schema value := by
  have hnone : ∀ keyword ∈ ["type", "enum", "const", "minimum", "maximum", "minLength", "maxLength",
      "required", "properties", "additionalProperties", "items", "allOf", "anyOf", "oneOf"],
      schema.get keyword = none := by
    intro keyword hkeyword
    refine h.get_eq_none href ?_
    revert keyword
    decide
  have hmember : ∀ key, memberSchema schema key = none := by
    intro key
    rw [memberSchema, hnone "properties" (by decide)]
    exact hnone "additionalProperties" (by decide)
  have hbranches : ∀ keyword ∈ ["allOf", "anyOf", "oneOf"], branches schema keyword = none := by
    intro keyword hkeyword
    rw [branches, hnone keyword (by revert keyword; decide)]
  constructor
  · exact h.supported
  · intro ref' target' href' htarget'
    obtain rfl := JsonValue.str.inj (Option.some.inj (href.symm.trans href'))
    obtain rfl := Except.ok.inj (htarget.symm.trans htarget')
    exact hP
  · constructor
    · exact fun t ht => absurd (ht.symm.trans (hnone "type" (by decide))) (Option.some_ne_none _)
    · exact fun t ht => absurd (ht.symm.trans (hnone "enum" (by decide))) (Option.some_ne_none _)
    · exact fun t ht => absurd (ht.symm.trans (hnone "const" (by decide))) (Option.some_ne_none _)
    · exact fun t _ ht => absurd (ht.symm.trans (hnone "minimum" (by decide))) (Option.some_ne_none _)
    · exact fun t _ ht => absurd (ht.symm.trans (hnone "maximum" (by decide))) (Option.some_ne_none _)
    · exact fun t _ ht => absurd (ht.symm.trans (hnone "minLength" (by decide))) (Option.some_ne_none _)
    · exact fun t _ ht => absurd (ht.symm.trans (hnone "maxLength" (by decide))) (Option.some_ne_none _)
    · exact fun t _ ht => absurd (ht.symm.trans (hnone "required" (by decide))) (Option.some_ne_none _)
  · constructor
    · exact fun _ _ p _ sub hsub => absurd (hsub.symm.trans (hmember p.1)) (Option.some_ne_none _)
    · exact fun subs hsubs => absurd (hsubs.symm.trans (hbranches "allOf" (by decide))) (Option.some_ne_none _)
    · exact fun subs hsubs => absurd (hsubs.symm.trans (hbranches "anyOf" (by decide))) (Option.some_ne_none _)
    · exact fun subs hsubs => absurd (hsubs.symm.trans (hbranches "oneOf" (by decide))) (Option.some_ne_none _)
  · exact fun _ _ sub hsub => absurd (hsub.symm.trans (hnone "items" (by decide))) (Option.some_ne_none _)

/-- What draft-07 says of the parts of a node holds in the strict reading, where the two readings agree
on what is evaluated. -/
lemma PartAssertions.strict {V : JsonValue → JsonValue → Prop} {schema value : JsonValue}
    (hcalls : ∀ call, KeywordCall root (schema, value) call →
      (Strict root call.1 call.2 ↔ V call.1 call.2))
    (h : PartAssertions V schema value) : PartAssertions (Strict root) schema value where
  members := by
    rintro props rfl p hp sub hsub
    exact (hcalls _ (.member hp hsub)).mpr (h.members props rfl p hp sub hsub)
  allOf := fun subs hsubs sub hsub =>
    (hcalls _ (.allOf hsubs hsub)).mpr (h.allOf subs hsubs sub hsub)
  anyOf := fun subs hsubs => by
    obtain ⟨sub, hsub, hvalid⟩ := h.anyOf subs hsubs
    by_contra hno
    push Not at hno
    -- no branch holds, so all of them are evaluated
    obtain ⟨before, after, rfl⟩ := List.append_of_mem hsub
    have hcall : KeywordCall root (schema, value) (sub, value) :=
      .anyOf hsubs fun earlier hearlier => hno earlier (List.mem_append_left _ hearlier)
    exact hno sub hsub ((hcalls _ hcall).mpr hvalid)
  oneOf := fun subs hsubs => by
    obtain ⟨i, ⟨sub, hi, hvalid⟩, hunique⟩ := h.oneOf subs hsubs
    have hbranch := fun (j : ℕ) (sub : JsonValue) (hj : subs[j]? = some sub) =>
      hcalls (sub, value) (.oneOf hsubs (List.mem_of_getElem? hj))
    refine ⟨i, ⟨sub, hi, (hbranch i sub hi).mpr hvalid⟩, ?_⟩
    rintro j ⟨sub', hj, hstrict⟩
    exact hunique j ⟨sub', hj, (hbranch j sub' hj).mp hstrict⟩

/-- On a plain node the strict reading says what draft-07 says. -/
lemma strictNode_of_validStep {schema value : JsonValue} (hplain : PlainNode schema value)
    (hcalls : ∀ call, Calls root (schema, value) call →
      (Strict root call.1 call.2 ↔ Valid root other call.1 call.2))
    (hnode : WellFormedNode root schema) (hrecord : schema.isRecord)
    (h : ValidStep root other (Valid root other) schema value) :
    StrictNode root (Strict root) schema value := by
  cases schema with
  | obj props =>
    rw [ValidStep] at h
    split at h
    · next ref href =>
      obtain ⟨target, htarget, hvalid⟩ := h
      refine hplain.strictNode_of_ref href htarget ((hcalls (target, value) (.inl ?_)).mpr hvalid)
      simp [refCalls, href, htarget, Except.toOption]
    · next hno =>
      have href := hnode.get_ref_eq_none hno
      have hkeyword : ∀ call, KeywordCall root (.obj props, value) call →
          (Strict root call.1 call.2 ↔ Valid root other call.1 call.2) :=
        fun call hcall => hcalls call (.inr ⟨href, hplain.supported, hcall⟩)
      rcases h with ⟨hunsupported, -⟩ | ⟨-, hvalues, hparts, hitems⟩
      · exact absurd hplain.supported hunsupported
      · refine ⟨hplain.supported, fun ref _ href' => absurd href' (hno ref),
          hvalues.imp hplain.enum hplain.const, hparts.strict hkeyword, ?_⟩
        rintro items rfl sub hsub
        have hall := hitems items rfl sub hsub
        cases sub with
        | arr subs => exact hplain.items subs items hsub rfl
        | _ => exact fun item hitem =>
            (hkeyword _ (.item hitem hsub fun _ => (by rintro ⟨⟩))).mpr (hall item hitem)
  | _ => cases hrecord

/-- **On plain nodes the two readings agree.** -/
theorem strict_iff_valid (hroot : root.Distinct) (h : Evaluable root node)
    (hdistinct : DistinctNode node) (hplain : Plain root node) :
    Strict root node.1 node.2 ↔ Valid root other node.1 node.2 := by
  induction h with
  | @node node hnode hcalls ih =>
    have heval : Evaluable root node := .node hnode hcalls
    have hiff : ∀ call, Calls root node call →
        (Strict root call.1 call.2 ↔ Valid root other call.1 call.2) := fun call hcall =>
      ih call hcall.mem (hdistinct.call hroot hcall.mem) (hplain.call hcall)
    rw [strict_iff heval, valid_iff heval]
    constructor
    · rintro (htrue | ⟨hrecord, hstrict⟩)
      · rw [htrue]
        exact rfl
      · exact validStep_of_strictNode hnode hdistinct hrecord (fun call hcall => (hiff call hcall).mp)
          (fun href hsupported subs hsubs sub hsub =>
            (hiff _ (.inr ⟨href, hsupported, .oneOf hsubs hsub⟩)).mpr) hstrict
    · intro hvalid
      rcases hnode.isSchema with hrecord | ⟨b, hb⟩
      · exact .inr ⟨hrecord, strictNode_of_validStep (hplain node .refl) hiff hnode hrecord hvalid⟩
      · rw [hb] at hvalid
        exact .inl (by rw [hb, show b = true from hvalid])

/-- Where the evaluation leads it ends. -/
lemma Evaluable.evaluates (h : Evaluable root node) {reached : JsonValue × JsonValue}
    (hreached : EvaluatesNode root node reached) : Evaluable root reached := by
  induction hreached with
  | refl => exact h
  | tail _ hcall ih => exact ih.call hcall.mem

/-- Where the evaluation leads the keys are distinct. -/
lemma DistinctNode.evaluates (hroot : root.Distinct) (h : DistinctNode node)
    {reached : JsonValue × JsonValue} (hreached : EvaluatesNode root node reached) :
    DistinctNode reached := by
  induction hreached with
  | refl => exact h
  | tail _ hcall ih => exact ih.call hroot hcall.mem

/-- Where all nodes are plain, no branch is refused for another reason than the value. -/
lemma Plain.oneOfFaithful (hroot : root.Distinct) (h : Evaluable root node)
    (hdistinct : DistinctNode node) (hplain : Plain root node) : OneOfFaithful root other node := by
  intro reached hreached href hsupported subs hsubs sub hsub
  have hcall : Calls root reached (sub, reached.2) := .inr ⟨href, hsupported, .oneOf hsubs hsub⟩
  have hbranch : EvaluatesNode root node (sub, reached.2) := hreached.tail hcall
  have hplain' : Plain root (sub, reached.2) := fun node' hnode' => hplain node' (hbranch.trans hnode')
  exact (strict_iff_valid hroot (h.evaluates hbranch) (hdistinct.evaluates hroot hbranch) hplain').mpr

/-- A node whose calls reach only plain nodes. -/
lemma plain_of_calls (hnode : PlainNode node.1 node.2)
    (hcalls : ∀ call ∈ schemaCalls root node, Plain root call) : Plain root node := by
  intro reached hreached
  rcases Relation.ReflTransGen.cases_head hreached with rfl | ⟨call, hcall, hrest⟩
  · exact hnode
  · exact hcalls call hcall.mem reached hrest

/-- `{"type": name}` -/
def sampleTypeSchema (name : String) : JsonValue := .obj [(jsString "type", .text name)]

/-- A schema with one type is evaluable and plain. -/
lemma sampleTypeSchema_spec (root value : JsonValue) (name : String) :
    Evaluable root (sampleTypeSchema name, value) ∧ Plain root (sampleTypeSchema name, value) := by
  have hget : ∀ key : String, jsString key ≠ jsString "type" →
      (sampleTypeSchema name).get key = none := by
    intro key hkey
    simp [sampleTypeSchema, JsonValue.get, Ne.symm hkey]
  have hbranches : ∀ key ∈ ["allOf", "anyOf", "oneOf"],
      branches (sampleTypeSchema name) key = none := by
    intro key hkey
    rw [branches, hget key (by revert key; decide)]
  have hmember : ∀ key, memberSchema (sampleTypeSchema name) key = none := by
    intro key
    rw [memberSchema, hget "properties" (by decide)]
    exact hget "additionalProperties" (by decide)
  have hnone : schemaCalls root (sampleTypeSchema name, value) = [] := by
    have hkeyword : keywordCalls (sampleTypeSchema name) value = [] := by
      cases value with
      | obj props => simp [keywordCalls, hbranches, hmember]
      | arr items => simp [keywordCalls, hbranches, hget "items" (by decide)]
      | _ => simp [keywordCalls, hbranches]
    rw [schemaCalls, hkeyword, ite_self, refCalls, hget "$ref" (by decide)]
    rfl
  refine ⟨.node ?_ ?_, plain_of_calls ?_ ?_⟩
  · constructor
    · exact .inl rfl
    · exact fun r hr => absurd (hr.symm.trans (hget "$ref" (by decide))) (Option.some_ne_none _)
    · rintro t ht v hv
      have htype : (sampleTypeSchema name).get "type" = some (.text name) := by
        simp [sampleTypeSchema, JsonValue.get]
      obtain rfl := Option.some.inj (htype.symm.trans ht)
      exact ⟨jsString name, List.mem_singleton.mp hv⟩
    · exact fun keys hkeys => absurd (hkeys.symm.trans (hget "required" (by decide))) (Option.some_ne_none _)
  · rw [hnone]
    exact fun _ hcall => absurd hcall List.not_mem_nil
  · refine plainNode_of_scalar ?_ ?_ ?_ ?_ ?_ value
    · rintro _ ⟨⟩
      change unsupportedKeywords [jsString "type"] = []
      decide
    · exact fun r hr => absurd (hr.symm.trans (hget "$ref" (by decide))) (Option.some_ne_none _)
    · exact fun options ho => absurd (ho.symm.trans (hget "enum" (by decide))) (Option.some_ne_none _)
    · exact fun c hc => absurd (hc.symm.trans (hget "const" (by decide))) (Option.some_ne_none _)
    · exact fun subs hs => absurd (hs.symm.trans (hget "items" (by decide))) (Option.some_ne_none _)
  · rw [hnone]
    exact fun _ hcall => absurd hcall List.not_mem_nil

/-- `{"oneOf": [true, {"maxItems": 5}]}` -/
def sampleOneOf : JsonValue :=
  .obj [(jsString "oneOf", .arr [.bool true, .obj [(jsString "maxItems", .int 5)]])]

/-- What draft-07 says of `{"maxItems": 5}`: an array has at most five items. -/
def sampleMaxItems (_ value : JsonValue) : Prop :=
  match value with
  | .arr items => items.length ≤ 5
  | _ => True

/-- `{"oneOf": [{"type": "string"}, {"type": "integer"}]}` -/
def sampleAlternatives : JsonValue :=
  .obj [(jsString "oneOf", .arr [sampleTypeSchema "string", sampleTypeSchema "integer"])]

/-- `{"anyOf": [true, {"oneOf": [true, {"maxItems": 5}]}]}` -/
def sampleFirstBranch : JsonValue := .obj [(jsString "anyOf", .arr [.bool true, sampleOneOf])]

/-- The schema `true` holds in the strict reading. -/
lemma strict_true (value : JsonValue) : Strict root (.bool true) value := by
  refine ⟨1, fun m hm => ?_⟩
  obtain ⟨k, rfl⟩ : ∃ k, m = k + 1 := ⟨m - 1, by omega⟩
  exact .inl rfl

/-- The schema `true` makes no calls. -/
lemma schemaCalls_true (value : JsonValue) : schemaCalls root (.bool true, value) = [] := by
  have hmember : ∀ key, memberSchema (.bool true) key = none := fun _ => rfl
  have hkeyword : keywordCalls (.bool true) value = [] := by
    cases value with
    | obj members => simp [keywordCalls, hmember, branches, JsonValue.get]
    | _ => simp [keywordCalls, branches, JsonValue.get]
  rw [schemaCalls, hkeyword, ite_self]
  rfl

/-- The evaluation of `true` ends. -/
lemma evaluable_true (value : JsonValue) : Evaluable root (.bool true, value) := by
  refine .node ⟨.inr ⟨true, rfl⟩, fun _ => nofun, fun _ => nofun, fun _ => nofun⟩ fun call hcall => ?_
  rw [schemaCalls_true] at hcall
  cases hcall

/-- A `oneOf` behind a branch of `anyOf` that holds is not evaluated: the sample in the second branch does
no harm. -/
lemma sampleFirstBranch_faithful :
    OneOfFaithful (.obj []) sampleMaxItems (sampleFirstBranch, .int 1) := by
  have hnode : ∀ reached, EvaluatesNode (.obj []) (sampleFirstBranch, .int 1) reached →
      reached = (sampleFirstBranch, .int 1) ∨ reached = (.bool true, .int 1) := by
    intro reached hreached
    induction hreached with
    | refl => exact .inl rfl
    | tail _ hcall ih =>
      rcases ih with rfl | rfl
      · rcases hcall with href | ⟨-, -, hkeyword⟩
        · cases href
        · cases hkeyword with
          | allOf hsubs => cases hsubs
          | oneOf hsubs => cases hsubs
          | @anyOf _ sub _ before after hsubs hbefore =>
            cases before with
            | nil =>
              cases hsubs
              exact .inr rfl
            | cons earlier before =>
              have hlist : [.bool true, sampleOneOf] = earlier :: (before ++ sub :: after) :=
                Option.some.inj hsubs
              obtain ⟨hearlier, -⟩ := List.cons.inj hlist
              exact absurd (strict_true _) (hearlier ▸ hbefore earlier List.mem_cons_self)
      · exact absurd hcall.mem (by rw [schemaCalls_true]; exact List.not_mem_nil)
  intro reached hreached href hsupported subs hsubs sub hsub
  rcases hnode reached hreached with rfl | rfl <;> cases hsubs

/-- A record without references, types and required properties is a well-formed schema. -/
lemma wellFormedNode_of_none {schema : JsonValue} (hrecord : schema.isRecord)
    (href : schema.get "$ref" = none) (htype : schema.get "type" = none)
    (hrequired : schema.get "required" = none) : WellFormedNode root schema where
  isSchema := .inl hrecord
  ref _ hr := absurd (hr.symm.trans href) (Option.some_ne_none _)
  type _ ht := absurd (ht.symm.trans htype) (Option.some_ne_none _)
  required _ hkeys := absurd (hkeys.symm.trans hrequired) (Option.some_ne_none _)

end GovAI
