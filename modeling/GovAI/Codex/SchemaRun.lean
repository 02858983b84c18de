import GovAI.Codex.Draft07
import Mathlib.Algebra.Order.Field.Power
import Mathlib.Tactic.FieldSimp
import Mathlib.Tactic.LinearCombination
import Mathlib.Tactic.Positivity
import Mathlib.Tactic.Ring

/-!
# Runs of the validator

Where the evaluation of a schema ends, the validator returns on a stack that is deep enough, without
errors exactly for the values that are valid in the strict reading (`run_spec`).
-/

namespace GovAI

/-! ## Types -/

/-- A number is an integer exactly if its decimal has no digits after the point. -/
lemma JsNumber.isInteger_iff (x : JsNumber) : x.isInteger ↔ ∃ z : ℤ, x.toRat = z := by
  cases x with
  | int i => exact iff_of_true rfl ⟨i, rfl⟩
  | frac neg s n h =>
    generalize hk : (Nat.toDigits 10 s).length = k
    rw [JsNumber.isInteger, JsNumber.toRat, hk, decide_eq_true_iff]
    have hsign : ∃ e : ℤ, (if neg then -1 else 1 : ℚ) = e ∧ e * e = 1 := by
      cases neg with
      | true => exact ⟨-1, by norm_num, by norm_num⟩
      | false => exact ⟨1, by norm_num, by norm_num⟩
    obtain ⟨e, he, hee⟩ := hsign
    rw [he]
    constructor
    · intro hle
      obtain ⟨d, hd⟩ := Int.le.dest hle
      refine ⟨e * s * 10 ^ d, ?_⟩
      rw [show n - (k : ℤ) = (d : ℤ) by omega, zpow_natCast]
      push_cast
      ring
    · rintro ⟨z, hz⟩
      by_contra hlt
      obtain ⟨d, hd⟩ : ∃ d : ℕ, n - (k : ℤ) = -((d + 1 : ℕ) : ℤ) := ⟨(k - n - 1).toNat, by omega⟩
      rw [hd, zpow_neg, zpow_natCast] at hz
      have hpow : (10 : ℚ) ^ (d + 1) ≠ 0 := by positivity
      have hs : (s : ℚ) = (z * e * 10 ^ (d + 1) : ℤ) := by
        have hee' : (e : ℚ) * e = 1 := by exact_mod_cast hee
        push_cast
        rw [← hz]
        field_simp
        linear_combination (-(s : ℚ)) * hee'
      have hs' : (s : ℤ) = z * e * 10 ^ (d + 1) := by exact_mod_cast hs
      have hdvd : (10 : ℤ) ∣ s := ⟨z * e * 10 ^ d, by rw [hs', pow_succ]; ring⟩
      omega

/-- The names that the validator gives a value are its types. -/
lemma mem_typeOf_iff (name : JsString) (value : JsonValue) :
    name ∈ typeOf value ↔ HasType name value := by
  cases value with
  | num x =>
    rw [typeOf, HasType, ← JsNumber.isInteger_iff]
    by_cases hint : x.1.isInteger
    · simp [hint, or_comm]
    · simp [hint]
  | _ => exact List.mem_singleton

/-! ## One node -/

section Run

/-- Calls that all return give the list of their results, which has no errors if none of them has. -/
lemma mapM_errors {α : Type} {f : α → SchemaErrors} {Q : α → Prop} {l : List α}
    (h : ∀ a ∈ l, ∃ errors, f a = .ok errors ∧ (errors = [] ↔ Q a)) :
    ∃ results, l.mapM f = .ok results ∧ List.Forall₂ (fun a errors => errors = [] ↔ Q a) l results := by
  induction l with
  | nil => exact ⟨[], rfl, .nil⟩
  | cons a l ih =>
    obtain ⟨errors, hrun, herrors⟩ := h a List.mem_cons_self
    obtain ⟨results, hresults, hall⟩ := ih fun b hb => h b (List.mem_cons_of_mem _ hb)
    refine ⟨errors :: results, ?_, .cons herrors hall⟩
    rw [List.mapM_cons, hrun, except_ok_bind, hresults]
    rfl

/-- The errors of several calls together. -/
lemma flatten_eq_nil_iff_forall {α : Type} {Q : α → Prop} {l : List α} {results : List (List JsString)}
    (h : List.Forall₂ (fun a errors => errors = [] ↔ Q a) l results) :
    results.flatten = [] ↔ ∀ a ∈ l, Q a := by
  induction h with
  | nil => simp
  | cons hhead htail ih => rw [List.flatten_cons, List.append_eq_nil_iff, hhead, ih,
      List.forall_mem_cons]

/-- How many calls have no errors. -/
lemma countP_isEmpty_eq_one_iff {Q : JsonValue → Prop} {l : List JsonValue}
    {results : List (List JsString)}
    (h : List.Forall₂ (fun a errors => errors = [] ↔ Q a) l results) :
    results.countP (·.isEmpty) = 1 ↔ ∃! i : ℕ, ∃ a, l[i]? = some a ∧ Q a := by
  have hzero : ∀ {l : List JsonValue} {results : List (List JsString)},
      List.Forall₂ (fun a errors => errors = [] ↔ Q a) l results →
      (results.countP (·.isEmpty) = 0 ↔ ∀ a ∈ l, ¬Q a) := by
    intro l results h
    induction h with
    | nil => simp
    | @cons a errors l results hhead htail ih =>
      rw [List.countP_cons, Nat.add_eq_zero_iff, ih, List.forall_mem_cons, ← hhead]
      cases errors with
      | nil => simp
      | cons e errors => simp
  induction h with
  | nil => simp [ExistsUnique]
  | @cons a errors l results hhead htail ih =>
    rw [List.countP_cons]
    by_cases ha : Q a
    · rw [hhead.mpr ha]
      have hrest := hzero htail
      constructor
      · intro hone
        have hnone := hrest.mp (by simpa using hone)
        refine ⟨0, ⟨a, rfl, ha⟩, ?_⟩
        rintro (_ | j) ⟨b, hb, hQ⟩
        · rfl
        · exact absurd hQ (hnone b (List.mem_of_getElem? hb))
      · rintro ⟨i, -, hunique⟩
        have hnone : ∀ b ∈ l, ¬Q b := by
          intro b hb hQ
          obtain ⟨j, hj⟩ := List.getElem?_of_mem hb
          have h₀ := hunique 0 ⟨a, rfl, ha⟩
          have h₁ := hunique (j + 1) ⟨b, hj, hQ⟩
          omega
        rw [hrest.mpr hnone]
        rfl
    · have hne : errors ≠ [] := mt hhead.mp ha
      have hempty : errors.isEmpty = false := by simpa using hne
      rw [hempty, if_neg Bool.false_ne_true, Nat.add_zero]
      refine Iff.trans ih ⟨?_, ?_⟩
      · rintro ⟨i, ⟨b, hb, hQ⟩, hunique⟩
        refine ⟨i + 1, ⟨b, hb, hQ⟩, ?_⟩
        rintro (_ | j) ⟨c, hc, hQ'⟩
        · obtain rfl := Option.some.inj hc
          exact absurd hQ' ha
        · exact congrArg (· + 1) (hunique j ⟨c, hc, hQ'⟩)
      · rintro ⟨_ | i, ⟨b, hb, hQ⟩, hunique⟩
        · obtain rfl := Option.some.inj hb
          exact absurd hQ ha
        · refine ⟨i, ⟨b, hb, hQ⟩, ?_⟩
          rintro j ⟨c, hc, hQ'⟩
          exact Nat.succ_inj.mp (hunique (j + 1) ⟨c, hc, hQ'⟩)

/-! ### The keywords that look at the value alone -/

variable {root schema value : JsonValue} {path : JsString}

/-- The errors of `type`. -/
lemma typeErrors_eq_nil_iff : typeErrors schema value path = [] ↔ ∀ t, schema.get "type" = some t →
    ∃ name, .str name ∈ allowedTypes t ∧ HasType name value := by
  rw [typeErrors]
  cases schema.get "type" with
  | none => simp
  | some t =>
    simp only [Option.some.injEq, forall_eq', ite_eq_left_iff, reduceCtorEq, imp_false, not_not,
      List.any_eq_true, mem_typeOf_iff]
    constructor
    · rintro ⟨name, htype, v, hv, heq⟩
      cases v with
      | str s => exact ⟨name, of_decide_eq_true heq ▸ hv, htype⟩
      | _ => cases heq
    · rintro ⟨name, hname, htype⟩
      exact ⟨name, htype, _, hname, decide_eq_true rfl⟩

/-- The errors of `enum` and `const`. -/
lemma equalityErrors_eq_nil_iff : equalityErrors schema value path = [] ↔
    (∀ options, schema.get "enum" = some (.arr options) → ∃ option ∈ options,
      deepEqual option value) ∧ ∀ c, schema.get "const" = some c → deepEqual c value := by
  rw [equalityErrors, List.append_eq_nil_iff]
  refine and_congr ?_ ?_
  · split
    · next options heq => simp [heq]
    · next hne => exact iff_of_true rfl fun options heq => absurd heq (hne options)
  · split
    · next c heq => simp [heq]
    · next heq => simp [heq]

/-- The errors of a bound. -/
lemma boundErrors_eq_nil_iff {keyword : String} {fails : ℚ → Bool} {message : JsString} :
    boundErrors schema keyword fails message = [] ↔
      ∀ m, schema.get keyword = some (.num m) → ¬fails m.1.toRat := by
  rw [boundErrors]
  split
  · next m heq => simp [heq]
  · next hne => exact iff_of_true rfl fun m heq => absurd heq (hne m)

/-- The errors of the bounds. -/
lemma rangeErrors_eq_nil_iff : rangeErrors schema value path = [] ↔
    (∀ m x, schema.get "minimum" = some (.num m) → value = .num x → m.1.toRat ≤ x.1.toRat) ∧
    (∀ m x, schema.get "maximum" = some (.num m) → value = .num x → x.1.toRat ≤ m.1.toRat) ∧
    (∀ m s, schema.get "minLength" = some (.num m) → value = .str s →
      m.1.toRat ≤ codePointCount s) ∧
    (∀ m s, schema.get "maxLength" = some (.num m) → value = .str s →
      (codePointCount s : ℚ) ≤ m.1.toRat) := by
  cases value with
  | num x =>
    simp [rangeErrors, List.append_eq_nil_iff, boundErrors_eq_nil_iff]
  | str s =>
    simp [rangeErrors, List.append_eq_nil_iff, boundErrors_eq_nil_iff]
  | _ => simp [rangeErrors]

/-- The errors of `required`. -/
lemma requiredErrors_eq_nil_iff {members : List (JsString × JsonValue)}
    (hform : ∀ keys, schema.get "required" = some (.arr keys) → ∀ key ∈ keys, ∃ s, key = .str s) :
    requiredErrors schema members path = [] ↔ ∀ keys, schema.get "required" = some (.arr keys) →
      ∀ key, .str key ∈ keys → key ∈ members.map (·.1) := by
  rw [requiredErrors]
  split
  · next keys heq =>
    simp only [List.filterMap_eq_nil_iff, List.forall_mem_map, ite_eq_left_iff, reduceCtorEq,
      imp_false, not_not, heq, Option.some.injEq, JsonValue.arr.injEq, forall_eq']
    constructor
    · exact fun h key hkey => h _ hkey
    · intro h key hkey
      obtain ⟨s, rfl⟩ := hform keys heq key hkey
      exact h s hkey
  · next hne => exact iff_of_true rfl fun keys heq => absurd heq (hne keys)

/-! ### The keywords that make calls -/

variable {validate : JsonValue → JsonValue → JsString → SchemaErrors}
  {P : JsonValue → JsonValue → Prop}

/-- A call returns, and it has no errors exactly if `P` holds. -/
def Decides (validate : JsonValue → JsonValue → JsString → SchemaErrors)
    (P : JsonValue → JsonValue → Prop) (call : JsonValue × JsonValue) : Prop :=
  ∀ path, ∃ errors, validate call.1 call.2 path = .ok errors ∧ (errors = [] ↔ P call.1 call.2)

/-- The errors of `$ref`. -/
lemma refErrors_spec (hform : ∀ r, schema.get "$ref" = some r → ∃ ref target, r = .str ref ∧
      resolvePointer root ref = .ok target)
    (h : ∀ call ∈ refCalls root schema value, Decides validate P call) :
    ∃ errors, refErrors validate root schema value path = .ok errors ∧
      (errors = [] ↔ ∀ ref target, schema.get "$ref" = some (.str ref) →
        resolvePointer root ref = .ok target → P target value) := by
  rw [refErrors]
  split
  · next ref heq =>
    obtain ⟨_, target, href, htarget⟩ := hform _ heq
    obtain rfl := JsonValue.str.inj href
    obtain ⟨errors, hrun, herrors⟩ := h (target, value)
      (by simp [refCalls, heq, htarget, Except.toOption]) path
    refine ⟨errors, by rw [htarget]; exact hrun, herrors.trans ⟨?_, ?_⟩⟩
    · rintro hP ref' target' heq' htarget'
      obtain rfl := JsonValue.str.inj (Option.some.inj (heq.symm.trans heq'))
      obtain rfl := Except.ok.inj (htarget.symm.trans htarget')
      exact hP
    · exact fun hall => hall ref target heq htarget
  · next hne => exact ⟨[], rfl, iff_of_true rfl fun ref _ heq => absurd heq (hne ref)⟩

/-- The errors of one property. -/
lemma memberErrors_spec {member : JsString × JsonValue}
    (h : ∀ sub, memberSchema schema member.1 = some sub →
      Decides validate P (sub, member.2) ∧ (sub.isRecord ∨ ∃ b, sub = .bool b))
    (hfalse : ∀ v, ¬P (.bool false) v) :
    ∃ errors, memberErrors validate schema path member = .ok errors ∧
      (errors = [] ↔ ∀ sub, memberSchema schema member.1 = some sub → P sub member.2) := by
  rw [memberErrors]
  cases hprop : (schema.get "properties").bind (·.own member.1) with
  | some sub =>
    have hsub : memberSchema schema member.1 = some sub := by rw [memberSchema, hprop]
    obtain ⟨errors, hrun, herrors⟩ := (h sub hsub).1 (path ++ jsString "." ++ member.1)
    refine ⟨errors, hrun, herrors.trans ?_⟩
    simp [hsub]
  | none =>
    have hsub : memberSchema schema member.1 = schema.get "additionalProperties" := by
      rw [memberSchema, hprop]
    rw [hsub] at h ⊢
    cases hadd : schema.get "additionalProperties" with
    | none => exact ⟨[], rfl, by simp⟩
    | some sub =>
      obtain ⟨hcall, hschema⟩ := h sub hadd
      obtain ⟨errors, hrun, herrors⟩ := hcall (path ++ jsString "." ++ member.1)
      have hall : (∀ sub', some sub = some sub' → P sub' member.2) ↔ P sub member.2 := by simp
      rw [hall]
      cases sub with
      | bool b =>
        cases b with
        | true => exact ⟨errors, hrun, herrors⟩
        | false => exact ⟨_, rfl, iff_of_false (List.cons_ne_nil _ _) (hfalse _)⟩
      | obj props => exact ⟨errors, hrun, herrors⟩
      | _ => rcases hschema with hschema | ⟨b, hb⟩ <;> contradiction

/-- The errors of the properties. -/
lemma objectErrors_spec (hform : ∀ keys, schema.get "required" = some (.arr keys) →
      ∀ key ∈ keys, ∃ s, key = .str s)
    (h : ∀ call ∈ keywordCalls schema value, Decides validate P call ∧
      (call.1.isRecord ∨ ∃ b, call.1 = .bool b)) (hfalse : ∀ v, ¬P (.bool false) v) :
    ∃ errors, objectErrors validate schema value path = .ok errors ∧ (errors = [] ↔
      (∀ keys members, schema.get "required" = some (.arr keys) → value = .obj members →
        ∀ key, .str key ∈ keys → key ∈ members.map (·.1)) ∧
      ∀ props, value = .obj props → ∀ p ∈ props, ∀ sub, memberSchema schema p.1 = some sub →
        P sub p.2) := by
  cases value with
  | obj members =>
    obtain ⟨results, hrun, hresults⟩ := mapM_errors (f := memberErrors validate schema path)
      fun p hp => memberErrors_spec (fun sub hsub => h _ (mem_keywordCalls_member hp hsub)) hfalse
    refine ⟨_, by rw [objectErrors, hrun]; rfl, ?_⟩
    rw [List.append_eq_nil_iff, requiredErrors_eq_nil_iff hform, flatten_eq_nil_iff_forall hresults]
    constructor
    · rintro ⟨hrequired, hmembers⟩
      refine ⟨?_, ?_⟩
      · rintro keys _ hkeys ⟨⟩
        exact hrequired keys hkeys
      · rintro _ ⟨⟩
        exact hmembers
    · rintro ⟨hrequired, hmembers⟩
      exact ⟨fun keys hkeys => hrequired keys members hkeys rfl, hmembers members rfl⟩
  | _ => exact ⟨[], rfl, iff_of_true rfl ⟨fun _ _ _ => nofun, fun _ => nofun⟩⟩

/-- Where a list stands for a schema, there are no errors exactly if it is empty. -/
def RefusesLists (validate : JsonValue → JsonValue → JsString → SchemaErrors) : Prop :=
  ∀ subs value path, ∃ errors, validate (.arr subs) value path = .ok errors ∧
    (errors = [] ↔ subs = [])

/-- The errors of the items; for `items` by position the calls apply the list itself. -/
lemma itemErrors_spec (h : ∀ call ∈ keywordCalls schema value, Decides validate P call)
    (harr : RefusesLists validate) :
    ∃ errors, itemErrors validate schema value path = .ok errors ∧ (errors = [] ↔
      ∀ items, value = .arr items → ∀ sub, schema.get "items" = some sub →
        match sub with
        | .arr subs => subs = [] ∨ items = []
        | sub => ∀ item ∈ items, P sub item) := by
  cases value with
  | arr items =>
    cases hsub : schema.get "items" with
    | none =>
      exact ⟨[], by simp only [itemErrors, hsub]; rfl, iff_of_true rfl fun _ _ _ => nofun⟩
    | some sub =>
      have hrun : ∀ Q : JsonValue → Prop, (∀ item ∈ items, ∀ path, ∃ errors,
          validate sub item path = .ok errors ∧ (errors = [] ↔ Q item)) →
          ∃ errors, itemErrors validate schema (.arr items) path = .ok errors ∧
            (errors = [] ↔ ∀ item ∈ items, Q item) := by
        intro Q hcall
        obtain ⟨results, hrun, hresults⟩ := mapM_errors (l := items.zipIdx) (f := fun p =>
            validate sub p.1 (path ++ jsString "[" ++ jsString (toString p.2) ++ jsString "]"))
          fun p hp => hcall p.1 (List.fst_mem_of_mem_zipIdx hp) _
        refine ⟨results.flatten, ?_, ?_⟩
        · simp only [itemErrors, hsub]
          rw [hrun]
          rfl
        · rw [flatten_eq_nil_iff_forall hresults]
          constructor
          · intro hall item hitem
            obtain ⟨i, hi⟩ := List.getElem?_of_mem hitem
            exact hall (item, i) (List.mem_zipIdx_iff_getElem?.mpr hi)
          · exact fun hall p hp => hall p.1 (List.fst_mem_of_mem_zipIdx hp)
      cases sub with
      | arr subs =>
        obtain ⟨errors, hok, herrors⟩ := hrun (fun _ => subs = []) fun item _ => harr subs item
        refine ⟨errors, hok, herrors.trans ?_⟩
        have hlist : (∀ item ∈ items, subs = []) ↔ subs = [] ∨ items = [] := by
          cases items with
          | nil => simp
          | cons item items => simp +contextual
        simp [hlist]
      | _ =>
        obtain ⟨errors, hok, herrors⟩ := hrun (P _) fun item hitem =>
          h _ (mem_keywordCalls_item hitem hsub fun _ => nofun)
        exact ⟨errors, hok, herrors.trans (by simp)⟩
  | _ => exact ⟨[], by cases schema.get "items" <;> rfl, iff_of_true rfl fun _ => nofun⟩

/-- The errors of `allOf`. -/
lemma allOfErrors_spec (h : ∀ call ∈ keywordCalls schema value, Decides validate P call) :
    ∃ errors, allOfErrors validate schema value path = .ok errors ∧ (errors = [] ↔
      ∀ subs, branches schema "allOf" = some subs → ∀ sub ∈ subs, P sub value) := by
  rw [allOfErrors]
  split
  · next subs heq =>
    obtain ⟨results, hrun, hresults⟩ := mapM_errors (f := fun sub => validate sub value path)
      fun sub hsub => h (sub, value) (mem_keywordCalls_branch (by decide) heq hsub) path
    refine ⟨results.flatten, by rw [hrun]; rfl, ?_⟩
    rw [flatten_eq_nil_iff_forall hresults, heq]
    simp
  · next heq => exact ⟨[], rfl, by simp [heq]⟩

/-- A search that stops at the first call without errors. -/
lemma anyM_spec {subs : List JsonValue} (h : ∀ sub ∈ subs, Decides validate P (sub, value)) :
    ∃ ok, subs.anyM (fun sub => return (← validate sub value path).isEmpty) =
        (Except.ok ok : Except JsString Bool) ∧ (ok ↔ ∃ sub ∈ subs, P sub value) := by
  induction subs with
  | nil => exact ⟨false, rfl, by simp⟩
  | cons sub subs ih =>
    obtain ⟨errors, hrun, herrors⟩ := h sub List.mem_cons_self path
    obtain ⟨ok, hok, hiff⟩ := ih fun s hs => h s (List.mem_cons_of_mem _ hs)
    have hcons : (∃ s ∈ sub :: subs, P s value) ↔ P sub value ∨ ∃ s ∈ subs, P s value := by simp
    rw [hcons, List.anyM, hrun]
    cases errors with
    | nil => exact ⟨true, rfl, iff_of_true rfl (.inl (herrors.mp rfl))⟩
    | cons e errors =>
      refine ⟨ok, hok, hiff.trans (or_iff_right fun hP => ?_).symm⟩
      exact List.cons_ne_nil _ _ (herrors.mpr hP)

/-- The errors of `anyOf`. -/
lemma anyOfErrors_spec (h : ∀ call ∈ keywordCalls schema value, Decides validate P call) :
    ∃ errors, anyOfErrors validate schema value path = .ok errors ∧ (errors = [] ↔
      ∀ subs, branches schema "anyOf" = some subs → ∃ sub ∈ subs, P sub value) := by
  rw [anyOfErrors]
  split
  · next subs heq =>
    obtain ⟨ok, hrun, hok⟩ : ∃ ok, subs.anyM (fun sub =>
        return (← validate sub value path).isEmpty) = (Except.ok ok : Except JsString Bool) ∧ _ :=
      anyM_spec fun sub hsub => h (sub, value) (mem_keywordCalls_branch (by decide) heq hsub)
    refine ⟨_, by rw [hrun]; rfl, ?_⟩
    simp only [heq, Option.some.injEq, forall_eq', ← hok, ite_eq_left_iff, reduceCtorEq, imp_false,
      not_not]
  · next heq => exact ⟨[], rfl, by simp [heq]⟩

/-- The errors of `oneOf`. -/
lemma oneOfErrors_spec (h : ∀ call ∈ keywordCalls schema value, Decides validate P call) :
    ∃ errors, oneOfErrors validate schema value path = .ok errors ∧ (errors = [] ↔
      ∀ subs, branches schema "oneOf" = some subs →
        ∃! i : ℕ, ∃ sub, subs[i]? = some sub ∧ P sub value) := by
  rw [oneOfErrors]
  split
  · next subs heq =>
    obtain ⟨results, hrun, hresults⟩ := mapM_errors (f := fun sub => validate sub value path)
      fun sub hsub => h (sub, value) (mem_keywordCalls_branch (by decide) heq hsub) path
    refine ⟨_, by rw [hrun]; rfl, ?_⟩
    rw [heq]
    simp only [Option.some.injEq, forall_eq', ite_eq_left_iff, reduceCtorEq, imp_false, not_not]
    exact countP_isEmpty_eq_one_iff hresults
  · next heq => exact ⟨[], rfl, by simp [heq]⟩

/-- A node with supported keywords whose calls return returns, and it has no errors exactly if the strict
reading of its keywords holds. -/
lemma validateKeywords_spec {keys : List JsString} (hkeys : schema.objectKeys = some keys)
    (hsupported : unsupportedKeywords keys = []) (hbool : ∀ b, schema ≠ .bool b)
    (href : ∀ r, schema.get "$ref" = some r → ∃ ref target, r = .str ref ∧
      resolvePointer root ref = .ok target)
    (hrequired : ∀ keys, schema.get "required" = some (.arr keys) → ∀ key ∈ keys, ∃ s, key = .str s)
    (h : ∀ call ∈ schemaCalls root (schema, value), Decides validate P call ∧
      (call.1.isRecord ∨ ∃ b, call.1 = .bool b))
    (harr : RefusesLists validate) (hfalse : ∀ v, ¬P (.bool false) v) :
    ∃ errors, validateNode validate root schema value path = .ok errors ∧
      (errors = [] ↔ StrictNode root P schema value) := by
  have hs : Supported schema := by
    intro keys' hkeys'
    obtain rfl := Option.some.inj (hkeys.symm.trans hkeys')
    exact hsupported
  have hcalls : ∀ call ∈ keywordCalls schema value, Decides validate P call ∧
      (call.1.isRecord ∨ ∃ b, call.1 = .bool b) := by
    refine fun call hcall => h call (List.mem_append_right _ ?_)
    rw [if_pos hs]
    exact hcall
  have hdecides := fun call hcall => (hcalls call hcall).1
  obtain ⟨e₁, h₁, hiff₁⟩ : ∃ errors, refErrors validate root schema value path = .ok errors ∧ _ :=
    refErrors_spec href
    fun call hcall => (h call (List.mem_append_left _ hcall)).1
  obtain ⟨e₂, h₂, hiff₂⟩ : ∃ errors, objectErrors validate schema value path = .ok errors ∧ _ :=
    objectErrors_spec hrequired hcalls hfalse
  obtain ⟨e₃, h₃, hiff₃⟩ : ∃ errors, itemErrors validate schema value path = .ok errors ∧ _ :=
    itemErrors_spec hdecides harr
  obtain ⟨e₄, h₄, hiff₄⟩ : ∃ errors, allOfErrors validate schema value path = .ok errors ∧ _ :=
    allOfErrors_spec hdecides
  obtain ⟨e₅, h₅, hiff₅⟩ : ∃ errors, anyOfErrors validate schema value path = .ok errors ∧ _ :=
    anyOfErrors_spec hdecides
  obtain ⟨e₆, h₆, hiff₆⟩ : ∃ errors, oneOfErrors validate schema value path = .ok errors ∧ _ :=
    oneOfErrors_spec hdecides
  have hrun : validateNode validate root schema value path = .ok (e₁ ++
      typeErrors schema value path ++ equalityErrors schema value path ++
      rangeErrors schema value path ++ e₂ ++ e₃ ++ e₄ ++ e₅ ++ e₆) := by
    cases schema with
    | bool b => exact absurd rfl (hbool b)
    | _ =>
      simp only [validateNode, hkeys, hsupported, ne_eq, not_true_eq_false, if_false, h₁, h₂, h₃, h₄,
        h₅, h₆, except_ok_bind]
      rfl
  refine ⟨_, hrun, ?_⟩
  simp only [List.append_eq_nil_iff, hiff₁, hiff₂, hiff₃, hiff₄, hiff₅, hiff₆,
    typeErrors_eq_nil_iff, equalityErrors_eq_nil_iff, rangeErrors_eq_nil_iff]
  constructor
  · rintro ⟨⟨⟨⟨⟨⟨⟨⟨hr, ht⟩, he, hc⟩, hmin, hmax, hminL, hmaxL⟩, hreq, hmem⟩, hitems⟩, hall⟩, hany⟩,
      hone⟩
    exact ⟨hs, hr, ⟨ht, he, hc, hmin, hmax, hminL, hmaxL, hreq⟩, ⟨hmem, hall, hany, hone⟩, hitems⟩
  · rintro ⟨-, hr, ⟨ht, he, hc, hmin, hmax, hminL, hmaxL, hreq⟩, ⟨hmem, hall, hany, hone⟩, hitems⟩
    exact ⟨⟨⟨⟨⟨⟨⟨⟨hr, ht⟩, he, hc⟩, hmin, hmax, hminL, hmaxL⟩, hreq, hmem⟩, hitems⟩, hall⟩, hany⟩,
      hone⟩

/-- A node with other keywords is refused. -/
lemma validateNode_unsupported {keys : List JsString} (hkeys : schema.objectKeys = some keys)
    (hunsupported : unsupportedKeywords keys ≠ []) (hbool : ∀ b, schema ≠ .bool b) :
    ∃ errors, validateNode validate root schema value path = .ok errors ∧ errors ≠ [] := by
  refine ⟨(unsupportedKeywords keys).map (path ++ jsString ": unsupported keyword " ++ ·), ?_,
    fun hnil => hunsupported (List.map_eq_nil_iff.mp hnil)⟩
  cases schema with
  | bool b => exact absurd rfl (hbool b)
  | _ =>
    simp only [validateNode, hkeys]
    rw [if_pos hunsupported]
    rfl

/-- A node with calls that return returns, and it has no errors exactly if the strict reading holds. -/
lemma validateNode_spec (hnode : WellFormedNode root schema)
    (h : ∀ call ∈ schemaCalls root (schema, value), Decides validate P call ∧
      (call.1.isRecord ∨ ∃ b, call.1 = .bool b))
    (harr : RefusesLists validate) (hfalse : ∀ v, ¬P (.bool false) v) :
    ∃ errors, validateNode validate root schema value path = .ok errors ∧
      (errors = [] ↔ StrictStep root P schema value) := by
  cases schema with
  | bool b =>
    cases b with
    | true => exact ⟨[], rfl, iff_of_true rfl (.inl rfl)⟩
    | false =>
      refine ⟨_, rfl, iff_of_false (List.cons_ne_nil _ _) ?_⟩
      simp [StrictStep, JsonValue.isRecord]
  | obj props =>
    have hrecord : StrictStep root P (.obj props) value ↔ StrictNode root P (.obj props) value := by
      simp [StrictStep, JsonValue.isRecord]
    simp only [hrecord]
    by_cases hsupported : unsupportedKeywords (props.map (·.1)) = []
    · exact validateKeywords_spec rfl hsupported (fun _ => nofun) hnode.ref hnode.required h harr hfalse
    · obtain ⟨errors, hrun, hne⟩ : ∃ errors, validateNode validate root (.obj props) value path =
          .ok errors ∧ errors ≠ [] := validateNode_unsupported rfl hsupported fun _ => nofun
      exact ⟨errors, hrun, iff_of_false hne fun hstrict => hsupported (hstrict.supported _ rfl)⟩
  | _ => rcases hnode.isSchema with hschema | ⟨b, hb⟩ <;> contradiction

end Run

/-! ## The validator returns -/

variable {root : JsonValue} {node : JsonValue × JsonValue}

/-- A list in place of a schema is refused unless it is empty. -/
lemma refusesLists_validate (stack : ℕ) : RefusesLists (validateAgainstSchema root (stack + 1)) := by
  intro subs value path
  have hbool : ∀ b, JsonValue.arr subs ≠ .bool b := fun _ => nofun
  cases subs with
  | nil =>
    have hmembers : ∀ members : List (JsString × JsonValue),
        members.mapM (memberErrors (validateAgainstSchema root stack) (.arr []) path) =
          .ok (members.map fun _ => []) := by
      intro members
      induction members with
      | nil => rfl
      | cons member members ih =>
        rw [List.mapM_cons, ih]
        rfl
    have hobject : objectErrors (validateAgainstSchema root stack) (.arr []) value path = .ok [] := by
      cases value with
      | obj members =>
        rw [objectErrors, hmembers]
        exact congrArg Except.ok (List.flatten_eq_nil_iff.mpr (by simp))
      | _ => rfl
    have hitems : itemErrors (validateAgainstSchema root stack) (.arr []) value path = .ok [] := by
      cases value <;> rfl
    refine ⟨[], ?_, iff_of_true rfl rfl⟩
    change validateNode (validateAgainstSchema root stack) root (.arr []) value path = .ok []
    simp only [validateNode, hobject, hitems]
    cases value <;> rfl
  | cons sub subs =>
    obtain ⟨errors, hrun, hne⟩ : ∃ errors, validateNode (validateAgainstSchema root stack) root
        (.arr (sub :: subs)) value path = .ok errors ∧ errors ≠ [] := by
      refine validateNode_unsupported rfl (fun hnil => ?_) hbool
      have hmem : jsString (toString 0) ∈ unsupportedKeywords
          ((List.range (sub :: subs).length).map fun i => jsString (toString i)) :=
        List.mem_filter.mpr ⟨List.mem_map_of_mem (List.mem_range.mpr (Nat.succ_pos _)), by decide⟩
      rw [hnil] at hmem
      cases hmem
    exact ⟨errors, hrun, iff_of_false hne (List.cons_ne_nil _ _)⟩

/-- No value is valid in the strict reading of `false`. -/
lemma not_strict_false (value : JsonValue) : ¬Strict root (.bool false) value := by
  rintro ⟨n, hn⟩
  rcases hn (n + 1) (Nat.le_succ n) with h | h
  · cases h
  · cases h.1

/-- **The validator returns.**  Where the evaluation ends, it returns on a stack that is deep enough,
without errors exactly for the values that are valid in the strict reading. -/
theorem run_spec (h : Evaluable root node) :
    ∃ n, ∀ stack ≥ n, Decides (validateAgainstSchema root stack) (Strict root) node := by
  induction h with
  | @node node hnode hcalls ih =>
    obtain ⟨n, hn⟩ := exists_common_bound ih
    have hschema : ∀ call ∈ schemaCalls root node, call.1.isRecord ∨ ∃ b, call.1 = .bool b := by
      intro call hcall
      cases hcalls call hcall with
      | node hnode _ => exact hnode.isSchema
    refine ⟨n + 2, fun stack hstack path => ?_⟩
    obtain ⟨k, rfl⟩ : ∃ k, stack = k + 1 + 1 := ⟨stack - 2, by omega⟩
    rw [strict_iff (.node hnode hcalls)]
    exact validateNode_spec hnode
      (fun call hcall => ⟨hn call hcall (k + 1) (by omega), hschema call hcall⟩)
      (refusesLists_validate k) not_strict_false

end GovAI
