import GovAI.Json.Value
import Mathlib.Data.List.Perm.Subperm
import Mathlib.Data.List.Forall2

/-!
# JSON values up to the order of keys

Two JSON values are the same up to the order of object keys when their arrays agree item by item
and their objects have the same keys with the same values.  For objects whose keys are distinct
this is equality after sorting the keys, and `stableCanonicalJson` is `JSON.stringify` of the sorted
value.
-/

namespace GovAI

namespace JsonValue

/-! ## Induction -/

/-- Induction over a JSON value: arrays by their items, objects by the values of their
properties. -/
@[elab_as_elim]
theorem inductionOn {motive : JsonValue → Prop} (null : motive .null)
    (bool : ∀ b, motive (.bool b)) (num : ∀ x, motive (.num x)) (str : ∀ s, motive (.str s))
    (arr : ∀ items, (∀ v ∈ items, motive v) → motive (.arr items))
    (obj : ∀ props, (∀ p ∈ props, motive p.2) → motive (.obj props)) : ∀ v, motive v
  | .null => null
  | .bool b => bool b
  | .num x => num x
  | .str s => str s
  | .arr items => arr items fun v hv =>
      have := List.sizeOf_lt_of_mem hv
      inductionOn null bool num str arr obj v
  | .obj props => obj props fun p hp =>
      have hp' := List.sizeOf_lt_of_mem hp
      have hv : sizeOf p.2 < sizeOf p := by
        rw [show sizeOf p = 1 + sizeOf p.1 + sizeOf p.2 from Prod.mk.sizeOf_spec p.1 p.2]
        omega
      inductionOn null bool num str arr obj p.2

/-! ## The recursive renderings as maps -/

@[simp] lemma jsonStringifyItems_eq (items : List JsonValue) :
    jsonStringifyItems items = items.map jsonStringify := by
  induction items with
  | nil => rfl
  | cons v items ih => simp [jsonStringifyItems, ih]

@[simp] lemma jsonStringifyProps_eq (props : List (JsString × JsonValue)) :
    jsonStringifyProps props = props.map fun p => quoteString p.1 ++ ':' :: jsonStringify p.2 := by
  induction props with
  | nil => rfl
  | cons p props ih => simp [jsonStringifyProps, ih]

@[simp] lemma stableItems_eq (items : List JsonValue) :
    stableItems items = items.map stableCanonicalJson := by
  induction items with
  | nil => rfl
  | cons v items ih => simp [stableItems, ih]

@[simp] lemma stableProps_eq (props : List (JsString × JsonValue)) :
    stableProps props = props.map fun p => (p.1, stableCanonicalJson p.2) := by
  induction props with
  | nil => rfl
  | cons p props ih => simp [stableProps, ih]

@[simp] lemma sortedItems_eq (items : List JsonValue) :
    sortedItems items = items.map sorted := by
  induction items with
  | nil => rfl
  | cons v items ih => simp [sortedItems, ih]

@[simp] lemma sortedProps_eq (props : List (JsString × JsonValue)) :
    sortedProps props = props.map fun p => (p.1, p.2.sorted) := by
  induction props with
  | nil => rfl
  | cons p props ih => simp [sortedProps, ih]

end JsonValue

/-! ## Sorting keys -/

/-- Sorting looks at keys only, so it commutes with a change of the values. -/
lemma sortProps_map {α β : Type} (f : α → β) (props : List (JsString × α)) :
    sortProps (props.map fun p => (p.1, f p.2)) = (sortProps props).map fun p => (p.1, f p.2) := by
  refine (List.map_insertionSort (r := fun p q => keyLe p.1 q.1 = true)
    (s := fun p q => keyLe p.1 q.1 = true) (fun p => (p.1, f p.2)) props ?_).symm
  intro p _ q _
  exact Iff.rfl

/-- Sorting permutes the properties. -/
lemma sortProps_perm {α : Type} (props : List (JsString × α)) : (sortProps props).Perm props :=
  List.perm_insertionSort _ props

/-- The comparison of keys is antisymmetric. -/
lemma keyLe_antisymm {a b : JsString} (hab : keyLe a b = true) (hba : keyLe b a = true) :
    a = b := by
  simp only [keyLe, decide_eq_true_eq] at hab hba
  have hmap : a.map UInt16.toNat = b.map UInt16.toNat := le_antisymm hab hba
  exact List.map_injective_iff.mpr (fun _ _ h => UInt16.toNat_inj.mp h) hmap

/-- Two properties of an object with distinct keys are equal when their keys are. -/
lemma eq_of_key_eq {α : Type} {props : List (JsString × α)} (hkeys : (props.map (·.1)).Nodup)
    {p q : JsString × α} (hp : p ∈ props) (hq : q ∈ props) (hpq : p.1 = q.1) : p = q :=
  List.inj_on_of_nodup_map hkeys hp hq hpq

/-- **With distinct keys the sorted lists agree exactly for permutations of each other.** -/
theorem sortProps_eq_iff_perm {α : Type} {ps qs : List (JsString × α)}
    (hps : (ps.map (·.1)).Nodup) : sortProps ps = sortProps qs ↔ ps.Perm qs := by
  constructor
  · intro h
    exact (sortProps_perm ps).symm.trans (h ▸ sortProps_perm qs)
  · intro h
    have hperm : (sortProps ps).Perm (sortProps qs) :=
      (sortProps_perm ps).trans (h.trans (sortProps_perm qs).symm)
    refine hperm.eq_of_pairwise ?_ (List.pairwise_insertionSort _ ps)
      (List.pairwise_insertionSort _ qs)
    intro p q hp hq hpq hqp
    have hp' : p ∈ ps := (sortProps_perm ps).mem_iff.mp hp
    have hq' : q ∈ ps := h.mem_iff.mpr ((sortProps_perm qs).mem_iff.mp hq)
    exact eq_of_key_eq hps hp' hq' (keyLe_antisymm hpq hqp)

/-- Lists of the same length are permutations when the first has no duplicate and is contained in
the second. -/
lemma perm_iff_subset_of_length_eq {α : Type} {ps qs : List α} (hps : ps.Nodup)
    (hlen : ps.length = qs.length) : ps.Perm qs ↔ ps ⊆ qs := by
  constructor
  · intro h
    exact h.subset
  · intro h
    exact (List.subperm_of_subset hps h).perm_of_length_le hlen.ge

namespace JsonValue

/-! ## Distinct keys and sameness -/

mutual

/-- The keys of every object are distinct, as they are in JavaScript. -/
def Distinct : JsonValue → Prop
  | .arr items => DistinctItems items
  | .obj props => (props.map (·.1)).Nodup ∧ DistinctProps props
  | _ => True

/-- The items of an array have distinct keys inside. -/
def DistinctItems : List JsonValue → Prop
  | [] => True
  | v :: rest => v.Distinct ∧ DistinctItems rest

/-- The values of an object's properties have distinct keys inside. -/
def DistinctProps : List (JsString × JsonValue) → Prop
  | [] => True
  | (_, v) :: rest => v.Distinct ∧ DistinctProps rest

end

mutual

/-- Equality up to the order of object keys: the objects have equally many properties, and to each
property of the first there is one of the second with its key and the same value. -/
def Same : JsonValue → JsonValue → Prop
  | .arr items, w => ∃ items', w = .arr items' ∧ SameItems items items'
  | .obj props, w =>
      ∃ props', w = .obj props' ∧ props.length = props'.length ∧ SameProps props props'
  | v, w => v = w

/-- Item by item the same. -/
def SameItems : List JsonValue → List JsonValue → Prop
  | [], items' => items' = []
  | v :: rest, items' => ∃ w rest', items' = w :: rest' ∧ v.Same w ∧ SameItems rest rest'

/-- Each property has a namesake with the same value. -/
def SameProps : List (JsString × JsonValue) → List (JsString × JsonValue) → Prop
  | [], _ => True
  | (k, v) :: rest, props' => (∃ w, (k, w) ∈ props' ∧ v.Same w) ∧ SameProps rest props'

end

@[simp] lemma distinctItems_iff {items : List JsonValue} :
    DistinctItems items ↔ ∀ v ∈ items, v.Distinct := by
  induction items with
  | nil => simp [DistinctItems]
  | cons v items ih => simp [DistinctItems, ih]

@[simp] lemma distinctProps_iff {props : List (JsString × JsonValue)} :
    DistinctProps props ↔ ∀ p ∈ props, p.2.Distinct := by
  induction props with
  | nil => simp [DistinctProps]
  | cons p props ih => simp [DistinctProps, ih]

/-- The items of two arrays are the same when they are related in order. -/
lemma sameItems_iff {items items' : List JsonValue} :
    SameItems items items' ↔ List.Forall₂ Same items items' := by
  induction items generalizing items' with
  | nil => simp [SameItems]
  | cons v items ih =>
    constructor
    · rintro ⟨w, rest', rfl, hvw, hrest⟩
      exact .cons hvw (ih.mp hrest)
    · rintro (_ | ⟨hvw, hrest⟩)
      exact ⟨_, _, rfl, hvw, ih.mpr hrest⟩

@[simp] lemma sameProps_iff {props props' : List (JsString × JsonValue)} :
    SameProps props props' ↔ ∀ p ∈ props, ∃ w, (p.1, w) ∈ props' ∧ p.2.Same w := by
  induction props with
  | nil => simp [SameProps]
  | cons p props ih => simp [SameProps, ih]

/-- Two arrays have the same sorted items when sameness of items is equality after sorting. -/
lemma sameItems_iff_sorted {items : List JsonValue}
    (ih : ∀ v ∈ items, ∀ w : JsonValue, w.Distinct → (v.Same w ↔ v.sorted = w.sorted))
    {items' : List JsonValue} (h' : ∀ w ∈ items', w.Distinct) :
    SameItems items items' ↔ items.map sorted = items'.map sorted := by
  induction items generalizing items' with
  | nil => simp [SameItems, eq_comm]
  | cons v items ih' =>
    cases items' with
    | nil => simp [SameItems]
    | cons w items' =>
      have hhead := ih v (by simp) w (h' w (by simp))
      have htail := @ih' (fun u hu => ih u (by simp [hu])) items'
        fun u hu => h' u (by simp [hu])
      simp [SameItems, hhead, htail]

/-- The keys of an object do not change when its values do. -/
lemma keys_map_values {α β : Type} (f : α → β) (props : List (JsString × α)) :
    (props.map fun p => (p.1, f p.2)).map (·.1) = props.map (·.1) := by
  simp [Function.comp_def]

/-- Each property of the one object has its namesake in the other when the sorted properties of the
one are among those of the other. -/
lemma sameProps_iff_subset {props props' : List (JsString × JsonValue)}
    (ih : ∀ p ∈ props, ∀ w : JsonValue, w.Distinct → (p.2.Same w ↔ p.2.sorted = w.sorted))
    (h' : ∀ q ∈ props', q.2.Distinct) :
    SameProps props props' ↔
      (props.map fun p => (p.1, p.2.sorted)) ⊆ props'.map fun p => (p.1, p.2.sorted) := by
  rw [sameProps_iff]
  constructor
  · intro h q hq
    obtain ⟨p, hp, rfl⟩ := List.mem_map.mp hq
    obtain ⟨w, hw, hsame⟩ := h p hp
    refine List.mem_map.mpr ⟨(p.1, w), hw, ?_⟩
    rw [(ih p hp w (h' _ hw)).mp hsame]
  · intro h p hp
    obtain ⟨⟨k, w⟩, hw, hpw⟩ := List.mem_map.mp (h (List.mem_map_of_mem hp))
    obtain ⟨hk, hs⟩ := Prod.mk.injEq .. ▸ hpw
    dsimp only at hk hs
    subst hk
    exact ⟨w, hw, (ih p hp w (h' _ hw)).mpr hs.symm⟩

/-- **For values with distinct keys, sameness up to the order of keys is equality after sorting.** -/
theorem same_iff_sorted_eq {a b : JsonValue} (ha : a.Distinct) (hb : b.Distinct) :
    a.Same b ↔ a.sorted = b.sorted := by
  induction a using inductionOn generalizing b with
  | null => cases b <;> simp [Same, sorted]
  | bool x => cases b <;> simp [Same, sorted]
  | num x => cases b <;> simp [Same, sorted]
  | str s => cases b <;> simp [Same, sorted]
  | arr items ih =>
    have ha' : ∀ v ∈ items, v.Distinct := by simpa [Distinct] using ha
    cases b with
    | arr items' =>
      have hb' : ∀ w ∈ items', w.Distinct := by simpa [Distinct] using hb
      have := sameItems_iff_sorted (fun v hv w hw => ih v hv (ha' v hv) hw) hb'
      simpa [Same, sorted] using this
    | _ => simp [Same, sorted]
  | obj props ih =>
    obtain ⟨hkeys, ha'⟩ : (props.map (·.1)).Nodup ∧ ∀ p ∈ props, p.2.Distinct := by
      simpa only [Distinct, distinctProps_iff] using ha
    cases b with
    | obj props' =>
      obtain ⟨-, hb'⟩ : (props'.map (·.1)).Nodup ∧ ∀ p ∈ props', p.2.Distinct := by
        simpa only [Distinct, distinctProps_iff] using hb
      have hsub := sameProps_iff_subset (fun p hp w hw => ih p hp (ha' p hp) hw) hb'
      have hkeys' : ((props.map fun p => (p.1, p.2.sorted)).map (·.1)).Nodup := by
        rwa [keys_map_values]
      simp only [Same, sorted, sortedProps_eq, obj.injEq, exists_eq_left',
        sortProps_eq_iff_perm hkeys']
      constructor
      · rintro ⟨hlen, hsame⟩
        exact (perm_iff_subset_of_length_eq hkeys'.of_map (by simpa using hlen)).mpr
          (hsub.mp hsame)
      · intro hperm
        exact ⟨by simpa using hperm.length_eq, hsub.mpr hperm.subset⟩
    | _ => simp [Same, sorted]

/-- Objects with the same keys in the same order are the same when their values are, one by one. -/
theorem same_obj_iff {props props' : List (JsString × JsonValue)}
    (heq : props.map (·.1) = props'.map (·.1)) (hkeys : (props.map (·.1)).Nodup) :
    (JsonValue.obj props).Same (.obj props') ↔
      List.Forall₂ (fun p q => p.2.Same q.2) props props' := by
  have hlen : props.length = props'.length := by simpa using congrArg List.length heq
  have hkey : ∀ i (h : i < props.length) (h' : i < props'.length), props[i].1 = props'[i].1 := by
    intro i h h'
    have := List.getElem_of_eq heq (i := i) (by simpa using h)
    simpa using this
  simp only [Same, obj.injEq, exists_eq_left', hlen, true_and, sameProps_iff, List.forall₂_iff_get,
    List.get_eq_getElem]
  constructor
  · intro h i _ hi'
    have hi : i < props.length := by omega
    obtain ⟨w, hw, hsame⟩ := h _ (List.getElem_mem hi)
    have hq := eq_of_key_eq (heq ▸ hkeys) hw (List.getElem_mem hi') (hkey i hi hi')
    rwa [← hq]
  · intro h p hp
    obtain ⟨i, hi, rfl⟩ := List.getElem_of_mem hp
    have hi' : i < props'.length := by omega
    refine ⟨props'[i].2, ?_, h i hi' hi'⟩
    rw [hkey i hi hi']
    exact List.getElem_mem _

end JsonValue

/-! ## Canonical JSON -/

/-- **`stableCanonicalJson` is `JSON.stringify` of the value with sorted keys.** -/
theorem stableCanonicalJson_eq (v : JsonValue) : stableCanonicalJson v = jsonStringify v.sorted := by
  induction v using JsonValue.inductionOn with
  | null => rfl
  | bool b => rfl
  | num x => rfl
  | str s => rfl
  | arr items ih =>
    have hitems : items.map stableCanonicalJson = items.map fun v => jsonStringify v.sorted :=
      List.map_congr_left ih
    simp [stableCanonicalJson, JsonValue.sorted, jsonStringify, hitems, Function.comp_def]
  | obj props ih =>
    have hprops : (props.map fun p => (p.1, stableCanonicalJson p.2)) =
        props.map fun p => (p.1, jsonStringify p.2.sorted) :=
      List.map_congr_left fun p hp => by rw [ih p hp]
    have htexts := sortProps_map (fun v => jsonStringify v.sorted) props
    have hvalues := sortProps_map JsonValue.sorted props
    simp [stableCanonicalJson, JsonValue.sorted, jsonStringify, hprops, htexts, hvalues,
      Function.comp_def]

end GovAI
