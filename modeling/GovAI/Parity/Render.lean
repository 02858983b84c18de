import GovAI.Json.Parsed
import GovAI.Json.Pretty
import GovAI.Parity.Validate
import Mathlib.Data.List.Lex
import Mathlib.Data.Prod.Lex

/-!
# The canonical rendering of the parity manifest

`renderParityManifest`: the root and every row with their keys in the fixed order, and the rows sorted
by surface, family and capability id.
-/

namespace GovAI

/-! ## The rendering -/

/-- An object with the defined fields in the given order. -/
def orderedObject (fields : List String) (field : String → Option JsonValue) : JsonValue :=
  .obj (fields.filterMap fun f => (field f).map fun v => (jsString f, v))

/-- A string property of a row. -/
def rowText (row : JsonValue) (f : String) : JsString :=
  match row.get f with
  | some (.str s) => s
  | _ => []

/-- `order.get(row.surface) ?? 99`. -/
def rowRank (row : JsonValue) : ℕ :=
  match row.get "surface" with
  | some (.str s) => surfaceRank s
  | _ => 99

/-- The comparator of the rows does not put `c` before `a`. -/
def rowBefore (a c : JsonValue) : Prop :=
  if rowRank a ≠ rowRank c then rowRank a < rowRank c
  else if rowText a "family" ≠ rowText c "family" then
    keyLe (rowText c "family") (rowText a "family") = false
  else keyLe (rowText c "capability_id") (rowText a "capability_id") = false

instance : DecidableRel rowBefore := fun a c => by unfold rowBefore; infer_instance

/-- The row with its keys in canonical order. -/
def canonicalRow (row : JsonValue) : JsonValue := orderedObject rowFields row.get

/-- The rows in canonical order and form. -/
def canonicalRows (rows : List JsonValue) : List JsonValue :=
  (rows.insertionSort rowBefore).map canonicalRow

/-- The fields of the rendered root. -/
def rootField (m : JsonValue) (rows : List JsonValue) (count : JsonNumber) (f : String) :
    Option JsonValue :=
  if f = "capability_count" then some (.num count)
  else if f = "capabilities" then some (.arr (canonicalRows rows))
  else m.get f

/-- The value that is rendered.  No array has `10 ^ 21` items. -/
def canonicalManifest (m : JsonValue) : Option JsonValue :=
  match m.get "capabilities" with
  | some (.arr rows) =>
    if h : (canonicalRows rows).length < 10 ^ 21 then
      some (orderedObject rootFields
        (rootField m rows ⟨.int (canonicalRows rows).length, by
          simpa [JsNumber.Printed] using h⟩))
    else none
  | _ => none

/-- `renderParityManifest`. -/
def renderParityManifest (m : JsonValue) : Option JsString :=
  (canonicalManifest m).map fun root => textUnits (jsonPretty 0 root ++ ['\n'])

/-! ## Objects with ordered fields -/

/-- A field of an ordered object. -/
lemma get_orderedObject (fields : List String) (field : String → Option JsonValue) (f : String) :
    (orderedObject fields field).get f = if f ∈ fields then field f else none := by
  simp only [orderedObject, JsonValue.get]
  induction fields with
  | nil => rfl
  | cons g fields ih =>
    by_cases hfg : f = g
    · subst hfg
      cases hf : field f with
      | none =>
        simp only [List.filterMap_cons, hf, Option.map_none, ih, if_pos List.mem_cons_self, ite_self]
      | some v => simp [hf]
    · have hmem : f ∈ g :: fields ↔ f ∈ fields := by simp [hfg]
      cases hg : field g with
      | none => simp only [List.filterMap_cons, hg, Option.map_none, ih, hmem]
      | some v =>
        have hne : ¬jsString g = jsString f := by simpa using fun h => hfg h.symm
        simp only [List.filterMap_cons, hg, Option.map_some, List.find?_cons, hne, decide_false, ih,
          hmem]

/-- When all fields are defined, the keys of an ordered object are its fields. -/
lemma objectKeys_orderedObject {fields : List String} {field : String → Option JsonValue}
    (h : ∀ f ∈ fields, (field f).isSome) :
    objectKeys (orderedObject fields field) = fields.map jsString := by
  simp only [orderedObject, objectKeys]
  induction fields with
  | nil => rfl
  | cons f fields ih =>
    obtain ⟨v, hv⟩ := Option.isSome_iff_exists.mp (h f List.mem_cons_self)
    simp [hv, ih fun g hg => h g (List.mem_cons_of_mem f hg)]

/-- The keys of an ordered object are among its fields. -/
lemma keys_orderedObject_sublist (fields : List String) (field : String → Option JsonValue) :
    List.Sublist (objectKeys (orderedObject fields field)) (fields.map jsString) := by
  simp only [orderedObject, objectKeys]
  induction fields with
  | nil => exact List.Sublist.refl _
  | cons f fields ih =>
    cases hf : field f with
    | none => simpa [hf] using ih.cons _
    | some v => simpa [hf] using List.Sublist.cons_cons (jsString f) ih

/-- The fields of the manifest are distinct, and none of them is an array index. -/
lemma fields_plain : (rootFields.Nodup ∧ rowFields.Nodup) ∧
    (rootFields ++ rowFields).all fun f => arrayIndex (jsString f) = none := by
  decide

/-- An ordered object is settled when its values are. -/
lemma settled_orderedObject {fields : List String} (hnodup : fields.Nodup)
    (hindex : ∀ f ∈ fields, arrayIndex (jsString f) = none) {field : String → Option JsonValue}
    (hfield : ∀ f ∈ fields, ∀ v ∈ field f, v.Settled) : (orderedObject fields field).Settled := by
  have hkeys : ((fields.filterMap fun f => (field f).map fun v => (jsString f, v)).map
      (·.1)).Nodup := by
    refine List.Nodup.sublist (keys_orderedObject_sublist fields field) ?_
    exact hnodup.map fun _ _ h => jsString_inj.mp h
  have hprop : ∀ p ∈ fields.filterMap fun f => (field f).map fun v => (jsString f, v),
      arrayIndex p.1 = none ∧ p.2.Settled := by
    intro p hp
    obtain ⟨f, hf, hfp⟩ := List.mem_filterMap.mp hp
    obtain ⟨v, hv, rfl⟩ := Option.map_eq_some_iff.mp hfp
    exact ⟨hindex f hf, hfield f hf v hv⟩
  exact .obj hkeys (ownProps_eq_self hkeys fun p hp => (hprop p hp).1) fun p hp => (hprop p hp).2

/-! ## The order of rows -/

/-- The place of a row in the canonical order. -/
def orderKey (row : JsonValue) : ℕ ×ₗ (List ℕ ×ₗ List ℕ) :=
  toLex (rowRank row, toLex ((rowText row "family").map UInt16.toNat,
    (rowText row "capability_id").map UInt16.toNat))

/-- The code units of a string are known by their numbers. -/
lemma map_toNat_inj {s t : JsString} : s.map UInt16.toNat = t.map UInt16.toNat ↔ s = t :=
  (List.map_injective_iff.mpr fun _ _ h => UInt16.toNat_inj.mp h).eq_iff

/-- **The comparator is the lexicographic order of surface, family and capability id.** -/
theorem rowBefore_iff {a c : JsonValue} : rowBefore a c ↔ orderKey a < orderKey c := by
  have hlt : ∀ s t : JsString, keyLe t s = false ↔ s.map UInt16.toNat < t.map UInt16.toNat := by
    intro s t
    rw [keyLe, decide_eq_false_iff_not, not_le]
  simp only [rowBefore, orderKey, Prod.Lex.toLex_lt_toLex, hlt, map_toNat_inj]
  by_cases hrank : rowRank a = rowRank c
  · by_cases hfamily : rowText a "family" = rowText c "family"
    · simp [hrank, hfamily]
    · simp [hrank, hfamily]
  · simp [hrank]

end GovAI
