import Mathlib.Data.List.Nodup

/-!
# Folds by key

A loop over items that keeps one state for each key in a map, in the order in which the keys first
occur.  The state of a key is the fold over the items of that key alone (`entryOf_foldEntries`).
-/

namespace GovAI

variable {K S F : Type} [DecidableEq K]

/-- The entry of a key is replaced, or added at the end. -/
def upsert (k : K) (f : Option S → S) : List (K × S) → List (K × S)
  | [] => [(k, f none)]
  | e :: rest => if e.1 = k then (k, f (some e.2)) :: rest else e :: upsert k f rest

/-- The state of a key. -/
def entryOf (k : K) (entries : List (K × S)) : Option S := (entries.find? (·.1 = k)).map (·.2)

@[simp] lemma entryOf_nil (k : K) : entryOf k ([] : List (K × S)) = none := rfl

lemma entryOf_cons (k : K) (e : K × S) (entries : List (K × S)) :
    entryOf k (e :: entries) = if e.1 = k then some e.2 else entryOf k entries := by
  unfold entryOf
  by_cases h : e.1 = k <;> simp [h]

/-- An update gives its key the new state and leaves the other keys alone. -/
lemma entryOf_upsert (k k' : K) (f : Option S → S) (entries : List (K × S)) :
    entryOf k' (upsert k f entries) =
      if k = k' then some (f (entryOf k' entries)) else entryOf k' entries := by
  induction entries with
  | nil => simp [upsert, entryOf_cons]
  | cons e rest ih =>
    unfold upsert
    by_cases he : e.1 = k
    · rw [if_pos he, entryOf_cons, entryOf_cons, he]
      split <;> rfl
    · rw [if_neg he, entryOf_cons, entryOf_cons, ih]
      by_cases hek : e.1 = k'
      · have hk : k ≠ k' := fun hk => he (hek.trans hk.symm)
        rw [if_pos hek, if_neg hk, if_pos hek]
      · simp only [if_neg hek]

/-- The keys after an update. -/
lemma mem_keys_upsert {k k' : K} {f : Option S → S} {entries : List (K × S)} :
    k' ∈ (upsert k f entries).map Prod.fst ↔ k' = k ∨ k' ∈ entries.map Prod.fst := by
  induction entries with
  | nil => simp [upsert]
  | cons e rest ih =>
    unfold upsert
    split
    · rename_i he
      simp [he]
    · rw [List.map_cons, List.mem_cons, ih, List.map_cons, List.mem_cons]
      exact or_left_comm

/-- No key has two entries. -/
lemma nodup_keys_upsert {k : K} {f : Option S → S} {entries : List (K × S)}
    (h : (entries.map Prod.fst).Nodup) : ((upsert k f entries).map Prod.fst).Nodup := by
  induction entries with
  | nil => simp [upsert]
  | cons e rest ih =>
    obtain ⟨hnew, hrest⟩ := List.nodup_cons.mp h
    unfold upsert
    split
    · rename_i he
      exact List.nodup_cons.mpr ⟨he ▸ hnew, hrest⟩
    · rename_i he
      refine List.nodup_cons.mpr ⟨fun hmem => ?_, ih hrest⟩
      rcases mem_keys_upsert.mp hmem with heq | hmem
      · exact he heq
      · exact hnew hmem

/-- An entry is the state of its key. -/
lemma entryOf_eq_some_of_mem {k : K} {s : S} {entries : List (K × S)}
    (h : (entries.map Prod.fst).Nodup) (hmem : (k, s) ∈ entries) : entryOf k entries = some s := by
  induction entries with
  | nil => cases hmem
  | cons e rest ih =>
    obtain ⟨hnew, hrest⟩ := List.nodup_cons.mp h
    rw [entryOf_cons]
    rcases List.mem_cons.mp hmem with rfl | hmem
    · exact if_pos rfl
    · have hne : e.1 ≠ k := by
        rintro rfl
        exact hnew (List.mem_map.mpr ⟨_, hmem, rfl⟩)
      rw [if_neg hne, ih hrest hmem]

/-- Two maps with the same keys in the same order and the same states are equal. -/
lemma entries_ext {entries entries' : List (K × S)}
    (hkeys : entries.map Prod.fst = entries'.map Prod.fst) (hnodup : (entries.map Prod.fst).Nodup)
    (h : ∀ k, entryOf k entries = entryOf k entries') : entries = entries' := by
  have hread : ∀ entries : List (K × S), (entries.map Prod.fst).Nodup →
      (entries.map Prod.fst).filterMap (fun k => (entryOf k entries).map (Prod.mk k)) = entries := by
    intro entries hnodup
    rw [List.filterMap_map, List.filterMap_congr (g := some), List.filterMap_some]
    intro e he
    rw [Function.comp_apply, entryOf_eq_some_of_mem hnodup he]
    rfl
  rw [← hread entries hnodup, ← hread entries' (hkeys ▸ hnodup), hkeys]
  exact List.filterMap_congr fun k _ => by rw [h k]

/-- The loop. -/
def foldEntries (key : F → K) (step : Option S → F → S) (entries : List (K × S)) (items : List F) :
    List (K × S) :=
  items.foldl (fun entries f => upsert (key f) (step · f) entries) entries

variable {key : F → K} {step : Option S → F → S}

/-- **The state of a key is the fold over the items of that key.** -/
theorem entryOf_foldEntries (k : K) (entries : List (K × S)) (items : List F) :
    entryOf k (foldEntries key step entries items) =
      (items.filter (key · = k)).foldl (fun s f => some (step s f)) (entryOf k entries) := by
  induction items generalizing entries with
  | nil => rfl
  | cons f items ih =>
    have hcons : foldEntries key step entries (f :: items) =
        foldEntries key step (upsert (key f) (step · f) entries) items := rfl
    rw [hcons, ih, entryOf_upsert, List.filter_cons]
    by_cases hk : key f = k <;> simp [hk]

/-- The loop gives no key two entries. -/
theorem nodup_keys_foldEntries {entries : List (K × S)} {items : List F}
    (h : (entries.map Prod.fst).Nodup) :
    ((foldEntries key step entries items).map Prod.fst).Nodup := by
  induction items generalizing entries with
  | nil => exact h
  | cons f items ih => exact ih (nodup_keys_upsert h)

/-- The keys after the loop are those of the items. -/
theorem mem_keys_foldEntries {entries : List (K × S)} {items : List F} {k : K} :
    k ∈ (foldEntries key step entries items).map Prod.fst ↔
      k ∈ entries.map Prod.fst ∨ ∃ f ∈ items, key f = k := by
  induction items generalizing entries with
  | nil => simp [foldEntries]
  | cons f items ih =>
    have hcons : foldEntries key step entries (f :: items) =
        foldEntries key step (upsert (key f) (step · f) entries) items := rfl
    rw [hcons, ih, mem_keys_upsert, List.exists_mem_cons_iff, or_assoc, eq_comm (a := k)]
    exact or_left_comm

end GovAI
