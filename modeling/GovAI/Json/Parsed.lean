import GovAI.Json.RoundTrip
import GovAI.Json.Tree

/-!
# Values that were parsed

In a value that `JSON.parse` returns every object has distinct keys, in the order in which JavaScript
walks them.  Such a value is returned unchanged when its text is parsed again.
-/

namespace GovAI

/-! ## Own properties -/

/-- Writing a property keeps the keys distinct. -/
lemma nodup_writeProp {α : Type} {props : List (JsString × α)} (h : (props.map (·.1)).Nodup)
    (p : JsString × α) : ((writeProp props p).map (·.1)).Nodup := by
  unfold writeProp
  split
  · have hkeys : (props.map fun q => if q.1 = p.1 then p else q).map (·.1) = props.map (·.1) := by
      rw [List.map_map]
      refine List.map_congr_left fun q _ => ?_
      by_cases hq : q.1 = p.1 <;> simp [hq]
    rwa [hkeys]
  · rename_i hnew
    rw [List.map_append, List.map_singleton]
    exact List.nodup_append.mpr ⟨h, List.nodup_singleton _, fun a ha b hb => by
      rw [List.mem_singleton.mp hb]
      rintro rfl
      exact hnew ha⟩

/-- The written properties are among those before and the new one. -/
lemma mem_writeProp {α : Type} {props : List (JsString × α)} {p q : JsString × α}
    (h : q ∈ writeProp props p) : q ∈ props ∨ q = p := by
  unfold writeProp at h
  split at h
  · obtain ⟨r, hr, rfl⟩ := List.mem_map.mp h
    by_cases hrp : r.1 = p.1
    · exact .inr (if_pos hrp)
    · exact .inl (by rwa [if_neg hrp])
  · rcases List.mem_append.mp h with h | h
    · exact .inl h
    · exact .inr (List.mem_singleton.mp h)

/-- The keys of own properties are distinct, and the properties are among those written. -/
lemma ownProps_spec {α : Type} (props : List (JsString × α)) :
    ((ownProps props).map (·.1)).Nodup ∧ ∀ p ∈ ownProps props, p ∈ props := by
  have hfold : ∀ (ps acc : List (JsString × α)), (acc.map (·.1)).Nodup →
      ((ps.foldl writeProp acc).map (·.1)).Nodup ∧
        ∀ p ∈ ps.foldl writeProp acc, p ∈ acc ∨ p ∈ ps := by
    intro ps
    induction ps with
    | nil => exact fun acc hacc => ⟨hacc, fun p hp => .inl hp⟩
    | cons q ps ih =>
      intro acc hacc
      obtain ⟨hnodup, hmem⟩ := ih (writeProp acc q) (nodup_writeProp hacc q)
      refine ⟨hnodup, fun p hp => ?_⟩
      rcases hmem p hp with h | h
      · rcases mem_writeProp h with h | rfl
        · exact .inl h
        · exact .inr List.mem_cons_self
      · exact .inr (List.mem_cons_of_mem q h)
  obtain ⟨hnodup, hmem⟩ := hfold props [] List.nodup_nil
  have hperm := ownOrder_perm (props.foldl writeProp [])
  refine ⟨(hperm.map (·.1)).nodup_iff.mpr hnodup, fun p hp => ?_⟩
  exact (hmem p (hperm.mem_iff.mp hp)).resolve_left List.not_mem_nil

/-- Properties in JavaScript's order are in order. -/
lemma ownOrder_ownOrder {α : Type} (props : List (JsString × α)) :
    ownOrder (ownOrder props) = ownOrder props := by
  set r : JsString × α → JsString × α → Prop :=
    fun p q => (arrayIndex p.1).getD 0 ≤ (arrayIndex q.1).getD 0 with hr
  set indices := (props.filter fun p => (arrayIndex p.1).isSome).insertionSort r with hindices
  set others := props.filter fun p => !(arrayIndex p.1).isSome with hothers
  have hsome : ∀ p ∈ indices, (arrayIndex p.1).isSome = true := fun p hp =>
    (List.mem_filter.mp ((List.mem_insertionSort r).mp hp)).2
  have hnone : ∀ p ∈ others, (arrayIndex p.1).isSome = false := fun p hp => by
    simpa using (List.mem_filter.mp hp).2
  have hsorted : indices.insertionSort r = indices :=
    List.Pairwise.insertionSort_eq (List.pairwise_insertionSort r _)
  have hfilter : (indices ++ others).filter (fun p => (arrayIndex p.1).isSome) = indices := by
    rw [List.filter_append, List.filter_eq_self.mpr hsome, List.filter_eq_nil_iff.mpr,
      List.append_nil]
    intro p hp
    simp [hnone p hp]
  have hfilter' : (indices ++ others).filter (fun p => !(arrayIndex p.1).isSome) = others := by
    rw [List.filter_append, List.filter_eq_nil_iff.mpr, List.filter_eq_self.mpr, List.nil_append]
    · intro p hp
      simp [hnone p hp]
    · intro p hp
      simp [hsome p hp]
  calc ownOrder (ownOrder props) = ownOrder (indices ++ others) := rfl
    _ = indices.insertionSort r ++ others := by rw [ownOrder, hfilter, hfilter']
    _ = indices ++ others := by rw [hsorted]
    _ = ownOrder props := rfl

/-- Own properties are written back in their order. -/
lemma ownProps_ownProps {α : Type} (props : List (JsString × α)) :
    ownProps (ownProps props) = ownProps props := by
  have hnodup := (ownProps_spec props).1
  rw [ownProps, foldl_writeProp (by simpa using hnodup), List.nil_append]
  exact ownOrder_ownOrder _

/-- Properties with distinct keys, none of them an array index, stay in their order. -/
lemma ownProps_eq_self {α : Type} {props : List (JsString × α)} (hkeys : (props.map (·.1)).Nodup)
    (hindex : ∀ p ∈ props, arrayIndex p.1 = none) : ownProps props = props := by
  rw [ownProps, foldl_writeProp (by simpa using hkeys), List.nil_append, ownOrder,
    List.filter_eq_nil_iff.mpr, List.insertionSort_nil, List.nil_append, List.filter_eq_self.mpr]
  · intro p hp
    simp [hindex p hp]
  · intro p hp
    simp [hindex p hp]

namespace JsonValue

/-- The objects of the value have distinct keys in the order of JavaScript. -/
inductive Settled : JsonValue → Prop
  | null : Settled .null
  | bool (b : Bool) : Settled (.bool b)
  | num (x : JsonNumber) : Settled (.num x)
  | str (s : JsString) : Settled (.str s)
  | arr {items : List JsonValue} : (∀ v ∈ items, Settled v) → Settled (.arr items)
  | obj {props : List (JsString × JsonValue)} : (props.map (·.1)).Nodup → ownProps props = props →
      (∀ p ∈ props, Settled p.2) → Settled (.obj props)

/-- **A settled value has distinct keys and is reread unchanged.** -/
theorem Settled.spec {v : JsonValue} (hv : v.Settled) : v.Distinct ∧ v.reread = v := by
  induction hv with
  | null => exact ⟨trivial, rfl⟩
  | bool b => exact ⟨trivial, rfl⟩
  | num x => exact ⟨trivial, rfl⟩
  | str s => exact ⟨trivial, rfl⟩
  | @arr items _ ih =>
    refine ⟨distinctItems_iff.mpr fun v hv => (ih v hv).1, ?_⟩
    have hitems : items.map reread = items :=
      (List.map_congr_left fun v hv => (ih v hv).2).trans (List.map_id _)
    rw [reread, rereadItems_eq, hitems]
  | @obj props hkeys hown _ ih =>
    refine ⟨⟨hkeys, distinctProps_iff.mpr fun p hp => (ih p hp).1⟩, ?_⟩
    have hprops : (props.map fun p => (p.1, p.2.reread)) = props :=
      (List.map_congr_left fun p hp => by rw [(ih p hp).2, id]).trans (List.map_id _)
    rw [reread, rereadProps_eq, hprops, hown]

/-- The value of a property of a settled object is settled. -/
lemma Settled.get {v w : JsonValue} (hv : v.Settled) {key : String} (h : v.get key = some w) :
    w.Settled := by
  cases hv with
  | obj _ _ hprops =>
    obtain ⟨p, hp, rfl⟩ := Option.map_eq_some_iff.mp h
    exact hprops p (List.mem_of_find?_eq_some hp)
  | _ => exact absurd h nofun

end JsonValue

/-- **The value of a syntax tree is settled.** -/
theorem JsonTree.settled_value {number : List Char → Option JsonNumber} {t : JsonTree}
    {v : JsonValue} (h : t.value number = some v) : v.Settled := by
  induction t using inductionOn generalizing v with
  | null => exact (Option.some.inj h) ▸ .null
  | bool b => exact (Option.some.inj h) ▸ .bool b
  | num x =>
    obtain ⟨n, -, rfl⟩ := Option.map_eq_some_iff.mp h
    exact .num n
  | str s => exact (Option.some.inj h) ▸ .str s
  | arr items ih =>
    obtain ⟨vs, hvs, rfl⟩ := Option.map_eq_some_iff.mp h
    refine .arr ?_
    clear h
    induction items generalizing vs with
    | nil =>
      obtain rfl := Option.some.inj hvs
      exact fun _ h => absurd h List.not_mem_nil
    | cons t items ih' =>
      obtain ⟨v, hv, hrest⟩ := Option.bind_eq_some_iff.mp hvs
      obtain ⟨ws, hws, heq⟩ := Option.bind_eq_some_iff.mp hrest
      obtain rfl := Option.some.inj heq
      exact List.forall_mem_cons.mpr ⟨ih t List.mem_cons_self hv,
        ih' (fun u hu => ih u (List.mem_cons_of_mem t hu)) ws hws⟩
  | obj members ih =>
    obtain ⟨props, hprops, rfl⟩ := Option.map_eq_some_iff.mp h
    have hvalues : ∀ p ∈ props, p.2.Settled := by
      clear h
      induction members generalizing props with
      | nil =>
        obtain rfl := Option.some.inj hprops
        exact fun _ h => absurd h List.not_mem_nil
      | cons m members ih' =>
        obtain ⟨v, hv, hrest⟩ := Option.bind_eq_some_iff.mp hprops
        obtain ⟨ws, hws, heq⟩ := Option.bind_eq_some_iff.mp hrest
        obtain rfl := Option.some.inj heq
        exact List.forall_mem_cons.mpr ⟨ih m List.mem_cons_self hv,
          ih' (fun u hu => ih u (List.mem_cons_of_mem m hu)) ws hws⟩
    obtain ⟨hkeys, hmem⟩ := ownProps_spec props
    exact .obj hkeys (ownProps_ownProps props) fun p hp => hvalues p (hmem p hp)

/-- A parsed value is settled. -/
lemma settled_of_parse {number : List Char → Option JsonNumber} {s : JsString} {v : JsonValue}
    (h : jsonParseUnits number s = some v) : v.Settled := by
  rw [jsonParseUnits_eq] at h
  obtain ⟨t, -, hv⟩ := Option.bind_eq_some_iff.mp h
  exact JsonTree.settled_value hv

end GovAI
