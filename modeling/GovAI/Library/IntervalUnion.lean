import Mathlib.Data.Set.Basic
import Mathlib.Order.MinMax
import Mathlib.Data.List.Perm.Basic
import Mathlib.Data.List.Pairwise

/-!
# Unions of labelled intervals

Intervals on a linear order carry a set of labels.  `IsUnion items pieces` says that `pieces` is the
union of `items`: sorted pieces that do not touch, each of which is exactly covered by items, and
whose labels are those of the items inside.  There is at most one union (`IsUnion.unique`), and it
depends on the items as a set only (`IsUnion.congr`), so whatever computes a union is independent of
the order of its input and leaves its own output alone (`IsUnion.append`).  A sweep over the items in
the order of their lower ends keeps the relation with the part already read (`IsUnion.absorb`,
`IsUnion.gap`).
-/

namespace GovAI

/-- An interval with a set of labels. -/
@[ext]
structure Piece (κ δ : Type) [LE κ] where
  /-- The lower end. -/
  lo : κ
  /-- The upper end. -/
  hi : κ
  /-- The labels. -/
  labels : Set δ
  /-- The ends are in order. -/
  le : lo ≤ hi

variable {κ δ : Type} [LinearOrder κ]

namespace Piece

/-- The position lies in the half-open interval. -/
def Covers (p : Piece κ δ) (x : κ) : Prop := p.lo ≤ x ∧ x < p.hi

/-- The interval `i` lies inside `p`. -/
def Encloses (p i : Piece κ δ) : Prop := p.lo ≤ i.lo ∧ i.hi ≤ p.hi

/-- `p` is extended to the upper end of `i` and gets its labels. -/
def absorb (p i : Piece κ δ) : Piece κ δ where
  lo := p.lo
  hi := max p.hi i.hi
  labels := p.labels ∪ i.labels
  le := p.le.trans (le_max_left _ _)

@[simp] lemma absorb_lo (p i : Piece κ δ) : (p.absorb i).lo = p.lo := rfl

@[simp] lemma absorb_hi (p i : Piece κ δ) : (p.absorb i).hi = max p.hi i.hi := rfl

@[simp] lemma absorb_labels (p i : Piece κ δ) :
    (p.absorb i).labels = p.labels ∪ i.labels := rfl

/-- An interval lies inside itself. -/
@[simp] lemma encloses_self (p : Piece κ δ) : p.Encloses p := ⟨le_rfl, le_rfl⟩

/-- An extended piece encloses what the piece did. -/
lemma Encloses.absorb {p i : Piece κ δ} (h : p.Encloses i) (j : Piece κ δ) :
    (p.absorb j).Encloses i :=
  ⟨h.1, h.2.trans (le_max_left _ _)⟩

/-- A position inside an enclosed interval is inside the enclosing one. -/
lemma Encloses.covers {p i : Piece κ δ} (h : p.Encloses i) {x : κ} (hx : i.Covers x) :
    p.Covers x :=
  ⟨h.1.trans hx.1, hx.2.trans_le h.2⟩

end Piece

/-- `pieces` is the union of `items`. -/
structure IsUnion (items pieces : List (Piece κ δ)) : Prop where
  /-- The pieces are sorted, and there is a gap between any two. -/
  apart : pieces.Pairwise (·.hi < ·.lo)
  /-- Every item is inside a piece that has its labels. -/
  inside : ∀ i ∈ items, ∃ p ∈ pieces, p.Encloses i ∧ i.labels ⊆ p.labels
  /-- A piece begins where an item does. -/
  anchored : ∀ p ∈ pieces, ∃ i ∈ items, i.lo = p.lo
  /-- The items cover a piece. -/
  covered : ∀ p ∈ pieces, ∀ x, p.Covers x → ∃ i ∈ items, i.Covers x
  /-- The labels of a piece come from items inside. -/
  labels : ∀ p ∈ pieces, ∀ d ∈ p.labels, ∃ i ∈ items, p.Encloses i ∧ d ∈ i.labels

/-! ## Uniqueness -/

section Unique

variable {items items' pieces pieces' : List (Piece κ δ)}

/-- Two pieces that touch are the same. -/
lemma eq_of_touch (hapart : pieces.Pairwise (·.hi < ·.lo)) {p q : Piece κ δ} (hp : p ∈ pieces)
    (hq : q ∈ pieces) (hpq : p.lo ≤ q.hi) (hqp : q.lo ≤ p.hi) : p = q := by
  have hsep : pieces.Pairwise fun p q => p = q ∨ p.hi < q.lo ∨ q.hi < p.lo :=
    hapart.imp fun h => .inr (.inl h)
  have hsymm : Std.Symm fun p q : Piece κ δ => p = q ∨ p.hi < q.lo ∨ q.hi < p.lo := by
    refine ⟨?_⟩
    rintro p q (h | h | h)
    · exact .inl h.symm
    · exact .inr (.inr h)
    · exact .inr (.inl h)
  have hrefl : ∀ p ∈ pieces, p = p ∨ p.hi < p.lo ∨ p.hi < p.lo := fun p _ => .inl rfl
  rcases List.Pairwise.forall_of_forall hrefl hsep hp hq with h | h | h
  · exact h
  · exact absurd h (not_lt.mpr hqp)
  · exact absurd h (not_lt.mpr hpq)

/-- No piece occurs twice. -/
lemma nodup_of_apart (hapart : pieces.Pairwise (·.hi < ·.lo)) : pieces.Nodup :=
  hapart.imp fun {p q} h => by
    rintro rfl
    exact absurd h (not_lt.mpr p.le)

/-- The upper end of a piece is not covered. -/
lemma IsUnion.not_covers_hi (h : IsUnion items pieces) {p : Piece κ δ} (hp : p ∈ pieces) :
    ¬∃ i ∈ items, i.Covers p.hi := by
  rintro ⟨i, hi, hcover⟩
  obtain ⟨q, hq, henc, -⟩ := h.inside i hi
  have hx := henc.covers hcover
  have heq : p = q := eq_of_touch h.apart hp hq (p.le.trans hx.2.le) hx.1
  exact absurd hx.2 (heq ▸ lt_irrefl _)

/-- A piece of one union begins inside a piece of another one, and the latter begins no later. -/
lemma IsUnion.exists_lo_le (h : IsUnion items pieces) (h' : IsUnion items pieces')
    {p : Piece κ δ} (hp : p ∈ pieces) : ∃ q ∈ pieces', q.lo ≤ p.lo ∧ p.lo ≤ q.hi := by
  obtain ⟨i, hi, hlo⟩ := h.anchored p hp
  obtain ⟨q, hq, henc, -⟩ := h'.inside i hi
  exact ⟨q, hq, hlo ▸ henc.1, hlo ▸ i.le.trans henc.2⟩

/-- A piece that begins no later than another union's piece and meets it has the same ends. -/
lemma IsUnion.exists_same_ends (h : IsUnion items pieces) (h' : IsUnion items pieces')
    {p : Piece κ δ} (hp : p ∈ pieces) : ∃ q ∈ pieces', q.lo = p.lo ∧ q.hi = p.hi := by
  obtain ⟨q, hq, hle, hmeet⟩ := h.exists_lo_le h' hp
  obtain ⟨p', hp', hle', hmeet'⟩ := h'.exists_lo_le h hq
  -- otherwise `p'` would end before `p` begins, at a position that `q` covers
  have hpp : p' = p := by
    by_contra hne
    have hlt : p'.hi < p.lo := by
      by_contra hge
      exact hne (eq_of_touch h.apart hp' hp (hle'.trans (hle.trans p.le)) (not_lt.mp hge))
    exact h.not_covers_hi hp' (h'.covered q hq _ ⟨hmeet', hlt.trans_le hmeet⟩)
  subst hpp
  have hlo : q.lo = p'.lo := le_antisymm hle hle'
  refine ⟨q, hq, hlo, le_antisymm ?_ ?_⟩
  · by_contra hgt
    exact h.not_covers_hi hp (h'.covered q hq _ ⟨hmeet', not_le.mp hgt⟩)
  · by_contra hgt
    exact h'.not_covers_hi hq (h.covered p' hp _ ⟨hmeet, not_le.mp hgt⟩)

/-- The labels of a piece are labels of the other union's piece with the same ends. -/
lemma IsUnion.labels_subset (h : IsUnion items pieces) (h' : IsUnion items pieces')
    {p q : Piece κ δ} (hp : p ∈ pieces) (hq : q ∈ pieces') (hlo : q.lo = p.lo)
    (hhi : q.hi = p.hi) : p.labels ⊆ q.labels := by
  intro d hd
  obtain ⟨i, hi, henc, hdi⟩ := h.labels p hp d hd
  obtain ⟨q', hq', henc', hsub⟩ := h'.inside i hi
  have hle : q.lo ≤ i.lo := hlo ▸ henc.1
  have hge : i.hi ≤ q.hi := hhi ▸ henc.2
  have heq : q' = q := eq_of_touch h'.apart hq' hq (henc'.1.trans (i.le.trans hge))
    (hle.trans (i.le.trans henc'.2))
  exact heq ▸ hsub hdi

/-- A piece of one union is a piece of any other. -/
lemma IsUnion.mem_of_mem (h : IsUnion items pieces) (h' : IsUnion items pieces')
    {p : Piece κ δ} (hp : p ∈ pieces) : p ∈ pieces' := by
  obtain ⟨q, hq, hlo, hhi⟩ := h.exists_same_ends h' hp
  have hlabels : q.labels = p.labels :=
    Set.Subset.antisymm (h'.labels_subset h hq hp hlo.symm hhi.symm)
      (h.labels_subset h' hp hq hlo hhi)
  have heq : q = p := Piece.ext hlo hhi hlabels
  exact heq ▸ hq

/-- **Items have at most one union.** -/
theorem IsUnion.unique (h : IsUnion items pieces) (h' : IsUnion items pieces') :
    pieces = pieces' := by
  have hperm : pieces.Perm pieces' :=
    (List.perm_ext_iff_of_nodup (nodup_of_apart h.apart) (nodup_of_apart h'.apart)).mpr
      fun p => ⟨h.mem_of_mem h', h'.mem_of_mem h⟩
  refine @List.Perm.eq_of_pairwise _ (fun p q => p.hi < q.lo) _ _ ?_ h.apart h'.apart hperm
  intro p q _ _ hpq hqp
  exact absurd (hpq.trans_le (q.le.trans (hqp.le.trans p.le))) (lt_irrefl _)

end Unique

/-! ## Rules -/

section Rules

variable {items items' pieces done : List (Piece κ δ)} {cur f : Piece κ δ}

/-- Only the set of the items counts. -/
lemma IsUnion.congr (h : IsUnion items pieces) (hmem : ∀ i, i ∈ items ↔ i ∈ items') :
    IsUnion items' pieces := by
  obtain ⟨hapart, hinside, hanchored, hcovered, hlabels⟩ := h
  simp only [hmem] at hinside hanchored hcovered hlabels
  exact ⟨hapart, hinside, hanchored, hcovered, hlabels⟩

/-- A position is covered by a piece iff it is covered by an item. -/
theorem IsUnion.covers_iff (h : IsUnion items pieces) (x : κ) :
    (∃ p ∈ pieces, p.Covers x) ↔ ∃ i ∈ items, i.Covers x := by
  constructor
  · rintro ⟨p, hp, hx⟩
    exact h.covered p hp x hx
  · rintro ⟨i, hi, hx⟩
    obtain ⟨p, hp, henc, -⟩ := h.inside i hi
    exact ⟨p, hp, henc.covers hx⟩

/-- Only one piece encloses an item. -/
theorem IsUnion.eq_of_encloses (h : IsUnion items pieces) {p q i : Piece κ δ} (hp : p ∈ pieces)
    (hq : q ∈ pieces) (hpi : p.Encloses i) (hqi : q.Encloses i) : p = q :=
  eq_of_touch h.apart hp hq (hpi.1.trans (i.le.trans hqi.2)) (hqi.1.trans (i.le.trans hpi.2))

/-- **The union of the pieces with some of the items is the union.** -/
theorem IsUnion.append (h : IsUnion items pieces) (hsub : items' ⊆ items) :
    IsUnion (pieces ++ items') pieces where
  apart := h.apart
  inside i hi := by
    rcases List.mem_append.mp hi with hi | hi
    · exact ⟨i, hi, i.encloses_self, subset_rfl⟩
    · exact h.inside i (hsub hi)
  anchored p hp := ⟨p, List.mem_append_left _ hp, rfl⟩
  covered p hp x hx := ⟨p, List.mem_append_left _ hp, hx⟩
  labels p hp d hd := ⟨p, List.mem_append_left _ hp, p.encloses_self, hd⟩

/-- Nothing is the union of nothing. -/
lemma isUnion_nil : IsUnion ([] : List (Piece κ δ)) [] :=
  ⟨.nil, by simp, by simp, by simp, by simp⟩

/-- A sweep begins with the first item. -/
lemma isUnion_singleton (f : Piece κ δ) : IsUnion [f] [f] where
  apart := List.pairwise_singleton _ _
  inside := by simp
  anchored := by simp
  covered := by simp
  labels := by simp

/-- An item that begins where the last piece still runs is absorbed by it. -/
theorem IsUnion.absorb (h : IsUnion items (done ++ [cur])) (hlo : cur.lo ≤ f.lo)
    (htouch : f.lo ≤ cur.hi) : IsUnion (items ++ [f]) (done ++ [cur.absorb f]) where
  apart := by
    obtain ⟨hdone, -, hcross⟩ := List.pairwise_append.mp h.apart
    refine List.pairwise_append.mpr ⟨hdone, List.pairwise_singleton _ _, ?_⟩
    simpa using hcross
  inside i hi := by
    rcases List.mem_append.mp hi with hi | hi
    · obtain ⟨p, hp, henc, hsub⟩ := h.inside i hi
      rcases List.mem_append.mp hp with hp | hp
      · exact ⟨p, List.mem_append_left _ hp, henc, hsub⟩
      · obtain rfl := List.mem_singleton.mp hp
        exact ⟨p.absorb f, by simp, henc.absorb f, hsub.trans Set.subset_union_left⟩
    · obtain rfl := List.mem_singleton.mp hi
      exact ⟨cur.absorb i, by simp, ⟨hlo, le_max_right _ _⟩, Set.subset_union_right⟩
  anchored p hp := by
    rcases List.mem_append.mp hp with hp | hp
    · obtain ⟨i, hi, heq⟩ := h.anchored p (List.mem_append_left _ hp)
      exact ⟨i, List.mem_append_left _ hi, heq⟩
    · obtain rfl := List.mem_singleton.mp hp
      obtain ⟨i, hi, heq⟩ := h.anchored cur (by simp)
      exact ⟨i, List.mem_append_left _ hi, heq⟩
  covered p hp x hx := by
    have hold : (∃ q ∈ done ++ [cur], q.Covers x) → ∃ i ∈ items ++ [f], i.Covers x := by
      rintro ⟨q, hq, hqx⟩
      obtain ⟨i, hi, hix⟩ := h.covered q hq x hqx
      exact ⟨i, List.mem_append_left _ hi, hix⟩
    rcases List.mem_append.mp hp with hp | hp
    · exact hold ⟨p, List.mem_append_left _ hp, hx⟩
    · obtain rfl := List.mem_singleton.mp hp
      by_cases hcur : x < cur.hi
      · exact hold ⟨cur, by simp, hx.1, hcur⟩
      · have hxf : x < f.hi := (lt_max_iff.mp hx.2).resolve_left hcur
        exact ⟨f, by simp, htouch.trans (not_lt.mp hcur), hxf⟩
  labels p hp d hd := by
    rcases List.mem_append.mp hp with hp | hp
    · obtain ⟨i, hi, henc, hdi⟩ := h.labels p (List.mem_append_left _ hp) d hd
      exact ⟨i, List.mem_append_left _ hi, henc, hdi⟩
    · obtain rfl := List.mem_singleton.mp hp
      rcases hd with hd | hd
      · obtain ⟨i, hi, henc, hdi⟩ := h.labels cur (by simp) d hd
        exact ⟨i, List.mem_append_left _ hi, henc.absorb f, hdi⟩
      · exact ⟨f, by simp, ⟨hlo, le_max_right _ _⟩, hd⟩

/-- An item that begins after the end of the last piece begins a new one. -/
theorem IsUnion.gap (h : IsUnion items (done ++ [cur])) (hgap : cur.hi < f.lo) :
    IsUnion (items ++ [f]) (done ++ [cur] ++ [f]) where
  apart := by
    refine List.pairwise_append.mpr ⟨h.apart, List.pairwise_singleton _ _, ?_⟩
    intro p hp q hq
    obtain rfl := List.mem_singleton.mp hq
    obtain ⟨-, -, hcross⟩ := List.pairwise_append.mp h.apart
    rcases List.mem_append.mp hp with hp | hp
    · exact (hcross p hp cur (by simp)).trans_le (cur.le.trans hgap.le)
    · obtain rfl := List.mem_singleton.mp hp
      exact hgap
  inside i hi := by
    rcases List.mem_append.mp hi with hi | hi
    · obtain ⟨p, hp, hrest⟩ := h.inside i hi
      exact ⟨p, List.mem_append_left _ hp, hrest⟩
    · obtain rfl := List.mem_singleton.mp hi
      exact ⟨i, by simp, i.encloses_self, subset_rfl⟩
  anchored p hp := by
    rcases List.mem_append.mp hp with hp | hp
    · obtain ⟨i, hi, heq⟩ := h.anchored p hp
      exact ⟨i, List.mem_append_left _ hi, heq⟩
    · obtain rfl := List.mem_singleton.mp hp
      exact ⟨p, by simp, rfl⟩
  covered p hp x hx := by
    rcases List.mem_append.mp hp with hp | hp
    · obtain ⟨i, hi, hix⟩ := h.covered p hp x hx
      exact ⟨i, List.mem_append_left _ hi, hix⟩
    · obtain rfl := List.mem_singleton.mp hp
      exact ⟨p, by simp, hx⟩
  labels p hp d hd := by
    rcases List.mem_append.mp hp with hp | hp
    · obtain ⟨i, hi, hrest⟩ := h.labels p hp d hd
      exact ⟨i, List.mem_append_left _ hi, hrest⟩
    · obtain rfl := List.mem_singleton.mp hp
      exact ⟨p, by simp, p.encloses_self, hd⟩

end Rules

end GovAI
