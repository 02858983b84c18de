import Mathlib.Data.List.Basic
import Mathlib.Tactic

/-!
# Linked chains

Append-only chains in which every record carries its position and a copy of the tag of its
predecessor.  `LinkedFrom` is stated for an arbitrary record type with three projections, so the
rules below (appending at the end, cutting a prefix, positions, uniqueness) apply to any log of this
shape.
-/

namespace GovAI

variable {R T : Type*} (seq : R → ℤ) (prev : R → Option T) (tag : R → T)

/-- The records number `n + 1, n + 2, …` and each one carries the tag of the record before it, the
first one carrying `p`. -/
def LinkedFrom (n : ℤ) (p : Option T) : List R → Prop
  | [] => True
  | r :: rs => seq r = n + 1 ∧ prev r = p ∧ LinkedFrom (n + 1) (some (tag r)) rs

/-- The whole chain: positions from one, no predecessor for the first record. -/
abbrev Linked (rs : List R) : Prop := LinkedFrom seq prev tag 0 none rs

/-- The tag a record appended after `rs` has to carry. -/
def lastTag (p : Option T) (rs : List R) : Option T := (rs.getLast?.map tag).or p

variable {seq prev tag} {n : ℤ} {p : Option T}

@[simp] theorem linkedFrom_nil : LinkedFrom seq prev tag n p [] := trivial

@[simp] theorem linkedFrom_cons {r : R} {rs : List R} :
    LinkedFrom seq prev tag n p (r :: rs) ↔
      seq r = n + 1 ∧ prev r = p ∧ LinkedFrom seq prev tag (n + 1) (some (tag r)) rs :=
  Iff.rfl

@[simp] theorem lastTag_nil : lastTag tag p [] = p := by simp [lastTag]

@[simp] theorem lastTag_cons (r : R) (rs : List R) :
    lastTag tag p (r :: rs) = lastTag tag (some (tag r)) rs := by
  unfold lastTag
  rw [List.getLast?_cons]
  cases rs.getLast? <;> simp

/-- A chain splits into a chain and a continuation of it. -/
theorem linkedFrom_append {xs ys : List R} :
    LinkedFrom seq prev tag n p (xs ++ ys) ↔
      LinkedFrom seq prev tag n p xs ∧
        LinkedFrom seq prev tag (n + xs.length) (lastTag tag p xs) ys := by
  induction xs generalizing n p with
  | nil => simp
  | cons x xs ih =>
    have h : n + 1 + (xs.length : ℤ) = n + ((x :: xs).length : ℤ) := by
      push_cast [List.length_cons]
      ring
    simp only [List.cons_append, linkedFrom_cons, ih, lastTag_cons, h]
    tauto

/-- Every prefix of a chain is a chain. -/
theorem LinkedFrom.of_isPrefix {xs ys : List R} (h : LinkedFrom seq prev tag n p ys)
    (hxs : xs <+: ys) : LinkedFrom seq prev tag n p xs := by
  obtain ⟨zs, rfl⟩ := hxs
  exact (linkedFrom_append.mp h).1

/-- The record at index `i` has position `n + i + 1`. -/
theorem LinkedFrom.seq_get {rs : List R} (h : LinkedFrom seq prev tag n p rs) (i : ℕ)
    (hi : i < rs.length) : seq rs[i] = n + i + 1 := by
  induction rs generalizing n p i with
  | nil => simp at hi
  | cons r rs ih =>
    obtain ⟨hseq, -, hrest⟩ := h
    cases i with
    | zero => simpa using hseq
    | succ i =>
      have hi' : i < rs.length := by simpa using hi
      have := ih hrest i hi'
      simp only [List.getElem_cons_succ, this]
      push_cast
      ring

/-- The record at index `i + 1` carries the tag of the record at index `i`. -/
theorem LinkedFrom.prev_get_succ {rs : List R} (h : LinkedFrom seq prev tag n p rs) (i : ℕ)
    (hi : i + 1 < rs.length) : prev rs[i + 1] = some (tag rs[i]) := by
  induction rs generalizing n p i with
  | nil => simp at hi
  | cons r rs ih =>
    obtain ⟨-, -, hrest⟩ := h
    cases i with
    | zero =>
      cases rs with
      | nil => simp at hi
      | cons r' rs => simpa using hrest.2.1
    | succ i => simpa using ih hrest i (by simpa using hi)

/-- The positions of a chain increase strictly. -/
theorem LinkedFrom.pairwise_lt {rs : List R} (h : LinkedFrom seq prev tag n p rs) :
    rs.Pairwise fun a b => seq a < seq b := by
  rw [List.pairwise_iff_getElem]
  intro i j hi hj hij
  rw [h.seq_get i hi, h.seq_get j hj]
  omega

/-- The three things that make a chain: the positions, the predecessor of the first record, and the
links. -/
theorem linkedFrom_iff {rs : List R} : LinkedFrom seq prev tag n p rs ↔
    (∀ (i : ℕ) (hi : i < rs.length), seq rs[i] = n + i + 1) ∧ (∀ r ∈ rs.head?, prev r = p) ∧
      rs.IsChain fun a b => prev b = some (tag a) := by
  induction rs generalizing n p with
  | nil => simp
  | cons r rs ih =>
    rw [linkedFrom_cons, ih]
    constructor
    · rintro ⟨hseq, hprev, hpos, hhead, hchain⟩
      refine ⟨fun i hi => ?_, by simpa using hprev, List.isChain_cons.mpr ⟨hhead, hchain⟩⟩
      cases i with
      | zero => simpa using hseq
      | succ i =>
        rw [List.getElem_cons_succ, hpos i (by simpa using hi)]
        push_cast
        ring
    · rintro ⟨hpos, hprev, hchain⟩
      obtain ⟨hhead, hchain⟩ := List.isChain_cons.mp hchain
      have hfirst : seq r = n + (0 : ℕ) + 1 := hpos 0 (Nat.succ_pos _)
      refine ⟨by simpa using hfirst, by simpa using hprev, fun i hi => ?_, hhead, hchain⟩
      have hnext := hpos (i + 1) (by simpa using hi)
      rw [List.getElem_cons_succ] at hnext
      rw [hnext]
      push_cast
      ring

/-- A chain is extended by a record with the next position and the last tag. -/
theorem LinkedFrom.concat {rs : List R} (h : LinkedFrom seq prev tag n p rs) {r : R}
    (hseq : seq r = n + rs.length + 1) (hprev : prev r = lastTag tag p rs) :
    LinkedFrom seq prev tag n p (rs ++ [r]) :=
  linkedFrom_append.mpr ⟨h, hseq, hprev, trivial⟩

end GovAI
