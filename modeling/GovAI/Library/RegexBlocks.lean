import GovAI.Library.RegexSearch
import Mathlib.Data.List.Induction

/-!
# Searching joined texts

A text is joined from blocks by a separator that is no word character.  A match inside a block is a
match of the joined text (`mem_ends_block`).  An expression that `Avoids` the separator matches in the
joined text what it matches in the blocks, in the same order of priority (`ends_block`), and a search
reports something in the joined text exactly if it reports something in a block
(`reported_append_iff`).
-/

namespace GovAI

namespace Regex

variable {α : Type} {word : α → Bool} {text : List α}

/-! ## Where matches lie -/

/-- No character of the expression is `c`. -/
def Avoids (c : α) : Regex α → Prop
  | unit p => p c = false
  | boundary => True
  | seq r s => Avoids c r ∧ Avoids c s
  | opt r => Avoids c r
  | rep r _ _ => Avoids c r

/-- The least number of characters of a match. -/
def minLength : Regex α → ℕ
  | unit _ => 1
  | boundary => 0
  | seq r s => minLength r + minLength s
  | opt _ => 0
  | rep r m _ => m * minLength r

/-- A relation between positions that holds along every round holds along all of them. -/
lemma optRounds_induction {step : ℕ → List ℕ} {R : ℕ → ℕ → Prop} (hrefl : ∀ i, R i i)
    (htrans : ∀ i k j, R i k → R k j → R i j) (hstep : ∀ i, ∀ j ∈ step i, R i j) {extra i j : ℕ}
    (h : j ∈ optRounds step extra i) : R i j := by
  induction extra generalizing i with
  | zero =>
    obtain rfl := List.mem_singleton.mp h
    exact hrefl j
  | succ extra ih =>
    rcases List.mem_append.mp h with h | h
    · obtain ⟨k, hk, hj⟩ := List.mem_flatMap.mp h
      exact htrans i k j (hstep i k hk) (ih hj)
    · obtain rfl := List.mem_singleton.mp h
      exact hrefl j

/-- A position after a match, and not after the end of the text unless it was before. -/
lemma end_le_of_mem_ends {r : Regex α} {i j : ℕ} (h : j ∈ ends word text r i) :
    i ≤ j ∧ (j = i ∨ j ≤ text.length) := by
  have htrans : ∀ i k j, (i ≤ k ∧ (k = i ∨ k ≤ text.length)) →
      (k ≤ j ∧ (j = k ∨ j ≤ text.length)) → i ≤ j ∧ (j = i ∨ j ≤ text.length) := by
    omega
  induction r generalizing i j with
  | unit p =>
    obtain ⟨hp, rfl⟩ := mem_ends_unit_iff.mp h
    refine ⟨Nat.le_succ i, .inr ?_⟩
    by_contra hlt
    rw [List.getElem?_eq_none (by omega)] at hp
    cases hp
  | boundary =>
    obtain ⟨-, rfl⟩ := mem_ends_boundary_iff.mp h
    exact ⟨le_rfl, .inl rfl⟩
  | seq r s ihr ihs =>
    obtain ⟨k, hk, hj⟩ := mem_ends_seq_iff.mp h
    exact htrans i k j (ihr hk) (ihs hj)
  | opt r ih =>
    rcases mem_ends_opt_iff.mp h with h | rfl
    · exact ih h
    · exact ⟨le_rfl, .inl rfl⟩
  | rep r m extra ih =>
    have hopt : ∀ {i j}, j ∈ optRounds (ends word text r) extra i →
        i ≤ j ∧ (j = i ∨ j ≤ text.length) := fun h =>
      optRounds_induction (fun i => ⟨le_rfl, .inl rfl⟩) htrans (fun i j h => ih h) h
    rw [ends] at h
    induction m generalizing i with
    | zero => exact hopt h
    | succ m ihm =>
      obtain ⟨k, hk, hj⟩ := List.mem_flatMap.mp h
      exact htrans i k j (ih hk) (ihm hj)

/-- A match has its least number of characters. -/
lemma minLength_le_of_mem_ends {r : Regex α} {i j : ℕ} (h : j ∈ ends word text r i) :
    i + minLength r ≤ j := by
  induction r generalizing i j with
  | unit p =>
    obtain ⟨-, rfl⟩ := mem_ends_unit_iff.mp h
    exact le_rfl
  | boundary =>
    obtain ⟨-, rfl⟩ := mem_ends_boundary_iff.mp h
    exact le_rfl
  | seq r s ihr ihs =>
    obtain ⟨k, hk, hj⟩ := mem_ends_seq_iff.mp h
    have := ihr hk
    have := ihs hj
    rw [minLength]
    omega
  | opt r ih => exact (end_le_of_mem_ends h).1
  | rep r m extra ih =>
    rw [ends] at h
    rw [minLength]
    induction m generalizing i with
    | zero =>
      rw [Nat.zero_mul]
      exact optRounds_induction (fun i => le_rfl) (fun i k j => Nat.le_trans)
        (fun i j h => (end_le_of_mem_ends h).1) h
    | succ m ihm =>
      obtain ⟨k, hk, hj⟩ := List.mem_flatMap.mp h
      have := ih hk
      have := ihm hj
      rw [Nat.succ_mul]
      omega

/-- A match of an expression that has characters is not empty and lies in the text. -/
lemma lt_of_mem_ends {r : Regex α} (hr : 0 < minLength r) {i j : ℕ}
    (h : j ∈ ends word text r i) : i < j ∧ j ≤ text.length := by
  have := minLength_le_of_mem_ends h
  have := end_le_of_mem_ends h
  omega

/-! ## Blocks -/

/-- `t` stands after `a` in the text, and there is a separator or nothing before and after it. -/
def IsBlock (sep : α) (a t text : List α) : Prop :=
  ∃ b, text = a ++ (t ++ b) ∧ (∀ c ∈ a.getLast?, c = sep) ∧ ∀ c ∈ b.head?, c = sep

section Block

variable {sep : α} {a t : List α}

lemma isBlock_left (t r : List α) : IsBlock sep [] t (t ++ sep :: r) := by
  refine ⟨sep :: r, rfl, ?_, fun c hc => (Option.mem_some_iff.mp hc).symm⟩
  rintro c ⟨⟩

lemma isBlock_right (s t : List α) : IsBlock sep (s ++ [sep]) t (s ++ sep :: t) := by
  refine ⟨[], by simp, fun c hc => ?_, ?_⟩
  · rw [List.getLast?_concat] at hc
    exact (Option.mem_some_iff.mp hc).symm
  · rintro c ⟨⟩

/-- The characters of a block, as seen by a class that has no separator. -/
lemma IsBlock.any_getElem? (h : IsBlock sep a t text) {p : α → Bool} (hp : p sep = false) {i : ℕ}
    (hi : i ≤ t.length) : (text[a.length + i]?).any p = (t[i]?).any p := by
  obtain ⟨b, rfl, -, hb⟩ := h
  rw [List.getElem?_append_right (Nat.le_add_right _ _), Nat.add_sub_cancel_left]
  rcases Nat.eq_or_lt_of_le hi with rfl | hlt
  · rw [List.getElem?_append_right le_rfl, Nat.sub_self, List.getElem?_eq_none le_rfl]
    cases b with
    | nil => rfl
    | cons c b =>
      obtain rfl := hb c rfl
      exact hp
  · rw [List.getElem?_append_left hlt]

/-- A block is a part of the text. -/
lemma IsBlock.length_le (h : IsBlock sep a t text) : a.length + t.length ≤ text.length := by
  obtain ⟨b, rfl, -, -⟩ := h
  simp only [List.length_append]
  omega

/-- The text between two positions of a block. -/
lemma IsBlock.slice (h : IsBlock sep a t text) {i j : ℕ} (hj : j ≤ t.length) :
    (text.drop (a.length + i)).take (a.length + j - (a.length + i)) =
      (t.drop i).take (j - i) := by
  obtain ⟨b, rfl, -, -⟩ := h
  rw [Nat.add_sub_add_left, ← List.drop_drop, List.drop_left]
  rcases Nat.lt_or_ge i j with hlt | hge
  · rw [List.drop_append_of_le_length (by omega), List.take_append_of_le_length]
    rw [List.length_drop]
    omega
  · rw [Nat.sub_eq_zero_of_le hge, List.take_zero, List.take_zero]

variable (hsep : word sep = false)

include hsep

/-- The borders of words in a block. -/
lemma IsBlock.boundary (h : IsBlock sep a t text) {i : ℕ} (hi : i ≤ t.length) :
    (wordBefore word text (a.length + i) = wordBefore word t i) ∧
      wordAt word text (a.length + i) = wordAt word t i := by
  refine ⟨?_, h.any_getElem? hsep hi⟩
  cases i with
  | succ i => exact h.any_getElem? hsep (Nat.le_of_succ_le hi)
  | zero =>
    obtain ⟨b, rfl, ha, -⟩ := h
    rcases List.eq_nil_or_concat' a with rfl | ⟨a, c, rfl⟩
    · rfl
    · obtain rfl := ha c (by simp)
      have hlen : (a ++ [c]).length + 0 = a.length + 1 := by simp
      rw [hlen, wordBefore, wordBefore, wordAt, List.append_assoc,
        List.getElem?_append_right le_rfl, Nat.sub_self]
      exact hsep

/-- **A match in a block is a match in the text.** -/
lemma IsBlock.mem_ends (h : IsBlock sep a t text) {r : Regex α} {i j : ℕ} (hi : i ≤ t.length)
    (hj : j ∈ ends word t r i) : a.length + j ∈ ends word text r (a.length + i) := by
  induction r generalizing i j with
  | unit p =>
    obtain ⟨hp, rfl⟩ := mem_ends_unit_iff.mp hj
    refine mem_ends_unit_iff.mpr ⟨?_, rfl⟩
    obtain ⟨b, rfl, -, -⟩ := h
    have hlt : i < t.length := by
      by_contra hge
      rw [List.getElem?_eq_none (by omega)] at hp
      cases hp
    rwa [List.getElem?_append_right (Nat.le_add_right _ _), Nat.add_sub_cancel_left,
      List.getElem?_append_left hlt]
  | boundary =>
    obtain ⟨hne, rfl⟩ := mem_ends_boundary_iff.mp hj
    obtain ⟨hbefore, hat⟩ := h.boundary hsep hi
    exact mem_ends_boundary_iff.mpr ⟨by rwa [hbefore, hat], rfl⟩
  | seq r s ihr ihs =>
    obtain ⟨k, hk, hj⟩ := mem_ends_seq_iff.mp hj
    have hle := end_le_of_mem_ends hk
    exact mem_ends_seq_iff.mpr ⟨a.length + k, ihr hi hk, ihs (by omega) hj⟩
  | opt r ih =>
    rcases mem_ends_opt_iff.mp hj with hj | rfl
    · exact mem_ends_opt_iff.mpr (.inl (ih hi hj))
    · exact mem_ends_opt_iff.mpr (.inr rfl)
  | rep r m extra ih =>
    rw [ends] at hj ⊢
    have hopt : ∀ extra {i j}, i ≤ t.length → j ∈ optRounds (ends word t r) extra i →
        a.length + j ∈ optRounds (ends word text r) extra (a.length + i) := by
      intro extra
      induction extra with
      | zero =>
        intro i j _ hj
        obtain rfl := List.mem_singleton.mp hj
        exact List.mem_singleton.mpr rfl
      | succ extra ihe =>
        intro i j hi hj
        rcases List.mem_append.mp hj with hj | hj
        · obtain ⟨k, hk, hj⟩ := List.mem_flatMap.mp hj
          have hle := end_le_of_mem_ends hk
          exact List.mem_append_left _
            (List.mem_flatMap.mpr ⟨a.length + k, ih hi hk, ihe (by omega) hj⟩)
        · obtain rfl := List.mem_singleton.mp hj
          exact List.mem_append_right _ (List.mem_singleton.mpr rfl)
    induction m generalizing i with
    | zero => exact hopt extra hi hj
    | succ m ihm =>
      obtain ⟨k, hk, hj⟩ := List.mem_flatMap.mp hj
      have hle := end_le_of_mem_ends hk
      exact List.mem_flatMap.mpr ⟨a.length + k, ih hi hk, ihm (by omega) hj⟩

omit hsep in
/-- Two matchers that agree up to a shift agree when they go on with others that do. -/
lemma flatMap_shift {f g f' g' : ℕ → List ℕ} {n d i : ℕ} (hi : i ≤ n)
    (hf : ∀ i ≤ n, g (d + i) = (f i).map (d + ·)) (hle : ∀ i ≤ n, ∀ j ∈ f i, j ≤ n)
    (hf' : ∀ i ≤ n, g' (d + i) = (f' i).map (d + ·)) :
    (g (d + i)).flatMap g' = ((f i).flatMap f').map (d + ·) := by
  rw [hf i hi, List.flatMap_map, List.map_flatMap]
  exact List.flatMap_congr fun k hk => hf' k (hle i hi k hk)

/-- **An expression without the separator matches in a block what it matches in the block alone.** -/
lemma IsBlock.ends_eq (h : IsBlock sep a t text) {r : Regex α} (hr : Avoids sep r) {i : ℕ}
    (hi : i ≤ t.length) :
    ends word text r (a.length + i) = (ends word t r i).map (a.length + ·) := by
  have hle : ∀ (r : Regex α), ∀ i ≤ t.length, ∀ j ∈ ends word t r i, j ≤ t.length := by
    intro r i hi j hj
    have := end_le_of_mem_ends hj
    omega
  induction r generalizing i with
  | unit p =>
    rw [ends, ends, h.any_getElem? hr hi]
    split <;> rfl
  | boundary =>
    obtain ⟨hbefore, hat⟩ := h.boundary hsep hi
    rw [ends, ends, hbefore, hat]
    split <;> rfl
  | seq r s ihr ihs =>
    rw [ends, ends]
    exact flatMap_shift hi (fun i hi => ihr hr.1 hi) (hle r) fun i hi => ihs hr.2 hi
  | opt r ih => rw [ends, ends, ih hr hi, List.map_append, List.map_singleton]
  | rep r m extra ih =>
    have hopt : ∀ extra, ∀ i ≤ t.length, optRounds (ends word text r) extra (a.length + i) =
        (optRounds (ends word t r) extra i).map (a.length + ·) := by
      intro extra
      induction extra with
      | zero => exact fun i _ => rfl
      | succ extra ihe =>
        intro i hi
        rw [optRounds, optRounds, List.map_append, List.map_singleton]
        exact congrArg (· ++ [a.length + i])
          (flatMap_shift hi (fun i hi => ih hr hi) (hle r) ihe)
    have hrounds : ∀ m, ∀ i ≤ t.length, rounds (ends word text r) extra m (a.length + i) =
        (rounds (ends word t r) extra m i).map (a.length + ·) := by
      intro m
      induction m with
      | zero => exact hopt extra
      | succ m ihm =>
        exact fun i hi => flatMap_shift hi (fun i hi => ih hr hi) (hle r) ihm
    rw [ends, ends]
    exact hrounds m i hi

/-- A match before a block ends before it. -/
lemma IsBlock.end_lt (h : IsBlock sep a t text) {r : Regex α} (hr : Avoids sep r) {i j : ℕ}
    (hi : i < a.length) (hj : j ∈ ends word text r i) : j < a.length := by
  obtain ⟨b, rfl, ha, -⟩ := h
  rcases List.eq_nil_or_concat' a with rfl | ⟨a, c, rfl⟩
  · cases hi
  · obtain rfl := ha c (by simp)
    rw [List.length_append, List.length_singleton] at hi ⊢
    have hblock : IsBlock c [] a (a ++ [c] ++ (t ++ b)) := by
      rw [List.append_assoc]
      exact isBlock_left a (t ++ b)
    have heq := hblock.ends_eq hsep hr (Nat.le_of_lt_succ hi)
    simp only [List.length_nil, Nat.zero_add, List.map_id'] at heq
    rw [heq] at hj
    have := end_le_of_mem_ends hj
    omega

/-- A position of a block lies inside a match of the text if it does so in the block alone. -/
lemma IsBlock.swallowed_iff (h : IsBlock sep a t text) {r : Regex α} (hr : Avoids sep r) {i : ℕ}
    (hi : i ≤ t.length) :
    Swallowed (ends word text r) (a.length + i) ↔ Swallowed (ends word t r) i := by
  induction i using Nat.strong_induction_on with
  | _ i ih =>
    rw [GovAI.swallowed_iff, @GovAI.swallowed_iff _ i]
    constructor
    · rintro ⟨q, hq, ⟨j, hj, hlt⟩, hnot⟩
      -- a match that reaches into the block begins in it
      have hge : a.length ≤ q := by
        by_contra hbefore
        have := h.end_lt hsep hr (Nat.lt_of_not_le hbefore) (List.mem_of_mem_head? hj)
        omega
      obtain ⟨k, rfl⟩ := Nat.exists_eq_add_of_le hge
      have hk : k < i := by omega
      rw [h.ends_eq hsep hr (by omega), List.head?_map] at hj
      obtain ⟨e, he, rfl⟩ := Option.map_eq_some_iff.mp hj
      exact ⟨k, hk, ⟨e, he, by omega⟩, fun hs => hnot ((ih k hk (by omega)).mpr hs)⟩
    · rintro ⟨q, hq, ⟨j, hj, hlt⟩, hnot⟩
      refine ⟨a.length + q, by omega, ⟨a.length + j, ?_, by omega⟩, fun hs => ?_⟩
      · rw [h.ends_eq hsep hr (by omega), List.head?_map, hj]
        rfl
      · exact hnot ((ih q hq (by omega)).mp hs)

end Block

/-! ## What a search reports -/

/-- A search reports a match with a valid text. -/
def Reported (word : α → Bool) (text : List α) (r : Regex α) (isValid : List α → Bool) : Prop :=
  ∃ p q, (ends word text r p).head? = some q ∧ ¬Swallowed (ends word text r) p ∧
    isValid ((text.drop p).take (q - p)) = true

/-- What is reported is found by `findAll`. -/
lemma reported_iff {r : Regex α} (hr : 0 < minLength r) {isValid : List α → Bool} :
    Reported word text r isValid ↔ ∃ m ∈ findAll (ends word text r) text.length,
      isValid ((text.drop m.1).take (m.2 - m.1)) = true := by
  have hends : ∀ i j, (ends word text r i).head? = some j → i < j ∧ j ≤ text.length :=
    fun i j hj => lt_of_mem_ends hr (List.mem_of_mem_head? hj)
  simp only [Reported, Prod.exists, mem_findAll_iff hends, and_assoc]

/-- Where any match is valid, a search reports one if there is one. -/
lemma reported_of_mem_ends {r : Regex α} {isValid : List α → Bool}
    (hvalid : ∀ p, ∀ q ∈ ends word text r p, isValid ((text.drop p).take (q - p)) = true) {p q : ℕ}
    (h : q ∈ ends word text r p) : Reported word text r isValid := by
  obtain ⟨k, hk⟩ : ∃ k, (ends word text r p).head? = some k :=
    Option.ne_none_iff_exists'.mp fun hnone => by
      rw [List.head?_eq_none_iff.mp hnone] at h
      cases h
  by_cases hswallowed : Swallowed (ends word text r) p
  · obtain ⟨q, -, ⟨j, hj, -⟩, hnot⟩ := swallowed_iff.mp hswallowed
    exact ⟨q, j, hj, hnot, hvalid q j (List.mem_of_mem_head? hj)⟩
  · exact ⟨p, k, hk, hswallowed, hvalid p k (List.mem_of_mem_head? hk)⟩

section Joined

variable {sep : α} (hsep : word sep = false) {r : Regex α} {isValid : List α → Bool}

include hsep

/-- What is reported in a block is reported in the text, and the other way round. -/
lemma IsBlock.reported_iff {a t : List α} (h : IsBlock sep a t text) (hr : Avoids sep r)
    (hlen : 0 < minLength r) :
    Reported word t r isValid ↔ ∃ p q, a.length ≤ p ∧ p ≤ a.length + t.length ∧
      (ends word text r p).head? = some q ∧ ¬Swallowed (ends word text r) p ∧
        isValid ((text.drop p).take (q - p)) = true := by
  constructor
  · rintro ⟨p, q, hq, hnot, hvalid⟩
    have hlt := lt_of_mem_ends hlen (List.mem_of_mem_head? hq)
    refine ⟨a.length + p, a.length + q, by omega, by omega, ?_, ?_, ?_⟩
    · rw [h.ends_eq hsep hr (by omega), List.head?_map, hq]
      rfl
    · rwa [h.swallowed_iff hsep hr (by omega)]
    · rwa [h.slice hlt.2]
  · rintro ⟨p, q, hp, hp', hq, hnot, hvalid⟩
    obtain ⟨i, rfl⟩ := Nat.exists_eq_add_of_le hp
    rw [h.ends_eq hsep hr (by omega), List.head?_map] at hq
    obtain ⟨j, hj, rfl⟩ := Option.map_eq_some_iff.mp hq
    have hlt := lt_of_mem_ends hlen (List.mem_of_mem_head? hj)
    rw [h.swallowed_iff hsep hr (by omega)] at hnot
    rw [h.slice hlt.2] at hvalid
    exact ⟨i, j, hj, hnot, hvalid⟩

/-- **In two blocks a search reports what it reports in one of them.** -/
lemma reported_append_iff (hr : Avoids sep r) (hlen : 0 < minLength r) (s t : List α) :
    Reported word (s ++ sep :: t) r isValid ↔
      Reported word s r isValid ∨ Reported word t r isValid := by
  rw [(isBlock_left s t).reported_iff hsep hr hlen, (isBlock_right s t).reported_iff hsep hr hlen]
  constructor
  · rintro ⟨p, q, hq, hnot, hvalid⟩
    have hlt := lt_of_mem_ends hlen (List.mem_of_mem_head? hq)
    rw [List.length_append, List.length_cons] at hlt
    rcases Nat.lt_or_ge s.length p with hgt | hle
    · refine .inr ⟨p, q, ?_, ?_, hq, hnot, hvalid⟩ <;>
        rw [List.length_append, List.length_singleton] <;> omega
    · exact .inl ⟨p, q, Nat.zero_le p, by rwa [List.length_nil, Nat.zero_add], hq, hnot, hvalid⟩
  · rintro (⟨p, q, -, -, h⟩ | ⟨p, q, -, -, h⟩) <;> exact ⟨p, q, h⟩

/-- **In joined segments a search reports what it reports in one of them.** -/
theorem reported_intercalate_iff (hr : Avoids sep r) (hlen : 0 < minLength r)
    (segments : List (List α)) :
    Reported word ([sep].intercalate segments) r isValid ↔
      ∃ s ∈ segments, Reported word s r isValid := by
  induction segments with
  | nil =>
    refine iff_of_false ?_ fun ⟨s, hs, _⟩ => nomatch hs
    rintro ⟨p, q, hq, -, -⟩
    have hlt := lt_of_mem_ends hlen (List.mem_of_mem_head? hq)
    rw [List.intercalate_nil, List.length_nil] at hlt
    omega
  | cons s rest ih =>
    cases rest with
    | nil => simp
    | cons s' rest =>
      rw [List.intercalate_cons_cons, List.append_assoc, List.singleton_append,
        reported_append_iff hsep hr hlen, ih]
      simp only [List.mem_cons, exists_eq_or_imp]

end Joined

/-- A segment is a block of the joined text. -/
lemma isBlock_of_mem {sep : α} {segments : List (List α)} {s : List α} (hs : s ∈ segments) :
    ∃ a, IsBlock sep a s ([sep].intercalate segments) := by
  induction segments with
  | nil => cases hs
  | cons t rest ih =>
    cases rest with
    | nil =>
      obtain rfl := List.mem_singleton.mp hs
      refine ⟨[], [], by simp, ?_, ?_⟩ <;> rintro c ⟨⟩
    | cons t' rest =>
      rw [List.intercalate_cons_cons, List.append_assoc, List.singleton_append]
      rcases List.mem_cons.mp hs with rfl | hs
      · exact ⟨[], isBlock_left s _⟩
      · obtain ⟨a, b, heq, ha, hb⟩ := ih hs
        refine ⟨t ++ sep :: a, b, by rw [heq]; simp, fun c hc => ?_, hb⟩
        rcases List.eq_nil_or_concat' a with rfl | ⟨a, c', rfl⟩
        · rw [List.getLast?_concat] at hc
          exact (Option.mem_some_iff.mp hc).symm
        · rw [← List.cons_append, ← List.append_assoc, List.getLast?_concat] at hc
          exact ha c (by rwa [List.getLast?_concat])

end Regex

end GovAI
