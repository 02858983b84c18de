import Mathlib.Data.List.Basic
import Mathlib.Order.Nat

/-!
# Leftmost-first search

Regular expressions with greedy quantifiers and the word boundary, under the rules of a backtracking
engine: `Regex.ends` lists the ends of the matches at a position in the order of their priority, and
`findAll` searches from left to right and goes on after each match.

A match is reported exactly when its position has one and does not lie inside an earlier reported
match (`mem_findAll_iff`).  The positions inside reported matches are `Swallowed`, which does not
mention the search.
-/

namespace GovAI

/-! ## Expressions -/

/-- Regular expressions over characters of `α`. -/
inductive Regex (α : Type) where
  /-- One character. -/
  | unit (p : α → Bool)
  /-- `\b`. -/
  | boundary
  /-- One after the other. -/
  | seq (r s : Regex α)
  /-- `r?`. -/
  | opt (r : Regex α)
  /-- `r{m,m+extra}`. -/
  | rep (r : Regex α) (m extra : ℕ)

namespace Regex

variable {α : Type}

/-- `r{m}`. -/
def times (r : Regex α) (m : ℕ) : Regex α := .rep r m 0

/-- Expressions in a row. -/
def concat : Regex α → List (Regex α) → Regex α
  | r, [] => r
  | r, s :: rest => .seq r (concat s rest)

/-- A position of the text holds a word character. -/
def wordAt (word : α → Bool) (text : List α) (i : ℕ) : Bool := (text[i]?).any word

/-- The position before `i` holds a word character. -/
def wordBefore (word : α → Bool) (text : List α) : ℕ → Bool
  | 0 => false
  | i + 1 => wordAt word text i

/-- The ends of up to `extra` rounds of a matcher, the longest first. -/
def optRounds (step : ℕ → List ℕ) : ℕ → ℕ → List ℕ
  | 0, i => [i]
  | extra + 1, i => (step i).flatMap (optRounds step extra) ++ [i]

/-- The ends of `m` to `m + extra` rounds of a matcher, the longest first. -/
def rounds (step : ℕ → List ℕ) (extra : ℕ) : ℕ → ℕ → List ℕ
  | 0, i => optRounds step extra i
  | m + 1, i => (step i).flatMap (rounds step extra m)

/-- The ends of the matches at a position, by priority. -/
def ends (word : α → Bool) (text : List α) : Regex α → ℕ → List ℕ
  | unit p, i => if (text[i]?).any p then [i + 1] else []
  | boundary, i => if wordBefore word text i != wordAt word text i then [i] else []
  | seq r s, i => (ends word text r i).flatMap (ends word text s)
  | opt r, i => ends word text r i ++ [i]
  | rep r m extra, i => rounds (ends word text r) extra m i

end Regex

/-! ## Search -/

/-- `exec` from a position: the first position with a match, and the end of the match. -/
def searchFrom (ends : ℕ → List ℕ) : ℕ → ℕ → Option (ℕ × ℕ)
  | 0, _ => none
  | fuel + 1, i =>
    match ends i with
    | j :: _ => some (i, j)
    | [] => searchFrom ends fuel (i + 1)

/-- The loop of `findAll` from `lastIndex`, for a text of the length `n`. -/
def findAllFrom (ends : ℕ → List ℕ) (n : ℕ) : ℕ → ℕ → List (ℕ × ℕ)
  | 0, _ => []
  | fuel + 1, lastIndex =>
    match searchFrom ends (n + 1 - lastIndex) lastIndex with
    | none => []
    | some (i, j) => (i, j) :: findAllFrom ends n fuel (if j = i then j + 1 else j)

/-- `findAll`: the matches of a global expression, each with its end. -/
def findAll (ends : ℕ → List ℕ) (n : ℕ) : List (ℕ × ℕ) := findAllFrom ends n (n + 1) 0

/-- A position lies inside the match of an earlier position that does not itself lie inside one. -/
def Swallowed (ends : ℕ → List ℕ) (p : ℕ) : Prop :=
  ∃ q, ∃ _ : q < p, (∃ j, (ends q).head? = some j ∧ p < j) ∧ ¬Swallowed ends q
termination_by p

lemma swallowed_iff {ends : ℕ → List ℕ} {p : ℕ} : Swallowed ends p ↔
    ∃ q < p, (∃ j, (ends q).head? = some j ∧ p < j) ∧ ¬Swallowed ends q := by
  rw [Swallowed]
  simp only [exists_prop]

section Search

variable {ends : ℕ → List ℕ} {n : ℕ}

/-- A search that finds nothing. -/
lemma searchFrom_eq_none {fuel i : ℕ} (h : searchFrom ends fuel i = none) {p : ℕ} (hi : i ≤ p)
    (hp : p < i + fuel) : ends p = [] := by
  induction fuel generalizing i with
  | zero => omega
  | succ fuel ih =>
    rw [searchFrom] at h
    split at h
    · cases h
    · rename_i hnil
      rcases Nat.eq_or_lt_of_le hi with rfl | hlt
      · exact hnil
      · exact ih h hlt (by omega)

/-- A search finds the first position with a match. -/
lemma searchFrom_eq_some {fuel i q j : ℕ} (h : searchFrom ends fuel i = some (q, j)) :
    i ≤ q ∧ q < i + fuel ∧ (ends q).head? = some j ∧ ∀ p, i ≤ p → p < q → ends p = [] := by
  induction fuel generalizing i with
  | zero => cases h
  | succ fuel ih =>
    rw [searchFrom] at h
    split at h
    · rename_i rest hcons
      cases h
      exact ⟨le_rfl, by omega, by rw [hcons]; rfl, fun p hp hp' => by omega⟩
    · rename_i hnil
      obtain ⟨hle, hlt, hhead, hbefore⟩ := ih h
      refine ⟨by omega, by omega, hhead, fun p hp hp' => ?_⟩
      rcases Nat.eq_or_lt_of_le hp with rfl | hlt'
      · exact hnil
      · exact hbefore p hlt' hp'

/-- The loop from a position that no earlier reported match reaches over. -/
lemma mem_findAllFrom_iff (hends : ∀ i j, (ends i).head? = some j → i < j ∧ j ≤ n) {fuel i : ℕ}
    (hfuel : n + 1 ≤ i + fuel)
    (hfree : ∀ q < i, ∀ j, (ends q).head? = some j → ¬Swallowed ends q → j ≤ i) {p j : ℕ} :
    (p, j) ∈ findAllFrom ends n fuel i ↔
      i ≤ p ∧ (ends p).head? = some j ∧ ¬Swallowed ends p := by
  induction fuel generalizing i with
  | zero =>
    refine iff_of_false List.not_mem_nil ?_
    rintro ⟨hi, hhead, -⟩
    have := hends p j hhead
    omega
  | succ fuel ih =>
    rw [findAllFrom]
    split
    · rename_i hnone
      refine iff_of_false List.not_mem_nil ?_
      rintro ⟨hi, hhead, -⟩
      have hlt := hends p j hhead
      rw [searchFrom_eq_none hnone hi (by omega)] at hhead
      cases hhead
    · rename_i q e hsome
      obtain ⟨hle, hlt, hhead, hbefore⟩ := searchFrom_eq_some hsome
      have hqe := hends q e hhead
      have hq : ¬Swallowed ends q := by
        intro hswallowed
        obtain ⟨q', hq', ⟨j', hj', hlt'⟩, hnot⟩ := swallowed_iff.mp hswallowed
        rcases Nat.lt_or_ge q' i with h | h
        · have := hfree q' h j' hj' hnot
          omega
        · rw [hbefore q' h hq'] at hj'
          cases hj'
      -- the loop goes on at `e`, and what begins before `e` and is reported ends before it
      have hfree' : ∀ q' < e, ∀ j', (ends q').head? = some j' → ¬Swallowed ends q' → j' ≤ e := by
        intro q' hq' j' hj' hnot
        rcases Nat.lt_trichotomy q' q with h | rfl | h
        · rcases Nat.lt_or_ge q' i with h' | h'
          · have := hfree q' h' j' hj' hnot
            omega
          · rw [hbefore q' h' h] at hj'
            cases hj'
        · rw [hhead] at hj'
          exact (Option.some.inj hj').ge
        · exact absurd (swallowed_iff.mpr ⟨q, h, ⟨e, hhead, hq'⟩, hq⟩) hnot
      rw [List.mem_cons, if_neg (by omega), ih (by omega) hfree']
      constructor
      · rintro (h | ⟨he, hp, hnot⟩)
        · cases h
          exact ⟨hle, hhead, hq⟩
        · exact ⟨by omega, hp, hnot⟩
      · rintro ⟨hi, hp, hnot⟩
        rcases Nat.lt_trichotomy p q with h | rfl | h
        · rw [hbefore p hi h] at hp
          cases hp
        · rw [hhead] at hp
          rw [Option.some.inj hp]
          exact .inl rfl
        · rcases Nat.lt_or_ge p e with h' | h'
          · exact absurd (swallowed_iff.mpr ⟨q, h, ⟨e, hhead, h'⟩, hq⟩) hnot
          · exact .inr ⟨h', hp, hnot⟩

/-- **What `findAll` reports**, for an expression whose matches are not empty. -/
theorem mem_findAll_iff (hends : ∀ i j, (ends i).head? = some j → i < j ∧ j ≤ n) {p j : ℕ} :
    (p, j) ∈ findAll ends n ↔ (ends p).head? = some j ∧ ¬Swallowed ends p := by
  rw [findAll, mem_findAllFrom_iff hends (by omega) fun q hq => absurd hq (Nat.not_lt_zero q)]
  exact ⟨fun h => h.2, fun h => ⟨Nat.zero_le p, h⟩⟩

end Search

/-! ## Where a match can end -/

namespace Regex

variable {α : Type} {word : α → Bool} {text : List α}

lemma mem_ends_unit_iff {p : α → Bool} {i j : ℕ} :
    j ∈ ends word text (.unit p) i ↔ (text[i]?).any p = true ∧ j = i + 1 := by
  rw [ends]
  split
  · rename_i h
    rw [List.mem_singleton]
    exact ⟨fun hj => ⟨h, hj⟩, fun hj => hj.2⟩
  · rename_i h
    exact iff_of_false List.not_mem_nil fun hj => h hj.1

lemma mem_ends_boundary_iff {i j : ℕ} : j ∈ ends word text .boundary i ↔
    wordBefore word text i ≠ wordAt word text i ∧ j = i := by
  rw [ends]
  split
  · rename_i h
    rw [List.mem_singleton]
    exact ⟨fun hj => ⟨by simpa using h, hj⟩, fun hj => hj.2⟩
  · rename_i h
    exact iff_of_false List.not_mem_nil fun hj => h (by simpa using hj.1)

lemma mem_ends_seq_iff {r s : Regex α} {i j : ℕ} : j ∈ ends word text (.seq r s) i ↔
    ∃ k ∈ ends word text r i, j ∈ ends word text s k := by
  rw [ends, List.mem_flatMap]

lemma mem_ends_opt_iff {r : Regex α} {i j : ℕ} : j ∈ ends word text (.opt r) i ↔
    j ∈ ends word text r i ∨ j = i := by
  rw [ends, List.mem_append, List.mem_singleton]

/-- One more round of one character. -/
lemma mem_round_unit_iff {p : α → Bool} {f : ℕ → List ℕ} {lo hi : ℕ}
    (ih : ∀ {i j}, j ∈ f i ↔ i + lo ≤ j ∧ j ≤ i + hi ∧
      ∀ k, i ≤ k → k < j → (text[k]?).any p = true) {i j : ℕ} :
    j ∈ (ends word text (.unit p) i).flatMap f ↔
      i + 1 + lo ≤ j ∧ j ≤ i + 1 + hi ∧ ∀ k, i ≤ k → k < j → (text[k]?).any p = true := by
  rw [List.mem_flatMap]
  simp only [mem_ends_unit_iff]
  constructor
  · rintro ⟨k, ⟨hi, rfl⟩, hj⟩
    obtain ⟨hle, hle', hall⟩ := ih.mp hj
    refine ⟨hle, hle', fun k hk hkj => ?_⟩
    rcases Nat.eq_or_lt_of_le hk with rfl | hlt
    · exact hi
    · exact hall k hlt hkj
  · rintro ⟨hle, hle', hall⟩
    exact ⟨i + 1, ⟨hall i le_rfl (by omega), rfl⟩,
      ih.mpr ⟨hle, hle', fun k hk hkj => hall k (by omega) hkj⟩⟩

/-- Up to `extra` rounds of one character each. -/
lemma mem_optRounds_unit_iff {p : α → Bool} {extra i j : ℕ} :
    j ∈ optRounds (ends word text (.unit p)) extra i ↔
      i + 0 ≤ j ∧ j ≤ i + extra ∧ ∀ k, i ≤ k → k < j → (text[k]?).any p = true := by
  induction extra generalizing i j with
  | zero =>
    rw [optRounds, List.mem_singleton]
    constructor
    · rintro rfl
      exact ⟨le_rfl, le_rfl, fun k hk hkj => by omega⟩
    · rintro ⟨hle, hle', -⟩
      omega
  | succ extra ih =>
    rw [optRounds, List.mem_append, mem_round_unit_iff ih, List.mem_singleton]
    constructor
    · rintro (⟨hle, hle', hall⟩ | rfl)
      · exact ⟨by omega, by omega, hall⟩
      · exact ⟨le_rfl, by omega, fun k hk hkj => by omega⟩
    · rintro ⟨hle, hle', hall⟩
      rcases Nat.eq_or_lt_of_le hle with rfl | hlt
      · exact .inr rfl
      · exact .inl ⟨by omega, by omega, hall⟩

/-- Rounds of one character each. -/
lemma mem_rounds_unit_iff {p : α → Bool} {m extra i j : ℕ} :
    j ∈ rounds (ends word text (.unit p)) extra m i ↔
      i + m ≤ j ∧ j ≤ i + (m + extra) ∧ ∀ k, i ≤ k → k < j → (text[k]?).any p = true := by
  induction m generalizing i j with
  | zero =>
    rw [rounds, mem_optRounds_unit_iff, Nat.zero_add]
  | succ m ih =>
    rw [rounds, mem_round_unit_iff ih]
    constructor
    · rintro ⟨hle, hle', hall⟩
      exact ⟨by omega, by omega, hall⟩
    · rintro ⟨hle, hle', hall⟩
      exact ⟨by omega, by omega, hall⟩

/-- `p{m}`. -/
lemma mem_ends_times_iff {p : α → Bool} {m i j : ℕ} :
    j ∈ ends word text (times (.unit p) m) i ↔
      j = i + m ∧ ∀ k, i ≤ k → k < i + m → (text[k]?).any p = true := by
  rw [times, ends, mem_rounds_unit_iff]
  constructor
  · rintro ⟨hle, hle', hall⟩
    obtain rfl : j = i + m := by omega
    exact ⟨rfl, hall⟩
  · rintro ⟨rfl, hall⟩
    exact ⟨le_rfl, by omega, hall⟩

end Regex

end GovAI
