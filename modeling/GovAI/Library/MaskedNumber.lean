import GovAI.Library.RegexSearch
import Mathlib.Data.List.Induction

/-!
# Numbers written with a mask

Identifiers of a fixed number of characters in groups, with an optional separator between two groups.
The characters are word characters and the separators are not, so a match is known by counting word
characters: it has as many as the mask, and what else it contains stands at one of the `splits`
(`MaskedMatch`).  From this a match has one end only, and two matches overlap only where the mask
allows it (`overlap_split`).
-/

namespace GovAI

open Regex

variable {α : Type}

/-- A group after the first one: its separator, its length and its characters. -/
structure MaskGroup (α : Type) where
  isSep : α → Bool
  size : ℕ
  isChar : α → Bool

/-- A mask: the first group and the other ones. -/
structure Mask (α : Type) where
  size : ℕ
  isChar : α → Bool
  rest : List (MaskGroup α)

namespace MaskGroup

/-- The expressions of groups with their separators, and of the boundary at the end. -/
def regexes : List (MaskGroup α) → List (Regex α)
  | [] => [.boundary]
  | g :: rest => .opt (.unit g.isSep) :: .times (.unit g.isChar) g.size :: regexes rest

/-- The number of characters of groups. -/
def total : List (MaskGroup α) → ℕ
  | [] => 0
  | g :: rest => g.size + total rest

/-- How many characters of the groups may stand before a separator. -/
def splits : List (MaskGroup α) → List ℕ
  | [] => []
  | g :: rest => 0 :: (splits rest).map (g.size + ·)

/-- The text of groups with their separators. -/
def Text : List (MaskGroup α) → List α → Prop
  | [], s => s = []
  | g :: rest, s => ∃ sep chars t, (sep = [] ∨ ∃ c, sep = [c] ∧ g.isSep c = true) ∧
      chars.length = g.size ∧ (∀ c ∈ chars, g.isChar c = true) ∧ Text rest t ∧
        s = sep ++ (chars ++ t)

/-- The characters of groups are word characters, the separators are not, and no group is empty. -/
def Proper (word : α → Bool) (g : MaskGroup α) : Prop :=
  0 < g.size ∧ (∀ c, g.isChar c = true → word c = true) ∧ ∀ c, g.isSep c = true → word c = false

end MaskGroup

namespace Mask

/-- `\b`, the groups, `\b`. -/
def regex (m : Mask α) : Regex α :=
  .concat .boundary (.times (.unit m.isChar) m.size :: MaskGroup.regexes m.rest)

/-- The number of characters. -/
def total (m : Mask α) : ℕ := m.size + MaskGroup.total m.rest

/-- How many characters may stand before a separator. -/
def splits (m : Mask α) : List ℕ := (MaskGroup.splits m.rest).map (m.size + ·)

/-- A text in the shape of the mask. -/
def Text (m : Mask α) (s : List α) : Prop :=
  ∃ chars t, chars.length = m.size ∧ (∀ c ∈ chars, m.isChar c = true) ∧
    MaskGroup.Text m.rest t ∧ s = chars ++ t

/-- The characters are word characters, the separators are not, and no group is empty. -/
def Proper (word : α → Bool) (m : Mask α) : Prop :=
  0 < m.size ∧ (∀ c, m.isChar c = true → word c = true) ∧
    ∀ g ∈ m.rest, MaskGroup.Proper word g

end Mask

/-! ## Counting word characters -/

/-- The number of word characters before a position. -/
def wordCount (word : α → Bool) (text : List α) (i : ℕ) : ℕ := (text.take i).countP word

section Count

variable {word : α → Bool} {text : List α}

lemma wordCount_succ (i : ℕ) : wordCount word text (i + 1) =
    wordCount word text i + if wordAt word text i then 1 else 0 := by
  rw [wordCount, wordCount, List.take_add_one, List.countP_append, wordAt]
  cases text[i]? with
  | none => rfl
  | some c => by_cases h : word c <;> simp [h]

lemma wordCount_le {i j : ℕ} (h : i ≤ j) : wordCount word text i ≤ wordCount word text j := by
  induction j, h using Nat.le_induction with
  | base => exact le_rfl
  | succ j _ ih =>
    rw [wordCount_succ]
    omega

/-- A word character counts. -/
lemma wordCount_lt {i j k : ℕ} (hi : i ≤ k) (hk : k < j) (h : wordAt word text k = true) :
    wordCount word text i < wordCount word text j := by
  have hsucc : wordCount word text (k + 1) = wordCount word text k + 1 := by
    rw [wordCount_succ, h]
    rfl
  have := @wordCount_le _ word text _ _ hi
  have := @wordCount_le _ word text (k + 1) j hk
  omega

/-- Word characters in a row. -/
lemma wordCount_add {i m : ℕ} (h : ∀ k, i ≤ k → k < i + m → wordAt word text k = true) {k : ℕ}
    (hk : k ≤ m) : wordCount word text (i + k) = wordCount word text i + k := by
  induction k with
  | zero => rfl
  | succ k ih =>
    rw [← Nat.add_assoc, wordCount_succ, ih (by omega), h (i + k) (by omega) (by omega)]
    rfl

end Count

/-! ## Matches -/

section Matches

variable {word : α → Bool} {text : List α}

/-- What a match from `i` to `j` is, by counting: `total` word characters, other characters at the
splits, and a word character at its end. -/
structure MaskedMatch (word : α → Bool) (text : List α) (total : ℕ) (splits : List ℕ) (i j : ℕ) :
    Prop where
  count : wordCount word text j = wordCount word text i + total
  sep : ∀ x, i ≤ x → x < j → wordAt word text x = false →
    wordCount word text x - wordCount word text i ∈ splits
  le : i + total ≤ j

/-- Characters at positions. -/
lemma wordAt_of_any {p : α → Bool} (hp : ∀ c, p c = true → word c = true) {k : ℕ}
    (h : (text[k]?).any p = true) : wordAt word text k = true := by
  rw [wordAt]
  cases hk : text[k]? with
  | none => rw [hk] at h; cases h
  | some c => rw [hk] at h; exact hp c h

lemma not_wordAt_of_any {p : α → Bool} (hp : ∀ c, p c = true → word c = false) {k : ℕ}
    (h : (text[k]?).any p = true) : wordAt word text k = false := by
  rw [wordAt]
  cases hk : text[k]? with
  | none => rw [hk] at h; cases h
  | some c => rw [hk] at h; exact hp c h

/-- A group of word characters before a match. -/
lemma MaskedMatch.chars {total : ℕ} {splits : List ℕ} {m i j : ℕ}
    (h : MaskedMatch word text total splits (i + m) j)
    (hchars : ∀ k, i ≤ k → k < i + m → wordAt word text k = true) :
    MaskedMatch word text (m + total) (splits.map (m + ·)) i j := by
  have hcount := @wordCount_add _ word text _ _ hchars _ le_rfl
  refine ⟨?_, fun x hx hxj hnot => ?_, ?_⟩
  · rw [h.count, hcount]
    omega
  · rcases Nat.lt_or_ge x (i + m) with hlt | hge
    · rw [hchars x hx hlt] at hnot
      cases hnot
    · have := @wordCount_le _ word text _ _ hge
      exact List.mem_map.mpr ⟨_, h.sep x hge hxj hnot, by omega⟩
  · have := h.le
    omega

/-- The matches of groups with their separators end at a boundary. -/
lemma maskedMatch_of_groups {groups : List (MaskGroup α)}
    (hgroups : ∀ g ∈ groups, MaskGroup.Proper word g) {r : Regex α} {i j : ℕ}
    (h : j ∈ ends word text (Regex.concat r (MaskGroup.regexes groups)) i) :
    ∃ k ∈ ends word text r i, MaskedMatch word text (MaskGroup.total groups)
      (MaskGroup.splits groups) k j ∧ wordBefore word text j ≠ wordAt word text j := by
  induction groups generalizing r i with
  | nil =>
    obtain ⟨k, hk, hj⟩ := mem_ends_seq_iff.mp h
    obtain ⟨hboundary, rfl⟩ := mem_ends_boundary_iff.mp hj
    exact ⟨j, hk, ⟨rfl, fun x hx hxj => by omega, le_rfl⟩, hboundary⟩
  | cons g rest ih =>
    obtain ⟨hg, hrest⟩ := List.forall_mem_cons.mp hgroups
    obtain ⟨k, hk, hsep⟩ := mem_ends_seq_iff.mp h
    obtain ⟨l, hl, hchars⟩ := mem_ends_seq_iff.mp hsep
    obtain ⟨e, he, hmatch, hboundary⟩ := ih hrest hchars
    obtain ⟨rfl, hall⟩ := mem_ends_times_iff.mp he
    have hwords : ∀ x, l ≤ x → x < l + g.size → wordAt word text x = true := fun x hx hxl =>
      wordAt_of_any hg.2.1 (hall x hx hxl)
    have hgroup := hmatch.chars hwords
    refine ⟨k, hk, ?_, hboundary⟩
    rcases mem_ends_opt_iff.mp hl with hunit | rfl
    · obtain ⟨hc, rfl⟩ := mem_ends_unit_iff.mp hunit
      have hnot := not_wordAt_of_any hg.2.2 hc
      have hcount : wordCount word text (k + 1) = wordCount word text k := by
        rw [wordCount_succ, hnot]
        rfl
      refine ⟨by rw [hgroup.count, hcount]; rfl, fun x hx hxj hx' => ?_, ?_⟩
      · rcases Nat.eq_or_lt_of_le hx with rfl | hlt
        · rw [Nat.sub_self]
          exact List.mem_cons_self
        · have := hgroup.sep x hlt hxj hx'
          rw [hcount] at this
          exact List.mem_cons_of_mem _ this
      · have := hgroup.le
        rw [MaskGroup.total]
        omega
    · exact ⟨hgroup.count, fun x hx hxj hx' => List.mem_cons_of_mem _ (hgroup.sep x hx hxj hx'),
        hgroup.le⟩

/-- The splits of groups come before their last character. -/
lemma MaskGroup.lt_total_of_mem_splits {groups : List (MaskGroup α)}
    (hgroups : ∀ g ∈ groups, MaskGroup.Proper word g) :
    ∀ x ∈ MaskGroup.splits groups, x < MaskGroup.total groups := by
  induction groups with
  | nil => exact fun _ => nofun
  | cons g rest ih =>
    obtain ⟨hg, hrest⟩ := List.forall_mem_cons.mp hgroups
    intro x hx
    rw [MaskGroup.total]
    rcases List.mem_cons.mp hx with rfl | hx
    · have := hg.1
      omega
    · obtain ⟨y, hy, rfl⟩ := List.mem_map.mp hx
      have := ih hrest y hy
      omega

variable {m : Mask α}

/-- A match of a mask: it begins and ends at the border of its word characters. -/
structure Mask.Matched (word : α → Bool) (text : List α) (m : Mask α) (i j : ℕ) : Prop where
  masked : MaskedMatch word text m.total m.splits i j
  first : wordAt word text i = true
  before : wordBefore word text i = false
  last : wordBefore word text j = true
  after : wordAt word text j = false

/-- What the expression of a mask matches. -/
lemma Mask.matched_of_mem_ends (hm : m.Proper word) {i j : ℕ}
    (h : j ∈ ends word text m.regex i) : m.Matched word text i j := by
  obtain ⟨k, hk, hrest⟩ := mem_ends_seq_iff.mp h
  obtain ⟨hboundary, rfl⟩ := mem_ends_boundary_iff.mp hk
  obtain ⟨e, he, hmatch, hend⟩ := maskedMatch_of_groups hm.2.2 hrest
  obtain ⟨rfl, hall⟩ := mem_ends_times_iff.mp he
  have hwords : ∀ x, k ≤ x → x < k + m.size → wordAt word text x = true := fun x hx hxk =>
    wordAt_of_any hm.2.1 (hall x hx hxk)
  have hmasked : MaskedMatch word text m.total m.splits k j := hmatch.chars hwords
  have hfirst : wordAt word text k = true := hwords k le_rfl (by have := hm.1; omega)
  have hlast : wordBefore word text j = true := by
    have hpos : k < j := by
      have := hmasked.le
      have := hm.1
      rw [Mask.total] at *
      omega
    obtain ⟨x, rfl⟩ : ∃ x, j = x + 1 := ⟨j - 1, by omega⟩
    rw [wordBefore, ← Bool.not_eq_false]
    intro hnot
    have hsplit := hmasked.sep x (by omega) (by omega) hnot
    have hcount : wordCount word text (x + 1) = wordCount word text x := by
      rw [wordCount_succ, hnot]
      rfl
    have htotal := hmasked.count
    obtain ⟨y, hy, hyx⟩ := List.mem_map.mp hsplit
    have := MaskGroup.lt_total_of_mem_splits hm.2.2 y hy
    rw [Mask.total] at htotal
    omega
  refine ⟨hmasked, hfirst, ?_, hlast, ?_⟩
  · rw [hfirst] at hboundary
    exact Bool.eq_false_iff.mpr hboundary
  · rw [hlast] at hend
    exact Bool.eq_false_iff.mpr fun h => hend h.symm

namespace Mask.Matched

variable {i i' j j' : ℕ}

/-- The last character of a match. -/
lemma last_eq (h : m.Matched word text i j) : ∃ x, j = x + 1 ∧ wordAt word text x = true := by
  have hlast := h.last
  cases j with
  | zero => cases hlast
  | succ x => exact ⟨x, rfl, hlast⟩

/-- A match ends at one position only. -/
lemma end_unique (h : m.Matched word text i j) (h' : m.Matched word text i j') : j = j' := by
  have hle : ∀ {j j' : ℕ}, m.Matched word text i j → m.Matched word text i j' → ¬j < j' := by
    intro j j' h h' hlt
    obtain ⟨x, rfl, hx⟩ := h'.last_eq
    have : wordCount word text j < wordCount word text (x + 1) :=
      wordCount_lt (Nat.le_of_lt_succ hlt) (Nat.lt_succ_self x) hx
    have := h.masked.count
    have := h'.masked.count
    omega
  exact Nat.le_antisymm (Nat.le_of_not_lt (hle h' h)) (Nat.le_of_not_lt (hle h h'))

/-- A match is not empty and lies in the text. -/
lemma lt (h : m.Matched word text i j) : i < j ∧ j ≤ text.length := by
  obtain ⟨x, rfl, hx⟩ := h.last_eq
  have hle := h.masked.le
  refine ⟨?_, ?_⟩
  · rcases Nat.lt_or_ge i (x + 1) with hlt | hge
    · exact hlt
    · obtain rfl : i = x + 1 := by omega
      have := h.first
      rw [h.after] at this
      cases this
  · rw [wordAt] at hx
    by_contra hnot
    rw [List.getElem?_eq_none (by omega)] at hx
    cases hx

/-- **Two matches overlap at a split of the mask only**: the earlier one has `s` characters before the
later one, and the characters that the later one has in it end at a split again. -/
lemma overlap_split (h : m.Matched word text i j) (h' : m.Matched word text i' j') (hlt : i < i')
    (hin : i' < j) : ∃ s ∈ m.splits, m.total - s ∈ m.splits ∧
      wordCount word text i' = wordCount word text i + s := by
  obtain ⟨x, rfl⟩ : ∃ x, i' = x + 1 := ⟨i' - 1, by omega⟩
  have hnot : wordAt word text x = false := h'.before
  have hsplit := h.masked.sep x (by omega) (by omega) hnot
  have hcount : wordCount word text (x + 1) = wordCount word text x := by
    rw [wordCount_succ, hnot]
    rfl
  have hi := wordCount_lt le_rfl hlt h.first
  have hle := @wordCount_le _ word text i x (by omega)
  have htotal := h.masked.count
  have htotal' := h'.masked.count
  refine ⟨_, hsplit, ?_, by omega⟩
  -- the later match goes on after the earlier one has ended
  have hend : j < j' := by
    by_contra hge
    have := @wordCount_le _ word text j' j (by omega)
    omega
  have := h'.masked.sep j hin.le hend h.after
  rwa [htotal, hcount, show wordCount word text i + m.total - wordCount word text x =
    m.total - (wordCount word text x - wordCount word text i) by omega] at this

end Mask.Matched

end Matches

/-! ## Texts in the shape of a mask -/

section Shape

variable {word : α → Bool}

lemma wordAt_append (a b : List α) : wordAt word (a ++ b) a.length = b.head?.any word := by
  rw [wordAt, List.getElem?_append_right le_rfl, Nat.sub_self, List.head?_eq_getElem?]

lemma wordBefore_append (a b : List α) :
    wordBefore word (a ++ b) a.length = a.getLast?.any word := by
  induction a using List.reverseRecOn with
  | nil => rfl
  | append_singleton a c _ =>
    rw [List.length_append, List.length_singleton, wordBefore, wordAt, List.getElem?_append_left
      (by simp), List.getElem?_concat_length, List.getLast?_concat]

/-- A group of characters is matched where it stands. -/
lemma length_mem_ends_times {p : α → Bool} {a chars b : List α} (hall : ∀ c ∈ chars, p c = true) :
    a.length + chars.length ∈
      ends word (a ++ (chars ++ b)) (.times (.unit p) chars.length) a.length := by
  refine mem_ends_times_iff.mpr ⟨rfl, fun k hk hk' => ?_⟩
  rw [List.getElem?_append_right hk, List.getElem?_append_left (by omega),
    List.getElem?_eq_getElem (by omega)]
  exact hall _ (List.getElem_mem _)

/-- The last character of groups after a word character is a word character. -/
lemma MaskGroup.Text.getLast? {groups : List (MaskGroup α)}
    (hgroups : ∀ g ∈ groups, MaskGroup.Proper word g) {a t : List α}
    (ht : MaskGroup.Text groups t) (ha : a.getLast?.any word = true) :
    (a ++ t).getLast?.any word = true := by
  induction groups generalizing a t with
  | nil =>
    obtain rfl : t = [] := ht
    rwa [List.append_nil]
  | cons g rest ih =>
    obtain ⟨hg, hrest⟩ := List.forall_mem_cons.mp hgroups
    obtain ⟨sep, chars, t, -, hlength, hall, ht, rfl⟩ := ht
    rw [← List.append_assoc, ← List.append_assoc, List.append_assoc]
    rw [← List.append_assoc]
    refine ih hrest ht ?_
    have hne : chars ≠ [] := by
      rintro rfl
      have := hg.1
      rw [← hlength] at this
      exact absurd this (Nat.lt_irrefl 0)
    rw [List.getLast?_append, List.getLast?_eq_some_getLast hne]
    exact hg.2.1 _ (hall _ (List.getLast_mem hne))

/-- Groups are matched where they stand, up to a boundary. -/
lemma MaskGroup.Text.mem_ends {groups : List (MaskGroup α)} {a t b : List α} {r : Regex α} {i : ℕ}
    (ht : MaskGroup.Text groups t) (hr : a.length ∈ ends word (a ++ (t ++ b)) r i)
    (hboundary : wordBefore word (a ++ (t ++ b)) (a.length + t.length) ≠
      wordAt word (a ++ (t ++ b)) (a.length + t.length)) :
    a.length + t.length ∈ ends word (a ++ (t ++ b)) (Regex.concat r (MaskGroup.regexes groups)) i := by
  induction groups generalizing a t r i with
  | nil =>
    obtain rfl : t = [] := ht
    exact mem_ends_seq_iff.mpr ⟨_, hr, mem_ends_boundary_iff.mpr ⟨hboundary, rfl⟩⟩
  | cons g rest ih =>
    obtain ⟨sep, chars, t, hsep, hlength, hall, ht, rfl⟩ := ht
    have htext : a ++ (sep ++ (chars ++ t) ++ b) = (a ++ sep ++ chars) ++ (t ++ b) := by
      simp only [List.append_assoc]
    have hlen : a.length + (sep ++ (chars ++ t)).length = (a ++ sep ++ chars).length + t.length := by
      simp only [List.length_append]
      omega
    have hopt : (a ++ sep).length ∈
        ends word (a ++ (sep ++ (chars ++ t) ++ b)) (.opt (.unit g.isSep)) a.length := by
      rcases hsep with rfl | ⟨c, rfl, hc⟩
      · exact mem_ends_opt_iff.mpr (.inr (by rw [List.append_nil]))
      · refine mem_ends_opt_iff.mpr (.inl (mem_ends_unit_iff.mpr ⟨?_, by simp⟩))
        rw [List.getElem?_append_right le_rfl, Nat.sub_self]
        exact hc
    have hchars : (a ++ sep ++ chars).length ∈ ends word (a ++ (sep ++ (chars ++ t) ++ b))
        (.times (.unit g.isChar) g.size) (a ++ sep).length := by
      have := @length_mem_ends_times _ word g.isChar (a ++ sep) chars (t ++ b) hall
      rw [hlength] at this
      rw [htext, List.append_assoc (a ++ sep), @List.length_append _ (a ++ sep), hlength]
      exact this
    rw [hlen] at hboundary ⊢
    rw [htext] at hboundary hopt hchars hr ⊢
    exact mem_ends_seq_iff.mpr ⟨_, hr, mem_ends_seq_iff.mpr ⟨_, hopt, ih ht hchars hboundary⟩⟩

/-- **A text in the shape of a mask is matched**, if no word character stands at its borders. -/
lemma Mask.matched_of_text {m : Mask α} (hm : m.Proper word) {a s b : List α} (hs : m.Text s)
    (hbefore : a.getLast?.any word = false) (hafter : b.head?.any word = false) :
    a.length + s.length ∈ ends word (a ++ (s ++ b)) m.regex a.length := by
  obtain ⟨chars, t, hlength, hall, ht, rfl⟩ := hs
  have htext : a ++ (chars ++ t ++ b) = (a ++ chars) ++ (t ++ b) := by
    simp only [List.append_assoc]
  have hne : chars ≠ [] := by
    rintro rfl
    have := hm.1
    rw [← hlength] at this
    exact absurd this (Nat.lt_irrefl 0)
  have hfirst : wordAt word (a ++ (chars ++ t ++ b)) a.length = true := by
    rw [wordAt_append]
    cases chars with
    | nil => exact absurd rfl hne
    | cons c chars => exact hm.2.1 c (hall c List.mem_cons_self)
  have hlast : (a ++ chars ++ t).getLast?.any word = true := by
    refine ht.getLast? hm.2.2 ?_
    rw [List.getLast?_append, List.getLast?_eq_some_getLast hne]
    exact hm.2.1 _ (hall _ (List.getLast_mem hne))
  have hend : (a ++ chars).length + t.length = (a ++ chars ++ t).length :=
    List.length_append.symm
  have htimes : (a ++ chars).length ∈ ends word ((a ++ chars) ++ (t ++ b))
      (.times (.unit m.isChar) m.size) a.length := by
    have := @length_mem_ends_times _ word m.isChar a chars (t ++ b) hall
    rw [hlength] at this
    rwa [List.append_assoc, List.length_append, hlength]
  have hboundary : wordBefore word ((a ++ chars) ++ (t ++ b)) ((a ++ chars).length + t.length) ≠
      wordAt word ((a ++ chars) ++ (t ++ b)) ((a ++ chars).length + t.length) := by
    rw [hend, ← List.append_assoc, wordBefore_append, wordAt_append, hlast, hafter]
    exact Bool.noConfusion
  have hlen : a.length + (chars ++ t).length = (a ++ chars).length + t.length := by
    simp only [List.length_append]
    omega
  rw [hlen]
  refine mem_ends_seq_iff.mpr ⟨a.length, mem_ends_boundary_iff.mpr ⟨?_, rfl⟩, ?_⟩
  · rw [hfirst, wordBefore_append, hbefore]
    exact Bool.noConfusion
  · rw [htext]
    exact ht.mem_ends htimes hboundary

/-- The search sees such a text at its position. -/
lemma Mask.head?_ends {m : Mask α} (hm : m.Proper word) {text : List α} {i j : ℕ}
    (h : j ∈ ends word text m.regex i) : (ends word text m.regex i).head? = some j := by
  have hmatched := Mask.matched_of_mem_ends hm h
  cases hends : ends word text m.regex i with
  | nil => rw [hends] at h; cases h
  | cons e rest =>
    have he : e ∈ ends word text m.regex i := by rw [hends]; exact List.mem_cons_self
    rw [List.head?_cons, (Mask.matched_of_mem_ends hm he).end_unique hmatched]

/-- What the search finds at a position is a match. -/
lemma Mask.matched_of_head? {m : Mask α} (hm : m.Proper word) {text : List α} {i j : ℕ}
    (h : (ends word text m.regex i).head? = some j) : m.Matched word text i j :=
  Mask.matched_of_mem_ends hm (List.mem_of_head? h)

/-- **A mask whose matches cannot overlap is always found.** -/
lemma Mask.not_swallowed {m : Mask α} (hm : m.Proper word)
    (hsplits : ∀ s ∈ m.splits, m.total - s ∉ m.splits) {text : List α} {i j : ℕ}
    (h : j ∈ ends word text m.regex i) : ¬Swallowed (ends word text m.regex) i := by
  intro hswallowed
  obtain ⟨q, hq, ⟨e, he, hlt⟩, -⟩ := swallowed_iff.mp hswallowed
  obtain ⟨s, hs, hs', -⟩ :=
    (Mask.matched_of_head? hm he).overlap_split (Mask.matched_of_mem_ends hm h) hq hlt
  exact hsplits s hs hs'

end Shape

end GovAI
