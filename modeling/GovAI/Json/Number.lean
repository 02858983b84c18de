import GovAI.Json.Parse
import Mathlib.Tactic.SplitIfs

/-!
# Printed numbers

The text of a number is a numeral of the JSON grammar, from which the scanner recovers the parts.
Two numbers with the same parts are equal, so two numbers with the same text are.
-/

namespace GovAI

/-! ## The scanner on a well-formed numeral -/

/-- A nonempty list of digits. -/
def DigitList (ds : List Char) : Prop := ds ≠ [] ∧ ∀ c ∈ ds, c.isDigit = true

/-- The text does not go on with a digit. -/
def NoDigitHead (cs : List Char) : Prop := ∀ c ∈ cs.head?, c.isDigit = false

/-- What follows a value: the end of the text, or the next token of an array or an object. -/
def Delimited (cs : List Char) : Prop := ∀ c ∈ cs.head?, c = ',' ∨ c = ']' ∨ c = '\x7d'

/-- The parts have the form that the grammar of JSON asks for; the letter of an exponent is `e`,
and the exponent is signed. -/
structure Numeral.WellFormed (x : Numeral) : Prop where
  /-- The sign is absent or a minus sign. -/
  sign_form : x.sign = [] ∨ x.sign = ['-']
  /-- The integer part is `0` or begins with another digit. -/
  int_form : DigitList x.int ∧ (x.int.head? = some '0' → x.int = ['0'])
  /-- The fraction is absent or has a digit. -/
  frac_form : x.frac = [] ∨ ∃ ds, x.frac = '.' :: ds ∧ DigitList ds
  /-- The exponent is absent or has a sign and a digit. -/
  exp_form : x.exp = [] ∨
    ∃ sign ds, x.exp = 'e' :: sign :: ds ∧ (sign = '-' ∨ sign = '+') ∧ DigitList ds

/-- Digits are scanned up to the first other character. -/
lemma scanDigits_append {ds cs : List Char} (hds : DigitList ds) (hcs : NoDigitHead cs) :
    scanDigits (ds ++ cs) = some (ds, cs) := by
  have htake : cs.takeWhile Char.isDigit = [] := by
    cases cs with
    | nil => rfl
    | cons c cs => simp [hcs c rfl]
  have hdrop : cs.dropWhile Char.isDigit = cs := by
    cases cs with
    | nil => rfl
    | cons c cs => simp [hcs c rfl]
  rw [scanDigits, List.takeWhile_append_of_pos hds.2, List.dropWhile_append_of_pos hds.2, htake,
    hdrop, List.append_nil, if_neg hds.1]

/-- The text does not go on with a character that could continue a numeral. -/
def EndsNumeral (cs : List Char) : Prop :=
  ∀ c ∈ cs.head?, c.isDigit = false ∧ c ≠ '.' ∧ c ≠ 'e' ∧ c ≠ 'E'

/-- A delimiter ends a numeral. -/
lemma Delimited.endsNumeral {cs : List Char} (h : Delimited cs) : EndsNumeral cs := by
  intro c hc
  rcases h c hc with rfl | rfl | rfl <;> exact ⟨rfl, by decide, by decide, by decide⟩

/-- What ends a numeral is no digit. -/
lemma EndsNumeral.noDigitHead {cs : List Char} (h : EndsNumeral cs) : NoDigitHead cs :=
  fun c hc => (h c hc).1

/-- The integer part is scanned. -/
lemma scanInteger_append {ds cs : List Char} (hds : DigitList ds)
    (hzero : ds.head? = some '0' → ds = ['0']) (hcs : NoDigitHead cs) :
    scanInteger (ds ++ cs) = some (ds, cs) := by
  rcases ds with _ | ⟨d, ds⟩
  · exact absurd rfl hds.1
  · by_cases hd : d = '0'
    · subst hd
      obtain rfl : ds = [] := by simpa using hzero rfl
      rfl
    · have := scanDigits_append hds hcs
      rw [List.cons_append] at this ⊢
      rw [scanInteger, this]
      rintro cs' h
      exact hd (List.cons.inj h).1

/-- The fraction is scanned. -/
lemma scanFraction_append {frac cs : List Char}
    (hfrac : frac = [] ∨ ∃ ds, frac = '.' :: ds ∧ DigitList ds) (hcs : NoDigitHead cs)
    (hdot : cs.head? ≠ some '.') : scanFraction (frac ++ cs) = some (frac, cs) := by
  rcases hfrac with rfl | ⟨ds, rfl, hds⟩
  · rw [List.nil_append, scanFraction]
    rintro cs' rfl
    exact hdot rfl
  · simp [scanFraction, scanDigits_append hds hcs]

/-- The exponent is scanned. -/
lemma scanExponent_append {exp cs : List Char}
    (hexp : exp = [] ∨
      ∃ sign ds, exp = 'e' :: sign :: ds ∧ (sign = '-' ∨ sign = '+') ∧ DigitList ds)
    (hcs : EndsNumeral cs) : scanExponent (exp ++ cs) = some (exp, cs) := by
  rcases hexp with rfl | ⟨sign, ds, rfl, hsign, hds⟩
  · rw [List.nil_append, scanExponent]
    · rintro cs' rfl
      exact (hcs 'e' rfl).2.2.1 rfl
    · rintro cs' rfl
      exact (hcs 'E' rfl).2.2.2 rfl
  · have hsignScan : scanExponentSign (sign :: (ds ++ cs)) = ([sign], ds ++ cs) := by
      rcases hsign with rfl | rfl <;> rfl
    simp [scanExponent, hsignScan, scanDigits_append hds hcs.noDigitHead]

/-- **A well-formed numeral is scanned, and its parts are recovered.** -/
theorem scanNumber_text {x : Numeral} (hx : x.WellFormed) {cs : List Char} (hcs : EndsNumeral cs) :
    scanNumber (x.text ++ cs) = some (x, cs) := by
  obtain ⟨sign, int, frac, exp⟩ := x
  obtain ⟨hsign, ⟨hint, hzero⟩, hfrac, hexp⟩ := hx
  dsimp only at hsign hint hzero hfrac hexp
  have hexpHead : NoDigitHead (exp ++ cs) ∧ (exp ++ cs).head? ≠ some '.' := by
    rcases hexp with rfl | ⟨s, ds, rfl, -⟩
    · refine ⟨hcs.noDigitHead, ?_⟩
      intro h
      exact (hcs '.' h).2.1 rfl
    · exact ⟨by simp [NoDigitHead], by simp⟩
  have hfracHead : NoDigitHead (frac ++ (exp ++ cs)) := by
    rcases hfrac with rfl | ⟨ds, rfl, -⟩
    · exact hexpHead.1
    · simp [NoDigitHead]
  have hsignScan : scanSign (sign ++ (int ++ (frac ++ (exp ++ cs)))) =
      (sign, int ++ (frac ++ (exp ++ cs))) := by
    rcases hsign with rfl | rfl
    · obtain ⟨d, ds, rfl⟩ := List.exists_cons_of_ne_nil hint.1
      have hd : d.isDigit = true := hint.2 d (by simp)
      rw [List.nil_append, List.cons_append, scanSign]
      rintro cs' h
      rw [(List.cons.inj h).1] at hd
      exact absurd hd (by decide)
    · rfl
  simp only [scanNumber, Numeral.text, List.append_assoc, hsignScan,
    scanInteger_append hint hzero hfracHead, scanFraction_append hfrac hexpHead.1 hexpHead.2,
    scanExponent_append hexp hcs, Option.bind_eq_bind, Option.bind_some, Option.pure_def]

/-! ## The numeral that is printed -/

/-- The decimal digits of a number form a list of digits. -/
lemma digitList_toDigits (n : ℕ) : DigitList (Nat.toDigits 10 n) :=
  ⟨Nat.toDigits_ne_nil, fun _ hc => Nat.isDigit_of_mem_toDigits (by omega) (by omega) hc⟩

/-- Different numbers have different digits. -/
lemma toDigits_injective {m n : ℕ} (h : Nat.toDigits 10 m = Nat.toDigits 10 n) : m = n := by
  rw [← Nat.ofDigitChars_ten_toDigits (n := m), h, Nat.ofDigitChars_ten_toDigits]

/-- The digits of a positive number do not begin with `0`. -/
lemma toDigits_head_ne {n : ℕ} (hn : 0 < n) : (Nat.toDigits 10 n).head? ≠ some '0' := by
  induction n using Nat.strong_induction_on with
  | _ n ih =>
    by_cases hlt : n < 10
    · rw [Nat.toDigits_of_lt_base hlt]
      have hdigit : ∀ m < 10, 0 < m → m.digitChar ≠ '0' := by decide
      simpa using hdigit n hlt hn
    · rw [Nat.toDigits_of_base_le (by omega) (by omega), List.head?_append]
      have := ih (n / 10) (by omega) (by omega)
      cases h : (Nat.toDigits 10 (n / 10)).head? with
      | none => exact absurd (List.head?_eq_none_iff.mp h) Nat.toDigits_ne_nil
      | some c => simpa [h] using this

/-- Only zero has a digit list that begins with `0`. -/
lemma toDigits_eq_zero_of_head {n : ℕ} (h : (Nat.toDigits 10 n).head? = some '0') :
    Nat.toDigits 10 n = ['0'] := by
  rcases Nat.eq_zero_or_pos n with rfl | hn
  · rfl
  · exact absurd h (toDigits_head_ne hn)

/-- The parts of the numeral that JavaScript prints for a number. -/
def JsNumber.numeral : JsNumber → Numeral
  | .int i => ⟨if i < 0 then ['-'] else [], Nat.toDigits 10 i.natAbs, [], []⟩
  | .frac neg s n _ =>
    let ds := Nat.toDigits 10 s
    let sign := if neg then ['-'] else []
    if 0 < n ∧ n ≤ 21 then ⟨sign, ds.take n.toNat, '.' :: ds.drop n.toNat, []⟩
    else if -6 < n ∧ n ≤ 0 then ⟨sign, ['0'], '.' :: (List.replicate (-n).toNat '0' ++ ds), []⟩
    else ⟨sign, ds.take 1, if ds.drop 1 = [] then [] else '.' :: ds.drop 1,
      'e' :: (if n - 1 < 0 then '-' else '+') :: Nat.toDigits 10 (n - 1).natAbs⟩

section Frac

variable {neg : Bool} {s : ℕ} {n : ℤ} {hs : s % 10 ≠ 0}

/-- The parts when the point stands among the digits. -/
lemma JsNumber.numeral_point (h : 0 < n ∧ n ≤ 21) :
    (JsNumber.frac neg s n hs).numeral = ⟨if neg then ['-'] else [],
      (Nat.toDigits 10 s).take n.toNat, '.' :: (Nat.toDigits 10 s).drop n.toNat, []⟩ :=
  if_pos h

/-- The parts when the point stands before the digits. -/
lemma JsNumber.numeral_zeros (h : -6 < n ∧ n ≤ 0) :
    (JsNumber.frac neg s n hs).numeral = ⟨if neg then ['-'] else [], ['0'],
      '.' :: (List.replicate (-n).toNat '0' ++ Nat.toDigits 10 s), []⟩ := by
  have h' : ¬ (0 < n ∧ n ≤ 21) := by omega
  simp only [JsNumber.numeral]
  rw [if_neg h', if_pos h]

/-- The parts of the exponential form. -/
lemma JsNumber.numeral_exponent (h₁ : ¬ (0 < n ∧ n ≤ 21)) (h₂ : ¬ (-6 < n ∧ n ≤ 0)) :
    (JsNumber.frac neg s n hs).numeral = ⟨if neg then ['-'] else [],
      (Nat.toDigits 10 s).take 1,
      if (Nat.toDigits 10 s).drop 1 = [] then [] else '.' :: (Nat.toDigits 10 s).drop 1,
      'e' :: (if n - 1 < 0 then '-' else '+') :: Nat.toDigits 10 (n - 1).natAbs⟩ := by
  simp only [JsNumber.numeral]
  rw [if_neg h₁, if_neg h₂]

end Frac

/-- The text of a number is the text of its numeral. -/
lemma numberText_eq_numeral (x : JsNumber) : numberText x = x.numeral.text := by
  cases x with
  | int i => simp [numberText, JsNumber.numeral, Numeral.text]
  | frac neg s n h =>
    simp only [numberText, fracDigits, JsNumber.numeral]
    split_ifs with h₁ h₂ h₃ h₄ <;>
      rcases hds : Nat.toDigits 10 s with _ | ⟨d, _ | ⟨d', ds⟩⟩ <;>
        simp_all [Numeral.text]

/-- The beginning of a digit list. -/
lemma DigitList.take {ds : List Char} (hds : DigitList ds) {k : ℕ} (hk : 0 < k) :
    DigitList (ds.take k) :=
  ⟨by simp [hds.1, hk.ne'], fun _ hc => hds.2 _ (List.mem_of_mem_take hc)⟩

/-- The rest of a digit list. -/
lemma DigitList.drop {ds : List Char} (hds : DigitList ds) {k : ℕ} (hk : k < ds.length) :
    DigitList (ds.drop k) :=
  ⟨by simpa using hk, fun _ hc => hds.2 _ (List.mem_of_mem_drop hc)⟩

/-- The beginning of a list that does not start with `0` is no exception to the form of an integer
part. -/
lemma head_take_ne {ds : List Char} (hds : ds.head? ≠ some '0') (k : ℕ) :
    (ds.take k).head? = some '0' → ds.take k = ['0'] := by
  intro h
  rw [List.head?_take] at h
  split_ifs at h
  exact absurd h hds

/-- **The numeral of a finite number is well formed.** -/
theorem JsonNumber.numeral_wellFormed (x : JsonNumber) : x.1.numeral.WellFormed := by
  obtain ⟨x, hx⟩ := x
  cases x with
  | int i =>
    refine ⟨?_, ⟨digitList_toDigits _, fun h => toDigits_eq_zero_of_head h⟩, .inl rfl, .inl rfl⟩
    by_cases hi : i < 0 <;> simp [JsNumber.numeral, hi]
  | frac neg s n h =>
    have hs : 0 < s := Nat.pos_of_ne_zero (by rintro rfl; simp at h)
    have hds := digitList_toDigits s
    have hhead := toDigits_head_ne hs
    have hlen : 0 < (Nat.toDigits 10 s).length := List.length_pos_of_ne_nil hds.1
    have hsign : (if neg then ['-'] else []) = [] ∨ (if neg then ['-'] else []) = ['-'] := by
      cases neg <;> simp
    simp only [JsNumber.Printed] at hx
    by_cases h₁ : 0 < n ∧ n ≤ 21
    · rw [JsNumber.numeral_point h₁]
      exact ⟨hsign, ⟨hds.take (by omega), head_take_ne hhead _⟩,
        .inr ⟨_, rfl, hds.drop (by omega)⟩, .inl rfl⟩
    by_cases h₂ : -6 < n ∧ n ≤ 0
    · rw [JsNumber.numeral_zeros h₂]
      refine ⟨hsign, ⟨⟨by simp, by simp⟩, fun _ => rfl⟩, .inr ⟨_, rfl, by simp [hds.1], ?_⟩, .inl rfl⟩
      intro c hc
      rcases List.mem_append.mp hc with hc | hc
      · rw [List.eq_of_mem_replicate hc]
        rfl
      · exact hds.2 c hc
    · rw [JsNumber.numeral_exponent h₁ h₂]
      refine ⟨hsign, ⟨hds.take one_pos, head_take_ne hhead _⟩, ?_,
        .inr ⟨_, _, rfl, ?_, digitList_toDigits _⟩⟩
      · by_cases h₃ : (Nat.toDigits 10 s).drop 1 = []
        · exact .inl (if_pos h₃)
        · refine .inr ⟨_, if_neg h₃, hds.drop ?_⟩
          by_contra hshort
          exact h₃ (List.drop_eq_nil_of_le (by omega))
      · by_cases hneg : n - 1 < 0 <;> simp [hneg]

/-- Zeros before a digit list that does not begin with `0` can be told from it. -/
lemma replicate_append_injective {j k : ℕ} {ds es : List Char} (hds : ds.head? ≠ some '0')
    (hes : es.head? ≠ some '0')
    (h : List.replicate j '0' ++ ds = List.replicate k '0' ++ es) : j = k ∧ ds = es := by
  induction j generalizing k with
  | zero =>
    cases k with
    | zero => exact ⟨rfl, h⟩
    | succ k =>
      rw [List.replicate_zero, List.nil_append] at h
      exact absurd (by rw [h]; rfl) hds
  | succ j ih =>
    cases k with
    | zero =>
      rw [List.replicate_zero, List.nil_append] at h
      exact absurd (by rw [← h]; rfl) hes
    | succ k =>
      simp only [List.replicate_succ, List.cons_append, List.cons.injEq, true_and] at h
      obtain ⟨rfl, rfl⟩ := ih h
      exact ⟨rfl, rfl⟩

/-- An integer part and a fraction determine the digits and the place of the point. -/
lemma take_drop_injective {ds es : List Char} {j k : ℕ} (hj : j < ds.length) (hk : k < es.length)
    (htake : ds.take j = es.take k) (hdrop : ds.drop j = es.drop k) : ds = es ∧ j = k := by
  have hall : ds = es := by
    rw [← List.take_append_drop j ds, htake, hdrop, List.take_append_drop]
  have hlen := congrArg List.length htake
  rw [List.length_take, List.length_take] at hlen
  exact ⟨hall, by omega⟩

/-- The letter of a sign determines the sign. -/
lemma sign_injective {p q : Prop} [Decidable p] [Decidable q]
    (h : (if p then '-' else '+') = (if q then '-' else '+')) : p ↔ q := by
  split_ifs at h with hp hq hq <;> simp_all

/-- The sign of a numeral determines the sign of the number. -/
lemma signPart_injective {p q : Prop} [Decidable p] [Decidable q]
    (h : (if p then ['-'] else []) = (if q then ['-'] else [])) : p ↔ q := by
  split_ifs at h with hp hq hq <;> simp_all

/-- Digits, their first one apart, determine the digits. -/
lemma take_one_injective {ds es : List Char} (htake : ds.take 1 = es.take 1)
    (hdrop : (if ds.drop 1 = [] then [] else '.' :: ds.drop 1) =
      (if es.drop 1 = [] then [] else '.' :: es.drop 1)) : ds = es := by
  have htail : ds.drop 1 = es.drop 1 := by
    split_ifs at hdrop with h₁ h₂ h₃
    · rw [h₁, h₂]
    · simpa using hdrop
  rw [← List.take_append_drop 1 ds, htake, htail, List.take_append_drop]

/-- Numbers with the same numeral, one of them an integer, are equal. -/
lemma JsNumber.eq_of_int_numeral_eq {i : ℤ} {y : JsNumber}
    (h : (JsNumber.int i).numeral = y.numeral) : JsNumber.int i = y := by
  cases y with
  | int j =>
    simp only [JsNumber.numeral, Numeral.mk.injEq, and_true] at h
    have hsign := signPart_injective h.1
    have habs := toDigits_injective h.2
    exact congrArg JsNumber.int (by omega)
  | frac neg s n hs =>
    simp only [JsNumber.numeral] at h
    split_ifs at h <;> simp at h

/-- Numbers with a fraction or an exponent are equal when their numerals are. -/
lemma JsNumber.eq_of_frac_numeral_eq {neg neg' : Bool} {s s' : ℕ} {n n' : ℤ} {hs : s % 10 ≠ 0}
    {hs' : s' % 10 ≠ 0} (hx : (JsNumber.frac neg s n hs).Printed)
    (hy : (JsNumber.frac neg' s' n' hs').Printed)
    (h : (JsNumber.frac neg s n hs).numeral = (JsNumber.frac neg' s' n' hs').numeral) :
    neg = neg' ∧ s = s' ∧ n = n' := by
  have hpos : 0 < s := Nat.pos_of_ne_zero (by rintro rfl; simp at hs)
  have hpos' : 0 < s' := Nat.pos_of_ne_zero (by rintro rfl; simp at hs')
  have hhead := toDigits_head_ne hpos
  have hhead' := toDigits_head_ne hpos'
  have hzero : ∀ {ds : List Char} {k : ℕ}, ds.head? ≠ some '0' → ds.take k ≠ ['0'] := by
    intro ds k hds h
    refine hds (List.head?_eq_some_iff.mpr ⟨ds.drop k, ?_⟩)
    rw [← List.singleton_append, ← h, List.take_append_drop]
  simp only [JsNumber.Printed] at hx hy
  by_cases h₁ : 0 < n ∧ n ≤ 21
  · rw [numeral_point h₁] at h
    by_cases h₁' : 0 < n' ∧ n' ≤ 21
    · rw [numeral_point h₁'] at h
      simp only [Numeral.mk.injEq, List.cons.injEq, true_and, and_true] at h
      obtain ⟨hsign, htake, hdrop⟩ := h
      obtain ⟨hds, hn⟩ := take_drop_injective (by omega) (by omega) htake hdrop
      exact ⟨by simpa using signPart_injective hsign, toDigits_injective hds, by omega⟩
    by_cases h₂' : -6 < n' ∧ n' ≤ 0
    · rw [numeral_zeros h₂'] at h
      simp only [Numeral.mk.injEq] at h
      exact absurd h.2.1 (hzero hhead)
    · rw [numeral_exponent h₁' h₂'] at h
      simp at h
  by_cases h₂ : -6 < n ∧ n ≤ 0
  · rw [numeral_zeros h₂] at h
    by_cases h₁' : 0 < n' ∧ n' ≤ 21
    · rw [numeral_point h₁'] at h
      simp only [Numeral.mk.injEq] at h
      exact absurd h.2.1.symm (hzero hhead')
    by_cases h₂' : -6 < n' ∧ n' ≤ 0
    · rw [numeral_zeros h₂'] at h
      simp only [Numeral.mk.injEq, List.cons.injEq, true_and, and_true] at h
      obtain ⟨hsign, hdigits⟩ := h
      obtain ⟨hn, hds⟩ := replicate_append_injective hhead hhead' hdigits
      exact ⟨by simpa using signPart_injective hsign, toDigits_injective hds, by omega⟩
    · rw [numeral_exponent h₁' h₂'] at h
      simp at h
  · rw [numeral_exponent h₁ h₂] at h
    by_cases h₁' : 0 < n' ∧ n' ≤ 21
    · rw [numeral_point h₁'] at h
      simp at h
    by_cases h₂' : -6 < n' ∧ n' ≤ 0
    · rw [numeral_zeros h₂'] at h
      simp at h
    · rw [numeral_exponent h₁' h₂'] at h
      simp only [Numeral.mk.injEq, List.cons.injEq, true_and] at h
      obtain ⟨hsign, htake, hdrop, hexp, habs⟩ := h
      have hds := take_one_injective htake hdrop
      have hn := toDigits_injective habs
      have hneg := sign_injective hexp
      exact ⟨by simpa using signPart_injective hsign, toDigits_injective hds, by omega⟩

/-- **Finite numbers with the same numeral are equal.** -/
theorem JsonNumber.numeral_injective {x y : JsonNumber} (h : x.1.numeral = y.1.numeral) :
    x = y := by
  obtain ⟨x, hx⟩ := x
  obtain ⟨y, hy⟩ := y
  refine Subtype.ext ?_
  dsimp only at h ⊢
  cases x with
  | int i => exact JsNumber.eq_of_int_numeral_eq h
  | frac neg s n hs =>
    cases y with
    | int j => exact (JsNumber.eq_of_int_numeral_eq h.symm).symm
    | frac neg' s' n' hs' =>
      obtain ⟨rfl, rfl, rfl⟩ := JsNumber.eq_of_frac_numeral_eq hx hy h
      rfl

/-- **`JSON.stringify` is injective on finite numbers.** -/
theorem numberText_injective {x y : JsonNumber} (h : numberText x.1 = numberText y.1) : x = y := by
  rw [numberText_eq_numeral, numberText_eq_numeral] at h
  have hend : EndsNumeral [] := by simp [EndsNumeral]
  have hx := scanNumber_text x.numeral_wellFormed hend
  have hy := scanNumber_text y.numeral_wellFormed hend
  rw [h, hy] at hx
  exact JsonNumber.numeral_injective (by simpa using hx.symm)

end GovAI
