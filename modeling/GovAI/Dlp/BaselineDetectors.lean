import GovAI.Dlp.Actions
import GovAI.Library.DecimalFields
import GovAI.Library.MaskedNumber

/-!
# The detectors for CPF and CNPJ

`detectCpf` and `detectCnpj` of `packages/dlp-br/src/baseline-detectors.ts`: a search with the pattern
of the number, and the check digits of what was found.  The patterns are masks.  Two CPF candidates
never overlap, so every CPF is reported.  Two CNPJ candidates can overlap, after two or after twelve
characters of the earlier one, and then the later one is lost, whatever the check digits of the
earlier one are (`cpf_cnpj_complete_iff`).
-/

namespace GovAI

open Regex

/-! ## Characters -/

/-- `[0-9A-Z]`. -/
def isUpperAlnumUnit (u : UInt16) : Bool := isDigitUnit u || (65 ≤ u.toNat && u.toNat ≤ 90)

/-- `[0-9A-Za-z]`. -/
def isAlnumUnit (u : UInt16) : Bool := isUpperAlnumUnit u || (97 ≤ u.toNat && u.toNat ≤ 122)

/-- `\w`. -/
def isWordUnit (u : UInt16) : Bool := isAlnumUnit u || u = asciiUnit '_'

/-- `toUpperCase` of a letter or a digit. -/
def upperUnit (u : UInt16) : UInt16 :=
  if 97 ≤ u.toNat && u.toNat ≤ 122 then UInt16.ofNat (u.toNat - 32) else u

/-! ## The patterns -/

/-- `CPF_RE`. -/
def cpfRe : Regex UInt16 :=
  .concat .boundary
    [.times (.unit isDigitUnit) 3, .opt (.unit (· = asciiUnit '.')),
      .times (.unit isDigitUnit) 3, .opt (.unit (· = asciiUnit '.')),
      .times (.unit isDigitUnit) 3, .opt (.unit (· = asciiUnit '-')),
      .times (.unit isDigitUnit) 2, .boundary]

/-- `CNPJ_RE`. -/
def cnpjRe : Regex UInt16 :=
  .concat .boundary
    [.times (.unit isUpperAlnumUnit) 2, .opt (.unit (· = asciiUnit '.')),
      .times (.unit isUpperAlnumUnit) 3, .opt (.unit (· = asciiUnit '.')),
      .times (.unit isUpperAlnumUnit) 3, .opt (.unit (· = asciiUnit '/')),
      .times (.unit isUpperAlnumUnit) 4, .opt (.unit (· = asciiUnit '-')),
      .times (.unit isDigitUnit) 2, .boundary]

/-- Eleven digits with the standard dots and hyphen. -/
def cpfMask : Mask UInt16 where
  size := 3
  isChar := isDigitUnit
  rest := [⟨(· = asciiUnit '.'), 3, isDigitUnit⟩, ⟨(· = asciiUnit '.'), 3, isDigitUnit⟩,
    ⟨(· = asciiUnit '-'), 2, isDigitUnit⟩]

/-- Twelve characters and two digits with the standard dots, slash and hyphen. -/
def cnpjMask : Mask UInt16 where
  size := 2
  isChar := isUpperAlnumUnit
  rest := [⟨(· = asciiUnit '.'), 3, isUpperAlnumUnit⟩, ⟨(· = asciiUnit '.'), 3, isUpperAlnumUnit⟩,
    ⟨(· = asciiUnit '/'), 4, isUpperAlnumUnit⟩, ⟨(· = asciiUnit '-'), 2, isDigitUnit⟩]

lemma cpfRe_eq : cpfRe = cpfMask.regex := rfl

lemma cnpjRe_eq : cnpjRe = cnpjMask.regex := rfl

lemma isWordUnit_of_isDigitUnit (u : UInt16) (h : isDigitUnit u = true) : isWordUnit u = true := by
  simp [isWordUnit, isAlnumUnit, isUpperAlnumUnit, h]

lemma isWordUnit_of_isUpperAlnumUnit (u : UInt16) (h : isUpperAlnumUnit u = true) :
    isWordUnit u = true := by
  simp [isWordUnit, isAlnumUnit, h]

/-- A separator is no word character. -/
lemma not_isWordUnit_sep {c : Char} (hc : isWordUnit (asciiUnit c) = false) (u : UInt16)
    (h : decide (u = asciiUnit c) = true) : isWordUnit u = false := by
  rwa [of_decide_eq_true h]

lemma cpfMask_proper : cpfMask.Proper isWordUnit := by
  refine ⟨by decide, isWordUnit_of_isDigitUnit, ?_⟩
  simp only [cpfMask, List.forall_mem_cons, List.not_mem_nil, false_imp_iff, implies_true, and_true]
  exact ⟨⟨by decide, isWordUnit_of_isDigitUnit, not_isWordUnit_sep (by decide)⟩,
    ⟨by decide, isWordUnit_of_isDigitUnit, not_isWordUnit_sep (by decide)⟩,
    by decide, isWordUnit_of_isDigitUnit, not_isWordUnit_sep (by decide)⟩

lemma cnpjMask_proper : cnpjMask.Proper isWordUnit := by
  refine ⟨by decide, isWordUnit_of_isUpperAlnumUnit, ?_⟩
  simp only [cnpjMask, List.forall_mem_cons, List.not_mem_nil, false_imp_iff, implies_true, and_true]
  exact ⟨⟨by decide, isWordUnit_of_isUpperAlnumUnit, not_isWordUnit_sep (by decide)⟩,
    ⟨by decide, isWordUnit_of_isUpperAlnumUnit, not_isWordUnit_sep (by decide)⟩,
    ⟨by decide, isWordUnit_of_isUpperAlnumUnit, not_isWordUnit_sep (by decide)⟩,
    by decide, isWordUnit_of_isDigitUnit, not_isWordUnit_sep (by decide)⟩

/-! ## The check digits -/

/-- `digits`. -/
def digits (s : JsString) : JsString := s.filter isDigitUnit

/-- All units of a text are the same. -/
def allSame (s : JsString) : Bool := s.all fun u => s.head? = some u

/-- A check digit of a CPF over the first `n` digits. -/
def cpfCheckDigit (ds : List ℕ) (n : ℕ) : ℕ :=
  let sum := ((List.range n).map fun i => ds.getD i 0 * (n + 1 - i)).sum
  if sum * 10 % 11 = 10 then 0 else sum * 10 % 11

/-- `isValidCpf`. -/
def isValidCpf (raw : JsString) : Bool :=
  let d := digits raw
  let ds := d.map fun u => u.toNat - 48
  d.length = 11 && !allSame d && ds[9]? = some (cpfCheckDigit ds 9) &&
    ds[10]? = some (cpfCheckDigit ds 10)

/-- A check digit of a CNPJ with its weights. -/
def cnpjCheckDigit (vals weights : List ℕ) : ℕ :=
  let sum := (List.zipWith (· * ·) vals weights).sum
  if sum % 11 < 2 then 0 else 11 - sum % 11

/-- `isValidCnpj`. -/
def isValidCnpj (raw : JsString) : Bool :=
  let s := (raw.filter isAlnumUnit).map upperUnit
  let vals := s.map fun u => u.toNat - 48
  s.length = 14 && (s.take 12).all isUpperAlnumUnit && (s.drop 12).all isDigitUnit && !allSame s &&
    vals[12]? = some (cnpjCheckDigit vals [5, 4, 3, 2, 9, 8, 7, 6, 5, 4, 3, 2]) &&
      vals[13]? = some (cnpjCheckDigit vals [6, 5, 4, 3, 2, 9, 8, 7, 6, 5, 4, 3, 2])

/-! ## The detectors -/

/-- The units of a text from `i` to `j`. -/
def unitSlice (text : JsString) (i j : ℕ) : JsString := (text.drop i).take (j - i)

/-- A search with a pattern, and a filter on what was found. -/
def detectWith (detector : String) (re : Regex UInt16) (isValid : JsString → Bool)
    (text : JsString) : List DetectorFinding :=
  ((findAll (re.ends isWordUnit text) text.length).filter fun m =>
    isValid (unitSlice text m.1 m.2)).map fun m =>
      { detector := jsString detector
        matched := unitSlice text m.1 m.2
        index := m.1
        length := m.2 - m.1 }

/-- `detectCpf`. -/
def detectCpf (text : JsString) : List DetectorFinding := detectWith "cpf" cpfRe isValidCpf text

/-- `detectCnpj`. -/
def detectCnpj (text : JsString) : List DetectorFinding := detectWith "cnpj" cnpjRe isValidCnpj text

/-! ## Completeness -/

/-- A text contains a valid number at a position, with no word character at its borders. -/
def ValidAt (mask : Mask UInt16) (isValid : JsString → Bool) (text : JsString) (p : ℕ)
    (s : JsString) : Prop :=
  mask.Text s ∧ isValid s = true ∧ ∃ a b, text = a ++ (s ++ b) ∧ a.length = p ∧
    a.getLast?.any isWordUnit = false ∧ b.head?.any isWordUnit = false

/-- A CPF at a position. -/
def CpfAt (text : JsString) (p : ℕ) (s : JsString) : Prop := ValidAt cpfMask isValidCpf text p s

/-- A CNPJ at a position. -/
def CnpjAt (text : JsString) (p : ℕ) (s : JsString) : Prop := ValidAt cnpjMask isValidCnpj text p s

section Complete

variable {mask : Mask UInt16} {isValid : JsString → Bool} {text s : JsString} {p : ℕ}

lemma ValidAt.mem_ends (hmask : mask.Proper isWordUnit) (h : ValidAt mask isValid text p s) :
    p + s.length ∈ mask.regex.ends isWordUnit text p := by
  obtain ⟨hs, -, a, b, rfl, rfl, hbefore, hafter⟩ := h
  exact Mask.matched_of_text hmask hs hbefore hafter

lemma ValidAt.unitSlice (h : ValidAt mask isValid text p s) :
    GovAI.unitSlice text p (p + s.length) = s := by
  obtain ⟨-, -, a, b, rfl, rfl, -, -⟩ := h
  rw [GovAI.unitSlice, Nat.add_sub_cancel_left, List.drop_left, List.take_left]

/-- **A valid number is reported exactly when its position is not swallowed.** -/
lemma ValidAt.mem_detectWith_iff (hmask : mask.Proper isWordUnit) (detector : String)
    (h : ValidAt mask isValid text p s) :
    (⟨jsString detector, s, p, s.length⟩ : DetectorFinding) ∈
        detectWith detector mask.regex isValid text ↔
      ¬Swallowed (mask.regex.ends isWordUnit text) p := by
  have hends : ∀ i j, (mask.regex.ends isWordUnit text i).head? = some j →
      i < j ∧ j ≤ text.length := fun i j hj => (Mask.matched_of_head? hmask hj).lt
  have hmem : (p, p + s.length) ∈ findAll (mask.regex.ends isWordUnit text) text.length ↔
      ¬Swallowed (mask.regex.ends isWordUnit text) p := by
    rw [mem_findAll_iff hends, Mask.head?_ends hmask (h.mem_ends hmask)]
    simp
  rw [← hmem]
  simp only [detectWith, List.mem_map, List.mem_filter]
  constructor
  · rintro ⟨⟨i, j⟩, ⟨hij, -⟩, heq⟩
    have hi : i = p := congrArg DetectorFinding.index heq
    have hj : j - i = s.length := congrArg DetectorFinding.length heq
    have hlt := hends i j ((mem_findAll_iff hends).mp hij).1
    obtain rfl : j = p + s.length := by omega
    rwa [hi] at hij
  · intro hin
    refine ⟨_, ⟨hin, ?_⟩, ?_⟩
    · rw [h.unitSlice]
      exact h.2.1
    · rw [h.unitSlice, Nat.add_sub_cancel_left]

end Complete

/-- **CPF and CNPJ detection.**  Every CPF is reported.  Every CNPJ is reported exactly when none of
them begins inside an earlier candidate, where a candidate that itself begins inside an earlier one
does not count. -/
theorem cpf_cnpj_complete_iff (text : JsString) :
    ((∀ p s, CpfAt text p s →
        (⟨jsString "cpf", s, p, s.length⟩ : DetectorFinding) ∈ detectCpf text) ∧
      ∀ p s, CnpjAt text p s →
        (⟨jsString "cnpj", s, p, s.length⟩ : DetectorFinding) ∈ detectCnpj text) ↔
      ∀ p s, CnpjAt text p s → ¬Swallowed (cnpjRe.ends isWordUnit text) p := by
  have hcpf : ∀ p s, CpfAt text p s →
      (⟨jsString "cpf", s, p, s.length⟩ : DetectorFinding) ∈ detectCpf text := by
    intro p s h
    refine (ValidAt.mem_detectWith_iff cpfMask_proper "cpf" h).mpr ?_
    exact Mask.not_swallowed cpfMask_proper (by decide) (h.mem_ends cpfMask_proper)
  refine (and_iff_right hcpf).trans ?_
  exact forall₂_congr fun p s => imp_congr_right fun h =>
    ValidAt.mem_detectWith_iff cnpjMask_proper "cnpj" h

/-! ## A CNPJ that ordinary letters swallow -/

/-- A valid CNPJ after an abbreviation and a dot. -/
def swallowedCnpjText : JsString := jsString "SP.112223330001-81"

lemma swallowedCnpj_validAt : CnpjAt swallowedCnpjText 3 (jsString "112223330001-81") := by
  refine ⟨?_, by decide +kernel, jsString "SP.", [], rfl, rfl, by decide, rfl⟩
  have hall : ∀ {p : UInt16 → Bool} {s : JsString}, s.all p = true → ∀ c ∈ s, p c = true :=
    fun h => List.all_eq_true.mp h
  refine ⟨jsString "11", _, rfl, hall (by decide), ?_, rfl⟩
  refine ⟨[], jsString "222", _, .inl rfl, rfl, hall (by decide), ?_, rfl⟩
  refine ⟨[], jsString "333", _, .inl rfl, rfl, hall (by decide), ?_, rfl⟩
  refine ⟨[], jsString "0001", _, .inl rfl, rfl, hall (by decide), ?_, rfl⟩
  exact ⟨jsString "-", jsString "81", [], .inr ⟨_, rfl, by decide⟩, rfl, hall (by decide), rfl, rfl⟩

/-- **A valid CNPJ after two letters and a dot is lost**: the pattern takes the letters for the first
group of a number, and the match is then rejected by its check digits. -/
theorem cnpj_swallowed : ¬ ∀ text p s, CnpjAt text p s →
    (⟨jsString "cnpj", s, p, s.length⟩ : DetectorFinding) ∈ detectCnpj text := by
  intro h
  have hmem := h _ _ _ swallowedCnpj_validAt
  rw [show detectCnpj swallowedCnpjText = [] by decide +kernel] at hmem
  cases hmem

end GovAI
