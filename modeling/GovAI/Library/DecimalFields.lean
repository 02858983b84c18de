import Mathlib.Algebra.Order.Ring.Nat
import Mathlib.Data.List.Induction
import Mathlib.Tactic.Ring

/-!
# Decimal fields of fixed width

Texts of code units in which numbers stand in fields of a fixed number of digits.  A field is read
exactly if it is the numeral of its value (`readDigits_eq_some_iff`).
-/

namespace GovAI

/-- The unit is a decimal digit. -/
def isDigitUnit (u : UInt16) : Bool := 48 ≤ u.toNat && u.toNat ≤ 57

/-- The unit of a digit. -/
def digitUnit (d : ℕ) : UInt16 := UInt16.ofNat (48 + d)

/-- The number of a list of digits. -/
def decimalValue (s : List UInt16) : ℕ := s.foldl (fun n u => 10 * n + (u.toNat - 48)) 0

/-- The numeral with a fixed number of digits. -/
def fixedDigits : ℕ → ℕ → List UInt16
  | 0, _ => []
  | n + 1, v => fixedDigits n (v / 10) ++ [digitUnit (v % 10)]

/-- Read a field of `n` digits. -/
def readDigits (n : ℕ) (s : List UInt16) : Option (ℕ × List UInt16) :=
  if (s.take n).length = n ∧ (s.take n).all isDigitUnit then
    some (decimalValue (s.take n), s.drop n)
  else none

/-- The unit of a character below `2 ^ 16`. -/
def asciiUnit (c : Char) : UInt16 := UInt16.ofNat c.toNat

/-- Read a character. -/
def readUnit (c : Char) : List UInt16 → Option (List UInt16)
  | [] => none
  | u :: s => if u = asciiUnit c then some s else none

/-- Read a character and a field. -/
def readField (c : Char) (n : ℕ) (s : List UInt16) : Option (ℕ × List UInt16) :=
  (readUnit c s).bind (readDigits n)

lemma toNat_digitUnit {d : ℕ} (hd : d < 10) : (digitUnit d).toNat = 48 + d :=
  UInt16.toNat_ofNat_of_lt' (by change 48 + d < 65536; omega)

lemma isDigitUnit_digitUnit {d : ℕ} (hd : d < 10) : isDigitUnit (digitUnit d) = true := by
  rw [isDigitUnit, toNat_digitUnit hd]
  simp
  omega

lemma digitUnit_of_isDigitUnit {u : UInt16} (h : isDigitUnit u = true) :
    digitUnit (u.toNat - 48) = u ∧ u.toNat - 48 < 10 := by
  rw [isDigitUnit, Bool.and_eq_true, decide_eq_true_iff, decide_eq_true_iff] at h
  refine ⟨?_, by omega⟩
  rw [digitUnit, show 48 + (u.toNat - 48) = u.toNat by omega, UInt16.ofNat_toNat]

@[simp] lemma length_fixedDigits (n v : ℕ) : (fixedDigits n v).length = n := by
  induction n generalizing v with
  | zero => rfl
  | succ n ih => rw [fixedDigits, List.length_append, ih, List.length_singleton]

lemma fixedDigits_digits (n v : ℕ) : ∀ u ∈ fixedDigits n v, isDigitUnit u = true := by
  induction n generalizing v with
  | zero => exact List.forall_mem_nil _
  | succ n ih =>
    rw [fixedDigits, List.forall_mem_append]
    refine ⟨ih _, fun u hu => ?_⟩
    rw [List.mem_singleton.mp hu]
    exact isDigitUnit_digitUnit (Nat.mod_lt _ (by decide))

lemma decimalValue_append_singleton (s : List UInt16) (u : UInt16) :
    decimalValue (s ++ [u]) = 10 * decimalValue s + (u.toNat - 48) := by
  rw [decimalValue, List.foldl_append]
  rfl

/-- The numeral of a number is read as this number. -/
lemma decimalValue_fixedDigits {n v : ℕ} (hv : v < 10 ^ n) : decimalValue (fixedDigits n v) = v := by
  induction n generalizing v with
  | zero =>
    rw [pow_zero, Nat.lt_one_iff] at hv
    rw [hv]
    rfl
  | succ n ih =>
    have hdiv : v / 10 < 10 ^ n := by
      rw [pow_succ] at hv
      omega
    rw [fixedDigits, decimalValue_append_singleton, ih hdiv, toNat_digitUnit (Nat.mod_lt _ (by decide))]
    omega

/-- Digits are the numeral of their number. -/
lemma fixedDigits_decimalValue {s : List UInt16} (hs : ∀ u ∈ s, isDigitUnit u = true) :
    fixedDigits s.length (decimalValue s) = s ∧ decimalValue s < 10 ^ s.length := by
  induction s using List.reverseRecOn with
  | nil => exact ⟨rfl, by decide⟩
  | append_singleton s u ih =>
    rw [List.forall_mem_append] at hs
    obtain ⟨hinit, hlast⟩ := hs
    obtain ⟨heq, hlt⟩ := ih hinit
    obtain ⟨hunit, hdigit⟩ := digitUnit_of_isDigitUnit (hlast u (List.mem_singleton_self u))
    have hlength : (s ++ [u]).length = s.length + 1 := by rw [List.length_append]; rfl
    rw [hlength, decimalValue_append_singleton, fixedDigits]
    have hdiv : (10 * decimalValue s + (u.toNat - 48)) / 10 = decimalValue s := by omega
    have hmod : (10 * decimalValue s + (u.toNat - 48)) % 10 = u.toNat - 48 := by omega
    rw [hdiv, hmod, heq, hunit, pow_succ]
    exact ⟨rfl, by omega⟩

/-- **A field is read exactly if it is a numeral.** -/
theorem readDigits_eq_some_iff {n v : ℕ} {s rest : List UInt16} :
    readDigits n s = some (v, rest) ↔ v < 10 ^ n ∧ s = fixedDigits n v ++ rest := by
  unfold readDigits
  constructor
  · intro h
    split at h
    · rename_i hfield
      obtain ⟨hlength, hdigits⟩ := hfield
      obtain ⟨rfl, rfl⟩ := Prod.mk.inj (Option.some.inj h)
      obtain ⟨heq, hlt⟩ := fixedDigits_decimalValue (List.all_eq_true.mp hdigits)
      rw [hlength] at heq hlt
      exact ⟨hlt, by rw [heq, List.take_append_drop]⟩
    · cases h
  · rintro ⟨hv, rfl⟩
    have htake : (fixedDigits n v ++ rest).take n = fixedDigits n v := by
      rw [List.take_append_of_le_length (length_fixedDigits n v).ge,
        List.take_of_length_le (length_fixedDigits n v).le]
    have hdrop : (fixedDigits n v ++ rest).drop n = rest := List.drop_left' (length_fixedDigits n v)
    rw [htake, hdrop, if_pos ⟨length_fixedDigits n v, List.all_eq_true.mpr (fixedDigits_digits n v)⟩,
      decimalValue_fixedDigits hv]

lemma readUnit_eq_some_iff {c : Char} {s rest : List UInt16} :
    readUnit c s = some rest ↔ s = asciiUnit c :: rest := by
  cases s with
  | nil => simp [readUnit]
  | cons u s =>
    rw [readUnit]
    split
    · rename_i h
      simp [h]
    · rename_i h
      simp [h]

lemma readField_eq_some_iff {c : Char} {n v : ℕ} {s rest : List UInt16} :
    readField c n s = some (v, rest) ↔
      v < 10 ^ n ∧ s = asciiUnit c :: (fixedDigits n v ++ rest) := by
  rw [readField, Option.bind_eq_some_iff]
  constructor
  · rintro ⟨s', hunit, hdigits⟩
    obtain ⟨hv, rfl⟩ := readDigits_eq_some_iff.mp hdigits
    exact ⟨hv, readUnit_eq_some_iff.mp hunit⟩
  · rintro ⟨hv, rfl⟩
    exact ⟨_, readUnit_eq_some_iff.mpr rfl, readDigits_eq_some_iff.mpr ⟨hv, rfl⟩⟩

/-- A field in front of a rest. -/
lemma readField_text {n v : ℕ} (hv : v < 10 ^ n) (c : Char) (rest : List UInt16) :
    readField c n (asciiUnit c :: (fixedDigits n v ++ rest)) = some (v, rest) :=
  readField_eq_some_iff.mpr ⟨hv, rfl⟩

end GovAI
