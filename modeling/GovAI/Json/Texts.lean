import GovAI.Audit.Event
import GovAI.Json.Value

/-!
# Texts and what they are written as

A well-formed text is known by its UTF-16 code units, so the string literals of the source are distinct
where their texts are.  It is known by its UTF-8 bytes, and an integer by its decimal numeral.
-/

namespace GovAI

/-- A character has a code unit. -/
lemma utf16Units_ne_nil (c : Char) : utf16Units c ≠ [] := by
  unfold utf16Units
  split <;> exact List.cons_ne_nil _ _

/-- A character is known by its code units, whatever follows. -/
lemma utf16Units_append_inj {c d : Char} {x y : JsString}
    (h : utf16Units c ++ x = utf16Units d ++ y) : c = d ∧ x = y := by
  have hvalid : ∀ c : Char, c.toNat < 0x110000 ∧ ¬(0xD800 ≤ c.toNat ∧ c.toNat < 0xE000) := by
    intro c
    have hc : c.toNat < 0xD800 ∨ 0xDFFF < c.toNat ∧ c.toNat < 0x110000 := c.valid
    omega
  have hcd : c.toNat = d.toNat → c = d := fun h => Char.toNat_inj.mp h
  have hunit : ∀ {m n : ℕ}, UInt16.ofNat m = UInt16.ofNat n → m % 65536 = n % 65536 :=
    fun h => congrArg UInt16.toNat h
  obtain ⟨hc, hc'⟩ := hvalid c
  obtain ⟨hd, hd'⟩ := hvalid d
  unfold utf16Units at h
  split at h <;> split at h <;> simp only [List.cons_append, List.nil_append, List.cons.injEq] at h
  · exact ⟨hcd (by have := hunit h.1; omega), h.2⟩
  · have := hunit h.1
    omega
  · have := hunit h.1
    omega
  · exact ⟨hcd (by have := hunit h.1; have := hunit h.2.1; omega), h.2.2⟩

/-- Distinct texts have distinct code units. -/
@[simp] lemma jsString_inj {s t : String} : jsString s = jsString t ↔ s = t := by
  refine ⟨fun h => String.ext ?_, congrArg jsString⟩
  unfold jsString at h
  generalize s.toList = cs at h
  generalize t.toList = ds at h
  induction cs generalizing ds with
  | nil =>
    cases ds with
    | nil => rfl
    | cons d ds => exact absurd (List.append_eq_nil_iff.mp h.symm).1 (utf16Units_ne_nil d)
  | cons c cs ih =>
    cases ds with
    | nil => exact absurd (List.append_eq_nil_iff.mp h).1 (utf16Units_ne_nil c)
    | cons d ds =>
      obtain ⟨rfl, hrest⟩ := utf16Units_append_inj h
      rw [ih ds hrest]

/-! ## Bytes and numerals -/

/-- The bytes of a text determine it. -/
lemma utf8Bytes_injective : Function.Injective utf8Bytes := by
  intro text text' h
  have hread : ∀ text : List Char, (utf8Bytes text).toByteArray.utf8Decode? = some text.toArray :=
    fun text => List.utf8Decode?_utf8Encode
  have htext := hread text
  rw [h, hread text'] at htext
  simpa using htext.symm

/-- A numeral is made of digits. -/
lemma notMem_toDigits {c : Char} (hc : c.isDigit = false) (n : ℕ) : c ∉ Nat.toDigits 10 n := by
  intro hmem
  rw [Nat.isDigit_of_mem_toDigits (by decide) (by decide) hmem] at hc
  cases hc

lemma toDigits_ten_injective : Function.Injective (Nat.toDigits 10) := by
  intro m n h
  have hread := congrArg (fun digits => Nat.ofDigitChars 10 digits 0) h
  simpa only [Nat.ofDigitChars_ten_toDigits] using hread

/-- The characters of an integer. -/
lemma toList_repr_int (z : ℤ) : (Int.repr z).toList =
    match z with
    | .ofNat n => Nat.toDigits 10 n
    | .negSucc n => '-' :: Nat.toDigits 10 (n + 1) := by
  cases z <;> simp [Int.repr]

/-- An integer is known by its numeral. -/
lemma repr_int_injective {z z' : ℤ} (h : (Int.repr z).toList = (Int.repr z').toList) : z = z' := by
  rw [toList_repr_int, toList_repr_int] at h
  have hsign : ∀ m n : ℕ, Nat.toDigits 10 m ≠ '-' :: Nat.toDigits 10 n := fun m n heq =>
    notMem_toDigits (c := '-') (by decide) m (heq ▸ List.mem_cons_self)
  cases z with
  | ofNat m =>
    cases z' with
    | ofNat n => rw [toDigits_ten_injective h]
    | negSucc n => exact absurd h (hsign m (n + 1))
  | negSucc m =>
    cases z' with
    | ofNat n => exact absurd h.symm (hsign n (m + 1))
    | negSucc n => rw [Nat.succ.inj (toDigits_ten_injective (List.cons.inj h).2)]

end GovAI
