import Mathlib.Data.List.Basic

/-!
# Base64

The encoding of bytes by the 64 characters of the standard alphabet with padding, and its inverse;
and the groups of six bits of which both this alphabet and the one for URLs write one character each.
-/

namespace GovAI

/-- The standard alphabet. -/
def base64Alphabet : List Char :=
  "ABCDEFGHIJKLMNOPQRSTUVWXYZabcdefghijklmnopqrstuvwxyz0123456789+/".toList

/-- The character of six bits. -/
def base64Digit (n : ℕ) : Char := base64Alphabet.getD n '='

/-- The six bits of a character. -/
def base64Value (c : Char) : Option ℕ := base64Alphabet.idxOf? c

/-- The encoding: four characters for each three bytes, the last padded. -/
def base64Encode : List UInt8 → List Char
  | [] => []
  | [a] => [base64Digit (a.toNat / 4), base64Digit (a.toNat % 4 * 16), '=', '=']
  | [a, b] =>
    [base64Digit (a.toNat / 4), base64Digit (a.toNat % 4 * 16 + b.toNat / 16),
      base64Digit (b.toNat % 16 * 4), '=']
  | a :: b :: c :: rest =>
    base64Digit (a.toNat / 4) :: base64Digit (a.toNat % 4 * 16 + b.toNat / 16) ::
      base64Digit (b.toNat % 16 * 4 + c.toNat / 64) :: base64Digit (c.toNat % 64) ::
        base64Encode rest

/-- The bytes that a text encodes. -/
def base64Decode : List Char → Option (List UInt8)
  | [] => some []
  | w :: x :: y :: z :: rest => do
    let w ← base64Value w
    let x ← base64Value x
    if y = '=' then
      if z = '=' ∧ rest = [] then return [UInt8.ofNat (w * 4 + x / 16)] else none
    else
      let y ← base64Value y
      if z = '=' then
        if rest = [] then
          return [UInt8.ofNat (w * 4 + x / 16), UInt8.ofNat (x % 16 * 16 + y / 4)]
        else none
      else
        let z ← base64Value z
        let bytes ← base64Decode rest
        return UInt8.ofNat (w * 4 + x / 16) :: UInt8.ofNat (x % 16 * 16 + y / 4) ::
          UInt8.ofNat (y % 4 * 64 + z) :: bytes
  | _ => none

/-- A character of the alphabet is read back, and is no padding. -/
lemma base64Value_digit : ∀ n < 64, base64Value (base64Digit n) = some n ∧ base64Digit n ≠ '=' := by
  decide

lemma uint8_ofNat_eq {n : ℕ} {a : UInt8} (h : n = a.toNat) : UInt8.ofNat n = a := by
  rw [h, UInt8.ofNat_toNat]

/-- **What is encoded is read back.** -/
theorem base64Decode_encode (bytes : List UInt8) : base64Decode (base64Encode bytes) = some bytes := by
  induction bytes using base64Encode.induct with
  | case1 => rfl
  | case2 a =>
    have ha := a.toNat_lt
    have h₁ := base64Value_digit (a.toNat / 4) (by omega)
    have h₂ := base64Value_digit (a.toNat % 4 * 16) (by omega)
    simp only [base64Encode, base64Decode, h₁.1, h₂.1, Option.bind_eq_bind, Option.bind_some,
      if_true, and_self, Option.pure_def]
    rw [uint8_ofNat_eq (a := a) (by omega)]
  | case3 a b =>
    have ha := a.toNat_lt
    have hb := b.toNat_lt
    have h₁ := base64Value_digit (a.toNat / 4) (by omega)
    have h₂ := base64Value_digit (a.toNat % 4 * 16 + b.toNat / 16) (by omega)
    have h₃ := base64Value_digit (b.toNat % 16 * 4) (by omega)
    simp only [base64Encode, base64Decode, h₁.1, h₂.1, h₃.1, if_neg h₃.2, Option.bind_eq_bind,
      Option.bind_some, if_true, Option.pure_def]
    rw [uint8_ofNat_eq (a := a) (by omega), uint8_ofNat_eq (a := b) (by omega)]
  | case4 a b c rest ih =>
    have ha := a.toNat_lt
    have hb := b.toNat_lt
    have hc := c.toNat_lt
    have h₁ := base64Value_digit (a.toNat / 4) (by omega)
    have h₂ := base64Value_digit (a.toNat % 4 * 16 + b.toNat / 16) (by omega)
    have h₃ := base64Value_digit (b.toNat % 16 * 4 + c.toNat / 64) (by omega)
    have h₄ := base64Value_digit (c.toNat % 64) (by omega)
    simp only [base64Encode, base64Decode, h₁.1, h₂.1, h₃.1, h₄.1, if_neg h₃.2, if_neg h₄.2,
      Option.bind_eq_bind, Option.bind_some, ih, Option.pure_def]
    rw [uint8_ofNat_eq (a := a) (by omega), uint8_ofNat_eq (a := b) (by omega),
      uint8_ofNat_eq (a := c) (by omega)]

/-! ## Groups of six bits -/

/-- The groups of six bits of bytes; the last is filled up with zeros. -/
def sextets : List UInt8 → List ℕ
  | [] => []
  | [a] => [a.toNat / 4, a.toNat % 4 * 16]
  | [a, b] => [a.toNat / 4, a.toNat % 4 * 16 + b.toNat / 16, b.toNat % 16 * 4]
  | a :: b :: c :: rest =>
    a.toNat / 4 :: (a.toNat % 4 * 16 + b.toNat / 16) :: (b.toNat % 16 * 4 + c.toNat / 64) ::
      c.toNat % 64 :: sextets rest

/-- The bytes of groups of six bits; bits that fill no byte are dropped. -/
def ofSextets : List ℕ → List UInt8
  | w :: x :: y :: z :: rest =>
    UInt8.ofNat (w * 4 + x / 16) :: UInt8.ofNat (x % 16 * 16 + y / 4) ::
      UInt8.ofNat (y % 4 * 64 + z) :: ofSextets rest
  | [w, x, y] => [UInt8.ofNat (w * 4 + x / 16), UInt8.ofNat (x % 16 * 16 + y / 4)]
  | [w, x] => [UInt8.ofNat (w * 4 + x / 16)]
  | _ => []

/-- The bytes are read back from their groups. -/
theorem ofSextets_sextets (bytes : List UInt8) : ofSextets (sextets bytes) = bytes := by
  induction bytes using sextets.induct with
  | case1 => rfl
  | case2 a =>
    have ha := a.toNat_lt
    simp only [sextets, ofSextets]
    rw [uint8_ofNat_eq (a := a) (by omega)]
  | case3 a b =>
    have ha := a.toNat_lt
    have hb := b.toNat_lt
    simp only [sextets, ofSextets]
    rw [uint8_ofNat_eq (a := a) (by omega), uint8_ofNat_eq (a := b) (by omega)]
  | case4 a b c rest ih =>
    have ha := a.toNat_lt
    have hb := b.toNat_lt
    have hc := c.toNat_lt
    simp only [sextets, ofSextets, ih]
    rw [uint8_ofNat_eq (a := a) (by omega), uint8_ofNat_eq (a := b) (by omega),
      uint8_ofNat_eq (a := c) (by omega)]

/-- A group has six bits. -/
lemma sextets_lt (bytes : List UInt8) : ∀ n ∈ sextets bytes, n < 64 := by
  induction bytes using sextets.induct with
  | case1 => exact List.forall_mem_nil _
  | case2 a =>
    have ha := a.toNat_lt
    simp only [sextets, List.forall_mem_cons, List.not_mem_nil, false_imp_iff, implies_true, and_true]
    omega
  | case3 a b =>
    have ha := a.toNat_lt
    have hb := b.toNat_lt
    simp only [sextets, List.forall_mem_cons, List.not_mem_nil, false_imp_iff, implies_true, and_true]
    omega
  | case4 a b c rest ih =>
    have ha := a.toNat_lt
    have hb := b.toNat_lt
    have hc := c.toNat_lt
    simp only [sextets, List.forall_mem_cons]
    exact ⟨by omega, by omega, by omega, by omega, ih⟩

/-- Three bytes make four groups. -/
lemma length_sextets (bytes : List UInt8) :
    bytes.length ≤ (sextets bytes).length ∧ 3 * (sextets bytes).length ≤ 4 * bytes.length + 2 := by
  induction bytes using sextets.induct with
  | case1 => simp [sextets]
  | case2 a => simp [sextets]
  | case3 a b => simp [sextets]
  | case4 a b c rest ih =>
    simp only [sextets, List.length_cons]
    omega

end GovAI
