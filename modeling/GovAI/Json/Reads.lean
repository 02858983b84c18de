import GovAI.Json.Tree

/-!
# A string and the text that is read

`JSON.parse` reads a string by its code units.  A string is read like a text when `jsonText` turns it
into that text: every character of the text stands for its code units, except for the escape of a
lone surrogate, which stands for the surrogate itself.
-/

namespace GovAI

/-- The string is read like the text; `escaped` says whether a backslash that begins an escape stands
before it. -/
def ReadsAs (escaped : Bool) (s : JsString) (cs : List Char) : Prop := jsonText escaped s = some cs

/-- The character of a surrogate pair has the two surrogates as code units. -/
lemma utf16Units_pair {u v : UInt16} (hu : isHighSurrogate u = true) (hv : isLowSurrogate v = true) :
    utf16Units (Char.ofNat (0x10000 + (u.toNat - 0xD800) * 0x400 + (v.toNat - 0xDC00))) = [u, v] ∧
      Char.ofNat (0x10000 + (u.toNat - 0xD800) * 0x400 + (v.toNat - 0xDC00)) ≠ '\\' := by
  simp only [isHighSurrogate, isLowSurrogate, Bool.and_eq_true, decide_eq_true_eq] at hu hv
  set n := 0x10000 + (u.toNat - 0xD800) * 0x400 + (v.toNat - 0xDC00) with hn
  have hnat : (Char.ofNat n).toNat = n := toNat_charOfNat (by omega)
  have hhigh : 0xD800 + (n - 0x10000) / 0x400 = u.toNat := by omega
  have hlow : 0xDC00 + (n - 0x10000) % 0x400 = v.toNat := by omega
  refine ⟨?_, ?_⟩
  · rw [utf16Units, hnat, if_neg (by omega), hhigh, hlow, UInt16.ofNat_toNat, UInt16.ofNat_toNat]
  · intro h
    rw [h] at hnat
    have : ('\\' : Char).toNat = 92 := rfl
    omega

/-- A code unit that is no surrogate is the character with its number. -/
lemma charOfNat_eq_backslash {u : UInt16} (hu : ¬(isHighSurrogate u || isLowSurrogate u)) :
    utf16Units (Char.ofNat u.toNat) = [u] ∧ (decide (Char.ofNat u.toNat = '\\') =
      decide (u.toNat = 0x5C)) := by
  simp only [Bool.or_eq_true, not_or, Bool.not_eq_true] at hu
  obtain ⟨hnat, hunits⟩ := utf16Units_charOfNat hu.1 hu.2
  refine ⟨hunits, decide_eq_decide.mpr ⟨fun h => ?_, fun h => ?_⟩⟩
  · rw [← hnat, h]
    rfl
  · rw [h]

/-- **What the first character of the text stands for**: its code units, or a lone surrogate whose
escape it begins. -/
theorem ReadsAs.cons_inv {escaped : Bool} {s : JsString} {c : Char} {cs : List Char}
    (h : ReadsAs escaped s (c :: cs)) :
    (∃ s', s = utf16Units c ++ s' ∧ ReadsAs (!escaped && decide (c = '\\')) s' cs) ∨
      escaped = false ∧ ∃ u s' cs', (isHighSurrogate u || isLowSurrogate u) = true ∧ s = u :: s' ∧
        c :: cs = unicodeEscape u ++ cs' ∧ ReadsAs false s' cs' := by
  unfold ReadsAs at h ⊢
  match s with
  | [] => exact absurd h (by simp [jsonText])
  | [u] =>
    rw [jsonText] at h
    split at h
    · rename_i hu
      split at h
      · exact absurd h nofun
      · rename_i hescaped
        refine .inr ⟨by simpa using hescaped, u, [], [], hu, rfl, ?_, rfl⟩
        rw [List.append_nil]
        exact (Option.some.inj h).symm
    · rename_i hu
      obtain ⟨rfl, rfl⟩ := List.cons.inj (Option.some.inj h)
      exact .inl ⟨[], by rw [(charOfNat_eq_backslash hu).1]; rfl, rfl⟩
  | u :: v :: rest =>
    rw [jsonText] at h
    split at h
    · rename_i huv
      obtain ⟨hu, hv⟩ := Bool.and_eq_true_iff.mp huv
      obtain ⟨ds, hds, heq⟩ := Option.map_eq_some_iff.mp h
      obtain ⟨rfl, rfl⟩ := List.cons.inj heq
      obtain ⟨hunits, hne⟩ := utf16Units_pair hu hv
      exact .inl ⟨rest, by rw [hunits]; rfl, by simpa [hne] using hds⟩
    · split at h
      · rename_i hu
        split at h
        · exact absurd h nofun
        · rename_i hescaped
          obtain ⟨ds, hds, heq⟩ := Option.map_eq_some_iff.mp h
          exact .inr ⟨by simpa using hescaped, u, v :: rest, ds, hu, rfl, heq.symm, hds⟩
      · rename_i hu
        obtain ⟨ds, hds, heq⟩ := Option.map_eq_some_iff.mp h
        obtain ⟨rfl, rfl⟩ := List.cons.inj heq
        obtain ⟨hunits, hback⟩ := charOfNat_eq_backslash hu
        exact .inl ⟨v :: rest, by rw [hunits]; rfl, by rw [hback]; exact hds⟩

/-- A character other than a backslash stands for its code units. -/
lemma ReadsAs.cons {escaped : Bool} {s : JsString} {c : Char} {cs : List Char}
    (h : ReadsAs escaped s (c :: cs)) (hc : c ≠ '\\') :
    ∃ s', s = utf16Units c ++ s' ∧ ReadsAs false s' cs := by
  rcases h.cons_inv with ⟨s', hs, hrest⟩ | ⟨-, u, s', cs', -, -, heq, -⟩
  · exact ⟨s', hs, by simpa [hc] using hrest⟩
  · exact absurd (List.cons.inj heq).1 hc

/-- The empty string alone is read like the empty text. -/
lemma ReadsAs.nil {escaped : Bool} {s : JsString} (h : ReadsAs escaped s []) : s = [] := by
  unfold ReadsAs at h
  match s with
  | [] => rfl
  | [u] =>
    rw [jsonText] at h
    split at h
    · split at h <;> simp [unicodeEscape] at h
    · simp at h
  | u :: v :: rest =>
    rw [jsonText] at h
    split at h
    · simp at h
    · split at h
      · split at h <;> simp [unicodeEscape] at h
      · simp at h

/-! ## Well-formed texts -/

/-- The code units of a text. -/
def textUnits (cs : List Char) : JsString := cs.flatMap utf16Units

/-- A character in front of a string that is read. -/
lemma ReadsAs.append {escaped : Bool} {c : Char} {s : JsString} {cs : List Char}
    (h : ReadsAs (!escaped && decide (c = '\\')) s cs) :
    ReadsAs escaped (utf16Units c ++ s) (c :: cs) := by
  have hvalid : c.toNat < 0xD800 ∨ 0xDFFF < c.toNat ∧ c.toNat < 0x110000 := c.valid
  have hnat : ∀ n < 0x10000, (UInt16.ofNat n).toNat = n := fun n hn => Nat.mod_eq_of_lt hn
  unfold ReadsAs at h ⊢
  unfold utf16Units
  by_cases hsmall : c.toNat < 0x10000
  · have hu := hnat c.toNat hsmall
    have hplain : (isHighSurrogate (UInt16.ofNat c.toNat) ||
        isLowSurrogate (UInt16.ofNat c.toNat)) = false := by
      simp only [isHighSurrogate, isLowSurrogate, hu, Bool.or_eq_false_iff, Bool.and_eq_false_iff,
        decide_eq_false_iff_not]
      omega
    obtain ⟨hhigh, hlow⟩ := Bool.or_eq_false_iff.mp hplain
    have hback : decide (c = '\\') = decide (c.toNat = 0x5C) :=
      decide_eq_decide.mpr (@Char.toNat_inj c '\\').symm
    rw [if_pos hsmall, List.singleton_append]
    cases s with
    | nil =>
      obtain rfl : cs = [] := by simpa [jsonText, eq_comm] using h
      simp [jsonText, hplain, hu, Char.ofNat_toNat]
    | cons v rest =>
      rw [hback] at h
      simp only [jsonText, hhigh, hlow, hu, Bool.false_and, Bool.or_self, Bool.false_eq_true, if_false,
        Char.ofNat_toNat, h, Option.map_some]
  · have hhigh := hnat (0xD800 + (c.toNat - 0x10000) / 0x400) (by omega)
    have hlow := hnat (0xDC00 + (c.toNat - 0x10000) % 0x400) (by omega)
    have hne : c ≠ '\\' := by
      rintro rfl
      exact hsmall (by decide)
    have hpair : (isHighSurrogate (UInt16.ofNat (0xD800 + (c.toNat - 0x10000) / 0x400)) &&
        isLowSurrogate (UInt16.ofNat (0xDC00 + (c.toNat - 0x10000) % 0x400))) = true := by
      simp only [isHighSurrogate, isLowSurrogate, hhigh, hlow, Bool.and_eq_true, decide_eq_true_eq]
      omega
    have hsum : 0x10000 + (0xD800 + (c.toNat - 0x10000) / 0x400 - 0xD800) * 0x400 +
        (0xDC00 + (c.toNat - 0x10000) % 0x400 - 0xDC00) = c.toNat := by omega
    simp only [hne, decide_false, Bool.and_false] at h
    rw [if_neg hsmall, List.cons_append, List.singleton_append, jsonText, if_pos hpair, h, hhigh,
      hlow, hsum, Char.ofNat_toNat, Option.map_some]

/-- **A text is read from its code units.** -/
theorem readsAs_textUnits (cs : List Char) : ReadsAs false (textUnits cs) cs := by
  have hall : ∀ escaped, ReadsAs escaped (textUnits cs) cs := by
    induction cs with
    | nil => exact fun _ => rfl
    | cons c cs ih => exact fun escaped => ReadsAs.append (ih _)
  exact hall false

end GovAI
