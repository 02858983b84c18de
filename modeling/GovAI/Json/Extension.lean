import GovAI.Json.RoundTrip
import Mathlib.Data.List.DropRight

/-!
# Extending a text that is parsed

The parser decides on a token when it has seen its end, so what it reads from a text it reads from
every extension of the text.  Only a number at the very end of the text may go on.  A text that is an
object is therefore no object any more after one character other than white space is added to it, and
no part of it that begins with it is an object (`jsonParse_eq_none_of_lt`).
-/

namespace GovAI

/-! ## Tokens -/

/-- White space in front of a token does not reach into the extension. -/
lemma skipSpace_append {cs : List Char} (h : skipSpace cs ≠ []) (q : List Char) :
    skipSpace (cs ++ q) = skipSpace cs ++ q := by
  rw [skipSpace, List.dropWhile_append, if_neg (by simpa [skipSpace] using h), skipSpace]

/-- The rest of a string literal. -/
lemma parseChars_append {cs rest : List Char} {s : JsString}
    (h : parseChars cs = some (s, rest)) (q : List Char) :
    parseChars (cs ++ q) = some (s, rest ++ q) := by
  induction cs using parseChars.induct generalizing s rest with
  | case1 => cases h
  | case2 cs =>
    cases h
    rfl
  | case3 a b c d cs ih =>
    simp only [parseChars, List.cons_append, Option.bind_eq_bind, Option.bind_eq_some_iff] at h ⊢
    obtain ⟨u, hu, ⟨s', rest'⟩, hcs, hres⟩ := h
    cases hres
    exact ⟨u, hu, _, ih hcs, rfl⟩
  | case4 c cs hnot ih =>
    rw [parseChars.eq_4 c cs hnot] at h
    simp only [Option.bind_eq_bind, Option.bind_eq_some_iff] at h
    obtain ⟨u, hu, ⟨s', rest'⟩, hcs, hres⟩ := h
    cases hres
    rw [List.cons_append, List.cons_append, parseChars_simpleEscape hu, ih hcs]
    rfl
  | case5 c cs h1 h2 h3 hc =>
    rw [parseChars.eq_5 c cs h1 h2 h3, if_pos hc] at h
    cases h
  | case6 c cs h1 h2 h3 hc ih =>
    obtain ⟨hback, hctrl⟩ := not_or.mp hc
    rw [parseChars_plain h1 hback hctrl, Option.map_eq_some_iff] at h
    obtain ⟨⟨s', rest'⟩, hcs, hres⟩ := h
    cases hres
    rw [List.cons_append, parseChars_plain h1 hback hctrl, ih hcs]
    rfl

/-- Digits that end before the end of the text. -/
lemma scanDigits_extend {cs ds rest : List Char} (h : scanDigits cs = some (ds, rest))
    (hrest : rest ≠ []) (q : List Char) : scanDigits (cs ++ q) = some (ds, rest ++ q) := by
  unfold scanDigits at h ⊢
  split at h
  · cases h
  · rename_i hne
    obtain ⟨rfl, rfl⟩ := Prod.mk.inj (Option.some.inj h)
    have hlen : (cs.takeWhile Char.isDigit).length ≠ cs.length := by
      intro hlen
      have hsplit := congrArg List.length
        (List.takeWhile_append_dropWhile (p := Char.isDigit) (l := cs))
      rw [List.length_append, hlen] at hsplit
      exact hrest (List.eq_nil_of_length_eq_zero (by omega))
    rw [List.takeWhile_append, if_neg hlen, if_neg hne, List.dropWhile_append,
      if_neg (by simpa using hrest)]

/-- An integer part that ends before the end of the text. -/
lemma scanInteger_extend {cs ds rest : List Char} (h : scanInteger cs = some (ds, rest))
    (hrest : rest ≠ []) (q : List Char) : scanInteger (cs ++ q) = some (ds, rest ++ q) := by
  rcases cs with _ | ⟨c, cs⟩
  · cases h
  · by_cases hc : c = '0'
    · subst hc
      cases h
      rfl
    · rw [scanInteger.eq_2 _ (by simpa using hc)] at h
      rw [List.cons_append, scanInteger.eq_2 _ (by simpa using hc)]
      exact scanDigits_extend h hrest q

/-- A fraction that ends before the end of the text. -/
lemma scanFraction_extend {cs ds rest : List Char} (h : scanFraction cs = some (ds, rest))
    (hrest : rest ≠ []) (q : List Char) : scanFraction (cs ++ q) = some (ds, rest ++ q) := by
  rcases cs with _ | ⟨c, cs⟩
  · cases h
    exact absurd rfl hrest
  · by_cases hc : c = '.'
    · subst hc
      simp only [scanFraction, List.cons_append, Option.bind_eq_bind, Option.bind_eq_some_iff]
        at h ⊢
      obtain ⟨⟨ds', rest'⟩, hds, hres⟩ := h
      cases hres
      exact ⟨_, scanDigits_extend hds hrest q, rfl⟩
    · rw [scanFraction.eq_2 _ (by simpa using hc)] at h
      rw [List.cons_append, scanFraction.eq_2 _ (by simpa using hc)]
      cases h
      rfl

/-- The sign of an exponent. -/
lemma scanExponentSign_append {cs : List Char} (h : cs ≠ []) (q : List Char) :
    scanExponentSign (cs ++ q) = ((scanExponentSign cs).1, (scanExponentSign cs).2 ++ q) := by
  obtain ⟨c, cs, rfl⟩ := List.exists_cons_of_ne_nil h
  by_cases hminus : c = '-'
  · subst hminus
    rfl
  · by_cases hplus : c = '+'
    · subst hplus
      rfl
    · rw [List.cons_append, scanExponentSign.eq_3 _ (by simpa using hminus) (by simpa using hplus),
        scanExponentSign.eq_3 _ (by simpa using hminus) (by simpa using hplus)]
      rfl

/-- An exponent that ends before the end of the text. -/
lemma scanExponent_extend {cs ds rest : List Char} (h : scanExponent cs = some (ds, rest))
    (hrest : rest ≠ []) (q : List Char) : scanExponent (cs ++ q) = some (ds, rest ++ q) := by
  have hdigits : ∀ {cs ds rest : List Char}, scanDigits (scanExponentSign cs).2 = some (ds, rest) →
      rest ≠ [] → scanExponentSign (cs ++ q) = ((scanExponentSign cs).1, (scanExponentSign cs).2 ++ q)
        ∧ scanDigits ((scanExponentSign cs).2 ++ q) = some (ds, rest ++ q) := by
    intro cs ds rest hds hrest
    have hcs : cs ≠ [] := by
      rintro rfl
      cases hds
    exact ⟨scanExponentSign_append hcs q, scanDigits_extend hds hrest q⟩
  rcases cs with _ | ⟨c, cs⟩
  · cases h
    exact absurd rfl hrest
  · by_cases hsmall : c = 'e'
    · subst hsmall
      simp only [scanExponent, List.cons_append, Option.bind_eq_bind, Option.bind_eq_some_iff]
        at h ⊢
      obtain ⟨⟨ds', rest'⟩, hds, hres⟩ := h
      cases hres
      obtain ⟨hsign, hds'⟩ := hdigits hds hrest
      rw [hsign]
      exact ⟨_, hds', rfl⟩
    · by_cases hlarge : c = 'E'
      · subst hlarge
        simp only [scanExponent, List.cons_append, Option.bind_eq_bind, Option.bind_eq_some_iff]
          at h ⊢
        obtain ⟨⟨ds', rest'⟩, hds, hres⟩ := h
        cases hres
        obtain ⟨hsign, hds'⟩ := hdigits hds hrest
        rw [hsign]
        exact ⟨_, hds', rfl⟩
      · rw [scanExponent.eq_3 _ (by simpa using hsmall) (by simpa using hlarge)] at h
        rw [List.cons_append, scanExponent.eq_3 _ (by simpa using hsmall) (by simpa using hlarge)]
        cases h
        rfl

/-- **A number that ends before the end of the text.** -/
theorem scanNumber_extend {cs rest : List Char} {x : Numeral} (h : scanNumber cs = some (x, rest))
    (hrest : rest ≠ []) (q : List Char) : scanNumber (cs ++ q) = some (x, rest ++ q) := by
  simp only [scanNumber, Option.bind_eq_bind, Option.bind_eq_some_iff] at h ⊢
  obtain ⟨⟨int, cs₁⟩, hint, ⟨frac, cs₂⟩, hfrac, ⟨exp, cs₃⟩, hexp, hres⟩ := h
  cases hres
  have hcs₂ : cs₂ ≠ [] := by
    rintro rfl
    cases hexp
    exact hrest rfl
  have hcs₁ : cs₁ ≠ [] := by
    rintro rfl
    cases hfrac
    exact hcs₂ rfl
  have hsign : scanSign (cs ++ q) = ((scanSign cs).1, (scanSign cs).2 ++ q) := by
    rcases cs with _ | ⟨c, cs⟩
    · cases hint
    · by_cases hminus : c = '-'
      · subst hminus
        rfl
      · rw [List.cons_append, scanSign.eq_2 _ (by simpa using hminus),
          scanSign.eq_2 _ (by simpa using hminus)]
        rfl
  rw [hsign]
  exact ⟨_, scanInteger_extend hint hcs₁ q, _, scanFraction_extend hfrac hcs₂ q, _,
    scanExponent_extend hexp hrest q, rfl⟩

/-- The first character of a number. -/
lemma scanNumber_head {c : Char} {cs rest : List Char} {x : Numeral}
    (h : scanNumber (c :: cs) = some (x, rest)) : c = '-' ∨ c.isDigit = true := by
  by_contra hc
  obtain ⟨hminus, hdigit⟩ := not_or.mp hc
  have hzero : c ≠ '0' := by
    rintro rfl
    exact hdigit rfl
  simp only [scanNumber, Option.bind_eq_bind, Option.bind_eq_some_iff] at h
  obtain ⟨⟨int, cs₁⟩, hint, -⟩ := h
  rw [scanSign.eq_2 _ (by simpa using hminus), scanInteger.eq_2 _ (by simpa using hzero),
    scanDigits, if_pos (by rw [List.takeWhile_cons, if_neg hdigit])] at hint
  cases hint

/-! ## Values -/

section Parse

variable {number : List Char → Option JsonNumber}

/-- White space in front of a value is skipped. -/
lemma parseValue_skipSpace (fuel : ℕ) (cs : List Char) :
    parseValue number fuel (skipSpace cs) = parseValue number fuel cs := by
  have hskip : skipSpace (skipSpace cs) = skipSpace cs := List.dropWhile_idempotent _ _
  cases fuel with
  | zero => rfl
  | succ fuel => rw [parseValue, hskip, parseValue]

/-- There is no value in an empty text. -/
lemma parseValue_nil (fuel : ℕ) : parseValue number fuel [] = none := by
  cases fuel <;> rfl

/-- There are no items in an empty text. -/
lemma parseItems_nil (fuel : ℕ) : parseItems number fuel [] = none := by
  cases fuel with
  | zero => rfl
  | succ fuel => rw [parseItems, parseValue_nil]; rfl

/-- There are no properties in an empty text. -/
lemma parseProps_nil (fuel : ℕ) : parseProps number fuel [] = none := by
  cases fuel <;> rfl

/-- What a call of `parseItems` reads it reads from every extension of its text, with any more fuel. -/
def ItemsReadOn (number : List Char → Option JsonNumber) (fuel : ℕ) : Prop :=
  ∀ {cs rest items}, parseItems number fuel cs = some (items, rest) →
    ∀ q fuel', fuel ≤ fuel' → parseItems number fuel' (cs ++ q) = some (items, rest ++ q)

/-- The same of `parseProps`. -/
def PropsReadOn (number : List Char → Option JsonNumber) (fuel : ℕ) : Prop :=
  ∀ {cs rest props}, parseProps number fuel cs = some (props, rest) →
    ∀ q fuel', fuel ≤ fuel' → parseProps number fuel' (cs ++ q) = some (props, rest ++ q)

/-- The same of `parseValue`, unless the value is a number that ends the text. -/
def ValueReadsOn (number : List Char → Option JsonNumber) (fuel : ℕ) : Prop :=
  ∀ {cs rest v}, parseValue number fuel cs = some (v, rest) → ((∃ x, v = .num x) → rest ≠ []) →
    ∀ q fuel', fuel ≤ fuel' → parseValue number fuel' (cs ++ q) = some (v, rest ++ q)

/-- A value reads on if the items and the properties in it do. -/
lemma valueReadsOn_succ {fuel : ℕ} (hitems : ItemsReadOn number fuel)
    (hprops : PropsReadOn number fuel) : ValueReadsOn number (fuel + 1) := by
  intro cs rest v h hnum q fuel' hfuel
  obtain ⟨fuel', rfl⟩ := Nat.exists_eq_add_of_le' hfuel
  rw [← Nat.add_assoc] at hfuel ⊢
  have hle : fuel ≤ fuel' + fuel := Nat.le_add_left ..
  rw [← parseValue_skipSpace] at h
  have hne : skipSpace cs ≠ [] := by
    intro hnil
    rw [hnil, parseValue_nil] at h
    cases h
  have hskip : ∀ c cs', skipSpace cs = c :: cs' → ∀ ds, skipSpace (c :: ds) = c :: ds := by
    intro c cs' hcs ds
    have hc := List.head?_dropWhile_not isJsonSpace cs
    rw [← skipSpace, hcs] at hc
    exact skipSpace_cons (by simpa using hc) ds
  rw [← parseValue_skipSpace, skipSpace_append hne]
  obtain ⟨c, cs', hcs⟩ := List.exists_cons_of_ne_nil hne
  rw [hcs] at h ⊢
  rw [parseValue, hskip c cs' hcs] at h
  split at h <;> rename_i heq
  · obtain ⟨rfl, rfl⟩ := List.cons.inj heq
    rw [List.cons_append, parseValue, hskip _ _ hcs]
    simp only
    have hne' : skipSpace cs' ≠ [] := by
      intro hnil
      rw [hnil] at h
      simp [parseItems_nil] at h
    rw [skipSpace_append hne']
    split at h
    · rename_i heq'
      cases h
      rw [heq']
      rfl
    · rename_i hbracket
      obtain ⟨⟨items, rest'⟩, hread, hres⟩ := Option.map_eq_some_iff.mp h
      cases hres
      split
      · rename_i ds heq'
        obtain ⟨d, ds', hds⟩ := List.exists_cons_of_ne_nil hne'
        rw [hds, List.cons_append] at heq'
        exact absurd (hds.trans (by rw [(List.cons.inj heq').1])) (hbracket ds')
      · rw [hitems hread q _ hle]
        rfl
  · obtain ⟨rfl, rfl⟩ := List.cons.inj heq
    rw [List.cons_append, parseValue, hskip _ _ hcs]
    simp only
    have hne' : skipSpace cs' ≠ [] := by
      intro hnil
      rw [hnil] at h
      simp [parseProps_nil] at h
    rw [skipSpace_append hne']
    split at h
    · rename_i heq'
      cases h
      rw [heq']
      rfl
    · rename_i hbrace
      obtain ⟨⟨props, rest'⟩, hread, hres⟩ := Option.map_eq_some_iff.mp h
      cases hres
      split
      · rename_i ds heq'
        obtain ⟨d, ds', hds⟩ := List.exists_cons_of_ne_nil hne'
        rw [hds, List.cons_append] at heq'
        exact absurd (hds.trans (by rw [(List.cons.inj heq').1])) (hbrace ds')
      · rw [hprops hread q _ hle]
        rfl
  · obtain ⟨rfl, rfl⟩ := List.cons.inj heq
    obtain ⟨⟨s, rest'⟩, hread, hres⟩ := Option.map_eq_some_iff.mp h
    cases hres
    rw [List.cons_append, parseValue, hskip _ _ hcs]
    simp only
    rw [parseChars_append hread]
    rfl
  · obtain ⟨rfl, rfl⟩ := List.cons.inj heq
    cases h
    rw [List.cons_append, parseValue, hskip _ _ hcs]
    rfl
  · obtain ⟨rfl, rfl⟩ := List.cons.inj heq
    cases h
    rw [List.cons_append, parseValue, hskip _ _ hcs]
    rfl
  · obtain ⟨rfl, rfl⟩ := List.cons.inj heq
    cases h
    rw [List.cons_append, parseValue, hskip _ _ hcs]
    rfl
  · simp only [Option.bind_eq_bind, Option.bind_eq_some_iff] at h
    obtain ⟨⟨numeral, rest'⟩, hscan, x, hx, hres⟩ := h
    cases hres
    rw [List.cons_append, parseValue_of_head (scanNumber_head hscan), ← List.cons_append,
      scanNumber_extend hscan (hnum ⟨x, rfl⟩) q]
    simp only [Option.bind_eq_bind, Option.bind_some, hx]
    rfl

/-- Items read on if the values and the items behind them do. -/
lemma itemsReadOn_succ {fuel : ℕ} (hvalue : ValueReadsOn number fuel)
    (hitems : ItemsReadOn number fuel) : ItemsReadOn number (fuel + 1) := by
  intro cs rest items h q fuel' hfuel
  obtain ⟨fuel', rfl⟩ := Nat.exists_eq_add_of_le' hfuel
  have hle : fuel ≤ fuel' + fuel := Nat.le_add_left ..
  rw [← Nat.add_assoc]
  rw [parseItems] at h ⊢
  simp only [Option.bind_eq_bind, Option.bind_eq_some_iff] at h ⊢
  obtain ⟨⟨v, cs₁⟩, hv, h⟩ := h
  have hne : skipSpace cs₁ ≠ [] := by
    intro hnil
    simp [hnil] at h
  have hne₁ : cs₁ ≠ [] := by
    rintro rfl
    exact hne rfl
  refine ⟨_, hvalue hv (fun _ => hne₁) q _ hle, ?_⟩
  simp only at h ⊢
  rw [skipSpace_append hne]
  split at h
  · rename_i heq
    obtain ⟨⟨items', rest'⟩, hread, hres⟩ := Option.map_eq_some_iff.mp h
    cases hres
    rw [heq, List.cons_append]
    simp only
    rw [hitems hread q _ hle]
    rfl
  · rename_i heq
    cases h
    rw [heq]
    rfl
  · cases h

/-- Properties read on if the values and the properties behind them do. -/
lemma propsReadOn_succ {fuel : ℕ} (hvalue : ValueReadsOn number fuel)
    (hprops : PropsReadOn number fuel) : PropsReadOn number (fuel + 1) := by
  intro cs rest props h q fuel' hfuel
  obtain ⟨fuel', rfl⟩ := Nat.exists_eq_add_of_le' hfuel
  have hle : fuel ≤ fuel' + fuel := Nat.le_add_left ..
  rw [← Nat.add_assoc]
  rw [parseProps] at h ⊢
  have hne : skipSpace cs ≠ [] := by
    intro hnil
    simp [hnil] at h
  rw [skipSpace_append hne]
  split at h
  · rename_i heq
    rw [heq, List.cons_append]
    simp only [Option.bind_eq_bind, Option.bind_eq_some_iff] at h ⊢
    obtain ⟨⟨k, cs₁⟩, hk, h⟩ := h
    refine ⟨_, parseChars_append hk q, ?_⟩
    simp only at h ⊢
    have hne₁ : skipSpace cs₁ ≠ [] := by
      intro hnil
      simp [hnil] at h
    rw [skipSpace_append hne₁]
    split at h
    · rename_i heq₁
      rw [heq₁, List.cons_append]
      simp only [Option.bind_eq_some_iff] at h ⊢
      obtain ⟨⟨v, cs₃⟩, hv, h⟩ := h
      have hne₃ : skipSpace cs₃ ≠ [] := by
        intro hnil
        simp [hnil] at h
      have hne₃' : cs₃ ≠ [] := by
        rintro rfl
        exact hne₃ rfl
      refine ⟨_, hvalue hv (fun _ => hne₃') q _ hle, ?_⟩
      simp only at h ⊢
      rw [skipSpace_append hne₃]
      split at h
      · rename_i heq₃
        obtain ⟨⟨props', rest'⟩, hread, hres⟩ := Option.map_eq_some_iff.mp h
        cases hres
        rw [heq₃, List.cons_append]
        simp only
        rw [hprops hread q _ hle]
        rfl
      · rename_i heq₃
        cases h
        rw [heq₃]
        rfl
      · cases h
    · cases h
  · cases h

/-- **The parsers read on.** -/
theorem readsOn (number : List Char → Option JsonNumber) (fuel : ℕ) :
    ValueReadsOn number fuel ∧ ItemsReadOn number fuel ∧ PropsReadOn number fuel := by
  induction fuel with
  | zero =>
    refine ⟨fun h => ?_, fun h => ?_, fun h => ?_⟩ <;> cases h
  | succ fuel ih =>
    obtain ⟨hvalue, hitems, hprops⟩ := ih
    exact ⟨valueReadsOn_succ hitems hprops, itemsReadOn_succ hvalue hitems,
      propsReadOn_succ hvalue hprops⟩

/-- A number begins with a minus sign or a digit. -/
lemma parseValue_num_head {fuel : ℕ} {cs rest : List Char} {x : JsonNumber}
    (h : parseValue number fuel cs = some (.num x, rest)) :
    ∃ c cs', skipSpace cs = c :: cs' ∧ (c = '-' ∨ c.isDigit = true) := by
  cases fuel with
  | zero => cases h
  | succ fuel =>
    rw [parseValue] at h
    split at h
    · split at h
      · cases h
      · obtain ⟨_, _, hres⟩ := Option.map_eq_some_iff.mp h
        cases hres
    · split at h
      · cases h
      · obtain ⟨_, _, hres⟩ := Option.map_eq_some_iff.mp h
        cases hres
    · obtain ⟨_, _, hres⟩ := Option.map_eq_some_iff.mp h
      cases hres
    · cases h
    · cases h
    · cases h
    · simp only [Option.bind_eq_bind, Option.bind_eq_some_iff] at h
      obtain ⟨⟨numeral, rest'⟩, hscan, -⟩ := h
      have hne : skipSpace cs ≠ [] := by
        intro hnil
        rw [hnil] at hscan
        cases hscan
      obtain ⟨c, cs', hcs⟩ := List.exists_cons_of_ne_nil hne
      rw [hcs] at hscan
      exact ⟨c, cs', hcs, scanNumber_head hscan⟩

/-- **A text that stands for a value other than a number has no proper beginning that stands for one**,
except for the white space at its end. -/
theorem jsonParse_eq_none_of_append {p q : List Char} {v : JsonValue}
    (h : jsonParse number (p ++ q) = some v) (hv : ∀ x, v ≠ .num x) (hq : skipSpace q ≠ []) :
    jsonParse number p = none := by
  simp only [jsonParse, Option.bind_eq_bind, Option.bind_eq_some_iff] at h
  obtain ⟨⟨v', rest⟩, hread, hres⟩ := h
  rw [← Option.not_isSome_iff_eq_none, Option.isSome_iff_exists]
  rintro ⟨w, hw⟩
  simp only [jsonParse, Option.bind_eq_bind, Option.bind_eq_some_iff] at hw
  obtain ⟨⟨w', rest'⟩, hread', hres'⟩ := hw
  simp only [Option.ite_none_right_eq_some, Option.some.injEq] at hres hres'
  obtain ⟨hend, rfl⟩ := hres
  obtain ⟨hend', rfl⟩ := hres'
  by_cases hnum : ∃ x, w' = .num x
  · -- the first character decides that the whole text is a number
    obtain ⟨x, rfl⟩ := hnum
    obtain ⟨c, cs', hcs, hc⟩ := parseValue_num_head hread'
    rw [← parseValue_skipSpace, skipSpace_append (by simp [hcs]), hcs, List.cons_append,
      parseValue_of_head hc] at hread
    simp only [Option.bind_eq_bind, Option.bind_eq_some_iff] at hread
    obtain ⟨_, _, y, _, hy⟩ := hread
    cases hy
    exact hv y rfl
  · have hlong := (readsOn number _).1 hread' (fun h => absurd h hnum) q ((p ++ q).length + 1)
      (by simp)
    rw [hread] at hlong
    cases hlong
    rw [skipSpace, List.dropWhile_append, if_pos (by simpa [skipSpace] using hend')] at hend
    exact hq hend

end Parse

end GovAI
