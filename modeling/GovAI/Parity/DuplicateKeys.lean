import GovAI.Json.Reads

/-!
# Duplicate keys in the text of the parity manifest

`findDuplicateJsonKeys` walks over the code units of a text with a stack of contexts, without parsing
it, and collects each object key that the same object has had before.  Keys are compared after their
escapes are decoded.
-/

namespace GovAI

attribute [local instance] lawfulBEq_jsString

/-! ## The scanner -/

/-- The character of a code unit; surrogates have none that matters. -/
def unitChar (u : UInt16) : Char := Char.ofNat u.toNat

/-- The escape that follows a backslash: the code unit it stands for and how many units it takes. -/
def bodyEscape : JsString → Option (UInt16 × ℕ)
  | [] => none
  | next :: rest =>
    match (if unitChar next = 'u' then
        match rest with
        | a :: b :: c :: d :: _ => unicodeUnit (unitChar a) (unitChar b) (unitChar c) (unitChar d)
        | _ => none
      else none) with
    | some u => some (u, 5)
    | none => (simpleEscape (unitChar next)).map fun u => (u, 1)

/-- `decodeJsonStringBody`. -/
def decodeJsonStringBody : JsString → JsString
  | [] => []
  | c :: rest =>
    if c.toNat ≠ 0x5C then c :: decodeJsonStringBody rest
    else
      match bodyEscape rest with
      | some (u, n) => u :: decodeJsonStringBody (rest.drop n)
      | none => c :: decodeJsonStringBody rest
termination_by body => body.length
decreasing_by all_goals simp only [List.length_cons, List.length_drop]; omega

/-- The inner loop: the raw body of a string literal, and the text after its closing quote. -/
def rawString : JsString → JsString × JsString
  | [] => ([], [])
  | c :: rest =>
    if c.toNat = 0x22 then ([], rest)
    else if c.toNat = 0x5C then
      match rest with
      | [] => ([c], [])
      | d :: rest => (c :: d :: (rawString rest).1, (rawString rest).2)
    else (c :: (rawString rest).1, (rawString rest).2)

/-- The text after a string literal is no longer than the text from its start. -/
lemma length_rawString (s : JsString) : (rawString s).2.length ≤ s.length := by
  fun_induction rawString s with
  | case1 => exact le_refl _
  | case2 c rest hc => exact Nat.le_succ _
  | case3 c hc hback => exact Nat.zero_le _
  | case4 c hc hback d rest ih =>
    simp only [List.length_cons]
    omega
  | case5 c rest hc hback ih =>
    simp only [List.length_cons]
    omega

/-- The variables of `findDuplicateJsonKeys`: the innermost context stands first on the stack. -/
structure KeyScan where
  /-- The duplicate keys so far. -/
  dups : List JsString
  /-- The contexts: an object with its keys so far, or an array. -/
  stack : List (Option (List JsString))
  /-- Whether the next string of an object is a key. -/
  expectKey : Bool

/-- A string literal with the raw body `body` was passed. -/
def KeyScan.string (st : KeyScan) (body : JsString) : KeyScan :=
  match st.stack, st.expectKey with
  | some keys :: rest, true =>
    let key := decodeJsonStringBody body
    ⟨if key ∈ keys then st.dups ++ [key] else st.dups, some (key :: keys) :: rest, false⟩
  | _, _ => st

/-- Any other code unit was passed. -/
def KeyScan.unit (st : KeyScan) (c : UInt16) : KeyScan :=
  match c.toNat with
  | 0x7B => ⟨st.dups, some [] :: st.stack, true⟩
  | 0x5B => { st with stack := none :: st.stack }
  | 0x7D => { st with stack := st.stack.tail }
  | 0x5D => { st with stack := st.stack.tail }
  | 0x2C =>
    match st.stack with
    | some _ :: _ => { st with expectKey := true }
    | _ => st
  | 0x3A => { st with expectKey := false }
  | _ => st

/-- The loop of `findDuplicateJsonKeys`. -/
def scanKeys (st : KeyScan) : JsString → List JsString
  | [] => st.dups
  | c :: rest =>
    if c.toNat = 0x22 then scanKeys (st.string (rawString rest).1) (rawString rest).2
    else scanKeys (st.unit c) rest
termination_by raw => raw.length
decreasing_by
  · have := length_rawString rest
    simp only [List.length_cons]
    omega
  · simp

/-- `findDuplicateJsonKeys`. -/
def findDuplicateJsonKeys (raw : JsString) : List JsString := scanKeys ⟨[], [], false⟩ raw

/-! ## String literals -/

/-- A code unit that neither ends a string literal nor begins an escape. -/
def BodyUnit (u : UInt16) : Prop := u.toNat ≠ 0x22 ∧ u.toNat ≠ 0x5C

/-- Such units belong to the raw body. -/
lemma rawString_append {us : JsString} (hus : ∀ u ∈ us, BodyUnit u) (s : JsString) :
    rawString (us ++ s) = (us ++ (rawString s).1, (rawString s).2) := by
  induction us with
  | nil => rfl
  | cons u us ih =>
    obtain ⟨hquote, hback⟩ := hus u List.mem_cons_self
    have hrest := ih fun v hv => hus v (List.mem_cons_of_mem u hv)
    rw [List.cons_append, rawString.eq_def]
    simp only [if_neg hquote, if_neg hback, hrest, List.cons_append]

/-- Such units are decoded to themselves. -/
lemma decodeJsonStringBody_append {us : JsString} (hus : ∀ u ∈ us, BodyUnit u) (s : JsString) :
    decodeJsonStringBody (us ++ s) = us ++ decodeJsonStringBody s := by
  induction us with
  | nil => rfl
  | cons u us ih =>
    rw [List.cons_append, decodeJsonStringBody, if_pos (hus u List.mem_cons_self).2,
      ih fun v hv => hus v (List.mem_cons_of_mem u hv)]
    rfl

/-- The number of a code unit. -/
lemma toNat_ofNat_unit {n : ℕ} (hn : n < 0x10000) : (UInt16.ofNat n).toNat = n := Nat.mod_eq_of_lt hn

/-- The code units of a character other than a quote or a backslash. -/
lemma bodyUnit_of_mem {c : Char} (hquote : c ≠ '"') (hback : c ≠ '\\') :
    ∀ u ∈ utf16Units c, BodyUnit u := by
  have hc : c.toNat ≠ 0x22 ∧ c.toNat ≠ 0x5C :=
    ⟨fun h => hquote (Char.toNat_inj.mp h), fun h => hback (Char.toNat_inj.mp h)⟩
  have hvalid : c.toNat < 0xD800 ∨ 0xDFFF < c.toNat ∧ c.toNat < 0x110000 := c.valid
  intro u hu
  unfold utf16Units at hu
  split at hu
  · rename_i hsmall
    obtain rfl := List.mem_singleton.mp hu
    rw [BodyUnit, toNat_ofNat_unit hsmall]
    exact hc
  · simp only [List.mem_cons, List.not_mem_nil, or_false] at hu
    unfold BodyUnit
    rcases hu with rfl | rfl <;> rw [toNat_ofNat_unit (by omega)] <;> omega

/-- An ASCII character has one code unit. -/
lemma utf16Units_ascii {c : Char} (hc : c.toNat < 0x80) :
    utf16Units c = [UInt16.ofNat c.toNat] ∧ (UInt16.ofNat c.toNat).toNat = c.toNat ∧
      unitChar (UInt16.ofNat c.toNat) = c := by
  have hnat : (UInt16.ofNat c.toNat).toNat = c.toNat :=
    toNat_ofNat_unit (by omega)
  refine ⟨if_pos (by omega), hnat, ?_⟩
  rw [unitChar, hnat, Char.ofNat_toNat]

/-- A hexadecimal digit is ASCII and neither a quote nor a backslash. -/
lemma ascii_of_hexValue {c : Char} (h : (hexValue c).isSome) :
    c.toNat < 0x80 ∧ c ≠ '"' ∧ c ≠ '\\' := by
  have hle : ∀ d : Char, d ≤ c ↔ d.toNat ≤ c.toNat := fun _ => Iff.rfl
  have hge : ∀ d : Char, c ≤ d ↔ c.toNat ≤ d.toNat := fun _ => Iff.rfl
  have hnat : c.toNat < 0x80 ∧ c.toNat ≠ 0x22 ∧ c.toNat ≠ 0x5C := by
    simp only [hexValue, hle, hge, Char.reduceToNat] at h
    split_ifs at h
    · omega
    · omega
    · omega
    · exact absurd h Bool.false_ne_true
  refine ⟨hnat.1, ?_, ?_⟩
  · rintro rfl
    exact hnat.2.1 rfl
  · rintro rfl
    exact hnat.2.2 rfl

/-- A lone surrogate is an ordinary unit of a string literal. -/
lemma bodyUnit_surrogate {u : UInt16} (hu : (isHighSurrogate u || isLowSurrogate u) = true) :
    BodyUnit u := by
  simp only [isHighSurrogate, isLowSurrogate, Bool.or_eq_true, Bool.and_eq_true,
    decide_eq_true_eq] at hu
  unfold BodyUnit
  omega

/-- The digits of an escape are hexadecimal. -/
lemma isSome_of_unicodeUnit {a b c d : Char} {u : UInt16} (h : unicodeUnit a b c d = some u) :
    (hexValue a).isSome ∧ (hexValue b).isSome ∧ (hexValue c).isSome ∧ (hexValue d).isSome := by
  obtain ⟨m, ha, n, hb, j, hc, k, hd, -⟩ : ∃ m, hexValue a = some m ∧ ∃ n, hexValue b = some n ∧
      ∃ j, hexValue c = some j ∧ ∃ k, hexValue d = some k ∧
        UInt16.ofNat (((m * 16 + n) * 16 + j) * 16 + k) = u := by
    simpa [unicodeUnit, Option.bind_eq_some_iff] using h
  rw [ha, hb, hc, hd]
  exact ⟨rfl, rfl, rfl, rfl⟩

/-- What `JSON.parse` makes of the escape of a code unit. -/
lemma parseChars_escape_inv {u : UInt16} {cs : List Char} {str : JsString} {rest : List Char}
    (h : parseChars (unicodeEscape u ++ cs) = some (str, rest)) :
    ∃ tail, str = u :: tail ∧ parseChars cs = some (tail, rest) := by
  rw [parseChars_unicodeEscape] at h
  obtain ⟨⟨tail, rest'⟩, hcs, heq⟩ := Option.map_eq_some_iff.mp h
  obtain ⟨rfl, rfl⟩ := Prod.mk.inj heq
  exact ⟨tail, rfl, hcs⟩

/-- The literal was passed by the inner loop: its body is decoded to the string that `JSON.parse`
reads, and the texts that follow correspond. -/
def PassesLiteral (s : JsString) (str : JsString) (rest : List Char) : Prop :=
  ReadsAs false (rawString s).2 rest ∧ decodeJsonStringBody (rawString s).1 = str

/-- Ordinary units in front of a literal that is passed. -/
lemma PassesLiteral.append {us s str : JsString} {rest : List Char} (h : PassesLiteral s str rest)
    (hus : ∀ u ∈ us, BodyUnit u) : PassesLiteral (us ++ s) (us ++ str) rest := by
  rw [PassesLiteral, rawString_append hus, decodeJsonStringBody_append hus]
  exact ⟨h.1, by rw [h.2]⟩

/-- A two-character escape in front of a literal that is passed. -/
lemma PassesLiteral.simpleEscape {c : Char} {u : UInt16} (hc : simpleEscape c = some u)
    {s str : JsString} {rest : List Char} (h : PassesLiteral s str rest) :
    PassesLiteral (0x5C :: (utf16Units c ++ s)) (u :: str) rest := by
  have hascii : c.toNat < 0x80 ∧ c ≠ 'u' := by
    unfold GovAI.simpleEscape at hc
    split at hc <;> first | exact ⟨by decide, by decide⟩ | exact absurd hc nofun
  obtain ⟨hunits, hnat, hchar⟩ := utf16Units_ascii hascii.1
  have hraw : rawString (0x5C :: UInt16.ofNat c.toNat :: s) =
      (0x5C :: UInt16.ofNat c.toNat :: (rawString s).1, (rawString s).2) := by
    rw [rawString.eq_def]
    simp
  have hescape : bodyEscape (UInt16.ofNat c.toNat :: (rawString s).1) = some (u, 1) := by
    simp only [bodyEscape, hchar, if_neg hascii.2, hc, Option.map_some]
  rw [hunits, List.singleton_append, PassesLiteral, hraw]
  refine ⟨h.1, ?_⟩
  rw [decodeJsonStringBody, if_neg (by decide)]
  simp only [hescape, List.drop_succ_cons, List.drop_zero, h.2]

/-- An escape of four digits in front of a literal that is passed. -/
lemma PassesLiteral.unicodeEscape {a b c d : Char} {u : UInt16} (hu : unicodeUnit a b c d = some u)
    {s str : JsString} {rest : List Char} (h : PassesLiteral s str rest) :
    PassesLiteral (0x5C :: 0x75 :: (utf16Units a ++ (utf16Units b ++ (utf16Units c ++
      (utf16Units d ++ s))))) (u :: str) rest := by
  obtain ⟨ha, hb, hc, hd⟩ := isSome_of_unicodeUnit hu
  have hdigit : ∀ {x : Char}, (hexValue x).isSome →
      utf16Units x = [UInt16.ofNat x.toNat] ∧ unitChar (UInt16.ofNat x.toNat) = x ∧
        BodyUnit (UInt16.ofNat x.toNat) := by
    intro x hx
    obtain ⟨hascii, hquote, hback⟩ := ascii_of_hexValue hx
    obtain ⟨hunits, -, hchar⟩ := utf16Units_ascii hascii
    exact ⟨hunits, hchar, bodyUnit_of_mem hquote hback _ (by rw [hunits]; exact List.mem_singleton_self _)⟩
  obtain ⟨hunitsA, hcharA, hbodyA⟩ := hdigit ha
  obtain ⟨hunitsB, hcharB, hbodyB⟩ := hdigit hb
  obtain ⟨hunitsC, hcharC, hbodyC⟩ := hdigit hc
  obtain ⟨hunitsD, hcharD, hbodyD⟩ := hdigit hd
  rw [hunitsA, hunitsB, hunitsC, hunitsD]
  simp only [List.singleton_append]
  set digits : JsString := [UInt16.ofNat a.toNat, UInt16.ofNat b.toNat, UInt16.ofNat c.toNat,
    UInt16.ofNat d.toNat] with hdigits
  have hplain : ∀ x ∈ digits, BodyUnit x := by
    simp only [hdigits, List.forall_mem_cons]
    exact ⟨hbodyA, hbodyB, hbodyC, hbodyD, fun _ h => absurd h List.not_mem_nil⟩
  change PassesLiteral (0x5C :: 0x75 :: (digits ++ s)) (u :: str) rest
  have hraw : rawString (0x5C :: 0x75 :: (digits ++ s)) =
      (0x5C :: 0x75 :: (digits ++ (rawString s).1), (rawString s).2) := by
    rw [rawString.eq_def]
    simp [rawString_append hplain]
  have hescape : bodyEscape (0x75 :: (digits ++ (rawString s).1)) = some (u, 5) := by
    simp [bodyEscape, hdigits, hcharA, hcharB, hcharC, hcharD, hu, show unitChar 0x75 = 'u' from rfl]
  rw [PassesLiteral, hraw]
  refine ⟨h.1, ?_⟩
  rw [decodeJsonStringBody, if_neg (by decide)]
  simp only [hescape]
  exact congrArg (u :: ·) h.2

/-- **The inner loop and the decoder read a string literal like `JSON.parse`.** -/
theorem passesLiteral {cs : List Char} {str : JsString} {rest : List Char}
    (h : parseChars cs = some (str, rest)) {s : JsString} (hs : ReadsAs false s cs) :
    PassesLiteral s str rest := by
  induction cs using parseChars.induct generalizing str s with
  | case1 => cases h
  | case2 cs =>
    obtain ⟨rfl, rfl⟩ : [] = str ∧ cs = rest := by simpa [parseChars] using h
    obtain ⟨s', rfl, hs'⟩ := hs.cons (by decide)
    rw [(utf16Units_ascii (by decide : ('"' : Char).toNat < 0x80)).1]
    have hraw : rawString (UInt16.ofNat ('"' : Char).toNat :: s') = ([], s') := by
      rw [rawString.eq_def]
      rfl
    rw [List.singleton_append, PassesLiteral, hraw]
    exact ⟨hs', by rw [decodeJsonStringBody]⟩
  | case3 a b c d cs ih =>
    obtain ⟨u, hu, tail, hcs, rfl⟩ : ∃ u, unicodeUnit a b c d = some u ∧
        ∃ tail, parseChars cs = some (tail, rest) ∧ u :: tail = str := by
      simpa [parseChars, Option.bind_eq_some_iff] using h
    have hdigit : ∀ {x : Char} {ds : List Char} {s₀ : JsString}, (hexValue x).isSome →
        ReadsAs false s₀ (x :: ds) → ∃ s', s₀ = utf16Units x ++ s' ∧ ReadsAs false s' ds :=
      fun hx h => h.cons (ascii_of_hexValue hx).2.2
    rcases hs.cons_inv with ⟨s₁, rfl, hs₁⟩ | ⟨-, v, s₁, cs', hv, rfl, heq, hs₁⟩
    · -- the escape is written out
      obtain ⟨ha, hb, hc, hd⟩ := isSome_of_unicodeUnit hu
      obtain ⟨s₂, rfl, hs₂⟩ := ReadsAs.cons hs₁ (by decide)
      obtain ⟨s₃, rfl, hs₃⟩ := hdigit ha hs₂
      obtain ⟨s₄, rfl, hs₄⟩ := hdigit hb hs₃
      obtain ⟨s₅, rfl, hs₅⟩ := hdigit hc hs₄
      obtain ⟨s₆, rfl, hs₆⟩ := hdigit hd hs₅
      exact (ih hcs hs₆).unicodeEscape hu
    · -- the escape stands for a lone surrogate of the string
      have hcs' : cs = cs' := by
        simp only [GovAI.unicodeEscape, List.cons_append, List.nil_append, List.cons.injEq] at heq
        exact heq.2.2.2.2.2.2
      rw [heq, ← hcs'] at h
      obtain ⟨tail', htail, hread⟩ := parseChars_escape_inv h
      have hunits : ∀ x ∈ [v], BodyUnit x := fun x hx => by
        rw [List.mem_singleton.mp hx]
        exact bodyUnit_surrogate hv
      rw [htail]
      exact (ih hread (hcs' ▸ hs₁)).append hunits
  | case4 c cs hnot ih =>
    obtain ⟨u, hu, tail, hcs, rfl⟩ : ∃ u, simpleEscape c = some u ∧
        ∃ tail, parseChars cs = some (tail, rest) ∧ u :: tail = str := by
      rw [parseChars] at h
      · simpa [Option.bind_eq_some_iff] using h
      · exact fun a b c' d ds hc hds => hnot a b c' d ds hc hds
    have hcu : c ≠ 'u' := by
      rintro rfl
      cases hu
    rcases hs.cons_inv with ⟨s₁, rfl, hs₁⟩ | ⟨-, v, s₁, cs', hv, rfl, heq, hs₁⟩
    · rcases ReadsAs.cons_inv hs₁ with ⟨s₂, rfl, hs₂⟩ | ⟨hfalse, -⟩
      · have hs₂' : ReadsAs false s₂ cs := by simpa using hs₂
        exact (ih hcs hs₂').simpleEscape hu
      · exact absurd hfalse (by decide)
    · simp only [GovAI.unicodeEscape, List.cons_append, List.cons.injEq] at heq
      exact absurd heq.2.1 hcu
  | case5 c cs hquote hlong hshort hbad =>
    rw [parseChars, if_pos hbad] at h
    · cases h
    · exact hquote
    · exact hlong
    · exact hshort
  | case6 c cs hquote hlong hshort hgood ih =>
    obtain ⟨hback, hctrl⟩ := not_or.mp hgood
    rw [parseChars_plain hquote hback hctrl] at h
    obtain ⟨⟨tail, rest'⟩, hcs, heq⟩ := Option.map_eq_some_iff.mp h
    obtain ⟨rfl, rfl⟩ := Prod.mk.inj heq
    obtain ⟨s', rfl, hs'⟩ := hs.cons hback
    exact (ih hcs hs').append (bodyUnit_of_mem hquote hback)

end GovAI
