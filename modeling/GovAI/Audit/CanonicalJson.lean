import GovAI.Library.Fallible
import GovAI.Library.SortedClasses
import Mathlib.Data.Int.Order.Basic
import Mathlib.Data.List.Lex

/-!
# Canonical JSON

The deterministic serialisation of `packages/core-audit/src/canonical-json.ts`.  Every HMAC of the
audit chain is computed over the UTF-8 bytes of `canonicalize` applied to the event fields.

A JavaScript string is a list of UTF-16 code units, which need not be well formed; a finite number
is given by its shortest decimal, which is all that `JSON.stringify` prints of it.  The text that
comes out is always well-formed Unicode (`JSON.stringify` escapes lone surrogates), so it is a list
of characters.
-/

namespace GovAI

/-! ## Strings -/

/-- A JavaScript string: UTF-16 code units, lone surrogates allowed. -/
abbrev JsString := List UInt16

/-- The equality test of JavaScript strings is lawful; the modules that decide whether a text is in a
list take that from here. -/
theorem lawfulBEq_jsString : LawfulBEq JsString := inferInstance

/-- The UTF-16 code units of one character. -/
def utf16Units (c : Char) : JsString :=
  if c.toNat < 0x10000 then [UInt16.ofNat c.toNat]
  else [UInt16.ofNat (0xD800 + (c.toNat - 0x10000) / 0x400),
        UInt16.ofNat (0xDC00 + (c.toNat - 0x10000) % 0x400)]

/-- The JavaScript string of a well-formed text. -/
def jsString (s : String) : JsString := s.toList.flatMap utf16Units

/-- A high (leading) surrogate. -/
def isHighSurrogate (u : UInt16) : Bool := 0xD800 ≤ u.toNat && u.toNat < 0xDC00

/-- A low (trailing) surrogate. -/
def isLowSurrogate (u : UInt16) : Bool := 0xDC00 ≤ u.toNat && u.toNat < 0xE000

/-- The lower-case hexadecimal digit of a number below sixteen. -/
def hexDigit (n : ℕ) : Char := "0123456789abcdef".toList.getD n '0'

/-- The escape `\uXXXX` of `JSON.stringify`. -/
def unicodeEscape (u : UInt16) : List Char :=
  ['\\', 'u', hexDigit (u.toNat / 0x1000), hexDigit (u.toNat / 0x100 % 0x10),
    hexDigit (u.toNat / 0x10 % 0x10), hexDigit (u.toNat % 0x10)]

/-- `JSON.stringify` of a code unit that is not a surrogate. -/
def quoteUnit (u : UInt16) : List Char :=
  match u.toNat with
  | 0x22 => ['\\', '"']
  | 0x5C => ['\\', '\\']
  | 0x08 => ['\\', 'b']
  | 0x0C => ['\\', 'f']
  | 0x0A => ['\\', 'n']
  | 0x0D => ['\\', 'r']
  | 0x09 => ['\\', 't']
  | n => if n < 0x20 then unicodeEscape u else [Char.ofNat n]

/-- The inside of a JSON string literal: surrogate pairs are kept, lone surrogates escaped. -/
def quoteUnits : JsString → List Char
  | [] => []
  | [u] => if isHighSurrogate u || isLowSurrogate u then unicodeEscape u else quoteUnit u
  | u :: v :: rest =>
      if isHighSurrogate u && isLowSurrogate v then
        Char.ofNat (0x10000 + (u.toNat - 0xD800) * 0x400 + (v.toNat - 0xDC00)) :: quoteUnits rest
      else if isHighSurrogate u || isLowSurrogate u then
        unicodeEscape u ++ quoteUnits (v :: rest)
      else quoteUnit u ++ quoteUnits (v :: rest)

/-- `JSON.stringify` of a string. -/
def quoteString (s : JsString) : List Char := '"' :: quoteUnits s ++ ['"']

/-! ## Numbers -/

/-- A finite JavaScript number by its shortest decimal `± s · 10 ^ (n - k)`, where `s` has the `k`
digits printed.  Integers below `10 ^ 21` are printed without an exponent and get a constructor of
their own (`0` and `-0` print alike). -/
inductive JsNumber where
  /-- An integer printed as its decimal numeral. -/
  | int (i : ℤ)
  /-- Any other number: sign, digits without trailing zero, position of the decimal point. -/
  | frac (neg : Bool) (s : ℕ) (n : ℤ) (h : s % 10 ≠ 0)
deriving DecidableEq

/-- The digits of the fraction and exponent forms of `Number::toString`. -/
def fracDigits (ds : List Char) (n : ℤ) : List Char :=
  if 0 < n ∧ n ≤ 21 then ds.take n.toNat ++ '.' :: ds.drop n.toNat
  else if -6 < n ∧ n ≤ 0 then '0' :: '.' :: List.replicate (-n).toNat '0' ++ ds
  else
    (match ds with
      | d :: d' :: rest => d :: '.' :: d' :: rest
      | ds => ds) ++ 'e' :: (if n - 1 < 0 then '-' else '+') :: Nat.toDigits 10 (n - 1).natAbs

/-- `JSON.stringify` of a finite number. -/
def numberText : JsNumber → List Char
  | .int i => (if i < 0 then ['-'] else []) ++ Nat.toDigits 10 i.natAbs
  | .frac neg s n _ => (if neg then ['-'] else []) ++ fracDigits (Nat.toDigits 10 s) n

/-! ## Values -/

/-- The values `canonicalize` distinguishes. -/
inductive Json where
  | null
  | bool (b : Bool)
  | num (x : JsNumber)
  /-- `NaN`, `Infinity` or `-Infinity`, by the text a template literal prints. -/
  | nonFinite (text : String)
  | str (s : JsString)
  | bigint
  | undefined
  | arr (items : List Json)
  /-- The own enumerable properties, keys distinct. -/
  | obj (props : List (JsString × Json))
  /-- A function or a symbol, by its `typeof`. -/
  | other (typeName : String)

/-- The string value of a well-formed text. -/
def Json.text (s : String) : Json := .str (jsString s)

/-- JavaScript's default comparison of strings: UTF-16 code units, lexicographically. -/
def keyLe (a b : JsString) : Bool := decide (a.map UInt16.toNat ≤ b.map UInt16.toNat)

/-- `Object.keys(obj).sort()` carried out on the properties. -/
def sortProps {α : Type} (props : List (JsString × α)) : List (JsString × α) :=
  props.insertionSort fun p q => keyLe p.1 q.1

/-- `parts.join(',')`. -/
def joinComma (parts : List (List Char)) : List Char := List.intercalate [','] parts

/-- The texts of an object's properties, in order; a property whose value is `undefined` is
skipped. -/
def propTexts : List (JsString × Option (Except String (List Char))) →
    Except String (List (List Char))
  | [] => .ok []
  | (_, none) :: rest => propTexts rest
  | (k, some v) :: rest => do
      let text ← v
      let parts ← propTexts rest
      return (quoteString k ++ ':' :: text) :: parts

mutual

/-- `stringify`. -/
def stringify : Json → Except String (List Char)
  | .null => .ok "null".toList
  | .bool b => .ok (if b then "true".toList else "false".toList)
  | .num x => .ok (numberText x)
  | .nonFinite text => .error ("canonicalize: non-finite number " ++ text)
  | .str s => .ok (quoteString s)
  | .bigint => .error "canonicalize: bigint not supported (convert to string explicitly)"
  | .undefined => .error "canonicalize: undefined not serializable"
  | .arr items => do
      let parts ← stringifyItems items
      return '[' :: joinComma parts ++ [']']
  | .obj props => do
      let parts ← propTexts (sortProps (stringifyProps props))
      return '\x7b' :: joinComma parts ++ ['\x7d']
  | .other typeName => .error ("canonicalize: unsupported type " ++ typeName)

/-- The texts of an array's items, in order. -/
def stringifyItems : List Json → Except String (List (List Char))
  | [] => .ok []
  | v :: rest => do
      let text ← stringify v
      let parts ← stringifyItems rest
      return text :: parts

/-- The text of each property's value, `none` where the value is `undefined`. -/
def stringifyProps : List (JsString × Json) → List (JsString × Option (Except String (List Char)))
  | [] => []
  | (k, .undefined) :: rest => (k, none) :: stringifyProps rest
  | (k, v) :: rest => (k, some (stringify v)) :: stringifyProps rest

end

/-- `canonicalize`: the canonical text of a value, or the error thrown. -/
def canonicalize (input : Json) : Except String (List Char) := stringify input

/-! ## Stored documents -/

mutual

/-- The document that `JSON.stringify` and the cast to `jsonb` store: a property whose value is
`undefined` or a function is absent, and an array item or a number without JSON text is `null`. -/
def Json.stored : Json → Json
  | .arr items => .arr (Json.storedItems items)
  | .obj props => .obj (Json.storedProps props)
  | .nonFinite _ => .null
  | v => v

/-- The stored items of an array. -/
def Json.storedItems : List Json → List Json
  | [] => []
  | .undefined :: rest => .null :: Json.storedItems rest
  | .other _ :: rest => .null :: Json.storedItems rest
  | v :: rest => v.stored :: Json.storedItems rest

/-- The stored properties of an object. -/
def Json.storedProps : List (JsString × Json) → List (JsString × Json)
  | [] => []
  | (_, .undefined) :: rest => Json.storedProps rest
  | (_, .other _) :: rest => Json.storedProps rest
  | (k, v) :: rest => (k, v.stored) :: Json.storedProps rest

end

/-- Keys are compared by a total order. -/
instance keyLeTotal {α : Type} :
    Std.Total fun p q : JsString × α => keyLe p.1 q.1 = true where
  total p q := by simpa [keyLe] using le_total (p.1.map UInt16.toNat) (q.1.map UInt16.toNat)

/-- The comparison of keys is transitive. -/
instance keyLeTrans {α : Type} :
    IsTrans (JsString × α) fun p q => keyLe p.1 q.1 = true where
  trans p q r hpq hqr := by
    simp only [keyLe, decide_eq_true_eq] at hpq hqr ⊢
    exact hpq.trans hqr

/-- Sorting and dropping properties commute. -/
lemma sortProps_filter {α : Type} (q : JsString × α → Bool) (props : List (JsString × α)) :
    sortProps (props.filter q) = (sortProps props).filter q :=
  (filter_insertionSort q props).symm

/-- Properties without a text do not contribute. -/
lemma propTexts_filter (ps : List (JsString × Option (Except String (List Char)))) :
    propTexts (ps.filter fun p => p.2.isSome) = propTexts ps := by
  induction ps with
  | nil => rfl
  | cons p ps ih =>
    obtain ⟨k, v⟩ := p
    cases v with
    | none => simpa [propTexts] using ih
    | some v => simp [propTexts, ih]

/-- When all properties were turned into text, none of their values threw. -/
lemma ne_error_of_propTexts {ps : List (JsString × Option (Except String (List Char)))}
    {parts : List (List Char)} (h : propTexts ps = .ok parts) :
    ∀ p ∈ ps, ∀ e, p.2 ≠ some (.error e) := by
  induction ps generalizing parts with
  | nil => simp
  | cons p ps ih =>
    obtain ⟨k, v⟩ := p
    cases v with
    | none =>
      intro p hp e
      rcases List.mem_cons.mp hp with rfl | hp
      · simp
      · exact ih h p hp e
    | some v =>
      cases v with
      | error e => simp [propTexts, bind, Except.bind] at h
      | ok text =>
        cases hrest : propTexts ps with
        | error e => simp [propTexts, hrest, bind, Except.bind] at h
        | ok rest =>
          intro p hp e
          rcases List.mem_cons.mp hp with rfl | hp
          · simp
          · exact ih hrest p hp e

mutual

/-- The stored document of a value that has a canonical text has the same canonical text. -/
theorem stringify_stored : ∀ (j : Json) (text : List Char), stringify j = .ok text →
    stringify j.stored = .ok text
  | .null, _, h | .bool _, _, h | .num _, _, h | .str _, _, h => by simpa [Json.stored] using h
  | .nonFinite _, _, h | .bigint, _, h | .undefined, _, h | .other _, _, h => by
    simp [stringify] at h
  | .arr items, text, h => by
    cases hitems : stringifyItems items with
    | error e => simp [stringify, hitems, bind, Except.bind] at h
    | ok parts =>
      have := stringifyItems_stored items parts hitems
      simpa [Json.stored, stringify, hitems, this, bind, Except.bind] using h
  | .obj props, text, h => by
    cases hprops : propTexts (sortProps (stringifyProps props)) with
    | error e => simp [stringify, hprops, bind, Except.bind] at h
    | ok parts =>
      have hne : ∀ p ∈ stringifyProps props, ∀ e, p.2 ≠ some (.error e) := fun p hp =>
        ne_error_of_propTexts hprops p ((List.mem_insertionSort _).mpr hp)
      have : propTexts (sortProps (stringifyProps (Json.storedProps props))) = .ok parts := by
        rw [stringifyProps_stored props hne, sortProps_filter, propTexts_filter, hprops]
      simpa [Json.stored, stringify, hprops, this, bind, Except.bind] using h

/-- The stored items of an array have the same texts. -/
theorem stringifyItems_stored : ∀ (items : List Json) (parts : List (List Char)),
    stringifyItems items = .ok parts → stringifyItems (Json.storedItems items) = .ok parts
  | [], _, h => by simpa [Json.storedItems] using h
  | v :: rest, parts, h => by
    cases hv : stringify v with
    | error e => simp [stringifyItems, hv, bind, Except.bind] at h
    | ok text =>
      cases hrest : stringifyItems rest with
      | error e => simp [stringifyItems, hv, hrest, bind, Except.bind] at h
      | ok texts =>
        have h₁ := stringify_stored v text hv
        have h₂ := stringifyItems_stored rest texts hrest
        have hcons : Json.storedItems (v :: rest) = v.stored :: Json.storedItems rest := by
          cases v <;> first | rfl | simp [stringify] at hv
        simpa [hcons, stringifyItems, hv, hrest, h₁, h₂, bind, Except.bind] using h

/-- The stored properties of an object are those that are present, with the same texts. -/
theorem stringifyProps_stored : ∀ (props : List (JsString × Json)),
    (∀ p ∈ stringifyProps props, ∀ e, p.2 ≠ some (.error e)) →
      stringifyProps (Json.storedProps props) =
        (stringifyProps props).filter fun p => p.2.isSome
  | [], _ => by simp [Json.storedProps, stringifyProps]
  | (k, v) :: rest, h => by
    by_cases hu : v = .undefined
    · subst hu
      have hrest := stringifyProps_stored rest fun p hp =>
        h p (by simp [stringifyProps, hp])
      simpa [Json.storedProps, stringifyProps] using hrest
    · have hcons : ∀ w, w ≠ Json.undefined →
          stringifyProps ((k, w) :: rest) = (k, some (stringify w)) :: stringifyProps rest := by
        intro w hw
        cases w <;> first | rfl | exact absurd rfl hw
      rw [hcons v hu] at h ⊢
      have hrest := stringifyProps_stored rest fun p hp => h p (by simp [hp])
      cases hv : stringify v with
      | error e => exact absurd (by rw [hv]) (h (k, some (stringify v)) (by simp) e)
      | ok text =>
        have h₁ := stringify_stored v text hv
        have hne : v.stored ≠ .undefined := by
          intro hs
          rw [hs] at h₁
          simp [stringify] at h₁
        have hstored : Json.storedProps ((k, v) :: rest) =
            (k, v.stored) :: Json.storedProps rest := by
          cases v <;> first | rfl | simp [stringify] at hv
        have hcons' : stringifyProps ((k, v.stored) :: Json.storedProps rest) =
            (k, some (stringify v.stored)) :: stringifyProps (Json.storedProps rest) := by
          generalize v.stored = w at hne
          cases w <;> first | rfl | exact absurd rfl hne
        rw [hstored, hcons', h₁, hrest]
        simp

end

/-- The texts of the properties of two lists in a row. -/
lemma stringifyProps_append (ps qs : List (JsString × Json)) :
    stringifyProps (ps ++ qs) = stringifyProps ps ++ stringifyProps qs := by
  induction ps with
  | nil => simp [stringifyProps]
  | cons p ps ih =>
    obtain ⟨k, v⟩ := p
    cases v <;> simp [stringifyProps, ih]

/-- An object keeps its canonical text when its last property is replaced by its stored form. -/
theorem canonicalize_obj_concat_stored {ps : List (JsString × Json)} {k : JsString} {v : Json}
    {text : List Char} (h : canonicalize (.obj (ps ++ [(k, v)])) = .ok text) :
    canonicalize (.obj (ps ++ [(k, v.stored)])) = .ok text := by
  by_cases hu : v = .undefined
  · subst hu
    simpa [Json.stored] using h
  · have hone : ∀ w, w ≠ Json.undefined → stringifyProps [(k, w)] = [(k, some (stringify w))] := by
      intro w hw
      cases w <;> first | rfl | exact absurd rfl hw
    have hsome : ∃ cs, stringify v = .ok cs := by
      unfold canonicalize stringify at h
      simp only [except_bind_eq_ok_iff] at h
      obtain ⟨parts, hparts, -⟩ := h
      cases hv : stringify v with
      | ok cs => exact ⟨cs, rfl⟩
      | error e =>
        refine absurd (by rw [hv]) (ne_error_of_propTexts hparts (k, some (stringify v)) ?_ e)
        simp [sortProps, List.mem_insertionSort, stringifyProps_append, hone v hu]
    obtain ⟨cs, hcs⟩ := hsome
    have hstored := stringify_stored v cs hcs
    have hne : v.stored ≠ .undefined := by
      intro hs
      rw [hs] at hstored
      simp [stringify] at hstored
    have hsame : stringifyProps (ps ++ [(k, v.stored)]) = stringifyProps (ps ++ [(k, v)]) := by
      rw [stringifyProps_append, stringifyProps_append, hone v hu, hone _ hne, hcs, hstored]
    unfold canonicalize stringify at h ⊢
    rw [hsame]
    exact h

end GovAI
