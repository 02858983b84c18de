import GovAI.Audit.Event
import GovAI.Json.Order

/-!
# Parsing JSON

`JSON.parse` as a recursive descent over the characters of the text.  A numeral is cut out by the
grammar of JSON and then read by a parameter, the conversion of a decimal numeral to the nearest
double; what it must satisfy is only that a printed number is read back.  A string is turned into
UTF-16 code units.  An object gets its properties in the order in which JavaScript walks them:
array indices in ascending order, then the other keys as they first occurred, a repeated key with
its last value.
-/

namespace GovAI

attribute [local instance] lawfulBEq_jsString

/-! ## Tokens -/

/-- The characters that JSON allows between tokens. -/
def isJsonSpace (c : Char) : Bool := c = ' ' || c = '\t' || c = '\n' || c = '\r'

/-- The text after leading white space. -/
def skipSpace (cs : List Char) : List Char := cs.dropWhile isJsonSpace

/-- The code unit of an escape `\uXXXX`. -/
def unicodeUnit (a b c d : Char) : Option UInt16 := do
  let a ← hexValue a
  let b ← hexValue b
  let c ← hexValue c
  let d ← hexValue d
  return UInt16.ofNat (((a * 16 + b) * 16 + c) * 16 + d)

/-- The code unit of a two-character escape. -/
def simpleEscape (c : Char) : Option UInt16 :=
  match c with
  | '"' => some 0x22
  | '\\' => some 0x5C
  | '/' => some 0x2F
  | 'b' => some 0x08
  | 'f' => some 0x0C
  | 'n' => some 0x0A
  | 'r' => some 0x0D
  | 't' => some 0x09
  | _ => none

/-- The rest of a string literal after its opening quote, and the text that follows it. -/
def parseChars : List Char → Option (JsString × List Char)
  | [] => none
  | '"' :: cs => some ([], cs)
  | '\\' :: 'u' :: a :: b :: c :: d :: cs => do
    let u ← unicodeUnit a b c d
    let (s, rest) ← parseChars cs
    return (u :: s, rest)
  | '\\' :: c :: cs => do
    let u ← simpleEscape c
    let (s, rest) ← parseChars cs
    return (u :: s, rest)
  | c :: cs =>
    if c = '\\' ∨ c.toNat < 0x20 then none
    else do
      let (s, rest) ← parseChars cs
      return (utf16Units c ++ s, rest)

/-- The optional minus sign. -/
def scanSign : List Char → List Char × List Char
  | '-' :: cs => (['-'], cs)
  | cs => ([], cs)

/-- One or more digits. -/
def scanDigits (cs : List Char) : Option (List Char × List Char) :=
  if cs.takeWhile Char.isDigit = [] then none
  else some (cs.takeWhile Char.isDigit, cs.dropWhile Char.isDigit)

/-- The integer part: `0`, or digits that do not begin with `0`. -/
def scanInteger : List Char → Option (List Char × List Char)
  | '0' :: cs => some (['0'], cs)
  | cs => scanDigits cs

/-- The optional fraction. -/
def scanFraction : List Char → Option (List Char × List Char)
  | '.' :: cs => do
    let (ds, rest) ← scanDigits cs
    return ('.' :: ds, rest)
  | cs => some ([], cs)

/-- The optional sign of an exponent. -/
def scanExponentSign : List Char → List Char × List Char
  | '-' :: cs => (['-'], cs)
  | '+' :: cs => (['+'], cs)
  | cs => ([], cs)

/-- The optional exponent. -/
def scanExponent : List Char → Option (List Char × List Char)
  | 'e' :: cs => do
    let (ds, rest) ← scanDigits (scanExponentSign cs).2
    return ('e' :: (scanExponentSign cs).1 ++ ds, rest)
  | 'E' :: cs => do
    let (ds, rest) ← scanDigits (scanExponentSign cs).2
    return ('E' :: (scanExponentSign cs).1 ++ ds, rest)
  | cs => some ([], cs)

/-- A numeral by its parts. -/
structure Numeral where
  /-- The minus sign, if any. -/
  sign : List Char
  /-- The digits before the point. -/
  int : List Char
  /-- The point and the digits after it, if any. -/
  frac : List Char
  /-- The exponent with its letter and sign, if any. -/
  exp : List Char

/-- The text of a numeral. -/
def Numeral.text (x : Numeral) : List Char := x.sign ++ x.int ++ x.frac ++ x.exp

/-- A numeral and the text that follows it. -/
def scanNumber (cs : List Char) : Option (Numeral × List Char) := do
  let (int, cs₁) ← scanInteger (scanSign cs).2
  let (frac, cs₂) ← scanFraction cs₁
  let (exp, cs₃) ← scanExponent cs₂
  return (⟨(scanSign cs).1, int, frac, exp⟩, cs₃)

/-! ## Own properties -/

/-- A property is created, or its value replaced. -/
def writeProp {α : Type} (props : List (JsString × α)) (p : JsString × α) : List (JsString × α) :=
  if p.1 ∈ props.map (·.1) then props.map fun q => if q.1 = p.1 then p else q
  else props ++ [p]

/-- The number of an array index: a canonical numeral below `2 ^ 32 - 1`. -/
def arrayIndex (key : JsString) : Option ℕ :=
  let ds := key.map UInt16.toNat
  let n := ds.foldl (fun n d => 10 * n + (d - 48)) 0
  if ds ≠ [] ∧ (∀ d ∈ ds, 48 ≤ d ∧ d ≤ 57) ∧ (ds.head? = some 48 → ds.length = 1) ∧
      n < 2 ^ 32 - 1 then some n
  else none

/-- The properties in the order of `OrdinaryOwnPropertyKeys`. -/
def ownOrder {α : Type} (props : List (JsString × α)) : List (JsString × α) :=
  (props.filter fun p => (arrayIndex p.1).isSome).insertionSort
      (fun p q => (arrayIndex p.1).getD 0 ≤ (arrayIndex q.1).getD 0) ++
    props.filter fun p => !(arrayIndex p.1).isSome

/-- The own properties of an object that is written with `props` between its braces. -/
def ownProps {α : Type} (props : List (JsString × α)) : List (JsString × α) :=
  ownOrder (props.foldl writeProp [])

/-! ## Values -/

section Parse

variable (number : List Char → Option JsonNumber)

mutual

/-- A value and the text that follows it.  The first argument bounds the depth of the recursion. -/
def parseValue : ℕ → List Char → Option (JsonValue × List Char)
  | 0, _ => none
  | fuel + 1, cs =>
    match skipSpace cs with
    | '[' :: cs =>
      match skipSpace cs with
      | ']' :: rest => some (.arr [], rest)
      | cs => (parseItems fuel cs).map fun r => (.arr r.1, r.2)
    | '\x7b' :: cs =>
      match skipSpace cs with
      | '\x7d' :: rest => some (.obj [], rest)
      | cs => (parseProps fuel cs).map fun r => (.obj (ownProps r.1), r.2)
    | '"' :: cs => (parseChars cs).map fun r => (.str r.1, r.2)
    | 'n' :: 'u' :: 'l' :: 'l' :: rest => some (.null, rest)
    | 't' :: 'r' :: 'u' :: 'e' :: rest => some (.bool true, rest)
    | 'f' :: 'a' :: 'l' :: 's' :: 'e' :: rest => some (.bool false, rest)
    | cs => do
      let (numeral, rest) ← scanNumber cs
      let x ← number numeral.text
      return (.num x, rest)

/-- The items of an array that is not empty, up to its closing bracket. -/
def parseItems : ℕ → List Char → Option (List JsonValue × List Char)
  | 0, _ => none
  | fuel + 1, cs => do
    let (v, cs₁) ← parseValue fuel cs
    match skipSpace cs₁ with
    | ',' :: cs₂ => (parseItems fuel cs₂).map fun r => (v :: r.1, r.2)
    | ']' :: rest => some ([v], rest)
    | _ => none

/-- The properties of an object that is not empty, up to its closing brace. -/
def parseProps : ℕ → List Char → Option (List (JsString × JsonValue) × List Char)
  | 0, _ => none
  | fuel + 1, cs =>
    match skipSpace cs with
    | '"' :: cs => do
      let (k, cs₁) ← parseChars cs
      match skipSpace cs₁ with
      | ':' :: cs₂ => do
        let (v, cs₃) ← parseValue fuel cs₂
        match skipSpace cs₃ with
        | ',' :: cs₄ => (parseProps fuel cs₄).map fun r => ((k, v) :: r.1, r.2)
        | '\x7d' :: rest => some ([(k, v)], rest)
        | _ => none
      | _ => none
    | _ => none

end

/-- `JSON.parse`; `none` where it throws. -/
def jsonParse (text : List Char) : Option JsonValue := do
  let (v, rest) ← parseValue number (text.length + 1) text
  if skipSpace rest = [] then some v else none

end Parse

/-! ## The syntax tree

The same descent without the values: an object keeps its members as they are written, and a numeral its
text. -/

/-- A JSON text by the grammar: the members of an object as they are written. -/
inductive JsonTree where
  | null
  | bool (b : Bool)
  | num (text : List Char)
  | str (s : JsString)
  | arr (items : List JsonTree)
  | obj (members : List (JsString × JsonTree))

mutual

/-- The tree of a value and the text that follows it.  The first argument bounds the depth of the
recursion. -/
def readTree : ℕ → List Char → Option (JsonTree × List Char)
  | 0, _ => none
  | fuel + 1, cs =>
    match skipSpace cs with
    | '[' :: cs =>
      match skipSpace cs with
      | ']' :: rest => some (.arr [], rest)
      | cs => (readItems fuel cs).map fun r => (.arr r.1, r.2)
    | '\x7b' :: cs =>
      match skipSpace cs with
      | '\x7d' :: rest => some (.obj [], rest)
      | cs => (readMembers fuel cs).map fun r => (.obj r.1, r.2)
    | '"' :: cs => (parseChars cs).map fun r => (.str r.1, r.2)
    | 'n' :: 'u' :: 'l' :: 'l' :: rest => some (.null, rest)
    | 't' :: 'r' :: 'u' :: 'e' :: rest => some (.bool true, rest)
    | 'f' :: 'a' :: 'l' :: 's' :: 'e' :: rest => some (.bool false, rest)
    | cs => (scanNumber cs).map fun r => (.num r.1.text, r.2)

/-- The items of an array that is not empty, up to its closing bracket. -/
def readItems : ℕ → List Char → Option (List JsonTree × List Char)
  | 0, _ => none
  | fuel + 1, cs => do
    let (t, cs₁) ← readTree fuel cs
    match skipSpace cs₁ with
    | ',' :: cs₂ => (readItems fuel cs₂).map fun r => (t :: r.1, r.2)
    | ']' :: rest => some ([t], rest)
    | _ => none

/-- The members of an object that is not empty, up to its closing brace. -/
def readMembers : ℕ → List Char → Option (List (JsString × JsonTree) × List Char)
  | 0, _ => none
  | fuel + 1, cs =>
    match skipSpace cs with
    | '"' :: cs => do
      let (k, cs₁) ← parseChars cs
      match skipSpace cs₁ with
      | ':' :: cs₂ => do
        let (t, cs₃) ← readTree fuel cs₂
        match skipSpace cs₃ with
        | ',' :: cs₄ => (readMembers fuel cs₄).map fun r => ((k, t) :: r.1, r.2)
        | '\x7d' :: rest => some ([(k, t)], rest)
        | _ => none
      | _ => none
    | _ => none

end

/-! ## Strings are read back -/

/-- An escape `\uXXXX` is read back. -/
lemma parseChars_unicodeEscape (u : UInt16) (cs : List Char) :
    parseChars (unicodeEscape u ++ cs) = (parseChars cs).map fun r => (u :: r.1, r.2) := by
  have hu : u.toNat < 65536 := u.toNat_lt
  have h₁ := hexValue_hexDigit (n := u.toNat / 0x1000) (by omega)
  have h₂ := hexValue_hexDigit (n := u.toNat / 0x100 % 0x10) (by omega)
  have h₃ := hexValue_hexDigit (n := u.toNat / 0x10 % 0x10) (by omega)
  have h₄ := hexValue_hexDigit (n := u.toNat % 0x10) (by omega)
  have hsum : ((u.toNat / 0x1000 * 16 + u.toNat / 0x100 % 0x10) * 16 +
      u.toNat / 0x10 % 0x10) * 16 + u.toNat % 0x10 = u.toNat := by omega
  have hunit : unicodeUnit (hexDigit (u.toNat / 0x1000)) (hexDigit (u.toNat / 0x100 % 0x10))
      (hexDigit (u.toNat / 0x10 % 0x10)) (hexDigit (u.toNat % 0x10)) = some u := by
    simp only [unicodeUnit, h₁, h₂, h₃, h₄, hsum, Option.bind_eq_bind, Option.bind_some,
      UInt16.ofNat_toNat, Option.pure_def]
  simp only [unicodeEscape, List.cons_append, List.nil_append, parseChars, hunit]
  cases parseChars cs <;> rfl

/-- A character that stands for itself contributes its code units. -/
lemma parseChars_plain {c : Char} (hquote : c ≠ '"') (hback : c ≠ '\\') (hctrl : ¬ c.toNat < 0x20)
    (cs : List Char) :
    parseChars (c :: cs) = (parseChars cs).map fun r => (utf16Units c ++ r.1, r.2) := by
  rw [parseChars.eq_def]
  split
  · simp_all
  · simp_all
  · simp_all
  · simp_all
  · rename_i c' cs' _ _ _ heq
    obtain ⟨rfl, rfl⟩ := List.cons.inj heq
    rw [if_neg (by simp [hback, hctrl])]
    cases parseChars cs <;> rfl

/-- The scalar values of Unicode are the code points of characters. -/
lemma toNat_charOfNat {n : ℕ} (hn : n < 0xD800 ∨ 0xDFFF < n ∧ n < 0x110000) :
    (Char.ofNat n).toNat = n := by
  have hvalid : n.isValidChar := by
    simpa [Nat.isValidChar] using hn
  rw [Char.ofNat, dif_pos hvalid]
  rfl

/-- A two-character escape is read back. -/
lemma parseChars_simpleEscape {c : Char} {u : UInt16} (hc : simpleEscape c = some u)
    (cs : List Char) :
    parseChars ('\\' :: c :: cs) = (parseChars cs).map fun r => (u :: r.1, r.2) := by
  have hcu : c ≠ 'u' := by
    rintro rfl
    simp [simpleEscape] at hc
  rw [parseChars.eq_def]
  split
  · simp_all
  · simp_all
  · simp_all
  · rename_i c' cs' _ heq
    obtain ⟨rfl, rfl⟩ : c = c' ∧ cs = cs' := by simpa using heq
    rw [hc]
    cases parseChars cs <;> rfl
  · rename_i d ds _ hnot heq
    obtain ⟨rfl, rfl⟩ := List.cons.inj heq
    exact absurd rfl (hnot c cs rfl)

/-- A code unit below the surrogates or above them is a character of one unit. -/
lemma utf16Units_charOfNat {u : UInt16} (hhigh : isHighSurrogate u = false)
    (hlow : isLowSurrogate u = false) :
    (Char.ofNat u.toNat).toNat = u.toNat ∧ utf16Units (Char.ofNat u.toNat) = [u] := by
  have hu : u.toNat < 65536 := u.toNat_lt
  simp only [isHighSurrogate, isLowSurrogate, Bool.and_eq_false_iff, decide_eq_false_iff_not]
    at hhigh hlow
  have hnat : (Char.ofNat u.toNat).toNat = u.toNat := toNat_charOfNat (by omega)
  refine ⟨hnat, ?_⟩
  rw [utf16Units, hnat, if_pos (by omega), UInt16.ofNat_toNat]

/-- A code unit that is no surrogate is read back. -/
lemma parseChars_quoteUnit {u : UInt16} (hhigh : isHighSurrogate u = false)
    (hlow : isLowSurrogate u = false) (cs : List Char) :
    parseChars (quoteUnit u ++ cs) = (parseChars cs).map fun r => (u :: r.1, r.2) := by
  have hunit : ∀ v : UInt16, u.toNat = v.toNat → u = v := fun v h => UInt16.toNat_inj.mp h
  unfold quoteUnit
  split
  · rename_i h
    exact hunit 0x22 h ▸ parseChars_simpleEscape rfl cs
  · rename_i h
    exact hunit 0x5C h ▸ parseChars_simpleEscape rfl cs
  · rename_i h
    exact hunit 0x08 h ▸ parseChars_simpleEscape rfl cs
  · rename_i h
    exact hunit 0x0C h ▸ parseChars_simpleEscape rfl cs
  · rename_i h
    exact hunit 0x0A h ▸ parseChars_simpleEscape rfl cs
  · rename_i h
    exact hunit 0x0D h ▸ parseChars_simpleEscape rfl cs
  · rename_i h
    exact hunit 0x09 h ▸ parseChars_simpleEscape rfl cs
  · rename_i hquote hback _ _ _ _ _
    split
    · exact parseChars_unicodeEscape u cs
    · rename_i hctrl
      obtain ⟨hnat, hunits⟩ := utf16Units_charOfNat hhigh hlow
      have hne : ∀ d : Char, u.toNat ≠ d.toNat → Char.ofNat u.toNat ≠ d := by
        rintro d hd rfl
        exact hd hnat.symm
      have hplain := parseChars_plain (hne '"' hquote) (hne '\\' hback) (by rwa [hnat]) cs
      rwa [hunits] at hplain

/-- A surrogate pair is read back from its character. -/
lemma parseChars_pair {u v : UInt16} (hu : isHighSurrogate u = true)
    (hv : isLowSurrogate v = true) (cs : List Char) :
    parseChars (Char.ofNat (0x10000 + (u.toNat - 0xD800) * 0x400 + (v.toNat - 0xDC00)) :: cs) =
      (parseChars cs).map fun r => (u :: v :: r.1, r.2) := by
  simp only [isHighSurrogate, isLowSurrogate, Bool.and_eq_true, decide_eq_true_eq] at hu hv
  set n := 0x10000 + (u.toNat - 0xD800) * 0x400 + (v.toNat - 0xDC00) with hn
  have hnat : (Char.ofNat n).toNat = n := toNat_charOfNat (by omega)
  have hne : ∀ d : Char, d.toNat < 0x10000 → Char.ofNat n ≠ d := by
    rintro d hd rfl
    omega
  have hhigh : 0xD800 + (n - 0x10000) / 0x400 = u.toNat := by omega
  have hlow : 0xDC00 + (n - 0x10000) % 0x400 = v.toNat := by omega
  have hunits : utf16Units (Char.ofNat n) = [u, v] := by
    rw [utf16Units, hnat, if_neg (by omega), hhigh, hlow, UInt16.ofNat_toNat, UInt16.ofNat_toNat]
  rw [parseChars_plain (hne '"' (by decide)) (hne '\\' (by decide)) (by omega), hunits]
  rfl

/-- **A string is read back from its literal.** -/
theorem parseChars_quoteUnits (s : JsString) (cs : List Char) :
    parseChars (quoteUnits s ++ '"' :: cs) = some (s, cs) := by
  induction s using quoteUnits.induct with
  | case1 => simp [quoteUnits, parseChars]
  | case2 u hu =>
    rw [quoteUnits, if_pos hu, parseChars_unicodeEscape]
    simp [parseChars]
  | case3 u hu =>
    simp only [Bool.or_eq_true, not_or, Bool.not_eq_true] at hu
    rw [quoteUnits, if_neg (by simp [hu]), parseChars_quoteUnit hu.1 hu.2]
    simp [parseChars]
  | case4 u v rest huv ih =>
    obtain ⟨hu, hv⟩ := Bool.and_eq_true_iff.mp huv
    rw [quoteUnits, if_pos huv, List.cons_append, parseChars_pair hu hv, ih]
    rfl
  | case5 u v rest huv hu ih =>
    rw [quoteUnits, if_neg huv, if_pos hu, List.append_assoc, parseChars_unicodeEscape, ih]
    rfl
  | case6 u v rest huv hu ih =>
    rw [quoteUnits, if_neg huv, if_neg hu, List.append_assoc]
    simp only [Bool.or_eq_true, not_or, Bool.not_eq_true] at hu
    rw [parseChars_quoteUnit hu.1 hu.2, ih]
    rfl

/-! ## A string that need not be well-formed

A lone surrogate may stand for itself in a string literal and nowhere else, so it is written as its
escape; after a backslash it is an error. -/

/-- A text that `JSON.parse` reads like the string; `escaped` says whether the code unit before is a
backslash that begins an escape. -/
def jsonText : Bool → JsString → Option (List Char)
  | _, [] => some []
  | escaped, [u] =>
    if isHighSurrogate u || isLowSurrogate u then
      if escaped then none else some (unicodeEscape u)
    else some [Char.ofNat u.toNat]
  | escaped, u :: v :: rest =>
    if isHighSurrogate u && isLowSurrogate v then
      (jsonText false rest).map
        (Char.ofNat (0x10000 + (u.toNat - 0xD800) * 0x400 + (v.toNat - 0xDC00)) :: ·)
    else if isHighSurrogate u || isLowSurrogate u then
      if escaped then none else (jsonText false (v :: rest)).map (unicodeEscape u ++ ·)
    else
      (jsonText (!escaped && u.toNat = 0x5C) (v :: rest)).map (Char.ofNat u.toNat :: ·)

/-- `JSON.parse` of a string. -/
def jsonParseUnits (number : List Char → Option JsonNumber) (s : JsString) : Option JsonValue :=
  (jsonText false s).bind (jsonParse number)

end GovAI
