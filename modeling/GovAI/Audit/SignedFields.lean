import GovAI.Audit.CanonicalForm
import GovAI.Audit.ChainIntegrity
import GovAI.Json.Texts

/-!
# The fields inside the signed bytes

The canonical bytes of an event determine the fields that `auditAppend` put into them, whatever the
redaction metadata among them contain (`canonicalBytes_member`).  The text of every value is passed over
by one scan that counts brackets outside of strings, so that the members of the canonical object can be
told apart.  With the history of the system this says which pairs of bytes and tags an adversary without
the key has.
-/

namespace GovAI

/-! ## A scan that passes over values -/

/-- What follows the text of a value: the scan stops at a comma or a closing bracket outside of all
brackets and strings. -/
def skipText : ℕ → Bool → List Char → List Char
  | depth, true, '\\' :: _ :: cs => skipText depth true cs
  | depth, true, c :: cs => skipText depth (c ≠ '"') cs
  | depth, false, c :: cs =>
    if c = '"' then skipText depth true cs
    else if c = '[' ∨ c = '\x7b' then skipText (depth + 1) false cs
    else if (c = ']' ∨ c = '\x7d' ∨ c = ',') ∧ depth = 0 then c :: cs
    else if c = ']' ∨ c = '\x7d' then skipText (depth - 1) false cs
    else skipText depth false cs
  | _, _, [] => []

/-- A text that the scan passes over, at any depth. -/
def Skipped (text : List Char) : Prop :=
  ∀ depth cs, skipText depth false (text ++ cs) = skipText depth false cs

/-- A character that is neither a quote nor a bracket nor a comma. -/
def IsPlain (c : Char) : Prop := c ∉ ['"', '[', '\x7b', ']', '\x7d', ',']

instance : DecidablePred IsPlain := fun c =>
  inferInstanceAs (Decidable (c ∉ ['"', '[', '\x7b', ']', '\x7d', ',']))

/-- Plain characters are passed over. -/
lemma skipped_of_plain {text : List Char} (h : ∀ c ∈ text, IsPlain c) : Skipped text := by
  intro depth cs
  induction text with
  | nil => rfl
  | cons c text ih =>
    have hc := h c List.mem_cons_self
    simp only [IsPlain, List.mem_cons, List.not_mem_nil, or_false, not_or] at hc
    rw [List.cons_append, skipText, if_neg hc.1, if_neg (by simp [hc]), if_neg (by simp [hc]),
      if_neg (by simp [hc])]
    exact ih fun d hd => h d (List.mem_cons_of_mem _ hd)

/-- Texts in a row are passed over. -/
lemma Skipped.append {text text' : List Char} (h : Skipped text) (h' : Skipped text') :
    Skipped (text ++ text') := by
  intro depth cs
  rw [List.append_assoc, h, h']

/-- Within a string, characters other than a quote and a backslash are passed over. -/
lemma skipText_inside {text : List Char} (h : ∀ c ∈ text, c ≠ '"' ∧ c ≠ '\\') (depth : ℕ)
    (cs : List Char) : skipText depth true (text ++ cs) = skipText depth true cs := by
  induction text with
  | nil => rfl
  | cons c text ih =>
    obtain ⟨hquote, hback⟩ := h c List.mem_cons_self
    rw [List.cons_append, skipText, decide_eq_true hquote]
    · exact ih fun d hd => h d (List.mem_cons_of_mem _ hd)
    · rintro _ _ rfl
      exact absurd rfl hback

/-- The hexadecimal digits are neither a quote nor a backslash. -/
lemma hexDigit_inside (n : ℕ) : hexDigit n ≠ '"' ∧ hexDigit n ≠ '\\' := by
  by_cases hn : n < 16
  · revert n
    decide
  · rw [hexDigit, List.getD_eq_default _ _ (by simpa using hn)]
    decide

/-- Within a string the escape of a code unit is passed over. -/
lemma skipText_unicodeEscape (u : UInt16) (depth : ℕ) (cs : List Char) :
    skipText depth true (unicodeEscape u ++ cs) = skipText depth true cs := by
  have hdigits : ∀ c ∈ [hexDigit (u.toNat / 0x1000), hexDigit (u.toNat / 0x100 % 0x10),
      hexDigit (u.toNat / 0x10 % 0x10), hexDigit (u.toNat % 0x10)], c ≠ '"' ∧ c ≠ '\\' := by
    simp [hexDigit_inside]
  exact skipText_inside hdigits depth cs

/-- Within a string the text of a code unit is passed over. -/
lemma skipText_quoteUnit {u : UInt16} (hhigh : isHighSurrogate u = false)
    (hlow : isLowSurrogate u = false) (depth : ℕ) (cs : List Char) :
    skipText depth true (quoteUnit u ++ cs) = skipText depth true cs := by
  unfold quoteUnit
  split
  case h_8 hquote hback _ _ _ _ _ =>
    split
    · exact skipText_unicodeEscape u depth cs
    · have hnat := (utf16Units_charOfNat hhigh hlow).1
      refine skipText_inside (fun c hc => ?_) depth cs
      rw [List.mem_singleton.mp hc]
      constructor
      · intro heq
        exact hquote (hnat.symm.trans (congrArg Char.toNat heq))
      · intro heq
        exact hback (hnat.symm.trans (congrArg Char.toNat heq))
  all_goals rfl

/-- Within a string the text of the rest is passed over. -/
lemma skipText_quoteUnits (s : JsString) (depth : ℕ) (cs : List Char) :
    skipText depth true (quoteUnits s ++ cs) = skipText depth true cs := by
  induction s using quoteUnits.induct with
  | case1 => rfl
  | case2 u hu =>
    rw [quoteUnits, if_pos hu, skipText_unicodeEscape]
  | case3 u hu =>
    simp only [Bool.or_eq_true, not_or, Bool.not_eq_true] at hu
    rw [quoteUnits, if_neg (by simp [hu]), skipText_quoteUnit hu.1 hu.2]
  | case4 u v rest huv ih =>
    obtain ⟨hu, hv⟩ := Bool.and_eq_true_iff.mp huv
    rw [quoteUnits, if_pos huv, List.cons_append, ← ih]
    rw [← List.singleton_append]
    refine skipText_inside (fun c hc => ?_) depth _
    -- the character of a surrogate pair is beyond the two characters
    simp only [isHighSurrogate, isLowSurrogate, Bool.and_eq_true, decide_eq_true_eq] at hu hv
    rw [List.mem_singleton.mp hc]
    have hnat : (Char.ofNat (0x10000 + (u.toNat - 0xD800) * 0x400 + (v.toNat - 0xDC00))).toNat =
        0x10000 + (u.toNat - 0xD800) * 0x400 + (v.toNat - 0xDC00) := toNat_charOfNat (by omega)
    constructor
    · intro heq
      rw [heq] at hnat
      change 34 = _ at hnat
      omega
    · intro heq
      rw [heq] at hnat
      change 92 = _ at hnat
      omega
  | case5 u v rest huv hu ih =>
    rw [quoteUnits, if_neg huv, if_pos hu, List.append_assoc, skipText_unicodeEscape, ih]
  | case6 u v rest huv hu ih =>
    rw [quoteUnits, if_neg huv, if_neg hu, List.append_assoc]
    simp only [Bool.or_eq_true, not_or, Bool.not_eq_true] at hu
    rw [skipText_quoteUnit hu.1 hu.2, ih]

/-- A string literal is passed over. -/
lemma skipped_quoteString (s : JsString) : Skipped (quoteString s) := by
  intro depth cs
  rw [quoteString, List.append_assoc, List.cons_append]
  change skipText depth true (quoteUnits s ++ (['"'] ++ cs)) = _
  rw [skipText_quoteUnits]
  rfl

/-- The digits of a numeral are plain. -/
lemma isPlain_of_mem_toDigits {c : Char} {n : ℕ} (h : c ∈ Nat.toDigits 10 n) : IsPlain c := by
  intro hc
  have hdigit := Nat.isDigit_of_mem_toDigits (by decide) (by decide) h
  simp only [List.mem_cons, List.not_mem_nil, or_false] at hc
  rcases hc with rfl | rfl | rfl | rfl | rfl | rfl <;> cases hdigit

/-- The characters of the fraction and exponent forms are plain if the digits are. -/
lemma isPlain_of_mem_fracDigits {ds : List Char} (hds : ∀ c ∈ ds, IsPlain c) {n : ℤ} {c : Char}
    (h : c ∈ fracDigits ds n) : IsPlain c := by
  unfold fracDigits at h
  have hplain : ∀ c ∈ ['.', '0', 'e', '-', '+'], IsPlain c := by simp [IsPlain]
  split_ifs at h
  · rcases List.mem_append.mp h with h | h
    · exact hds c (List.mem_of_mem_take h)
    · rcases List.mem_cons.mp h with rfl | h
      · exact hplain _ (by decide)
      · exact hds c (List.mem_of_mem_drop h)
  · rcases List.mem_cons.mp h with rfl | h
    · exact hplain _ (by decide)
    rcases List.mem_cons.mp h with rfl | h
    · exact hplain _ (by decide)
    rcases List.mem_append.mp h with h | h
    · rw [List.eq_of_mem_replicate h]
      exact hplain _ (by decide)
    · exact hds c h
  all_goals
    rcases List.mem_append.mp h with h | h
    · split at h
      · rcases List.mem_cons.mp h with rfl | h
        · exact hds _ (by simp)
        rcases List.mem_cons.mp h with rfl | h
        · exact hplain _ (by decide)
        · exact hds c (List.mem_cons_of_mem _ h)
      · exact hds c h
    rcases List.mem_cons.mp h with rfl | h
    · exact hplain _ (by decide)
    rcases List.mem_cons.mp h with rfl | h
    · exact hplain _ (by decide)
    · exact isPlain_of_mem_toDigits h

/-- A number is passed over. -/
lemma skipped_numberText (x : JsNumber) : Skipped (numberText x) := by
  refine skipped_of_plain fun c hc => ?_
  have hsign : ∀ {b : Bool}, c ∈ (if b then ['-'] else []) → IsPlain c := by
    intro b h
    cases b with
    | true =>
      rw [List.mem_singleton.mp h]
      decide
    | false => cases h
  cases x with
  | int i =>
    rcases List.mem_append.mp hc with h | h
    · exact hsign (b := decide (i < 0)) (by simpa using h)
    · exact isPlain_of_mem_toDigits h
  | frac neg s n hs =>
    rcases List.mem_append.mp hc with h | h
    · exact hsign h
    · exact isPlain_of_mem_fracDigits (fun c hc => isPlain_of_mem_toDigits hc) h

/-- Texts that are passed over, joined by commas within brackets, are passed over. -/
lemma skipText_joinComma {parts : List (List Char)} (h : ∀ part ∈ parts, Skipped part) (depth : ℕ)
    (cs : List Char) :
    skipText (depth + 1) false (joinComma parts ++ cs) = skipText (depth + 1) false cs := by
  induction parts with
  | nil => rfl
  | cons part parts ih =>
    have hpart := h part List.mem_cons_self
    have hrest := ih fun p hp => h p (List.mem_cons_of_mem _ hp)
    cases parts with
    | nil =>
      rw [show joinComma [part] = part by simp [joinComma]]
      exact hpart _ _
    | cons next parts =>
      rw [show joinComma (part :: next :: parts) = part ++ ',' :: joinComma (next :: parts) by
        simp [joinComma, List.intercalate], List.append_assoc, hpart, ← hrest]
      rfl

/-- The parts of an object are passed over when the texts of its properties are. -/
lemma skipped_of_propTexts {ps : List (JsString × Option (Except String (List Char)))}
    (h : ∀ p ∈ ps, ∀ text, p.2 = some (.ok text) → Skipped text) {parts : List (List Char)}
    (hparts : propTexts ps = .ok parts) : ∀ part ∈ parts, Skipped part := by
  induction ps generalizing parts with
  | nil =>
    obtain rfl := Except.ok.inj hparts
    simp
  | cons p ps ih =>
    obtain ⟨k, v⟩ := p
    have hrest := fun parts => @ih (fun p hp => h p (List.mem_cons_of_mem _ hp)) parts
    cases v with
    | none => exact hrest parts hparts
    | some v =>
      simp only [propTexts, except_bind_eq_ok_iff, except_pure_eq_ok_iff] at hparts
      obtain ⟨text, rfl, rest, hps, rfl⟩ := hparts
      have htext := h (k, some (.ok text)) List.mem_cons_self text rfl
      refine List.forall_mem_cons.mpr ⟨?_, hrest rest hps⟩
      have hcolon : Skipped [':'] := skipped_of_plain (by simp [IsPlain])
      exact (skipped_quoteString k).append (hcolon.append htext)

mutual

/-- **The text of a value is passed over.** -/
theorem skipped_stringify : ∀ (v : Json) (text : List Char), stringify v = .ok text → Skipped text
  | .null, text, h => by
    obtain rfl := Except.ok.inj h
    exact skipped_of_plain (by simp [IsPlain])
  | .bool b, text, h => by
    obtain rfl := Except.ok.inj h
    cases b <;> exact skipped_of_plain (by simp [IsPlain])
  | .num x, text, h => by
    obtain rfl := Except.ok.inj h
    exact skipped_numberText x
  | .str s, text, h => by
    obtain rfl := Except.ok.inj h
    exact skipped_quoteString s
  | .arr items, text, h => by
    simp only [stringify, except_bind_eq_ok_iff, except_pure_eq_ok_iff] at h
    obtain ⟨parts, hparts, rfl⟩ := h
    intro depth cs
    have hjoin := skipText_joinComma (skipped_stringifyItems items parts hparts) depth (']' :: cs)
    rw [List.append_assoc, List.cons_append]
    exact hjoin
  | .obj props, text, h => by
    simp only [stringify, except_bind_eq_ok_iff, except_pure_eq_ok_iff] at h
    obtain ⟨parts, hparts, rfl⟩ := h
    have hall := skipped_of_propTexts (fun p hp text htext => skipped_stringifyProps props p
      ((List.mem_insertionSort _).mp hp) text htext) hparts
    intro depth cs
    have hjoin := skipText_joinComma hall depth ('\x7d' :: cs)
    rw [List.append_assoc, List.cons_append]
    exact hjoin
  | .nonFinite _, _, h | .bigint, _, h | .undefined, _, h | .other _, _, h => by
    simp [stringify] at h

/-- The texts of the items of an array are passed over. -/
theorem skipped_stringifyItems : ∀ (items : List Json) (parts : List (List Char)),
    stringifyItems items = .ok parts → ∀ part ∈ parts, Skipped part
  | [], parts, h => by
    obtain rfl := Except.ok.inj h
    simp
  | v :: rest, parts, h => by
    simp only [stringifyItems, except_bind_eq_ok_iff, except_pure_eq_ok_iff] at h
    obtain ⟨text, htext, texts, htexts, rfl⟩ := h
    exact List.forall_mem_cons.mpr
      ⟨skipped_stringify v text htext, skipped_stringifyItems rest texts htexts⟩

/-- The texts of the properties of an object are passed over. -/
theorem skipped_stringifyProps : ∀ (props : List (JsString × Json)),
    ∀ p ∈ stringifyProps props, ∀ text, p.2 = some (.ok text) → Skipped text
  | [], p, hp, _, _ => by simp [stringifyProps] at hp
  | (k, v) :: rest, p, hp, text, htext => by
    by_cases hv : v = .undefined
    · subst hv
      rcases List.mem_cons.mp hp with rfl | hp
      · cases htext
      · exact skipped_stringifyProps rest p hp text htext
    · rw [stringifyProps_cons k hv] at hp
      rcases List.mem_cons.mp hp with rfl | hp
      · exact skipped_stringify v text (Option.some.inj htext)
      · exact skipped_stringifyProps rest p hp text htext

end

/-! ## The members of an object -/

/-- A string literal is known by its characters, whatever follows. -/
lemma quoteString_append_inj {s s' : JsString} {cs cs' : List Char}
    (h : quoteString s ++ cs = quoteString s' ++ cs') : s = s' ∧ cs = cs' := by
  simp only [quoteString, List.cons_append, List.append_assoc, List.nil_append, List.cons.injEq,
    true_and] at h
  have hread := parseChars_quoteUnits s cs
  rw [h, parseChars_quoteUnits s' cs'] at hread
  simpa [eq_comm] using hread

/-- The text of a member of an object. -/
def memberText (member : JsString × List Char) : List Char := quoteString member.1 ++ ':' :: member.2

/-- The members that the parts of an object are the texts of. -/
lemma exists_members {ps : List (JsString × Option (Except String (List Char)))}
    {parts : List (List Char)} (h : propTexts ps = .ok parts) :
    ∃ members : List (JsString × List Char), parts = members.map memberText ∧
      ∀ k text, (k, text) ∈ members ↔ (k, some (.ok text)) ∈ ps := by
  induction ps generalizing parts with
  | nil =>
    obtain rfl := Except.ok.inj h
    exact ⟨[], rfl, by simp⟩
  | cons p ps ih =>
    obtain ⟨k, v⟩ := p
    cases v with
    | none =>
      obtain ⟨members, hparts, hmem⟩ := ih h
      exact ⟨members, hparts, by simp [hmem]⟩
    | some v =>
      simp only [propTexts, except_bind_eq_ok_iff, except_pure_eq_ok_iff] at h
      obtain ⟨text, rfl, rest, hrest, rfl⟩ := h
      obtain ⟨members, rfl, hmem⟩ := ih hrest
      exact ⟨(k, text) :: members, rfl, by simp [hmem]⟩

/-- Texts that are passed over are told apart from what follows a comma or a closing bracket. -/
lemma Skipped.append_inj {text text' : List Char} (h : Skipped text) (h' : Skipped text')
    {c c' : Char} (hc : c = ',' ∨ c = '\x7d') (hc' : c' = ',' ∨ c' = '\x7d') {cs cs' : List Char}
    (heq : text ++ c :: cs = text' ++ c' :: cs') : text = text' ∧ c :: cs = c' :: cs' := by
  have hstop : ∀ {c : Char} {cs : List Char}, c = ',' ∨ c = '\x7d' →
      skipText 0 false (c :: cs) = c :: cs := by
    rintro c cs (rfl | rfl) <;> rfl
  have hskip := congrArg (skipText 0 false) heq
  rw [h, h', hstop hc, hstop hc'] at hskip
  refine ⟨List.append_cancel_right (hskip ▸ heq), hskip⟩

/-- The members of an object are known by its text. -/
lemma members_injective {members members' : List (JsString × List Char)}
    (h : ∀ m ∈ members, Skipped m.2) (h' : ∀ m ∈ members', Skipped m.2)
    (heq : joinComma (members.map memberText) ++ ['\x7d'] =
      joinComma (members'.map memberText) ++ ['\x7d']) : members = members' := by
  -- the text of a list of members, with the bracket that closes it
  have htext : ∀ (m : JsString × List Char) (rest : List (JsString × List Char)), ∃ c cs,
      (c = ',' ∨ c = '\x7d') ∧ (c = '\x7d' → rest = []) ∧ (c = ',' → rest ≠ [] ∧
        cs = joinComma (rest.map memberText) ++ ['\x7d']) ∧
      joinComma ((m :: rest).map memberText) ++ ['\x7d'] =
        quoteString m.1 ++ (':' :: (m.2 ++ c :: cs)) := by
    intro m rest
    cases rest with
    | nil => exact ⟨'\x7d', [], by simp, by simp, by simp, by simp [joinComma, memberText]⟩
    | cons next rest =>
      refine ⟨',', joinComma ((next :: rest).map memberText) ++ ['\x7d'], by simp, by simp, by simp, ?_⟩
      simp [joinComma, memberText, List.intercalate]
  have hnil : ∀ (m : JsString × List Char) (rest : List (JsString × List Char)),
      joinComma ((m :: rest).map memberText) ++ ['\x7d'] ≠ ['\x7d'] := by
    intro m rest hbad
    obtain ⟨c, cs, -, -, -, hjoin⟩ := htext m rest
    rw [hjoin, quoteString] at hbad
    exact absurd (List.cons.inj hbad).1 (by decide)
  induction members generalizing members' with
  | nil =>
    cases members' with
    | nil => rfl
    | cons m' rest' => exact absurd heq.symm (hnil m' rest')
  | cons m rest ih =>
    cases members' with
    | nil => exact absurd heq (hnil m rest)
    | cons m' rest' =>
      obtain ⟨c, cs, hc, hlast, hnext, hjoin⟩ := htext m rest
      obtain ⟨c', cs', hc', hlast', hnext', hjoin'⟩ := htext m' rest'
      rw [hjoin, hjoin'] at heq
      obtain ⟨hkey, htail⟩ := quoteString_append_inj heq
      obtain ⟨hvalue, hrest⟩ := (h m List.mem_cons_self).append_inj (h' m' List.mem_cons_self) hc hc'
        (List.cons.inj htail).2
      obtain ⟨rfl, rfl⟩ := List.cons.inj hrest
      have hsame : rest = rest' := by
        rcases hc with rfl | rfl
        · exact ih (fun p hp => h p (List.mem_cons_of_mem _ hp))
            (fun p hp => h' p (List.mem_cons_of_mem _ hp)) ((hnext rfl).2.symm.trans (hnext' rfl).2)
        · rw [hlast rfl, hlast' rfl]
      rw [Prod.ext hkey hvalue, hsame]

/-- The properties that have a text. -/
lemma mem_stringifyProps {props : List (JsString × Json)} {k : JsString}
    {result : Except String (List Char)} : (k, some result) ∈ stringifyProps props ↔
      ∃ v, (k, v) ∈ props ∧ v ≠ .undefined ∧ stringify v = result := by
  induction props with
  | nil => simp [stringifyProps]
  | cons p props ih =>
    obtain ⟨k', v⟩ := p
    by_cases hv : v = .undefined
    · subst hv
      have hskip : (k, some result) ∈ stringifyProps ((k', .undefined) :: props) ↔
          (k, some result) ∈ stringifyProps props := by simp [stringifyProps]
      rw [hskip, ih]
      constructor
      · rintro ⟨v, hmem, hv, htext⟩
        exact ⟨v, List.mem_cons_of_mem _ hmem, hv, htext⟩
      · rintro ⟨v, hmem, hv, htext⟩
        refine ⟨v, (List.mem_cons.mp hmem).resolve_left fun heq => hv (congrArg Prod.snd heq), hv, htext⟩
    · rw [stringifyProps_cons k' hv]
      simp only [List.mem_cons, Prod.mk.injEq, Option.some.injEq, ih, or_and_right, exists_or]
      refine or_congr_left ⟨?_, ?_⟩
      · rintro ⟨rfl, rfl⟩
        exact ⟨v, ⟨rfl, rfl⟩, hv, rfl⟩
      · rintro ⟨_, ⟨rfl, rfl⟩, -, rfl⟩
        exact ⟨rfl, rfl⟩

/-- **A property of a canonical object is a property of every object with the same text**, up to the
text of its value. -/
theorem canonicalize_obj_member {props props' : List (JsString × Json)} {text : List Char}
    (h : canonicalize (.obj props) = .ok text) (h' : canonicalize (.obj props') = .ok text)
    {k : JsString} {v : Json} (hmem : (k, v) ∈ props) (hv : v ≠ .undefined) :
    ∃ v', (k, v') ∈ props' ∧ stringify v' = stringify v := by
  simp only [canonicalize, stringify, except_bind_eq_ok_iff, except_pure_eq_ok_iff] at h h'
  obtain ⟨parts, hparts, rfl⟩ := h
  obtain ⟨parts', hparts', htext⟩ := h'
  have hpass : ∀ (props : List (JsString × Json)) (k : JsString) (text : List Char),
      (k, some (.ok text)) ∈ sortProps (stringifyProps props) → Skipped text := by
    intro props k text hp
    exact skipped_stringifyProps props _ ((List.mem_insertionSort _).mp hp) text rfl
  obtain ⟨members, rfl, hmembers⟩ := exists_members hparts
  obtain ⟨members', rfl, hmembers'⟩ := exists_members hparts'
  have hsame : members = members' := by
    refine members_injective (fun m hm => hpass props m.1 m.2 ((hmembers m.1 m.2).mp hm))
      (fun m hm => hpass props' m.1 m.2 ((hmembers' m.1 m.2).mp hm)) ?_
    simpa using htext.symm
  have hsorted : ∀ {props : List (JsString × Json)} {p : JsString × Option (Except String (List Char))},
      p ∈ sortProps (stringifyProps props) ↔ p ∈ stringifyProps props := List.mem_insertionSort _
  have hstringified : (k, some (stringify v)) ∈ stringifyProps props :=
    mem_stringifyProps.mpr ⟨v, hmem, hv, rfl⟩
  cases hresult : stringify v with
  | error e =>
    rw [hresult] at hstringified
    exact absurd rfl (ne_error_of_propTexts hparts _ (hsorted.mpr hstringified) e)
  | ok value =>
    rw [hresult] at hstringified
    have hin := (hmembers' k value).mp (hsame ▸ (hmembers k value).mpr (hsorted.mpr hstringified))
    obtain ⟨v', hmem', -, htext'⟩ := mem_stringifyProps.mp (hsorted.mp hin)
    exact ⟨v', hmem', htext'⟩

/-! ## The signed fields -/

/-- The hexadecimal text of bytes determines them. -/
lemma toHex_injective : Function.Injective toHex := by
  have hdigits : ∀ x y : UInt8, hexDigit (x.toNat / 16) = hexDigit (y.toNat / 16) →
      hexDigit (x.toNat % 16) = hexDigit (y.toNat % 16) → x = y := by
    intro x y hhigh hlow
    have hread : ∀ m n : ℕ, m < 16 → n < 16 → hexDigit m = hexDigit n → m = n := by
      intro m n hm hn heq
      have h := hexValue_hexDigit hm
      rw [heq, hexValue_hexDigit hn] at h
      exact (Option.some.inj h).symm
    have hx := x.toNat_lt
    have hy := y.toNat_lt
    have h₁ := hread _ _ (by omega) (by omega) hhigh
    have h₂ := hread _ _ (by omega) (by omega) hlow
    exact UInt8.toNat_inj.mp (by omega)
  intro b b' h
  have htext := String.ofList_inj.mp h
  induction b generalizing b' with
  | nil =>
    cases b' with
    | nil => rfl
    | cons y ys => simp at htext
  | cons x xs ih =>
    cases b' with
    | nil => simp at htext
    | cons y ys =>
      simp only [List.flatMap_cons, List.cons_append, List.nil_append, List.cons.injEq] at htext
      obtain ⟨hhigh, hlow, hrest⟩ := htext
      rw [hdigits x y hhigh hlow, ih (congrArg String.ofList hrest) hrest]

/-- A text is known by its literal. -/
lemma text_eq_of_stringify {s s' : String} (h : stringify (.text s') = stringify (.text s)) :
    s = s' := by
  have hquote : quoteString (jsString s) ++ [] = quoteString (jsString s') ++ [] := by
    rw [Except.ok.inj h]
  exact jsString_inj.mp (quoteString_append_inj hquote).1

/-- A text or `null` is known by its canonical text. -/
lemma nullable_eq_of_stringify {o o' : Option String}
    (h : stringify (.nullable o') = stringify (.nullable o)) : o = o' := by
  cases o with
  | none =>
    cases o' with
    | none => rfl
    | some s' => exact absurd (List.cons.inj (Except.ok.inj h)).1 (by decide)
  | some s =>
    cases o' with
    | none => exact absurd (List.cons.inj (Except.ok.inj h)).1 (by decide)
    | some s' => rw [text_eq_of_stringify h]

/-- An integer is known by its numeral. -/
lemma int_eq_of_stringify {i i' : ℤ} (h : stringify (.num (.int i')) = stringify (.num (.int i))) :
    i = i' := by
  have hnumeral : ∀ i : ℤ, numberText (.int i) = (Int.repr i).toList := by
    intro i
    rw [toList_repr_int]
    cases i with
    | ofNat n => rfl
    | negSucc n =>
      rw [numberText, if_pos (Int.negSucc_lt_zero n)]
      rfl
  have htext := Except.ok.inj h
  rw [hnumeral, hnumeral] at htext
  exact (repr_int_injective htext).symm

/-- The keys of the canonical object are distinct. -/
lemma EventFields.nodup_keys (e : EventFields) (occurredAt : String) :
    ((e.boundProps occurredAt ++ [(jsString "redaction_metadata", e.redactionMetadata)]).map
      Prod.fst).Nodup := by
  change (["event_id", "org_id", "chain_id", "sequence_number", "previous_hmac", "event_type",
    "event_version", "subject_type", "subject_id", "occurred_at", "payload_hash", "payload_ref",
    "key_id", "key_version", "evidence_strength", "redaction_metadata"].map jsString).Nodup
  rw [List.nodup_map_iff fun s s' h => jsString_inj.mp h]
  decide

/-- **The canonical bytes determine the signed fields.**  Two events with the same canonical bytes have
the same text under every key that precedes the redaction metadata in the object literal. -/
theorem EventFields.canonicalBytes_member {e e' : EventFields} {bytes : Bytes}
    (h : e.canonicalBytes = .ok bytes) (h' : e'.canonicalBytes = .ok bytes) :
    ∃ occurredAt occurredAt', ∀ k v v', v ≠ .undefined → (k, v) ∈ e.boundProps occurredAt →
      (k, v') ∈ e'.boundProps occurredAt' → stringify v' = stringify v := by
  simp only [canonicalBytes, canonical, except_map_eq_ok_iff, except_bind_eq_ok_iff] at h h'
  obtain ⟨text, ⟨date, -, htext⟩, rfl⟩ := h
  obtain ⟨text', ⟨date', -, htext'⟩, hbytes⟩ := h'
  obtain rfl := utf8Bytes_injective hbytes
  refine ⟨date, date', fun k v v' hv hmem hmem' => ?_⟩
  obtain ⟨w, hw, hsame⟩ := canonicalize_obj_member htext htext' (List.mem_append_left _ hmem) hv
  have heq := List.inj_on_of_nodup_map (e'.nodup_keys date') hw (List.mem_append_left _ hmem') rfl
  rw [← hsame, (Prod.mk.inj heq).2]

/-- The signed fields that place an event and choose its key. -/
structure EventFields.SamePlace (e e' : EventFields) : Prop where
  orgId : e.orgId = e'.orgId
  chainId : e.chainId = e'.chainId
  sequenceNumber : e.sequenceNumber = e'.sequenceNumber
  previousHmac : e.previousHmac = e'.previousHmac
  keyId : e.keyId = e'.keyId
  keyVersion : e.keyVersion = e'.keyVersion

/-- They are known by the canonical bytes. -/
theorem EventFields.samePlace {e e' : EventFields} {bytes : Bytes}
    (h : e.canonicalBytes = .ok bytes) (h' : e'.canonicalBytes = .ok bytes) : e.SamePlace e' := by
  obtain ⟨date, date', hmember⟩ := canonicalBytes_member h h'
  have htext : ∀ (k : String) (s s' : String), (jsString k, Json.text s) ∈ e.boundProps date →
      (jsString k, Json.text s') ∈ e'.boundProps date' → s = s' := fun k s s' hs hs' =>
    text_eq_of_stringify (hmember _ _ _ (by simp [Json.text]) hs hs')
  constructor
  · exact htext "org_id" _ _ (by simp [boundProps]) (by simp [boundProps])
  · exact htext "chain_id" _ _ (by simp [boundProps]) (by simp [boundProps])
  · have hseq := htext "sequence_number" (toString e.sequenceNumber) (toString e'.sequenceNumber)
      (by rw [boundProps]; simp) (by rw [boundProps]; simp)
    exact repr_int_injective (congrArg String.toList hseq)
  · have hne : Json.nullable (e.previousHmac.map toHex) ≠ .undefined := by
      cases e.previousHmac <;> simp [Json.nullable, Json.text]
    have hprev := nullable_eq_of_stringify (hmember (jsString "previous_hmac")
      (.nullable (e.previousHmac.map toHex)) (.nullable (e'.previousHmac.map toHex)) hne
      (by simp [boundProps]) (by simp [boundProps]))
    exact Option.map_injective toHex_injective hprev
  · exact htext "key_id" _ _ (by simp [boundProps]) (by simp [boundProps])
  · exact int_eq_of_stringify (hmember (jsString "key_version") (.num (.int e.keyVersion))
      (.num (.int e'.keyVersion)) (by simp) (by simp [boundProps]) (by simp [boundProps]))

end GovAI
