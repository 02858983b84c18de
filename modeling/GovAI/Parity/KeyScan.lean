import GovAI.Parity.DuplicateKeys
import Mathlib.Data.List.TakeWhile

/-!
# The scanner follows the grammar

Over a value of the grammar the scanner leaves its stack of contexts as it was and collects the keys
that are repeated inside the value.  The invariant is that a value is never met where a key is
expected.
-/

namespace GovAI

/-! ## Single characters -/

/-- A character that the scanner passes over. -/
def Inert (c : Char) : Prop :=
  c.toNat < 0x80 ∧ c ∉ ['"', '\\', '\x7b', '[', '\x7d', ']', ',', ':']

instance : DecidablePred Inert := fun c => by unfold Inert; infer_instance

lemma inert_of_all {ds : List Char} (h : ds.all (fun c => decide (Inert c)) = true) :
    ∀ c ∈ ds, Inert c := by
  simpa using h

/-- A plain character of the text is passed as its code unit. -/
lemma scanKeys_char {c : Char} {cs : List Char} {s : JsString} (h : ReadsAs false s (c :: cs))
    (hascii : c.toNat < 0x80) (hback : c ≠ '\\') (hquote : c ≠ '"') :
    ∃ s', ReadsAs false s' cs ∧
      ∀ st : KeyScan, scanKeys st s = scanKeys (st.unit (UInt16.ofNat c.toNat)) s' := by
  obtain ⟨s', rfl, hs'⟩ := h.cons hback
  obtain ⟨hunits, hnat, -⟩ := utf16Units_ascii hascii
  refine ⟨s', hs', fun st => ?_⟩
  have hne : (UInt16.ofNat c.toNat).toNat ≠ 0x22 := by
    rw [hnat]
    exact fun h => hquote (Char.toNat_inj.mp h)
  rw [hunits, List.singleton_append, scanKeys, if_neg hne]

/-- An inert character changes nothing. -/
lemma unit_of_inert {c : Char} (hc : Inert c) (st : KeyScan) :
    st.unit (UInt16.ofNat c.toNat) = st := by
  obtain ⟨hascii, hnot⟩ := hc
  simp only [List.mem_cons, List.not_mem_nil, or_false, not_or] at hnot
  obtain ⟨-, -, h₁, h₂, h₃, h₄, h₅, h₆⟩ := hnot
  have hne : ∀ d : Char, c ≠ d → c.toNat ≠ d.toNat := fun d h heq => h (Char.toNat_inj.mp heq)
  rw [KeyScan.unit, (utf16Units_ascii hascii).2.1]
  split
  · exact absurd ‹_› (hne '\x7b' h₁)
  · exact absurd ‹_› (hne '[' h₂)
  · exact absurd ‹_› (hne '\x7d' h₃)
  · exact absurd ‹_› (hne ']' h₄)
  · exact absurd ‹_› (hne ',' h₅)
  · exact absurd ‹_› (hne ':' h₆)
  · rfl

/-- Inert characters are passed over. -/
lemma scanKeys_inert {ds cs : List Char} (hds : ∀ c ∈ ds, Inert c) {s : JsString}
    (h : ReadsAs false s (ds ++ cs)) :
    ∃ s', ReadsAs false s' cs ∧ ∀ st, scanKeys st s = scanKeys st s' := by
  induction ds generalizing s with
  | nil => exact ⟨s, h, fun _ => rfl⟩
  | cons c ds ih =>
    have hc := hds c List.mem_cons_self
    obtain ⟨hquote, hback⟩ : c ≠ '"' ∧ c ≠ '\\' := by
      have := hc.2
      simp only [List.mem_cons, not_or] at this
      exact ⟨this.1, this.2.1⟩
    obtain ⟨s₁, hs₁, hstep⟩ := scanKeys_char h hc.1 hback hquote
    obtain ⟨s₂, hs₂, hrest⟩ := ih (fun d hd => hds d (List.mem_cons_of_mem c hd)) hs₁
    exact ⟨s₂, hs₂, fun st => by rw [hstep, unit_of_inert hc, hrest]⟩

/-- White space is passed over. -/
lemma scanKeys_skipSpace {cs : List Char} {s : JsString} (h : ReadsAs false s cs) :
    ∃ s', ReadsAs false s' (skipSpace cs) ∧ ∀ st, scanKeys st s = scanKeys st s' := by
  rw [← List.takeWhile_append_dropWhile (p := isJsonSpace) (l := cs)] at h
  refine scanKeys_inert (fun c hc => ?_) h
  have hspace := List.mem_takeWhile_imp hc
  simp only [isJsonSpace, Bool.or_eq_true, decide_eq_true_eq] at hspace
  rcases hspace with ((rfl | rfl) | rfl) | rfl <;> decide

/-- A string literal is passed as a whole. -/
lemma scanKeys_literal {cs rest : List Char} {s str : JsString} (h : ReadsAs false s ('"' :: cs))
    (hstr : parseChars cs = some (str, rest)) :
    ∃ s', ReadsAs false s' rest ∧ ∃ body, decodeJsonStringBody body = str ∧
      ∀ st : KeyScan, scanKeys st s = scanKeys (st.string body) s' := by
  obtain ⟨s', rfl, hs'⟩ := h.cons (by decide)
  obtain ⟨hrest, hbody⟩ := passesLiteral hstr hs'
  refine ⟨_, hrest, _, hbody, fun st => ?_⟩
  rw [(utf16Units_ascii (by decide : ('"' : Char).toNat < 0x80)).1, List.singleton_append, scanKeys,
    if_pos (by decide)]

/-! ## Numerals -/

/-- Digits are inert. -/
lemma inert_of_isDigit {c : Char} (hc : c.isDigit = true) : Inert c := by
  simp only [Char.isDigit, Bool.and_eq_true, decide_eq_true_eq] at hc
  have hlow : 48 ≤ c.toNat := hc.1
  have hhigh : c.toNat ≤ 57 := hc.2
  refine ⟨by omega, fun hmem => ?_⟩
  simp only [List.mem_cons, List.not_mem_nil, or_false] at hmem
  rcases hmem with rfl | rfl | rfl | rfl | rfl | rfl | rfl | rfl <;>
    simp only [Char.reduceToNat] at hlow hhigh <;> omega

/-- What was scanned as digits. -/
lemma scanDigits_sound {cs ds rest : List Char} (h : scanDigits cs = some (ds, rest)) :
    cs = ds ++ rest ∧ ∀ c ∈ ds, Inert c := by
  unfold scanDigits at h
  split at h
  · exact absurd h nofun
  · obtain ⟨rfl, rfl⟩ := Prod.mk.inj (Option.some.inj h)
    exact ⟨List.takeWhile_append_dropWhile.symm,
      fun c hc => inert_of_isDigit (List.mem_takeWhile_imp hc)⟩

/-- What was scanned as a sign. -/
lemma scanSign_sound (cs : List Char) :
    cs = (scanSign cs).1 ++ (scanSign cs).2 ∧ ∀ c ∈ (scanSign cs).1, Inert c := by
  unfold scanSign
  split
  · exact ⟨rfl, List.forall_mem_singleton.mpr (by decide)⟩
  · exact ⟨rfl, fun _ h => absurd h List.not_mem_nil⟩

/-- What was scanned as the sign of an exponent. -/
lemma scanExponentSign_sound (cs : List Char) :
    cs = (scanExponentSign cs).1 ++ (scanExponentSign cs).2 ∧
      ∀ c ∈ (scanExponentSign cs).1, Inert c := by
  unfold scanExponentSign
  split
  · exact ⟨rfl, List.forall_mem_singleton.mpr (by decide)⟩
  · exact ⟨rfl, List.forall_mem_singleton.mpr (by decide)⟩
  · exact ⟨rfl, fun _ h => absurd h List.not_mem_nil⟩

/-- What was scanned as the integer part. -/
lemma scanInteger_sound {cs ds rest : List Char} (h : scanInteger cs = some (ds, rest)) :
    cs = ds ++ rest ∧ ∀ c ∈ ds, Inert c := by
  unfold scanInteger at h
  split at h
  · obtain ⟨rfl, rfl⟩ := Prod.mk.inj (Option.some.inj h)
    exact ⟨rfl, inert_of_all (by decide)⟩
  · exact scanDigits_sound h

/-- What was scanned as the fraction. -/
lemma scanFraction_sound {cs ds rest : List Char} (h : scanFraction cs = some (ds, rest)) :
    cs = ds ++ rest ∧ ∀ c ∈ ds, Inert c := by
  unfold scanFraction at h
  split at h
  · obtain ⟨⟨es, rest'⟩, hdigits, heq⟩ := Option.bind_eq_some_iff.mp h
    obtain ⟨rfl, rfl⟩ := Prod.mk.inj (Option.some.inj heq)
    obtain ⟨rfl, hes⟩ := scanDigits_sound hdigits
    exact ⟨rfl, List.forall_mem_cons.mpr ⟨by decide, hes⟩⟩
  · obtain ⟨rfl, rfl⟩ := Prod.mk.inj (Option.some.inj h)
    exact ⟨rfl, fun _ h => absurd h List.not_mem_nil⟩

/-- What was scanned as the exponent. -/
lemma scanExponent_sound {cs ds rest : List Char} (h : scanExponent cs = some (ds, rest)) :
    cs = ds ++ rest ∧ ∀ c ∈ ds, Inert c := by
  have hletter : ∀ (e : Char), Inert e → ∀ {cs es rest' : List Char},
      scanDigits (scanExponentSign cs).2 = some (es, rest') →
      e :: cs = (e :: (scanExponentSign cs).1 ++ es) ++ rest' ∧
        ∀ c ∈ e :: (scanExponentSign cs).1 ++ es, Inert c := by
    intro e he cs es rest' hdigits
    obtain ⟨hcs, hsign⟩ := scanExponentSign_sound cs
    obtain ⟨hrest, hes⟩ := scanDigits_sound hdigits
    refine ⟨?_, ?_⟩
    · rw [List.append_assoc, List.cons_append, ← hrest, ← hcs]
    · intro c hc
      rcases List.mem_append.mp hc with hc | hc
      · rcases List.mem_cons.mp hc with rfl | hc
        · exact he
        · exact hsign c hc
      · exact hes c hc
  unfold scanExponent at h
  split at h
  · obtain ⟨⟨es, rest'⟩, hdigits, heq⟩ := Option.bind_eq_some_iff.mp h
    obtain ⟨rfl, rfl⟩ := Prod.mk.inj (Option.some.inj heq)
    exact hletter 'e' (by decide) hdigits
  · obtain ⟨⟨es, rest'⟩, hdigits, heq⟩ := Option.bind_eq_some_iff.mp h
    obtain ⟨rfl, rfl⟩ := Prod.mk.inj (Option.some.inj heq)
    exact hletter 'E' (by decide) hdigits
  · obtain ⟨rfl, rfl⟩ := Prod.mk.inj (Option.some.inj h)
    exact ⟨rfl, fun _ h => absurd h List.not_mem_nil⟩

/-- **A numeral is a run of inert characters.** -/
lemma scanNumber_sound {cs rest : List Char} {x : Numeral} (h : scanNumber cs = some (x, rest)) :
    cs = x.text ++ rest ∧ ∀ c ∈ x.text, Inert c := by
  obtain ⟨⟨int, cs₁⟩, hint, h₁⟩ := Option.bind_eq_some_iff.mp h
  obtain ⟨⟨frac, cs₂⟩, hfrac, h₂⟩ := Option.bind_eq_some_iff.mp h₁
  obtain ⟨⟨exp, cs₃⟩, hexp, h₃⟩ := Option.bind_eq_some_iff.mp h₂
  obtain ⟨rfl, rfl⟩ := Prod.mk.inj (Option.some.inj h₃)
  obtain ⟨hcs, hsign⟩ := scanSign_sound cs
  obtain ⟨hcs₁, hint'⟩ := scanInteger_sound hint
  obtain ⟨hcs₂, hfrac'⟩ := scanFraction_sound hfrac
  obtain ⟨hcs₃, hexp'⟩ := scanExponent_sound hexp
  simp only [Numeral.text]
  refine ⟨?_, ?_⟩
  · rw [List.append_assoc, List.append_assoc, List.append_assoc, ← hcs₃, ← hcs₂, ← hcs₁, ← hcs]
  · intro c hc
    simp only [List.mem_append] at hc
    rcases hc with ((hc | hc) | hc) | hc
    · exact hsign c hc
    · exact hint' c hc
    · exact hfrac' c hc
    · exact hexp' c hc

/-! ## Values -/

/-- The scanner does not expect a key here. -/
def KeyScan.AtValue (st : KeyScan) : Prop :=
  ∀ keys stk, st.stack = some keys :: stk → st.expectKey = false

/-- From `st` the scanner comes to where the text goes on with `rest`, with these duplicates and this
stack. -/
def Carries (s : JsString) (st : KeyScan) (rest : List Char) (dups : List JsString)
    (stack : List (Option (List JsString))) : Prop :=
  ∃ s' e, ReadsAs false s' rest ∧ scanKeys st s = scanKeys ⟨dups, stack, e⟩ s'

/-- Over a value the scanner collects its duplicates and keeps the stack. -/
def FollowsTree (fuel : ℕ) : Prop :=
  ∀ ⦃cs t rest s⦄ (st : KeyScan), readTree fuel cs = some (t, rest) → ReadsAs false s cs →
    st.AtValue → Carries s st rest (st.dups ++ t.duplicates) st.stack

/-- Over the items of an array, the closing bracket included, it collects their duplicates and leaves
the array. -/
def FollowsItems (fuel : ℕ) : Prop :=
  ∀ ⦃cs ts rest s⦄ (dups : List JsString) (stk : List (Option (List JsString))) (e : Bool),
    readItems fuel cs = some (ts, rest) → ReadsAs false s cs →
    Carries s ⟨dups, none :: stk, e⟩ rest (dups ++ JsonTree.itemDuplicates ts) stk

/-- Over the members of an object, the closing brace included, it collects the keys that are repeated
and leaves the object. -/
def FollowsMembers (fuel : ℕ) : Prop :=
  ∀ ⦃cs ms rest s⦄ (dups keys : List JsString) (stk : List (Option (List JsString))),
    readMembers fuel cs = some (ms, rest) → ReadsAs false s cs →
    Carries s ⟨dups, some keys :: stk, true⟩ rest (dups ++ JsonTree.memberDuplicates keys ms) stk

/-- The items are followed when each value is. -/
lemma followsItems_succ {fuel : ℕ} (htree : FollowsTree fuel) (hitems : FollowsItems fuel) :
    FollowsItems (fuel + 1) := by
  intro cs ts rest s dups stk e h hs
  obtain ⟨⟨t, cs₁⟩, ht, h⟩ := Option.bind_eq_some_iff.mp h
  obtain ⟨s₁, e₁, hs₁, hvalue⟩ := htree ⟨dups, none :: stk, e⟩ ht hs (fun _ _ h => by cases h)
  obtain ⟨s₂, hs₂, hspace⟩ := scanKeys_skipSpace hs₁
  rw [Carries, hvalue, hspace]
  dsimp only at h ⊢
  split at h
  · rename_i cs₂ hcs₂
    rw [hcs₂] at hs₂
    obtain ⟨⟨ts', rest'⟩, hread, heq⟩ := Option.map_eq_some_iff.mp h
    obtain ⟨rfl, rfl⟩ := Prod.mk.inj heq
    obtain ⟨s₃, hs₃, hcomma⟩ := scanKeys_char hs₂ (by decide) (by decide) (by decide)
    obtain ⟨s₄, e₄, hs₄, hrest⟩ := hitems (dups ++ t.duplicates) stk e₁ hread hs₃
    refine ⟨s₄, e₄, hs₄, ?_⟩
    rw [hcomma, JsonTree.itemDuplicates, ← List.append_assoc]
    exact hrest
  · rename_i cs₂ hcs₂
    rw [hcs₂] at hs₂
    obtain ⟨rfl, rfl⟩ := Prod.mk.inj (Option.some.inj h)
    obtain ⟨s₃, hs₃, hbracket⟩ := scanKeys_char hs₂ (by decide) (by decide) (by decide)
    refine ⟨s₃, e₁, hs₃, ?_⟩
    rw [hbracket, JsonTree.itemDuplicates, JsonTree.itemDuplicates, List.append_nil]
    rfl
  · cases h

/-- The members are followed when each value is. -/
lemma followsMembers_succ {fuel : ℕ} (htree : FollowsTree fuel) (hmembers : FollowsMembers fuel) :
    FollowsMembers (fuel + 1) := by
  intro cs ms rest s dups keys stk h hs
  obtain ⟨s₁, hs₁, hspace⟩ := scanKeys_skipSpace hs
  rw [Carries, hspace]
  rw [readMembers] at h
  split at h
  · rename_i cs₁ hcs₁
    rw [hcs₁] at hs₁
    obtain ⟨⟨k, cs₂⟩, hk, h⟩ := Option.bind_eq_some_iff.mp h
    obtain ⟨s₂, hs₂, body, hbody, hliteral⟩ := scanKeys_literal hs₁ hk
    obtain ⟨s₃, hs₃, hspace'⟩ := scanKeys_skipSpace hs₂
    rw [hliteral, hspace']
    dsimp only at h
    split at h
    · rename_i cs₃ hcs₃
      rw [hcs₃] at hs₃
      obtain ⟨s₄, hs₄, hcolon⟩ := scanKeys_char hs₃ (by decide) (by decide) (by decide)
      obtain ⟨⟨t, cs₄⟩, ht, h⟩ := Option.bind_eq_some_iff.mp h
      have hkey : (KeyScan.string ⟨dups, some keys :: stk, true⟩ body).unit
          (UInt16.ofNat (':' : Char).toNat) =
          ⟨dups ++ (if k ∈ keys then [k] else []), some (k :: keys) :: stk, false⟩ := by
        simp only [KeyScan.string, hbody]
        by_cases hmem : k ∈ keys
        · simp only [if_pos hmem]
          rfl
        · simp only [if_neg hmem, List.append_nil]
          rfl
      rw [hcolon, hkey]
      obtain ⟨s₅, e₅, hs₅, hvalue⟩ := htree
        ⟨dups ++ (if k ∈ keys then [k] else []), some (k :: keys) :: stk, false⟩ ht hs₄
        (fun _ _ _ => rfl)
      obtain ⟨s₆, hs₆, hspace''⟩ := scanKeys_skipSpace hs₅
      rw [hvalue, hspace'']
      dsimp only at h ⊢
      split at h
      · rename_i cs₅ hcs₅
        rw [hcs₅] at hs₆
        obtain ⟨⟨ms', rest'⟩, hread, heq⟩ := Option.map_eq_some_iff.mp h
        obtain ⟨rfl, rfl⟩ := Prod.mk.inj heq
        obtain ⟨s₇, hs₇, hcomma⟩ := scanKeys_char hs₆ (by decide) (by decide) (by decide)
        obtain ⟨s₈, e₈, hs₈, hrest⟩ := hmembers _ (k :: keys) stk hread hs₇
        refine ⟨s₈, e₈, hs₈, ?_⟩
        rw [hcomma, JsonTree.memberDuplicates, ← List.append_assoc, ← List.append_assoc]
        exact hrest
      · rename_i cs₅ hcs₅
        rw [hcs₅] at hs₆
        obtain ⟨rfl, rfl⟩ := Prod.mk.inj (Option.some.inj h)
        obtain ⟨s₇, hs₇, hbrace⟩ := scanKeys_char hs₆ (by decide) (by decide) (by decide)
        refine ⟨s₇, e₅, hs₇, ?_⟩
        rw [hbrace, JsonTree.memberDuplicates, JsonTree.memberDuplicates, List.append_nil,
          ← List.append_assoc]
        rfl
      · cases h
    · cases h
  · cases h

/-- A value is followed when items and members with less fuel are. -/
lemma followsTree_succ {fuel : ℕ} (hitems : FollowsItems fuel) (hmembers : FollowsMembers fuel) :
    FollowsTree (fuel + 1) := by
  intro cs t rest s st h hs hst
  obtain ⟨s₁, hs₁, hspace⟩ := scanKeys_skipSpace hs
  rw [Carries, hspace]
  have hinert : ∀ {ds : List Char}, skipSpace cs = ds ++ rest → (∀ c ∈ ds, Inert c) →
      t.duplicates = [] → ∃ s' e, ReadsAs false s' rest ∧
        scanKeys st s₁ = scanKeys ⟨st.dups ++ t.duplicates, st.stack, e⟩ s' := by
    intro ds hds hall hnone
    rw [hds] at hs₁
    obtain ⟨s₂, hs₂, hpass⟩ := scanKeys_inert hall hs₁
    exact ⟨s₂, st.expectKey, hs₂, by rw [hpass, hnone, List.append_nil]⟩
  rw [readTree] at h
  split at h
  · rename_i cs₁ hcs₁
    rw [hcs₁] at hs₁
    obtain ⟨s₂, hs₂, hopen⟩ := scanKeys_char hs₁ (by decide) (by decide) (by decide)
    have hopened : st.unit (UInt16.ofNat ('[' : Char).toNat) =
      ⟨st.dups, none :: st.stack, st.expectKey⟩ := rfl
    obtain ⟨s₃, hs₃, hspace'⟩ := scanKeys_skipSpace hs₂
    rw [hopen, hopened, hspace']
    split at h
    · rename_i cs₂ hcs₂
      rw [hcs₂] at hs₃
      obtain ⟨rfl, rfl⟩ := Prod.mk.inj (Option.some.inj h)
      obtain ⟨s₄, hs₄, hclose⟩ := scanKeys_char hs₃ (by decide) (by decide) (by decide)
      refine ⟨s₄, st.expectKey, hs₄, ?_⟩
      rw [hclose, JsonTree.duplicates, JsonTree.itemDuplicates, List.append_nil]
      rfl
    · obtain ⟨⟨ts, rest'⟩, hread, heq⟩ := Option.map_eq_some_iff.mp h
      obtain ⟨rfl, rfl⟩ := Prod.mk.inj heq
      exact hitems st.dups st.stack st.expectKey hread hs₃
  · rename_i cs₁ hcs₁
    rw [hcs₁] at hs₁
    obtain ⟨s₂, hs₂, hopen⟩ := scanKeys_char hs₁ (by decide) (by decide) (by decide)
    have hopened : st.unit (UInt16.ofNat ('\x7b' : Char).toNat) =
      ⟨st.dups, some [] :: st.stack, true⟩ := rfl
    obtain ⟨s₃, hs₃, hspace'⟩ := scanKeys_skipSpace hs₂
    rw [hopen, hopened, hspace']
    split at h
    · rename_i cs₂ hcs₂
      rw [hcs₂] at hs₃
      obtain ⟨rfl, rfl⟩ := Prod.mk.inj (Option.some.inj h)
      obtain ⟨s₄, hs₄, hclose⟩ := scanKeys_char hs₃ (by decide) (by decide) (by decide)
      refine ⟨s₄, true, hs₄, ?_⟩
      rw [hclose, JsonTree.duplicates, JsonTree.memberDuplicates, List.append_nil]
      rfl
    · obtain ⟨⟨ms, rest'⟩, hread, heq⟩ := Option.map_eq_some_iff.mp h
      obtain ⟨rfl, rfl⟩ := Prod.mk.inj heq
      exact hmembers st.dups [] st.stack hread hs₃
  · rename_i cs₁ hcs₁
    rw [hcs₁] at hs₁
    obtain ⟨⟨str, rest'⟩, hstr, heq⟩ := Option.map_eq_some_iff.mp h
    obtain ⟨rfl, rfl⟩ := Prod.mk.inj heq
    obtain ⟨s₂, hs₂, body, -, hliteral⟩ := scanKeys_literal hs₁ hstr
    have hsame : st.string body = st := by
      unfold KeyScan.string
      split
      · rename_i hstack hexpect
        rw [hst _ _ hstack] at hexpect
        exact absurd hexpect Bool.false_ne_true
      · rfl
    have hnone : (JsonTree.str str).duplicates = [] := rfl
    exact ⟨s₂, st.expectKey, hs₂, by rw [hliteral, hsame, hnone, List.append_nil]⟩
  · rename_i cs₁ hcs₁
    obtain ⟨rfl, rfl⟩ := Prod.mk.inj (Option.some.inj h)
    exact @hinert ['n', 'u', 'l', 'l'] hcs₁ (inert_of_all (by decide)) rfl
  · rename_i cs₁ hcs₁
    obtain ⟨rfl, rfl⟩ := Prod.mk.inj (Option.some.inj h)
    exact @hinert ['t', 'r', 'u', 'e'] hcs₁ (inert_of_all (by decide)) rfl
  · rename_i cs₁ hcs₁
    obtain ⟨rfl, rfl⟩ := Prod.mk.inj (Option.some.inj h)
    exact @hinert ['f', 'a', 'l', 's', 'e'] hcs₁ (inert_of_all (by decide)) rfl
  · obtain ⟨⟨x, rest'⟩, hx, heq⟩ := Option.map_eq_some_iff.mp h
    obtain ⟨rfl, rfl⟩ := Prod.mk.inj heq
    obtain ⟨hcs, hall⟩ := scanNumber_sound hx
    exact hinert hcs hall rfl

/-- **The scanner follows the grammar.** -/
theorem follows (fuel : ℕ) : FollowsTree fuel ∧ FollowsItems fuel ∧ FollowsMembers fuel := by
  induction fuel with
  | zero =>
    refine ⟨?_, ?_, ?_⟩
    · intro cs t rest s st h
      exact absurd h nofun
    · intro cs ts rest s dups stk e h
      exact absurd h nofun
    · intro cs ms rest s dups keys stk h
      exact absurd h nofun
  | succ fuel ih =>
    obtain ⟨htree, hitems, hmembers⟩ := ih
    exact ⟨followsTree_succ hitems hmembers, followsItems_succ htree hitems,
      followsMembers_succ htree hmembers⟩

/-- **`findDuplicateJsonKeys` returns the repeated keys of the syntax tree.** -/
theorem findDuplicateJsonKeys_eq {s : JsString} {t : JsonTree} (h : jsonTree s = some t) :
    findDuplicateJsonKeys s = t.duplicates := by
  obtain ⟨cs, hcs, htext⟩ := Option.bind_eq_some_iff.mp h
  obtain ⟨⟨t', rest⟩, hread, hend⟩ := Option.bind_eq_some_iff.mp htext
  dsimp only at hend
  split at hend
  · rename_i hspace
    obtain rfl := Option.some.inj hend
    obtain ⟨s₁, e, hs₁, hscan⟩ := (follows _).1 ⟨[], [], false⟩ hread hcs (fun _ _ h => by cases h)
    obtain ⟨s₂, hs₂, hpass⟩ := scanKeys_skipSpace hs₁
    rw [hspace] at hs₂
    rw [findDuplicateJsonKeys, hscan, hpass, hs₂.nil, scanKeys, List.nil_append]
  · cases hend

end GovAI
