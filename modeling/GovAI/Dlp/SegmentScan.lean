import GovAI.Dlp.BaselineDetectors
import GovAI.Library.RegexBlocks

/-!
# The scan of a governed request

`detectEmail`, `detectPhoneBr` and `detectAllBaseline` of `packages/dlp-br/src/baseline-detectors.ts`,
and the scan that the governed handlers run over the text segments of a request, joined by line
breaks.  The patterns of CPF, CNPJ and e-mail addresses have no line break, so they find in the joined
text what they find in its segments.  The pattern of phone numbers has one (`[\s-]`): the joined text
can have a phone number that no segment has.
-/

namespace GovAI

open Regex

/-! ## The patterns -/

/-- `[A-Za-z]`. -/
def isLetterUnit (u : UInt16) : Bool := isAlnumUnit u && !isDigitUnit u

/-- `[A-Za-z0-9._%+-]`. -/
def isEmailLocalUnit (u : UInt16) : Bool :=
  isAlnumUnit u || [asciiUnit '.', asciiUnit '_', asciiUnit '%', asciiUnit '+', asciiUnit '-'].contains u

/-- `[A-Za-z0-9.-]`. -/
def isEmailDomainUnit (u : UInt16) : Bool :=
  isAlnumUnit u || [asciiUnit '.', asciiUnit '-'].contains u

/-- `[\s-]`. -/
def isGapUnit (u : UInt16) : Bool :=
  [asciiUnit '\t', asciiUnit '\n', 12, asciiUnit '\r', asciiUnit ' ', asciiUnit '-'].contains u

/-- `EMAIL_RE` for texts of up to `n` units. -/
def emailRe (n : ℕ) : Regex UInt16 :=
  .concat .boundary
    [.rep (.unit isEmailLocalUnit) 1 n, .unit (· = asciiUnit '@'), .rep (.unit isEmailDomainUnit) 1 n,
      .unit (· = asciiUnit '.'), .rep (.unit isLetterUnit) 2 n, .boundary]

/-- `PHONE_BR_RE`. -/
def phoneBrRe : Regex UInt16 :=
  .concat (.opt (.concat (.opt (.unit (· = asciiUnit '+')))
      [.unit (· = asciiUnit '5'), .unit (· = asciiUnit '5'), .opt (.unit isGapUnit)]))
    [.opt (.unit (· = asciiUnit '(')), .times (.unit isDigitUnit) 2, .opt (.unit (· = asciiUnit ')')),
      .opt (.unit isGapUnit), .rep (.unit isDigitUnit) 4 1, .opt (.unit isGapUnit),
      .times (.unit isDigitUnit) 4, .boundary]

/-! ## The detectors -/

/-- `detectEmail`. -/
def detectEmail (text : JsString) : List DetectorFinding :=
  detectWith "email" (emailRe text.length) (fun _ => true) text

/-- The filter of `detectPhoneBr`. -/
def isPhoneLength (s : JsString) : Bool :=
  (digits s).length = 10 || (digits s).length = 11 || (digits s).length = 12 ||
    (digits s).length = 13

/-- `detectPhoneBr`. -/
def detectPhoneBr (text : JsString) : List DetectorFinding :=
  detectWith "phone_br" phoneBrRe isPhoneLength text

/-- `detectAllBaseline`. -/
def detectAllBaseline (text : JsString) : List DetectorFinding :=
  detectCpf text ++ detectCnpj text ++ detectEmail text ++ detectPhoneBr text

/-- `mergeFindingSpans(detectAllBaseline(text))`. -/
def dlpScan (locale : Collation) (text : JsString) : List MergedFinding :=
  mergeFindingSpans locale ((detectAllBaseline text).map DetectorFinding.toFindingSpan)

/-- `segments.map((s) => s.text).join('\n')`. -/
def joinSegments (segments : List JsString) : JsString := [asciiUnit '\n'].intercalate segments

/-! ## What the detectors report -/

/-- The text has a match of the pattern. -/
def HasMatch (re : Regex UInt16) (text : JsString) : Prop :=
  ∃ p q, q ∈ re.ends isWordUnit text p

/-- A CPF is in the text. -/
def HasCpf (text : JsString) : Prop :=
  ∃ p, ∃ q ∈ cpfRe.ends isWordUnit text p, isValidCpf (unitSlice text p q) = true

/-- A CNPJ is in the text that no earlier candidate swallows. -/
def HasCnpj (text : JsString) : Prop :=
  ∃ p, ∃ q ∈ cnpjRe.ends isWordUnit text p, isValidCnpj (unitSlice text p q) = true ∧
    ¬Swallowed (cnpjRe.ends isWordUnit text) p

/-- An e-mail address is in the text. -/
def HasEmail (text : JsString) : Prop := HasMatch (emailRe text.length) text

/-- A phone number is in the text. -/
def HasPhone (text : JsString) : Prop := HasMatch phoneBrRe text

section Detectors

variable {text : JsString}

lemma detectWith_detector {detector : String} {re : Regex UInt16} {isValid : JsString → Bool}
    {f : DetectorFinding} (hf : f ∈ detectWith detector re isValid text) :
    f.detector = jsString detector := by
  obtain ⟨m, -, rfl⟩ := List.mem_map.mp hf
  rfl

/-- A detector has a finding if its search reports something. -/
lemma exists_detectWith_iff (detector : String) {re : Regex UInt16} (hre : 0 < re.minLength)
    {isValid : JsString → Bool} :
    (∃ f, f ∈ detectWith detector re isValid text) ↔ Reported isWordUnit text re isValid := by
  rw [reported_iff hre]
  simp only [detectWith, List.mem_map, List.mem_filter]
  constructor
  · rintro ⟨f, m, ⟨hm, hvalid⟩, -⟩
    exact ⟨m, hm, hvalid⟩
  · rintro ⟨m, hm, hvalid⟩
    exact ⟨_, m, ⟨hm, hvalid⟩, rfl⟩

/-- A mask matches at most once at a position. -/
lemma Mask.reported_iff_exists {mask : Mask UInt16} (hmask : mask.Proper isWordUnit)
    {isValid : JsString → Bool} : Reported isWordUnit text mask.regex isValid ↔
      ∃ p, ∃ q ∈ mask.regex.ends isWordUnit text p, isValid (unitSlice text p q) = true ∧
        ¬Swallowed (mask.regex.ends isWordUnit text) p := by
  constructor
  · rintro ⟨p, q, hq, hnot, hvalid⟩
    exact ⟨p, q, List.mem_of_mem_head? hq, hvalid, hnot⟩
  · rintro ⟨p, q, hq, hvalid, hnot⟩
    exact ⟨p, q, Mask.head?_ends hmask hq, hnot, hvalid⟩

lemma exists_detectCpf_iff : (∃ f, f ∈ detectCpf text) ↔ HasCpf text := by
  refine (exists_detectWith_iff "cpf" (by decide)).trans ?_
  rw [cpfRe_eq, Mask.reported_iff_exists cpfMask_proper]
  refine exists_congr fun p => exists_congr fun q => and_congr_right fun hq => ?_
  exact and_iff_left (Mask.not_swallowed cpfMask_proper (by decide) hq)

lemma exists_detectCnpj_iff : (∃ f, f ∈ detectCnpj text) ↔ HasCnpj text := by
  refine (exists_detectWith_iff "cnpj" (by decide)).trans ?_
  rw [cnpjRe_eq, Mask.reported_iff_exists cnpjMask_proper]
  rfl

/-- Where every match is valid, a detector has a finding if there is a match. -/
lemma exists_detectWith_iff_hasMatch (detector : String) {re : Regex UInt16}
    (hre : 0 < re.minLength) {isValid : JsString → Bool}
    (hvalid : ∀ p, ∀ q ∈ re.ends isWordUnit text p, isValid (unitSlice text p q) = true) :
    (∃ f, f ∈ detectWith detector re isValid text) ↔ HasMatch re text := by
  rw [exists_detectWith_iff detector hre]
  constructor
  · rintro ⟨p, q, hq, -, -⟩
    exact ⟨p, q, List.mem_of_mem_head? hq⟩
  · rintro ⟨p, q, hq⟩
    exact reported_of_mem_ends hvalid hq

lemma minLength_emailRe (n : ℕ) : (emailRe n).minLength = 6 := rfl

lemma exists_detectEmail_iff : (∃ f, f ∈ detectEmail text) ↔ HasEmail text :=
  exists_detectWith_iff_hasMatch "email" (by rw [minLength_emailRe]; decide) fun _ _ _ => rfl

/-! ## The digits of a phone number -/

/-- The digits of a part of a text. -/
lemma length_digits_unitSlice {i j : ℕ} (h : i ≤ j) :
    wordCount isDigitUnit text j =
      wordCount isDigitUnit text i + (digits (unitSlice text i j)).length := by
  rw [wordCount, wordCount, digits, ← List.countP_eq_length_filter, ← List.countP_append, unitSlice]
  congr 1
  rw [← List.take_add, Nat.add_sub_cancel' h]

/-- Digits in a row. -/
lemma wordCount_of_digits {m extra i j : ℕ}
    (h : j ∈ ends isWordUnit text (.rep (.unit isDigitUnit) m extra) i) :
    ∃ n, m ≤ n ∧ n ≤ m + extra ∧
      wordCount isDigitUnit text j = wordCount isDigitUnit text i + n := by
  rw [ends, mem_rounds_unit_iff] at h
  obtain ⟨hle, hle', hall⟩ := h
  obtain ⟨n, rfl⟩ := Nat.exists_eq_add_of_le (Nat.le_of_add_right_le hle)
  exact ⟨n, by omega, by omega, wordCount_add hall le_rfl⟩

/-- A character that is no digit. -/
lemma wordCount_of_unit {p : UInt16 → Bool} (hp : ∀ u, p u = true → isDigitUnit u = false) {i j : ℕ}
    (h : j ∈ ends isWordUnit text (.unit p) i) :
    wordCount isDigitUnit text j = wordCount isDigitUnit text i := by
  obtain ⟨hi, rfl⟩ := mem_ends_unit_iff.mp h
  rw [wordCount_succ, not_wordAt_of_any hp hi]
  rfl

/-- An optional character that is no digit. -/
lemma wordCount_of_opt {p : UInt16 → Bool} (hp : ∀ u, p u = true → isDigitUnit u = false) {i j : ℕ}
    (h : j ∈ ends isWordUnit text (.opt (.unit p)) i) :
    wordCount isDigitUnit text j = wordCount isDigitUnit text i := by
  rcases mem_ends_opt_iff.mp h with h | rfl
  · exact wordCount_of_unit hp h
  · rfl

/-- A digit of the pattern. -/
lemma wordCount_of_digit {c : Char} (hc : isDigitUnit (asciiUnit c) = true) {i j : ℕ}
    (h : j ∈ ends isWordUnit text (.unit (· = asciiUnit c)) i) :
    wordCount isDigitUnit text j = wordCount isDigitUnit text i + 1 := by
  obtain ⟨hi, rfl⟩ := mem_ends_unit_iff.mp h
  have hat : wordAt isDigitUnit text i = true :=
    wordAt_of_any (fun u hu => by rwa [of_decide_eq_true hu]) hi
  rw [wordCount_succ, hat]
  rfl

lemma not_isDigitUnit_of_eq {c : Char} (hc : isDigitUnit (asciiUnit c) = false) (u : UInt16)
    (h : decide (u = asciiUnit c) = true) : isDigitUnit u = false := by
  rwa [of_decide_eq_true h]

lemma not_isDigitUnit_of_isGapUnit (u : UInt16) (h : isGapUnit u = true) :
    isDigitUnit u = false := by
  have hall : ([asciiUnit '\t', asciiUnit '\n', 12, asciiUnit '\r', asciiUnit ' ',
      asciiUnit '-'].all fun u => !isDigitUnit u) = true := by decide
  simpa using List.all_eq_true.mp hall u (List.contains_iff_mem.mp h)

/-- The country code has no digits or two. -/
lemma wordCount_of_country {i j : ℕ}
    (h : j ∈ ends isWordUnit text (.opt (.concat (.opt (.unit (· = asciiUnit '+')))
      [.unit (· = asciiUnit '5'), .unit (· = asciiUnit '5'), .opt (.unit isGapUnit)])) i) :
    ∃ n ≤ 2, wordCount isDigitUnit text j = wordCount isDigitUnit text i + n := by
  rcases mem_ends_opt_iff.mp h with h | rfl
  · obtain ⟨a, ha, h⟩ := mem_ends_seq_iff.mp h
    obtain ⟨b, hb, h⟩ := mem_ends_seq_iff.mp h
    obtain ⟨c, hc, h⟩ := mem_ends_seq_iff.mp h
    have hplus := wordCount_of_opt (not_isDigitUnit_of_eq (by decide)) ha
    have hfive := wordCount_of_digit (by decide) hb
    have hfive' := wordCount_of_digit (by decide) hc
    have hgap := wordCount_of_opt not_isDigitUnit_of_isGapUnit h
    exact ⟨2, le_rfl, by omega⟩
  · exact ⟨0, by omega, rfl⟩

/-- Every match of the pattern passes the filter. -/
lemma isPhoneLength_of_mem_ends (p : ℕ) :
    ∀ q ∈ phoneBrRe.ends isWordUnit text p, isPhoneLength (unitSlice text p q) = true := by
  intro q hq
  have hle := (end_le_of_mem_ends hq).1
  obtain ⟨a, ha, h⟩ := mem_ends_seq_iff.mp hq
  obtain ⟨b, hb, h⟩ := mem_ends_seq_iff.mp h
  obtain ⟨c, hc, h⟩ := mem_ends_seq_iff.mp h
  obtain ⟨d, hd, h⟩ := mem_ends_seq_iff.mp h
  obtain ⟨e, he, h⟩ := mem_ends_seq_iff.mp h
  obtain ⟨f, hf, h⟩ := mem_ends_seq_iff.mp h
  obtain ⟨g, hg, h⟩ := mem_ends_seq_iff.mp h
  obtain ⟨k, hk, h⟩ := mem_ends_seq_iff.mp h
  obtain ⟨-, rfl⟩ := mem_ends_boundary_iff.mp h
  obtain ⟨n, hn, hcountry⟩ := wordCount_of_country ha
  have hopen := wordCount_of_opt (not_isDigitUnit_of_eq (by decide)) hb
  obtain ⟨n', hn', hn'', harea⟩ := wordCount_of_digits hc
  have hclose := wordCount_of_opt (not_isDigitUnit_of_eq (by decide)) hd
  have hgap := wordCount_of_opt not_isDigitUnit_of_isGapUnit he
  obtain ⟨m, hm, hm', hfirst⟩ := wordCount_of_digits hf
  have hgap' := wordCount_of_opt not_isDigitUnit_of_isGapUnit hg
  obtain ⟨m', hm'', hm''', hlast⟩ := wordCount_of_digits hk
  have hdigits := @length_digits_unitSlice text _ _ hle
  simp only [isPhoneLength, Bool.or_eq_true, decide_eq_true_eq]
  omega

lemma exists_detectPhoneBr_iff : (∃ f, f ∈ detectPhoneBr text) ↔ HasPhone text :=
  exists_detectWith_iff_hasMatch "phone_br" (by decide) isPhoneLength_of_mem_ends

end Detectors

/-! ## Joined segments -/

lemma not_isWordUnit_newline : isWordUnit (asciiUnit '\n') = false := by decide

lemma reported_cpf_iff {text : JsString} : Reported isWordUnit text cpfRe isValidCpf ↔ HasCpf text :=
  (exists_detectWith_iff "cpf" (by decide)).symm.trans exists_detectCpf_iff

lemma reported_cnpj_iff {text : JsString} :
    Reported isWordUnit text cnpjRe isValidCnpj ↔ HasCnpj text :=
  (exists_detectWith_iff "cnpj" (by decide)).symm.trans exists_detectCnpj_iff

lemma avoids_cpfRe : Avoids (asciiUnit '\n') cpfRe := by
  simp only [cpfRe, Regex.concat, times, Avoids, and_true, true_and]
  decide

lemma avoids_cnpjRe : Avoids (asciiUnit '\n') cnpjRe := by
  simp only [cnpjRe, Regex.concat, times, Avoids, and_true, true_and]
  decide

lemma avoids_emailRe (n : ℕ) : Avoids (asciiUnit '\n') (emailRe n) := by
  simp only [emailRe, Regex.concat, Avoids, and_true, true_and]
  decide

/-- The joined text has a CPF exactly if a segment has one. -/
lemma hasCpf_joinSegments_iff {segments : List JsString} :
    HasCpf (joinSegments segments) ↔ ∃ s ∈ segments, HasCpf s := by
  simp only [← reported_cpf_iff]
  exact reported_intercalate_iff not_isWordUnit_newline avoids_cpfRe (by decide) segments

/-- The joined text has a CNPJ exactly if a segment has one. -/
lemma hasCnpj_joinSegments_iff {segments : List JsString} :
    HasCnpj (joinSegments segments) ↔ ∃ s ∈ segments, HasCnpj s := by
  simp only [← reported_cnpj_iff]
  exact reported_intercalate_iff not_isWordUnit_newline avoids_cnpjRe (by decide) segments

/-- Repetitions beyond the length of the text do not matter. -/
lemma mem_ends_rep_iff {text : JsString} {p : UInt16 → Bool} {m n i j : ℕ} (hn : text.length ≤ n) :
    j ∈ ends isWordUnit text (.rep (.unit p) m n) i ↔
      j ∈ ends isWordUnit text (.rep (.unit p) m text.length) i := by
  constructor
  · intro h
    have hle := end_le_of_mem_ends h
    rw [ends, mem_rounds_unit_iff] at h ⊢
    exact ⟨h.1, by omega, h.2.2⟩
  · intro h
    rw [ends, mem_rounds_unit_iff] at h ⊢
    exact ⟨h.1, by omega, h.2.2⟩

lemma hasMatch_emailRe_iff {text : JsString} {n : ℕ} (hn : text.length ≤ n) :
    HasMatch (emailRe n) text ↔ HasEmail text := by
  simp only [HasEmail, HasMatch, emailRe, Regex.concat, mem_ends_seq_iff, mem_ends_rep_iff hn]

lemma reported_email_iff {text : JsString} {n : ℕ} (hn : text.length ≤ n) :
    Reported isWordUnit text (emailRe n) (fun _ => true) ↔ HasEmail text := by
  rw [← hasMatch_emailRe_iff hn]
  exact (exists_detectWith_iff "email" (by rw [minLength_emailRe]; decide)).symm.trans
    (exists_detectWith_iff_hasMatch "email" (by rw [minLength_emailRe]; decide) fun _ _ _ => rfl)

/-- The joined text has an e-mail address exactly if a segment has one. -/
lemma hasEmail_joinSegments_iff {segments : List JsString} :
    HasEmail (joinSegments segments) ↔ ∃ s ∈ segments, HasEmail s := by
  rw [← reported_email_iff le_rfl, joinSegments,
    reported_intercalate_iff not_isWordUnit_newline (avoids_emailRe _)
      (by rw [minLength_emailRe]; decide) segments]
  refine exists_congr fun s => and_congr_right fun hs => reported_email_iff ?_
  obtain ⟨a, h⟩ := @isBlock_of_mem _ (asciiUnit '\n') _ _ hs
  exact (Nat.le_add_left _ _).trans h.length_le

/-- A phone number of a segment is one of the joined text. -/
lemma HasPhone.joinSegments {segments : List JsString} {s : JsString} (hs : s ∈ segments)
    (h : HasPhone s) : HasPhone (joinSegments segments) := by
  obtain ⟨p, q, hq⟩ := h
  obtain ⟨a, hblock⟩ := @isBlock_of_mem _ (asciiUnit '\n') _ _ hs
  have hlt := lt_of_mem_ends (by decide) hq
  exact ⟨_, _, hblock.mem_ends not_isWordUnit_newline (by omega) hq⟩

/-! ## The signals of the scan -/

/-- Something of the strong class is in the text. -/
def HasStrong (text : JsString) : Prop := HasCpf text ∨ HasCnpj text

/-- Something is in the text that a detector reports. -/
def HasSignal (text : JsString) : Prop := HasStrong text ∨ HasEmail text ∨ HasPhone text

/-- A strong signal of a segment is one of the joined text. -/
lemma HasStrong.joinSegments {segments : List JsString} {s : JsString} (hs : s ∈ segments)
    (h : HasStrong s) : HasStrong (joinSegments segments) :=
  h.imp (fun h => hasCpf_joinSegments_iff.mpr ⟨s, hs, h⟩) fun h =>
    hasCnpj_joinSegments_iff.mpr ⟨s, hs, h⟩

/-- A strong signal of the joined text is one of a segment. -/
lemma exists_of_hasStrong_joinSegments {segments : List JsString}
    (h : HasStrong (joinSegments segments)) : ∃ s ∈ segments, HasStrong s := by
  rcases h with h | h
  · obtain ⟨s, hs, h⟩ := hasCpf_joinSegments_iff.mp h
    exact ⟨s, hs, .inl h⟩
  · obtain ⟨s, hs, h⟩ := hasCnpj_joinSegments_iff.mp h
    exact ⟨s, hs, .inr h⟩

/-- A signal of a segment is one of the joined text. -/
lemma HasSignal.joinSegments {segments : List JsString} {s : JsString} (hs : s ∈ segments)
    (h : HasSignal s) : HasSignal (joinSegments segments) := by
  rcases h with h | h | h
  · exact .inl (h.joinSegments hs)
  · exact .inr (.inl (hasEmail_joinSegments_iff.mpr ⟨s, hs, h⟩))
  · exact .inr (.inr (h.joinSegments hs))

/-- A signal of the joined text that is not a phone number is one of a segment. -/
lemma exists_of_hasSignal_joinSegments {segments : List JsString}
    (h : HasSignal (joinSegments segments)) :
    HasPhone (joinSegments segments) ∨ ∃ s ∈ segments, HasSignal s := by
  rcases h with h | h | h
  · obtain ⟨s, hs, h⟩ := exists_of_hasStrong_joinSegments h
    exact .inr ⟨s, hs, .inl h⟩
  · obtain ⟨s, hs, h⟩ := hasEmail_joinSegments_iff.mp h
    exact .inr ⟨s, hs, .inr (.inl h)⟩
  · exact .inl h

section Scan

variable {locale : Collation} {text : JsString}

lemma exists_detectAllBaseline_iff : (∃ f, f ∈ detectAllBaseline text) ↔ HasSignal text := by
  simp only [detectAllBaseline, List.mem_append, exists_or, exists_detectCpf_iff,
    exists_detectCnpj_iff, exists_detectEmail_iff, exists_detectPhoneBr_iff, HasSignal, HasStrong,
    or_assoc]

/-- The strong detectors. -/
lemma mem_baselineStrongDetectors_iff {f : DetectorFinding} (hf : f ∈ detectAllBaseline text) :
    f.detector ∈ baselineStrongDetectors ↔ f ∈ detectCpf text ∨ f ∈ detectCnpj text := by
  constructor
  · intro h
    simp only [detectAllBaseline, List.mem_append] at hf
    rcases hf with (hf | hf) | hf
    · exact hf
    · rw [detectWith_detector hf] at h
      exact absurd h (by decide)
    · rw [detectWith_detector hf] at h
      exact absurd h (by decide)
  · rintro (h | h) <;> rw [detectWith_detector h] <;> decide

/-- A span is strong if it has a member of the strong class. -/
lemma signalClass_eq_piiStrong_iff (m : MergedFinding) :
    m.signalClass = .piiStrong ↔ ∃ d ∈ m.detectors, d ∈ baselineStrongDetectors := by
  rw [m.signalClass_eq, signalClassOf]
  have hlen : 0 < (strongDetectors m.detectors).length ↔
      ∃ d ∈ m.detectors, d ∈ baselineStrongDetectors := by
    rw [List.length_pos_iff_exists_mem]
    simp only [strongDetectors, List.mem_filter, decide_eq_true_eq]
  rw [← hlen]
  split <;> simp_all

/-- The scan puts something out exactly if there is a signal. -/
lemma exists_dlpScan_iff : (∃ m, m ∈ dlpScan locale text) ↔ HasSignal text := by
  rw [← exists_detectAllBaseline_iff]
  constructor
  · rintro ⟨m, hm⟩
    obtain ⟨f, hf, -, -⟩ := exists_finding_of_mem_detectors hm m.detector_mem
    obtain ⟨g, hg, rfl⟩ := List.mem_map.mp hf
    exact ⟨g, hg⟩
  · rintro ⟨f, hf⟩
    obtain ⟨m, hm, -⟩ := exists_mergedFinding locale
      (List.mem_map_of_mem (f := DetectorFinding.toFindingSpan) hf)
    exact ⟨m, hm⟩

/-- The scan puts out a strong span exactly if there is a strong signal. -/
lemma exists_strong_dlpScan_iff :
    (∃ m ∈ dlpScan locale text, m.signalClass = .piiStrong) ↔ HasStrong text := by
  simp only [signalClass_eq_piiStrong_iff]
  constructor
  · rintro ⟨m, hm, d, hd, hstrong⟩
    obtain ⟨f, hf, -, hmem⟩ := exists_finding_of_mem_detectors hm hd
    obtain ⟨g, hg, rfl⟩ := List.mem_map.mp hf
    obtain rfl := List.mem_singleton.mp hmem
    rcases (mem_baselineStrongDetectors_iff hg).mp hstrong with h | h
    · exact .inl (exists_detectCpf_iff.mp ⟨g, h⟩)
    · exact .inr (exists_detectCnpj_iff.mp ⟨g, h⟩)
  · intro h
    obtain ⟨f, hf, hstrong⟩ : ∃ f ∈ detectAllBaseline text, f.detector ∈ baselineStrongDetectors := by
      rcases h with h | h
      · obtain ⟨f, hf⟩ := exists_detectCpf_iff.mpr h
        have hall : f ∈ detectAllBaseline text := by simp [detectAllBaseline, hf]
        exact ⟨f, hall, (mem_baselineStrongDetectors_iff hall).mpr (.inl hf)⟩
      · obtain ⟨f, hf⟩ := exists_detectCnpj_iff.mpr h
        have hall : f ∈ detectAllBaseline text := by simp [detectAllBaseline, hf]
        exact ⟨f, hall, (mem_baselineStrongDetectors_iff hall).mpr (.inr hf)⟩
    obtain ⟨m, hm, -, hsub⟩ := exists_mergedFinding locale
      (List.mem_map_of_mem (f := DetectorFinding.toFindingSpan) hf)
    exact ⟨m, hm, f.detector, hsub _ (List.mem_singleton.mpr rfl), hstrong⟩

/-- **What the scan of a segment raises, the scan of the joined text raises**, by itself or by the
strong class. -/
lemma signal_joinSegments {segments : List JsString} {s : JsString} (hs : s ∈ segments)
    {m : MergedFinding} (hm : m ∈ dlpScan locale s) :
    ∃ m' ∈ dlpScan locale (joinSegments segments),
      m'.signalClass = m.signalClass ∨ m'.signalClass = .piiStrong := by
  cases hclass : m.signalClass with
  | piiStrong =>
    have hstrong := exists_strong_dlpScan_iff.mp ⟨m, hm, hclass⟩
    obtain ⟨m', hm', h⟩ := exists_strong_dlpScan_iff.mpr (hstrong.joinSegments hs)
    exact ⟨m', hm', .inl h⟩
  | piiStandard =>
    have hsignal := exists_dlpScan_iff.mp ⟨m, hm⟩
    obtain ⟨m', hm'⟩ := @exists_dlpScan_iff locale _ |>.mpr (hsignal.joinSegments hs)
    cases hclass' : m'.signalClass with
    | piiStrong => exact ⟨m', hm', .inr hclass'⟩
    | piiStandard => exact ⟨m', hm', .inl hclass'⟩

end Scan

end GovAI
