import GovAI.Capture.SealerEventId
import GovAI.Json.RoundTrip
import GovAI.Library.Base64
import GovAI.Library.DecimalFields
import GovAI.Library.Gregorian

/-!
# The cursor of the conversation list

`cursor.ts`.  A cursor carries the text of `updated_at` as PostgreSQL prints it and a uuid, as JSON
in base64url.  The decoder accepts exactly the texts that the store can print
(`isStoreEmittableTimestamptz_iff`), and it reads back every cursor that was encoded
(`decode_encodeConversationCursor`).
-/

namespace GovAI

/-! ## `timestamptz::text` -/

/-- The components of a text of the layout `PG_TIMESTAMPTZ_RE`; the last two are the minutes and the
seconds of the offset. -/
structure TimestamptzGroups where
  year : ℕ
  month : ℕ
  day : ℕ
  hour : ℕ
  minute : ℕ
  second : ℕ
  fraction : JsString
  west : Bool
  offsetHour : ℕ
  offsetTail : Option (ℕ × Option ℕ)
deriving DecidableEq

/-- `(?:\.\d{1,6})?` -/
def readFraction : JsString → Option (JsString × JsString)
  | [] => some ([], [])
  | u :: s =>
    if u = asciiUnit '.' then
      let digits := s.takeWhile isDigitUnit
      if 1 ≤ digits.length ∧ digits.length ≤ 6 then some (digits, s.dropWhile isDigitUnit) else none
    else some ([], u :: s)

/-- `[+-]`; the sign `-` is that of the west. -/
def readSign : JsString → Option (Bool × JsString)
  | [] => none
  | u :: s =>
    if u = asciiUnit '+' then some (false, s) else if u = asciiUnit '-' then some (true, s) else none

/-- `(?::(\d{2}))?(?::(\d{2}))?$` -/
def readOffsetTail : JsString → Option (Option (ℕ × Option ℕ))
  | [] => some none
  | s => do
    let (minutes, s) ← readField ':' 2 s
    match s with
    | [] => some (some (minutes, none))
    | s => do
      let (seconds, s) ← readField ':' 2 s
      if s = [] then some (some (minutes, some seconds)) else none

/-- `PG_TIMESTAMPTZ_RE.exec`. -/
def execTimestamptz (s : JsString) : Option TimestamptzGroups := do
  let (year, s) ← readDigits 4 s
  let (month, s) ← readField '-' 2 s
  let (day, s) ← readField '-' 2 s
  let (hour, s) ← readField ' ' 2 s
  let (minute, s) ← readField ':' 2 s
  let (second, s) ← readField ':' 2 s
  let (fraction, s) ← readFraction s
  let (west, s) ← readSign s
  let (offsetHour, s) ← readDigits 2 s
  let offsetTail ← readOffsetTail s
  return ⟨year, month, day, hour, minute, second, fraction, west, offsetHour, offsetTail⟩

/-- `daysInMonth`. -/
def daysInMonth (year month : ℕ) : ℕ :=
  if month = 2 then
    if year % 4 = 0 ∧ (year % 100 ≠ 0 ∨ year % 400 = 0) then 29 else 28
  else if month = 4 ∨ month = 6 ∨ month = 9 ∨ month = 11 then 30
  else 31

/-- The ranges that `isStoreEmittableTimestamptz` checks. -/
def TimestamptzGroups.InRange (g : TimestamptzGroups) : Prop :=
  ¬(g.year < 1 ∨ g.month < 1 ∨ 12 < g.month) ∧ ¬(g.day < 1 ∨ daysInMonth g.year g.month < g.day) ∧
    ¬(23 < g.hour ∨ 59 < g.minute ∨ 59 < g.second) ∧ g.offsetHour ≤ 15 ∧
    (g.offsetTail.elim 0 (·.1)) ≤ 59 ∧ ((g.offsetTail.bind (·.2)).getD 0) ≤ 59

instance (g : TimestamptzGroups) : Decidable g.InRange :=
  inferInstanceAs (Decidable (_ ∧ _ ∧ _ ∧ _ ∧ _ ∧ _))

/-- `isStoreEmittableTimestamptz`. -/
def isStoreEmittableTimestamptz (value : JsString) : Bool :=
  match execTimestamptz value with
  | none => false
  | some g => decide g.InRange

/-- A timestamp that the store can print: a date of the years 1 to 9999, a time of day, a fraction of
at most six digits and an offset. -/
structure StoreTimestamp extends TimestamptzGroups where
  date : Gregorian.IsDate year month day
  year_le : year ≤ 9999
  hour_lt : hour < 24
  minute_lt : minute < 60
  second_lt : second < 60
  fraction_digits : ∀ u ∈ fraction, isDigitUnit u = true
  fraction_length : fraction.length ≤ 6
  offsetHour_lt : offsetHour < 16
  offsetMinute_lt : ∀ tail ∈ offsetTail, tail.1 < 60
  offsetSecond_lt : ∀ tail ∈ offsetTail, ∀ seconds ∈ tail.2, seconds < 60

/-- The text of the offset after its hours. -/
def offsetTailText : Option (ℕ × Option ℕ) → JsString
  | none => []
  | some (minutes, none) => asciiUnit ':' :: fixedDigits 2 minutes
  | some (minutes, some seconds) =>
    asciiUnit ':' :: (fixedDigits 2 minutes ++ asciiUnit ':' :: fixedDigits 2 seconds)

/-- The text of a fraction. -/
def fractionText (fraction : JsString) : JsString :=
  if fraction = [] then [] else asciiUnit '.' :: fraction

/-- The text of a timestamp. -/
def TimestamptzGroups.text (g : TimestamptzGroups) : JsString :=
  fixedDigits 4 g.year ++ asciiUnit '-' :: (fixedDigits 2 g.month ++ asciiUnit '-' ::
    (fixedDigits 2 g.day ++ asciiUnit ' ' :: (fixedDigits 2 g.hour ++ asciiUnit ':' ::
      (fixedDigits 2 g.minute ++ asciiUnit ':' :: (fixedDigits 2 g.second ++
        (fractionText g.fraction ++ asciiUnit (if g.west then '-' else '+') ::
          (fixedDigits 2 g.offsetHour ++ offsetTailText g.offsetTail)))))))

/-- The fields have their widths. -/
structure TimestamptzGroups.Fits (g : TimestamptzGroups) : Prop where
  year : g.year < 10 ^ 4
  month : g.month < 10 ^ 2
  day : g.day < 10 ^ 2
  hour : g.hour < 10 ^ 2
  minute : g.minute < 10 ^ 2
  second : g.second < 10 ^ 2
  fraction : ∀ u ∈ g.fraction, isDigitUnit u = true
  fraction_length : g.fraction.length ≤ 6
  offsetHour : g.offsetHour < 10 ^ 2
  offsetMinute : ∀ tail ∈ g.offsetTail, tail.1 < 10 ^ 2
  offsetSecond : ∀ tail ∈ g.offsetTail, ∀ seconds ∈ tail.2, seconds < 10 ^ 2

/-! ## The texts that are read -/

/-- The sign of the offset. -/
lemma readSign_eq_some_iff {west : Bool} {s rest : JsString} :
    readSign s = some (west, rest) ↔ s = asciiUnit (if west then '-' else '+') :: rest := by
  have hsigns : asciiUnit '-' ≠ asciiUnit '+' := by decide
  cases s with
  | nil => simp [readSign]
  | cons u s =>
    rw [readSign]
    by_cases hplus : u = asciiUnit '+'
    · rw [if_pos hplus, hplus]
      cases west <;> simp [hsigns.symm]
    · rw [if_neg hplus]
      by_cases hminus : u = asciiUnit '-'
      · rw [if_pos hminus, hminus]
        cases west <;> simp [hsigns]
      · rw [if_neg hminus]
        cases west <;> simp [hplus, hminus]

/-- The minutes and the seconds of the offset. -/
lemma readOffsetTail_eq_some_iff {tail : Option (ℕ × Option ℕ)} {s : JsString} :
    readOffsetTail s = some tail ↔ ((∀ t ∈ tail, t.1 < 10 ^ 2) ∧
      ∀ t ∈ tail, ∀ seconds ∈ t.2, seconds < 10 ^ 2) ∧ s = offsetTailText tail := by
  constructor
  · intro h
    cases s with
    | nil =>
      obtain rfl := Option.some.inj h
      exact ⟨⟨by simp, by simp⟩, rfl⟩
    | cons u s =>
      rw [readOffsetTail, Option.bind_eq_bind, Option.bind_eq_some_iff] at h
      · obtain ⟨⟨minutes, s'⟩, hminutes, h⟩ := h
        obtain ⟨hm, hs⟩ := readField_eq_some_iff.mp hminutes
        cases s' with
        | nil =>
          obtain rfl := Option.some.inj h
          rw [List.append_nil] at hs
          exact ⟨⟨by simpa using hm, by simp⟩, hs⟩
        | cons u' s' =>
          rw [Option.bind_eq_some_iff] at h
          obtain ⟨⟨seconds, s''⟩, hseconds, h⟩ := h
          obtain ⟨hsec, hs'⟩ := readField_eq_some_iff.mp hseconds
          dsimp only at h
          by_cases hnil : s'' = []
          · rw [if_pos hnil] at h
            obtain rfl := Option.some.inj h
            rw [hnil, List.append_nil] at hs'
            rw [hs'] at hs
            exact ⟨⟨by simpa using hm, by simpa using hsec⟩, hs⟩
          · rw [if_neg hnil] at h
            cases h
      · simp
  · rintro ⟨⟨hm, hsec⟩, rfl⟩
    rcases tail with _ | ⟨minutes, _ | seconds⟩
    · rfl
    · have hminutes : readField ':' 2 (offsetTailText (some (minutes, none))) = some (minutes, []) :=
        readField_eq_some_iff.mpr ⟨hm _ rfl, by rw [List.append_nil]; rfl⟩
      rw [readOffsetTail, hminutes]
      · rfl
      · simp [offsetTailText]
    · have hminutes : readField ':' 2 (offsetTailText (some (minutes, some seconds))) =
          some (minutes, asciiUnit ':' :: fixedDigits 2 seconds) :=
        readField_eq_some_iff.mpr ⟨hm _ rfl, rfl⟩
      have hseconds : readField ':' 2 (asciiUnit ':' :: fixedDigits 2 seconds) =
          some (seconds, []) :=
        readField_eq_some_iff.mpr ⟨hsec _ rfl _ rfl, by rw [List.append_nil]⟩
      rw [readOffsetTail, hminutes]
      · simp only [Option.bind_eq_bind, Option.bind_some, hseconds, if_true]
      · simp [offsetTailText]

/-- What is read as a fraction. -/
lemma readFraction_sound {s fraction rest : JsString} (h : readFraction s = some (fraction, rest)) :
    (∀ u ∈ fraction, isDigitUnit u = true) ∧ fraction.length ≤ 6 ∧
      s = fractionText fraction ++ rest := by
  cases s with
  | nil =>
    obtain ⟨rfl, rfl⟩ := Prod.mk.inj (Option.some.inj h)
    exact ⟨List.forall_mem_nil _, Nat.zero_le _, rfl⟩
  | cons u s =>
    rw [readFraction] at h
    by_cases hpoint : u = asciiUnit '.'
    · rw [if_pos hpoint] at h
      dsimp only at h
      split at h
      · rename_i hlength
        obtain ⟨rfl, rfl⟩ := Prod.mk.inj (Option.some.inj h)
        refine ⟨fun u hu => List.all_eq_true.mp List.all_takeWhile u hu, hlength.2, ?_⟩
        have hne : s.takeWhile isDigitUnit ≠ [] := List.length_pos_iff.mp hlength.1
        rw [fractionText, if_neg hne, List.cons_append, List.takeWhile_append_dropWhile, hpoint]
      · cases h
    · rw [if_neg hpoint] at h
      obtain ⟨rfl, rfl⟩ := Prod.mk.inj (Option.some.inj h)
      exact ⟨List.forall_mem_nil _, Nat.zero_le _, rfl⟩

/-- A fraction in front of a sign is read. -/
lemma readFraction_text {fraction s : JsString} {west : Bool}
    (hdigits : ∀ u ∈ fraction, isDigitUnit u = true) (hlength : fraction.length ≤ 6) :
    readFraction (fractionText fraction ++ asciiUnit (if west then '-' else '+') :: s) =
      some (fraction, asciiUnit (if west then '-' else '+') :: s) := by
  have hsign : asciiUnit (if west then '-' else '+') ≠ asciiUnit '.' ∧
      isDigitUnit (asciiUnit (if west then '-' else '+')) = false := by
    cases west <;> decide
  rw [fractionText]
  by_cases hnil : fraction = []
  · rw [if_pos hnil, List.nil_append, readFraction, if_neg hsign.1, hnil]
  · have hpos := List.length_pos_iff.mpr hnil
    have htake : (fraction ++ asciiUnit (if west then '-' else '+') :: s).takeWhile isDigitUnit =
        fraction := by
      rw [List.takeWhile_append_of_pos hdigits, List.takeWhile_cons_of_neg (by simp [hsign.2]),
        List.append_nil]
    have hdrop : (fraction ++ asciiUnit (if west then '-' else '+') :: s).dropWhile isDigitUnit =
        asciiUnit (if west then '-' else '+') :: s := by
      rw [List.dropWhile_append_of_pos hdigits, List.dropWhile_cons_of_neg (by simp [hsign.2])]
    rw [if_neg hnil, List.cons_append, readFraction, if_pos rfl]
    dsimp only
    rw [htake, hdrop, if_pos ⟨hpos, hlength⟩]

/-- **The layout.** A text is read exactly if it is the text of its components. -/
theorem execTimestamptz_eq_some_iff {s : JsString} {g : TimestamptzGroups} :
    execTimestamptz s = some g ↔ g.Fits ∧ s = g.text := by
  constructor
  · intro h
    simp only [execTimestamptz, Option.bind_eq_bind, Option.bind_eq_some_iff, Option.pure_def,
      Prod.exists, Option.some.injEq] at h
    obtain ⟨year, s₁, h₁, month, s₂, h₂, day, s₃, h₃, hour, s₄, h₄, minute, s₅, h₅, second, s₆, h₆,
      fraction, s₇, h₇, west, s₈, h₈, offsetHour, s₉, h₉, tail, h₁₀, rfl⟩ := h
    obtain ⟨hyear, rfl⟩ := readDigits_eq_some_iff.mp h₁
    obtain ⟨hmonth, rfl⟩ := readField_eq_some_iff.mp h₂
    obtain ⟨hday, rfl⟩ := readField_eq_some_iff.mp h₃
    obtain ⟨hhour, rfl⟩ := readField_eq_some_iff.mp h₄
    obtain ⟨hminute, rfl⟩ := readField_eq_some_iff.mp h₅
    obtain ⟨hsecond, rfl⟩ := readField_eq_some_iff.mp h₆
    obtain ⟨hfraction, hlength, rfl⟩ := readFraction_sound h₇
    obtain rfl := readSign_eq_some_iff.mp h₈
    obtain ⟨hoffset, rfl⟩ := readDigits_eq_some_iff.mp h₉
    obtain ⟨⟨hmin, hsec⟩, rfl⟩ := readOffsetTail_eq_some_iff.mp h₁₀
    exact ⟨⟨hyear, hmonth, hday, hhour, hminute, hsecond, hfraction, hlength, hoffset, hmin, hsec⟩,
      rfl⟩
  · rintro ⟨h, rfl⟩
    have hyear : readDigits 4 g.text = some (g.year, _) := readDigits_eq_some_iff.mpr ⟨h.year, rfl⟩
    have hoffset : readDigits 2 (fixedDigits 2 g.offsetHour ++ offsetTailText g.offsetTail) =
        some (g.offsetHour, offsetTailText g.offsetTail) :=
      readDigits_eq_some_iff.mpr ⟨h.offsetHour, rfl⟩
    have htail : readOffsetTail (offsetTailText g.offsetTail) = some g.offsetTail :=
      readOffsetTail_eq_some_iff.mpr ⟨⟨h.offsetMinute, h.offsetSecond⟩, rfl⟩
    have hsign : ∀ s, readSign (asciiUnit (if g.west then '-' else '+') :: s) = some (g.west, s) :=
      fun s => readSign_eq_some_iff.mpr rfl
    simp only [execTimestamptz, hyear, Option.bind_eq_bind, Option.bind_some,
      readField_text h.month, readField_text h.day, readField_text h.hour, readField_text h.minute,
      readField_text h.second, readFraction_text h.fraction h.fraction_length, hsign, hoffset, htail,
      Option.pure_def]

/-! ## The texts that the decoder accepts -/

/-- The code's lengths of the months are those of the calendar. -/
lemma daysInMonth_eq (year month : ℕ) (hpos : 1 ≤ month) (hle : month ≤ 12) :
    (Gregorian.monthLengths year)[month - 1]? = some (daysInMonth year month) := by
  have hleap : Gregorian.IsLeap year ↔ year % 4 = 0 ∧ (year % 100 ≠ 0 ∨ year % 400 = 0) := by
    unfold Gregorian.IsLeap
    omega
  obtain ⟨k, hk, rfl⟩ : ∃ k < 12, month = k + 1 := ⟨month - 1, by omega, by omega⟩
  interval_cases k <;> simp [Gregorian.monthLengths, daysInMonth, hleap]

/-- The ranges that the code checks are those of a timestamp that the store can print. -/
lemma TimestamptzGroups.inRange_iff (g : TimestamptzGroups) :
    g.Fits ∧ g.InRange ↔ ∃ t : StoreTimestamp, t.toTimestamptzGroups = g := by
  constructor
  · rintro ⟨hfits, hrange⟩
    obtain ⟨hdate, hday, htime, hhours, hminutes, hseconds⟩ := hrange
    have hmonth := daysInMonth_eq g.year g.month (by omega) (by omega)
    refine ⟨{ g with
      date := ⟨by omega, by omega, by omega, by omega, fun n hn => ?_⟩
      year_le := by have := hfits.year; omega
      hour_lt := by omega
      minute_lt := by omega
      second_lt := by omega
      fraction_digits := hfits.fraction
      fraction_length := hfits.fraction_length
      offsetHour_lt := by omega
      offsetMinute_lt := fun tail htail => ?_
      offsetSecond_lt := fun tail htail seconds hsec => ?_ }, rfl⟩
    · rw [hmonth] at hn
      obtain rfl := Option.some.inj hn
      omega
    · rw [Option.mem_def.mp htail] at hminutes
      exact Nat.lt_succ_of_le hminutes
    · rw [Option.mem_def.mp htail, Option.bind_some, Option.mem_def.mp hsec] at hseconds
      exact Nat.lt_succ_of_le hseconds
  · rintro ⟨t, rfl⟩
    obtain ⟨g, hdate, hyear, hhour, hminute, hsecond, hfraction, hlength, hhours, hmin, hsec⟩ := t
    obtain ⟨hyear_pos, hmonth_pos, hmonth_le, hday_pos, hday_le⟩ := hdate
    have hmonth := daysInMonth_eq g.year g.month hmonth_pos hmonth_le
    have hday := hday_le _ hmonth
    have hlen : daysInMonth g.year g.month ≤ 31 := by
      unfold daysInMonth
      split_ifs <;> omega
    have hfits : g.Fits :=
      ⟨by omega, by omega, by omega, by omega, by omega, by omega, hfraction, hlength, by omega,
        fun tail htail => (hmin tail htail).trans (by decide),
        fun tail htail seconds hs => (hsec tail htail seconds hs).trans (by decide)⟩
    refine ⟨hfits, ?_⟩
    change g.InRange
    refine ⟨by omega, by omega, by omega, by omega, ?_, ?_⟩
    · rcases htail : g.offsetTail with _ | tail
      · exact Nat.zero_le _
      · exact Nat.le_of_lt_succ (hmin tail htail)
    · rcases htail : g.offsetTail with _ | ⟨minutes, _ | seconds⟩
      · exact Nat.zero_le _
      · exact Nat.zero_le _
      · exact Nat.le_of_lt_succ (hsec _ htail seconds rfl)

/-- **The decoder accepts exactly the texts that the store can print.** -/
theorem isStoreEmittableTimestamptz_iff {s : JsString} :
    isStoreEmittableTimestamptz s = true ↔ ∃ t : StoreTimestamp, s = t.text := by
  unfold isStoreEmittableTimestamptz
  constructor
  · intro h
    split at h
    · cases h
    · rename_i g hg
      obtain ⟨hfits, rfl⟩ := execTimestamptz_eq_some_iff.mp hg
      obtain ⟨t, rfl⟩ := g.inRange_iff.mp ⟨hfits, of_decide_eq_true h⟩
      exact ⟨t, rfl⟩
  · rintro ⟨t, rfl⟩
    obtain ⟨hfits, hrange⟩ := t.toTimestamptzGroups.inRange_iff.mpr ⟨t, rfl⟩
    rw [execTimestamptz_eq_some_iff.mpr ⟨hfits, rfl⟩]
    exact decide_eq_true hrange

/-! ## Base64url -/

/-- The character of six bits in the alphabet for URLs. -/
def base64urlUnit (n : ℕ) : UInt16 :=
  asciiUnit (if n = 62 then '-' else if n = 63 then '_' else base64Digit n)

/-- `Buffer.toString('base64url')`. -/
def toBase64url (bytes : Bytes) : JsString := (sextets bytes).map base64urlUnit

/-- The six bits of a character of either alphabet. -/
def base64UnitValue (u : UInt16) : Option ℕ :=
  if u = asciiUnit '-' then some 62
  else if u = asciiUnit '_' then some 63
  else if u.toNat < 128 then base64Value (Char.ofNat u.toNat)
  else none

/-- `Buffer.from(raw, 'base64url')`: of each unit the low byte is read; the text ends at a `=`, other
characters outside both alphabets are dropped. -/
def bufferFromBase64url (raw : JsString) : Bytes :=
  ofSextets (((raw.map (· &&& 0xFF)).takeWhile (· ≠ asciiUnit '=')).filterMap base64UnitValue)

example : bufferFromBase64url (jsString "YWłJj") = [0x61, 0x60, 0x49] ∧
    bufferFromBase64url (jsString "YWĽJj") = [0x61] := by
  decide +kernel

/-- The length of the longest beginning of a well-formed sequence at an ill-formed place, by the table
of well-formed UTF-8. -/
def maximalSubpart : Bytes → ℕ
  | a :: b :: c :: _ =>
    if (a = 0xF0 ∧ 0x90 ≤ b ∨ 0xF1 ≤ a ∧ a ≤ 0xF3 ∧ 0x80 ≤ b ∨ a = 0xF4 ∧ 0x80 ≤ b ∧ b ≤ 0x8F) ∧
        b ≤ 0xBF then
      if 0x80 ≤ c ∧ c ≤ 0xBF then 3 else 2
    else if (a = 0xE0 ∧ 0xA0 ≤ b ∨ 0xE1 ≤ a ∧ a ≤ 0xEF ∧ a ≠ 0xED ∧ 0x80 ≤ b ∨
        a = 0xED ∧ 0x80 ≤ b ∧ b ≤ 0x9F) ∧ b ≤ 0xBF then 2
    else 1
  | [a, b] =>
    if (a = 0xF0 ∧ 0x90 ≤ b ∨ 0xF1 ≤ a ∧ a ≤ 0xF3 ∧ 0x80 ≤ b ∨ a = 0xF4 ∧ 0x80 ≤ b ∧ b ≤ 0x8F ∨
        a = 0xE0 ∧ 0xA0 ≤ b ∨ 0xE1 ≤ a ∧ a ≤ 0xEF ∧ a ≠ 0xED ∧ 0x80 ≤ b ∨
        a = 0xED ∧ 0x80 ≤ b ∧ b ≤ 0x9F) ∧ b ≤ 0xBF then 2
    else 1
  | _ => 1

/-- `Buffer.toString('utf8')`: what is ill-formed is replaced by U+FFFD. -/
def bufferToUtf8 : ℕ → Bytes → List Char
  | 0, _ => []
  | _ + 1, [] => []
  | fuel + 1, b :: bytes =>
    match (b :: bytes).toByteArray.utf8DecodeChar? 0 with
    | some c => c :: bufferToUtf8 fuel ((b :: bytes).drop c.utf8Size)
    | none => '\ufffd' :: bufferToUtf8 fuel ((b :: bytes).drop (maximalSubpart (b :: bytes)))

/-- Base64url is read back. -/
lemma bufferFromBase64url_toBase64url (bytes : Bytes) :
    bufferFromBase64url (toBase64url bytes) = bytes := by
  have hunit : ∀ n < 64, base64UnitValue (base64urlUnit n) = some n ∧
      base64urlUnit n ≠ asciiUnit '=' ∧ base64urlUnit n &&& 0xFF = base64urlUnit n := by
    decide +kernel
  have hvalues : ∀ ns : List ℕ, (∀ n ∈ ns, n < 64) →
      (((ns.map base64urlUnit).map (· &&& 0xFF)).takeWhile (· ≠ asciiUnit '=')).filterMap
        base64UnitValue = ns := by
    intro ns hns
    induction ns with
    | nil => rfl
    | cons n ns ih =>
      rw [List.forall_mem_cons] at hns
      obtain ⟨hvalue, hne, hlow⟩ := hunit n hns.1
      rw [List.map_cons, List.map_cons, hlow, List.takeWhile_cons_of_pos (by simpa using hne),
        List.filterMap_cons_some hvalue, ih hns.2]
  rw [bufferFromBase64url, toBase64url, hvalues _ (sextets_lt bytes), ofSextets_sextets]

/-- Well-formed UTF-8 is read back. -/
lemma bufferToUtf8_utf8Bytes (text : List Char) {fuel : ℕ} (hfuel : text.length ≤ fuel) :
    bufferToUtf8 fuel (utf8Bytes text) = text := by
  induction text generalizing fuel with
  | nil => cases fuel <;> rfl
  | cons c text ih =>
    obtain ⟨fuel, rfl⟩ : ∃ n, fuel = n + 1 := ⟨fuel - 1, by simp at hfuel; omega⟩
    have hbytes : utf8Bytes (c :: text) = String.utf8EncodeChar c ++ utf8Bytes text := rfl
    have hdrop : (String.utf8EncodeChar c ++ utf8Bytes text).drop c.utf8Size = utf8Bytes text :=
      List.drop_left' (String.length_utf8EncodeChar c)
    have hread : (String.utf8EncodeChar c ++ utf8Bytes text).toByteArray.utf8DecodeChar? 0 =
        some c := by
      rw [List.toByteArray_append]
      exact ByteArray.utf8DecodeChar?_utf8EncodeChar_append
    have hne : String.utf8EncodeChar c ++ utf8Bytes text ≠ [] := by
      intro hnil
      rw [hnil] at hread
      cases hread
    rw [hbytes]
    obtain ⟨b, bytes, hcons⟩ := List.exists_cons_of_ne_nil hne
    rw [hcons] at hread hdrop ⊢
    rw [bufferToUtf8, hread]
    dsimp only
    rw [hdrop, ih (by simpa using hfuel)]

/-! ## Encoding and decoding -/

/-- `ConversationListCursor`. -/
structure ConversationListCursor where
  updatedAt : JsString
  id : JsString
deriving DecidableEq

/-- The characters of code units, for texts of ASCII. -/
def unitsText (s : JsString) : String := String.ofList (s.map fun u => Char.ofNat u.toNat)

/-- `UUID_RE.test`. -/
def isUuidUnits (s : JsString) : Bool := isUuid (unitsText s)

/-- `MAX_CURSOR_LEN`. -/
def maxCursorLen : ℕ := 512

/-- The payload `{ v: CURSOR_VERSION, u, i }` of a cursor. -/
def cursorPayload (cursor : ConversationListCursor) : JsonValue :=
  .obj [(jsString "v", .int 1), (jsString "u", .str cursor.updatedAt), (jsString "i", .str cursor.id)]

/-- `encodeConversationCursor`. -/
def encodeConversationCursor (cursor : ConversationListCursor) : JsString :=
  toBase64url (utf8Bytes (jsonStringify (cursorPayload cursor)))

/-- What the decoder makes of a payload. -/
def cursorOfPayload (parsed : JsonValue) : Option ConversationListCursor :=
  match parsed with
  | .obj _ =>
    match parsed.get "v", parsed.get "u", parsed.get "i" with
    | some (.num v), some (.str u), some (.str i) =>
      if v.1 = .int 1 ∧ isStoreEmittableTimestamptz u = true ∧ isUuidUnits i = true then some ⟨u, i⟩
      else none
    | _, _, _ => none
  | _ => none

/-- `decodeConversationCursor`; `number` reads the numerals of JSON. -/
def decodeConversationCursor (number : List Char → Option JsonNumber) (raw : JsString) :
    Option ConversationListCursor :=
  if raw.length = 0 ∨ maxCursorLen < raw.length then none
  else
    let bytes := bufferFromBase64url raw
    (jsonParse number (bufferToUtf8 bytes.length bytes)).bind cursorOfPayload

/-- **Only positions.** What the decoder returns is a text that the store can print and a uuid. -/
theorem decodeConversationCursor_sound {number : List Char → Option JsonNumber} {raw : JsString}
    {cursor : ConversationListCursor} (h : decodeConversationCursor number raw = some cursor) :
    (∃ t : StoreTimestamp, cursor.updatedAt = t.text) ∧ isUuidUnits cursor.id = true := by
  unfold decodeConversationCursor at h
  split at h
  · cases h
  · obtain ⟨parsed, -, hpayload⟩ := Option.bind_eq_some_iff.mp h
    unfold cursorOfPayload at hpayload
    split at hpayload
    · split at hpayload
      · split at hpayload
        · rename_i hvalid
          obtain rfl := Option.some.inj hpayload
          exact ⟨isStoreEmittableTimestamptz_iff.mp hvalid.2.1, hvalid.2.2⟩
        · cases hpayload
      · cases hpayload
    · cases hpayload

/-- Units that JSON writes as they are. -/
def PlainUnits (s : JsString) : Prop :=
  ∀ u ∈ s, 0x20 ≤ u.toNat ∧ u.toNat < 0x80 ∧ u.toNat ≠ 0x22 ∧ u.toNat ≠ 0x5C

/-- A plain unit is not escaped. -/
lemma quoteUnits_cons_plain {u : UInt16} (s : JsString)
    (hu : 0x20 ≤ u.toNat ∧ u.toNat < 0x80 ∧ u.toNat ≠ 0x22 ∧ u.toNat ≠ 0x5C) :
    quoteUnits (u :: s) = Char.ofNat u.toNat :: quoteUnits s := by
  have hhigh : isHighSurrogate u = false := by
    simp [isHighSurrogate]
    omega
  have hlow : isLowSurrogate u = false := by
    simp [isLowSurrogate]
    omega
  have hquote : quoteUnit u = [Char.ofNat u.toNat] := by
    unfold quoteUnit
    split <;> first | omega | skip
    rw [if_neg (by omega)]
  cases s with
  | nil => simp [quoteUnits, hhigh, hlow, hquote]
  | cons v s => simp [quoteUnits, hhigh, hlow, hquote]

/-- Plain units are not escaped. -/
lemma quoteUnits_plain {s : JsString} (hs : PlainUnits s) :
    quoteUnits s = s.map fun u => Char.ofNat u.toNat := by
  induction s with
  | nil => rfl
  | cons u s ih =>
    obtain ⟨hu, hs⟩ := List.forall_mem_cons.mp hs
    rw [quoteUnits_cons_plain s hu, ih hs, List.map_cons]

/-- The text of a payload. -/
lemma length_jsonStringify_cursorPayload {cursor : ConversationListCursor}
    (hu : PlainUnits cursor.updatedAt) (hi : PlainUnits cursor.id) :
    (jsonStringify (cursorPayload cursor)).length =
      cursor.updatedAt.length + cursor.id.length + 21 := by
  have hv : (quoteString (jsString "v")).length = 3 := by decide
  have hukey : (quoteString (jsString "u")).length = 3 := by decide
  have hikey : (quoteString (jsString "i")).length = 3 := by decide
  have hone : (jsonStringify (.int 1)).length = 1 := by decide
  have htext : ∀ s : JsString, PlainUnits s → (jsonStringify (.str s)).length = s.length + 2 := by
    intro s hs
    rw [jsonStringify, quoteString, quoteUnits_plain hs]
    simp
  rw [cursorPayload, jsonStringify, JsonValue.jsonStringifyProps_eq]
  simp only [List.map_cons, List.map_nil, joinComma_cons_cons, joinComma_singleton, List.length_append,
    List.length_cons, List.length_nil, hv, hukey, hikey, hone, htext _ hu, htext _ hi]
  omega

/-- Digits are plain. -/
lemma plainUnits_digits {s : JsString} (hs : ∀ u ∈ s, isDigitUnit u = true) : PlainUnits s := by
  intro u hu
  have h := hs u hu
  rw [isDigitUnit, Bool.and_eq_true, decide_eq_true_iff, decide_eq_true_iff] at h
  omega

lemma plainUnits_append {s s' : JsString} : PlainUnits (s ++ s') ↔ PlainUnits s ∧ PlainUnits s' :=
  List.forall_mem_append

lemma plainUnits_cons {u : UInt16} {s : JsString} : PlainUnits (u :: s) ↔
    (0x20 ≤ u.toNat ∧ u.toNat < 0x80 ∧ u.toNat ≠ 0x22 ∧ u.toNat ≠ 0x5C) ∧ PlainUnits s :=
  List.forall_mem_cons

/-- The text of a timestamp is plain and short. -/
lemma StoreTimestamp.text_plain (t : StoreTimestamp) :
    PlainUnits t.text ∧ t.text.length ≤ 35 := by
  have hfixed : ∀ n v, PlainUnits (fixedDigits n v) := fun n v =>
    plainUnits_digits (fixedDigits_digits n v)
  have hfraction : PlainUnits (fractionText t.fraction) ∧ (fractionText t.fraction).length ≤ 7 := by
    unfold fractionText
    split
    · exact ⟨List.forall_mem_nil _, by decide⟩
    · refine ⟨plainUnits_cons.mpr ⟨by decide, plainUnits_digits t.fraction_digits⟩, ?_⟩
      rw [List.length_cons]
      exact Nat.succ_le_succ t.fraction_length
  have htail : PlainUnits (offsetTailText t.offsetTail) ∧
      (offsetTailText t.offsetTail).length ≤ 6 := by
    rcases t.offsetTail with _ | ⟨minutes, _ | seconds⟩
    · exact ⟨List.forall_mem_nil _, by decide⟩
    · refine ⟨plainUnits_cons.mpr ⟨by decide, hfixed _ _⟩, ?_⟩
      simp [offsetTailText]
    · refine ⟨plainUnits_cons.mpr ⟨by decide, plainUnits_append.mpr ⟨hfixed _ _,
        plainUnits_cons.mpr ⟨by decide, hfixed _ _⟩⟩⟩, ?_⟩
      simp [offsetTailText]
  have hsign : PlainUnits [asciiUnit (if t.west then '-' else '+')] := by
    cases t.west <;> exact plainUnits_cons.mpr ⟨by decide, List.forall_mem_nil _⟩
  constructor
  · have hminus : PlainUnits [asciiUnit '-'] := plainUnits_cons.mpr ⟨by decide, List.forall_mem_nil _⟩
    have hspace : PlainUnits [asciiUnit ' '] := plainUnits_cons.mpr ⟨by decide, List.forall_mem_nil _⟩
    have hcolon : PlainUnits [asciiUnit ':'] := plainUnits_cons.mpr ⟨by decide, List.forall_mem_nil _⟩
    simp only [TimestamptzGroups.text, plainUnits_append, plainUnits_cons] at hminus hspace hcolon hsign ⊢
    exact ⟨hfixed _ _, hminus.1, hfixed _ _, hminus.1, hfixed _ _, hspace.1, hfixed _ _, hcolon.1,
      hfixed _ _, hcolon.1, hfixed _ _, hfraction.1, hsign.1, hfixed _ _, htail.1⟩
  · have h₁ := hfraction.2
    have h₂ := htail.2
    simp only [TimestamptzGroups.text, List.length_append, List.length_cons, length_fixedDigits]
    omega

/-- The character of a unit, if it is not NUL. -/
lemma toNat_of_charOfNat {u : UInt16} (h : (Char.ofNat u.toNat).toNat ≠ 0) :
    (Char.ofNat u.toNat).toNat = u.toNat := by
  by_cases hvalid : u.toNat.isValidChar
  · rw [Char.ofNat, dif_pos hvalid]
    rfl
  · rw [Char.ofNat, dif_neg hvalid] at h
    exact absurd rfl h

/-- The code points of hexadecimal digits. -/
lemma toNat_of_hexValue {c : Char} (h : (hexValue c).isSome = true) :
    45 ≤ c.toNat ∧ c.toNat ≤ 102 ∧ c.toNat ≠ 92 := by
  have hle : ∀ d : Char, d ≤ c ↔ d.toNat ≤ c.toNat := fun _ => Iff.rfl
  have hge : ∀ d : Char, c ≤ d ↔ c.toNat ≤ d.toNat := fun _ => Iff.rfl
  simp only [hexValue, hle, hge, Char.reduceToNat] at h
  split_ifs at h
  · omega
  · omega
  · omega
  · cases h

/-- A uuid is plain and has 36 units. -/
lemma plainUnits_uuid {s : JsString} (hs : isUuidUnits s = true) :
    PlainUnits s ∧ s.length = 36 := by
  simp only [isUuidUnits, isUuid, unitsText, String.toList_ofList, Bool.and_eq_true,
    decide_eq_true_iff, List.length_map, List.all_eq_true] at hs
  obtain ⟨hlength, hchars⟩ := hs
  refine ⟨fun u hu => ?_, hlength⟩
  obtain ⟨i, hi, rfl⟩ := List.getElem_of_mem hu
  have hmem : (Char.ofNat s[i].toNat, i) ∈ (s.map fun u => Char.ofNat u.toNat).zipIdx := by
    rw [List.mem_zipIdx_iff_getElem?]
    simp [hi]
  have hbound : 45 ≤ (Char.ofNat s[i].toNat).toNat ∧ (Char.ofNat s[i].toNat).toNat ≤ 102 ∧
      (Char.ofNat s[i].toNat).toNat ≠ 92 := by
    have hchar := hchars _ hmem
    split at hchar
    · have hhyphen : Char.ofNat s[i].toNat = '-' := of_decide_eq_true hchar
      rw [hhyphen]
      decide
    · exact toNat_of_hexValue hchar
  rw [toNat_of_charOfNat (by omega)] at hbound
  omega

/-- A character has one to four bytes. -/
lemma length_utf8Bytes (text : List Char) :
    text.length ≤ (utf8Bytes text).length ∧ (utf8Bytes text).length ≤ 4 * text.length := by
  induction text with
  | nil => exact ⟨le_rfl, le_rfl⟩
  | cons c text ih =>
    have hpos := c.utf8Size_pos
    have hle := c.utf8Size_le_four
    have hlength : (utf8Bytes (c :: text)).length = c.utf8Size + (utf8Bytes text).length := by
      rw [utf8Bytes, List.flatMap_cons, List.length_append, String.length_utf8EncodeChar]
      rfl
    rw [hlength, List.length_cons]
    omega

/-- The payload of a cursor is read back. -/
lemma jsonParse_cursorPayload {number : List Char → Option JsonNumber}
    (hone : number ['1'] = some ⟨.int 1, by decide⟩) (cursor : ConversationListCursor) :
    jsonParse number (jsonStringify (cursorPayload cursor)) = some (cursorPayload cursor) := by
  have hnumbers : (cursorPayload cursor).AllNumbers fun x => number (numberText x.1) = some x := by
    refine ⟨?_, trivial, trivial, trivial⟩
    exact hone
  rw [jsonParse_jsonStringify hnumbers]
  rfl

/-- **The round trip.** A cursor of a text that the store can print and of a uuid is read back. -/
theorem decode_encodeConversationCursor {number : List Char → Option JsonNumber}
    (hone : number ['1'] = some ⟨.int 1, by decide⟩) (t : StoreTimestamp) {id : JsString}
    (hid : isUuidUnits id = true) :
    decodeConversationCursor number (encodeConversationCursor ⟨t.text, id⟩) = some ⟨t.text, id⟩ := by
  obtain ⟨hplain, htext⟩ := t.text_plain
  obtain ⟨hplainId, hidLength⟩ := plainUnits_uuid hid
  have hemit : isStoreEmittableTimestamptz t.text = true :=
    isStoreEmittableTimestamptz_iff.mpr ⟨t, rfl⟩
  have hparse := jsonParse_cursorPayload hone ⟨t.text, id⟩
  have hjson : (jsonStringify (cursorPayload ⟨t.text, id⟩)).length =
      t.text.length + id.length + 21 := length_jsonStringify_cursorPayload hplain hplainId
  rw [decodeConversationCursor, encodeConversationCursor]
  generalize jsonStringify (cursorPayload ⟨t.text, id⟩) = text at hparse hjson
  obtain ⟨hchars, hbytes⟩ := length_utf8Bytes text
  obtain ⟨hshort, hlong⟩ := length_sextets (utf8Bytes text)
  have hlength : (toBase64url (utf8Bytes text)).length = (sextets (utf8Bytes text)).length :=
    List.length_map _
  rw [if_neg (by rw [hlength, maxCursorLen]; omega), bufferFromBase64url_toBase64url]
  dsimp only
  rw [bufferToUtf8_utf8Bytes text hchars, hparse, Option.bind_some]
  exact if_pos ⟨rfl, hemit, hid⟩

end GovAI
