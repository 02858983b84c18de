import GovAI.Conversation.Schema
import GovAI.Paging.ConversationCursor
import GovAI.Paging.ListedRows
import Mathlib.Data.PNat.Basic

/-!
# The conversation list

`listConversations` of `store.ts` and of `service.ts`.  The store reads one row more than the page
holds, so that a cursor is given exactly if a further row exists, and it compares the column with the
text of the cursor, which has all its microseconds.  A client reads every conversation of its owner
exactly once (`conversation_list_exact`).
-/

namespace GovAI

/-! ## Timestamps -/

/-- The microseconds from the epoch that a text of a timestamp stands for. -/
def TimestamptzGroups.micros (g : TimestamptzGroups) : ℤ :=
  let offset : ℤ := g.offsetHour * 3600 + (g.offsetTail.elim 0 (·.1)) * 60 +
    (g.offsetTail.bind (·.2)).getD 0
  (Gregorian.dayNumber g.year g.month g.day * 86400 + g.hour * 3600 + g.minute * 60 + g.second -
      (if g.west then -offset else offset)) * 1000000 +
    decimalValue g.fraction * 10 ^ (6 - g.fraction.length)

/-- `$n::timestamptz` for a text that the store prints. -/
def timestamptzIn (text : JsString) : Option ℤ := (execTimestamptz text).map TimestamptzGroups.micros

example : timestamptzIn (jsString "2026-08-25 19:49:46.123456+00") = some 1787687386123456 ∧
    timestamptzIn (jsString "1970-01-01 02:30:00-03:06:28") = some 20188000000 := by
  decide +kernel

/-! ## The store -/

/-- A row of `ai_conversations`, as far as the list reads it, with `updated_at::text`. -/
structure ListedConversation where
  id : Uuid
  orgId : Uuid
  ownerUserId : Uuid
  status : ConversationStatus
  updatedAtKey : StoreTimestamp

instance : ListedRow ListedConversation where
  listedAt r := r.updatedAtKey.micros
  id := ListedConversation.id

/-- The input of the list; the status is `active` or `archived`. -/
structure ListConversationsInput where
  status : ConversationStatus := .active
  limit : ℕ+ := 25
  cursor : Option JsString := none

/-- `WHERE org_id = $1 AND owner_user_id = $2 AND status = $3`. -/
def ListedConversation.selected (scope : OwnerScope) (status : ConversationStatus)
    (r : ListedConversation) : Bool :=
  r.orgId = scope.orgId ∧ r.ownerUserId = scope.ownerUserId ∧ r.status = status

/-- The values of the cursor in the query; a text that PostgreSQL cannot cast is its exception. -/
def bindCursor : Option ConversationListCursor → Except String (Option (ℤ × Uuid))
  | none => .ok none
  | some cursor =>
    match timestamptzIn cursor.updatedAt, uuidIn (unitsText cursor.id) with
    | some updatedAt, some id => .ok (some (updatedAt, id))
    | _, _ => .error "22007"

/-- `(updated_at, id) < ($ts, $id)`. -/
def KeysetBefore (p : ℤ × Uuid) (r : ListedConversation) : Prop :=
  ListedRow.listedAt r < p.1 ∨ ListedRow.listedAt r = p.1 ∧ r.id < p.2

instance (p : ℤ × Uuid) (r : ListedConversation) : Decidable (KeysetBefore p r) :=
  inferInstanceAs (Decidable (_ ∨ _))

/-- `listConversations` of `store.ts`: the rows of a page, and whether there are more. -/
def storeListConversations (table : ListedTable ListedConversation) (scope : OwnerScope)
    (status : ConversationStatus) (limit : ℕ+) (cursor : Option ConversationListCursor) :
    Except String (List ListedConversation × Bool) := do
  let keyset ← bindCursor cursor
  let rows := ((table.rows.filter fun r => ListedConversation.selected scope status r ∧
    ∀ p ∈ keyset, KeysetBefore p r).insertionSort (listKey · ≤ listKey ·)).take (limit + 1)
  let hasMore := (limit : ℕ) < rows.length
  return (if hasMore then rows.take limit else rows, hasMore)

/-! ## The service -/

/-- The cursor of a row. -/
def ListedConversation.cursorText (r : ListedConversation) : JsString :=
  encodeConversationCursor ⟨r.updatedAtKey.text, jsString r.id.toText⟩

/-- The cursor of a request. -/
def decodeInputCursor (number : List Char → Option JsonNumber) :
    Option JsString → Except String (Option ConversationListCursor)
  | none => .ok none
  | some raw =>
    match decodeConversationCursor number raw with
    | none => .error "invalid_cursor"
    | some cursor => .ok (some cursor)

/-- `listConversations` of `service.ts`: `conversations` and `next_cursor`. -/
def listConversations (number : List Char → Option JsonNumber)
    (table : ListedTable ListedConversation) (scope : OwnerScope) (input : ListConversationsInput) :
    Except String (List ListedConversation × Option JsString) := do
  let cursor ← decodeInputCursor number input.cursor
  let (rows, hasMore) ← storeListConversations table scope input.status input.limit cursor
  let nextCursor := if hasMore then rows.getLast?.map ListedConversation.cursorText else none
  return (rows, nextCursor)

/-! ## The pages of a client -/

/-- The characters of the text of a uuid. -/
lemma toText_chars (u : Uuid) : ∀ c ∈ u.toText.toList, c.toNat < 0x80 := by
  have hhex : ∀ k < 16, (hexDigit k).toNat < 0x80 := by decide
  have hdigits : ∀ hi lo, ∀ c ∈ u.digits hi lo, c.toNat < 0x80 := by
    intro hi lo c hc
    obtain ⟨i, -, rfl⟩ := List.mem_map.mp hc
    exact hhex _ (Nat.mod_lt _ (by decide))
  simp only [Uuid.toText, String.toList_ofList, List.forall_mem_append, List.forall_mem_cons]
  exact ⟨⟨⟨⟨hdigits _ _, by decide, hdigits _ _⟩, by decide, hdigits _ _⟩, by decide, hdigits _ _⟩,
    by decide, hdigits _ _⟩

/-- The text of a uuid is read back from its code units. -/
lemma unitsText_toText (u : Uuid) : unitsText (jsString u.toText) = u.toText := by
  have hchar : ∀ c : Char, c.toNat < 0x80 →
      (utf16Units c).map (fun u => Char.ofNat u.toNat) = [c] := by
    intro c hc
    have hunit : (UInt16.ofNat c.toNat).toNat = c.toNat :=
      UInt16.toNat_ofNat_of_lt' (by change c.toNat < 65536; omega)
    rw [utf16Units, if_pos (by omega), List.map_singleton, hunit, Char.ofNat_toNat]
  have hchars : ∀ cs : List Char, (∀ c ∈ cs, c.toNat < 0x80) →
      (cs.flatMap utf16Units).map (fun u => Char.ofNat u.toNat) = cs := by
    intro cs hcs
    induction cs with
    | nil => rfl
    | cons c cs ih =>
      obtain ⟨hc, hcs⟩ := List.forall_mem_cons.mp hcs
      rw [List.flatMap_cons, List.map_append, hchar c hc, ih hcs, List.singleton_append]
  rw [unitsText, jsString, hchars _ (toText_chars u), String.ofList_toList]

/-- The text of a uuid passes the test. -/
lemma isUuidUnits_toText (u : Uuid) : isUuidUnits (jsString u.toText) = true := by
  have hhex : ∀ k < 16, (hexValue (hexDigit k)).isSome = true := by decide
  have hdigit : ∀ n, (hexValue (hexDigit (n % 16))).isSome = true :=
    fun n => hhex _ (Nat.mod_lt _ (by decide))
  rw [isUuidUnits, unitsText_toText, isUuid]
  simp [Uuid.toText, Uuid.digits, List.range', hdigit]

/-- The place of a cursor in the list. -/
def keysetKey (p : ℤ × Uuid) : (ℤ ×ₗ ℕ)ᵒᵈ := OrderDual.toDual (toLex (p.1, p.2.toNat))

lemma keysetKey_lt_iff {p : ℤ × Uuid} {r : ListedConversation} :
    keysetKey p < listKey r ↔ KeysetBefore p r := by
  rw [keysetKey, listKey, OrderDual.toDual_lt_toDual, Prod.Lex.toLex_lt_toLex]
  rfl

/-- The rows that the list of an owner has after a place. -/
def conversationsAfter (table : ListedTable ListedConversation) (scope : OwnerScope)
    (status : ConversationStatus) (keyset : Option (ℤ × Uuid)) : List ListedConversation :=
  rowsAfter listKey (table.inOrder (ListedConversation.selected scope status)) (keyset.map keysetKey)

/-- The store returns the first rows after the cursor, and whether there are more. -/
lemma storeListConversations_eq {table : ListedTable ListedConversation} {scope : OwnerScope}
    {status : ConversationStatus} {limit : ℕ+} {cursor : Option ConversationListCursor}
    {keyset : Option (ℤ × Uuid)} (h : bindCursor cursor = .ok keyset) :
    storeListConversations table scope status limit cursor =
      .ok ((conversationsAfter table scope status keyset).take limit,
        (limit : ℕ) < (conversationsAfter table scope status keyset).length) := by
  have hafter : ∀ r : ListedConversation, (∀ p ∈ keyset, KeysetBefore p r) ↔
      ∀ k ∈ keyset.map keysetKey, k < listKey r := by
    intro r
    cases keyset with
    | none => simp
    | some p => simp [keysetKey_lt_iff]
  have hsort := table.sort_filter_eq (ListedConversation.selected scope status) hafter
  rw [storeListConversations, h]
  change Except.ok _ = _
  rw [hsort]
  rw [← conversationsAfter]
  generalize conversationsAfter table scope status keyset = rows
  have hmore : (limit : ℕ) < (rows.take (limit + 1)).length ↔ (limit : ℕ) < rows.length := by
    rw [List.length_take]
    omega
  simp only [hmore]
  by_cases hlong : (limit : ℕ) < rows.length
  · rw [if_pos (by simpa using hlong), List.take_take, Nat.min_eq_left (Nat.le_succ _)]
  · rw [if_neg (by simpa using hlong), List.take_of_length_le (by omega),
      List.take_of_length_le (by omega)]

/-- The place that the cursor of a request stands for. -/
def cursorPlace (number : List Char → Option JsonNumber) (raw : JsString) : (ℤ ×ₗ ℕ)ᵒᵈ :=
  match decodeInputCursor number (some raw) >>= bindCursor with
  | .ok (some p) => keysetKey p
  | _ => keysetKey (0, 0)

/-- The cursor of a row is read back, and the query compares with the columns of the row. -/
lemma bindCursor_cursorText {number : List Char → Option JsonNumber}
    (hone : number ['1'] = some ⟨.int 1, by decide⟩) (r : ListedConversation) :
    ∃ cursor, decodeInputCursor number (some r.cursorText) = .ok (some cursor) ∧
      bindCursor (some cursor) = .ok (some (ListedRow.listedAt r, r.id)) := by
  have hdecode := decode_encodeConversationCursor hone r.updatedAtKey (isUuidUnits_toText r.id)
  obtain ⟨hfits, -⟩ := r.updatedAtKey.toTimestamptzGroups.inRange_iff.mpr ⟨r.updatedAtKey, rfl⟩
  have htext : timestamptzIn r.updatedAtKey.text = some (ListedRow.listedAt r) := by
    rw [timestamptzIn, execTimestamptz_eq_some_iff.mpr ⟨hfits, rfl⟩]
    rfl
  refine ⟨⟨r.updatedAtKey.text, jsString r.id.toText⟩, ?_, ?_⟩
  · rw [decodeInputCursor, ListedConversation.cursorText, hdecode]
  · rw [bindCursor, htext, unitsText_toText, uuidIn_toText]

/-- The cursor of a row stands for the place of the row. -/
lemma cursorPlace_cursorText {number : List Char → Option JsonNumber}
    (hone : number ['1'] = some ⟨.int 1, by decide⟩) (r : ListedConversation) :
    cursorPlace number r.cursorText = listKey r := by
  obtain ⟨cursor, hdecode, hbind⟩ := bindCursor_cursorText hone r
  have hplace : (decodeInputCursor number (some r.cursorText) >>= bindCursor) =
      .ok (some (ListedRow.listedAt r, r.id)) := by
    rw [hdecode]
    exact hbind
  rw [cursorPlace, hplace]
  rfl

/-- The requests of a client for a list. -/
def requestConversations (number : List Char → Option JsonNumber)
    (table : ListedTable ListedConversation) (scope : OwnerScope) (status : ConversationStatus)
    (limit : ℕ+) (cursor : Option JsString) : Option (List ListedConversation × Option JsString) :=
  (listConversations number table scope ⟨status, limit, cursor⟩).toOption

section Requests

variable {number : List Char → Option JsonNumber} {table : ListedTable ListedConversation}
  {scope : OwnerScope} {status : ConversationStatus} {limit : ℕ+}

/-- An answer holds the first rows after the cursor, and a cursor exactly if there are more. -/
lemma requestConversations_of_bind {raw : Option JsString}
    {cursor : Option ConversationListCursor} {keyset : Option (ℤ × Uuid)}
    (hdecode : decodeInputCursor number raw = .ok cursor) (hbind : bindCursor cursor = .ok keyset) :
    requestConversations number table scope status limit raw =
      some ((conversationsAfter table scope status keyset).take limit,
        if (limit : ℕ) < (conversationsAfter table scope status keyset).length then
          ((conversationsAfter table scope status keyset).take limit).getLast?.map
            ListedConversation.cursorText
        else none) := by
  rw [requestConversations, listConversations, hdecode]
  change (storeListConversations table scope status limit cursor >>= _).toOption = _
  rw [storeListConversations_eq hbind]
  change some _ = _
  simp

/-- An accepted request names a place of the list. -/
lemma exists_keyset {raw : Option JsString} {answer : List ListedConversation × Option JsString}
    (h : requestConversations number table scope status limit raw = some answer) :
    ∃ cursor keyset, decodeInputCursor number raw = .ok cursor ∧ bindCursor cursor = .ok keyset ∧
      keyset.map keysetKey = raw.map (cursorPlace number) := by
  cases hdecode : decodeInputCursor number raw with
  | error e =>
    rw [requestConversations, listConversations, hdecode] at h
    cases h
  | ok cursor =>
    cases hbind : bindCursor cursor with
    | error e =>
      have hstore : storeListConversations table scope status limit cursor = .error e := by
        rw [storeListConversations, hbind]
        rfl
      rw [requestConversations, listConversations, hdecode] at h
      change (storeListConversations table scope status limit cursor >>= _).toOption = _ at h
      rw [hstore] at h
      cases h
    | ok keyset =>
      refine ⟨cursor, keyset, rfl, hbind, ?_⟩
      cases raw with
      | none =>
        obtain rfl := Except.ok.inj hdecode
        obtain rfl := Except.ok.inj hbind
        rfl
      | some raw =>
        have hplace : (decodeInputCursor number (some raw) >>= bindCursor) = .ok keyset := by
          rw [hdecode]
          exact hbind
        rw [decodeInputCursor] at hdecode
        split at hdecode
        · cases hdecode
        · obtain rfl := Except.ok.inj hdecode
          rw [bindCursor] at hbind
          split at hbind
          · obtain rfl := Except.ok.inj hbind
            rw [Option.map_some, Option.map_some, cursorPlace, hplace]
          · cases hbind

/-- An answer without a cursor is that of the last page, however full the page is. -/
lemma requestConversations_ends {raw : Option JsString}
    {answer : List ListedConversation × Option JsString}
    (h : requestConversations number table scope status limit raw = some answer) :
    answer.2 = none ↔ (rowsAfter listKey (table.inOrder (ListedConversation.selected scope status))
      (raw.map (cursorPlace number))).length ≤ limit := by
  obtain ⟨cursor, keyset, hdecode, hbind, hplace⟩ := exists_keyset h
  rw [requestConversations_of_bind hdecode hbind] at h
  obtain rfl := Option.some.inj h
  rw [← hplace, ← conversationsAfter]
  generalize conversationsAfter table scope status keyset = rows
  have hpos := limit.pos
  by_cases hlong : (limit : ℕ) < rows.length
  · rw [if_pos hlong]
    refine iff_of_false ?_ (not_le.mpr hlong)
    rw [Option.map_eq_none_iff, List.getLast?_eq_none_iff, List.take_eq_nil_iff]
    rintro (h | rfl)
    · omega
    · cases hlong
  · rw [if_neg hlong]
    exact iff_of_true rfl (not_lt.mp hlong)

/-- The answer to the cursor of a row. -/
lemma requestConversations_isAnswer (hone : number ['1'] = some ⟨.int 1, by decide⟩)
    (raw : Option JsString) (hraw : ∀ c ∈ raw, ∃ r : ListedConversation, c = r.cursorText) :
    ∃ answer, requestConversations number table scope status limit raw = some answer ∧
      IsAnswer ListedConversation.cursorText limit
        (rowsAfter listKey (table.inOrder (ListedConversation.selected scope status))
          (raw.map (cursorPlace number))) answer := by
  have hbound : ∃ cursor keyset, decodeInputCursor number raw = .ok cursor ∧
      bindCursor cursor = .ok keyset := by
    cases raw with
    | none => exact ⟨none, none, rfl, rfl⟩
    | some c =>
      obtain ⟨r, rfl⟩ := hraw c rfl
      obtain ⟨cursor, hdecode, hbind⟩ := bindCursor_cursorText hone r
      exact ⟨_, _, hdecode, hbind⟩
  obtain ⟨cursor, keyset, hdecode, hbind⟩ := hbound
  have hanswer : requestConversations number table scope status limit raw = some _ :=
    requestConversations_of_bind hdecode hbind
  obtain ⟨_, _, hdecode', hbind', hplace⟩ := exists_keyset hanswer
  obtain rfl := Except.ok.inj (hdecode.symm.trans hdecode')
  obtain rfl := Except.ok.inj (hbind.symm.trans hbind')
  refine ⟨_, hanswer, ?_⟩
  rw [← hplace, ← conversationsAfter]
  generalize conversationsAfter table scope status keyset = rows
  have hpos := limit.pos
  constructor
  · rfl
  · intro hnone
    by_contra hlong
    rw [if_pos (by omega), Option.map_eq_none_iff, List.getLast?_eq_none_iff,
      List.take_eq_nil_iff] at hnone
    rcases hnone with h | rfl
    · omega
    · exact hlong (Nat.zero_le _)
  · intro c hc
    dsimp only at hc
    split at hc
    · rename_i hlong
      exact ⟨hlong.le, hc⟩
    · cases hc

end Requests

/-- **The conversation list.** Every cursor of a text that the store can print and of a uuid is read
back; the decoder returns nothing else; and a client that follows `next_cursor` reads every
conversation of the owner with the status exactly once, the newest first, with a last request that
returns the last row. -/
theorem conversation_list_exact {number : List Char → Option JsonNumber}
    (hone : number ['1'] = some ⟨.int 1, by decide⟩) :
    (∀ (t : StoreTimestamp) (id : JsString), isUuidUnits id = true →
      decodeConversationCursor number (encodeConversationCursor ⟨t.text, id⟩) =
        some ⟨t.text, id⟩) ∧
    (∀ raw cursor, decodeConversationCursor number raw = some cursor →
      (∃ t : StoreTimestamp, cursor.updatedAt = t.text) ∧ isUuidUnits cursor.id = true) ∧
    ∀ (table : ListedTable ListedConversation) (scope : OwnerScope) (status : ConversationStatus)
      (limit : ℕ+), ∃ visited : List ListedConversation,
        visited.Perm (table.rows.filter (ListedConversation.selected scope status)) ∧
        visited.Pairwise NewerFirst ∧
        ∀ fuel, followPages (requestConversations number table scope status limit) fuel none =
          if fuel = 0 ∨ fuel * limit < visited.length then none else some visited := by
  refine ⟨fun t id hid => decode_encodeConversationCursor hone t hid,
    fun raw cursor h => decodeConversationCursor_sound h, fun table scope status limit => ?_⟩
  obtain ⟨hperm, hpairwise⟩ :=
    (table.eq_inOrder_iff (ListedConversation.selected scope status)).mpr rfl
  have hrequest : ∀ after : Option JsString,
      (∀ c ∈ after, ∃ r ∈ table.inOrder (ListedConversation.selected scope status),
        c = r.cursorText) → ∃ answer,
          requestConversations number table scope status limit after = some answer ∧
            IsAnswer ListedConversation.cursorText limit
              (rowsAfter listKey (table.inOrder (ListedConversation.selected scope status))
                (after.map (cursorPlace number))) answer := by
    intro after hafter
    refine requestConversations_isAnswer hone after fun c hc => ?_
    obtain ⟨r, -, hr⟩ := hafter c hc
    exact ⟨r, hr⟩
  refine ⟨_, hperm, hpairwise, fun fuel => ?_⟩
  exact followPages_eq hrequest (table.inOrder_pairwise _)
    (fun r _ => cursorPlace_cursorText hone r) (fun after answer h => requestConversations_ends h) fuel

/-- `2024-02-29 23:59:59.000001-03:06:28` -/
def sampleTimestamp : StoreTimestamp where
  year := 2024
  month := 2
  day := 29
  hour := 23
  minute := 59
  second := 59
  fraction := fixedDigits 6 1
  west := true
  offsetHour := 3
  offsetTail := some (6, some 28)
  date := ⟨by decide, by decide, by decide, by decide, by decide⟩
  year_le := by decide
  hour_lt := by decide
  minute_lt := by decide
  second_lt := by decide
  fraction_digits := fixedDigits_digits 6 1
  fraction_length := by decide
  offsetHour_lt := by decide
  offsetMinute_lt := by decide
  offsetSecond_lt := by decide

/-- A conversation that was updated at that time. -/
def sampleConversation (id ownerUserId : Uuid) : ListedConversation :=
  ⟨id, 1, ownerUserId, .active, sampleTimestamp⟩

/-- Two conversations of one owner, and one of another. -/
def sampleConversations : ListedTable ListedConversation where
  rows := [sampleConversation 7 2, sampleConversation 8 3, sampleConversation 9 2]
  ids_nodup := by decide +kernel

/-- The cursor of a leap day with an offset to the second is read back, and two pages of one row give
the two conversations of an owner, which have the same time. -/
theorem conversation_list_exact_sample :
    sampleTimestamp.text = jsString "2024-02-29 23:59:59.000001-03:06:28" ∧
      decodeConversationCursor exactNumber
          (encodeConversationCursor ⟨sampleTimestamp.text, jsString (7 : Uuid).toText⟩) =
        some ⟨sampleTimestamp.text, jsString (7 : Uuid).toText⟩ ∧
      followPages (requestConversations exactNumber sampleConversations ⟨1, 2⟩ .active 1) 2 none =
        some [sampleConversation 9 2, sampleConversation 7 2] := by
  have hone : exactNumber ['1'] = some ⟨.int 1, by decide⟩ :=
    exactNumber_numberText ⟨.int 1, by decide⟩
  obtain ⟨hread, -, hpages⟩ := conversation_list_exact hone
  refine ⟨by decide +kernel, hread sampleTimestamp _ (isUuidUnits_toText 7), ?_⟩
  obtain ⟨visited, hperm, hpairwise, hfollow⟩ := hpages sampleConversations ⟨1, 2⟩ .active 1
  have hrows : sampleConversations.rows.filter (ListedConversation.selected ⟨1, 2⟩ .active) =
      [sampleConversation 7 2, sampleConversation 9 2] := rfl
  have hnewer : NewerFirst (sampleConversation 9 2) (sampleConversation 7 2) :=
    .inr ⟨rfl, by decide +kernel⟩
  have hvisited : visited = [sampleConversation 9 2, sampleConversation 7 2] := by
    rw [(ListedTable.eq_inOrder_iff _ _).mp ⟨hperm, hpairwise⟩]
    exact ((ListedTable.eq_inOrder_iff _ _).mp
      ⟨hrows ▸ List.Perm.swap _ _ _, List.pairwise_pair.mpr hnewer⟩).symm
  subst hvisited
  exact (hfollow 2).trans (if_neg (by decide))

end GovAI
