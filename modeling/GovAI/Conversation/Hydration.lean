import GovAI.Conversation.DurableContext
import GovAI.Json.Parse
import GovAI.Library.Base64
import GovAI.Library.Fallible
import GovAI.Library.SortedClasses
import GovAI.Library.WorkerPool

/-!
# Hydration

The read of a page of turns in `turn-service.ts`: phase A reads the turns with their attempts and
items, phase B decrypts the items in a bounded pool of workers and projects each of them to a text, to
bytes in base64, or to the JSON value it encodes.  The projection determines the stored bytes exactly if
no item is text that begins with a byte order mark (`hydration_exact_iff`).
-/

namespace GovAI

attribute [local instance] lawfulBEq_uuid

/-! ## Decoding -/

/-- The text that bytes are the UTF-8 encoding of. -/
def utf8Decode (bytes : Bytes) : Option (List Char) :=
  bytes.toByteArray.utf8Decode?.map Array.toList

/-- A byte order mark at the start of a text is dropped. -/
def dropMark : List Char → List Char
  | '\ufeff' :: text => text
  | text => text

/-- `new TextDecoder('utf-8', { fatal: true }).decode(bytes)`. -/
def textDecode (bytes : Bytes) : Option (List Char) := (utf8Decode bytes).map dropMark

/-! ## Projections -/

/-- `ConversationItemProjection`. -/
structure ConversationItemProjection where
  itemSeq : ℕ
  itemType : ConversationItemType
  native : JsonValue
  text : Option (List Char)
  bytesBase64 : Option (List Char)
  contentUnreadable : Bool

/-- `ConversationAttemptProjection`; times in milliseconds. -/
structure ConversationAttemptProjection where
  id : Uuid
  attemptSeq : ℕ
  state : AttemptState
  isCurrent : Bool
  errorClass : Option AttemptErrorClass
  contextExcluded : Bool
  govaiRequestId : Option Uuid
  createdAt : ℤ
  terminalAt : Option ℤ
  outputItems : List ConversationItemProjection

/-- `ConversationTurnProjection`. -/
structure ConversationTurnProjection where
  id : Uuid
  branchId : Uuid
  clientTurnId : Uuid
  turnSeq : ℕ
  currentAttemptId : Option Uuid
  inputItems : List ConversationItemProjection
  attempts : List ConversationAttemptProjection

/-! ## Phase A -/

/-- `ORDER BY turn_id, attempt_seq ASC`. -/
def attemptKey (a : Keyed AttemptRow) : List ℕ := [a.2.turnId.toNat, a.2.attemptSeq]

/-- `listAttemptsForTurns`. -/
def listAttemptsForTurns (conv : Lineage) (turnIds : List Uuid) (db : ConvDb) :
    List (Keyed AttemptRow) :=
  ((db.attempts.entries.filter fun e => e.2.conv = conv ∧ e.2.turnId ∈ turnIds).map
    fun e => (e.1, e.2)).insertionSort fun a b => attemptKey a ≤ attemptKey b

/-- `listItemsForTurns`. -/
def listItemsForTurns (conv : Lineage) (turnIds : List Uuid) (db : ConvDb) : List ItemWithContent :=
  ((db.items.filter fun i => i.conv = conv ∧ i.turnId ∈ turnIds).filterMap fun i =>
    ((db.contents.lookup i.contentId).filter fun c => c.conv = conv).map fun c =>
      (⟨i.turnId, i.attemptId, i.itemSeq, i.itemType, ⟨c.toContentEnvelope, c.status⟩⟩ :
        ItemWithContent)).insertionSort fun i j => i.key ≤ j.key

/-- `TurnBundle`: rows, and nothing decrypted. -/
structure TurnBundle where
  turns : List (Keyed TurnRow)
  attempts : List (Keyed AttemptRow)
  items : List ItemWithContent

/-- `readTurnBundle`. -/
def readTurnBundle (conv : Lineage) (turnRows : List (Keyed TurnRow)) (db : ConvDb) : TurnBundle :=
  if turnRows = [] then ⟨[], [], []⟩
  else ⟨turnRows, listAttemptsForTurns conv (turnRows.map (·.1)) db,
    listItemsForTurns conv (turnRows.map (·.1)) db⟩

/-! ## Phase B -/

section PhaseB

variable (number : List Char → Option JsonNumber) (decrypt : EncryptedContentRef → Option Bytes)

/-- The projection of an item that is decrypted. -/
def projectPlaintext (row : ItemWithContent) (plaintext : Bytes) : ConversationItemProjection :=
  match textDecode plaintext with
  | none => ⟨row.itemSeq, row.itemType, .null, none, some (base64Encode plaintext), false⟩
  | some text =>
    if row.itemType = .nativeStreamChunk then
      ⟨row.itemSeq, row.itemType, .null, some text, none, false⟩
    else
      match jsonParse number text with
      | some native => ⟨row.itemSeq, row.itemType, native, none, none, false⟩
      | none => ⟨row.itemSeq, row.itemType, .null, some text, none, false⟩

/-- `projectItem`. -/
def projectItem (row : ItemWithContent) : Except String ConversationItemProjection :=
  if row.content.status ≠ .active ∨ row.content.dekWrapped = none then
    .ok ⟨row.itemSeq, row.itemType, .null, none, none, true⟩
  else
    match decrypt row.content with
    | none => .error "decrypt_failed"
    | some plaintext => .ok (projectPlaintext number row plaintext)

/-- `KMS_DECRYPT_CONCURRENCY`. -/
def kmsDecryptConcurrency : ℕ := 8

/-- A projected item with the turn and the attempt of its row. -/
structure OwnedItem where
  turnId : Uuid
  attemptId : Option Uuid
  item : ConversationItemProjection

/-- The call of the pool on a row. -/
def projectOwned (row : ItemWithContent) : Except String OwnedItem :=
  (projectItem number decrypt row).map fun item => ⟨row.turnId, row.attemptId, item⟩

/-- The projection of an attempt. -/
def projectAttempt (items : List OwnedItem) (turn : Keyed TurnRow) (a : Keyed AttemptRow) :
    ConversationAttemptProjection :=
  { id := a.1
    attemptSeq := a.2.attemptSeq
    state := a.2.state
    isCurrent := turn.2.currentAttemptId = some a.1
    errorClass := a.2.errorClass
    contextExcluded := a.2.contextExcluded
    govaiRequestId := a.2.govaiRequestId
    createdAt := a.2.createdAt / 1000
    terminalAt := a.2.terminalAt.map (· / 1000)
    outputItems :=
      (items.filter fun i => i.turnId = turn.1 ∧ i.attemptId = some a.1).map (·.item) }

/-- The projection of a turn. -/
def projectTurn (attempts : List (Keyed AttemptRow)) (items : List OwnedItem) (turn : Keyed TurnRow) :
    ConversationTurnProjection :=
  { id := turn.1
    branchId := turn.2.branchId
    clientTurnId := turn.2.clientTurnId
    turnSeq := turn.2.turnSeq
    currentAttemptId := turn.2.currentAttemptId
    inputItems := (items.filter fun i => i.turnId = turn.1 ∧ i.attemptId = none).map (·.item)
    attempts := (attempts.filter fun a => a.2.turnId = turn.1).map (projectAttempt items turn) }

/-- `projectTurnBundle`, where the decryptions end in the order of the schedule; `none` if the schedule
does not lead to the end. -/
def projectTurnBundle (bundle : TurnBundle) (schedule : List ℕ) :
    Option (Except String (List ConversationTurnProjection)) :=
  if bundle.turns = [] then some (.ok [])
  else
    (mapWithConcurrency bundle.items kmsDecryptConcurrency (projectOwned number decrypt)
      schedule).map fun result =>
        result.map fun items => bundle.turns.map (projectTurn bundle.attempts items)

end PhaseB

/-! ## What a projection determines -/

/-- The bytes that a text or a base64 field stands for. -/
def ConversationItemProjection.bytes (item : ConversationItemProjection) : Option Bytes :=
  match item.text, item.bytesBase64 with
  | some text, _ => some (utf8Bytes text)
  | none, some encoded => base64Decode encoded
  | none, none => none

/-- The item gives the stored bytes, or the JSON value that they encode. -/
def ConversationItemProjection.Exact (number : List Char → Option JsonNumber)
    (item : ConversationItemProjection) (stored : Bytes) : Prop :=
  item.bytes = some stored ∨
    (item.bytes = none ∧ item.contentUnreadable = false ∧
      ∃ text, utf8Bytes text = stored ∧ jsonParse number text = some item.native)

/-- The lists of items of a projection with the turn and the attempt that they are under. -/
def listings (turns : List ConversationTurnProjection) :
    List (Uuid × Option Uuid × List ConversationItemProjection) :=
  turns.flatMap fun t =>
    (t.id, none, t.inputItems) :: t.attempts.map fun a => (t.id, some a.id, a.outputItems)

/-- The stored bytes of the chunks of an owner, in the order of `item_seq`. -/
def storedChunks (bundle : TurnBundle) (stored : ItemWithContent → Bytes) (turnId : Uuid)
    (attemptId : Option Uuid) : Bytes :=
  ((bundle.items.filter fun r => r.turnId = turnId ∧ r.attemptId = attemptId ∧
    r.itemType = .nativeStreamChunk).insertionSort fun r r' => r.itemSeq ≤ r'.itemSeq).flatMap stored

/-- **Hydration is exact**: each row is projected once, under its own turn and attempt; the chunks of each
list, one after the other, are the stored bytes of the chunks in the order of `item_seq`; and each other
item gives its stored bytes or the JSON value that they encode. -/
structure HydratesExactly (number : List Char → Option JsonNumber) (bundle : TurnBundle)
    (stored : ItemWithContent → Bytes) (turns : List ConversationTurnProjection) : Prop where
  placed : ∃ itemOf : ItemWithContent → ConversationItemProjection,
    (∀ r ∈ bundle.items, (itemOf r).itemSeq = r.itemSeq ∧ (itemOf r).itemType = r.itemType ∧
      (r.itemType ≠ .nativeStreamChunk → (itemOf r).Exact number (stored r))) ∧
    ((listings turns).flatMap fun e => e.2.2.map fun item => (e.1, e.2.1, item)).Perm
      (bundle.items.map fun r => (r.turnId, r.attemptId, itemOf r))
  chunks : ∀ e ∈ listings turns,
    ((e.2.2.filter fun item : ConversationItemProjection =>
        item.itemType = .nativeStreamChunk).mapM ConversationItemProjection.bytes).map List.flatten =
      some (storedChunks bundle stored e.1 e.2.1)

/-- What the keys of the tables give a bundle: ids are unique, each item belongs to a turn of the bundle
and to no attempt or to an attempt of its turn, has its own number there, and the items are in the order
of the query. -/
structure TurnBundle.Lawful (bundle : TurnBundle) : Prop where
  turnIds : (bundle.turns.map (·.1)).Nodup
  attemptIds : (bundle.attempts.map (·.1)).Nodup
  itemTurn : ∀ r ∈ bundle.items, r.turnId ∈ bundle.turns.map (·.1)
  itemAttempt : ∀ r ∈ bundle.items, ∀ x ∈ r.attemptId,
    ∃ a ∈ bundle.attempts, a.1 = x ∧ a.2.turnId = r.turnId
  itemSeq : ∀ r ∈ bundle.items, ∀ r' ∈ bundle.items, r.turnId = r'.turnId →
    r.attemptId = r'.attemptId → r.itemSeq = r'.itemSeq → r = r'
  sorted : bundle.items.Pairwise fun r r' => r.key ≤ r'.key

/-- The bytes are a text that begins with a byte order mark. -/
def BeginsWithMark (bytes : Bytes) : Prop := ∃ text, utf8Decode bytes = some ('\ufeff' :: text)

/-! ## Text and bytes -/

lemma utf8Decode_eq_some_iff {bytes : Bytes} {text : List Char} :
    utf8Decode bytes = some text ↔ utf8Bytes text = bytes := by
  have hencode : ∀ text : List Char, (utf8Bytes text).toByteArray = text.utf8Encode := fun _ => rfl
  have hinj : ∀ l l' : Bytes, l.toByteArray = l'.toByteArray → l = l' := by
    intro l l' h
    have hdata := congrArg (fun b : ByteArray => b.data.toList) h
    simpa using hdata
  have hread : ∀ text : List Char, utf8Decode (utf8Bytes text) = some text := by
    intro text
    rw [utf8Decode, hencode, List.utf8Decode?_utf8Encode]
    rfl
  constructor
  · intro h
    have hsome : bytes.toByteArray.utf8Decode?.isSome = true := by
      cases hdec : bytes.toByteArray.utf8Decode? with
      | none => rw [utf8Decode, hdec] at h; cases h
      | some _ => rfl
    obtain ⟨text', htext'⟩ := ByteArray.isSome_utf8Decode?_iff.mp hsome
    have hbytes : bytes = utf8Bytes text' := hinj _ _ (htext'.trans (hencode text').symm)
    rw [hbytes, hread] at h
    rw [hbytes, Option.some.inj h]
  · rintro rfl
    exact hread text

/-- The bytes of the text that is shown for a stream chunk, or of its base64 field. -/
def hydratedBytes (bytes : Bytes) : Bytes :=
  match textDecode bytes with
  | some text => utf8Bytes text
  | none => bytes

lemma utf8Bytes_mark (text : List Char) :
    utf8Bytes ('\ufeff' :: text) = 0xEF :: 0xBB :: 0xBF :: utf8Bytes text := rfl

lemma hydratedBytes_of_mark {bytes : Bytes} {text : List Char}
    (h : utf8Decode bytes = some ('\ufeff' :: text)) :
    hydratedBytes bytes = utf8Bytes text ∧ (hydratedBytes bytes).length + 3 = bytes.length := by
  have hbytes := utf8Decode_eq_some_iff.mp h
  have hread : hydratedBytes bytes = utf8Bytes text := by
    rw [hydratedBytes, textDecode, h]
    rfl
  refine ⟨hread, ?_⟩
  rw [hread, ← hbytes, utf8Bytes_mark]
  rfl

lemma dropMark_of_not_mark {bytes : Bytes} {text : List Char} (hmark : ¬BeginsWithMark bytes)
    (h : utf8Decode bytes = some text) : dropMark text = text := by
  unfold dropMark
  split
  · exact absurd ⟨_, h⟩ hmark
  · rfl

lemma hydratedBytes_of_not_mark {bytes : Bytes} (hmark : ¬BeginsWithMark bytes) :
    hydratedBytes bytes = bytes := by
  unfold hydratedBytes textDecode
  cases h : utf8Decode bytes with
  | none => rfl
  | some text =>
    rw [Option.map_some, dropMark_of_not_mark hmark h]
    exact utf8Decode_eq_some_iff.mp h

/-- No JSON value begins with a byte order mark. -/
lemma jsonParse_mark {number : List Char → Option JsonNumber} (text : List Char) :
    jsonParse number ('\ufeff' :: text) = none := by
  have hscan : scanNumber ('\ufeff' :: text) = none := by
    simp [scanNumber, scanSign, scanInteger, scanDigits]
  simp [jsonParse, parseValue, skipSpace, isJsonSpace, hscan]

section Project

variable {number : List Char → Option JsonNumber} {row : ItemWithContent} {plaintext : Bytes}

lemma projectPlaintext_head (row : ItemWithContent) (plaintext : Bytes) :
    (projectPlaintext number row plaintext).itemSeq = row.itemSeq ∧
      (projectPlaintext number row plaintext).itemType = row.itemType ∧
      (projectPlaintext number row plaintext).contentUnreadable = false := by
  unfold projectPlaintext
  split
  · exact ⟨rfl, rfl, rfl⟩
  · split
    · exact ⟨rfl, rfl, rfl⟩
    · split <;> exact ⟨rfl, rfl, rfl⟩

/-- The bytes of a projected chunk. -/
lemma bytes_projectPlaintext_chunk (h : row.itemType = .nativeStreamChunk) :
    (projectPlaintext number row plaintext).bytes = some (hydratedBytes plaintext) := by
  unfold projectPlaintext hydratedBytes
  cases textDecode plaintext with
  | none => exact base64Decode_encode plaintext
  | some text =>
    simp only [h, if_true]
    rfl

/-- An item other than a chunk is projected exactly, unless it is text with a mark. -/
lemma exact_projectPlaintext_iff (h : row.itemType ≠ .nativeStreamChunk) :
    (projectPlaintext number row plaintext).Exact number plaintext ↔ ¬BeginsWithMark plaintext := by
  unfold projectPlaintext textDecode
  cases hdec : utf8Decode plaintext with
  | none =>
    refine iff_of_true (.inl (base64Decode_encode plaintext)) ?_
    rintro ⟨text, htext⟩
    rw [hdec] at htext
    cases htext
  | some text =>
    have hbytes := utf8Decode_eq_some_iff.mp hdec
    simp only [Option.map_some, if_neg h]
    constructor
    · rintro hexact ⟨rest, hrest⟩
      obtain rfl := Option.some.inj (hdec.symm.trans hrest)
      change ConversationItemProjection.Exact number (match jsonParse number rest with
        | some native => _
        | none => _) plaintext at hexact
      cases hjson : jsonParse number rest with
      | none =>
        rw [hjson] at hexact
        rcases hexact with hexact | ⟨hnone, -⟩
        · have hlen := congrArg List.length (Option.some.inj hexact)
          rw [← hbytes, utf8Bytes_mark] at hlen
          change (utf8Bytes rest).length = (utf8Bytes rest).length + 3 at hlen
          omega
        · cases hnone
      | some native =>
        rw [hjson] at hexact
        rcases hexact with hexact | ⟨-, -, text, htext, hparse⟩
        · cases hexact
        · have hmark := utf8Decode_eq_some_iff.mpr htext
          rw [hdec] at hmark
          rw [← Option.some.inj hmark, jsonParse_mark] at hparse
          cases hparse
    · intro hmark
      rw [dropMark_of_not_mark hmark hdec]
      cases hjson : jsonParse number text with
      | none => exact .inl (congrArg some hbytes)
      | some native => exact .inr ⟨rfl, rfl, text, hbytes, hjson⟩

end Project

/-! ## The lists of a bundle -/

section Bundle

variable {number : List Char → Option JsonNumber} {bundle : TurnBundle}

/-- The turns and the attempts of a bundle, in the order of the projection. -/
def owners (bundle : TurnBundle) : List (Uuid × Option Uuid) :=
  bundle.turns.flatMap fun t =>
    (t.1, none) :: (bundle.attempts.filter fun a => a.2.turnId = t.1).map fun a => (t.1, some a.1)

/-- Each owner has a list with its items. -/
lemma listings_eq (items : List OwnedItem) :
    listings (bundle.turns.map (projectTurn bundle.attempts items)) =
      (owners bundle).map fun k =>
        (k.1, k.2, (items.filter fun o => o.turnId = k.1 ∧ o.attemptId = k.2).map (·.item)) := by
  unfold listings owners
  rw [List.flatMap_map, List.map_flatMap]
  refine List.flatMap_congr fun t _ => ?_
  rw [List.map_cons, List.map_map, projectTurn, List.map_map]
  rfl

lemma TurnBundle.Lawful.nodup_owners (h : bundle.Lawful) : (owners bundle).Nodup := by
  unfold owners
  rw [List.nodup_flatMap]
  constructor
  · intro t _
    refine List.nodup_cons.mpr ⟨fun hmem => ?_, ?_⟩
    · obtain ⟨a, -, ha⟩ := List.mem_map.mp hmem
      cases (Prod.mk.inj ha).2
    · have hids := (List.filter_sublist (p := fun a : Keyed AttemptRow => a.2.turnId = t.1)
        (l := bundle.attempts)).map (·.1)
      have hnodup := h.attemptIds.sublist hids
      have hmap : (bundle.attempts.filter fun a => a.2.turnId = t.1).map (fun a => (t.1, some a.1)) =
          ((bundle.attempts.filter fun a => a.2.turnId = t.1).map (·.1)).map
            fun x => (t.1, some x) := by
        rw [List.map_map]
        rfl
      rw [hmap]
      refine hnodup.map fun x y hxy => ?_
      exact Option.some.inj (Prod.mk.inj hxy).2
  · have hne : bundle.turns.Pairwise fun t t' => t.1 ≠ t'.1 := List.pairwise_map.mp h.turnIds
    refine hne.imp fun {t t'} hne => ?_
    have hfirst : ∀ (t : Keyed TurnRow) k, k ∈ (t.1, (none : Option Uuid)) ::
        (bundle.attempts.filter fun a => a.2.turnId = t.1).map (fun a => (t.1, some a.1)) →
        k.1 = t.1 := by
      intro t k hk
      rcases List.mem_cons.mp hk with rfl | hk
      · rfl
      · obtain ⟨a, -, rfl⟩ := List.mem_map.mp hk
        rfl
    exact fun k hk hk' => hne ((hfirst t k hk).symm.trans (hfirst t' k hk'))

/-- Each row has its owner in the bundle. -/
lemma TurnBundle.Lawful.owner_mem (h : bundle.Lawful) {r : ItemWithContent}
    (hr : r ∈ bundle.items) : (r.turnId, r.attemptId) ∈ owners bundle := by
  obtain ⟨t, ht, hturn⟩ := List.mem_map.mp (h.itemTurn r hr)
  refine List.mem_flatMap.mpr ⟨t, ht, ?_⟩
  cases hattempt : r.attemptId with
  | none => exact List.mem_cons.mpr (.inl (by rw [hturn]))
  | some x =>
    obtain ⟨a, ha, rfl, haturn⟩ := h.itemAttempt r hr x hattempt
    refine List.mem_cons_of_mem _ (List.mem_map.mpr ⟨a, ?_, by rw [hturn]⟩)
    exact List.mem_filter.mpr ⟨ha, by simp [haturn, hturn]⟩

variable {stored : ItemWithContent → Bytes}

/-- The projected item of a row. -/
def ownedItem (number : List Char → Option JsonNumber) (stored : ItemWithContent → Bytes)
    (r : ItemWithContent) : OwnedItem :=
  ⟨r.turnId, r.attemptId, projectPlaintext number r (stored r)⟩

/-- The items of an owner as they are projected. -/
lemma items_of_owner (k : Uuid × Option Uuid) :
    ((bundle.items.map (ownedItem number stored)).filter fun o =>
        o.turnId = k.1 ∧ o.attemptId = k.2).map (·.item) =
      (bundle.items.filter fun r => r.turnId = k.1 ∧ r.attemptId = k.2).map fun r =>
        projectPlaintext number r (stored r) := by
  rw [List.filter_map, List.map_map]
  rfl

/-- The lists of a bundle, one after the other, are a rearrangement of its rows. -/
lemma listings_perm (h : bundle.Lawful) :
    ((listings (bundle.turns.map
        (projectTurn bundle.attempts (bundle.items.map (ownedItem number stored))))).flatMap
          fun e => e.2.2.map fun item => (e.1, e.2.1, item)).Perm
      (bundle.items.map fun r =>
        (r.turnId, r.attemptId, projectPlaintext number r (stored r))) := by
  have hperm : ((owners bundle).flatMap fun k => bundle.items.filter fun r =>
      r.turnId = k.1 ∧ r.attemptId = k.2).Perm bundle.items := by
    refine flatMap_filter_perm (h.nodup_owners.imp fun {k k'} hne r _ hk hk' => hne ?_)
      fun r hr => ⟨_, h.owner_mem hr, by simp⟩
    rw [decide_eq_true_eq] at hk hk'
    exact Prod.ext (hk.1.symm.trans hk'.1) (hk.2.symm.trans hk'.2)
  refine List.Perm.trans (List.Perm.of_eq ?_) (hperm.map _)
  rw [listings_eq, List.flatMap_map, List.map_flatMap]
  refine List.flatMap_congr fun k _ => ?_
  rw [items_of_owner, List.map_map]
  refine List.map_congr_left fun r hr => ?_
  obtain ⟨hturn, hattempt⟩ := of_decide_eq_true (List.mem_filter.mp hr).2
  rw [Function.comp_apply, hturn, hattempt]

/-- A list of calls that all have results. -/
lemma mapM_eq_some_map {α β : Type} {f : α → Option β} {g : α → β} {l : List α}
    (h : ∀ a ∈ l, f a = some (g a)) : l.mapM f = some (l.map g) := by
  induction l with
  | nil => rfl
  | cons a l ih =>
    rw [List.mapM_cons, h a (List.mem_cons_self ..), ih fun a ha => h a (List.mem_cons_of_mem _ ha)]
    rfl

/-- The rows of the chunks of an owner. -/
def chunkRows (bundle : TurnBundle) (k : Uuid × Option Uuid) : List ItemWithContent :=
  bundle.items.filter fun r => r.turnId = k.1 ∧ r.attemptId = k.2 ∧ r.itemType = .nativeStreamChunk

/-- The chunks of an owner as they are projected. -/
lemma bytes_chunks (k : Uuid × Option Uuid) :
    (((((bundle.items.map (ownedItem number stored)).filter fun o =>
        o.turnId = k.1 ∧ o.attemptId = k.2).map (·.item)).filter
          fun item : ConversationItemProjection => item.itemType = .nativeStreamChunk).mapM
            ConversationItemProjection.bytes).map List.flatten =
      some ((chunkRows bundle k).flatMap fun r => hydratedBytes (stored r)) := by
  have hrows : ((bundle.items.filter fun r => r.turnId = k.1 ∧ r.attemptId = k.2).filter
      ((fun item : ConversationItemProjection => decide (item.itemType = .nativeStreamChunk)) ∘
        fun r => projectPlaintext number r (stored r))) = chunkRows bundle k := by
    rw [List.filter_filter, chunkRows]
    refine List.filter_congr fun r _ => ?_
    rw [Function.comp_apply, (projectPlaintext_head r (stored r)).2.1, Bool.eq_iff_iff]
    simp only [Bool.and_eq_true, decide_eq_true_eq]
    tauto
  rw [items_of_owner, List.filter_map, hrows]
  have hcalls : (chunkRows bundle k).mapM (ConversationItemProjection.bytes ∘ fun r =>
      projectPlaintext number r (stored r)) =
        some ((chunkRows bundle k).map fun r => hydratedBytes (stored r)) :=
    mapM_eq_some_map fun r hr => bytes_projectPlaintext_chunk
      (of_decide_eq_true (List.mem_filter.mp hr).2).2.2
  rw [List.mapM_map, hcalls, Option.map_some, List.flatMap]

/-- The rows of an owner are in the order of `item_seq`. -/
lemma TurnBundle.Lawful.chunkRows_sorted (h : bundle.Lawful) (k : Uuid × Option Uuid) :
    (chunkRows bundle k).insertionSort (fun r r' => r.itemSeq ≤ r'.itemSeq) =
      chunkRows bundle k := by
  refine List.Pairwise.insertionSort_eq ?_
  have hsorted := h.sorted.filter fun r : ItemWithContent =>
    decide (r.turnId = k.1 ∧ r.attemptId = k.2 ∧ r.itemType = .nativeStreamChunk)
  refine hsorted.imp_of_mem fun {r r'} hr hr' hkey => ?_
  obtain ⟨hturn, hattempt, -⟩ := of_decide_eq_true (List.mem_filter.mp hr).2
  obtain ⟨hturn', hattempt', -⟩ := of_decide_eq_true (List.mem_filter.mp hr').2
  exact (ItemWithContent.key_le_iff (hturn.trans hturn'.symm) (hattempt.trans hattempt'.symm)).mp hkey

/-- The chunks of an owner stand for their stored bytes unless one begins with a mark. -/
lemma flatMap_hydratedBytes_iff {rows : List ItemWithContent} :
    (rows.flatMap fun r => hydratedBytes (stored r)) = rows.flatMap stored ↔
      ∀ r ∈ rows, ¬BeginsWithMark (stored r) := by
  have hle : ∀ r, (hydratedBytes (stored r)).length ≤ (stored r).length ∧
      (BeginsWithMark (stored r) → (hydratedBytes (stored r)).length < (stored r).length) := by
    intro r
    by_cases hmark : BeginsWithMark (stored r)
    · obtain ⟨text, htext⟩ := hmark
      have hlen := (hydratedBytes_of_mark htext).2
      omega
    · rw [hydratedBytes_of_not_mark hmark]
      exact ⟨le_rfl, fun h => absurd h hmark⟩
  constructor
  · intro heq r hr hmark
    have hlen := congrArg List.length heq
    rw [List.length_flatMap, List.length_flatMap] at hlen
    have hlt : (rows.map fun r => (hydratedBytes (stored r)).length).sum <
        (rows.map fun r => (stored r).length).sum :=
      List.sum_lt_sum _ _ (fun r _ => (hle r).1) ⟨r, hr, (hle r).2 hmark⟩
    omega
  · intro hnone
    exact List.flatMap_congr fun r hr => hydratedBytes_of_not_mark (hnone r hr)

/-- An exact projection of the items has no text with a mark, and conversely. -/
lemma hydratesExactly_iff (h : bundle.Lawful) :
    HydratesExactly number bundle stored (bundle.turns.map
        (projectTurn bundle.attempts (bundle.items.map (ownedItem number stored)))) ↔
      ∀ r ∈ bundle.items, ¬BeginsWithMark (stored r) := by
  constructor
  · rintro ⟨⟨itemOf, hitem, hperm⟩, hchunks⟩ r hr
    by_cases htype : r.itemType = .nativeStreamChunk
    · have hlist := List.mem_map_of_mem (f := fun k : Uuid × Option Uuid => (k.1, k.2,
        ((bundle.items.map (ownedItem number stored)).filter fun o =>
          o.turnId = k.1 ∧ o.attemptId = k.2).map (·.item))) (h.owner_mem hr)
      rw [← listings_eq] at hlist
      have hbytes := hchunks _ hlist
      rw [bytes_chunks (r.turnId, r.attemptId), storedChunks] at hbytes
      have hsorted := h.chunkRows_sorted (r.turnId, r.attemptId)
      unfold chunkRows at hsorted
      rw [hsorted] at hbytes
      refine flatMap_hydratedBytes_iff.mp (Option.some.inj hbytes) r (List.mem_filter.mpr ⟨hr, ?_⟩)
      simp [htype]
    · -- the item of the row is its own projection, as no other row has its number
      have hmem := (hperm.symm.trans (listings_perm h)).subset
        (List.mem_map.mpr ⟨r, hr, rfl⟩)
      obtain ⟨r', hr', heq⟩ := List.mem_map.mp hmem
      obtain ⟨hturn, hrest⟩ := Prod.mk.inj heq
      obtain ⟨hattempt, hproj⟩ := Prod.mk.inj hrest
      have hseq := congrArg ConversationItemProjection.itemSeq hproj
      rw [(projectPlaintext_head r' _).1, (hitem r hr).1] at hseq
      obtain rfl := h.itemSeq r' hr' r hr hturn hattempt hseq
      have hexact := (hitem r' hr).2.2 htype
      rw [← hproj] at hexact
      exact (exact_projectPlaintext_iff htype).mp hexact
  · intro hmark
    refine ⟨⟨fun r => projectPlaintext number r (stored r), fun r hr => ?_, listings_perm h⟩, ?_⟩
    · refine ⟨(projectPlaintext_head r _).1, (projectPlaintext_head r _).2.1, fun htype => ?_⟩
      exact (exact_projectPlaintext_iff htype).mpr (hmark r hr)
    · intro e he
      rw [listings_eq] at he
      obtain ⟨k, -, rfl⟩ := List.mem_map.mp he
      rw [bytes_chunks k, storedChunks]
      have hsorted := h.chunkRows_sorted k
      unfold chunkRows at hsorted
      rw [hsorted]
      exact congrArg some (flatMap_hydratedBytes_iff.mpr fun r hr =>
        hmark r (List.mem_of_mem_filter hr))

variable {decrypt : EncryptedContentRef → Option Bytes}

/-- The content of each row is active, and decrypts to the stored bytes. -/
def Decryptable (decrypt : EncryptedContentRef → Option Bytes) (bundle : TurnBundle)
    (stored : ItemWithContent → Bytes) : Prop :=
  ∀ r ∈ bundle.items, r.content.status = .active ∧ r.content.dekWrapped ≠ none ∧
    decrypt r.content = some (stored r)

/-- A result of the bundle is the projection of its rows in their order. -/
lemma projectTurnBundle_eq_some (hstored : Decryptable decrypt bundle stored)
    {schedule : List ℕ} {result : Except String (List ConversationTurnProjection)}
    (hresult : projectTurnBundle number decrypt bundle schedule = some result) :
    result = .ok (bundle.turns.map
      (projectTurn bundle.attempts (bundle.items.map (ownedItem number stored)))) := by
  unfold projectTurnBundle at hresult
  split at hresult
  · next hturns =>
    obtain rfl := Option.some.inj hresult
    rw [hturns]
    rfl
  · obtain ⟨items, hpool, rfl⟩ := Option.map_eq_some_iff.mp hresult
    obtain ⟨hok, herror⟩ := mapWithConcurrency_eq_some (by decide) hpool
    have hcall : ∀ r ∈ bundle.items,
        projectOwned number decrypt r = .ok (ownedItem number stored r) := by
      intro r hr
      obtain ⟨hactive, hdek, hdecrypt⟩ := hstored r hr
      rw [projectOwned, projectItem, if_neg (by simp [hactive, hdek]), hdecrypt]
      rfl
    cases items with
    | error e =>
      obtain ⟨r, hr, he⟩ := herror e rfl
      rw [hcall r hr] at he
      cases he
    | ok items =>
      have hforall := hok items rfl
      have hitems : items = bundle.items.map (ownedItem number stored) := by
        have hmapM : bundle.items.mapM (projectOwned number decrypt) = .ok items :=
          except_mapM_eq_ok_iff.mpr hforall
        have hmapM' : bundle.items.mapM (projectOwned number decrypt) =
            .ok (bundle.items.map (ownedItem number stored)) := by
          refine except_mapM_eq_ok_iff.mpr (List.forall₂_map_right_iff.mpr ?_)
          exact List.forall₂_same.mpr hcall
        exact Except.ok.inj (hmapM.symm.trans hmapM')
      rw [hitems]
      rfl

/-- **Hydration is exact unless an item is text that begins with a byte order mark.**  Whatever the order
in which the decryptions end, the projection comes to its end with a result; each row is in it once, under
its own turn and attempt; and it gives the stored bytes back if and only if none of them are text with a
mark at its start. -/
theorem hydration_exact_iff (h : bundle.Lawful) (hstored : Decryptable decrypt bundle stored) :
    (∃ schedule, (projectTurnBundle number decrypt bundle schedule).isSome = true) ∧
      ∀ schedule result, projectTurnBundle number decrypt bundle schedule = some result →
        ∃ turns, result = .ok turns ∧
          (HydratesExactly number bundle stored turns ↔
            ∀ r ∈ bundle.items, ¬BeginsWithMark (stored r)) := by
  constructor
  · obtain ⟨schedule, hschedule⟩ := exists_schedule bundle.items (projectOwned number decrypt)
      (show 0 < kmsDecryptConcurrency by decide)
    refine ⟨schedule, ?_⟩
    unfold projectTurnBundle
    split
    · rfl
    · rw [Option.isSome_map]
      exact hschedule
  · intro schedule result hresult
    exact ⟨_, projectTurnBundle_eq_some hstored hresult, hydratesExactly_iff h⟩

end Bundle

/-! ## A mark at the start of a chunk -/

/-- A streamed answer of one chunk. -/
def chunkBundle (bytes : Bytes) : TurnBundle where
  turns := [(1, ⟨⟨⟨10, 11⟩, 12⟩, 13, 14, 1, some 2, 15⟩)]
  attempts := [(2,
    { conv := ⟨⟨10, 11⟩, 12⟩, branchId := 13, turnId := 1, attemptSeq := 1, state := .completed
      claimToken := some 20, claimant := some "worker", claimDeadlineAt := some 9, heartbeatAt := none
      stopRequested := false, causalVersionAtBuild := some 1, govaiRequestId := some 21
      captureId := some 22, providerCredentialId := some 23, dispatchBoundaryCommittedAt := some 1
      continuationParent := .absent, contextExcluded := false, errorClass := none
      terminalAt := some 5, createdAt := 0 })]
  items := [⟨1, some 2, 1, .nativeStreamChunk, ⟨⟨bytes, some [], "key", 1⟩, .active⟩⟩]

/-- Decryption of contents that are stored as they are. -/
def plainDecrypt (content : EncryptedContentRef) : Option Bytes := some content.ciphertext

lemma chunkBundle_lawful (bytes : Bytes) : (chunkBundle bytes).Lawful where
  turnIds := List.nodup_singleton _
  attemptIds := List.nodup_singleton _
  itemTurn r hr := by
    rw [List.mem_singleton.mp hr]
    exact List.mem_singleton_self _
  itemAttempt r hr x hx := by
    rw [List.mem_singleton.mp hr] at hx
    cases hx
    rw [List.mem_singleton.mp hr]
    exact ⟨_, List.mem_singleton_self _, rfl, rfl⟩
  itemSeq r hr r' hr' _ _ _ := (List.mem_singleton.mp hr).trans (List.mem_singleton.mp hr').symm
  sorted := List.pairwise_singleton _ _

lemma chunkBundle_decryptable (bytes : Bytes) :
    Decryptable plainDecrypt (chunkBundle bytes) (fun r => r.content.ciphertext) := by
  intro r hr
  rw [List.mem_singleton.mp hr]
  exact ⟨rfl, by simp, rfl⟩

/-- The first chunk of a stream that begins with a byte order mark is projected without the mark. -/
theorem mark_of_chunk_is_lost : ∃ turns,
    projectTurnBundle (fun _ => none) plainDecrypt (chunkBundle [0xEF, 0xBB, 0xBF, 0x64]) [0] =
        some (.ok turns) ∧
      ¬HydratesExactly (fun _ => none) (chunkBundle [0xEF, 0xBB, 0xBF, 0x64])
        (fun r => r.content.ciphertext) turns := by
  have hends : (projectTurnBundle (fun _ => none) plainDecrypt
      (chunkBundle [0xEF, 0xBB, 0xBF, 0x64]) [0]).isSome = true := rfl
  obtain ⟨result, hresult⟩ := Option.isSome_iff_exists.mp hends
  obtain rfl := projectTurnBundle_eq_some (chunkBundle_decryptable _) hresult
  refine ⟨_, hresult, fun hexact => ?_⟩
  refine (hydratesExactly_iff (chunkBundle_lawful _)).mp hexact _ (List.mem_singleton_self _) ?_
  exact ⟨['d'], utf8Decode_eq_some_iff.mpr (by decide)⟩

/-- A streamed answer of one character of two bytes, cut between them. -/
def cutBundle : TurnBundle :=
  { chunkBundle [] with
    items := [⟨1, some 2, 1, .nativeStreamChunk, ⟨⟨[0xC3], some [], "key", 1⟩, .active⟩⟩,
      ⟨1, some 2, 2, .nativeStreamChunk, ⟨⟨[0xA9], some [], "key", 1⟩, .active⟩⟩] }

lemma cutBundle_lawful : cutBundle.Lawful where
  turnIds := List.nodup_singleton _
  attemptIds := List.nodup_singleton _
  itemTurn := by simp [cutBundle, chunkBundle]
  itemAttempt := by simp [cutBundle, chunkBundle]
  itemSeq := by simp [cutBundle]
  sorted := List.pairwise_pair.mpr (by decide)

lemma cutBundle_decryptable :
    Decryptable plainDecrypt cutBundle (fun r => r.content.ciphertext) := by
  simp [Decryptable, plainDecrypt, cutBundle]

/-- The two halves are projected exactly, in any order of decryptions. -/
theorem hydration_exact_iff_sample :
    (∃ schedule, (projectTurnBundle (fun _ => none) plainDecrypt cutBundle
        schedule).isSome = true) ∧
      ∀ schedule result, projectTurnBundle (fun _ => none) plainDecrypt cutBundle
          schedule = some result →
        ∃ turns, result = .ok turns ∧
          (HydratesExactly (fun _ => none) cutBundle (fun r => r.content.ciphertext) turns ↔
            ∀ r ∈ cutBundle.items, ¬BeginsWithMark r.content.ciphertext) :=
  hydration_exact_iff cutBundle_lawful cutBundle_decryptable

/-! ## The bundle of a page -/

/-- The keys of the tables of items: each item belongs to a turn and to no attempt or to an attempt of
that turn, and has its own number there. -/
structure ConvDb.ItemsKeyed (db : ConvDb) : Prop where
  attempt : ∀ i ∈ db.items, ∀ x ∈ i.attemptId,
    ∃ a, db.attempts.lookup x = some a ∧ a.conv = i.conv ∧ a.turnId = i.turnId
  itemSeq : ∀ i ∈ db.items, ∀ j ∈ db.items, i.conv = j.conv → i.turnId = j.turnId →
    i.attemptId = j.attemptId → i.itemSeq = j.itemSeq → i = j

lemma mem_listItemsForTurns {db : ConvDb} {conv : Lineage} {turnIds : List Uuid} {r : ItemWithContent}
    (h : r ∈ listItemsForTurns conv turnIds db) :
    ∃ i ∈ db.items, i.conv = conv ∧ i.turnId ∈ turnIds ∧ ∃ c, db.contents.lookup i.contentId = some c ∧
      r = ⟨i.turnId, i.attemptId, i.itemSeq, i.itemType, ⟨c.toContentEnvelope, c.status⟩⟩ := by
  rw [listItemsForTurns, List.mem_insertionSort] at h
  obtain ⟨i, hi, h⟩ := List.mem_filterMap.mp h
  obtain ⟨c, hc, rfl⟩ := Option.map_eq_some_iff.mp h
  obtain ⟨hi, hturn⟩ := List.mem_filter.mp hi
  obtain ⟨hconv, hturn⟩ := of_decide_eq_true hturn
  exact ⟨i, hi, hconv, hturn, c, (Option.filter_eq_some_iff.mp hc).1, rfl⟩

lemma mem_listAttemptsForTurns {db : ConvDb} {conv : Lineage} {turnIds : List Uuid} {x : Uuid}
    {a : AttemptRow} (hlookup : db.attempts.lookup x = some a) (hconv : a.conv = conv)
    (hturn : a.turnId ∈ turnIds) : (x, a) ∈ listAttemptsForTurns conv turnIds db := by
  rw [listAttemptsForTurns, List.mem_insertionSort]
  refine List.mem_map.mpr ⟨⟨x, a⟩, List.mem_filter.mpr ⟨AList.mem_lookup_iff.mp hlookup, ?_⟩, rfl⟩
  simp [hconv, hturn]

/-- **Phase A reads a lawful bundle.** -/
theorem readTurnBundle_lawful {db : ConvDb} (h : db.ItemsKeyed) {conv : Lineage}
    {turnRows : List (Keyed TurnRow)} (hturns : (turnRows.map (·.1)).Nodup) :
    (readTurnBundle conv turnRows db).Lawful := by
  unfold readTurnBundle
  split
  · exact ⟨List.nodup_nil, List.nodup_nil, List.forall_mem_nil _, List.forall_mem_nil _,
      List.forall_mem_nil _, .nil⟩
  · refine ⟨hturns, ?_, fun r hr => ?_, fun r hr x hx => ?_, fun r hr r' hr' ht ha hs => ?_,
      List.pairwise_insertionSort _ _⟩
    · have hperm := (List.perm_insertionSort (fun a b => attemptKey a ≤ attemptKey b)
        ((db.attempts.entries.filter fun e => e.2.conv = conv ∧ e.2.turnId ∈ turnRows.map (·.1)).map
          fun e => ((e.1, e.2) : Keyed AttemptRow))).map (·.1)
      refine hperm.nodup_iff.mpr ?_
      rw [List.map_map]
      exact List.NodupKeys.sublist List.filter_sublist db.attempts.nodupKeys
    · obtain ⟨i, -, -, hturn, c, -, rfl⟩ := mem_listItemsForTurns hr
      exact hturn
    · obtain ⟨i, hi, hconv, hturn, c, -, rfl⟩ := mem_listItemsForTurns hr
      obtain ⟨a, hlookup, haconv, haturn⟩ := h.attempt i hi x hx
      exact ⟨(x, a), mem_listAttemptsForTurns hlookup (haconv.trans hconv) (haturn ▸ hturn), rfl,
        haturn⟩
    · obtain ⟨i, hi, hconv, -, c, hc, rfl⟩ := mem_listItemsForTurns hr
      obtain ⟨j, hj, hconv', -, c', hc', rfl⟩ := mem_listItemsForTurns hr'
      obtain rfl := h.itemSeq i hi j hj (hconv.trans hconv'.symm) ht ha hs
      obtain rfl := Option.some.inj (hc.symm.trans hc')
      rfl

end GovAI
