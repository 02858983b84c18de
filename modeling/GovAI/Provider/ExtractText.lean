import GovAI.Json.Order

/-!
# The text of an OpenAI request

`governed/extract-text.ts`: the texts of a Responses or Chat Completions body that the DLP scan sees.
The walk over `input` enters message items at any depth and takes the text parts; everything else in
the body is left alone.
-/

namespace GovAI

/-! ## The walk -/

/-- A step of the path of a segment: `.name` or `[i]`. -/
inductive PathStep where
  | field (name : String)
  | index (i : ℕ)
deriving DecidableEq

/-- `ExtractedSegment`; its path is rendered by `pathText`. -/
structure ExtractedSegment where
  text : JsString
  path : List PathStep
deriving DecidableEq

/-- A step after another one. -/
def PathStep.text : PathStep → String
  | field name => s!".{name}"
  | index i => s!"[{i}]"

/-- A path as the source writes it. -/
def pathText : List PathStep → String
  | .field name :: rest => name ++ String.join (rest.map PathStep.text)
  | path => String.join (path.map PathStep.text)

/-- `isMessageItem`. -/
def isMessageItem (item : JsonValue) : Bool :=
  match item.get "type" with
  | some (.str type) => type = jsString "message"
  | some _ => false
  | none =>
    match item.get "role" with
    | some (.str _) => true
    | _ => false

/-- The segment of a content part of the type `type`. -/
def pushPartOf (type : String) (part : JsonValue) (path : List PathStep) : List ExtractedSegment :=
  match part.get "type", part.get "text" with
  | some (.str t), some (.str text) =>
    if t = jsString type then [⟨text, path ++ [.field "text"]⟩] else []
  | _, _ => []

mutual

/-- `pushParts`. -/
def pushParts : JsonValue → List PathStep → List ExtractedSegment
  | .str text, path => [⟨text, path⟩]
  | .arr parts, path => pushItems parts path 0
  | _, _ => []

/-- The items from the index `i` on. -/
def pushItems : List JsonValue → List PathStep → ℕ → List ExtractedSegment
  | [], _, _ => []
  | item :: rest, path, i => pushItem item (path ++ [.index i]) ++ pushItems rest path (i + 1)

/-- One item. -/
def pushItem : JsonValue → List PathStep → List ExtractedSegment
  | .obj props, path =>
    pushPartOf "text" (.obj props) path ++ pushPartOf "input_text" (.obj props) path ++
      pushPartOf "output_text" (.obj props) path ++
        if isMessageItem (.obj props) then pushContent props (path ++ [.field "content"]) else []
  | _, _ => []

/-- `pushParts(part['content'], …)`. -/
def pushContent : List (JsString × JsonValue) → List PathStep → List ExtractedSegment
  | [], _ => []
  | (key, value) :: rest, path =>
    if key = jsString "content" then pushParts value path else pushContent rest path

end

/-- `extractOpenAIResponsesText`. -/
def extractOpenAIResponsesText (body : JsonValue) : List ExtractedSegment :=
  (match body.get "instructions" with
    | some (.str text) => [⟨text, [.field "instructions"]⟩]
    | _ => []) ++
  match body.get "input" with
  | some (.str text) => [⟨text, [.field "input"]⟩]
  | some (.arr items) => pushParts (.arr items) [.field "input"]
  | _ => []

/-- The segments of one message of a Chat Completions body. -/
def chatMessageSegments (message : JsonValue) (path : List PathStep) : List ExtractedSegment :=
  match message.get "content" with
  | some (.str text) => [⟨text, path⟩]
  | some (.arr parts) => pushParts (.arr parts) path
  | _ => []

/-- `extractOpenAIChatCompletionsText`. -/
def extractOpenAIChatCompletionsText (body : JsonValue) : List ExtractedSegment :=
  match body.get "messages" with
  | some (.arr messages) =>
    messages.zipIdx.flatMap fun (message, mi) =>
      chatMessageSegments message [.field "messages", .index mi, .field "content"]
  | _ => []

/-! ## What the walk takes -/

/-- A text part with its text. -/
def IsTextPart (item : JsonValue) (text : JsString) : Prop :=
  ∃ type, (type = "text" ∨ type = "input_text" ∨ type = "output_text") ∧
    item.get "type" = some (.str (jsString type)) ∧ item.get "text" = some (.str text)

/-- A text of a list of items at a path: a part of the list, the content of a message of the list, or
a text in the content of a message of the list. -/
inductive TextAt : List JsonValue → List PathStep → JsString → Prop
  | part {items : List JsonValue} {i : ℕ} {item : JsonValue} {text : JsString}
      (hi : items[i]? = some item) (h : IsTextPart item text) :
      TextAt items [.index i, .field "text"] text
  | content {items : List JsonValue} {i : ℕ} {item : JsonValue} {text : JsString}
      (hi : items[i]? = some item) (hmessage : isMessageItem item = true)
      (h : item.get "content" = some (.str text)) :
      TextAt items [.index i, .field "content"] text
  | nested {items inner : List JsonValue} {i : ℕ} {item : JsonValue} {path : List PathStep}
      {text : JsString} (hi : items[i]? = some item) (hmessage : isMessageItem item = true)
      (hcontent : item.get "content" = some (.arr inner)) (h : TextAt inner path text) :
      TextAt items (.index i :: .field "content" :: path) text

/-- A text of a Responses body: its instructions, its input, or a text of its input items. -/
inductive IsTextOf (body : JsonValue) : List PathStep → JsString → Prop
  | instructions {text : JsString} (h : body.get "instructions" = some (.str text)) :
      IsTextOf body [.field "instructions"] text
  | input {text : JsString} (h : body.get "input" = some (.str text)) :
      IsTextOf body [.field "input"] text
  | item {items : List JsonValue} {path : List PathStep} {text : JsString}
      (hinput : body.get "input" = some (.arr items)) (h : TextAt items path text) :
      IsTextOf body (.field "input" :: path) text

/-- A step comes before another one in a body, with the instructions before the input. -/
inductive PathStep.Before : PathStep → PathStep → Prop
  | index {i j : ℕ} (h : i < j) : Before (.index i) (.index j)
  | instructions : Before (.field "instructions") (.field "input")

/-! ## Membership -/

/-- The segments of a content part. -/
lemma mem_pushPartOf_iff {type : String} {part : JsonValue} {path : List PathStep}
    {seg : ExtractedSegment} : seg ∈ pushPartOf type part path ↔
      part.get "type" = some (.str (jsString type)) ∧ part.get "text" = some (.str seg.text) ∧
        seg.path = path ++ [.field "text"] := by
  obtain ⟨text, p⟩ := seg
  unfold pushPartOf
  split
  · rename_i t text' ht htext
    rw [ht, htext]
    by_cases h : t = jsString type
    · rw [if_pos h, h]
      simp [eq_comm]
    · rw [if_neg h]
      simp [h]
  · rename_i hnot
    simp only [List.not_mem_nil, false_iff]
    rintro ⟨ht, htext, -⟩
    exact hnot _ _ ht htext

/-- The content that is walked is the property `content`. -/
lemma pushContent_eq (props : List (JsString × JsonValue)) (path : List PathStep) :
    pushContent props path = match (JsonValue.obj props).get "content" with
      | some value => pushParts value path
      | none => [] := by
  induction props with
  | nil => rfl
  | cons p props ih =>
    obtain ⟨key, value⟩ := p
    rw [pushContent, JsonValue.get, List.find?_cons]
    by_cases hkey : key = jsString "content"
    · simp [hkey]
    · rw [if_neg hkey, ih]
      simp [hkey, JsonValue.get]

/-- The segments of one item: of a text part, or of the content of a message. -/
lemma mem_pushItem_iff {item : JsonValue} {path : List PathStep} {seg : ExtractedSegment} :
    seg ∈ pushItem item path ↔
      (IsTextPart item seg.text ∧ seg.path = path ++ [.field "text"]) ∨
        (isMessageItem item = true ∧ ∃ content, item.get "content" = some content ∧
          seg ∈ pushParts content (path ++ [.field "content"])) := by
  cases item with
  | obj props =>
    rw [pushItem]
    simp only [List.mem_append, mem_pushPartOf_iff]
    refine or_congr ?_ ?_
    · constructor
      · rintro ((⟨ht, htext, hpath⟩ | ⟨ht, htext, hpath⟩) | ⟨ht, htext, hpath⟩)
        · exact ⟨⟨_, .inl rfl, ht, htext⟩, hpath⟩
        · exact ⟨⟨_, .inr (.inl rfl), ht, htext⟩, hpath⟩
        · exact ⟨⟨_, .inr (.inr rfl), ht, htext⟩, hpath⟩
      · rintro ⟨⟨type, rfl | rfl | rfl, ht, htext⟩, hpath⟩
        · exact .inl (.inl ⟨ht, htext, hpath⟩)
        · exact .inl (.inr ⟨ht, htext, hpath⟩)
        · exact .inr ⟨ht, htext, hpath⟩
    · split
      · rename_i hmessage
        rw [pushContent_eq]
        cases hcontent : (JsonValue.obj props).get "content" with
        | none => simp [hmessage]
        | some value => simp [hmessage]
      · rename_i hmessage
        simp [hmessage]
  | _ =>
    simp [pushItem, IsTextPart, JsonValue.get, isMessageItem]

/-- The segments of a list of items, by their indices. -/
lemma mem_pushItems_iff {items : List JsonValue} {path : List PathStep} {k : ℕ}
    {seg : ExtractedSegment} : seg ∈ pushItems items path k ↔
      ∃ i item, items[i]? = some item ∧ seg ∈ pushItem item (path ++ [.index (k + i)]) := by
  induction items generalizing k with
  | nil => simp [pushItems]
  | cons item rest ih =>
    rw [pushItems, List.mem_append, ih]
    constructor
    · rintro (h | ⟨i, item', hi, h⟩)
      · exact ⟨0, item, rfl, h⟩
      · exact ⟨i + 1, item', hi, by rwa [Nat.add_right_comm, Nat.add_assoc] at h⟩
    · rintro ⟨i, item', hi, h⟩
      cases i with
      | zero =>
        obtain rfl := Option.some.inj hi
        exact .inl h
      | succ i => exact .inr ⟨i, item', hi, by rwa [Nat.add_right_comm, Nat.add_assoc]⟩

/-- **The walk takes the texts of the items and nothing else.** -/
lemma mem_pushParts_iff (v : JsonValue) : ∀ items, v = .arr items → ∀ path seg,
    seg ∈ pushItems items path 0 ↔ ∃ p, seg.path = path ++ p ∧ TextAt items p seg.text := by
  suffices h : ∀ v : JsonValue, (∀ items, v = .arr items → ∀ path seg,
      seg ∈ pushItems items path 0 ↔ ∃ p, seg.path = path ++ p ∧ TextAt items p seg.text) ∧
        ∀ inner, v.get "content" = some (.arr inner) → ∀ path seg,
          seg ∈ pushItems inner path 0 ↔ ∃ p, seg.path = path ++ p ∧ TextAt inner p seg.text from
    (h v).1
  intro v
  induction v using JsonValue.inductionOn with
  | null | bool | num | str => exact ⟨nofun, nofun⟩
  | obj props ih =>
    refine ⟨nofun, fun inner hinner => ?_⟩
    rw [JsonValue.get, Option.map_eq_some_iff] at hinner
    obtain ⟨p, hp, hvalue⟩ := hinner
    exact (ih p (List.mem_of_find?_eq_some hp)).1 inner hvalue
  | arr items ih =>
    refine ⟨?_, nofun⟩
    rintro items' ⟨⟩ path seg
    simp only [mem_pushItems_iff, mem_pushItem_iff, Nat.zero_add, List.append_assoc,
      List.singleton_append]
    constructor
    · rintro ⟨i, item, hi, ⟨hpart, hpath⟩ | ⟨hmessage, content, hcontent, hseg⟩⟩
      · exact ⟨_, hpath, .part hi hpart⟩
      · cases content with
        | str text =>
          obtain rfl := List.mem_singleton.mp hseg
          exact ⟨_, rfl, .content hi hmessage hcontent⟩
        | arr inner =>
          have hinner := (ih item (List.mem_of_getElem? hi)).2 inner hcontent
          obtain ⟨p, hp, hat⟩ := (hinner _ seg).mp hseg
          exact ⟨_, by rw [hp]; simp, .nested hi hmessage hcontent hat⟩
        | _ => exact absurd hseg List.not_mem_nil
    · rintro ⟨p, hp, hat⟩
      cases hat with
      | part hi hpart => exact ⟨_, _, hi, .inl ⟨hpart, hp⟩⟩
      | content hi hmessage hcontent =>
        refine ⟨_, _, hi, .inr ⟨hmessage, _, hcontent, List.mem_singleton.mpr ?_⟩⟩
        rw [← hp]
      | nested hi hmessage hcontent hat =>
        have hinner := (ih _ (List.mem_of_getElem? hi)).2 _ hcontent
        refine ⟨_, _, hi, .inr ⟨hmessage, _, hcontent, (hinner _ seg).mpr ⟨_, ?_, hat⟩⟩⟩
        rw [hp]
        simp

/-! ## One item at a time -/

/-- A text part is no message. -/
lemma IsTextPart.not_message {item : JsonValue} {text : JsString} (h : IsTextPart item text) :
    isMessageItem item = false := by
  obtain ⟨type, htype, ht, -⟩ := h
  have hne : decide (jsString type = jsString "message") = false := by
    rcases htype with rfl | rfl | rfl <;> decide
  rw [isMessageItem, ht]
  exact hne

/-- An item gives nothing, or is a text part, or is a message whose content is walked. -/
lemma pushItem_cases (item : JsonValue) :
    (∃ text, IsTextPart item text ∧
        ∀ path, pushItem item path = [⟨text, path ++ [.field "text"]⟩]) ∨
      (isMessageItem item = true ∧ ∀ path, pushItem item path =
        match item.get "content" with
        | some content => pushParts content (path ++ [.field "content"])
        | none => []) ∨
      ((∀ text, ¬IsTextPart item text) ∧ isMessageItem item = false ∧
        ∀ path, pushItem item path = []) := by
  by_cases hmessage : isMessageItem item = true
  · refine .inr (.inl ⟨hmessage, fun path => ?_⟩)
    have hpart : ∀ type : String, jsString "message" ≠ jsString type →
        pushPartOf type item path = [] := by
      intro type htype
      unfold pushPartOf
      split
      · rename_i t text ht _
        rw [isMessageItem, ht] at hmessage
        rw [if_neg (by rwa [of_decide_eq_true hmessage])]
      · rfl
    cases item with
    | obj props =>
      rw [pushItem, hpart _ (by decide), hpart _ (by decide), hpart _ (by decide), if_pos hmessage,
        pushContent_eq]
      rfl
    | _ => cases hmessage
  · rw [Bool.not_eq_true] at hmessage
    by_cases htext : ∃ text, IsTextPart item text
    · refine .inl ?_
      obtain ⟨text, htext⟩ := htext
      refine ⟨text, htext, fun path => ?_⟩
      obtain ⟨type, htype, ht, hs⟩ := htext
      cases item with
      | obj props =>
        rw [pushItem, hmessage]
        simp only [pushPartOf, ht, hs]
        rcases htype with rfl | rfl | rfl
        · rfl
        · rfl
        · rfl
      | _ => cases ht
    · refine .inr (.inr ⟨fun text h => htext ⟨text, h⟩, hmessage, fun path => ?_⟩)
      rw [List.eq_nil_iff_forall_not_mem]
      intro seg hseg
      rcases mem_pushItem_iff.mp hseg with ⟨h, -⟩ | ⟨h, -⟩
      · exact htext ⟨_, h⟩
      · rw [hmessage] at h
        cases h

/-! ## Document order -/

lemma PathStep.Before.ne {a b : PathStep} (h : a.Before b) : a ≠ b := by
  cases h with
  | index h => exact fun heq => h.ne (PathStep.index.inj heq)
  | instructions => decide

/-- No path comes before itself. -/
lemma not_lex_self (path : List PathStep) : ¬List.Lex PathStep.Before path path := by
  induction path with
  | nil => exact nofun
  | cons step path ih =>
    intro h
    cases h with
    | cons h => exact ih h
    | rel h => exact h.ne rfl

/-- Paths below the same one. -/
lemma lex_append (path : List PathStep) {i j : ℕ} (h : i < j) (p q : List PathStep) :
    List.Lex PathStep.Before (path ++ .index i :: p) (path ++ .index j :: q) :=
  (List.Lex.rel (.index h)).append_left _ _

/-- The segments of a walked value are below its path. -/
lemma exists_path_of_mem_pushParts {v : JsonValue} {path : List PathStep} {seg : ExtractedSegment}
    (h : seg ∈ pushParts v path) : ∃ p, seg.path = path ++ p := by
  cases v with
  | str text =>
    rw [List.mem_singleton.mp h]
    exact ⟨[], (List.append_nil path).symm⟩
  | arr items =>
    obtain ⟨p, hp, -⟩ := (mem_pushParts_iff _ items rfl path seg).mp h
    exact ⟨p, hp⟩
  | _ => exact absurd h List.not_mem_nil

lemma exists_path_of_mem_pushItem {item : JsonValue} {path : List PathStep}
    {seg : ExtractedSegment} (h : seg ∈ pushItem item path) : ∃ p, seg.path = path ++ p := by
  rcases mem_pushItem_iff.mp h with ⟨-, hp⟩ | ⟨-, content, -, hseg⟩
  · exact ⟨_, hp⟩
  · obtain ⟨p, hp⟩ := exists_path_of_mem_pushParts hseg
    exact ⟨_, by rw [hp, List.append_assoc]⟩

/-- The segments of items are in order if those of each item are. -/
lemma pushItems_pairwise {items : List JsonValue} {path : List PathStep} {k : ℕ}
    (h : ∀ item ∈ items, ∀ path, (pushItem item path).Pairwise fun a b =>
      List.Lex PathStep.Before a.path b.path) :
    (pushItems items path k).Pairwise fun a b => List.Lex PathStep.Before a.path b.path := by
  induction items generalizing k with
  | nil => exact List.Pairwise.nil
  | cons item rest ih =>
    rw [pushItems, List.pairwise_append]
    refine ⟨h item List.mem_cons_self _, ih fun v hv => h v (List.mem_cons_of_mem _ hv), ?_⟩
    intro a ha b hb
    obtain ⟨p, hp⟩ := exists_path_of_mem_pushItem ha
    obtain ⟨i, item', -, hb'⟩ := mem_pushItems_iff.mp hb
    obtain ⟨q, hq⟩ := exists_path_of_mem_pushItem hb'
    rw [hp, hq, List.append_assoc, List.append_assoc]
    exact lex_append path (by omega) p q

/-- **The walk goes in document order.** -/
lemma pushParts_pairwise (v : JsonValue) (path : List PathStep) :
    (pushParts v path).Pairwise fun a b => List.Lex PathStep.Before a.path b.path := by
  suffices h : ∀ v : JsonValue, (∀ path, (pushParts v path).Pairwise fun a b =>
      List.Lex PathStep.Before a.path b.path) ∧ ∀ path, (pushItem v path).Pairwise fun a b =>
        List.Lex PathStep.Before a.path b.path from (h v).1 path
  intro v
  induction v using JsonValue.inductionOn with
  | null | bool | num => exact ⟨fun _ => List.Pairwise.nil, fun _ => List.Pairwise.nil⟩
  | str text => exact ⟨fun _ => List.pairwise_singleton _ _, fun _ => List.Pairwise.nil⟩
  | arr items ih =>
    exact ⟨fun path => pushItems_pairwise fun item hitem => (ih item hitem).2,
      fun _ => List.Pairwise.nil⟩
  | obj props ih =>
    refine ⟨fun _ => List.Pairwise.nil, fun path => ?_⟩
    rcases pushItem_cases (.obj props) with ⟨text, -, h⟩ | ⟨-, h⟩ | ⟨-, -, h⟩
    · rw [h]
      exact List.pairwise_singleton _ _
    · rw [h]
      cases hcontent : (JsonValue.obj props).get "content" with
      | none => exact List.Pairwise.nil
      | some content =>
        rw [JsonValue.get, Option.map_eq_some_iff] at hcontent
        obtain ⟨p, hp, rfl⟩ := hcontent
        exact (ih p (List.mem_of_find?_eq_some hp)).1 _
    · rw [h]
      exact List.Pairwise.nil

/-! ## The texts -/

/-- The texts of an item. -/
def itemTexts (item : JsonValue) : List JsString := (pushItem item []).map ExtractedSegment.text

/-- The texts of a walked value. -/
def partTexts (v : JsonValue) : List JsString := (pushParts v []).map ExtractedSegment.text

/-- The texts of items, if those of each item do not depend on the path. -/
lemma pushItems_texts {items : List JsonValue} {path : List PathStep} {k : ℕ}
    (h : ∀ item ∈ items, ∀ path, (pushItem item path).map ExtractedSegment.text = itemTexts item) :
    (pushItems items path k).map ExtractedSegment.text = items.flatMap itemTexts := by
  induction items generalizing k with
  | nil => rfl
  | cons item rest ih =>
    rw [pushItems, List.map_append, List.flatMap_cons, h item List.mem_cons_self,
      ih fun v hv => h v (List.mem_cons_of_mem _ hv)]

/-- The texts do not depend on the path. -/
lemma texts_eq (v : JsonValue) :
    (∀ path, (pushParts v path).map ExtractedSegment.text = partTexts v) ∧
      ∀ path, (pushItem v path).map ExtractedSegment.text = itemTexts v := by
  induction v using JsonValue.inductionOn with
  | null | bool | num | str => exact ⟨fun _ => rfl, fun _ => rfl⟩
  | arr items ih =>
    have hitems := fun item hitem => (ih item hitem).2
    refine ⟨fun path => ?_, fun _ => rfl⟩
    rw [partTexts, pushParts, pushParts, pushItems_texts hitems, pushItems_texts hitems]
  | obj props ih =>
    refine ⟨fun _ => rfl, fun path => ?_⟩
    rw [itemTexts]
    rcases pushItem_cases (.obj props) with ⟨text, -, h⟩ | ⟨-, h⟩ | ⟨-, -, h⟩
    · rw [h, h]
      rfl
    · rw [h, h]
      cases hcontent : (JsonValue.obj props).get "content" with
      | none => rfl
      | some content =>
        rw [JsonValue.get, Option.map_eq_some_iff] at hcontent
        obtain ⟨p, hp, rfl⟩ := hcontent
        exact ((ih p (List.mem_of_find?_eq_some hp)).1 _).trans
          ((ih p (List.mem_of_find?_eq_some hp)).1 _).symm
    · rw [h, h]

lemma partTexts_arr (items : List JsonValue) : partTexts (.arr items) = items.flatMap itemTexts :=
  pushItems_texts fun item _ => (texts_eq item).2

/-- A text part gives its text. -/
lemma itemTexts_of_part {item : JsonValue} {text : JsString} (h : IsTextPart item text) :
    itemTexts item = [text] := by
  rcases pushItem_cases item with ⟨text', h', hitem⟩ | ⟨hmessage, -⟩ | ⟨hnot, -⟩
  · rw [itemTexts, hitem]
    obtain ⟨_, _, _, htext⟩ := h
    obtain ⟨_, _, _, htext'⟩ := h'
    have heq : text' = text := JsonValue.str.inj (Option.some.inj (htext'.symm.trans htext))
    rw [heq]
    rfl
  · rw [h.not_message] at hmessage
    cases hmessage
  · exact absurd h (hnot text)

/-- A message gives the texts of its content. -/
lemma itemTexts_of_message {item : JsonValue} (h : isMessageItem item = true) :
    itemTexts item = match item.get "content" with
      | some content => partTexts content
      | none => [] := by
  rcases pushItem_cases item with ⟨text, hpart, -⟩ | ⟨-, hitem⟩ | ⟨-, hnot, -⟩
  · rw [hpart.not_message] at h
    cases h
  · rw [itemTexts, hitem]
    cases item.get "content" with
    | none => rfl
    | some content => exact (texts_eq content).1 _
  · rw [hnot] at h
    cases h

/-! ## Spellings -/

/-- A part of a body that the walk looks at: a walked value, the items of a list, or one item. -/
inductive Walked where
  | content (v : JsonValue)
  | items (items : List JsonValue)
  | item (item : JsonValue)

/-- The texts of a part of a body. -/
def Walked.texts : Walked → List JsString
  | content v => partTexts v
  | items l => l.flatMap itemTexts
  | item v => itemTexts v

/-- Two parts of a body that differ in the spelling of their messages only: any of the types of a text
part, a message with its type or with its role only, a string or a list with one text part, a string
or a list with one message. -/
inductive SameSpelling : Walked → Walked → Prop
  | refl (w : Walked) : SameSpelling w w
  | symm {w w' : Walked} (h : SameSpelling w w') : SameSpelling w' w
  | trans {w w' w'' : Walked} (h : SameSpelling w w') (h' : SameSpelling w' w'') : SameSpelling w w''
  | part {a b : JsonValue} {text : JsString} (ha : IsTextPart a text) (hb : IsTextPart b text) :
      SameSpelling (.item a) (.item b)
  | message {a b v v' : JsonValue} (ha : isMessageItem a = true) (hb : isMessageItem b = true)
      (hv : a.get "content" = some v) (hv' : b.get "content" = some v')
      (h : SameSpelling (.content v) (.content v')) : SameSpelling (.item a) (.item b)
  | emptyMessage {a b : JsonValue} (ha : isMessageItem a = true) (hb : isMessageItem b = true)
      (hv : a.get "content" = none) (hv' : b.get "content" = none) : SameSpelling (.item a) (.item b)
  | stringPart {text : JsString} {item : JsonValue} (h : IsTextPart item text) :
      SameSpelling (.content (.str text)) (.content (.arr [item]))
  | stringMessage {text : JsString} {item v : JsonValue} (hitem : isMessageItem item = true)
      (hv : item.get "content" = some v) (h : SameSpelling (.content (.str text)) (.content v)) :
      SameSpelling (.content (.str text)) (.content (.arr [item]))
  | list {l l' : List JsonValue} (h : SameSpelling (.items l) (.items l')) :
      SameSpelling (.content (.arr l)) (.content (.arr l'))
  | cons {a b : JsonValue} {l l' : List JsonValue} (h : SameSpelling (.item a) (.item b))
      (hl : SameSpelling (.items l) (.items l')) : SameSpelling (.items (a :: l)) (.items (b :: l'))

/-- Two Responses bodies that differ in the spelling of their input only. -/
def SameRequest (body body' : JsonValue) : Prop :=
  body.get "instructions" = body'.get "instructions" ∧
    ((body.get "input" = none ∧ body'.get "input" = none) ∨
      ∃ v v', body.get "input" = some v ∧ body'.get "input" = some v' ∧
        SameSpelling (.content v) (.content v'))

/-- Parts that differ in their spelling only have the same texts. -/
lemma SameSpelling.texts_eq {w w' : Walked} (h : SameSpelling w w') : w.texts = w'.texts := by
  induction h with
  | refl => rfl
  | symm _ ih => exact ih.symm
  | trans _ _ ih ih' => exact ih.trans ih'
  | part ha hb => exact (itemTexts_of_part ha).trans (itemTexts_of_part hb).symm
  | message ha hb hv hv' _ ih =>
    rw [Walked.texts, Walked.texts, itemTexts_of_message ha, itemTexts_of_message hb, hv, hv']
    exact ih
  | emptyMessage ha hb hv hv' =>
    rw [Walked.texts, Walked.texts, itemTexts_of_message ha, itemTexts_of_message hb, hv, hv']
  | stringPart h =>
    rw [Walked.texts, Walked.texts, partTexts_arr, List.flatMap_singleton, itemTexts_of_part h]
    rfl
  | stringMessage hitem hv _ ih =>
    refine ih.trans ?_
    rw [Walked.texts, Walked.texts, partTexts_arr, List.flatMap_singleton,
      itemTexts_of_message hitem, hv]
  | list _ ih =>
    rw [Walked.texts, Walked.texts, partTexts_arr, partTexts_arr]
    exact ih
  | cons _ _ ih ih' =>
    rw [Walked.texts, Walked.texts, List.flatMap_cons, List.flatMap_cons]
    exact congrArg₂ _ ih ih'

/-! ## The three laws -/

/-- The texts of the instructions of a body. -/
def instructionTexts (body : JsonValue) : List JsString :=
  match body.get "instructions" with
  | some (.str text) => [text]
  | _ => []

/-- The texts of a Responses body. -/
lemma extractOpenAIResponsesText_texts (body : JsonValue) :
    (extractOpenAIResponsesText body).map ExtractedSegment.text = instructionTexts body ++
      match body.get "input" with
      | some v => partTexts v
      | none => [] := by
  rw [extractOpenAIResponsesText, List.map_append, instructionTexts]
  refine congrArg₂ _ ?_ ?_
  · split <;> rfl
  · cases body.get "input" with
    | none => rfl
    | some v =>
      cases v with
      | arr items => exact (texts_eq (.arr items)).1 _
      | _ => rfl

/-- The segments of a Responses body are its texts at their paths. -/
lemma mem_extractOpenAIResponsesText_iff {body : JsonValue} {seg : ExtractedSegment} :
    seg ∈ extractOpenAIResponsesText body ↔ IsTextOf body seg.path seg.text := by
  obtain ⟨text, path⟩ := seg
  rw [extractOpenAIResponsesText, List.mem_append]
  constructor
  · rintro (h | h)
    · split at h
      · rename_i hinstructions
        cases List.mem_singleton.mp h
        exact .instructions hinstructions
      · cases h
    · split at h
      · rename_i hinput
        cases List.mem_singleton.mp h
        exact .input hinput
      · rename_i items hinput
        obtain ⟨p, hp, hat⟩ := (mem_pushParts_iff _ items rfl _ _).mp h
        obtain rfl : path = .field "input" :: p := hp
        exact .item hinput hat
      · cases h
  · intro h
    cases h with
    | instructions h => exact .inl (by rw [h]; exact List.mem_singleton_self _)
    | input h => exact .inr (by rw [h]; exact List.mem_singleton_self _)
    | item hinput hat =>
      refine .inr ?_
      rw [hinput]
      exact (mem_pushParts_iff _ _ rfl [.field "input"] ⟨text, _⟩).mpr ⟨_, rfl, hat⟩

/-- The segments of a Responses body are in document order, the instructions first. -/
lemma extractOpenAIResponsesText_pairwise (body : JsonValue) :
    (extractOpenAIResponsesText body).Pairwise fun a b =>
      List.Lex PathStep.Before a.path b.path := by
  have hinput : ∀ seg ∈ (match body.get "input" with
      | some (.str text) => [(⟨text, [.field "input"]⟩ : ExtractedSegment)]
      | some (.arr items) => pushParts (.arr items) [.field "input"]
      | _ => []), ∃ p, seg.path = .field "input" :: p := by
    intro seg hseg
    split at hseg
    · rw [List.mem_singleton.mp hseg]
      exact ⟨[], rfl⟩
    · exact exists_path_of_mem_pushParts hseg
    · cases hseg
  rw [extractOpenAIResponsesText, List.pairwise_append]
  refine ⟨?_, ?_, ?_⟩
  · split
    · exact List.pairwise_singleton _ _
    · exact List.Pairwise.nil
  · split
    · exact List.pairwise_singleton _ _
    · exact pushParts_pairwise _ _
    · exact List.Pairwise.nil
  · intro a ha b hb
    obtain ⟨p, hp⟩ := hinput b hb
    split at ha
    · rw [List.mem_singleton.mp ha, hp]
      exact .rel .instructions
    · cases ha

/-- No path occurs twice. -/
lemma extractOpenAIResponsesText_nodup (body : JsonValue) :
    ((extractOpenAIResponsesText body).map ExtractedSegment.path).Nodup := by
  refine List.pairwise_map.mpr ((extractOpenAIResponsesText_pairwise body).imp ?_)
  intro a b h heq
  rw [heq] at h
  exact not_lex_self _ h

/-- The texts of the messages of a Chat Completions body. -/
lemma extractOpenAIChatCompletionsText_texts {body : JsonValue} {messages : List JsonValue}
    (h : body.get "messages" = some (.arr messages))
    (hmessages : ∀ m ∈ messages, isMessageItem m = true) :
    (extractOpenAIChatCompletionsText body).map ExtractedSegment.text =
      messages.flatMap itemTexts := by
  have hmessage : ∀ m ∈ messages, ∀ path,
      (chatMessageSegments m path).map ExtractedSegment.text = itemTexts m := by
    intro m hm path
    rw [itemTexts_of_message (hmessages m hm), chatMessageSegments]
    cases m.get "content" with
    | none => rfl
    | some v =>
      cases v with
      | arr parts => exact (texts_eq (.arr parts)).1 _
      | _ => rfl
  rw [extractOpenAIChatCompletionsText, h]
  dsimp only
  rw [List.map_flatMap]
  have hzip : ∀ k, (messages.zipIdx k).flatMap (fun p =>
      (chatMessageSegments p.1 [.field "messages", .index p.2, .field "content"]).map
        ExtractedSegment.text) = messages.flatMap itemTexts := by
    clear h hmessages
    induction messages with
    | nil => exact fun _ => rfl
    | cons m messages ih =>
      intro k
      rw [List.zipIdx_cons, List.flatMap_cons, List.flatMap_cons,
        hmessage m List.mem_cons_self, ih fun m' hm' => hmessage m' (List.mem_cons_of_mem _ hm')]
  exact hzip 0

/-- **Extraction does not depend on the spelling of a request.**  Bodies that differ in the spelling of
their messages have the same texts; the texts are the instructions, the texts of the message items at
any depth and the text parts in `input`, each once and in document order; and for role-carrying
messages they are, up to the instructions, those of the Chat Completions body with these messages. -/
theorem responses_extraction_law :
    (∀ body body', SameRequest body body' →
      (extractOpenAIResponsesText body).map ExtractedSegment.text =
        (extractOpenAIResponsesText body').map ExtractedSegment.text) ∧
    (∀ body, (∀ path text, ⟨text, path⟩ ∈ extractOpenAIResponsesText body ↔
        IsTextOf body path text) ∧
      ((extractOpenAIResponsesText body).map ExtractedSegment.path).Nodup ∧
      (extractOpenAIResponsesText body).Pairwise fun a b =>
        List.Lex PathStep.Before a.path b.path) ∧
    ∀ body body' messages, body.get "input" = some (.arr messages) →
      body'.get "messages" = some (.arr messages) →
        (∀ m ∈ messages, isMessageItem m = true ∧ ∃ role, m.get "role" = some (.str role)) →
          (extractOpenAIResponsesText body).map ExtractedSegment.text = instructionTexts body ++
            (extractOpenAIChatCompletionsText body').map ExtractedSegment.text := by
  refine ⟨?_, ?_, ?_⟩
  · rintro body body' ⟨hinstructions, ⟨hnone, hnone'⟩ | ⟨v, v', hv, hv', h⟩⟩
    · rw [extractOpenAIResponsesText_texts, extractOpenAIResponsesText_texts, hnone, hnone',
        instructionTexts, instructionTexts, hinstructions]
    · rw [extractOpenAIResponsesText_texts, extractOpenAIResponsesText_texts, hv, hv',
        instructionTexts, instructionTexts, hinstructions]
      exact congrArg _ h.texts_eq
  · exact fun body => ⟨fun path text => mem_extractOpenAIResponsesText_iff,
      extractOpenAIResponsesText_nodup body, extractOpenAIResponsesText_pairwise body⟩
  · intro body body' messages hinput hmessages hroles
    rw [extractOpenAIResponsesText_texts, hinput,
      extractOpenAIChatCompletionsText_texts hmessages fun m hm => (hroles m hm).1]
    exact congrArg _ (partTexts_arr messages)

/-- A body whose input is a string, and one whose input is a message without a type. -/
theorem responses_extraction_law_sample :
    (extractOpenAIResponsesText (.obj [(jsString "input", .text "hi")])).map ExtractedSegment.text =
      (extractOpenAIResponsesText (.obj [(jsString "input", .arr [.obj
        [(jsString "role", .text "user"), (jsString "content", .arr [.obj
          [(jsString "type", .text "input_text"), (jsString "text", .text "hi")]])]])])).map
            ExtractedSegment.text := by
  refine responses_extraction_law.1 _ _ ⟨rfl, .inr ⟨_, _, rfl, rfl, .stringMessage rfl rfl ?_⟩⟩
  exact .stringPart ⟨"input_text", .inr (.inl rfl), rfl, rfl⟩

end GovAI
