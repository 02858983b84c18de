import GovAI.Console.Conversation
import GovAI.Console.Sse
import GovAI.Json.Texts

/-!
# The accumulators of the three surfaces

`createMessagesAccumulator`, `createResponsesAccumulator` and `createChatCompletionsAccumulator` of
`features/ai/providers`, with the extraction of provider errors.  An accumulator folds the frames of
a stream into what the turn may show.
-/

namespace GovAI.Console

/-! ## Values -/

/-- `typeof v === 'object' && v !== null`. -/
def isObjectLike : JsonValue → Bool
  | .obj _ | .arr _ => true
  | _ => false

/-- A property that is an object. -/
def objectAt (v : JsonValue) (key : String) : Option JsonValue := (v.get key).filter isObjectLike

/-- A property that is a text and not empty. -/
def nonemptyAt (v : JsonValue) (key : String) : Option JsString := nonempty (v.textAt key)

/-! ## Provider errors -/

/-- `SafeProviderError`. -/
structure SafeProviderError where
  type : Option JsString
  code : Option JsString
  message : Option JsString
  status : Option ℕ
deriving DecidableEq

/-- The white space that `trim` removes from a string. -/
def isSpaceUnit (u : UInt16) : Bool := isJsSpace (Char.ofNat u.toNat)

/-- `trim()` of a string. -/
def trimUnits (s : JsString) : JsString := (s.dropWhile isSpaceUnit).rdropWhile isSpaceUnit

/-- `PROVIDER_ERROR_FIELD_MAX`. -/
def providerErrorFieldMax : ℕ := 400

/-- `boundedString`. -/
def boundedString (value : Option JsonValue) : Option JsString :=
  match value with
  | some (.str s) =>
    if trimUnits s = [] then none
    else if providerErrorFieldMax < (trimUnits s).length then
      some ((trimUnits s).take providerErrorFieldMax ++ jsString "…")
    else some (trimUnits s)
  | _ => none

/-- `record['error'] ?? nested`. -/
def errorField (record : JsonValue) : Option JsonValue :=
  match record.get "error" with
  | none | some .null => (objectAt record "response").bind (·.get "error")
  | some v => some v

/-- `extractProviderError`. -/
def extractProviderError (body : Option JsonValue) (status : Option ℕ) : SafeProviderError :=
  match body.filter isObjectLike with
  | none => ⟨none, none, none, status⟩
  | some record =>
    match errorField record with
    | some (.str s) =>
      { type := none
        code := (boundedString (record.get "code")).or (boundedString (some (.str s)))
        message := boundedString (record.get "message")
        status }
    | field =>
      let source := (field.filter isObjectLike).getD record
      { type := boundedString (source.get "type")
        code := boundedString (source.get "code")
        message := boundedString (source.get "message")
        status }

/-! ## Snapshots -/

/-- `StreamTerminal`. -/
inductive StreamTerminal where
  | completed (stopReason : Option JsString)
  | error (error : SafeProviderError)
deriving DecidableEq

/-- `AccumulatorSnapshot`. -/
structure AccumulatorSnapshot where
  text : JsString := []
  refusal : Option JsString := none
  terminal : Option StreamTerminal := none
  unsupportedOutput : Bool := false
  providerMessageId : Option JsString := none
deriving DecidableEq

/-- `StreamAccumulator`. -/
structure StreamAccumulator where
  State : Type
  init : State
  accept : State → SseFrame → State
  snapshot : State → AccumulatorSnapshot

section Accept

variable (number : List Char → Option JsonNumber)

/-! ## Anthropic messages -/

/-- The variables of the accumulator; the last entry for an index is the first in `blockTypes`. -/
structure MessagesState extends AccumulatorSnapshot where
  blockTypes : List (JsonNumber × JsString) := []
  stopReason : Option JsString := none

/-- `TEXT_BLOCK`. -/
def textBlock : JsString := jsString "text"

/-- `SILENT_BLOCK_TYPES`. -/
def silentBlockTypes : List JsString := [jsString "thinking", jsString "redacted_thinking"]

/-- `indexOf`. -/
def indexOf (payload : JsonValue) : Option JsonNumber :=
  match payload.get "index" with
  | some (.num i) => some i
  | _ => none

/-- `blockTypes.get(index)`. -/
def MessagesState.blockType (st : MessagesState) (index : JsonNumber) : Option JsString :=
  (st.blockTypes.find? (·.1 = index)).map (·.2)

namespace MessagesState

/-- The case `message_start`. -/
def messageStart (st : MessagesState) (payload : Option JsonValue) : MessagesState :=
  let id := (payload.bind (objectAt · "message")).bind (nonemptyAt · "id")
  { st with providerMessageId := st.providerMessageId.or id }

/-- The case `content_block_start`. -/
def contentBlockStart (st : MessagesState) (payload : JsonValue) : MessagesState :=
  match (payload.get "content_block").bind (·.textAt "type") with
  | none => st
  | some blockType =>
    { st with
      blockTypes := (match indexOf payload with
        | some index => (index, blockType) :: st.blockTypes
        | none => st.blockTypes)
      unsupportedOutput := st.unsupportedOutput ||
        !(blockType = textBlock || silentBlockTypes.contains blockType)
      text :=
        if blockType = textBlock then
          st.text ++ ((payload.get "content_block").bind (·.textAt "text")).getD []
        else st.text }

/-- The case `content_block_delta`. -/
def contentBlockDelta (st : MessagesState) (payload : JsonValue) : MessagesState :=
  match objectAt payload "delta" with
  | none => st
  | some d =>
    let deltaType := d.textAt "type"
    if deltaType = some (jsString "thinking_delta") ∨
        deltaType = some (jsString "signature_delta") then st
    else if deltaType = some (jsString "text_delta") then
      if (indexOf payload).any (st.blockType · ≠ some textBlock) then
        { st with unsupportedOutput := true }
      else { st with text := st.text ++ (d.textAt "text").getD [] }
    else { st with unsupportedOutput := true }

/-- The case `message_delta`. -/
def messageDelta (st : MessagesState) (payload : Option JsonValue) : MessagesState :=
  let reason := (payload.bind (objectAt · "delta")).bind (nonemptyAt · "stop_reason")
  { st with stopReason := reason.or st.stopReason }

/-- `accept` for a frame of a type. -/
def acceptType (st : MessagesState) (payload : Option JsonValue) (type : JsString) :
    MessagesState :=
  if type = jsString "message_start" then st.messageStart payload
  else if type = jsString "content_block_start" then (payload.map st.contentBlockStart).getD st
  else if type = jsString "content_block_delta" then (payload.map st.contentBlockDelta).getD st
  else if type = jsString "message_delta" then st.messageDelta payload
  else if type = jsString "message_stop" then
    { st with terminal := some (.completed st.stopReason) }
  else if type = jsString "error" then
    { st with terminal := some (.error (extractProviderError payload none)) }
  else st

/-- `accept`. -/
def accept (st : MessagesState) (frame : SseFrame) : MessagesState :=
  if st.terminal.isSome then st
  else
    match frameType frame (parseFrameJson number frame.data) with
    | none => st
    | some type => st.acceptType (parseFrameJson number frame.data) type

end MessagesState

/-- `createMessagesAccumulator`. -/
def messagesAccumulator : StreamAccumulator where
  State := MessagesState
  init := {}
  accept := MessagesState.accept number
  snapshot := MessagesState.toAccumulatorSnapshot

/-! ## OpenAI responses -/

/-- `RENDERABLE_ITEM_TYPES`. -/
def renderableItemTypes : List JsString := [jsString "message", jsString "reasoning"]

/-- `isReasoningEvent`. -/
def isReasoningEvent (type : JsString) : Bool := (jsString "response.reasoning").isPrefixOf type

/-- `readResponseId`. -/
def readResponseId (payload : JsonValue) : Option JsString :=
  (objectAt payload "response").bind (nonemptyAt · "id")

/-- `incompleteReason`. -/
def incompleteReason (payload : Option JsonValue) : Option JsString :=
  ((payload.bind (objectAt · "response")).bind (objectAt · "incomplete_details")).bind
    (nonemptyAt · "reason")

namespace AccumulatorSnapshot

/-- `providerMessageId ??= readResponseId(payload)`. -/
def noteResponse (st : AccumulatorSnapshot) (payload : Option JsonValue) : AccumulatorSnapshot :=
  { st with providerMessageId := st.providerMessageId.or (payload.bind readResponseId) }

/-- `accept` for a frame of a type that is no reasoning event. -/
def acceptType (st : AccumulatorSnapshot) (payload : Option JsonValue) (type : JsString) :
    AccumulatorSnapshot :=
  if type = jsString "response.created" ∨ type = jsString "response.in_progress" then
    st.noteResponse payload
  else if type = jsString "response.output_text.delta" then
    { st with text := st.text ++ (payload.bind (·.textAt "delta")).getD [] }
  else if type = jsString "response.refusal.delta" then
    match payload.bind (·.textAt "delta") with
    | none => st
    | some delta => { st with refusal := some (st.refusal.getD [] ++ delta) }
  else if type = jsString "response.output_item.added" then
    let itemType := (payload.bind (·.get "item")).bind (·.textAt "type")
    { st with
      unsupportedOutput := st.unsupportedOutput || itemType.any (!renderableItemTypes.contains ·) }
  else if type = jsString "response.completed" then
    { st.noteResponse payload with terminal := some (.completed none) }
  else if type = jsString "response.incomplete" then
    { st.noteResponse payload with terminal := some (.completed (incompleteReason payload)) }
  else if type = jsString "response.failed" ∨ type = jsString "error" then
    { st with terminal := some (.error (extractProviderError payload none)) }
  else st

/-- `accept`. -/
def accept (st : AccumulatorSnapshot) (frame : SseFrame) : AccumulatorSnapshot :=
  if st.terminal.isSome then st
  else
    match frameType frame (parseFrameJson number frame.data) with
    | none => st
    | some type =>
      if isReasoningEvent type then st
      else st.acceptType (parseFrameJson number frame.data) type

end AccumulatorSnapshot

/-- `createResponsesAccumulator`. -/
def responsesAccumulator : StreamAccumulator where
  State := AccumulatorSnapshot
  init := {}
  accept := AccumulatorSnapshot.accept number
  snapshot := id

/-! ## OpenAI chat completions -/

/-- The variables of the accumulator. -/
structure ChatState extends AccumulatorSnapshot where
  finishReason : Option JsString := none

/-- `CHAT_DONE_SENTINEL`. -/
def chatDoneSentinel : List Char := "[DONE]".toList

/-- `typeof index === 'number' && index !== 0`. -/
def isOtherChoice (choice : JsonValue) : Bool := (indexOf choice).any (· ≠ ⟨.int 0, by decide⟩)

namespace ChatState

/-- The loop body for a choice. -/
def acceptChoice (st : ChatState) (raw : JsonValue) : ChatState :=
  if isObjectLike raw = false then st
  else if isOtherChoice raw then { st with unsupportedOutput := true }
  else
    let st := { st with finishReason := (nonemptyAt raw "finish_reason").or st.finishReason }
    match objectAt raw "delta" with
    | none => st
    | some d =>
      { st with
        text := st.text ++ (d.textAt "content").getD []
        refusal := (match d.textAt "refusal" with
          | none => st.refusal
          | some refusal => some (st.refusal.getD [] ++ refusal)) }

/-- `accept`. -/
def accept (st : ChatState) (frame : SseFrame) : ChatState :=
  if st.terminal.isSome then st
  else if jsTrim frame.data = chatDoneSentinel then
    { st with terminal := some (.completed st.finishReason) }
  else
    match parseFrameJson number frame.data with
    | none => st
    | some payload =>
      if (payload.get "error").isSome then
        { st with terminal := some (.error (extractProviderError (some payload) none)) }
      else
        let st := { st with providerMessageId := st.providerMessageId.or (nonemptyAt payload "id") }
        match payload.get "choices" with
        | some (.arr choices) => choices.foldl acceptChoice st
        | _ => st

end ChatState

/-- `createChatCompletionsAccumulator`. -/
def chatCompletionsAccumulator : StreamAccumulator where
  State := ChatState
  init := {}
  accept := ChatState.accept number
  snapshot := ChatState.toAccumulatorSnapshot

/-- `createAccumulator` of the adapter of a surface. -/
def createAccumulator : SurfaceId → StreamAccumulator
  | .messages => messagesAccumulator number
  | .responses => responsesAccumulator number
  | .chatCompletions => chatCompletionsAccumulator number

end Accept

end GovAI.Console
