import GovAI.Adapters.Entry
import GovAI.Json.Parse
import GovAI.Library.Fallible

/-!
# The adapter of the Messages API

`anthropic-messages.ts`: the reassembly of a streamed answer event by event, the replay law that a
reassembled and a stored answer share, and the build of a request from the whole history.  The maps of
the reassembler that are keyed by the index of a block are one map here, to the record of the block.
-/

namespace GovAI

namespace JsonValue

/-- A property is an object. -/
def objectAt (v : JsonValue) (key : String) : Bool := (v.get key).any isObject

/-- The value of a property that is a number. -/
def numberAt (v : JsonValue) (key : String) : Option JsonNumber :=
  match v.get key with
  | some (.num x) => some x
  | _ => none

end JsonValue

namespace Messages

/-! ## Failures -/

/-- What the reassembly throws: `UnreplayableStream`, `ProviderFailedStream`, or a `TypeError` of the
language. -/
inductive StreamFailure where
  | unreplayable (detail : String)
  | providerFailed
  | typeError
deriving DecidableEq

/-- Throw `UnreplayableStream` under a condition. -/
abbrev refuseIf (p : Prop) [Decidable p] (detail : String) : Except StreamFailure Unit :=
  rejectIf p (.unreplayable detail)

/-! ## The laws of both transports -/

/-- `roleInvalid`. -/
def roleInvalid : Option JsonValue → Bool
  | none => false
  | some (.str role) => role ≠ jsString "assistant"
  | some _ => true

/-- `providerModelOf`. -/
def providerModelOf (message : JsonValue) : Except StreamFailure (Option JsString) :=
  match message.get "model" with
  | none => .ok none
  | some (.str model) => .ok (some model)
  | some _ => .error (.unreplayable "message_model_not_string")

/-- `citationsInvalid`. -/
def citationsInvalid : Option JsonValue → Bool
  | none => false
  | some .null => false
  | some (.arr citations) => citations.any fun c => !c.isObject
  | some _ => true

/-- `opening` of a field that a delta replaces. -/
inductive SeedOpening where
  | emptyString
  | emptyObject

/-- `replacedSeedCarriesEvidence`. -/
def replacedSeedCarriesEvidence : Option JsonValue → SeedOpening → Bool
  | none, _ => false
  | some (.str s), .emptyString => s ≠ []
  | some _, .emptyString => true
  | some (.obj props), .emptyObject => !props.isEmpty
  | some _, .emptyObject => true

/-- `phase`. -/
inductive BlockPhase where
  | start
  | final
deriving DecidableEq

/-- The `type` of a value is the given text. -/
def isType (v : JsonValue) (type : String) : Bool := v.textAt "type" = some (jsString type)

/-- The block is one of the tool calls. -/
def isToolUse (block : JsonValue) : Bool :=
  isType block "tool_use" || isType block "server_tool_use" || isType block "mcp_tool_use"

/-- `blockPayloadInvalid`. -/
def blockPayloadInvalid (block : JsonValue) (phase : BlockPhase) : Bool :=
  (isType block "text" &&
    ((block.textAt "text").isNone || citationsInvalid (block.get "citations"))) ||
  (isType block "thinking" &&
    ((block.textAt "thinking").isNone || (phase = .final && (block.textAt "signature").isNone))) ||
  (isType block "redacted_thinking" && (block.textAt "data").isNone) ||
  (isToolUse block &&
    ((block.textAt "id").isNone || (block.textAt "name").isNone || !block.objectAt "input"))

/-- The checks of one block in `validateReplayableMessage`. -/
def validateBlock (block : JsonValue) : Except StreamFailure Unit := do
  refuseIf (¬block.isObject) "content_block_not_object"
  refuseIf ((block.textAt "type").isNone) "content_block_type_invalid"
  refuseIf (blockPayloadInvalid block .final) "content_block_payload_invalid"

/-- `validateReplayableMessage`. -/
def validateReplayableMessage (role : Option JsonValue) (content : List JsonValue) :
    Except StreamFailure Unit := do
  refuseIf (roleInvalid role) "message_role_not_assistant"
  rejectIf (content = []) .providerFailed
  content.forM validateBlock

/-! ## The blocks of a stream -/

/-- What the reassembler keeps for the index of a block. -/
structure BlockState where
  block : JsonValue
  partialJson : Option JsString
  isOpen : Bool
  isSigned : Bool

/-- `expectation`: the block types that a delta of a known type belongs to. -/
def deltaBlockTypes : List (String × List String) :=
  [("text_delta", ["text"]), ("citations_delta", ["text"]), ("thinking_delta", ["thinking"]),
    ("signature_delta", ["thinking"]),
    ("input_json_delta", ["tool_use", "server_tool_use", "mcp_tool_use"])]

/-- The properties that `expectation` inherits from `Object.prototype`; none has a method
`includes`. -/
def objectPrototypeKeys : List String :=
  ["constructor", "__defineGetter__", "__defineSetter__", "hasOwnProperty", "__lookupGetter__",
    "__lookupSetter__", "isPrototypeOf", "propertyIsEnumerable", "toString", "valueOf",
    "__proto__", "toLocaleString"]

/-- The check of the type of a delta against the type of its block. -/
def checkDeltaType (block delta : JsonValue) : Except StreamFailure Unit := do
  if objectPrototypeKeys.any (isType delta) then
    .error (if (block.textAt "type").isNone then .unreplayable "delta_block_type_mismatch"
      else .typeError)
  else
    refuseIf (∃ e ∈ deltaBlockTypes, isType delta e.1 ∧ ¬e.2.any (isType block))
      "delta_block_type_mismatch"

/-- A text is appended to the text of a property. -/
def appendText (block : JsonValue) (key : String) (text : JsString) : JsonValue :=
  block.set key (.str ((block.textAt key).getD [] ++ text))

/-- The payload of a delta that has to be a string. -/
def deltaText (delta : JsonValue) (key : String) : Except StreamFailure JsString :=
  match delta.textAt key with
  | some text => .ok text
  | none => .error (.unreplayable "delta_payload_invalid")

/-- `content_block_delta` on the record of its block. -/
def BlockState.delta (b : BlockState) (delta : JsonValue) : Except StreamFailure BlockState := do
  refuseIf (¬b.isOpen) "delta_after_stop"
  refuseIf b.isSigned "delta_after_signature"
  checkDeltaType b.block delta
  if isType delta "text_delta" then
    (deltaText delta "text").map fun text => { b with block := appendText b.block "text" text }
  else if isType delta "thinking_delta" then
    (deltaText delta "thinking").map fun text =>
      { b with block := appendText b.block "thinking" text }
  else if isType delta "signature_delta" then
    deltaText delta "signature" >>= fun signature =>
    refuseIf (replacedSeedCarriesEvidence (b.block.get "signature") .emptyString)
      "thinking_signature_seed_not_empty" >>= fun _ =>
    .ok { b with block := b.block.set "signature" (.str signature), isSigned := true }
  else if isType delta "input_json_delta" then
    (deltaText delta "partial_json").map fun fragment =>
      { b with partialJson := some (b.partialJson.getD [] ++ fragment) }
  else if isType delta "citations_delta" then
    match delta.get "citation" with
    | some (.obj citation) =>
      refuseIf (citationsInvalid (b.block.get "citations")) "block_citations_invalid" >>= fun _ =>
      let citations := match b.block.get "citations" with
        | some (.arr citations) => citations
        | _ => []
      .ok { b with block := b.block.set "citations" (.arr (citations ++ [.obj citation])) }
    | _ => .error (.unreplayable "delta_payload_invalid")
  else .error (.unreplayable "delta_type_unknown")

section Number

variable (number : List Char → Option JsonNumber)

/-- The input that the accumulated text of a tool call stands for. -/
def toolInput (acc : JsString) : Except StreamFailure JsonValue :=
  if acc = [] then .ok (.obj [])
  else
    match jsonParseUnits number acc with
    | some (.obj props) => .ok (.obj props)
    | _ => .error (.unreplayable "tool_input_json_invalid")

/-- `content_block_stop` on the record of its block. -/
def BlockState.stop (b : BlockState) : Except StreamFailure BlockState := do
  refuseIf (¬b.isOpen) "block_already_stopped"
  refuseIf (isType b.block "thinking" ∧ ¬b.isSigned) "thinking_block_unsigned"
  match b.partialJson with
  | none => return { b with isOpen := false }
  | some acc =>
    let input ← toolInput number acc
    refuseIf (replacedSeedCarriesEvidence (b.block.get "input") .emptyObject)
      "tool_input_seed_not_empty"
    return { b with block := b.block.set "input" input, partialJson := none, isOpen := false }

/-! ## The events of a stream -/

/-- The variables of the reassembler; the blocks are in the order of their starts. -/
structure StreamState where
  role : Option JsonValue := none
  model : Option JsString := none
  blocks : List (JsonNumber × BlockState) := []
  sawMessageStart : Bool := false
  sawMessageStop : Bool := false
  sawError : Bool := false
  sawMessageDelta : Bool := false
  nextBlockIndex : ℕ := 0

/-- The record of a block. -/
def StreamState.find (s : StreamState) (index : JsonNumber) : Option BlockState :=
  (s.blocks.find? (·.1 = index)).map (·.2)

/-- The record of a block is replaced. -/
def StreamState.put (s : StreamState) (index : JsonNumber) (b : BlockState) : StreamState :=
  { s with blocks := s.blocks.map fun e => if e.1 = index then (index, b) else e }

/-- The types of event that the reassembler knows. -/
inductive EventType where
  | messageStart
  | contentBlockStart
  | contentBlockDelta
  | contentBlockStop
  | messageStop
  | messageDelta
  | ping
  | error
deriving DecidableEq

/-- The text of a type of event. -/
def EventType.text : EventType → String
  | messageStart => "message_start"
  | contentBlockStart => "content_block_start"
  | contentBlockDelta => "content_block_delta"
  | contentBlockStop => "content_block_stop"
  | messageStop => "message_stop"
  | messageDelta => "message_delta"
  | ping => "ping"
  | error => "error"

/-- The types of event in the order of the `switch`. -/
def eventTypes : List EventType :=
  [.messageStart, .contentBlockStart, .contentBlockDelta, .contentBlockStop, .messageStop,
    .messageDelta, .ping, .error]

/-- The type of an event, if it is known. -/
def eventType (raw : JsonValue) : Option EventType := eventTypes.find? fun t => isType raw t.text

/-- The event belongs to the content of the message. -/
def EventType.isContent : EventType → Bool
  | contentBlockStart | contentBlockDelta | contentBlockStop => true
  | _ => false

/-- The content of a started message is there and is not an empty array. -/
def startContentInvalid : Option JsonValue → Bool
  | none => false
  | some (.arr items) => !items.isEmpty
  | some _ => true

/-- `message_start`. -/
def StreamState.messageStart (s : StreamState) (raw : JsonValue) :
    Except StreamFailure StreamState := do
  refuseIf s.sawMessageStart "duplicate_message_start"
  match raw.get "message" with
  | some (.obj props) =>
    let message := JsonValue.obj props
    refuseIf (roleInvalid (message.get "role")) "message_role_not_assistant"
    refuseIf (startContentInvalid (message.get "content")) "message_start_content_not_empty"
    let model ← providerModelOf message
    return { s with sawMessageStart := true, role := message.get "role", model := model }
  | _ => .error (.unreplayable "message_start_shape_unknown")

/-- `content_block_start`. -/
def StreamState.contentBlockStart (s : StreamState) (raw : JsonValue) :
    Except StreamFailure StreamState := do
  refuseIf (¬s.sawMessageStart) "content_before_message_start"
  match raw.numberAt "index", raw.get "content_block" with
  | some index, some (.obj props) =>
    refuseIf ((s.find index).isSome) "block_index_reused"
    refuseIf (index.1 ≠ .int s.nextBlockIndex) "block_index_not_contiguous"
    refuseIf (((JsonValue.obj props).textAt "type").isNone ∨ blockPayloadInvalid (.obj props) .start)
      "block_start_payload_invalid"
    return { s with
      blocks := s.blocks ++ [(index, ⟨.obj props, none, true, false⟩)]
      nextBlockIndex := s.nextBlockIndex + 1 }
  | _, _ => .error (.unreplayable "content_block_start_shape_unknown")

/-- `content_block_delta`. -/
def StreamState.contentBlockDelta (s : StreamState) (raw : JsonValue) :
    Except StreamFailure StreamState :=
  match raw.numberAt "index", raw.get "delta" with
  | some index, some (.obj props) =>
    if ((JsonValue.obj props).textAt "type").isNone then
      .error (.unreplayable "content_block_delta_shape_unknown")
    else
      match s.find index with
      | none => .error (.unreplayable "delta_without_block")
      | some b => (b.delta (.obj props)).map (s.put index)
  | _, _ => .error (.unreplayable "content_block_delta_shape_unknown")

/-- `content_block_stop`. -/
def StreamState.contentBlockStop (s : StreamState) (raw : JsonValue) :
    Except StreamFailure StreamState :=
  match raw.numberAt "index" with
  | none => .error (.unreplayable "content_block_stop_shape_unknown")
  | some index =>
    match s.find index with
    | none => .error (.unreplayable "stop_without_block")
    | some b => (b.stop number).map (s.put index)

/-- A block is open. -/
def StreamState.hasOpen (s : StreamState) : Bool := s.blocks.any (·.2.isOpen)

/-- An event of a known type. -/
def StreamState.dispatch (s : StreamState) (raw : JsonValue) :
    EventType → Except StreamFailure StreamState
  | .messageStart => s.messageStart raw
  | .contentBlockStart => s.contentBlockStart raw
  | .contentBlockDelta => s.contentBlockDelta raw
  | .contentBlockStop => s.contentBlockStop number raw
  | .messageStop => do
    refuseIf (¬s.sawMessageStart) "message_stop_before_message_start"
    return { s with sawMessageStop := true }
  | .messageDelta => do
    refuseIf (¬s.sawMessageStart) "message_delta_before_message_start"
    refuseIf s.hasOpen "message_delta_before_block_stop"
    return { s with sawMessageDelta := true }
  | .ping => .ok s
  | .error => .ok { s with sawError := true }

/-- One event of the stream. -/
def StreamState.step (s : StreamState) (raw : JsonValue) : Except StreamFailure StreamState := do
  refuseIf ((raw.textAt "type").isNone) "sse_event_shape_unknown"
  refuseIf s.sawMessageStop "frame_after_message_stop"
  refuseIf s.sawError "frame_after_error"
  match eventType raw with
  | none => .error (.unreplayable "event_type_unknown")
  | some type => do
    refuseIf (s.sawMessageDelta ∧ type.isContent) "content_after_message_delta"
    s.dispatch number raw type

/-- The message that a stream is reassembled to. -/
structure StreamMessage where
  role : Option JsonValue
  content : List JsonValue
  model : Option JsString

/-- The verdicts at the end of a stream. -/
def StreamState.finish (s : StreamState) : Except StreamFailure StreamMessage := do
  rejectIf s.sawError .providerFailed
  refuseIf (s.hasOpen ∨ ¬s.sawMessageStop) "stream_truncated"
  rejectIf (s.blocks = []) .providerFailed
  return ⟨s.role, s.blocks.map (·.2.block), s.model⟩

/-- `JSON.parse` of a payload. -/
def parsePayload (payload : List Char) : Except StreamFailure JsonValue :=
  match jsonParse number payload with
  | some v => .ok v
  | none => .error (.unreplayable "sse_data_not_json")

/-- `parseSseEvents`. -/
def parseSseEvents (sseText : List Char) : Except StreamFailure (List JsonValue) :=
  (dataPayloads sseText).mapM (parsePayload number)

/-- The reassembly of a list of events. -/
def reassemble (events : List JsonValue) : Except StreamFailure StreamMessage := do
  let s ← events.foldlM (StreamState.step number) {}
  s.finish

/-- `assistantMessageFromStream`. -/
def assistantMessageFromStream (sseText : List Char) : Except StreamFailure StreamMessage := do
  let events ← parseSseEvents number sseText
  reassemble number events

/-! ## The history -/

/-- `stripForeignThinking`. -/
def stripForeignThinking (content : List JsonValue) : List JsonValue :=
  content.filter fun block => !(isType block "thinking" || isType block "redacted_thinking")

/-- `nativeModelOf`. -/
def nativeModelOf (native : JsonValue) : Option JsString := native.textAt "model"

/-- The role, the content and the model of an answer, as they were captured. -/
def capturedMessage : AssistantOutput → Except StreamFailure StreamMessage
  | .response body =>
    match body.get "content" with
    | some (.arr content) =>
      (providerModelOf body).map fun model => ⟨body.get "role", content, model⟩
    | _ => .error (.unreplayable "response_body_shape_unknown")
  | .stream sseText => assistantMessageFromStream number sseText

/-- `assistantMessageFromEntry`: the content of the assistant message. -/
def assistantMessageFromEntry (e : AssembledContextEntry) (output : AssistantOutput)
    (currentModel : JsString) : Except StreamFailure (List JsonValue) := do
  let message ← capturedMessage number output
  validateReplayableMessage message.role message.content
  let historicalModel := (message.model.orElse fun _ => nativeModelOf e.userNative).getD e.sourceModel
  if historicalModel ≠ currentModel then do
    refuseIf (stripForeignThinking message.content = []) "model_switch_leaves_empty_message"
    return stripForeignThinking message.content
  else return message.content

/-- The assistant message with a content. -/
def assistantMessage (content : List JsonValue) : JsonValue :=
  .obj [(jsString "role", .text "assistant"), (jsString "content", .arr content)]

/-- The messages that an entry contributes. -/
def historyMessages (currentModel : JsString) (e : AssembledContextEntry) :
    Except BuildFailure (List JsonValue) :=
  if e.sourceProvider ≠ "anthropic" then
    .error (.refused .contextUnreplayable "cross_provider_replay_not_implemented")
  else
    match e.userNative.get "messages" with
    | some (.arr own) =>
      match e.assistant with
      | none => .ok own
      | some a =>
        match assistantMessageFromEntry number e a.output currentModel with
        | .ok content => .ok (own ++ [assistantMessage content])
        | .error .providerFailed => .ok own
        | .error (.unreplayable detail) => .error (.refused .contextUnreplayable detail)
        | .error .typeError => .error (.thrown "TypeError")
    | _ => .error (.refused .contextUnreplayable "history_input_shape_unknown")

/-- `buildRequest`. -/
def buildRequest (input : BuildRequestInput) : BuildRequestResult :=
  if ¬input.turnConfig.isObject then .error (.refused .contextUnreplayable "config_not_object")
  else if input.entries = [] then .ok ⟨input.turnConfig, .statelessReplay⟩
  else
    match input.turnConfig.get "messages" with
    | some (.arr own) => do
      let history ← input.entries.mapM
        (historyMessages number ((nativeModelOf input.turnConfig).getD input.branchModel))
      return ⟨input.turnConfig.set "messages" (.arr (history.flatten ++ own)), .statelessReplay⟩
    | _ => .error (.refused .contextUnreplayable "config_messages_not_array")

end Number

end Messages

end GovAI
