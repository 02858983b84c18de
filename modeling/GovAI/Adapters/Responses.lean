import GovAI.Adapters.Entry
import GovAI.Library.Fallible

/-!
# The adapter of the Responses API

`openai-responses.ts`: what a stored answer resolves to, the anchor of a chain, and the two strategies
of `buildRequest`, chaining on the id of an earlier response and stateless replay of everything.
-/

namespace GovAI

attribute [local instance] lawfulBEq_jsString

open scoped OptionConditions

namespace Responses

/-! ## What an answer resolves to -/

/-- `TerminalResolution`. -/
inductive TerminalResolution where
  | terminal (body : JsonValue) (output : List JsonValue)
  | providerFailed

/-- `terminalOf`. -/
def terminalOf (body : JsonValue) : Except String TerminalResolution :=
  match body.get "output" with
  | some (.arr output) =>
    if output.all (·.isObject) then .ok (.terminal body output)
    else .error "response_output_item_not_object"
  | _ => .error "response_output_shape_unknown"

/-- `statusOf`; `none` is `undefined`. -/
def statusOf (body : JsonValue) : Except String (Option JsString) :=
  match body.get "status" with
  | none => .ok none
  | some (.str status) => .ok (some status)
  | some _ => .error "response_status_shape_unknown"

/-- `TERMINAL_RESPONSE_STATUSES`. -/
def terminalResponseStatuses : List JsString := [jsString "completed", jsString "incomplete"]

/-- `FAILED_RESPONSE_STATUSES`. -/
def failedResponseStatuses : List JsString := [jsString "failed", jsString "cancelled"]

/-- The verdicts met so far in a stream. -/
structure Verdicts where
  terminal : Option JsonValue
  failed : Bool

section Number

variable (number : List Char → Option JsonNumber)

/-- One payload of a stream. -/
def Verdicts.step (v : Verdicts) (payload : List Char) : Except String Verdicts :=
  match jsonParse number payload with
  | none => .error "sse_data_not_json"
  | some parsed =>
    let is (type : String) : Bool := parsed.textAt "type" = some (jsString type)
    let v : Verdicts := if parsed.isObject ∧ (is "response.failed" ∨ is "error") then
      { v with failed := true } else v
    match parsed.get "response" with
    | some (.obj props) =>
      if is "response.completed" ∨ is "response.incomplete" then do
        rejectIf (v.terminal.isSome) "duplicate_terminal_verdicts"
        let status ← statusOf (.obj props)
        let expected := if is "response.completed" then "completed" else "incomplete"
        rejectIf (∃ s ∈ status, s ≠ jsString expected) "terminal_status_mismatch"
        return { v with terminal := some (.obj props) }
      else .ok v
    | _ => .ok v

/-- `terminalResponseOf`. -/
def terminalResponseOf : AssistantOutput → Except String TerminalResolution
  | .response body => do
    rejectIf (¬body.isObject) "response_body_shape_unknown"
    match ← statusOf body with
    | none => terminalOf body
    | some status =>
      if status ∈ failedResponseStatuses then .ok .providerFailed
      else if status ∈ terminalResponseStatuses then terminalOf body
      else .error "anchor_response_not_terminal"
  | .stream sseText => do
    let v ← (dataPayloads sseText).foldlM (Verdicts.step number) ⟨none, false⟩
    match v.terminal with
    | none => if v.failed then .ok .providerFailed else .error "stream_has_no_terminal_response"
    | some terminal =>
      if v.failed then .error "conflicting_terminal_verdicts" else terminalOf terminal

end Number

/-- `isChainableTerminal`. -/
def isChainableTerminal (terminal : JsonValue) : Bool :=
  (terminal.get "status").isNone ∨ terminal.textAt "status" = some (jsString "completed")

/-- `responseIdOf`. -/
def responseIdOf (terminal : JsonValue) : Option JsString :=
  (terminal.textAt "id").filter fun id => id ≠ []

/-! ## Inputs -/

/-- `origin`. -/
inductive InputOrigin where
  | history
  | ownTurn
deriving DecidableEq

/-- The detail of an input that cannot be read. -/
def InputOrigin.shapeUnknown : InputOrigin → String
  | .history => "history_input_shape_unknown"
  | .ownTurn => "config_input_shape_unknown"

/-- The message that a text input stands for. -/
def userMessage (text : JsString) : JsonValue :=
  .obj [(jsString "role", .text "user"), (jsString "content", .str text)]

/-- `inputItemsOf`. -/
def inputItemsOf (native : JsonValue) (origin : InputOrigin) : Except String (List JsonValue) :=
  if native.isObject then
    match native.get "input" with
    | some (.str text) => .ok [userMessage text]
    | some (.arr items) => .ok items
    | some _ => .error origin.shapeUnknown
    | none => if origin = .ownTurn then .ok [] else .error origin.shapeUnknown
  else .error origin.shapeUnknown

/-- `configStoreAllowsChaining`. -/
def configStoreAllowsChaining (native : JsonValue) : Bool :=
  match native.get "store" with
  | some (.bool false) => false
  | _ => true

/-- `background: true`. -/
def requestsBackground (native : JsonValue) : Bool :=
  match native.get "background" with
  | some (.bool true) => true
  | _ => false

/-- The fields that carry a continuation of the client's own. -/
def continuationFields : List String := ["previous_response_id", "conversation"]

/-- `ANCHOR_MAX_AGE_MS`. -/
def anchorMaxAgeMs : ℤ := 14 * 24 * 60 * 60 * 1000

/-! ## The build -/

/-- What the anchor scan finds: the last turn with a terminal response, the turns after it, and
whether one of these was declared failed by its payload. -/
structure Anchor where
  entry : AssembledContextEntry
  assistant : AssistantContext
  body : JsonValue
  trailing : List AssembledContextEntry
  payloadFailure : Bool

section Number

variable (number : List Char → Option JsonNumber)

/-- The anchor scan over the entries in reverse order. -/
def scanAnchor : List AssembledContextEntry → List AssembledContextEntry → Bool →
    Except String (Option Anchor)
  | [], _, _ => .ok none
  | e :: rest, trailing, payloadFailure =>
    match e.assistant with
    | none => scanAnchor rest (e :: trailing) payloadFailure
    | some a => do
      match ← terminalResponseOf number a.output with
      | .providerFailed => scanAnchor rest (e :: trailing) true
      | .terminal body _ => .ok (some ⟨e, a, body, trailing, payloadFailure⟩)

/-- The conditions of chaining on an anchor, with the id of the parent if they hold. -/
def chainableId (input : BuildRequestInput) (anchor : Anchor) : Option JsString :=
  (responseIdOf anchor.body).filter fun _ =>
    ¬(anchor.payloadFailure ∨ anchor.trailing.any (·.selectedAttemptProviderFailed)) ∧
    isChainableTerminal anchor.body ∧
    anchor.assistant.providerCredentialId = some input.activeCredentialId ∧
    configStoreAllowsChaining anchor.entry.userNative ∧
    configStoreAllowsChaining input.turnConfig ∧
    input.nowMs - anchor.assistant.completedAtMs < anchorMaxAgeMs

/-- The input items of earlier turns. -/
def historyItems (entries : List AssembledContextEntry) : Except String (List JsonValue) :=
  (entries.mapM fun e => inputItemsOf e.userNative .history).map List.flatten

/-- The config of a chained request: with items to merge the input of the turn becomes a list. -/
def mergedConfig (input : BuildRequestInput) (trailing : List JsonValue) : Except String JsonValue :=
  if trailing = [] then .ok input.turnConfig
  else (inputItemsOf input.turnConfig .ownTurn).map fun own =>
    input.turnConfig.set "input" (.arr (trailing ++ own))

/-- The request that chains on a response. -/
def chainedRequest (input : BuildRequestInput) (trailing : List AssembledContextEntry)
    (anchorId : JsString) : Except String AdapterRequest := do
  let trailing ← historyItems trailing
  let config ← mergedConfig input trailing
  return ⟨config.set "previous_response_id" (.str anchorId), .responseChain anchorId⟩

/-- The items that the replay of a turn contributes. -/
def replayItems (e : AssembledContextEntry) : Except String (List JsonValue) := do
  let input ← inputItemsOf e.userNative .history
  match e.assistant with
  | none => return input
  | some a => do
    match ← terminalResponseOf number a.output with
    | .terminal _ output => return input ++ output
    | .providerFailed => return input

/-- The request that replays everything. -/
def statelessRequest (input : BuildRequestInput) : Except String AdapterRequest := do
  let assembled ← input.entries.mapM (replayItems number)
  let own ← inputItemsOf input.turnConfig .ownTurn
  return ⟨input.turnConfig.set "input" (.arr (assembled.flatten ++ own)), .statelessReplay⟩

/-- The strategy: chaining where its conditions hold, else stateless replay. -/
def chooseRequest (input : BuildRequestInput) : Except String AdapterRequest := do
  match ← scanAnchor number input.entries.reverse [] false with
  | none => statelessRequest number input
  | some anchor =>
    match chainableId input anchor with
    | some anchorId => chainedRequest input anchor.trailing anchorId
    | none => statelessRequest number input

/-- The checks of an entry before anything is built. -/
def checkEntry (e : AssembledContextEntry) : Except BuildFailure Unit := do
  rejectIf (e.sourceProvider ≠ "openai")
    (.refused .contextUnreplayable "cross_provider_replay_not_implemented")
  rejectIf (continuationFields.any e.userNative.has)
    (.refused .continuationConflict "history_carries_client_continuation")

/-- `buildRequest`. -/
def buildRequest (input : BuildRequestInput) : BuildRequestResult := do
  rejectIf (¬input.turnConfig.isObject) (.refused .contextUnreplayable "config_not_object")
  continuationFields.forM fun field => rejectIf (input.turnConfig.has field)
    (.refused .continuationConflict ("config_carries_" ++ field))
  rejectIf (requestsBackground input.turnConfig)
    (.refused .continuationConflict "config_requests_background_mode")
  if input.entries = [] then return ⟨input.turnConfig, .statelessReplay⟩
  else do
    input.entries.forM checkEntry
    (chooseRequest number input).mapError (.refused .contextUnreplayable)

end Number

end Responses

end GovAI
