import GovAI.Console.Accumulators

/-!
# One provider call of the console

The part of `runTurn` (`streaming/run-turn.ts`) that reads the body of an answer, and what a turn may
claim after it.  A surface says which frames end a stream, which text a frame shows after the frames
before it, and which frames are reasoning; it does so without the accumulator.  The accumulators
agree with it (`streamLaw_of_allPlaced`), but for text deltas of Anthropic that do not name a block.
-/

namespace GovAI.Console

section RunTurn

variable (number : List Char → Option JsonNumber)

/-! ## The turn -/

/-- The fields of `RunTurnResult` that the stream decides. -/
structure RunTurnResult where
  state : TurnState
  text : JsString
  refusal : Option JsString
  unsupportedOutput : Bool
  error : Option SafeProviderError
  providerMessageId : Option JsString
  stopReason : Option JsString
deriving DecidableEq

/-- The classification of a turn by its last snapshot. -/
def turnState (terminal : Option StreamTerminal) (aborted : Bool) : TurnState :=
  match terminal with
  | some (.error _) => .providerError
  | some (.completed _) => .completed
  | none => if aborted then .stopped else .unknownOutcome

/-- The result of a turn by its last snapshot. -/
def turnResult (snapshot : AccumulatorSnapshot) (aborted : Bool) : RunTurnResult where
  state := turnState snapshot.terminal aborted
  text := snapshot.text
  refusal := snapshot.refusal
  unsupportedOutput := snapshot.unsupportedOutput
  error :=
    match snapshot.terminal with
    | some (.error error) => some error
    | _ => none
  providerMessageId := snapshot.providerMessageId
  stopReason :=
    match snapshot.terminal with
    | some (.completed stopReason) => stopReason
    | _ => none

/-- `stopWhen`. -/
def StreamAccumulator.stopWhen (A : StreamAccumulator) (st : A.State) : Bool :=
  (A.snapshot st).terminal.isSome

/-- The frames of the body that are handed to the accumulator. -/
def framesOf (surface : SurfaceId) (body : SseBody) : List SseFrame :=
  dispatched (createAccumulator number surface).accept (createAccumulator number surface).stopWhen
    (createAccumulator number surface).init body

/-- `runTurn` for an answer with a body. -/
def runTurn (surface : SurfaceId) (body : SseBody) : RunTurnResult :=
  turnResult ((createAccumulator number surface).snapshot
    (pumpSse (createAccumulator number surface).accept (createAccumulator number surface).stopWhen
      (createAccumulator number surface).init body)) body.abortedAfter

/-! ## What the frames of a surface mean -/

/-- The type of a frame. -/
def typeOfFrame (f : SseFrame) : Option JsString := frameType f (parseFrameJson number f.data)

/-- The payload of a frame of a type. -/
def payloadOf (type : String) (f : SseFrame) : Option JsonValue :=
  if typeOfFrame number f = some (jsString type) then parseFrameJson number f.data else none

/-- The state in which a frame ends the turn, if it is a terminal frame of the surface. -/
def terminalState : SurfaceId → SseFrame → Option TurnState
  | .messages, f =>
    if typeOfFrame number f = some (jsString "message_stop") then some .completed
    else if typeOfFrame number f = some (jsString "error") then some .providerError
    else none
  | .responses, f =>
    if typeOfFrame number f = some (jsString "response.completed") ∨
        typeOfFrame number f = some (jsString "response.incomplete") then some .completed
    else if typeOfFrame number f = some (jsString "response.failed") ∨
        typeOfFrame number f = some (jsString "error") then some .providerError
    else none
  | .chatCompletions, f =>
    if jsTrim f.data = chatDoneSentinel then some .completed
    else if ((parseFrameJson number f.data).bind (·.get "error")).isSome then some .providerError
    else none

/-- The index and the type of the block that a frame announces. -/
def announcement (f : SseFrame) : Option (Option JsonNumber × JsString) :=
  (payloadOf number "content_block_start" f).bind fun payload =>
    ((payload.get "content_block").bind (·.textAt "type")).map (indexOf payload, ·)

/-- The text with which a text block opens. -/
def seed (f : SseFrame) : JsString :=
  if (announcement number f).map (·.2) = some textBlock then
    ((payloadOf number "content_block_start" f).bind fun payload =>
      (payload.get "content_block").bind (·.textAt "text")).getD []
  else []

/-- The delta of a frame. -/
def deltaOf (f : SseFrame) : Option JsonValue :=
  (payloadOf number "content_block_delta" f).bind (objectAt · "delta")

/-- A text delta. -/
def IsTextDelta (f : SseFrame) : Prop :=
  (deltaOf number f).bind (·.textAt "type") = some (jsString "text_delta")

instance (f : SseFrame) : Decidable (IsTextDelta number f) := inferInstanceAs (Decidable (_ = _))

/-- The index that a delta names. -/
def deltaIndex (f : SseFrame) : Option JsonNumber :=
  (payloadOf number "content_block_delta" f).bind indexOf

/-- The type of a block after a frame. -/
def announce (index : JsonNumber) (type : Option JsString) (f : SseFrame) : Option JsString :=
  match announcement number f with
  | some (some i, t) => if i = index then some t else type
  | _ => type

/-- The type of the latest block at an index. -/
def announced (frames : List SseFrame) (index : JsonNumber) : Option JsString :=
  frames.foldl (announce number index) none

/-- A text delta of a text block. -/
def OfTextBlock (pre : List SseFrame) (f : SseFrame) : Prop :=
  IsTextDelta number f ∧ (deltaIndex number f).bind (announced number pre) = some textBlock

instance (pre : List SseFrame) (f : SseFrame) : Decidable (OfTextBlock number pre f) :=
  inferInstanceAs (Decidable (_ ∧ _))

/-- The text that a choice shows. -/
def choiceText (choice : JsonValue) : JsString :=
  if isOtherChoice choice then []
  else ((objectAt choice "delta").bind (·.textAt "content")).getD []

/-- The choices of a frame. -/
def choicesOf (f : SseFrame) : List JsonValue :=
  match (parseFrameJson number f.data).bind (·.get "choices") with
  | some (.arr choices) => choices
  | _ => []

/-- The text that a frame shows after the frames `pre`. -/
def shown : SurfaceId → List SseFrame → SseFrame → JsString
  | .messages, pre, f =>
    if OfTextBlock number pre f then ((deltaOf number f).bind (·.textAt "text")).getD []
    else seed number f
  | .responses, _, f => ((payloadOf number "response.output_text.delta" f).bind
      (·.textAt "delta")).getD []
  | .chatCompletions, _, f => (choicesOf number f).flatMap choiceText

/-- The text that frames show after the frames `pre`. -/
def shownFrom (surface : SurfaceId) : List SseFrame → List SseFrame → JsString
  | _, [] => []
  | pre, f :: rest => shown number surface pre f ++ shownFrom surface (pre ++ [f]) rest

/-- A frame of the model's reasoning. -/
def isReasoning : SurfaceId → SseFrame → Bool
  | .messages, f =>
    ((deltaOf number f).bind (·.textAt "type")).any
        [jsString "thinking_delta", jsString "signature_delta"].contains ||
      (announcement number f).any (silentBlockTypes.contains ·.2)
  | .responses, f => (typeOfFrame number f).any isReasoningEvent
  | .chatCompletions, _ => false

/-- The frames without those of the reasoning. -/
def withoutReasoning (surface : SurfaceId) (frames : List SseFrame) : List SseFrame :=
  frames.filter fun f => !isReasoning number surface f

/-- The frames before the first terminal one. -/
def beforeTerminal (surface : SurfaceId) (frames : List SseFrame) : List SseFrame :=
  frames.takeWhile fun f => (terminalState number surface f).isNone

/-! ## The law of the console -/

/-- A text delta names a block, and no reasoning block has taken the index of a text block. -/
def Placed (pre : List SseFrame) (f : SseFrame) : Prop :=
  IsTextDelta number f → ∃ index ∈ deltaIndex number f,
    announced number (withoutReasoning number .messages pre) index = some textBlock →
      announced number pre index = some textBlock

instance (pre : List SseFrame) (f : SseFrame) : Decidable (Placed number pre f) :=
  inferInstanceAs (Decidable (_ → ∃ index ∈ deltaIndex number f, _))

/-- Every text delta is placed. -/
def AllPlaced : List SseFrame → List SseFrame → Prop
  | _, [] => True
  | pre, f :: rest => Placed number pre f ∧ AllPlaced (pre ++ [f]) rest

instance decidableAllPlaced :
    ∀ pre frames, Decidable (AllPlaced number pre frames)
  | _, [] => inferInstanceAs (Decidable True)
  | pre, f :: rest =>
    have := decidableAllPlaced (pre ++ [f]) rest
    inferInstanceAs (Decidable (_ ∧ _))

/-- The text deltas of an Anthropic stream before its terminal frame are placed. -/
def StreamPlaced (surface : SurfaceId) (body : SseBody) : Prop :=
  surface = .messages →
    AllPlaced number [] (beforeTerminal number surface (framesOf number surface body))

/-- **The console claims what the stream proves.** -/
structure StreamLaw (surface : SurfaceId) (body : SseBody) : Prop where
  /-- A turn is confirmed exactly if a terminal frame was dispatched. -/
  confirmed_iff : (runTurn number surface body).state = .completed ∨
    (runTurn number surface body).state = .providerError ↔
      ∃ f ∈ framesOf number surface body, (terminalState number surface f).isSome = true
  /-- The first terminal frame decides, and nothing after it changes the result. -/
  first : ∀ pre f post s, framesOf number surface body = pre ++ f :: post →
    (∀ g ∈ pre, terminalState number surface g = none) → terminalState number surface f = some s →
      (runTurn number surface body).state = s ∧
      ∀ body' post', framesOf number surface body' = pre ++ f :: post' →
        runTurn number surface body' = runTurn number surface body
  /-- Without one the turn was stopped or is not known. -/
  unconfirmed : (∀ f ∈ framesOf number surface body, terminalState number surface f = none) →
    (runTurn number surface body).state = if body.abortedAfter then .stopped else .unknownOutcome
  /-- The text is what the frames before the terminal one show. -/
  text : (runTurn number surface body).text =
    shownFrom number surface [] (beforeTerminal number surface (framesOf number surface body))
  /-- A text delta that is not of a text block is unsupported output. -/
  flagged : surface = .messages → ∀ pre f post,
    beforeTerminal number surface (framesOf number surface body) = pre ++ f :: post →
      IsTextDelta number f → ¬OfTextBlock number pre f →
        (runTurn number surface body).unsupportedOutput = true
  /-- A stream that differs in reasoning frames only has the same result. -/
  reasoning : ∀ body', StreamPlaced number surface body' →
    withoutReasoning number surface (framesOf number surface body') =
      withoutReasoning number surface (framesOf number surface body) →
    body'.abortedAfter = body.abortedAfter →
      runTurn number surface body' = runTurn number surface body

end RunTurn

end GovAI.Console
