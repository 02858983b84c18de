import Mathlib.Data.List.Basic

/-!
# The conversation of the console

The reducer of the console page: `conversation/reducer.ts` and `conversation/types.ts`.  A turn is
answered by its attempts, one is in flight at a time, and the answers that may be sent again form the
context of the later turns (`contextForTurn`).  The error and the receipt of an attempt are copied
whole, and their types are parameters.
-/

namespace GovAI.Console

/-! ## The conversation -/

/-- `TurnState`. -/
inductive TurnState where
  | submitting
  | streaming
  | completed
  | stopped
  | blocked
  | providerError
  | rateLimited
  | credentialUnavailable
  | authRejected
  | requestTooLarge
  | networkError
  | unknownOutcome
deriving DecidableEq

/-- `TERMINAL_STATES`. -/
def terminalStates : List TurnState :=
  [.completed, .stopped, .blocked, .providerError, .rateLimited, .credentialUnavailable,
    .authRejected, .requestTooLarge, .networkError, .unknownOutcome]

/-- `isTerminalState`. -/
def isTerminalState (state : TurnState) : Bool := terminalStates.contains state

/-- `commitsContext`. -/
def commitsContext (state : TurnState) : Bool := state = .completed

/-- `Attempt`. -/
structure Attempt (ε ρ : Type) where
  id : String
  state : TurnState
  eligibleForContext : Bool
  text : String
  refusal : Option String
  unsupportedOutput : Bool
  error : Option ε
  retryAfterSeconds : Option ℕ
  receipt : Option ρ
deriving DecidableEq

/-- `Turn`. -/
structure Turn (ε ρ : Type) where
  id : String
  userText : String
  attempts : List (Attempt ε ρ)
deriving DecidableEq

/-- `ProviderId`. -/
inductive ProviderId where
  | openai
  | anthropic
deriving DecidableEq

/-- `SurfaceId`. -/
inductive SurfaceId where
  | responses
  | chatCompletions
  | messages
deriving DecidableEq

/-- `ConsoleMode`. -/
inductive ConsoleMode where
  | nativeAudited
  | governed
deriving DecidableEq

/-- `ConversationConfig`. -/
structure ConversationConfig where
  provider : ProviderId
  surface : SurfaceId
  mode : ConsoleMode
  model : String
  maxTokens : ℕ
deriving DecidableEq

/-- `Partial<ConversationConfig>`. -/
structure ConfigPatch where
  provider : Option ProviderId := none
  surface : Option SurfaceId := none
  mode : Option ConsoleMode := none
  model : Option String := none
  maxTokens : Option ℕ := none
deriving DecidableEq

/-- `{ ...config, ...patch }`. -/
def ConversationConfig.apply (config : ConversationConfig) (patch : ConfigPatch) :
    ConversationConfig where
  provider := patch.provider.getD config.provider
  surface := patch.surface.getD config.surface
  mode := patch.mode.getD config.mode
  model := patch.model.getD config.model
  maxTokens := patch.maxTokens.getD config.maxTokens

/-- `{turnId, attemptId}`. -/
structure AttemptRef where
  turnId : String
  attemptId : String
deriving DecidableEq

/-- `ConversationState`. -/
structure ConversationState (ε ρ : Type) where
  config : ConversationConfig
  locked : Bool
  turns : List (Turn ε ρ)
  inFlight : Option AttemptRef
  lastSettled : Option AttemptRef
deriving DecidableEq

/-- `ContextMessage`: its role and its text. -/
inductive ContextMessage where
  | user (text : String)
  | assistant (text : String)
deriving DecidableEq

section Context

variable {ε ρ : Type}

/-- `lastAttempt`. -/
def lastAttempt (turn : Turn ε ρ) : Option (Attempt ε ρ) := turn.attempts.getLast?

/-- What an attempt answers: its text, or else its refusal. -/
def Attempt.answer (attempt : Attempt ε ρ) : String :=
  if attempt.text.length > 0 then attempt.text else attempt.refusal.getD ""

/-- An attempt whose answer is sent again. -/
def Attempt.replays (attempt : Attempt ε ρ) : Bool :=
  commitsContext attempt.state && attempt.eligibleForContext && attempt.answer.length > 0

/-- What a turn adds to the context of the later turns. -/
def Turn.contribution (turn : Turn ε ρ) : List ContextMessage :=
  match lastAttempt turn with
  | none => []
  | some attempt =>
    if attempt.replays then [.user turn.userText, .assistant attempt.answer] else []

/-- `contextForTurn`. -/
def contextForTurn (turns : List (Turn ε ρ)) (turnIndex : ℕ) : List ContextMessage :=
  (turns.take turnIndex).flatMap Turn.contribution

/-! ## The reducer -/

/-- The fields of the action `settle` that are written into the attempt. -/
structure Settlement (ε ρ : Type) where
  state : TurnState
  text : String
  refusal : Option String
  unsupportedOutput : Bool
  error : Option ε
  retryAfterSeconds : Option ℕ
  receipt : ρ
deriving DecidableEq

/-- `ConversationAction`. -/
inductive ConversationAction (ε ρ : Type) where
  | configure (patch : ConfigPatch)
  | send (turnId attemptId userText : String)
  | retry (turnId attemptId : String)
  | streaming (turnId attemptId : String)
  | delta (turnId attemptId text : String)
  | settle (turnId attemptId : String) (result : Settlement ε ρ)
  | newConversation
deriving DecidableEq

/-- `initialConversationState`. -/
def initialConversationState (config : ConversationConfig) : ConversationState ε ρ where
  config := config
  locked := false
  turns := []
  inFlight := none
  lastSettled := none

/-- `newAttempt`. -/
def newAttempt (id : String) (eligibleForContext : Bool) : Attempt ε ρ where
  id := id
  state := .submitting
  eligibleForContext := eligibleForContext
  text := ""
  refusal := none
  unsupportedOutput := false
  error := none
  retryAfterSeconds := none
  receipt := none

/-- A turn with the attempt of a pair `(turnId, attemptId)`. -/
def Turn.hasAttempt (turnId attemptId : String) (turn : Turn ε ρ) : Bool :=
  turn.id = turnId && turn.attempts.any (·.id = attemptId)

/-- A turn after a change to the attempt of a pair `(turnId, attemptId)`. -/
def Turn.patchAttempt (turnId attemptId : String) (patch : Attempt ε ρ → Attempt ε ρ)
    (turn : Turn ε ρ) : Turn ε ρ :=
  if turn.id = turnId then
    { turn with attempts := turn.attempts.map fun a => if a.id = attemptId then patch a else a }
  else turn

/-- `patchAttempt`; it returns the same state when no attempt matches. -/
def patchAttempt (state : ConversationState ε ρ) (turnId attemptId : String)
    (patch : Attempt ε ρ → Attempt ε ρ) : ConversationState ε ρ :=
  if state.turns.any (Turn.hasAttempt turnId attemptId) then
    { state with turns := state.turns.map (Turn.patchAttempt turnId attemptId patch) }
  else state

/-- The change of `streaming`. -/
def Attempt.startStreaming (attempt : Attempt ε ρ) : Attempt ε ρ :=
  if attempt.state = .submitting then { attempt with state := .streaming } else attempt

/-- The change of `delta`. -/
def Attempt.receive (text : String) (attempt : Attempt ε ρ) : Attempt ε ρ :=
  if attempt.state = .streaming ∨ attempt.state = .submitting then
    { attempt with state := .streaming, text := text }
  else attempt

/-- The change of `settle`. -/
def Attempt.settle (result : Settlement ε ρ) (attempt : Attempt ε ρ) : Attempt ε ρ :=
  { attempt with
    state := result.state
    text := if result.text.length > 0 then result.text else attempt.text
    refusal := result.refusal
    unsupportedOutput := result.unsupportedOutput
    error := result.error
    retryAfterSeconds := result.retryAfterSeconds
    receipt := some result.receipt }

/-- `conversationReducer`. -/
def conversationReducer (state : ConversationState ε ρ) :
    ConversationAction ε ρ → ConversationState ε ρ
  | .configure patch =>
    if state.locked then state else { state with config := state.config.apply patch }
  | .send turnId attemptId userText =>
    { state with
      locked := true
      turns := state.turns ++ [⟨turnId, userText, [newAttempt attemptId true]⟩]
      inFlight := some ⟨turnId, attemptId⟩ }
  | .retry turnId attemptId =>
    match state.turns.findIdx? (·.id = turnId) with
    | none => state
    | some index =>
      { state with
        turns := state.turns.modify index fun turn => { turn with
          attempts := turn.attempts ++
            [newAttempt attemptId (index = state.turns.length - 1)] }
        inFlight := some ⟨turnId, attemptId⟩ }
  | .streaming turnId attemptId =>
    patchAttempt state turnId attemptId Attempt.startStreaming
  | .delta turnId attemptId text => patchAttempt state turnId attemptId (Attempt.receive text)
  | .settle turnId attemptId result =>
    let next := patchAttempt state turnId attemptId (Attempt.settle result)
    { next with
      inFlight := if next.inFlight = some ⟨turnId, attemptId⟩ then none else next.inFlight
      lastSettled :=
        if state.turns.any (Turn.hasAttempt turnId attemptId) then some ⟨turnId, attemptId⟩
        else state.lastSettled }
  | .newConversation => initialConversationState state.config

/-- `isBusy`. -/
def isBusy (state : ConversationState ε ρ) : Bool := state.inFlight.isSome

/-- `isRetryable`. -/
def isRetryable (turn : Turn ε ρ) : Bool :=
  match lastAttempt turn with
  | none => false
  | some attempt =>
    if attempt.state = .submitting ∨ attempt.state = .streaming then false
    else !commitsContext attempt.state

end Context

end GovAI.Console
