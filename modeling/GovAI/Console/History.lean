import GovAI.Console.Conversation
import GovAI.Library.TransitionSystem
import Mathlib.Data.List.Nodup

/-!
# The history that the console sends

The console page over its reducer: `AiConsolePage.tsx` sends each attempt with the context of its
turn, and its guards admit a new attempt only when none is in flight.  Every answer in the context of
a later turn was given to the context that is now that of its own turn (`HistoryConsistent`), in
every run in which each attempt settles once.  `settle` does not look at the state of the attempt: a
second one rewrites the history of the answers after it (`late_settle_rewrites_history`).
-/

namespace GovAI.Console

variable {ε ρ : Type}

/-! ## The page -/

/-- The page: its conversation, and the requests that it has sent, the latest first. -/
structure PageState (ε ρ : Type) where
  conversation : ConversationState ε ρ
  sent : List (AttemptRef × List ContextMessage)
deriving DecidableEq

/-- The guards of `onSend` and `onRetry`, with an id that is new for the turn or the attempt.  The
other actions come at any time and for any ids. -/
def PageState.Admits (s : PageState ε ρ) : ConversationAction ε ρ → Prop
  | .send turnId _ _ =>
    isBusy s.conversation = false ∧ ∀ turn ∈ s.conversation.turns, turn.id ≠ turnId
  | .retry turnId attemptId =>
    isBusy s.conversation = false ∧ ∃ turn ∈ s.conversation.turns, turn.id = turnId ∧
      isRetryable turn = true ∧ ∀ a ∈ turn.attempts, a.id ≠ attemptId
  | _ => True

instance (s : PageState ε ρ) (action : ConversationAction ε ρ) : Decidable (s.Admits action) :=
  match action with
  | .send turnId _ _ => inferInstanceAs (Decidable
      (isBusy s.conversation = false ∧ ∀ turn ∈ s.conversation.turns, turn.id ≠ turnId))
  | .retry turnId attemptId => inferInstanceAs (Decidable
      (isBusy s.conversation = false ∧ ∃ turn ∈ s.conversation.turns, turn.id = turnId ∧
        isRetryable turn = true ∧ ∀ a ∈ turn.attempts, a.id ≠ attemptId))
  | .configure _ | .streaming _ _ | .delta _ _ _ | .settle _ _ _ | .newConversation => .isTrue trivial

/-- The request of `execute`: the attempt with the context of its turn. -/
def PageState.request (s : PageState ε ρ) :
    ConversationAction ε ρ → List (AttemptRef × List ContextMessage)
  | .send turnId attemptId _ =>
    [(⟨turnId, attemptId⟩, contextForTurn s.conversation.turns s.conversation.turns.length)]
  | .retry turnId attemptId =>
    match s.conversation.turns.findIdx? (·.id = turnId) with
    | none => []
    | some index => [(⟨turnId, attemptId⟩, contextForTurn s.conversation.turns index)]
  | _ => []

/-- One action. -/
def PageState.next (s : PageState ε ρ) (action : ConversationAction ε ρ) : PageState ε ρ where
  conversation := conversationReducer s.conversation action
  sent := s.request action ++ s.sent

/-- The page under every sequence of actions that its guards admit. -/
def pageSystem (ε ρ : Type) : TransitionSystem (PageState ε ρ) (ConversationAction ε ρ) where
  init s := ∃ config, s = ⟨initialConversationState config, []⟩
  step s action s' := s.Admits action ∧ s' = s.next action

/-! ## What a consistent history is -/

/-- A pair of ids names an attempt. -/
def ConversationState.Names (state : ConversationState ε ρ) (r : AttemptRef)
    (turn : Turn ε ρ) (a : Attempt ε ρ) : Prop :=
  turn ∈ state.turns ∧ a ∈ turn.attempts ∧ turn.id = r.turnId ∧ a.id = r.attemptId

/-- The attempt in flight exists and is the only one that has not ended; the one that settled last
exists; one attempt of a turn is replayed at most; and what is replayed was sent with the context
that its turn has now. -/
structure HistoryConsistent (s : PageState ε ρ) : Prop where
  inFlight : ∀ r, s.conversation.inFlight = some r →
    (∃ turn a, s.conversation.Names r turn a) ∧
      ∀ turn ∈ s.conversation.turns, ∀ a ∈ turn.attempts,
        isTerminalState a.state = false ↔ s.conversation.Names r turn a
  lastSettled : ∀ r, s.conversation.lastSettled = some r →
    ∃ turn a, s.conversation.Names r turn a
  oneAnswer : ∀ turn ∈ s.conversation.turns, (turn.attempts.filter Attempt.replays).length ≤ 1
  sentWith : ∀ i turn a, s.conversation.turns[i]? = some turn → lastAttempt turn = some a →
    a.replays = true →
      s.sent.lookup ⟨turn.id, a.id⟩ = some (contextForTurn s.conversation.turns i)

/-- An action that settles an attempt finds it open and ends it. -/
def PageState.SettlesOpen (s : PageState ε ρ) : ConversationAction ε ρ → Prop
  | .settle turnId attemptId result =>
    isTerminalState result.state = true ∧ ∀ turn a, s.conversation.Names ⟨turnId, attemptId⟩ turn a →
      isTerminalState a.state = false
  | _ => True

/-- The attempts to look at are those of the conversation. -/
lemma PageState.settlesOpen_settle_iff {s : PageState ε ρ} {turnId attemptId : String}
    {result : Settlement ε ρ} : s.SettlesOpen (.settle turnId attemptId result) ↔
      isTerminalState result.state = true ∧ ∀ turn ∈ s.conversation.turns, turn.id = turnId →
        ∀ a ∈ turn.attempts, a.id = attemptId → isTerminalState a.state = false := by
  constructor
  · rintro ⟨hend, h⟩
    exact ⟨hend, fun turn hturn hid a ha hid' => h turn a ⟨hturn, ha, hid, hid'⟩⟩
  · rintro ⟨hend, h⟩
    exact ⟨hend, fun turn a hnames => h turn hnames.1 hnames.2.2.1 a hnames.2.1 hnames.2.2.2⟩

instance (s : PageState ε ρ) (action : ConversationAction ε ρ) :
    Decidable (s.SettlesOpen action) :=
  match action with
  | .settle _ _ _ => decidable_of_iff _ PageState.settlesOpen_settle_iff.symm
  | .configure _ | .send _ _ _ | .retry _ _ | .streaming _ _ | .delta _ _ _ | .newConversation =>
    .isTrue trivial

/-! ## Lemmas on the parts of a conversation -/

/-- Only an ended attempt is replayed. -/
lemma isTerminalState_of_commits {state : TurnState} (h : commitsContext state = true) :
    isTerminalState state = true := by
  cases state <;> first | rfl | cases h

lemma Attempt.replays_commits {a : Attempt ε ρ} (h : a.replays = true) :
    commitsContext a.state = true := by
  simp only [Attempt.replays, Bool.and_eq_true] at h
  exact h.1.1

lemma Attempt.replays_eligible {a : Attempt ε ρ} (h : a.replays = true) :
    a.eligibleForContext = true := by
  simp only [Attempt.replays, Bool.and_eq_true] at h
  exact h.1.2

/-- An attempt that has not ended is not replayed. -/
lemma Attempt.replays_of_open {a : Attempt ε ρ} (h : isTerminalState a.state = false) :
    a.replays = false := by
  rw [← Bool.not_eq_true]
  intro hreplays
  rw [isTerminalState_of_commits (Attempt.replays_commits hreplays)] at h
  cases h

/-- A turn whose last attempt is not replayed adds nothing. -/
lemma Turn.contribution_eq_nil {turn : Turn ε ρ}
    (h : ∀ a, lastAttempt turn = some a → a.replays = false) : turn.contribution = [] := by
  unfold Turn.contribution
  split
  · rfl
  · rename_i a ha
    rw [h a ha, if_neg (by decide)]

/-- The context of a turn depends on what the turns before it add. -/
lemma contextForTurn_congr {turns turns' : List (Turn ε ρ)} {n : ℕ}
    (h : ∀ k < n, (turns'[k]?).map Turn.contribution = (turns[k]?).map Turn.contribution) :
    contextForTurn turns' n = contextForTurn turns n := by
  have hmap : (turns'.take n).map Turn.contribution = (turns.take n).map Turn.contribution := by
    refine List.ext_getElem? fun k => ?_
    by_cases hk : k < n
    · simpa [List.getElem?_take_of_lt hk] using h k hk
    · simp [List.getElem?_take_eq_none (Nat.le_of_not_lt hk)]
  rw [contextForTurn, contextForTurn, List.flatMap_def, List.flatMap_def, hmap]

/-! ## The invariant -/

/-- A page in order: ids are unique, an attempt is open exactly when it is in flight, an open attempt
that may be replayed is in the last turn, only the last attempt of a turn is open or completed, and
every attempt that may be replayed was sent with the context of its turn. -/
structure PageState.Ok (s : PageState ε ρ) : Prop where
  turnIds : (s.conversation.turns.map Turn.id).Nodup
  attemptIds : ∀ turn ∈ s.conversation.turns, (turn.attempts.map Attempt.id).Nodup
  named : ∀ r, s.conversation.inFlight = some r → ∃ turn a, s.conversation.Names r turn a
  openIff : ∀ turn ∈ s.conversation.turns, ∀ a ∈ turn.attempts,
    isTerminalState a.state = false ↔ s.conversation.inFlight = some ⟨turn.id, a.id⟩
  settled : ∀ r, s.conversation.lastSettled = some r → ∃ turn a, s.conversation.Names r turn a
  last : ∀ turn ∈ s.conversation.turns, ∀ a ∈ turn.attempts,
    isTerminalState a.state = false ∨ commitsContext a.state = true → lastAttempt turn = some a
  openLast : ∀ i turn a, s.conversation.turns[i]? = some turn → a ∈ turn.attempts →
    isTerminalState a.state = false → a.eligibleForContext = true →
      i + 1 = s.conversation.turns.length
  sentWith : ∀ i turn a, s.conversation.turns[i]? = some turn → a ∈ turn.attempts →
    a.eligibleForContext = true →
      s.sent.lookup ⟨turn.id, a.id⟩ = some (contextForTurn s.conversation.turns i)

/-- A page in order has a consistent history. -/
lemma PageState.Ok.historyConsistent {s : PageState ε ρ} (h : s.Ok) : HistoryConsistent s where
  inFlight r hr := by
    refine ⟨h.named r hr, fun turn hturn a ha => ?_⟩
    rw [h.openIff turn hturn a ha, hr, Option.some.injEq]
    constructor
    · rintro rfl
      exact ⟨hturn, ha, rfl, rfl⟩
    · rintro ⟨-, -, hid, hid'⟩
      rw [hid, hid']
  lastSettled := h.settled
  oneAnswer turn hturn := by
    have hnodup : (turn.attempts.filter Attempt.replays).Nodup :=
      (List.Nodup.of_map _ (h.attemptIds turn hturn)).filter _
    have hlast : ∀ a ∈ turn.attempts.filter Attempt.replays, lastAttempt turn = some a := by
      intro a ha
      obtain ⟨hmem, hreplays⟩ := List.mem_filter.mp ha
      exact h.last turn hturn a hmem (.inr (Attempt.replays_commits hreplays))
    cases hl : turn.attempts.filter Attempt.replays with
    | nil => exact Nat.zero_le 1
    | cons a rest =>
      cases rest with
      | nil => exact le_rfl
      | cons b rest =>
        rw [hl] at hnodup hlast
        have hab : a = b := Option.some.inj
          ((hlast a (by simp)).symm.trans (hlast b (by simp)))
        exact absurd (by rw [hab]; exact List.mem_cons_self) (List.nodup_cons.mp hnodup).1
  sentWith i turn a hi hlast hreplays :=
    h.sentWith i turn a hi (List.mem_of_getLast? hlast) (Attempt.replays_eligible hreplays)

/-- The first state is in order. -/
lemma PageState.ok_initial (config : ConversationConfig) :
    PageState.Ok (⟨initialConversationState config, []⟩ : PageState ε ρ) where
  turnIds := List.nodup_nil
  attemptIds := List.forall_mem_nil _
  named _ h := by cases h
  openIff := List.forall_mem_nil _
  settled _ h := by cases h
  last := List.forall_mem_nil _
  openLast _ _ _ h := by cases h
  sentWith _ _ _ h := by cases h

/-! ## Changes to one attempt -/

section Patch

variable {turnId attemptId : String} {patch : Attempt ε ρ → Attempt ε ρ}

/-- A change of an attempt that keeps what it is: its id and whether it may be replayed. -/
structure KeepsIdentity (patch : Attempt ε ρ → Attempt ε ρ) : Prop where
  id : ∀ a, (patch a).id = a.id
  eligible : ∀ a, (patch a).eligibleForContext = a.eligibleForContext

@[simp] lemma Turn.patchAttempt_id (turn : Turn ε ρ) :
    (turn.patchAttempt turnId attemptId patch).id = turn.id := by
  unfold Turn.patchAttempt
  split <;> rfl

/-- The attempts of a turn after a change. -/
lemma Turn.mem_patchAttempt {turn : Turn ε ρ} {b : Attempt ε ρ} :
    b ∈ (turn.patchAttempt turnId attemptId patch).attempts ↔
      ∃ a ∈ turn.attempts, b = if turn.id = turnId ∧ a.id = attemptId then patch a else a := by
  unfold Turn.patchAttempt
  by_cases ht : turn.id = turnId
  · simp [ht, List.mem_map, eq_comm]
  · simp [ht]

/-- The last attempt of a turn after a change. -/
lemma lastAttempt_patchAttempt (turn : Turn ε ρ) :
    lastAttempt (turn.patchAttempt turnId attemptId patch) = (lastAttempt turn).map fun a =>
      if turn.id = turnId ∧ a.id = attemptId then patch a else a := by
  unfold Turn.patchAttempt lastAttempt
  by_cases ht : turn.id = turnId
  · simp [ht, List.getLast?_map]
  · simp [ht]

/-- A change keeps the ids of the attempts. -/
lemma Turn.patchAttempt_ids (hkeeps : KeepsIdentity patch) (turn : Turn ε ρ) :
    (turn.patchAttempt turnId attemptId patch).attempts.map Attempt.id =
      turn.attempts.map Attempt.id := by
  unfold Turn.patchAttempt
  split
  · rw [List.map_map]
    refine List.map_congr_left fun a _ => ?_
    simp only [Function.comp_apply]
    split
    · exact hkeeps.id a
    · rfl
  · rfl

/-- The pair of ids of an attempt after a change names it before. -/
lemma ConversationState.Names.patchAttempt {state : ConversationState ε ρ} {r : AttemptRef}
    {turn : Turn ε ρ} {a : Attempt ε ρ} (hkeeps : KeepsIdentity patch) (h : state.Names r turn a) :
    ∃ turn' a', ConversationState.Names
      { state with turns := state.turns.map (Turn.patchAttempt turnId attemptId patch) }
      r turn' a' := by
  obtain ⟨hturn, ha, hid, hid'⟩ := h
  refine ⟨_, _, List.mem_map_of_mem hturn, Turn.mem_patchAttempt.mpr ⟨a, ha, rfl⟩, ?_, ?_⟩
  · rw [Turn.patchAttempt_id, hid]
  · split
    · rw [hkeeps.id, hid']
    · exact hid'

/-- A change of an open attempt that leaves it open. -/
structure OpenChange (patch : Attempt ε ρ → Attempt ε ρ) : Prop extends KeepsIdentity patch where
  terminal : ∀ a, isTerminalState (patch a).state = isTerminalState a.state
  ended : ∀ a, isTerminalState a.state = true → patch a = a

lemma openChange_startStreaming : OpenChange (Attempt.startStreaming : Attempt ε ρ → _) := by
  refine ⟨⟨fun a => ?_, fun a => ?_⟩, fun a => ?_, fun a h => ?_⟩ <;>
    unfold Attempt.startStreaming <;> split
  · rfl
  · rfl
  · rfl
  · rfl
  · rename_i hstate
    rw [hstate]
    rfl
  · rfl
  · rename_i hstate
    rw [hstate] at h
    cases h
  · rfl

lemma openChange_receive (text : String) : OpenChange (Attempt.receive text : Attempt ε ρ → _) := by
  refine ⟨⟨fun a => ?_, fun a => ?_⟩, fun a => ?_, fun a h => ?_⟩ <;>
    unfold Attempt.receive <;> split
  · rfl
  · rfl
  · rfl
  · rfl
  · rename_i hstate
    rcases hstate with hstate | hstate
    · rw [hstate]
    · rw [hstate]
      rfl
  · rfl
  · rename_i hstate
    rcases hstate with hstate | hstate <;> rw [hstate] at h <;> cases h
  · rfl

/-- Turns with the same question and the same replayed answer add the same. -/
lemma Turn.contribution_congr {turn turn' : Turn ε ρ} (htext : turn'.userText = turn.userText)
    (h : lastAttempt turn' = lastAttempt turn ∨
      (∀ a, lastAttempt turn' = some a → a.replays = false) ∧
        ∀ a, lastAttempt turn = some a → a.replays = false) :
    turn'.contribution = turn.contribution := by
  rcases h with h | ⟨h', h⟩
  · rw [Turn.contribution, Turn.contribution, h, htext]
  · rw [Turn.contribution_eq_nil h', Turn.contribution_eq_nil h]

lemma Turn.patchAttempt_userText (turn : Turn ε ρ) :
    (turn.patchAttempt turnId attemptId patch).userText = turn.userText := by
  unfold Turn.patchAttempt
  split <;> rfl

/-- What is still open adds nothing, before the change and after it. -/
lemma OpenChange.contribution (hp : OpenChange patch) (turn : Turn ε ρ) :
    (turn.patchAttempt turnId attemptId patch).contribution = turn.contribution := by
  refine Turn.contribution_congr (Turn.patchAttempt_userText turn) ?_
  rw [lastAttempt_patchAttempt]
  cases hlast : lastAttempt turn with
  | none => exact .inl rfl
  | some a =>
    rw [Option.map_some]
    split
    · cases hend : isTerminalState a.state with
      | true => exact .inl (by rw [hp.ended a hend])
      | false =>
        refine .inr ⟨?_, ?_⟩
        · rintro b ⟨⟩
          exact Attempt.replays_of_open ((hp.terminal a).trans hend)
        · rintro b ⟨⟩
          exact Attempt.replays_of_open hend
    · exact .inl rfl

end Patch

/-! ## The actions -/

section Actions

variable {s s' : PageState ε ρ} {turnId attemptId : String}

/-- Only the turns, the two marks and the requests matter. -/
lemma PageState.Ok.congr (h : s.Ok) (hturns : s'.conversation.turns = s.conversation.turns)
    (hflight : s'.conversation.inFlight = s.conversation.inFlight)
    (hsettled : s'.conversation.lastSettled = s.conversation.lastSettled)
    (hsent : s'.sent = s.sent) : s'.Ok := by
  obtain ⟨⟨config, locked, turns, inFlight, lastSettled⟩, sent⟩ := s
  obtain ⟨⟨config', locked', turns', inFlight', lastSettled'⟩, sent'⟩ := s'
  subst hturns hflight hsettled hsent
  exact ⟨h.turnIds, h.attemptIds, h.named, h.openIff, h.settled, h.last, h.openLast, h.sentWith⟩

/-- A turn of the conversation after a change of one attempt. -/
lemma getElem?_patch {turns : List (Turn ε ρ)} {patch : Attempt ε ρ → Attempt ε ρ} {i : ℕ}
    {turn' : Turn ε ρ}
    (h : (turns.map (Turn.patchAttempt turnId attemptId patch))[i]? = some turn') :
    ∃ turn, turns[i]? = some turn ∧ turn' = turn.patchAttempt turnId attemptId patch := by
  rw [List.getElem?_map, Option.map_eq_some_iff] at h
  obtain ⟨turn, hturn, rfl⟩ := h
  exact ⟨turn, hturn, rfl⟩

/-- A change of one attempt keeps the page in order, if the open attempt is still the one in flight
and the contexts of what may be replayed are the same. -/
lemma PageState.Ok.patch {patch : Attempt ε ρ → Attempt ε ρ} {inFlight lastSettled : Option AttemptRef}
    (h : s.Ok) (hp : KeepsIdentity patch)
    (hnamed : ∀ r, inFlight = some r → ∃ turn a, s.conversation.Names r turn a)
    (hsettled : ∀ r, lastSettled = some r → ∃ turn a, s.conversation.Names r turn a)
    (hopen : ∀ turn ∈ s.conversation.turns, ∀ a ∈ turn.attempts, isTerminalState
      (if turn.id = turnId ∧ a.id = attemptId then patch a else a).state = false ↔
        inFlight = some ⟨turn.id, a.id⟩)
    (hkeep : inFlight = none ∨ inFlight = s.conversation.inFlight)
    (hlast : ∀ turn ∈ s.conversation.turns, ∀ a ∈ turn.attempts, turn.id = turnId →
      a.id = attemptId → isTerminalState (patch a).state = false ∨
        commitsContext (patch a).state = true → lastAttempt turn = some a)
    (hcontext : ∀ i turn a, s.conversation.turns[i]? = some turn → a ∈ turn.attempts →
      a.eligibleForContext = true → contextForTurn
        (s.conversation.turns.map (Turn.patchAttempt turnId attemptId patch)) i =
          contextForTurn s.conversation.turns i) :
    PageState.Ok { s with conversation := { s.conversation with
      turns := s.conversation.turns.map (Turn.patchAttempt turnId attemptId patch)
      inFlight := inFlight
      lastSettled := lastSettled } } := by
  have hid : ∀ (turn : Turn ε ρ) (a : Attempt ε ρ),
      (if turn.id = turnId ∧ a.id = attemptId then patch a else a).id = a.id := by
    intro turn a
    split
    · exact hp.id a
    · rfl
  have heligible : ∀ (turn : Turn ε ρ) (a : Attempt ε ρ),
      (if turn.id = turnId ∧ a.id = attemptId then patch a else a).eligibleForContext =
        a.eligibleForContext := by
    intro turn a
    split
    · exact hp.eligible a
    · rfl
  constructor
  · have hmap : (s.conversation.turns.map (Turn.patchAttempt turnId attemptId patch)).map Turn.id =
        s.conversation.turns.map Turn.id := by
      rw [List.map_map]
      exact List.map_congr_left fun turn _ => Turn.patchAttempt_id turn
    exact hmap ▸ h.turnIds
  · intro turn' hturn'
    obtain ⟨turn, hturn, rfl⟩ := List.mem_map.mp hturn'
    rw [Turn.patchAttempt_ids hp]
    exact h.attemptIds turn hturn
  · intro r hr
    obtain ⟨turn, a, hnames⟩ := hnamed r hr
    exact hnames.patchAttempt hp
  · intro turn' hturn' b hb
    obtain ⟨turn, hturn, rfl⟩ := List.mem_map.mp hturn'
    obtain ⟨a, ha, rfl⟩ := Turn.mem_patchAttempt.mp hb
    rw [hopen turn hturn a ha, Turn.patchAttempt_id, hid]
  · intro r hr
    obtain ⟨turn, a, hnames⟩ := hsettled r hr
    exact hnames.patchAttempt hp
  · intro turn' hturn' b hb hstate
    obtain ⟨turn, hturn, rfl⟩ := List.mem_map.mp hturn'
    obtain ⟨a, ha, rfl⟩ := Turn.mem_patchAttempt.mp hb
    have hlast' : lastAttempt turn = some a := by
      by_cases hnamed : turn.id = turnId ∧ a.id = attemptId
      · rw [if_pos hnamed] at hstate
        exact hlast turn hturn a ha hnamed.1 hnamed.2 hstate
      · rw [if_neg hnamed] at hstate
        exact h.last turn hturn a ha hstate
    rw [lastAttempt_patchAttempt, hlast', Option.map_some]
  · intro i turn' b hi hb hend hel
    obtain ⟨turn, hturn, rfl⟩ := getElem?_patch hi
    obtain ⟨a, ha, rfl⟩ := Turn.mem_patchAttempt.mp hb
    rw [hopen turn (List.mem_of_getElem? hturn) a ha] at hend
    rcases hkeep with hnone | hkeep
    · rw [hnone] at hend
      cases hend
    · rw [heligible] at hel
      rw [hkeep, ← h.openIff turn (List.mem_of_getElem? hturn) a ha] at hend
      rw [h.openLast i turn a hturn ha hend hel, List.length_map]
  · intro i turn' b hi hb hel
    obtain ⟨turn, hturn, rfl⟩ := getElem?_patch hi
    obtain ⟨a, ha, rfl⟩ := Turn.mem_patchAttempt.mp hb
    rw [heligible] at hel
    rw [Turn.patchAttempt_id, hid, hcontext i turn a hturn ha hel]
    exact h.sentWith i turn a hturn ha hel

/-- A change that leaves an open attempt open keeps the page in order. -/
lemma PageState.Ok.patchOpen {patch : Attempt ε ρ → Attempt ε ρ} (h : s.Ok) (hp : OpenChange patch) :
    PageState.Ok { s with conversation := patchAttempt s.conversation turnId attemptId patch } := by
  unfold patchAttempt
  split
  · refine h.patch hp.toKeepsIdentity h.named h.settled ?_ (.inr rfl) ?_ ?_
    · intro turn hturn a ha
      rw [← h.openIff turn hturn a ha]
      split
      · rw [hp.terminal]
      · rfl
    · intro turn hturn a ha _ _ hstate
      rcases hstate with hopen | hcommits
      · exact h.last turn hturn a ha (.inl ((hp.terminal a).symm.trans hopen))
      · have hend : isTerminalState a.state = true :=
          (hp.terminal a).symm.trans (isTerminalState_of_commits hcommits)
        rw [hp.ended a hend] at hcommits
        exact h.last turn hturn a ha (.inr hcommits)
    · intro i turn a _ _ _
      refine contextForTurn_congr fun k _ => ?_
      rw [List.getElem?_map, Option.map_map]
      congr 1
      funext turn
      exact hp.contribution turn
  · exact h

/-- The attempt that a pair of ids names is found by `patchAttempt`. -/
lemma any_hasAttempt_iff {state : ConversationState ε ρ} :
    state.turns.any (Turn.hasAttempt turnId attemptId) = true ↔
      ∃ turn a, state.Names ⟨turnId, attemptId⟩ turn a := by
  simp only [List.any_eq_true, Turn.hasAttempt, Bool.and_eq_true, decide_eq_true_eq]
  constructor
  · rintro ⟨turn, hturn, hid, a, ha, hid'⟩
    exact ⟨turn, a, hturn, ha, hid, hid'⟩
  · rintro ⟨turn, a, hturn, ha, hid, hid'⟩
    exact ⟨turn, hturn, hid, a, ha, hid'⟩

/-- The state of an attempt that settles. -/
lemma Attempt.settle_replays {result : Settlement ε ρ} {a : Attempt ε ρ}
    (h : a.eligibleForContext = false) : (a.settle result).replays = false := by
  have heligible : (a.settle result).eligibleForContext = false := h
  rw [Attempt.replays, heligible, Bool.and_false, Bool.false_and]

/-- Settling the attempt in flight changes no context that a replayed answer was sent with. -/
lemma PageState.Ok.contribution_settle (h : s.Ok) {result : Settlement ε ρ} {k : ℕ}
    (hk : k + 1 < s.conversation.turns.length) {turn : Turn ε ρ}
    (hturn : s.conversation.turns[k]? = some turn)
    (hopen : ∀ a ∈ turn.attempts, turn.id = turnId → a.id = attemptId →
      isTerminalState a.state = false) :
    (turn.patchAttempt turnId attemptId (Attempt.settle result)).contribution =
      turn.contribution := by
  refine Turn.contribution_congr (Turn.patchAttempt_userText turn) ?_
  rw [lastAttempt_patchAttempt]
  cases hlast : lastAttempt turn with
  | none => exact .inl rfl
  | some a =>
    rw [Option.map_some]
    split
    · rename_i hnamed
      have ha : a ∈ turn.attempts := List.mem_of_getLast? hlast
      have hend := hopen a ha hnamed.1 hnamed.2
      -- an open attempt before the last turn may not be replayed
      have hel : a.eligibleForContext = false := by
        rw [← Bool.not_eq_true]
        intro hel
        have := h.openLast k turn a hturn ha hend hel
        omega
      refine .inr ⟨?_, ?_⟩
      · rintro b ⟨⟩
        exact Attempt.settle_replays hel
      · rintro b ⟨⟩
        exact Attempt.replays_of_open hend
    · exact .inl rfl

/-- Settling the attempt in flight keeps the page in order. -/
lemma PageState.Ok.settle (h : s.Ok) {result : Settlement ε ρ}
    (hc : s.SettlesOpen (.settle turnId attemptId result)) :
    (s.next (.settle turnId attemptId result)).Ok := by
  obtain ⟨hend, hopen⟩ := hc
  by_cases hnames : ∃ turn a, s.conversation.Names ⟨turnId, attemptId⟩ turn a
  · obtain ⟨turn₀, a₀, hnamed⟩ := id hnames
    obtain ⟨hturn₀, ha₀, hid, hid'⟩ := id hnamed
    have hflight : s.conversation.inFlight = some ⟨turnId, attemptId⟩ := by
      have h₀ := (h.openIff turn₀ hturn₀ a₀ ha₀).mp (hopen turn₀ a₀ hnamed)
      rwa [hid, hid'] at h₀
    have hany := any_hasAttempt_iff.mpr hnames
    have hpatch : KeepsIdentity (Attempt.settle result) := ⟨fun _ => rfl, fun _ => rfl⟩
    have hcontext : ∀ i turn a, s.conversation.turns[i]? = some turn → a ∈ turn.attempts →
        a.eligibleForContext = true → contextForTurn (s.conversation.turns.map
          (Turn.patchAttempt turnId attemptId (Attempt.settle result))) i =
            contextForTurn s.conversation.turns i := by
      intro i turn a hi _ _
      refine contextForTurn_congr fun k hk => ?_
      obtain ⟨hlen, -⟩ := List.getElem?_eq_some_iff.mp hi
      rw [List.getElem?_map]
      cases hk' : s.conversation.turns[k]? with
      | none => rfl
      | some turn' =>
        rw [Option.map_some, Option.map_some, Option.map_some]
        exact congrArg some (h.contribution_settle (by omega) hk' fun b hb ht hb' =>
          hopen turn' b ⟨List.mem_of_getElem? hk', hb, ht, hb'⟩)
    have hok : PageState.Ok { s with conversation := { s.conversation with
        turns := s.conversation.turns.map
          (Turn.patchAttempt turnId attemptId (Attempt.settle result))
        inFlight := none
        lastSettled := some ⟨turnId, attemptId⟩ } } := by
      refine h.patch hpatch (by simp) ?_ ?_ (.inl rfl) ?_ hcontext
      · rintro r ⟨⟩
        exact hnames
      · intro turn hturn a ha
        simp only [reduceCtorEq, iff_false, Bool.not_eq_false]
        split
        · exact hend
        · rename_i hother
          rw [← Bool.not_eq_false, h.openIff turn hturn a ha, hflight]
          rintro ⟨⟩
          exact hother ⟨rfl, rfl⟩
      · intro turn hturn a ha ht ha' _
        exact h.last turn hturn a ha (.inl (hopen turn a ⟨hturn, ha, ht, ha'⟩))
    refine hok.congr ?_ ?_ ?_ rfl
    · rw [PageState.next, conversationReducer, patchAttempt, if_pos hany]
    · rw [PageState.next, conversationReducer, patchAttempt, if_pos hany]
      exact if_pos hflight
    · rw [PageState.next, conversationReducer]
      exact if_pos hany
  · have hany : s.conversation.turns.any (Turn.hasAttempt turnId attemptId) = false := by
      rw [← Bool.not_eq_true, any_hasAttempt_iff]
      exact hnames
    have hpatch : patchAttempt s.conversation turnId attemptId (Attempt.settle result) =
        s.conversation := by
      rw [patchAttempt, hany, if_neg (by decide)]
    refine h.congr ?_ ?_ ?_ rfl
    · rw [PageState.next, conversationReducer, hpatch]
    · rw [PageState.next, conversationReducer, hpatch]
      refine if_neg fun hflight => hnames ?_
      exact h.named _ hflight
    · rw [PageState.next, conversationReducer, hany]
      rfl

/-- Without an attempt in flight every attempt has ended. -/
lemma PageState.Ok.ended (h : s.Ok) (hidle : isBusy s.conversation = false) :
    ∀ turn ∈ s.conversation.turns, ∀ a ∈ turn.attempts, isTerminalState a.state = true := by
  intro turn hturn a ha
  have hnone : s.conversation.inFlight = none := by simpa [isBusy] using hidle
  rw [← Bool.not_eq_false, h.openIff turn hturn a ha, hnone]
  exact nofun

/-- The turns of a conversation with one more. -/
lemma getElem?_concat {turns : List (Turn ε ρ)} {turn turn' : Turn ε ρ} {i : ℕ}
    (h : (turns ++ [turn])[i]? = some turn') :
    turns[i]? = some turn' ∨ i = turns.length ∧ turn' = turn := by
  by_cases hi : i < turns.length
  · rw [List.getElem?_append_left hi] at h
    exact .inl h
  · rw [List.getElem?_append_right (Nat.le_of_not_lt hi), List.getElem?_singleton] at h
    split at h
    · exact .inr ⟨by omega, (Option.some.inj h).symm⟩
    · cases h

/-- The contexts of the turns there are do not change when one is added. -/
lemma contextForTurn_append (turns : List (Turn ε ρ)) (turn : Turn ε ρ) {i : ℕ}
    (hi : i ≤ turns.length) : contextForTurn (turns ++ [turn]) i = contextForTurn turns i := by
  rw [contextForTurn, contextForTurn, List.take_append_of_le_length hi]

/-- A new turn keeps the page in order. -/
lemma PageState.Ok.send {userText : String} (h : s.Ok)
    (hg : s.Admits (.send turnId attemptId userText)) :
    (s.next (.send turnId attemptId userText)).Ok := by
  obtain ⟨hidle, hfresh⟩ := hg
  have hends := h.ended hidle
  have hnew : ∀ a ∈ [(newAttempt attemptId true : Attempt ε ρ)], a = newAttempt attemptId true :=
    fun a ha => List.mem_singleton.mp ha
  constructor
  · change ((s.conversation.turns ++ [_]).map Turn.id).Nodup
    rw [List.map_append, List.nodup_append]
    refine ⟨h.turnIds, List.nodup_singleton _, ?_⟩
    rintro x hx y hy rfl
    obtain ⟨turn, hturn, rfl⟩ := List.mem_map.mp hx
    exact hfresh turn hturn (List.mem_singleton.mp hy)
  · intro turn hturn
    rcases List.mem_append.mp hturn with hturn | hturn
    · exact h.attemptIds turn hturn
    · rw [List.mem_singleton.mp hturn]
      exact List.nodup_singleton _
  · rintro r ⟨⟩
    exact ⟨_, newAttempt attemptId true, List.mem_append_right _ (List.mem_singleton_self _),
      List.mem_singleton_self _, rfl, rfl⟩
  · intro turn hturn a ha
    rcases List.mem_append.mp hturn with hturn | hturn
    · rw [hends turn hturn a ha]
      refine iff_of_false nofun fun hflight => ?_
      exact hfresh turn hturn (congrArg AttemptRef.turnId (Option.some.inj hflight)).symm
    · rw [List.mem_singleton.mp hturn] at ha ⊢
      rw [hnew a ha]
      exact iff_of_true rfl rfl
  · intro r hr
    obtain ⟨turn, a, hturn, hrest⟩ := h.settled r hr
    exact ⟨turn, a, List.mem_append_left _ hturn, hrest⟩
  · intro turn hturn a ha hstate
    rcases List.mem_append.mp hturn with hturn | hturn
    · exact h.last turn hturn a ha hstate
    · rw [List.mem_singleton.mp hturn] at ha ⊢
      rw [hnew a ha]
      rfl
  · intro i turn a hi ha hend _
    rcases getElem?_concat hi with hi | ⟨rfl, rfl⟩
    · rw [hends turn (List.mem_of_getElem? hi) a ha] at hend
      cases hend
    · change _ = (s.conversation.turns ++ [_]).length
      rw [List.length_append]
      rfl
  · intro i turn a hi ha hel
    change (((⟨turnId, attemptId⟩ : AttemptRef), _) :: s.sent).lookup ⟨turn.id, a.id⟩ =
      some (contextForTurn (s.conversation.turns ++ [_]) i)
    rcases getElem?_concat hi with hi | ⟨rfl, rfl⟩
    · have hother : (⟨turn.id, a.id⟩ : AttemptRef) ≠ ⟨turnId, attemptId⟩ := by
        intro heq
        exact hfresh turn (List.mem_of_getElem? hi) (congrArg AttemptRef.turnId heq)
      obtain ⟨hlt, -⟩ := List.getElem?_eq_some_iff.mp hi
      rw [List.lookup_cons, beq_false_of_ne hother, contextForTurn_append _ _ hlt.le]
      exact h.sentWith i turn a hi ha hel
    · rw [hnew a ha, contextForTurn_append _ _ le_rfl]
      exact List.lookup_cons_self

/-- The turn that is retried is the one that the guard looked at. -/
lemma PageState.Ok.findIdx?_turn (h : s.Ok) {turn : Turn ε ρ} (hturn : turn ∈ s.conversation.turns) :
    ∃ index, s.conversation.turns.findIdx? (·.id = turn.id) = some index ∧
      s.conversation.turns[index]? = some turn := by
  obtain ⟨index, hindex⟩ : ∃ index, s.conversation.turns.findIdx? (·.id = turn.id) = some index := by
    rw [← Option.isSome_iff_exists, List.findIdx?_isSome]
    exact List.any_eq_true.mpr ⟨turn, hturn, decide_eq_true rfl⟩
  obtain ⟨hlt, hid, -⟩ := List.findIdx?_eq_some_iff_getElem.mp hindex
  refine ⟨index, hindex, ?_⟩
  rw [List.getElem?_eq_getElem hlt]
  exact congrArg some (List.inj_on_of_nodup_map h.turnIds (List.getElem_mem hlt) hturn
    (of_decide_eq_true hid))

/-- A turn with a retry. -/
def Turn.retried (turn : Turn ε ρ) (attemptId : String) (eligible : Bool) : Turn ε ρ :=
  { turn with attempts := turn.attempts ++ [newAttempt attemptId eligible] }

/-- The turns of a conversation with a retry of one of them. -/
lemma getElem?_retried {turns : List (Turn ε ρ)} {index j : ℕ} {eligible : Bool}
    {turn₀ turn' : Turn ε ρ} (hids : (turns.map Turn.id).Nodup) (hat : turns[index]? = some turn₀)
    (h : (turns.modify index fun turn => turn.retried attemptId eligible)[j]? = some turn') :
    j = index ∧ turn' = turn₀.retried attemptId eligible ∨
      j ≠ index ∧ turns[j]? = some turn' ∧ turn'.id ≠ turn₀.id := by
  rw [List.getElem?_modify] at h
  by_cases hj : index = j
  · subst hj
    rw [hat] at h
    exact .inl ⟨rfl, (by simpa using h.symm)⟩
  · have hj' : turns[j]? = some turn' := by simpa [hj] using h
    refine .inr ⟨Ne.symm hj, hj', fun hid => hj ?_⟩
    obtain ⟨hlt, hget⟩ := List.getElem?_eq_some_iff.mp hat
    obtain ⟨hlt', hget'⟩ := List.getElem?_eq_some_iff.mp hj'
    refine (@List.Nodup.getElem_inj_iff _ _ hids index (by simpa using hlt) j
      (by simpa using hlt')).mp ?_
    rw [List.getElem_map, List.getElem_map, hget, hget', hid]

/-- A retry of a turn that may be retried adds nothing to a context. -/
lemma contextForTurn_retried {turns : List (Turn ε ρ)} {index : ℕ} {eligible : Bool}
    {turn₀ : Turn ε ρ} (hat : turns[index]? = some turn₀)
    (hnot : ∀ a, lastAttempt turn₀ = some a → a.replays = false) (i : ℕ) :
    contextForTurn (turns.modify index fun turn => turn.retried attemptId eligible) i =
      contextForTurn turns i := by
  refine contextForTurn_congr fun k _ => ?_
  rw [List.getElem?_modify]
  by_cases hk : index = k
  · subst hk
    rw [hat]
    refine congrArg some (@Turn.contribution_congr _ _ turn₀ _ ?_ (.inr ⟨?_, hnot⟩))
    · simp [Turn.retried]
    · intro a ha
      have hnew : a = newAttempt attemptId eligible := by
        simpa [lastAttempt, Turn.retried, eq_comm] using ha
      rw [hnew]
      exact Attempt.replays_of_open rfl
  · simp [hk]

/-- A turn that may be retried has no completed attempt. -/
lemma not_commits_of_isRetryable {turn : Turn ε ρ} (h : isRetryable turn = true) :
    ∀ a, lastAttempt turn = some a → commitsContext a.state = false := by
  intro a ha
  rw [isRetryable, ha] at h
  dsimp only at h
  split at h
  · cases h
  · simpa using h

/-- A retry keeps the page in order. -/
lemma PageState.Ok.retry (h : s.Ok) (hg : s.Admits (.retry turnId attemptId)) :
    (s.next (.retry turnId attemptId)).Ok := by
  obtain ⟨hidle, turn₀, hturn₀, rfl, hretryable, hfresh⟩ := hg
  obtain ⟨index, hindex, hat⟩ := h.findIdx?_turn hturn₀
  obtain ⟨hlt, -⟩ := List.getElem?_eq_some_iff.mp hat
  have hends : ∀ turn ∈ s.conversation.turns, ∀ a ∈ turn.attempts,
      isTerminalState a.state = true := h.ended hidle
  have hnot : ∀ a, lastAttempt turn₀ = some a → a.replays = false := by
    intro a ha
    rw [← Bool.not_eq_true]
    intro hreplays
    have := not_commits_of_isRetryable hretryable a ha
    rw [Attempt.replays_commits hreplays] at this
    cases this
  set eligible : Bool := decide (index = s.conversation.turns.length - 1) with heligible
  have hnext : s.next (.retry turn₀.id attemptId) =
      { conversation := { s.conversation with
          turns := s.conversation.turns.modify index fun turn => turn.retried attemptId eligible
          inFlight := some ⟨turn₀.id, attemptId⟩ }
        sent := (⟨turn₀.id, attemptId⟩, contextForTurn s.conversation.turns index) :: s.sent } := by
    rw [PageState.next, conversationReducer, PageState.request, hindex]
    rfl
  rw [hnext]
  -- a turn after the retry is the one retried, or one that was there
  have hmem : ∀ turn ∈ s.conversation.turns.modify index fun turn => turn.retried attemptId eligible,
      turn = turn₀.retried attemptId eligible ∨
        turn ∈ s.conversation.turns ∧ turn.id ≠ turn₀.id := by
    intro turn hturn
    obtain ⟨j, hj⟩ := List.mem_iff_getElem?.mp hturn
    rcases getElem?_retried h.turnIds hat hj with ⟨-, rfl⟩ | ⟨-, hj', hother⟩
    · exact .inl rfl
    · exact .inr ⟨List.mem_of_getElem? hj', hother⟩
  have hretried : turn₀.retried attemptId eligible ∈
      s.conversation.turns.modify index fun turn => turn.retried attemptId eligible := by
    refine List.mem_of_getElem? (i := index) ?_
    rw [List.getElem?_modify, hat]
    simp
  have hkeeps : ∀ turn ∈ s.conversation.turns, ∀ a ∈ turn.attempts, ∃ turn',
      turn' ∈ s.conversation.turns.modify index (fun turn => turn.retried attemptId eligible) ∧
        a ∈ turn'.attempts ∧ turn'.id = turn.id := by
    intro turn hturn a ha
    obtain ⟨j, hj⟩ := List.mem_iff_getElem?.mp hturn
    by_cases hji : index = j
    · subst hji
      obtain rfl : turn = turn₀ := Option.some.inj (hj.symm.trans hat)
      exact ⟨_, hretried, List.mem_append_left _ ha, rfl⟩
    · refine ⟨turn, List.mem_of_getElem? (i := j) ?_, ha, rfl⟩
      rw [List.getElem?_modify, hj]
      simp [hji]
  constructor
  · have hids : (s.conversation.turns.modify index fun turn =>
        turn.retried attemptId eligible).map Turn.id = s.conversation.turns.map Turn.id := by
      refine List.ext_getElem? fun j => ?_
      rw [List.getElem?_map, List.getElem?_map, List.getElem?_modify]
      cases s.conversation.turns[j]? with
      | none => rfl
      | some turn => by_cases hj : index = j <;> simp [hj, Turn.retried]
    exact hids ▸ h.turnIds
  · intro turn hturn
    rcases hmem turn hturn with rfl | ⟨hturn', -⟩
    · change ((turn₀.attempts ++ [_]).map Attempt.id).Nodup
      rw [List.map_append, List.nodup_append]
      refine ⟨h.attemptIds turn₀ hturn₀, List.nodup_singleton _, ?_⟩
      rintro x hx y hy rfl
      obtain ⟨a, ha, rfl⟩ := List.mem_map.mp hx
      exact hfresh a ha (List.mem_singleton.mp hy)
    · exact h.attemptIds turn hturn'
  · rintro r ⟨⟩
    exact ⟨_, newAttempt attemptId eligible, hretried,
      List.mem_append_right _ (List.mem_singleton_self _), rfl, rfl⟩
  · intro turn hturn a ha
    rcases hmem turn hturn with rfl | ⟨hturn', hother⟩
    · rcases List.mem_append.mp ha with ha | ha
      · rw [hends turn₀ hturn₀ a ha]
        refine iff_of_false nofun fun hflight => ?_
        exact hfresh a ha (congrArg AttemptRef.attemptId (Option.some.inj hflight)).symm
      · rw [List.mem_singleton.mp ha]
        exact iff_of_true rfl rfl
    · rw [hends turn hturn' a ha]
      refine iff_of_false nofun fun hflight => ?_
      exact hother (congrArg AttemptRef.turnId (Option.some.inj hflight)).symm
  · intro r hr
    obtain ⟨turn, a, hturn, ha, hid, hid'⟩ := h.settled r hr
    obtain ⟨turn', hturn', ha', hid''⟩ := hkeeps turn hturn a ha
    exact ⟨turn', a, hturn', ha', hid''.trans hid, hid'⟩
  · intro turn hturn a ha hstate
    rcases hmem turn hturn with rfl | ⟨hturn', -⟩
    · rcases List.mem_append.mp ha with ha | ha
      · rcases hstate with hstate | hstate
        · rw [hends turn₀ hturn₀ a ha] at hstate
          cases hstate
        · have hlast := h.last turn₀ hturn₀ a ha (.inr hstate)
          rw [not_commits_of_isRetryable hretryable a hlast] at hstate
          cases hstate
      · rw [List.mem_singleton.mp ha]
        exact List.getLast?_concat
    · exact h.last turn hturn' a ha hstate
  · intro i turn a hi ha hend hel
    rw [List.length_modify]
    rcases getElem?_retried h.turnIds hat hi with ⟨rfl, rfl⟩ | ⟨-, hi', -⟩
    · rcases List.mem_append.mp ha with ha | ha
      · rw [hends turn₀ hturn₀ a ha] at hend
        cases hend
      · rw [List.mem_singleton.mp ha] at hel
        have hlast : i = s.conversation.turns.length - 1 := of_decide_eq_true hel
        omega
    · rw [hends turn (List.mem_of_getElem? hi') a ha] at hend
      cases hend
  · intro i turn a hi ha hel
    dsimp only
    rw [contextForTurn_retried hat hnot, List.lookup_cons]
    rcases getElem?_retried h.turnIds hat hi with ⟨rfl, rfl⟩ | ⟨-, hi', hother⟩
    · rcases List.mem_append.mp ha with ha | ha
      · have hne : (⟨turn₀.id, a.id⟩ : AttemptRef) ≠ ⟨turn₀.id, attemptId⟩ := fun heq =>
          hfresh a ha (congrArg AttemptRef.attemptId heq)
        change (match (⟨turn₀.id, a.id⟩ : AttemptRef) == ⟨turn₀.id, attemptId⟩ with
          | true => _
          | false => _) = _
        rw [beq_false_of_ne hne]
        exact h.sentWith i turn₀ a hat ha hel
      · rw [List.mem_singleton.mp ha]
        change (match (⟨turn₀.id, attemptId⟩ : AttemptRef) == ⟨turn₀.id, attemptId⟩ with
          | true => _
          | false => _) = _
        rw [beq_self_eq_true]
    · have hne : (⟨turn.id, a.id⟩ : AttemptRef) ≠ ⟨turn₀.id, attemptId⟩ := fun heq =>
        hother (congrArg AttemptRef.turnId heq)
      rw [beq_false_of_ne hne]
      exact h.sentWith i turn a hi' ha hel

/-- A new conversation is in order. -/
lemma PageState.ok_newConversation (s : PageState ε ρ) : (s.next .newConversation).Ok where
  turnIds := List.nodup_nil
  attemptIds := List.forall_mem_nil _
  named _ h := by cases h
  openIff := List.forall_mem_nil _
  settled _ h := by cases h
  last := List.forall_mem_nil _
  openLast _ _ _ h := by cases h
  sentWith _ _ _ h := by cases h

/-- Every action that the guards admit keeps the page in order, if it settles an open attempt or
none. -/
lemma PageState.Ok.step {action : ConversationAction ε ρ} (h : s.Ok) (hg : s.Admits action)
    (hc : s.SettlesOpen action) : (s.next action).Ok := by
  cases action with
  | configure patch =>
    refine h.congr ?_ ?_ ?_ rfl <;>
      rw [PageState.next, conversationReducer] <;> split <;> rfl
  | send turnId attemptId userText => exact h.send hg
  | retry turnId attemptId => exact h.retry hg
  | streaming turnId attemptId => exact h.patchOpen openChange_startStreaming
  | delta turnId attemptId text => exact h.patchOpen (openChange_receive text)
  | settle turnId attemptId result => exact h.settle hc
  | newConversation => exact s.ok_newConversation

end Actions

/-! ## The history of a run -/

/-- **In a run in which every attempt settles once, and in a terminal state, the history of the
console is consistent in every state.** -/
theorem history_consistent_of_settles_open {ε ρ : Type} {s : PageState ε ρ}
    (hs : ((pageSystem ε ρ).restrict PageState.SettlesOpen).Reachable s) : HistoryConsistent s := by
  refine PageState.Ok.historyConsistent (hs.invariant ?_ ?_)
  · rintro s ⟨config, rfl⟩
    exact PageState.ok_initial config
  · rintro s action s' - hok ⟨hc, hg, rfl⟩
    exact hok.step hg hc

/-! ## A run with a late settlement -/

/-- The configuration of the runs below. -/
def sampleConfig : ConversationConfig where
  provider := .openai
  surface := .responses
  mode := .governed
  model := "m"
  maxTokens := 256

/-- A settlement in a state, with a text. -/
def sampleSettlement (state : TurnState) (text : String) : Settlement Unit Unit where
  state := state
  text := text
  refusal := none
  unsupportedOutput := false
  error := none
  retryAfterSeconds := none
  receipt := ()

/-- The page before its first action. -/
def sampleStart : PageState Unit Unit := ⟨initialConversationState sampleConfig, []⟩

/-- A first question whose attempt fails, its retry, and a second question. -/
def retriedQuestion : List (ConversationAction Unit Unit) :=
  [.send "t1" "a1" "q1",
    .settle "t1" "a1" (sampleSettlement .networkError ""),
    .retry "t1" "a2",
    .settle "t1" "a2" (sampleSettlement .completed "r1"),
    .send "t2" "a3" "q2",
    .settle "t2" "a3" (sampleSettlement .completed "r2")]

/-- The page after both answers. -/
def sampleAnswered : PageState Unit Unit := retriedQuestion.foldl PageState.next sampleStart

lemma sampleAnswered_reachable :
    ((pageSystem Unit Unit).restrict PageState.SettlesOpen).Reachable sampleAnswered := by
  refine .next (.next (.next (.next (.next (.next (.init ⟨sampleConfig, rfl⟩)
    (.send "t1" "a1" "q1") ⟨trivial, ?_, rfl⟩)
    (.settle "t1" "a1" (sampleSettlement .networkError "")) ⟨?_, trivial, rfl⟩)
    (.retry "t1" "a2") ⟨trivial, ?_, rfl⟩)
    (.settle "t1" "a2" (sampleSettlement .completed "r1")) ⟨?_, trivial, rfl⟩)
    (.send "t2" "a3" "q2") ⟨trivial, ?_, rfl⟩)
    (.settle "t2" "a3" (sampleSettlement .completed "r2")) ⟨?_, trivial, rfl⟩ <;>
  decide +kernel

theorem sampleAnswered_historyConsistent : HistoryConsistent sampleAnswered :=
  history_consistent_of_settles_open sampleAnswered_reachable

/-- A first question is stopped, a second one is answered, and then the first one settles again. -/
def lateSettlement : List (ConversationAction Unit Unit) :=
  [.send "t1" "a1" "q1",
    .settle "t1" "a1" (sampleSettlement .stopped ""),
    .send "t2" "a2" "q2",
    .settle "t2" "a2" (sampleSettlement .completed "r2"),
    .settle "t1" "a1" (sampleSettlement .completed "r1")]

/-- **A settlement of an attempt that has ended puts its answer before an answer that was given
without it.** -/
theorem late_settle_rewrites_history : ¬ ∀ s : PageState Unit Unit,
    (pageSystem Unit Unit).Reachable s → HistoryConsistent s := by
  intro h
  have hreachable : (pageSystem Unit Unit).Reachable (lateSettlement.foldl PageState.next sampleStart) := by
    refine .next (.next (.next (.next (.next (.init ⟨sampleConfig, rfl⟩)
      (.send "t1" "a1" "q1") ⟨⟨rfl, List.forall_mem_nil _⟩, rfl⟩)
      (.settle "t1" "a1" (sampleSettlement .stopped "")) ⟨trivial, rfl⟩)
      (.send "t2" "a2" "q2") ⟨⟨by decide, ?_⟩, rfl⟩)
      (.settle "t2" "a2" (sampleSettlement .completed "r2")) ⟨trivial, rfl⟩)
      (.settle "t1" "a1" (sampleSettlement .completed "r1")) ⟨trivial, rfl⟩
    decide +kernel
  have hsent := (h _ hreachable).sentWith 1
    ⟨"t2", "q2", [(newAttempt "a2" true).settle (sampleSettlement .completed "r2")]⟩
    ((newAttempt "a2" true).settle (sampleSettlement .completed "r2"))
    (by decide +kernel) rfl (by decide +kernel)
  revert hsent
  decide +kernel

end GovAI.Console
