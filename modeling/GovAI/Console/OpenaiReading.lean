import GovAI.Console.StreamLaw

/-!
# The OpenAI accumulators

The accumulators of the responses and of the chat completions read a frame as their surface does, by
the type of the frame or by its payload alone.
-/

namespace GovAI.Console

variable {number : List Char → Option JsonNumber}

/-! ## OpenAI responses -/

section Responses

variable {st : AccumulatorSnapshot} {f : SseFrame} {type : JsString} {payload : Option JsonValue}

/-- The state in which a frame of a type ends a stream. -/
def responsesEnd (type : JsString) : Option TurnState :=
  if type = jsString "response.completed" ∨ type = jsString "response.incomplete" then
    some .completed
  else if type = jsString "response.failed" ∨ type = jsString "error" then some .providerError
  else none

lemma terminalState_responses (number : List Char → Option JsonNumber) (f : SseFrame) :
    terminalState number .responses f = (typeOfFrame number f).bind responsesEnd := by
  unfold terminalState responsesEnd
  cases htype : typeOfFrame number f <;> simp [htype]

/-- A reasoning event ends nothing. -/
lemma responsesEnd_of_isReasoningEvent (h : isReasoningEvent type = true) :
    responsesEnd type = none := by
  have hno : ∀ t ∈ [jsString "response.completed", jsString "response.incomplete",
      jsString "response.failed", jsString "error"], isReasoningEvent t = false := by decide
  unfold responsesEnd
  simp only [List.forall_mem_cons] at hno
  split_ifs with hc he
  · rcases hc with rfl | rfl <;> simp_all
  · rcases he with rfl | rfl <;> simp_all
  · rfl

/-- A frame of a type that ends nothing. -/
lemma acceptType_live (h : st.terminal = none) (hend : responsesEnd type = none) :
    (st.acceptType payload type).terminal = none ∧
      (st.acceptType payload type).text = st.text ++
        if type = jsString "response.output_text.delta" then
          (payload.bind (·.textAt "delta")).getD [] else [] := by
  unfold responsesEnd at hend
  unfold AccumulatorSnapshot.acceptType AccumulatorSnapshot.noteResponse
  split_ifs at hend ⊢ <;> simp_all
  split <;> simp_all

/-- A frame of a type that ends the stream. -/
lemma acceptType_end {s : TurnState} (hend : responsesEnd type = some s) :
    ∃ t, (st.acceptType payload type).terminal = some t ∧ turnState (some t) false = s ∧
      (st.acceptType payload type).text = st.text := by
  unfold responsesEnd at hend
  unfold AccumulatorSnapshot.acceptType AccumulatorSnapshot.noteResponse
  split_ifs at hend with hc he
  · obtain rfl := Option.some.inj hend
    rcases hc with rfl | rfl <;> simp [turnState]
  · obtain rfl := Option.some.inj hend
    rcases he with rfl | rfl <;> simp [turnState]

/-- What was flagged stays flagged. -/
lemma acceptType_flag (h : st.unsupportedOutput = true) :
    (st.acceptType payload type).unsupportedOutput = true := by
  unfold AccumulatorSnapshot.acceptType AccumulatorSnapshot.noteResponse
  split_ifs <;> simp_all
  split <;> simp_all

/-- `accept` by the type of the frame. -/
lemma AccumulatorSnapshot.accept_eq (h : st.terminal = none) : st.accept number f =
    match typeOfFrame number f with
    | none => st
    | some type =>
      if isReasoningEvent type then st
      else st.acceptType (parseFrameJson number f.data) type := by
  rw [AccumulatorSnapshot.accept, if_neg (by simp [h])]
  rfl

/-- A reasoning event changes nothing. -/
lemma AccumulatorSnapshot.accept_reasoning (h : isReasoning number .responses f = true) :
    st.accept number f = st := by
  rw [AccumulatorSnapshot.accept]
  split
  · rfl
  · split
    · rfl
    · rename_i type htype
      have hr : (typeOfFrame number f).any isReasoningEvent = true := h
      rw [typeOfFrame, htype] at hr
      exact if_pos hr

/-- What the surface says of a frame by its type. -/
lemma shown_responses (pre : List SseFrame) (f : SseFrame) : shown number .responses pre f =
    ((typeOfFrame number f).map fun type =>
      if type = jsString "response.output_text.delta" then
        ((parseFrameJson number f.data).bind (·.textAt "delta")).getD [] else []).getD [] := by
  unfold shown payloadOf
  cases htype : typeOfFrame number f with
  | none => simp [htype]
  | some type =>
    by_cases hdelta : type = jsString "response.output_text.delta" <;> simp [htype, hdelta]

/-- What was flagged stays flagged. -/
lemma AccumulatorSnapshot.accept_flag (h : st.unsupportedOutput = true) :
    (st.accept number f).unsupportedOutput = true := by
  unfold AccumulatorSnapshot.accept
  split
  · exact h
  · split
    · exact h
    · split
      · exact h
      · exact acceptType_flag h

/-- A frame that does not end the stream. -/
lemma AccumulatorSnapshot.accept_live (h : st.terminal = none)
    (hend : terminalState number .responses f = none) (pre : List SseFrame) :
    (st.accept number f).terminal = none ∧
      (st.accept number f).text = st.text ++ shown number .responses pre f := by
  rw [terminalState_responses] at hend
  rw [AccumulatorSnapshot.accept_eq h, shown_responses]
  cases htype : typeOfFrame number f with
  | none => simpa using h
  | some type =>
    rw [htype] at hend
    dsimp only [Option.map_some, Option.getD_some]
    split
    · rename_i hr
      have hne : type ≠ jsString "response.output_text.delta" := by
        rintro rfl
        exact absurd hr (by decide)
      rw [if_neg hne, List.append_nil]
      exact ⟨h, rfl⟩
    · exact acceptType_live h hend

/-- A frame that ends the stream. -/
lemma AccumulatorSnapshot.accept_end {s : TurnState} (h : st.terminal = none)
    (hend : terminalState number .responses f = some s) :
    ∃ t, (st.accept number f).terminal = some t ∧ turnState (some t) false = s ∧
      (st.accept number f).text = st.text := by
  rw [terminalState_responses] at hend
  obtain ⟨type, htype, hend⟩ := Option.bind_eq_some_iff.mp hend
  have hno : isReasoningEvent type = false := by
    rw [← Bool.not_eq_true]
    intro hr
    rw [responsesEnd_of_isReasoningEvent hr] at hend
    cases hend
  rw [AccumulatorSnapshot.accept_eq h, htype]
  dsimp only
  rw [hno]
  exact acceptType_end hend

/-- A reasoning event ends nothing. -/
lemma terminalState_of_reasoning (h : isReasoning number .responses f = true) :
    terminalState number .responses f = none := by
  rw [terminalState_responses]
  have hr : (typeOfFrame number f).any isReasoningEvent = true := h
  cases htype : typeOfFrame number f with
  | none => rfl
  | some type =>
    rw [htype] at hr
    exact responsesEnd_of_isReasoningEvent hr

/-- The reading of OpenAI responses. -/
def responsesReading (number : List Char → Option JsonNumber) :
    Reading number .responses (responsesAccumulator number) where
  Inv _ st := AccumulatorSnapshot.terminal st = none
  Rel _ st st' := st = st'
  inv_init := rfl
  rel_init := rfl
  init_text := rfl
  live h := h
  frozen _ _ h := if_pos h
  flag _ _ h := AccumulatorSnapshot.accept_flag h
  stop h hend := AccumulatorSnapshot.accept_end h hend
  inv_step h hend := (AccumulatorSnapshot.accept_live h hend []).1
  text_step h hend _ := (AccumulatorSnapshot.accept_live h hend _).2
  flag_step _ h := nomatch h
  rel_snapshot h := congrArg _ h
  rel_skip h _ hr := (AccumulatorSnapshot.accept_reasoning hr).trans h
  rel_step h _ _ _ := congrArg (AccumulatorSnapshot.accept number · _) h
  not_terminal h := terminalState_of_reasoning h
  placed _ h := nomatch h

end Responses

/-! ## OpenAI chat completions -/

section Chat

variable {st : ChatState} {f : SseFrame}

/-- A choice adds its text, and neither ends the stream nor takes back a flag. -/
lemma acceptChoice_spec (st : ChatState) (raw : JsonValue) :
    (st.acceptChoice raw).terminal = st.terminal ∧
      (st.acceptChoice raw).text = st.text ++ choiceText raw ∧
      (st.unsupportedOutput = true → (st.acceptChoice raw).unsupportedOutput = true) := by
  unfold ChatState.acceptChoice choiceText
  split
  · rename_i hobj
    have hdelta : objectAt raw "delta" = none := by
      unfold objectAt JsonValue.get
      cases raw <;> simp_all [isObjectLike]
    simp [hdelta]
  · split
    · simp
    · cases objectAt raw "delta" <;> simp

/-- The choices of a frame. -/
lemma foldl_acceptChoice_spec (st : ChatState) (choices : List JsonValue) :
    (choices.foldl ChatState.acceptChoice st).terminal = st.terminal ∧
      (choices.foldl ChatState.acceptChoice st).text = st.text ++ choices.flatMap choiceText ∧
      (st.unsupportedOutput = true →
        (choices.foldl ChatState.acceptChoice st).unsupportedOutput = true) := by
  induction choices generalizing st with
  | nil => simp
  | cons raw choices ih =>
    obtain ⟨hterminal, htext, hflag⟩ := acceptChoice_spec st raw
    obtain ⟨hterminal', htext', hflag'⟩ := ih (st.acceptChoice raw)
    rw [List.foldl_cons, List.flatMap_cons]
    exact ⟨hterminal'.trans hterminal, by rw [htext', htext, List.append_assoc],
      fun h => hflag' (hflag h)⟩

/-- A frame that does not end the stream. -/
lemma ChatState.accept_live (h : st.terminal = none)
    (hend : terminalState number .chatCompletions f = none) :
    (st.accept number f).terminal = none ∧
      (st.accept number f).text = st.text ++ (choicesOf number f).flatMap choiceText := by
  simp only [terminalState] at hend
  split_ifs at hend with hdone herror
  rw [ChatState.accept, if_neg (by simp [h]), if_neg hdone]
  unfold choicesOf
  cases hpayload : parseFrameJson number f.data with
  | none => simpa using h
  | some payload =>
    rw [hpayload] at herror
    dsimp only [Option.bind_some] at herror ⊢
    rw [if_neg herror]
    cases hchoices : payload.get "choices" with
    | none => simpa using h
    | some v =>
      cases v with
      | arr choices =>
        obtain ⟨hterminal, htext, -⟩ := foldl_acceptChoice_spec
          { st with providerMessageId := st.providerMessageId.or (nonemptyAt payload "id") } choices
        exact ⟨hterminal.trans h, htext⟩
      | _ => simpa using h

/-- A frame that ends the stream. -/
lemma ChatState.accept_end {s : TurnState} (h : st.terminal = none)
    (hend : terminalState number .chatCompletions f = some s) :
    ∃ t, (st.accept number f).terminal = some t ∧ turnState (some t) false = s ∧
      (st.accept number f).text = st.text := by
  simp only [terminalState] at hend
  rw [ChatState.accept, if_neg (by simp [h])]
  split_ifs at hend with hdone herror
  · rw [if_pos hdone]
    exact ⟨_, rfl, Option.some.inj hend, rfl⟩
  · rw [if_neg hdone]
    cases hpayload : parseFrameJson number f.data with
    | none =>
      rw [hpayload] at herror
      cases herror
    | some payload =>
      rw [hpayload] at herror
      dsimp only [Option.bind_some] at herror ⊢
      rw [if_pos herror]
      exact ⟨_, rfl, Option.some.inj hend, rfl⟩

/-- What was flagged stays flagged. -/
lemma ChatState.accept_flag (h : st.unsupportedOutput = true) :
    (st.accept number f).unsupportedOutput = true := by
  unfold ChatState.accept
  split
  · exact h
  · split
    · exact h
    · split
      · exact h
      · split
        · exact h
        · split
          · exact (foldl_acceptChoice_spec _ _).2.2 h
          · exact h

/-- The reading of OpenAI chat completions. -/
def chatCompletionsReading (number : List Char → Option JsonNumber) :
    Reading number .chatCompletions (chatCompletionsAccumulator number) where
  Inv _ st := ((chatCompletionsAccumulator number).snapshot st).terminal = none
  Rel _ st st' := st = st'
  inv_init := rfl
  rel_init := rfl
  init_text := rfl
  live h := h
  frozen _ _ h := if_pos h
  flag _ _ h := ChatState.accept_flag h
  stop h hend := ChatState.accept_end h hend
  inv_step h hend := (ChatState.accept_live h hend).1
  text_step h hend _ := (ChatState.accept_live h hend).2
  flag_step _ h := nomatch h
  rel_snapshot h := congrArg _ h
  rel_skip _ _ h := nomatch h
  rel_step h _ _ _ := congrArg (ChatState.accept number · _) h
  not_terminal h := nomatch h
  placed _ h := nomatch h

end Chat

end GovAI.Console
