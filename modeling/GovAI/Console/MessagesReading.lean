import GovAI.Console.OpenaiReading

/-!
# The Anthropic accumulator

The accumulator of the messages reads a frame as its surface does, as long as every text delta names
its block.  A text delta without an index is shown whatever block it belongs to
(`unattributed_delta_shown`).
-/

namespace GovAI.Console

variable {number : List Char → Option JsonNumber}

/-! ## Announcements -/

section Announcements

variable {f : SseFrame} {pre : List SseFrame} {index : JsonNumber}

lemma announced_concat : announced number (pre ++ [f]) index =
    announce number index (announced number pre index) f := by
  rw [announced, List.foldl_append]
  rfl

lemma withoutReasoning_concat (surface : SurfaceId) :
    withoutReasoning number surface (pre ++ [f]) = withoutReasoning number surface pre ++
      if isReasoning number surface f then [] else [f] := by
  unfold withoutReasoning
  rw [List.filter_append]
  cases hf : isReasoning number surface f <;> simp [hf]

lemma payloadOf_of_ne {type : String} (h : typeOfFrame number f ≠ some (jsString type)) :
    payloadOf number type f = none := if_neg h

lemma payloadOf_of_eq {type : String} (h : typeOfFrame number f = some (jsString type)) :
    payloadOf number type f = parseFrameJson number f.data := if_pos h

/-- A frame that announces a block carries no delta. -/
lemma deltaOf_of_announcement {a : Option JsonNumber × JsString}
    (h : announcement number f = some a) : deltaOf number f = none := by
  have htype : typeOfFrame number f = some (jsString "content_block_start") := by
    by_contra hne
    rw [announcement, payloadOf_of_ne hne] at h
    cases h
  rw [deltaOf, payloadOf_of_ne (by rw [htype]; simp)]
  rfl

/-- A text block that was announced last is announced last among the visible blocks. -/
lemma announced_withoutReasoning {t : JsString} (ht : t ∉ silentBlockTypes)
    (h : announced number pre index = some t) :
    announced number (withoutReasoning number .messages pre) index = some t := by
  induction pre using List.reverseRecOn with
  | nil => cases h
  | append_singleton pre f ih =>
    rw [announced_concat] at h
    rw [withoutReasoning_concat]
    by_cases hf : ∃ t', announcement number f = some (some index, t')
    · obtain ⟨t', hf⟩ := hf
      have ht' : t' = t := by simpa [announce, hf] using h
      have hvisible : isReasoning number .messages f = false := by
        simp [isReasoning, deltaOf_of_announcement hf, hf, ht', ht]
      rw [hvisible, if_neg Bool.false_ne_true, announced_concat]
      simp [announce, hf, ht']
    · have hsame : ∀ type, announce number index type f = type := by
        intro type
        unfold announce
        split
        · rename_i i t' heq
          rw [if_neg]
          rintro rfl
          exact hf ⟨t', heq⟩
        · rfl
      rw [hsame] at h
      cases isReasoning number .messages f with
      | true => simpa using ih h
      | false =>
        rw [if_neg Bool.false_ne_true, announced_concat, hsame]
        exact ih h

end Announcements

/-! ## One frame -/

namespace MessagesState

variable {st st' : MessagesState} {f : SseFrame} {type : JsString} {payload : Option JsonValue}

/-- `accept` by the type of the frame. -/
lemma accept_eq (h : st.terminal = none) : st.accept number f =
    ((typeOfFrame number f).map
      (st.acceptType (parseFrameJson number f.data))).getD st := by
  rw [accept, if_neg (by simp [h]), typeOfFrame]
  cases frameType f (parseFrameJson number f.data) <;> rfl

/-- A delta neither ends the stream nor announces a block. -/
lemma contentBlockDelta_spec (st : MessagesState) (payload : JsonValue) :
    (st.contentBlockDelta payload).terminal = st.terminal ∧
      (st.contentBlockDelta payload).blockTypes = st.blockTypes ∧
      (st.contentBlockDelta payload).stopReason = st.stopReason ∧
      (st.unsupportedOutput = true →
        (st.contentBlockDelta payload).unsupportedOutput = true) := by
  unfold contentBlockDelta
  split
  · exact ⟨rfl, rfl, rfl, id⟩
  · dsimp only
    split_ifs <;> simp

/-- The announcement of a block does not end the stream. -/
lemma contentBlockStart_spec (st : MessagesState) (payload : JsonValue) :
    (st.contentBlockStart payload).terminal = st.terminal ∧
      (st.contentBlockStart payload).stopReason = st.stopReason ∧
      (st.unsupportedOutput = true →
        (st.contentBlockStart payload).unsupportedOutput = true) := by
  unfold contentBlockStart
  split
  · exact ⟨rfl, rfl, id⟩
  · exact ⟨rfl, rfl, fun h => by simp [h]⟩

/-- The state in which a frame of a type ends a stream. -/
def endOf (type : JsString) : Option TurnState :=
  if type = jsString "message_stop" then some .completed
  else if type = jsString "error" then some .providerError
  else none

lemma terminalState_messages (number : List Char → Option JsonNumber) (f : SseFrame) :
    terminalState number .messages f = (typeOfFrame number f).bind endOf := by
  unfold terminalState endOf
  cases htype : typeOfFrame number f <;> simp [htype]

/-- A frame of a type that ends nothing. -/
lemma acceptType_live (hend : endOf type = none) :
    (st.acceptType payload type).terminal = st.terminal := by
  unfold endOf at hend
  unfold acceptType messageStart messageDelta
  split_ifs at hend ⊢ <;> try rfl
  · cases payload with
    | none => rfl
    | some p => exact (contentBlockStart_spec st p).1
  · cases payload with
    | none => rfl
    | some p => exact (contentBlockDelta_spec st p).1

/-- A frame of a type that ends the stream. -/
lemma acceptType_end {s : TurnState} (hend : endOf type = some s) :
    ∃ t, (st.acceptType payload type).terminal = some t ∧ turnState (some t) false = s ∧
      (st.acceptType payload type).text = st.text ∧
      (st.acceptType payload type).blockTypes = st.blockTypes := by
  unfold endOf at hend
  unfold acceptType
  split_ifs at hend with hstop herror
  · subst hstop
    obtain rfl := Option.some.inj hend
    simp [turnState]
  · subst herror
    obtain rfl := Option.some.inj hend
    simp [turnState]

/-- What was flagged stays flagged. -/
lemma acceptType_flag (h : st.unsupportedOutput = true) :
    (st.acceptType payload type).unsupportedOutput = true := by
  unfold acceptType messageStart messageDelta
  split_ifs <;> try exact h
  · cases payload with
    | none => exact h
    | some p => exact (contentBlockStart_spec st p).2.2 h
  · cases payload with
    | none => exact h
    | some p => exact (contentBlockDelta_spec st p).2.2.2 h

/-- Only an announcement changes the blocks. -/
lemma acceptType_blockTypes (hne : type ≠ jsString "content_block_start") :
    (st.acceptType payload type).blockTypes = st.blockTypes := by
  unfold acceptType messageStart messageDelta
  split_ifs <;> try rfl
  cases payload with
  | none => rfl
  | some p => exact (contentBlockDelta_spec st p).2.1

/-- Only an announcement or a delta changes the text. -/
lemma acceptType_text (hne : type ≠ jsString "content_block_start")
    (hne' : type ≠ jsString "content_block_delta") :
    (st.acceptType payload type).text = st.text := by
  unfold acceptType messageStart messageDelta
  split_ifs <;> rfl

lemma acceptType_start : st.acceptType payload (jsString "content_block_start") =
    (payload.map st.contentBlockStart).getD st := by
  simp [acceptType]

lemma acceptType_delta : st.acceptType payload (jsString "content_block_delta") =
    (payload.map st.contentBlockDelta).getD st := by
  simp [acceptType]

/-- The blocks after a frame. -/
lemma blockType_accept (h : st.terminal = none) (index : JsonNumber) :
    (st.accept number f).blockType index = announce number index (st.blockType index) f := by
  rw [accept_eq h]
  cases htype : typeOfFrame number f with
  | none =>
    have hno : announcement number f = none := by
      rw [announcement, payloadOf_of_ne (by rw [htype]; exact Option.some_ne_none _ |>.symm)]
      rfl
    simp [announce, hno]
  | some type =>
    by_cases hstart : type = jsString "content_block_start"
    · subst hstart
      rw [Option.map_some, Option.getD_some, acceptType_start, announce, announcement,
        payloadOf_of_eq htype]
      cases parseFrameJson number f.data with
      | none => rfl
      | some p =>
        dsimp only [Option.map_some, Option.getD_some, Option.bind_some]
        unfold contentBlockStart
        cases (p.get "content_block").bind (·.textAt "type") with
        | none => rfl
        | some t =>
          dsimp only [Option.map_some]
          cases indexOf p with
          | none => rfl
          | some i =>
            dsimp only
            by_cases hi : i = index <;> simp [blockType, hi]
    · have hno : announcement number f = none := by
        rw [announcement, payloadOf_of_ne (by rw [htype]; simpa using hstart)]
        rfl
      rw [Option.map_some, Option.getD_some, blockType, acceptType_blockTypes hstart]
      simp [announce, hno, blockType]

/-- The text after a text delta or another delta. -/
lemma contentBlockDelta_text {p : JsonValue} :
    (st.contentBlockDelta p).text = st.text ++
      if ((objectAt p "delta").bind (·.textAt "type")) = some (jsString "text_delta") ∧
          (indexOf p).any (st.blockType · ≠ some textBlock) = false then
        ((objectAt p "delta").bind (·.textAt "text")).getD []
      else [] := by
  unfold contentBlockDelta
  cases objectAt p "delta" with
  | none => simp
  | some d =>
    dsimp only [Option.bind_some]
    split_ifs with hsilent htext hblock hshown hshown hshown <;> simp_all

/-- A text delta of another block is flagged. -/
lemma contentBlockDelta_flagged {p : JsonValue}
    (hdelta : (objectAt p "delta").bind (·.textAt "type") = some (jsString "text_delta"))
    (hblock : (indexOf p).any (st.blockType · ≠ some textBlock) = true) :
    (st.contentBlockDelta p).unsupportedOutput = true := by
  unfold contentBlockDelta
  cases hd : objectAt p "delta" with
  | none => simp [hd] at hdelta
  | some d =>
    rw [hd, Option.bind_some] at hdelta
    simp only [hdelta, hblock]
    simp

/-- A text block opens with its text. -/
lemma contentBlockStart_text {p : JsonValue} :
    (st.contentBlockStart p).text = st.text ++
      if (p.get "content_block").bind (·.textAt "type") = some textBlock then
        ((p.get "content_block").bind (·.textAt "text")).getD []
      else [] := by
  unfold contentBlockStart
  cases (p.get "content_block").bind (·.textAt "type") with
  | none => simp
  | some t => by_cases ht : t = textBlock <;> simp [ht]

/-- The states agree where the text delta looks. -/
lemma indexOf_any_of_placed {pre : List SseFrame} {p : JsonValue}
    (hblocks : ∀ index, st.blockType index = announced number pre index)
    (hp : payloadOf number "content_block_delta" f = some p) (hdelta : IsTextDelta number f)
    (hplaced : Placed number pre f) : (indexOf p).any (st.blockType · ≠ some textBlock) = false ↔
      OfTextBlock number pre f := by
  obtain ⟨index, hindex, -⟩ := hplaced hdelta
  have hindex' : indexOf p = some index := by
    rw [deltaIndex, hp] at hindex
    exact hindex
  have hof : OfTextBlock number pre f ↔ announced number pre index = some textBlock := by
    unfold OfTextBlock
    rw [show deltaIndex number f = some index from hindex]
    exact and_iff_right hdelta
  rw [hof, hindex', Option.any_some, hblocks]
  simp

/-- The text that a frame adds. -/
lemma accept_text {pre : List SseFrame} (h : st.terminal = none)
    (hblocks : ∀ index, st.blockType index = announced number pre index)
    (hplaced : Placed number pre f) :
    (st.accept number f).text = st.text ++ shown number .messages pre f := by
  rw [accept_eq h]
  simp only [shown]
  cases htype : typeOfFrame number f with
  | none =>
    have hno : ∀ type, payloadOf number type f = none := fun type =>
      payloadOf_of_ne (by rw [htype]; exact (Option.some_ne_none _).symm)
    simp [OfTextBlock, IsTextDelta, deltaOf, seed, announcement, hno]
  | some type =>
    rw [Option.map_some, Option.getD_some]
    by_cases hstart : type = jsString "content_block_start"
    · subst hstart
      have hdelta : deltaOf number f = none := by
        rw [deltaOf, payloadOf_of_ne (by rw [htype]; simp)]
        rfl
      have hnot : ¬OfTextBlock number pre f := fun hof => by simp [OfTextBlock, IsTextDelta, hdelta] at hof
      rw [acceptType_start, if_neg hnot, seed, announcement, payloadOf_of_eq htype]
      cases parseFrameJson number f.data with
      | none => simp
      | some p =>
        rw [Option.map_some, Option.getD_some, contentBlockStart_text]
        simp only [Option.bind_some, Option.map_map]
        congr 2
        cases (p.get "content_block").bind (·.textAt "type") <;> simp
    · have hseed : seed number f = [] := by
        rw [seed, announcement, payloadOf_of_ne (by rw [htype]; simpa using hstart)]
        simp
      rw [hseed]
      by_cases hdelta : type = jsString "content_block_delta"
      · subst hdelta
        rw [acceptType_delta]
        cases hp : parseFrameJson number f.data with
        | none =>
          have hnone : deltaOf number f = none := by
            rw [deltaOf, payloadOf_of_eq htype, hp]
            rfl
          simp [OfTextBlock, IsTextDelta, hnone]
        | some p =>
          have hpayload : payloadOf number "content_block_delta" f = some p := by
            rw [payloadOf_of_eq htype, hp]
          have hd : deltaOf number f = objectAt p "delta" := by rw [deltaOf, hpayload]; rfl
          rw [Option.map_some, Option.getD_some, contentBlockDelta_text, ← hd]
          by_cases htext : IsTextDelta number f
          · have hiff := indexOf_any_of_placed hblocks hpayload htext hplaced
            have hboth : (deltaOf number f).bind (·.textAt "type") = some (jsString "text_delta") ∧
                (indexOf p).any (st.blockType · ≠ some textBlock) = false ↔
                OfTextBlock number pre f := (and_iff_right htext).trans hiff
            congr 1
            exact if_congr hboth rfl rfl
          · have hnot : ¬OfTextBlock number pre f := fun hof => htext hof.1
            rw [if_neg hnot, if_neg fun hof => htext hof.1]
      · have hnone : deltaOf number f = none := by
          rw [deltaOf, payloadOf_of_ne (by rw [htype]; simpa using hdelta)]
          rfl
        rw [acceptType_text hstart hdelta]
        simp [OfTextBlock, IsTextDelta, hnone]

/-- A text delta that is not of a text block is flagged. -/
lemma accept_flagged {pre : List SseFrame} (h : st.terminal = none)
    (hblocks : ∀ index, st.blockType index = announced number pre index)
    (hdelta : IsTextDelta number f) (hplaced : Placed number pre f)
    (hnot : ¬OfTextBlock number pre f) : (st.accept number f).unsupportedOutput = true := by
  have htype : typeOfFrame number f = some (jsString "content_block_delta") := by
    by_contra hne
    rw [IsTextDelta, deltaOf, payloadOf_of_ne hne] at hdelta
    cases hdelta
  cases hp : parseFrameJson number f.data with
  | none =>
    rw [IsTextDelta, deltaOf, payloadOf_of_eq htype, hp] at hdelta
    cases hdelta
  | some p =>
    have hpayload : payloadOf number "content_block_delta" f = some p := by
      rw [payloadOf_of_eq htype, hp]
    rw [accept_eq h, htype, Option.map_some, Option.getD_some, acceptType_delta, hp, Option.map_some,
      Option.getD_some]
    refine contentBlockDelta_flagged ?_ ?_
    · rw [IsTextDelta, deltaOf, hpayload] at hdelta
      exact hdelta
    · rw [← Bool.not_eq_false]
      exact fun hfalse =>
        hnot ((indexOf_any_of_placed hblocks hpayload hdelta hplaced).mp hfalse)

/-! ## With and without the reasoning -/

/-- A frame of the reasoning changes the blocks only. -/
lemma accept_reasoning (h : st.terminal = none) (hf : isReasoning number .messages f = true) :
    (st.accept number f).toAccumulatorSnapshot = st.toAccumulatorSnapshot ∧
      (st.accept number f).stopReason = st.stopReason := by
  rw [accept_eq h]
  rcases (Bool.or_eq_true _ _).mp hf with hdelta | hblock
  · obtain ⟨t, ht, hsilent⟩ := (Option.any_eq_true _ _).mp hdelta
    obtain ⟨d, hd, ht⟩ := Option.bind_eq_some_iff.mp ht
    obtain ⟨p, hp, hd⟩ := Option.bind_eq_some_iff.mp hd
    have htype : typeOfFrame number f = some (jsString "content_block_delta") := by
      by_contra hne
      rw [payloadOf_of_ne hne] at hp
      cases hp
    rw [payloadOf_of_eq htype] at hp
    have hsilent' : t = jsString "thinking_delta" ∨ t = jsString "signature_delta" := by
      simpa using hsilent
    have hsame : st.contentBlockDelta p = st := by
      unfold contentBlockDelta
      rw [hd]
      dsimp only
      rw [if_pos]
      rw [ht]
      exact hsilent'.imp (congrArg some) (congrArg some)
    rw [htype, Option.map_some, Option.getD_some, acceptType_delta, hp, Option.map_some,
      Option.getD_some, hsame]
    exact ⟨rfl, rfl⟩
  · obtain ⟨⟨i, t⟩, ha, hsilent⟩ := (Option.any_eq_true _ _).mp hblock
    obtain ⟨p, hp, ha⟩ := Option.bind_eq_some_iff.mp ha
    have htype : typeOfFrame number f = some (jsString "content_block_start") := by
      by_contra hne
      rw [payloadOf_of_ne hne] at hp
      cases hp
    rw [payloadOf_of_eq htype] at hp
    obtain ⟨t', ht, hpair⟩ := Option.map_eq_some_iff.mp ha
    obtain rfl : t' = t := congrArg Prod.snd hpair
    have hnot : t' ≠ textBlock := by
      rintro rfl
      exact absurd hsilent (show ¬silentBlockTypes.contains textBlock = true by decide)
    rw [htype, Option.map_some, Option.getD_some, acceptType_start, hp, Option.map_some,
      Option.getD_some]
    unfold contentBlockStart
    rw [ht]
    dsimp only at hsilent ⊢
    rw [hsilent, if_neg hnot]
    simp

/-- Two states that differ in the blocks only, at a frame that reads them alike. -/
lemma acceptType_congr (hsnapshot : st.toAccumulatorSnapshot = st'.toAccumulatorSnapshot)
    (hreason : st.stopReason = st'.stopReason)
    (hblocks : ∀ p ∈ payload, (objectAt p "delta").bind (·.textAt "type") =
        some (jsString "text_delta") → type = jsString "content_block_delta" →
      (indexOf p).any (st.blockType · ≠ some textBlock) =
        (indexOf p).any (st'.blockType · ≠ some textBlock)) :
    (st.acceptType payload type).toAccumulatorSnapshot =
        (st'.acceptType payload type).toAccumulatorSnapshot ∧
      (st.acceptType payload type).stopReason = (st'.acceptType payload type).stopReason := by
  obtain ⟨snapshot, blocks, reason⟩ := st
  obtain ⟨snapshot', blocks', reason'⟩ := st'
  obtain rfl : snapshot = snapshot' := hsnapshot
  obtain rfl : reason = reason' := hreason
  unfold acceptType messageStart messageDelta
  split_ifs with hstart hblock hdelta
  · exact ⟨rfl, rfl⟩
  · cases payload with
    | none => exact ⟨rfl, rfl⟩
    | some p =>
      dsimp only [Option.map_some, Option.getD_some]
      unfold contentBlockStart
      cases (p.get "content_block").bind (·.textAt "type") <;> exact ⟨rfl, rfl⟩
  · cases payload with
    | none => exact ⟨rfl, rfl⟩
    | some p =>
      dsimp only [Option.map_some, Option.getD_some]
      unfold contentBlockDelta
      cases hd : objectAt p "delta" with
      | none => exact ⟨rfl, rfl⟩
      | some d =>
        dsimp only
        by_cases htext : d.textAt "type" = some (jsString "text_delta")
        · rw [hblocks p rfl (by rw [hd]; exact htext) hdelta]
          split_ifs <;> exact ⟨rfl, rfl⟩
        · rw [if_neg htext, if_neg htext]
          split_ifs <;> exact ⟨rfl, rfl⟩
  · exact ⟨rfl, rfl⟩
  · exact ⟨rfl, rfl⟩
  · exact ⟨rfl, rfl⟩
  · exact ⟨rfl, rfl⟩

/-- A text delta that is placed looks at blocks that the reasoning does not change. -/
lemma indexOf_any_congr {pre : List SseFrame} {p : JsonValue}
    (hblocks : ∀ index, st.blockType index = announced number pre index)
    (hblocks' : ∀ index, st'.blockType index =
      announced number (withoutReasoning number .messages pre) index)
    (hp : payloadOf number "content_block_delta" f = some p) (hdelta : IsTextDelta number f)
    (hplaced : Placed number pre f) : (indexOf p).any (st.blockType · ≠ some textBlock) =
      (indexOf p).any (st'.blockType · ≠ some textBlock) := by
  obtain ⟨index, hindex, himp⟩ := hplaced hdelta
  have hindex' : indexOf p = some index := by
    rw [deltaIndex, hp] at hindex
    exact hindex
  have hiff : announced number pre index = some textBlock ↔
      announced number (withoutReasoning number .messages pre) index = some textBlock :=
    ⟨announced_withoutReasoning (by decide), himp⟩
  rw [hindex', Option.any_some, Option.any_some, hblocks, hblocks', decide_eq_decide]
  exact not_congr hiff

/-- The states with and without the reasoning after one more frame. -/
lemma accept_congr {pre : List SseFrame} (h : st.terminal = none)
    (hsnapshot : st.toAccumulatorSnapshot = st'.toAccumulatorSnapshot)
    (hreason : st.stopReason = st'.stopReason)
    (hblocks : ∀ index, st.blockType index = announced number pre index)
    (hblocks' : ∀ index, st'.blockType index =
      announced number (withoutReasoning number .messages pre) index)
    (hplaced : Placed number pre f) :
    (st.accept number f).toAccumulatorSnapshot = (st'.accept number f).toAccumulatorSnapshot ∧
      (st.accept number f).stopReason = (st'.accept number f).stopReason := by
  have h' : st'.terminal = none := by rw [← hsnapshot, h]
  rw [accept_eq h, accept_eq h']
  cases htype : typeOfFrame number f with
  | none => exact ⟨hsnapshot, hreason⟩
  | some type =>
    refine acceptType_congr hsnapshot hreason fun p hp htext hdelta => ?_
    subst hdelta
    have hpayload : payloadOf number "content_block_delta" f = some p := by
      rw [payloadOf_of_eq htype]
      exact hp
    have htext' : IsTextDelta number f := by
      rw [IsTextDelta, deltaOf, hpayload]
      exact htext
    exact indexOf_any_congr hblocks hblocks' hpayload htext' hplaced

/-- A frame of the reasoning ends nothing. -/
lemma terminalState_of_reasoning (hf : isReasoning number .messages f = true) :
    terminalState number .messages f = none := by
  have htype : typeOfFrame number f = some (jsString "content_block_delta") ∨
      typeOfFrame number f = some (jsString "content_block_start") := by
    by_contra hno
    push Not at hno
    have hdelta : deltaOf number f = none := by
      rw [deltaOf, payloadOf_of_ne hno.1]
      rfl
    have hstart : announcement number f = none := by
      rw [announcement, payloadOf_of_ne hno.2]
      rfl
    simp [isReasoning, hdelta, hstart] at hf
  rw [terminalState_messages]
  rcases htype with htype | htype <;> rw [htype] <;> simp [endOf]

/-- A terminal frame is no text delta. -/
lemma placed_of_terminalState {pre : List SseFrame} {s : TurnState}
    (hend : terminalState number .messages f = some s) : Placed number pre f := by
  intro hdelta
  have htype : typeOfFrame number f = some (jsString "content_block_delta") := by
    by_contra hne
    rw [IsTextDelta, deltaOf, payloadOf_of_ne hne] at hdelta
    cases hdelta
  rw [terminalState_messages, htype] at hend
  simp [endOf] at hend

/-- A frame that does not end the stream. -/
lemma accept_live (h : st.terminal = none) (hend : terminalState number .messages f = none) :
    (st.accept number f).terminal = none := by
  rw [terminalState_messages] at hend
  rw [accept_eq h]
  cases htype : typeOfFrame number f with
  | none => exact h
  | some type =>
    rw [htype] at hend
    exact (acceptType_live hend).trans h

/-- A frame that ends the stream. -/
lemma accept_end {s : TurnState} (h : st.terminal = none)
    (hend : terminalState number .messages f = some s) :
    ∃ t, (st.accept number f).terminal = some t ∧ turnState (some t) false = s ∧
      (st.accept number f).text = st.text := by
  rw [terminalState_messages] at hend
  obtain ⟨type, htype, hend⟩ := Option.bind_eq_some_iff.mp hend
  rw [accept_eq h, htype]
  obtain ⟨t, ht, hstate, htext, -⟩ := @acceptType_end st _ (parseFrameJson number f.data) _ hend
  exact ⟨t, ht, hstate, htext⟩

/-- What was flagged stays flagged. -/
lemma accept_flag (h : st.unsupportedOutput = true) :
    (st.accept number f).unsupportedOutput = true := by
  unfold accept
  split
  · exact h
  · split
    · exact h
    · exact acceptType_flag h

/-- The blocks after one more frame. -/
lemma blockType_step {pre : List SseFrame} (h : st.terminal = none)
    (hblocks : ∀ index, st.blockType index = announced number pre index) (index : JsonNumber) :
    (st.accept number f).blockType index = announced number (pre ++ [f]) index := by
  rw [blockType_accept h, announced_concat, hblocks]

/-- The state after frames without a terminal one. -/
structure After (number : List Char → Option JsonNumber) (pre : List SseFrame) (st : MessagesState) :
    Prop where
  terminal : st.terminal = none
  blocks : ∀ index, st.blockType index = announced number pre index

/-- The states after frames, with and without those of the reasoning. -/
structure Alike (number : List Char → Option JsonNumber) (pre : List SseFrame)
    (st st' : MessagesState) : Prop where
  snapshot : st.toAccumulatorSnapshot = st'.toAccumulatorSnapshot
  stopReason : st.stopReason = st'.stopReason
  blocks' : ∀ index, st'.blockType index =
    announced number (withoutReasoning number .messages pre) index

lemma After.step {pre : List SseFrame} (h : st.After number pre)
    (hend : terminalState number .messages f = none) :
    (st.accept number f).After number (pre ++ [f]) :=
  ⟨accept_live h.terminal hend, blockType_step h.terminal h.blocks⟩

lemma Alike.skip {pre : List SseFrame} (h : st.Alike number pre st') (hafter : st.After number pre)
    (hf : isReasoning number .messages f = true) :
    (st.accept number f).Alike number (pre ++ [f]) st' := by
  obtain ⟨hsnapshot, hreason⟩ := accept_reasoning hafter.terminal hf
  refine ⟨hsnapshot.trans h.snapshot, hreason.trans h.stopReason, ?_⟩
  rw [withoutReasoning_concat, hf, if_pos rfl, List.append_nil]
  exact h.blocks'

lemma Alike.step {pre : List SseFrame} (h : st.Alike number pre st') (hafter : st.After number pre)
    (hf : isReasoning number .messages f = false) (hplaced : Placed number pre f) :
    (st.accept number f).Alike number (pre ++ [f]) (st'.accept number f) := by
  have hterminal : st'.terminal = none := by rw [← h.snapshot, hafter.terminal]
  obtain ⟨hsnapshot, hreason⟩ :=
    accept_congr hafter.terminal h.snapshot h.stopReason hafter.blocks h.blocks' hplaced
  refine ⟨hsnapshot, hreason, ?_⟩
  rw [withoutReasoning_concat, hf, if_neg Bool.false_ne_true]
  exact blockType_step hterminal h.blocks'

end MessagesState

/-- The reading of Anthropic messages. -/
def messagesReading (number : List Char → Option JsonNumber) :
    Reading number .messages (messagesAccumulator number) where
  Inv pre st := MessagesState.After number pre st
  Rel pre st st' := MessagesState.Alike number pre st st'
  inv_init := ⟨rfl, fun _ => rfl⟩
  rel_init := ⟨rfl, rfl, fun _ => rfl⟩
  init_text := rfl
  live h := h.terminal
  frozen _ _ h := if_pos h
  flag _ _ h := MessagesState.accept_flag h
  stop h hend := MessagesState.accept_end h.terminal hend
  inv_step h hend := h.step hend
  text_step h _ hplaced := MessagesState.accept_text h.terminal h.blocks (hplaced rfl)
  flag_step h _ hdelta hplaced hnot :=
    MessagesState.accept_flagged h.terminal h.blocks hdelta hplaced hnot
  rel_snapshot h := h.snapshot
  rel_skip h hafter hf := h.skip hafter hf
  rel_step h hafter hf hplaced := h.step hafter hf (hplaced rfl)
  not_terminal h := MessagesState.terminalState_of_reasoning h
  placed h _ := MessagesState.placed_of_terminalState h

/-! ## The console -/

/-- **The console claims what the stream proves**, on every surface, for every body and every point at
which it ends, if the text deltas of an Anthropic stream name their blocks. -/
theorem streamLaw_of_placed (number : List Char → Option JsonNumber) (surface : SurfaceId)
    (body : SseBody) (h : StreamPlaced number surface body) : StreamLaw number surface body := by
  cases surface with
  | messages => exact (messagesReading number).streamLaw h
  | responses => exact (responsesReading number).streamLaw h
  | chatCompletions => exact (chatCompletionsReading number).streamLaw h

/-- A frame of an Anthropic stream. -/
def messageFrame (type data : String) : SseFrame := ⟨some (jsString type), data.toList⟩

/-- The numerals of one stream. -/
def oneNumber : List Char → Option JsonNumber
  | ['1'] => some ⟨.int 1, by decide⟩
  | _ => none

/-- A text block in two chunks, ended by `message_stop`. -/
def sampleMessageBody : SseBody where
  chunks :=
    [{ frames :=
        [messageFrame "content_block_start"
          "\x7b\"index\":1,\"content_block\":\x7b\"type\":\"text\"\x7d\x7d"] },
    { frames :=
        [messageFrame "content_block_delta"
          "\x7b\"index\":1,\"delta\":\x7b\"type\":\"text_delta\",\"text\":\"b\"\x7d\x7d",
        messageFrame "message_stop" ""] }]

/-- The block is announced and named, and its text is shown. -/
theorem streamLaw_of_placed_sample :
    StreamLaw oneNumber .messages sampleMessageBody ∧
      (runTurn oneNumber .messages sampleMessageBody).text = jsString "b" :=
  ⟨streamLaw_of_placed oneNumber .messages sampleMessageBody fun _ => by decide +kernel,
    by decide +kernel⟩

/-- One text delta that names no block, and nothing else. -/
def unattributedBody : SseBody where
  chunks :=
    [{ frames :=
        [messageFrame "content_block_delta"
          "\x7b\"delta\":\x7b\"type\":\"text_delta\",\"text\":\"b\"\x7d\x7d"] }]

/-- **A text delta without an index is shown as text**, although no text block was announced. -/
theorem unattributed_delta_shown : ¬∀ number surface body, StreamLaw number surface body := by
  intro h
  have htext := (h oneNumber .messages unattributedBody).text
  exact absurd htext (by decide +kernel)

end GovAI.Console
