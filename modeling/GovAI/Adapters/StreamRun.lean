import GovAI.Adapters.Messages
import GovAI.Library.KeyedFold
import GovAI.Library.RunProjection

/-!
# Runs of the reassembler

What one event of a stream can do to the reassembler (`Stepped`), and what a run makes of the events of
one block alone (`find_run`): the record of a block is the fold over its start, its deltas and its
stop, in this order (`trace_shape`).
-/

namespace GovAI

namespace Messages

variable {number : List Char → Option JsonNumber}

/-! ## One event -/

/-- What an event of each type does when it is accepted. -/
inductive Stepped (number : List Char → Option JsonNumber) (s : StreamState) (raw : JsonValue) :
    EventType → StreamState → Prop
  | messageStart {props : List (JsString × JsonValue)} {model : Option JsString}
      (fresh : s.sawMessageStart = false) (message : raw.get "message" = some (.obj props))
      (role : roleInvalid ((JsonValue.obj props).get "role") = false)
      (content : startContentInvalid ((JsonValue.obj props).get "content") = false)
      (named : providerModelOf (.obj props) = .ok model) :
      Stepped number s raw .messageStart
        { s with sawMessageStart := true, role := (JsonValue.obj props).get "role", model := model }
  | contentBlockStart {index : JsonNumber} {props : List (JsString × JsonValue)}
      (begun : s.sawMessageStart = true) (index_eq : raw.numberAt "index" = some index)
      (block : raw.get "content_block" = some (.obj props)) (fresh : s.find index = none)
      (contiguous : index.1 = .int s.nextBlockIndex)
      (typed : (JsonValue.obj props).textAt "type" ≠ none)
      (payload : blockPayloadInvalid (.obj props) .start = false) :
      Stepped number s raw .contentBlockStart
        { s with
          blocks := s.blocks ++ [(index, ⟨.obj props, none, true, false⟩)]
          nextBlockIndex := s.nextBlockIndex + 1 }
  | contentBlockDelta {index : JsonNumber} {props : List (JsString × JsonValue)} {b b' : BlockState}
      (index_eq : raw.numberAt "index" = some index) (delta : raw.get "delta" = some (.obj props))
      (typed : (JsonValue.obj props).textAt "type" ≠ none)
      (found : s.find index = some b) (applied : b.delta (.obj props) = .ok b') :
      Stepped number s raw .contentBlockDelta (s.put index b')
  | contentBlockStop {index : JsonNumber} {b b' : BlockState}
      (index_eq : raw.numberAt "index" = some index) (found : s.find index = some b)
      (applied : b.stop number = .ok b') :
      Stepped number s raw .contentBlockStop (s.put index b')
  | messageStop (begun : s.sawMessageStart = true) :
      Stepped number s raw .messageStop { s with sawMessageStop := true }
  | messageDelta (begun : s.sawMessageStart = true) (closed : s.hasOpen = false) :
      Stepped number s raw .messageDelta { s with sawMessageDelta := true }
  | ping : Stepped number s raw .ping s
  | error : Stepped number s raw .error { s with sawError := true }

lemma dispatch_eq_ok {s s' : StreamState} {raw : JsonValue} {type : EventType}
    (h : s.dispatch number raw type = .ok s') : Stepped number s raw type s' := by
  cases type with
  | messageStart =>
    obtain ⟨_, hfresh, h⟩ := except_bind_eq_ok_iff.mp h
    have hfresh' := rejectIf_eq_ok_iff.mp hfresh
    split at h
    · next props hmessage =>
      simp only [except_bind_eq_ok_iff, rejectIf_eq_ok_iff, except_pure_eq_ok_iff] at h
      obtain ⟨_, hrole, _, hcontent, model, hmodel, rfl⟩ := h
      exact .messageStart (by simpa using hfresh') hmessage (by simpa using hrole)
        (by simpa using hcontent) hmodel
    · cases h
  | contentBlockStart =>
    obtain ⟨_, hbegun, h⟩ := except_bind_eq_ok_iff.mp h
    have hbegun' := rejectIf_eq_ok_iff.mp hbegun
    split at h
    · next index props hindex hblock =>
      simp only [except_bind_eq_ok_iff, rejectIf_eq_ok_iff, except_pure_eq_ok_iff, not_or] at h
      obtain ⟨_, hfresh, _, hcontiguous, _, ⟨htyped, hpayload⟩, rfl⟩ := h
      exact .contentBlockStart (by simpa using hbegun') hindex hblock (by simpa using hfresh)
        (not_not.mp hcontiguous) (by simpa using htyped) (by simpa using hpayload)
    · cases h
  | contentBlockDelta =>
    change s.contentBlockDelta raw = .ok s' at h
    unfold StreamState.contentBlockDelta at h
    split at h
    · next index props hindex hdelta =>
      split at h
      · cases h
      · next htyped =>
        split at h
        · cases h
        · next b hfound =>
          obtain ⟨b', happlied, rfl⟩ := except_map_eq_ok_iff.mp h
          exact .contentBlockDelta hindex hdelta (by simpa using htyped) hfound happlied
    · cases h
  | contentBlockStop =>
    change s.contentBlockStop number raw = .ok s' at h
    unfold StreamState.contentBlockStop at h
    split at h
    · cases h
    · next index hindex =>
      split at h
      · cases h
      · next b hfound =>
        obtain ⟨b', happlied, rfl⟩ := except_map_eq_ok_iff.mp h
        exact .contentBlockStop hindex hfound happlied
  | messageStop =>
    simp only [StreamState.dispatch, except_bind_eq_ok_iff, rejectIf_eq_ok_iff,
      except_pure_eq_ok_iff] at h
    obtain ⟨_, hbegun, rfl⟩ := h
    exact .messageStop (by simpa using hbegun)
  | messageDelta =>
    simp only [StreamState.dispatch, except_bind_eq_ok_iff, rejectIf_eq_ok_iff,
      except_pure_eq_ok_iff] at h
    obtain ⟨_, hbegun, _, hclosed, rfl⟩ := h
    exact .messageDelta (by simpa using hbegun) (by simpa using hclosed)
  | ping =>
    cases h
    exact .ping
  | error =>
    cases h
    exact .error

/-- **What an accepted event does.** -/
theorem step_eq_ok {s s' : StreamState} {raw : JsonValue} (h : s.step number raw = .ok s') :
    s.sawMessageStop = false ∧ s.sawError = false ∧
      ∃ type, eventType raw = some type ∧ Stepped number s raw type s' := by
  unfold StreamState.step at h
  obtain ⟨_, -, h⟩ := except_bind_eq_ok_iff.mp h
  obtain ⟨_, hstop, h⟩ := except_bind_eq_ok_iff.mp h
  obtain ⟨_, herror, h⟩ := except_bind_eq_ok_iff.mp h
  rw [rejectIf_eq_ok_iff] at hstop herror
  refine ⟨by simpa using hstop, by simpa using herror, ?_⟩
  split at h
  · cases h
  · next type htype =>
    obtain ⟨_, -, h⟩ := except_bind_eq_ok_iff.mp h
    exact ⟨type, htype, dispatch_eq_ok h⟩

/-! ## The record of a block -/

/-- An accepted delta leaves its block open. -/
lemma BlockState.delta_isOpen {b b' : BlockState} {delta : JsonValue} (h : b.delta delta = .ok b') :
    b.isOpen = true ∧ b'.isOpen = true := by
  unfold BlockState.delta at h
  obtain ⟨_, hopen, h⟩ := except_bind_eq_ok_iff.mp h
  obtain ⟨_, -, h⟩ := except_bind_eq_ok_iff.mp h
  obtain ⟨_, -, h⟩ := except_bind_eq_ok_iff.mp h
  have hopen' : b.isOpen = true := not_not.mp (rejectIf_eq_ok_iff.mp hopen)
  refine ⟨hopen', ?_⟩
  split at h
  · obtain ⟨_, _, rfl⟩ := except_map_eq_ok_iff.mp h
    exact hopen'
  · split at h
    · obtain ⟨_, _, rfl⟩ := except_map_eq_ok_iff.mp h
      exact hopen'
    · split at h
      · obtain ⟨_, _, h⟩ := except_bind_eq_ok_iff.mp h
        obtain ⟨_, _, h⟩ := except_bind_eq_ok_iff.mp h
        cases h
        exact hopen'
      · split at h
        · obtain ⟨_, _, rfl⟩ := except_map_eq_ok_iff.mp h
          exact hopen'
        · split at h
          · split at h
            · obtain ⟨_, _, h⟩ := except_bind_eq_ok_iff.mp h
              cases h
              exact hopen'
            · cases h
          · cases h

/-- A stop closes a block that is open. -/
lemma BlockState.stop_isOpen {b b' : BlockState} (h : b.stop number = .ok b') :
    b.isOpen = true ∧ b'.isOpen = false := by
  unfold BlockState.stop at h
  obtain ⟨_, hopen, h⟩ := except_bind_eq_ok_iff.mp h
  obtain ⟨_, -, h⟩ := except_bind_eq_ok_iff.mp h
  refine ⟨not_not.mp (rejectIf_eq_ok_iff.mp hopen), ?_⟩
  split at h
  · cases h
    rfl
  · obtain ⟨_, _, h⟩ := except_bind_eq_ok_iff.mp h
    obtain ⟨_, _, h⟩ := except_bind_eq_ok_iff.mp h
    cases h
    rfl

lemma find_put (s : StreamState) (index x : JsonNumber) (b : BlockState) :
    (s.put index b).find x = if x = index then (s.find index).map fun _ => b else s.find x := by
  unfold StreamState.find StreamState.put
  rw [List.find?_map]
  by_cases hx : x = index
  · subst hx
    rw [if_pos rfl]
    have hcomp : ((fun e : JsonNumber × BlockState => decide (e.1 = x)) ∘
        fun e => if e.1 = x then (x, b) else e) = fun e => decide (e.1 = x) := by
      funext e
      simp only [Function.comp_apply]
      split
      · next h => simp [h]
      · rfl
    rw [hcomp]
    cases hfind : s.blocks.find? fun e => decide (e.1 = x) with
    | none => rfl
    | some e =>
      have he : e.1 = x := by simpa using List.find?_some hfind
      simp [he]
  · rw [if_neg hx]
    have hcomp : ((fun e : JsonNumber × BlockState => decide (e.1 = x)) ∘
        fun e => if e.1 = index then (index, b) else e) = fun e => decide (e.1 = x) := by
      funext e
      simp only [Function.comp_apply]
      split
      · next h => simp [h]
      · rfl
    rw [hcomp]
    cases hfind : s.blocks.find? fun e => decide (e.1 = x) with
    | none => rfl
    | some e =>
      have he : e.1 = x := by simpa using List.find?_some hfind
      rw [Option.map_some, Option.map_some, Option.map_some, if_neg fun h => hx (he.symm.trans h)]

lemma find_start (s : StreamState) (index x : JsonNumber) (b : BlockState)
    (hfresh : s.find index = none) (n : ℕ) :
    StreamState.find { s with blocks := s.blocks ++ [(index, b)], nextBlockIndex := n } x =
      if x = index then some b else s.find x := by
  unfold StreamState.find at hfresh ⊢
  rw [List.find?_append]
  by_cases hx : x = index
  · subst hx
    rw [Option.map_eq_none_iff.mp hfresh, if_pos rfl]
    simp
  · have hne : ¬index = x := fun h => hx h.symm
    rw [if_neg hx]
    simp [hne]

/-- The event belongs to the block of an index. -/
def addresses (index : JsonNumber) (raw : JsonValue) : Bool :=
  (eventType raw).any EventType.isContent && raw.numberAt "index" = some index

/-- What an event does to the record of its block. -/
def blockStep (number : List Char → Option JsonNumber) (b : Option BlockState) (raw : JsonValue) :
    Option (Option BlockState) :=
  match eventType raw, b with
  | some .contentBlockStart, none =>
    (raw.get "content_block").map fun block => some ⟨block, none, true, false⟩
  | some .contentBlockDelta, some b =>
    (raw.get "delta").bind fun delta => (b.delta delta).toOption.map some
  | some .contentBlockStop, some b => (b.stop number).toOption.map some
  | _, _ => none

/-- An event changes the record of the block that it belongs to. -/
lemma find_step {s s' : StreamState} {raw : JsonValue} (h : s.step number raw = .ok s')
    (x : JsonNumber) :
    if addresses x raw then blockStep number (s.find x) raw = some (s'.find x)
    else s'.find x = s.find x := by
  obtain ⟨-, -, type, htype, hstep⟩ := step_eq_ok h
  cases hstep with
  | messageStart => rw [if_neg (by simp [addresses, htype, EventType.isContent])]; rfl
  | messageStop => rw [if_neg (by simp [addresses, htype, EventType.isContent])]; rfl
  | messageDelta => rw [if_neg (by simp [addresses, htype, EventType.isContent])]; rfl
  | ping => rw [if_neg (by simp [addresses, htype, EventType.isContent])]
  | error => rw [if_neg (by simp [addresses, htype, EventType.isContent])]; rfl
  | @contentBlockStart index props begun index_eq block fresh contiguous typed payload =>
    rw [find_start s _ x _ fresh]
    by_cases hx : x = index
    · subst hx
      rw [if_pos (by simp [addresses, htype, EventType.isContent, index_eq]), if_pos rfl]
      simp only [blockStep, htype, fresh, block, Option.map_some]
    · rw [if_neg (by simp [addresses, htype, index_eq, Ne.symm hx]), if_neg hx]
  | @contentBlockDelta index props b b' index_eq delta typed found applied =>
    rw [find_put, found]
    by_cases hx : x = index
    · subst hx
      rw [if_pos (by simp [addresses, htype, EventType.isContent, index_eq]), if_pos rfl]
      simp only [blockStep, htype, found, delta, applied, Except.toOption, Option.bind_some,
        Option.map_some]
    · rw [if_neg (by simp [addresses, htype, index_eq, Ne.symm hx]), if_neg hx]
  | @contentBlockStop index b b' index_eq found applied =>
    rw [find_put, found]
    by_cases hx : x = index
    · subst hx
      rw [if_pos (by simp [addresses, htype, EventType.isContent, index_eq]), if_pos rfl]
      simp only [blockStep, htype, found, applied, Except.toOption, Option.map_some]
    · rw [if_neg (by simp [addresses, htype, index_eq, Ne.symm hx]), if_neg hx]

/-- **The record of a block is the fold over its events.** -/
theorem find_run {events : List JsonValue} {s s' : StreamState}
    (hrun : events.foldlM (StreamState.step number) s = .ok s') (x : JsonNumber) :
    (events.filter (addresses x)).foldlM (blockStep number) (s.find x) = some (s'.find x) :=
  foldlM_project (f := fun s => s.find x) (fun _ _ _ h => find_step h x) hrun

/-! ## The events of a block -/

/-- The event is of a type. -/
def isEvent (type : EventType) (raw : JsonValue) : Bool := eventType raw = some type

/-- What an accepted event finds and leaves of its block. -/
lemma blockStep_eq_some {b b' : Option BlockState} {raw : JsonValue}
    (h : blockStep number b raw = some b') :
    (eventType raw = some .contentBlockStart ∧ b = none ∧ ∃ b₁, b' = some b₁ ∧ b₁.isOpen = true) ∨
      (eventType raw = some .contentBlockDelta ∧
        ∃ b₀ b₁, b = some b₀ ∧ b' = some b₁ ∧ b₀.isOpen = true ∧ b₁.isOpen = true) ∨
      (eventType raw = some .contentBlockStop ∧
        ∃ b₀ b₁, b = some b₀ ∧ b' = some b₁ ∧ b₀.isOpen = true ∧ b₁.isOpen = false) := by
  unfold blockStep at h
  split at h
  · next htype =>
    obtain ⟨block, -, rfl⟩ := Option.map_eq_some_iff.mp h
    exact .inl ⟨htype, rfl, _, rfl, rfl⟩
  · next b₀ htype =>
    obtain ⟨delta, -, h⟩ := Option.bind_eq_some_iff.mp h
    obtain ⟨b₁, hdelta, rfl⟩ := Option.map_eq_some_iff.mp h
    obtain ⟨hopen, hopen'⟩ := BlockState.delta_isOpen (except_toOption_eq_some_iff.mp hdelta)
    exact .inr (.inl ⟨htype, b₀, b₁, rfl, rfl, hopen, hopen'⟩)
  · next b₀ htype =>
    obtain ⟨b₁, hstop, rfl⟩ := Option.map_eq_some_iff.mp h
    obtain ⟨hopen, hclosed⟩ := BlockState.stop_isOpen (except_toOption_eq_some_iff.mp hstop)
    exact .inr (.inr ⟨htype, b₀, b₁, rfl, rfl, hopen, hclosed⟩)
  · cases h

/-- Nothing is accepted of a block that is closed. -/
lemma trace_closed {events : List JsonValue} {b : BlockState} {b' : Option BlockState}
    (hclosed : b.isOpen = false) (h : events.foldlM (blockStep number) (some b) = some b') :
    events = [] ∧ b' = some b := by
  cases events with
  | nil => exact ⟨rfl, (Option.some.inj h).symm⟩
  | cons raw events =>
    rw [List.foldlM_cons, Option.bind_eq_bind, Option.bind_eq_some_iff] at h
    obtain ⟨b₁, hstep, -⟩ := h
    rcases blockStep_eq_some hstep with
      ⟨-, hnone, -⟩ | ⟨-, b₀, b₁, hb, -, hopen, -⟩ | ⟨-, b₀, b₁, hb, -, hopen, -⟩
    · cases hnone
    all_goals
      cases hb
      rw [hclosed] at hopen
      cases hopen

/-- The events after the start of a block: deltas, and the stop. -/
lemma trace_open {events : List JsonValue} {b : BlockState} {b' : Option BlockState}
    (hopen : b.isOpen = true) (h : events.foldlM (blockStep number) (some b) = some b') :
    events = events.filter (isEvent .contentBlockDelta) ++ events.filter (isEvent .contentBlockStop) ∧
      events.filter (isEvent .contentBlockStart) = [] ∧
      ∃ b₁, b' = some b₁ ∧
        (events.filter (isEvent .contentBlockStop)).length = if b₁.isOpen then 0 else 1 := by
  induction events generalizing b with
  | nil =>
    cases h
    exact ⟨rfl, rfl, b, rfl, by simp [hopen]⟩
  | cons raw events ih =>
    rw [List.foldlM_cons, Option.bind_eq_bind, Option.bind_eq_some_iff] at h
    obtain ⟨b₁, hstep, hrest⟩ := h
    rcases blockStep_eq_some hstep with
      ⟨-, hnone, -⟩ | ⟨htype, b₀, b₁, -, rfl, -, hopen₁⟩ | ⟨htype, b₀, b₁, -, rfl, -, hclosed⟩
    · cases hnone
    · obtain ⟨hevents, hstart, b₂, hb', hstop⟩ := ih hopen₁ hrest
      refine ⟨?_, ?_, b₂, hb', ?_⟩
      · rw [List.filter_cons_of_pos (by simp [isEvent, htype]),
          List.filter_cons_of_neg (by simp [isEvent, htype]), List.cons_append, ← hevents]
      · rw [List.filter_cons_of_neg (by simp [isEvent, htype]), hstart]
      · rw [List.filter_cons_of_neg (by simp [isEvent, htype]), hstop]
    · obtain ⟨rfl, rfl⟩ := trace_closed hclosed hrest
      refine ⟨?_, ?_, b₁, rfl, ?_⟩
      · rw [List.filter_cons_of_neg (by simp [isEvent, htype]),
          List.filter_cons_of_pos (by simp [isEvent, htype])]
        rfl
      · exact List.filter_cons_of_neg (by simp [isEvent, htype])
      · rw [List.filter_cons_of_pos (by simp [isEvent, htype]), hclosed]
        rfl

/-- **The events of a block**: at most one start, deltas, and at most one stop, which closes it. -/
theorem trace_shape {events : List JsonValue} {b : Option BlockState}
    (h : events.foldlM (blockStep number) none = some b) :
    events = events.filter (isEvent .contentBlockStart) ++
        events.filter (isEvent .contentBlockDelta) ++ events.filter (isEvent .contentBlockStop) ∧
      (events.filter (isEvent .contentBlockStart)).length = (if b.isSome then 1 else 0) ∧
      (events.filter (isEvent .contentBlockStop)).length = if b.any (!·.isOpen) then 1 else 0 := by
  cases events with
  | nil =>
    cases h
    exact ⟨rfl, rfl, rfl⟩
  | cons raw events =>
    rw [List.foldlM_cons, Option.bind_eq_bind, Option.bind_eq_some_iff] at h
    obtain ⟨b₁, hstep, hrest⟩ := h
    rcases blockStep_eq_some hstep with
      ⟨htype, -, b₁, rfl, hopen⟩ | ⟨-, b₀, b₁, hb, -⟩ | ⟨-, b₀, b₁, hb, -⟩
    · obtain ⟨hevents, hstart, b₂, rfl, hstop⟩ := trace_open hopen hrest
      rw [List.filter_cons_of_pos (by simp [isEvent, htype]),
        List.filter_cons_of_neg (by simp [isEvent, htype]),
        List.filter_cons_of_neg (by simp [isEvent, htype]), hstart, hstop]
      refine ⟨?_, rfl, ?_⟩
      · rw [List.singleton_append, List.cons_append, ← hevents]
      · cases hb₂ : b₂.isOpen <;> simp [hb₂]
    · cases hb
    · cases hb

/-! ## The head of the message -/

/-- The role and the model that an event starts the message with. -/
def headOf (raw : JsonValue) : Option JsonValue × Option JsString :=
  ((raw.get "message").bind (·.get "role"), (raw.get "message").bind (·.textAt "model"))

lemma providerModelOf_eq_ok {message : JsonValue} {model : Option JsString}
    (h : providerModelOf message = .ok model) : model = message.textAt "model" := by
  unfold providerModelOf at h
  unfold JsonValue.textAt
  split at h
  · next hnone =>
    cases h
    rw [hnone]
  · next hsome =>
    cases h
    rw [hsome]
  · cases h

/-- The role and the model are those of the last start. -/
lemma head_run {events : List JsonValue} {s s' : StreamState}
    (hrun : events.foldlM (StreamState.step number) s = .ok s') :
    (s'.role, s'.model) =
      (events.filter (isEvent .messageStart)).foldl (fun _ raw => headOf raw) (s.role, s.model) := by
  refine foldl_project (f := fun s : StreamState => (s.role, s.model))
    (g := fun _ raw => headOf raw) (fun s raw s' h => ?_) hrun
  obtain ⟨-, -, type, htype, hstep⟩ := step_eq_ok h
  cases hstep with
  | messageStart fresh message role content named =>
    rw [if_pos (by simp [isEvent, htype]), headOf, message, providerModelOf_eq_ok named]
    rfl
  | _ => exact (if_neg (by simp [isEvent, htype])).symm

/-! ## Counters -/

/-- A message starts at most once. -/
lemma messageStart_run {events : List JsonValue} {s s' : StreamState}
    (hrun : events.foldlM (StreamState.step number) s = .ok s') :
    s'.sawMessageStart.toNat =
      s.sawMessageStart.toNat + (events.filter (isEvent .messageStart)).length := by
  refine count_project (f := fun s : StreamState => s.sawMessageStart.toNat)
    (fun s raw s' h => ?_) hrun
  obtain ⟨-, -, type, htype, hstep⟩ := step_eq_ok h
  cases hstep with
  | messageStart fresh => rw [if_pos (by simp [isEvent, htype]), fresh]; rfl
  | _ => exact (if_neg (by simp [isEvent, htype])).symm

/-- A message stops at most once. -/
lemma messageStop_run {events : List JsonValue} {s s' : StreamState}
    (hrun : events.foldlM (StreamState.step number) s = .ok s') :
    s'.sawMessageStop.toNat =
      s.sawMessageStop.toNat + (events.filter (isEvent .messageStop)).length := by
  refine count_project (f := fun s : StreamState => s.sawMessageStop.toNat)
    (fun s raw s' h => ?_) hrun
  obtain ⟨hstop, -, type, htype, hstep⟩ := step_eq_ok h
  cases hstep with
  | messageStop => rw [if_pos (by simp [isEvent, htype]), hstop]; rfl
  | _ => exact (if_neg (by simp [isEvent, htype])).symm

/-- At most one error is accepted. -/
lemma error_run {events : List JsonValue} {s s' : StreamState}
    (hrun : events.foldlM (StreamState.step number) s = .ok s') :
    s'.sawError.toNat = s.sawError.toNat + (events.filter (isEvent .error)).length := by
  refine count_project (f := fun s : StreamState => s.sawError.toNat) (fun s raw s' h => ?_) hrun
  obtain ⟨-, herror, type, htype, hstep⟩ := step_eq_ok h
  cases hstep with
  | error => rw [if_pos (by simp [isEvent, htype]), herror]; rfl
  | _ => exact (if_neg (by simp [isEvent, htype])).symm

/-- The next index is the number of the blocks that were started. -/
lemma nextBlockIndex_run {events : List JsonValue} {s s' : StreamState}
    (hrun : events.foldlM (StreamState.step number) s = .ok s') :
    s'.nextBlockIndex =
      s.nextBlockIndex + (events.filter (isEvent .contentBlockStart)).length := by
  refine count_project (f := StreamState.nextBlockIndex) (fun s raw s' h => ?_) hrun
  obtain ⟨-, -, type, htype, hstep⟩ := step_eq_ok h
  cases hstep with
  | contentBlockStart => rw [if_pos (by simp [isEvent, htype])]
  | _ => exact (if_neg (by simp [isEvent, htype])).symm

/-- The indexes of the blocks are `0`, `1`, … in the order of their starts. -/
def Contiguous (s : StreamState) : Prop :=
  s.blocks.map (·.1.1) = (List.range s.nextBlockIndex).map fun k => JsNumber.int (k : ℕ)

lemma contiguous_run {events : List JsonValue} {s : StreamState}
    (hrun : events.foldlM (StreamState.step number) {} = .ok s) : Contiguous s := by
  have hput : ∀ (s : StreamState) index b, Contiguous s → Contiguous (s.put index b) := by
    intro s index b hs
    rw [Contiguous, ← show (s.put index b).nextBlockIndex = s.nextBlockIndex from rfl] at hs
    rw [Contiguous, ← hs, StreamState.put, List.map_map]
    refine List.map_congr_left fun e _ => ?_
    rw [Function.comp_apply]
    split
    · next he => rw [he]
    · rfl
  refine run_preserves (P := Contiguous) (fun s raw s' hs h => ?_) (show Contiguous {} from rfl) hrun
  obtain ⟨-, -, type, -, hstep⟩ := step_eq_ok h
  cases hstep with
  | contentBlockStart begun index_eq block fresh contiguous =>
    rw [Contiguous, List.map_append, hs, List.range_succ, List.map_append]
    simp only [List.map_cons, List.map_nil, contiguous]
  | contentBlockDelta => exact hput _ _ _ hs
  | contentBlockStop => exact hput _ _ _ hs
  | _ => exact hs

/-! ## Complete runs -/

/-- The events are accepted, and end with every block closed behind the stop of the message. -/
structure Complete (number : List Char → Option JsonNumber) (events : List JsonValue)
    (s : StreamState) : Prop where
  run : events.foldlM (StreamState.step number) {} = .ok s
  closed : s.hasOpen = false
  stopped : s.sawMessageStop = true

section Complete

variable {events events' : List JsonValue} {s s' : StreamState}

/-- The events of a block in a complete run. -/
lemma Complete.trace (h : Complete number events s) (x : JsonNumber) :
    (events.filter (addresses x)).foldlM (blockStep number) none = some (s.find x) :=
  find_run h.run x

/-- A block of a complete run has one start and one stop, and any other index has none. -/
lemma Complete.count (h : Complete number events s) (x : JsonNumber) :
    ((events.filter (addresses x)).filter (isEvent .contentBlockStop)).length =
        ((events.filter (addresses x)).filter (isEvent .contentBlockStart)).length ∧
      ((events.filter (addresses x)).filter (isEvent .contentBlockStart)).length ≤ 1 := by
  obtain ⟨-, hstart, hstop⟩ := trace_shape (h.trace x)
  rw [hstart, hstop]
  cases hfind : s.find x with
  | none => simp
  | some b =>
    have hb : b.isOpen = false := by
      obtain ⟨e, he, rfl⟩ := Option.map_eq_some_iff.mp hfind
      have hany := h.closed
      rw [StreamState.hasOpen, List.any_eq_false] at hany
      simpa using hany e (List.mem_of_find?_eq_some he)
    simp [hb]

/-- A complete run has one start and one stop of the message. -/
lemma Complete.count_message (h : Complete number events s) :
    (events.filter (isEvent .messageStart)).length = 1 ∧
      (events.filter (isEvent .messageStop)).length = 1 := by
  have hbegun : s.sawMessageStart = true := by
    refine run_preserves (P := fun s => s.sawMessageStop = true → s.sawMessageStart = true)
      (fun s raw s' hs hstep => ?_) (fun hstop => by cases hstop) h.run h.stopped
    obtain ⟨-, -, type, -, hstep⟩ := step_eq_ok hstep
    cases hstep with
    | messageStart => exact fun _ => rfl
    | messageStop begun => exact fun _ => begun
    | _ => exact hs
  have hstart := messageStart_run h.run
  have hstop := messageStop_run h.run
  rw [hbegun, Bool.toNat_true] at hstart
  rw [h.stopped, Bool.toNat_true] at hstop
  have hzero : ({} : StreamState).sawMessageStart.toNat = 0 ∧
      ({} : StreamState).sawMessageStop.toNat = 0 := ⟨rfl, rfl⟩
  omega

/-- **The blocks of a complete run are determined by the events of each of them.** -/
lemma Complete.blocks_eq (h : Complete number events s) (h' : Complete number events' s')
    (hstarts : (events.filter (isEvent .contentBlockStart)).length =
      (events'.filter (isEvent .contentBlockStart)).length)
    (htrace : ∀ x, events.filter (addresses x) = events'.filter (addresses x)) :
    s.blocks = s'.blocks := by
  have hnext : s.nextBlockIndex = s'.nextBlockIndex := by
    rw [nextBlockIndex_run h.run, nextBlockIndex_run h'.run, hstarts]
  have hkeys : s.blocks.map (·.1.1) = s'.blocks.map (·.1.1) := by
    rw [contiguous_run h.run, contiguous_run h'.run, hnext]
  have hmap : ∀ l : List (JsonNumber × BlockState),
      l.map (·.1.1) = (l.map Prod.fst).map Subtype.val := fun l => (List.map_map ..).symm
  have hnodup : (s.blocks.map (·.1.1)).Nodup := by
    rw [contiguous_run h.run]
    refine List.nodup_range.map fun m n hmn => ?_
    simpa using hmn
  refine entries_ext ?_ ?_ fun x => ?_
  · rw [hmap, hmap] at hkeys
    exact List.map_injective_iff.mpr Subtype.val_injective hkeys
  · rw [hmap] at hnodup
    exact List.Nodup.of_map _ hnodup
  · have hfind := h.trace x
    rw [htrace x, h'.trace x] at hfind
    exact (Option.some.inj hfind).symm

/-- The events of a block in a complete run are determined by those of each type. -/
lemma Complete.trace_ext (h : Complete number events s) (h' : Complete number events' s')
    (x : JsonNumber) (hclass : ∀ type,
      (events.filter (addresses x)).filter (isEvent type) =
        (events'.filter (addresses x)).filter (isEvent type)) :
    events.filter (addresses x) = events'.filter (addresses x) := by
  rw [(trace_shape (h.trace x)).1, (trace_shape (h'.trace x)).1, hclass, hclass, hclass]

end Complete

end Messages

end GovAI
