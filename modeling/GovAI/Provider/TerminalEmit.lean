import GovAI.Provider.StreamForward

/-!
# The terminal event of a stream

`pumpStreamWithTerminalEmit` of `provider-stream-http`, as the consumer of the forwarder: it drains
the stream to the socket and emits the terminal event once, whatever fails (`EmitState.EmitsOk`).
The states of the forwarder inside are those of `forwardSystem`, so all that holds there holds here.
-/

namespace GovAI

/-! ## The outcome -/

/-- `StreamOutcome`. -/
inductive StreamOutcome where
  | complete
  | upstreamError
  | clientDisconnect
deriving DecidableEq

/-- `classifyStreamError`: `code` is the code of the error, when it has one that is a string. -/
def classifyStreamError (code : Option String) (aborted : Bool) : StreamOutcome :=
  if aborted then .clientDisconnect
  else match code with
    | some code =>
      if code = "EPIPE" || code = "ECONNRESET" || code.startsWith "ERR_STREAM_" then
        .clientDisconnect
      else .upstreamError
    | none => .upstreamError

/-- A failed drain is never taken for a complete one. -/
lemma classifyStreamError_ne_complete (code : Option String) (aborted : Bool) :
    classifyStreamError code aborted ≠ .complete := by
  unfold classifyStreamError
  cases aborted with
  | true => simp
  | false =>
    cases code with
    | none => simp
    | some code =>
      simp only [Bool.false_eq_true, if_false]
      split <;> simp

/-! ## The drain -/

/-- Where `pumpStreamWithTerminalEmit` stands: before it, in its loop, in the `await` of
`finalizeAndEmit`, or returned. -/
inductive DrainPoint where
  | notStarted
  | draining
  | finalizing (outcome : StreamOutcome)
  | returned (outcome : StreamOutcome)
deriving DecidableEq

/-- How the socket is closed. -/
inductive SocketCall where
  | end
  | destroy
deriving DecidableEq

/-- The variables of `pumpStreamWithTerminalEmit` and the forwarder that it reads.  `emits` are the
calls of `finalizeAndEmit`. -/
structure EmitState where
  forward : ForwardState
  point : DrainPoint
  listening : Bool
  drained : Bool
  emitted : Bool
  emits : List StreamOutcome
  socketCalls : List SocketCall
deriving DecidableEq

/-- Before the call. -/
def EmitState.start (forward : ForwardState) : EmitState where
  forward := forward
  point := .notStarted
  listening := false
  drained := false
  emitted := false
  emits := []
  socketCalls := []

/-- What can happen next.  The signal is also aborted by others than the drain. -/
inductive EmitEvent where
  | upstreamChunk (value : Bytes)
  | upstreamEof
  | upstreamError
  | abort
  | pull
  | pumpStep
  | begin (alreadyClosed : Bool)
  | clientClose
  | writeChunk (failure : Option (Option String))
  | readDone
  | readFails (code : Option String)
  | finalized
deriving DecidableEq

section Steps

variable (sha256 : Bytes → Bytes)

/-- `controller.abort()`. -/
def EmitState.abort (s : EmitState) : EmitState :=
  { s with forward := { s.forward.failBody with aborted := true } }

/-- The `finally` up to the `await` of `finalizeAndEmit`. -/
def EmitState.enterFinally (s : EmitState) (outcome : StreamOutcome) : EmitState :=
  { s with
    listening := false
    emits := if s.emitted then s.emits else s.emits ++ [outcome]
    emitted := true
    point := .finalizing outcome }

/-- The call: the listener is armed, and a socket that is closed already skips the loop. -/
def EmitState.begin (s : EmitState) (alreadyClosed : Bool) : Option EmitState :=
  if s.point = .notStarted then
    some (if alreadyClosed then s.abort.enterFinally .clientDisconnect
      else { s with listening := true, point := .draining })
  else none

/-- The listener of `close`. -/
def EmitState.clientClose (s : EmitState) : EmitState :=
  if s.listening ∧ s.drained = false then s.abort else s

/-- The `catch` of the loop. -/
def EmitState.catchError (s : EmitState) (code : Option String) : EmitState :=
  let outcome := classifyStreamError code s.forward.aborted
  (if outcome = .clientDisconnect then s.abort else s).enterFinally outcome

/-- A read gives a chunk, and its write succeeds or throws. -/
def EmitState.writeChunk (s : EmitState) (failure : Option (Option String)) : Option EmitState :=
  if s.point = .draining then
    s.forward.deliver.map fun forward =>
      match failure with
      | none => { s with forward := forward }
      | some code => EmitState.catchError { s with forward := forward } code
  else none

/-- A read gives the end. -/
def EmitState.readDone (s : EmitState) : Option EmitState :=
  if s.point = .draining then
    s.forward.deliverEnd.map fun forward =>
      EmitState.enterFinally { s with forward := forward, drained := true } .complete
  else none

/-- A read rejects. -/
def EmitState.readFails (s : EmitState) (code : Option String) : Option EmitState :=
  if s.point = .draining ∧ s.forward.outStatus = .errored then some (s.catchError code) else none

/-- `finalizeAndEmit` returns or throws, and the socket is closed. -/
def EmitState.finalized (s : EmitState) : Option EmitState :=
  match s.point with
  | .finalizing outcome =>
    some { s with
      socketCalls := s.socketCalls ++ [if outcome = .upstreamError then .destroy else .end]
      point := .returned outcome }
  | _ => none

/-- One event. -/
def EmitState.step (s : EmitState) : EmitEvent → Option EmitState
  | .upstreamChunk value => (s.forward.upstreamChunk value).map fun f => { s with forward := f }
  | .upstreamEof => s.forward.upstreamEof.map fun f => { s with forward := f }
  | .upstreamError => some { s with forward := s.forward.failBody }
  | .abort => some s.abort
  | .pull => some { s with forward := s.forward.signalDemand }
  | .pumpStep => (s.forward.pumpStep sha256).map fun f => { s with forward := f }
  | .begin alreadyClosed => s.begin alreadyClosed
  | .clientClose => some s.clientClose
  | .writeChunk failure => s.writeChunk failure
  | .readDone => s.readDone
  | .readFails code => s.readFails code
  | .finalized => s.finalized

/-- The drain over the forwarder under every order of events. -/
def emitSystem : TransitionSystem EmitState EmitEvent where
  init s := ∃ forward, (forwardSystem sha256).init forward ∧ s = .start forward
  step s e s' := s.step sha256 e = some s'

end Steps

/-! ## One terminal event -/

/-- The outcome that the terminal event was given. -/
def DrainPoint.outcome : DrainPoint → Option StreamOutcome
  | .finalizing outcome => some outcome
  | .returned outcome => some outcome
  | _ => none

/-- How the socket was closed. -/
def DrainPoint.closing : DrainPoint → List SocketCall
  | .returned outcome => [if outcome = .upstreamError then .destroy else .end]
  | _ => []

/-- The terminal event is emitted once, when the drain is over, as complete only after the end was
read; the socket is closed after it. -/
structure EmitState.EmitsOk (sha256 : Bytes → Bytes) (s : EmitState) : Prop where
  forward : (forwardSystem sha256).Reachable s.forward
  running : s.forward.cancelled = false
  emits : s.emits = s.point.outcome.toList
  emitted : s.emitted = s.point.outcome.isSome
  socketCalls : s.socketCalls = s.point.closing
  complete : s.point.outcome = some .complete → s.forward.drained = true

section Drain

variable {sha256 : Bytes → Bytes} {f f' : ForwardState} {a : ForwardEvent}
  {s s' : EmitState} {e : EmitEvent}

/-- Only the consumer cancels. -/
lemma ForwardState.cancelled_step (hs : f.step sha256 a = some f') (he : a ≠ .cancel) :
    f'.cancelled = f.cancelled := by
  cases a <;>
    simp only [ForwardState.step, ForwardState.upstreamChunk, ForwardState.resolveRead,
      ForwardState.upstreamEof, ForwardState.failBody, ForwardState.signalDemand,
      ForwardState.deliver, ForwardState.deliverEnd, ForwardState.cancelSettled,
      ForwardState.pumpStep, ForwardState.callRead, ForwardState.leaveLoop, ForwardState.fail,
      ForwardState.enqueue, ForwardState.awaitDemand, ForwardState.settle] at hs <;>
    grind -linarith

/-- An end that was read stays read. -/
lemma ForwardState.drained_step (hs : f.step sha256 a = some f') (hd : f.drained = true) :
    f'.drained = true := by
  cases a <;>
    simp only [ForwardState.step, ForwardState.upstreamChunk, ForwardState.resolveRead,
      ForwardState.upstreamEof, ForwardState.failBody, ForwardState.signalDemand,
      ForwardState.deliver, ForwardState.deliverEnd, ForwardState.cancel, ForwardState.cancelBody,
      ForwardState.cancelSettled, ForwardState.pumpStep, ForwardState.callRead,
      ForwardState.leaveLoop, ForwardState.fail, ForwardState.enqueue, ForwardState.awaitDemand,
      ForwardState.settle] at hs <;>
    grind -linarith

/-- What the forwarder does leaves the terminal event as it is. -/
lemma EmitState.EmitsOk.withForward (h : s.EmitsOk sha256)
    (hs : s.forward.step sha256 a = some f') (he : a ≠ .cancel) :
    EmitState.EmitsOk sha256 { s with forward := f' } where
  forward := h.forward.step hs
  running := (ForwardState.cancelled_step hs he).trans h.running
  emits := h.emits
  emitted := h.emitted
  socketCalls := h.socketCalls
  complete hc := ForwardState.drained_step hs (h.complete hc)

/-- An abort leaves the terminal event as it is. -/
lemma EmitState.EmitsOk.abort (h : s.EmitsOk sha256) : s.abort.EmitsOk sha256 :=
  h.withForward (a := .abort) rfl (by decide)

/-- The `finally` emits the terminal event. -/
lemma EmitState.EmitsOk.enterFinally {outcome : StreamOutcome} (h : s.EmitsOk sha256)
    (hpoint : s.point.outcome = none) (hc : outcome = .complete → s.forward.drained = true) :
    (s.enterFinally outcome).EmitsOk sha256 where
  forward := h.forward
  running := h.running
  emits := by
    have hemitted : s.emitted = false := by rw [h.emitted, hpoint, Option.isSome_none]
    have hemits : s.emits = [] := by rw [h.emits, hpoint, Option.toList_none]
    simp [EmitState.enterFinally, DrainPoint.outcome, hemitted, hemits]
  emitted := rfl
  socketCalls := by
    have hclosing : s.point.closing = [] := by
      cases hp : s.point <;> simp_all [DrainPoint.closing, DrainPoint.outcome]
    exact h.socketCalls.trans hclosing
  complete hout := hc (Option.some.inj hout)

/-- The `catch` emits the terminal event, and not as complete. -/
lemma EmitState.EmitsOk.catchError {code : Option String} (h : s.EmitsOk sha256)
    (hpoint : s.point.outcome = none) : (s.catchError code).EmitsOk sha256 := by
  have hne := classifyStreamError_ne_complete code s.forward.aborted
  unfold EmitState.catchError
  dsimp only
  split
  · exact h.abort.enterFinally hpoint fun hc => absurd hc hne
  · exact h.enterFinally hpoint fun hc => absurd hc hne

/-- One event keeps the terminal event in order. -/
lemma EmitState.EmitsOk.step (h : s.EmitsOk sha256) (hs : s.step sha256 e = some s') :
    s'.EmitsOk sha256 := by
  cases e with
  | upstreamChunk value =>
    obtain ⟨f, hf, rfl⟩ := Option.map_eq_some_iff.mp hs
    exact h.withForward (a := .upstreamChunk value) hf (by simp)
  | upstreamEof =>
    obtain ⟨f, hf, rfl⟩ := Option.map_eq_some_iff.mp hs
    exact h.withForward (a := .upstreamEof) hf (by decide)
  | upstreamError =>
    obtain rfl := Option.some.inj hs
    exact h.withForward (a := .upstreamError) rfl (by decide)
  | abort =>
    obtain rfl := Option.some.inj hs
    exact h.abort
  | pull =>
    obtain rfl := Option.some.inj hs
    exact h.withForward (a := .pull) rfl (by decide)
  | pumpStep =>
    obtain ⟨f, hf, rfl⟩ := Option.map_eq_some_iff.mp hs
    exact h.withForward (a := .pumpStep) hf (by decide)
  | begin alreadyClosed =>
    simp only [EmitState.step, EmitState.begin] at hs
    split at hs
    · rename_i hp
      have hpoint : s.point.outcome = none := by rw [hp]; rfl
      obtain rfl := Option.some.inj hs
      split
      · exact h.abort.enterFinally hpoint (by simp)
      · obtain ⟨hforward, hrunning, hemits, hemitted, hsocket, -⟩ := h
        rw [hp] at hemits hemitted hsocket
        exact ⟨hforward, hrunning, hemits, hemitted, hsocket, by simp [DrainPoint.outcome]⟩
    · cases hs
  | clientClose =>
    obtain rfl := Option.some.inj hs
    unfold EmitState.clientClose
    split
    · exact h.abort
    · exact h
  | writeChunk failure =>
    simp only [EmitState.step, EmitState.writeChunk] at hs
    split at hs
    · rename_i hp
      obtain ⟨f, hf, rfl⟩ := Option.map_eq_some_iff.mp hs
      have hread := h.withForward (a := .deliver) hf (by decide)
      cases failure with
      | none => exact hread
      | some code => exact hread.catchError (by rw [hp]; rfl)
    · cases hs
  | readDone =>
    simp only [EmitState.step, EmitState.readDone] at hs
    split at hs
    · rename_i hp
      obtain ⟨f, hf, rfl⟩ := Option.map_eq_some_iff.mp hs
      have hread := h.withForward (a := .deliverEnd) hf (by decide)
      have hdrained : f.drained = true := by
        simp only [ForwardState.deliverEnd] at hf
        grind -linarith
      obtain ⟨hforward, hrunning, hemits, hemitted, hsocket, hcomplete⟩ := hread
      exact EmitState.EmitsOk.enterFinally
        ⟨hforward, hrunning, hemits, hemitted, hsocket, hcomplete⟩ (by rw [hp]; rfl)
        fun _ => hdrained
    · cases hs
  | readFails code =>
    simp only [EmitState.step, EmitState.readFails] at hs
    split at hs
    · rename_i hp
      obtain rfl := Option.some.inj hs
      exact h.catchError (by rw [hp.1]; rfl)
    · cases hs
  | finalized =>
    simp only [EmitState.step, EmitState.finalized] at hs
    split at hs
    · rename_i outcome hp
      obtain rfl := Option.some.inj hs
      obtain ⟨hforward, hrunning, hemits, hemitted, hsocket, hcomplete⟩ := h
      rw [hp] at hemits hemitted hsocket hcomplete
      exact ⟨hforward, hrunning, hemits, hemitted,
        by rw [hsocket]; rfl, hcomplete⟩
    · cases hs

/-- The terminal event is in order in every reachable state. -/
theorem emitSystem_emitsOk (hs : (emitSystem sha256).Reachable s) : s.EmitsOk sha256 := by
  refine TransitionSystem.Reachable.invariant (I := fun s => s.EmitsOk sha256) ?_ ?_ hs
  · rintro s ⟨f, hf, rfl⟩
    have hdefault : f.cancelled = false := by
      rcases hf with rfl | rfl <;> rfl
    exact ⟨.init hf, hdefault, rfl, rfl, rfl, by simp [DrainPoint.outcome, EmitState.start]⟩
  · intro s e s' _ h hstep
    exact h.step hstep

/-! ## The terminal event happens -/

/-- An event by which the drain or the pump goes on. -/
def EmitEvent.isWork : EmitEvent → Bool
  | .pumpStep => true
  | .writeChunk _ => true
  | .readDone => true
  | .readFails _ => true
  | _ => false

/-- How far the drain is from the terminal event, once the body has ended. -/
def EmitState.distance (s : EmitState) : ℕ := 2 * s.forward.pump.rank + s.forward.outQueue.length + 1

/-- A step of the pump enqueues one chunk at most. -/
lemma ForwardState.outQueue_pumpStep (hs : f.pumpStep sha256 = some f') :
    f'.outQueue.length ≤ f.outQueue.length + 1 := by
  simp only [ForwardState.pumpStep, ForwardState.callRead, ForwardState.leaveLoop,
    ForwardState.fail, ForwardState.enqueue, ForwardState.awaitDemand, ForwardState.settle] at hs
  grind -linarith

/-- The queue of the consumer grows only by a step of the pump. -/
lemma ForwardState.outQueue_step (hs : f.step sha256 a = some f') (he : a ≠ .pumpStep) :
    f'.outQueue.length ≤ f.outQueue.length := by
  cases a <;>
    simp only [ForwardState.step, ForwardState.upstreamChunk, ForwardState.resolveRead,
      ForwardState.upstreamEof, ForwardState.failBody, ForwardState.signalDemand,
      ForwardState.deliver, ForwardState.deliverEnd, ForwardState.cancel, ForwardState.cancelBody,
      ForwardState.cancelSettled, ForwardState.settle] at hs <;>
    grind -linarith

/-- What the forwarder does on its own brings the drain no further away. -/
lemma EmitState.distance_withForward (h : f.BodyOk) (hend : f.upstream.ended = true)
    (hs : f.step sha256 a = some f') :
    2 * f'.pump.rank + f'.outQueue.length + (if a = .pumpStep then 1 else 0) ≤
      2 * f.pump.rank + f.outQueue.length := by
  have hrank := ForwardState.rank_step h hend hs
  by_cases he : a = .pumpStep
  · subst he
    have hqueue := ForwardState.outQueue_pumpStep hs
    rw [if_pos rfl] at hrank ⊢
    omega
  · have hqueue := ForwardState.outQueue_step hs he
    rw [if_neg he] at hrank ⊢
    omega

/-- Once the body has ended an event of the drain goes on to the terminal event, and each event of
the pump or the drain brings it nearer. -/
lemma EmitState.distance_step (h : s.EmitsOk sha256) (hp : s.point = .draining)
    (hend : s.forward.upstream.ended = true) (hs : s.step sha256 e = some s') :
    s'.point.outcome.isSome = true ∨ s'.point = .draining ∧
      s'.forward.upstream.ended = true ∧
      s'.distance + (if e.isWork then 1 else 0) ≤ s.distance := by
  have hbody := (forwardSystem_ok h.forward).body
  have hforward : ∀ {a f'}, s.forward.step sha256 a = some f' →
      f'.upstream.ended = true ∧
        2 * f'.pump.rank + f'.outQueue.length + (if a = .pumpStep then 1 else 0) ≤
          2 * s.forward.pump.rank + s.forward.outQueue.length :=
    fun hf => ⟨ForwardState.ended_step hf hend, EmitState.distance_withForward hbody hend hf⟩
  cases e with
  | upstreamChunk value =>
    obtain ⟨f, hf, rfl⟩ := Option.map_eq_some_iff.mp hs
    obtain ⟨hended, hle⟩ := hforward (a := .upstreamChunk value) hf
    exact .inr ⟨hp, hended, Nat.add_le_add_right hle 1⟩
  | upstreamEof =>
    obtain ⟨f, hf, rfl⟩ := Option.map_eq_some_iff.mp hs
    obtain ⟨hended, hle⟩ := hforward (a := .upstreamEof) hf
    exact .inr ⟨hp, hended, Nat.add_le_add_right hle 1⟩
  | upstreamError =>
    obtain rfl := Option.some.inj hs
    obtain ⟨hended, hle⟩ := hforward (a := .upstreamError) rfl
    exact .inr ⟨hp, hended, Nat.add_le_add_right hle 1⟩
  | abort =>
    obtain rfl := Option.some.inj hs
    obtain ⟨hended, hle⟩ := hforward (a := .abort) rfl
    exact .inr ⟨hp, hended, Nat.add_le_add_right hle 1⟩
  | pull =>
    obtain rfl := Option.some.inj hs
    obtain ⟨hended, hle⟩ := hforward (a := .pull) rfl
    exact .inr ⟨hp, hended, Nat.add_le_add_right hle 1⟩
  | pumpStep =>
    obtain ⟨f, hf, rfl⟩ := Option.map_eq_some_iff.mp hs
    obtain ⟨hended, hle⟩ := hforward (a := .pumpStep) hf
    exact .inr ⟨hp, hended, by rw [if_pos rfl] at hle; exact Nat.add_le_add_right hle 1⟩
  | begin alreadyClosed =>
    simp only [EmitState.step, EmitState.begin, hp] at hs
    cases hs
  | clientClose =>
    obtain rfl := Option.some.inj hs
    unfold EmitState.clientClose
    split
    · obtain ⟨hended, hle⟩ := hforward (a := .abort) rfl
      exact .inr ⟨hp, hended, Nat.add_le_add_right hle 1⟩
    · exact .inr ⟨hp, hend, le_rfl⟩
  | writeChunk failure =>
    simp only [EmitState.step, EmitState.writeChunk, if_pos hp] at hs
    obtain ⟨f, hf, rfl⟩ := Option.map_eq_some_iff.mp hs
    cases failure with
    | none =>
      obtain ⟨hended, -⟩ := hforward (a := .deliver) hf
      refine .inr ⟨hp, hended, ?_⟩
      unfold ForwardState.deliver at hf
      split at hf
      · cases hf
      · rename_i value queue hq
        obtain rfl := Option.some.inj hf
        simp only [EmitState.distance, EmitEvent.isWork, hq, List.length_cons, if_true]
        omega
    | some code => exact .inl rfl
  | readDone =>
    simp only [EmitState.step, EmitState.readDone, if_pos hp] at hs
    obtain ⟨f, hf, rfl⟩ := Option.map_eq_some_iff.mp hs
    exact .inl rfl
  | readFails code =>
    simp only [EmitState.step, EmitState.readFails] at hs
    split at hs
    · obtain rfl := Option.some.inj hs
      exact .inl rfl
    · cases hs
  | finalized =>
    simp only [EmitState.step, EmitState.finalized, hp] at hs
    cases hs

/-- The terminal event stays as it is. -/
lemma EmitState.outcome_step {outcome : StreamOutcome} (hs : s.step sha256 e = some s')
    (h : s.point.outcome = some outcome) : s'.point.outcome = some outcome := by
  have hnot : s.point ≠ .notStarted ∧ s.point ≠ .draining := by
    constructor <;> intro hp <;> rw [hp] at h <;> cases h
  cases e with
  | upstreamChunk value | upstreamEof | pumpStep =>
    obtain ⟨f, hf, rfl⟩ := Option.map_eq_some_iff.mp hs
    exact h
  | upstreamError | abort | pull =>
    obtain rfl := Option.some.inj hs
    exact h
  | begin alreadyClosed =>
    simp only [EmitState.step, EmitState.begin, if_neg hnot.1] at hs
    cases hs
  | clientClose =>
    obtain rfl := Option.some.inj hs
    unfold EmitState.clientClose
    split <;> exact h
  | writeChunk failure =>
    simp only [EmitState.step, EmitState.writeChunk, if_neg hnot.2] at hs
    cases hs
  | readDone =>
    simp only [EmitState.step, EmitState.readDone, if_neg hnot.2] at hs
    cases hs
  | readFails code =>
    simp only [EmitState.step, EmitState.readFails, hnot.2, false_and, if_false] at hs
    cases hs
  | finalized =>
    simp only [EmitState.step, EmitState.finalized] at hs
    split at hs
    · rename_i outcome' hp
      rw [hp] at h
      obtain rfl := Option.some.inj hs
      exact h
    · cases hs

/-- Once the body has ended the pump or the drain can go on until the terminal event. -/
lemma EmitState.exists_work (h : s.EmitsOk sha256) (hp : s.point = .draining)
    (hend : s.forward.upstream.ended = true) :
    ∃ e : EmitEvent, e.isWork = true ∧ ∃ s', s.step sha256 e = some s' := by
  have hok := forwardSystem_ok h.forward
  cases hq : s.forward.outQueue with
  | cons value queue =>
    refine ⟨.writeChunk none, rfl, Option.isSome_iff_exists.mp ?_⟩
    simp [EmitState.step, EmitState.writeChunk, hp, ForwardState.deliver, hq]
  | nil =>
    cases hst : s.forward.outStatus with
    | closing =>
      refine ⟨.readDone, rfl, Option.isSome_iff_exists.mp ?_⟩
      simp [EmitState.step, EmitState.readDone, hp, ForwardState.deliverEnd, hq, hst]
    | errored =>
      refine ⟨.readFails none, rfl, Option.isSome_iff_exists.mp ?_⟩
      simp [EmitState.step, EmitState.readFails, hp, hst]
    | cancelled =>
      have hcancelled := hok.consistent.cancelled.mp hst
      rw [h.running] at hcancelled
      cases hcancelled
    | readable =>
      have hopen : s.forward.settled = false := by
        rw [← Bool.not_eq_true]
        intro hset
        rcases hok.consistent.settled hset with hfinished | hcancelled
        · exact (hok.consistent.finished hfinished).2 hst
        · rw [h.running] at hcancelled
          cases hcancelled
      obtain ⟨f, hf⟩ := ForwardState.exists_pumpStep hok.body hok.consistent hend hopen
      exact ⟨.pumpStep, rfl, _, by rw [EmitState.step, show s.forward.pumpStep sha256 = some f from hf,
        Option.map_some]⟩

/-- How often the pump or the drain goes on in a run. -/
def workSteps (es : List EmitEvent) : ℕ := es.countP (·.isWork)

/-- **The emit.** Once the body has ended, enough events of the pump and the drain lead to the
terminal event. -/
lemma emits_of_workSteps {es : List EmitEvent} (hs : (emitSystem sha256).Reachable s)
    (hr : (emitSystem sha256).Run s es s')
    (hp : s.point.outcome.isSome = true ∨ s.point = .draining ∧
      s.forward.upstream.ended = true ∧ s.distance ≤ workSteps es) :
    s'.point.outcome.isSome = true := by
  induction hr with
  | nil s =>
    rcases hp with hp | ⟨-, -, hn⟩
    · exact hp
    · simp [EmitState.distance, workSteps] at hn
  | @cons s t s' e es hstep hr ih =>
    refine ih (hs.step hstep) ?_
    rcases hp with hp | ⟨hp, hend, hn⟩
    · obtain ⟨outcome, ho⟩ := Option.isSome_iff_exists.mp hp
      exact .inl (by rw [EmitState.outcome_step hstep ho]; rfl)
    · rcases EmitState.distance_step (emitSystem_emitsOk hs) hp hend hstep with
        hout | ⟨hp', hend', hle⟩
      · exact .inl hout
      · refine .inr ⟨hp', hend', ?_⟩
        simp only [workSteps, List.countP_cons] at hn ⊢
        omega

/-- The terminal event of a state: `finalizeAndEmit` is called once, when the drain is over, with
`complete` only after the end was read, and the socket is closed after it, normally only when the
outcome is not an upstream error. -/
structure EmitState.TerminalOnce (sha256 : Bytes → Bytes) (s : EmitState) : Prop where
  once : s.emits.length = if s.point.outcome.isSome then 1 else 0
  outcome : ∀ o ∈ s.emits, s.point.outcome = some o
  complete : .complete ∈ s.emits → s.forward.drained = true
  ended : .end ∈ s.socketCalls → ∃ o ∈ s.emits, o ≠ .upstreamError
  destroyed : .destroy ∈ s.socketCalls → .upstreamError ∈ s.emits
  later : ∀ es s', (emitSystem sha256).Run s es s' → s.emits ≠ [] → s'.emits = s.emits
  happens : s.point = .draining → s.forward.upstream.ended = true →
    (∃ e : EmitEvent, e.isWork = true ∧ ∃ s', s.step sha256 e = some s') ∧
      ∀ es s', (emitSystem sha256).Run s es s' → s.distance ≤ workSteps es → s'.emits.length = 1

/-- The socket is closed after the terminal event, in the way of its outcome. -/
lemma EmitState.EmitsOk.closing (h : s.EmitsOk sha256) {call : SocketCall}
    (hcall : call ∈ s.socketCalls) :
    ∃ o ∈ s.emits, call = if o = .upstreamError then .destroy else .end := by
  rw [h.socketCalls] at hcall
  cases hp : s.point with
  | returned outcome =>
    rw [hp] at hcall
    refine ⟨outcome, ?_, List.mem_singleton.mp hcall⟩
    rw [h.emits, hp]
    exact List.mem_singleton_self _
  | _ =>
    rw [hp] at hcall
    cases hcall

/-- The calls of `finalizeAndEmit` stay as they are after the first. -/
lemma emits_later {es : List EmitEvent} (hs : (emitSystem sha256).Reachable s)
    (hr : (emitSystem sha256).Run s es s') (hne : s.emits ≠ []) : s'.emits = s.emits := by
  have h := emitSystem_emitsOk hs
  cases ho : s.point.outcome with
  | none =>
    rw [h.emits, ho] at hne
    exact absurd rfl hne
  | some outcome =>
    have ho' : s'.point.outcome = some outcome :=
      hr.stable (P := fun t => t.point.outcome = some outcome)
        (fun _ _ _ _ hout hstep => EmitState.outcome_step hstep hout) hs ho
    rw [h.emits, (emitSystem_emitsOk (hs.run hr)).emits, ho, ho']

/-- The terminal event happens once. -/
lemma terminalOnce (hs : (emitSystem sha256).Reachable s) : s.TerminalOnce sha256 := by
  have h := emitSystem_emitsOk hs
  have honce : ∀ {t}, (emitSystem sha256).Reachable t →
      t.emits.length = if t.point.outcome.isSome then 1 else 0 := by
    intro t ht
    rw [(emitSystem_emitsOk ht).emits]
    cases t.point.outcome <;> rfl
  have hmem : ∀ o ∈ s.emits, s.point.outcome = some o := by
    intro o ho
    rwa [h.emits, Option.mem_toList] at ho
  refine ⟨honce hs, hmem, fun hc => h.complete (hmem _ hc), ?_, ?_, ?_, ?_⟩
  · intro hend
    obtain ⟨o, ho, hcall⟩ := h.closing hend
    refine ⟨o, ho, fun herror => ?_⟩
    rw [if_pos herror] at hcall
    cases hcall
  · intro hdestroy
    obtain ⟨o, ho, hcall⟩ := h.closing hdestroy
    by_cases herror : o = .upstreamError
    · rwa [← herror]
    · rw [if_neg herror] at hcall
      cases hcall
  · intro es s' hr hne
    exact emits_later hs hr hne
  · intro hp hend
    refine ⟨EmitState.exists_work h hp hend, fun es s' hr hn => ?_⟩
    rw [honce (hs.run hr), emits_of_workSteps hs hr (.inr ⟨hp, hend, hn⟩), if_pos rfl]

end Drain

/-- **The evidence of a stream.** In every order of demand, chunks, end, failure, abort and cancel the
forwarder reads the body once at a time and settles its facts once, with the hash and the length of
what was enqueued in the order of arrival; then they stay; the consumer has a beginning of it, and all
of it after the end; and an end, a cancel or an abort settles the facts.  On top the terminal event is
emitted once, as complete only after the end was read, and the socket is ended normally only when the
outcome is not an upstream error. -/
theorem stream_evidence_exact (sha256 : Bytes → Bytes) :
    (∀ s, (forwardSystem sha256).Reachable s → s.EvidenceExact sha256 ∧
      (s.pump = .read .done ∨ s.cancelled = true ∨ s.aborted = true → s.Settles sha256)) ∧
    (∀ s es s', (forwardSystem sha256).Reachable s → (forwardSystem sha256).Run s es s' →
      s.settled = true → s'.settled = true ∧ s'.terminal = s.terminal ∧
        s'.digests = s.digests ∧ s'.hashed = s.hashed ∧ s'.enqueued = s.enqueued) ∧
    ∀ s, (emitSystem sha256).Reachable s →
      s.forward.EvidenceExact sha256 ∧ s.TerminalOnce sha256 := by
  refine ⟨fun s hs => ⟨(forwardSystem_ok hs).evidenceExact, fun hend => ?_⟩,
    fun s es s' hs hr hset => ?_, fun s hs => ?_⟩
  · have hending := (forwardSystem_ok hs).ending
    rcases hend with hdone | hcancelled | haborted
    · exact settles_of_ended hs (hending.read (.inl hdone))
    · exact settles_of_ended hs (hending.cancelled hcancelled)
    · exact settles_of_ended hs (hending.aborted haborted)
  · exact settled_run hs hr hset
  · exact ⟨(forwardSystem_ok (emitSystem_emitsOk hs).forward).evidenceExact, terminalOnce hs⟩

/-- Two chunks and the end of the body, of which the consumer has not read the second one. -/
def sampleForward : List ForwardEvent :=
  [.pull, .upstreamChunk [104], .upstreamChunk [105], .pumpStep, .pumpStep, .deliver, .pull,
    .pumpStep, .pumpStep, .upstreamEof, .pumpStep, .pumpStep]

/-- The same body drained to a socket. -/
def sampleDrain : List EmitEvent :=
  [.begin false, .pull, .upstreamChunk [104], .upstreamChunk [105], .pumpStep, .pumpStep,
    .writeChunk none, .pull, .pumpStep, .pumpStep, .upstreamEof, .pumpStep, .pumpStep,
    .writeChunk none, .pumpStep, .readDone, .finalized]

/-- The forwarder is about to settle its facts, and the drain has emitted its terminal event. -/
theorem stream_evidence_exact_sample :
    (∃ s, (forwardSystem id).Reachable s ∧ s.pump = .read .done ∧
      s.enqueued = [[104], [105]] ∧ s.delivered = [[104]] ∧ s.EvidenceExact id ∧ s.Settles id) ∧
    ∃ s, (emitSystem id).Reachable s ∧ s.forward.delivered = [[104], [105]] ∧
      s.emits = [.complete] ∧ s.socketCalls = [.end] ∧
      s.forward.EvidenceExact id ∧ s.TerminalOnce id := by
  obtain ⟨hforward, -, hemit⟩ := stream_evidence_exact id
  obtain ⟨f, hf, hpump, henqueued, hdelivered⟩ : ∃ f,
      sampleForward.foldlM (ForwardState.step id) .start = some f ∧ f.pump = .read .done ∧
        f.enqueued = [[104], [105]] ∧ f.delivered = [[104]] := ⟨_, rfl, rfl, rfl, rfl⟩
  obtain ⟨s, hs, hdrained, hemits, hsocket⟩ : ∃ s,
      sampleDrain.foldlM (EmitState.step id) (.start .start) = some s ∧
        s.forward.delivered = [[104], [105]] ∧ s.emits = [.complete] ∧ s.socketCalls = [.end] :=
    ⟨_, rfl, rfl, rfl, rfl⟩
  have hfreach : (forwardSystem id).Reachable f :=
    .run (.init (.inl rfl)) (.of_foldlM (fun _ _ _ h => h) hf)
  have hsreach : (emitSystem id).Reachable s :=
    .run (.init ⟨_, .inl rfl, rfl⟩) (.of_foldlM (fun _ _ _ h => h) hs)
  obtain ⟨hexact, hsettles⟩ := hforward f hfreach
  exact ⟨⟨f, hfreach, hpump, henqueued, hdelivered, hexact, hsettles (.inl hpump)⟩,
    s, hsreach, hdrained, hemits, hsocket, hemit s hsreach⟩

end GovAI
