import GovAI.Audit.Event
import GovAI.Library.TransitionSystem

/-!
# The stream of the Anthropic forwarder

`forwardStream` of `stream-forward.ts`, from the response on.  The pump reads the body of the
provider once for each unit of demand, hashes what it reads and enqueues it for the consumer.  Between
any two steps of the pump the body and the consumer act in any order.  The terminal facts are settled
once, with the hash of all that was enqueued (`ForwardState.Consistent`), and an end of the body, a
cancel or an abort settles them after a few steps of the pump (`Run.settled_of_pumpSteps`).
-/

namespace GovAI

/-! ## The two streams -/

/-- The state of the body of the response: `closing` has its end behind chunks that are not read. -/
inductive BodyStatus where
  | readable
  | closing
  | closed
  | errored
deriving DecidableEq

/-- The body of the response with its reader; `readRequests` are the reads that wait for it. -/
structure UpstreamBody where
  queue : List Bytes
  status : BodyStatus
  readRequests : ℕ
deriving DecidableEq

/-- `reader.closed` is settled. -/
def UpstreamBody.ended (b : UpstreamBody) : Bool := b.status = .closed || b.status = .errored

/-- How a read ends. -/
inductive ReadResult where
  | chunk (value : Bytes)
  | done
  | failed
deriving DecidableEq

/-- The state of the stream that the consumer reads: `closing` was closed by the pump. -/
inductive OutStatus where
  | readable
  | closing
  | errored
  | cancelled
deriving DecidableEq

/-! ## The forwarder -/

/-- Where the pump stands: in the race of demand and end, after it, in a read, or after a read. -/
inductive PumpPoint where
  | waiting
  | awake
  | reading
  | read (result : ReadResult)
  | finished
deriving DecidableEq

/-- The terminal facts. -/
structure StreamTerminal where
  streamFinalHash : Bytes
  bytesStreamed : ℕ
deriving DecidableEq

/-- The variables of `forwardStream`.  `hashed` is what the hasher was given and `digests` how often
`digest` was called; `received` records the chunks that have arrived, and `enqueued`, `delivered` and
`drained` what the consumer can read, what it has read, and that it has read the end. -/
structure ForwardState where
  upstream : UpstreamBody
  pump : PumpPoint
  releaseDemand : Bool
  pendingDemand : Bool
  cancelled : Bool
  cancelling : Bool
  aborted : Bool
  settled : Bool
  hashed : Bytes
  bytesStreamed : ℕ
  digests : ℕ
  terminal : Option StreamTerminal
  outQueue : List Bytes
  outStatus : OutStatus
  received : List Bytes
  enqueued : List Bytes
  delivered : List Bytes
  drained : Bool
deriving DecidableEq

/-- After `start`, with a body: the pump waits for the first demand. -/
def ForwardState.start : ForwardState where
  upstream := ⟨[], .readable, 0⟩
  pump := .waiting
  releaseDemand := true
  pendingDemand := false
  cancelled := false
  cancelling := false
  aborted := false
  settled := false
  hashed := []
  bytesStreamed := 0
  digests := 0
  terminal := none
  outQueue := []
  outStatus := .readable
  received := []
  enqueued := []
  delivered := []
  drained := false

/-- What can happen next: to the body, by its consumer, or in the microtasks of the forwarder. -/
inductive ForwardEvent where
  | upstreamChunk (value : Bytes)
  | upstreamEof
  | upstreamError
  | abort
  | pull
  | deliver
  | deliverEnd
  | cancel
  | cancelSettled
  | pumpStep
deriving DecidableEq

section Steps

variable (sha256 : Bytes → Bytes)

/-- `settle`. -/
def ForwardState.settle (s : ForwardState) : ForwardState :=
  if s.settled then s
  else { s with
    settled := true
    digests := s.digests + 1
    terminal := some ⟨sha256 s.hashed, s.bytesStreamed⟩ }

/-- After `start`, without a body: the stream is closed and the facts are settled. -/
def ForwardState.startBodyless : ForwardState :=
  ForwardState.settle sha256 { ForwardState.start with
    upstream := ⟨[], .closed, 0⟩
    pump := .finished
    releaseDemand := false
    outStatus := .closing }

/-- The end of a read that waits. -/
def ForwardState.resolveRead (s : ForwardState) (result : ReadResult) : ForwardState :=
  if s.upstream.readRequests = 0 then s
  else { s with
    upstream := { s.upstream with readRequests := s.upstream.readRequests - 1 }
    pump := .read result }

/-- A chunk of the body arrives. -/
def ForwardState.upstreamChunk (s : ForwardState) (value : Bytes) : Option ForwardState :=
  if s.upstream.status = .readable then
    some (if s.upstream.readRequests = 0 then
      { s with
        received := s.received ++ [value]
        upstream := { s.upstream with queue := s.upstream.queue ++ [value] } }
    else ForwardState.resolveRead { s with received := s.received ++ [value] } (.chunk value))
  else none

/-- The body ends. -/
def ForwardState.upstreamEof (s : ForwardState) : Option ForwardState :=
  if s.upstream.status = .readable then
    some (if s.upstream.queue = [] then
      ForwardState.resolveRead { s with upstream := { s.upstream with status := .closed } } .done
    else { s with upstream := { s.upstream with status := .closing } })
  else none

/-- The body fails: what is not read is dropped. -/
def ForwardState.failBody (s : ForwardState) : ForwardState :=
  if s.upstream.status = .readable ∨ s.upstream.status = .closing then
    ForwardState.resolveRead
      { s with upstream := { s.upstream with queue := [], status := .errored } } .failed
  else s

/-- `upstreamReader.cancel`. -/
def ForwardState.cancelBody (s : ForwardState) : ForwardState :=
  if s.upstream.status = .readable ∨ s.upstream.status = .closing then
    ForwardState.resolveRead
      { s with upstream := { s.upstream with queue := [], status := .closed } } .done
  else s

/-- `signalDemand`. -/
def ForwardState.signalDemand (s : ForwardState) : ForwardState :=
  if s.releaseDemand then
    { s with
      releaseDemand := false
      pump := if s.pump = .waiting then .awake else s.pump }
  else { s with pendingDemand := true }

/-- The pump goes to `awaitDemand`. -/
def ForwardState.awaitDemand (s : ForwardState) : ForwardState :=
  if s.pendingDemand then { s with pendingDemand := false, pump := .awake }
  else { s with releaseDemand := true, pump := .waiting }

/-- The pump calls `reader.read()`. -/
def ForwardState.callRead (s : ForwardState) : ForwardState :=
  match s.upstream.queue with
  | value :: queue =>
    { s with
      upstream := { s.upstream with
        queue := queue
        status := if queue = [] ∧ s.upstream.status = .closing then .closed else s.upstream.status }
      pump := .read (.chunk value) }
  | [] =>
    match s.upstream.status with
    | .readable =>
      { s with
        upstream := { s.upstream with readRequests := s.upstream.readRequests + 1 }
        pump := .reading }
    | .errored => { s with pump := .read .failed }
    | _ => { s with pump := .read .done }

/-- The pump leaves its loop: `controller.close()` unless cancelled, and the `finally`. -/
def ForwardState.leaveLoop (s : ForwardState) : ForwardState :=
  ForwardState.settle sha256 { s with
    outStatus := if s.cancelled then s.outStatus else .closing
    pump := .finished }

/-- `controller.error`, which drops what is not delivered, and the `finally`. -/
def ForwardState.fail (s : ForwardState) : ForwardState :=
  ForwardState.settle sha256 { s with
    outQueue := if s.outStatus = .readable then [] else s.outQueue
    outStatus := if s.outStatus = .readable then .errored else s.outStatus
    pump := .finished }

/-- A chunk is counted, hashed and enqueued. -/
def ForwardState.enqueue (s : ForwardState) (value : Bytes) : ForwardState :=
  { s with
    bytesStreamed := s.bytesStreamed + value.length
    hashed := s.hashed ++ value
    outQueue := s.outQueue ++ [value]
    enqueued := s.enqueued ++ [value] }

/-- The next step of the pump, if it does not wait. -/
def ForwardState.pumpStep (s : ForwardState) : Option ForwardState :=
  match s.pump with
  | .waiting => if s.upstream.ended then some { s with pump := .awake } else none
  | .awake => some s.callRead
  | .reading => none
  | .read .done => some (s.leaveLoop sha256)
  | .read .failed => some (s.fail sha256)
  | .read (.chunk value) =>
    if s.cancelled || s.settled then some (s.leaveLoop sha256)
    else some (s.enqueue value).awaitDemand
  | .finished => none

/-- The consumer gets a chunk. -/
def ForwardState.deliver (s : ForwardState) : Option ForwardState :=
  match s.outQueue with
  | [] => none
  | value :: queue => some { s with outQueue := queue, delivered := s.delivered ++ [value] }

/-- The consumer reads the end of a stream that was closed. -/
def ForwardState.deliverEnd (s : ForwardState) : Option ForwardState :=
  if s.outQueue = [] ∧ s.outStatus = .closing then some { s with drained := true } else none

/-- The consumer cancels: the stream is closed, and the handler `cancel` runs up to its `await`. -/
def ForwardState.cancel (s : ForwardState) : Option ForwardState :=
  if s.outStatus = .readable ∨ s.outStatus = .closing ∧ s.outQueue ≠ [] then
    some (ForwardState.cancelBody { s with
      outQueue := []
      outStatus := .cancelled
      cancelled := true
      cancelling := true })
  else none

/-- The rest of the handler `cancel`. -/
def ForwardState.cancelSettled (s : ForwardState) : Option ForwardState :=
  if s.cancelling then some (ForwardState.settle sha256 { s with cancelling := false }) else none

/-- One event. -/
def ForwardState.step (s : ForwardState) : ForwardEvent → Option ForwardState
  | .upstreamChunk value => s.upstreamChunk value
  | .upstreamEof => s.upstreamEof
  | .upstreamError => some s.failBody
  | .abort => some { s.failBody with aborted := true }
  | .pull => some s.signalDemand
  | .deliver => s.deliver
  | .deliverEnd => s.deliverEnd
  | .cancel => s.cancel
  | .cancelSettled => s.cancelSettled sha256
  | .pumpStep => s.pumpStep sha256

/-- The forwarder under every order of events. -/
def forwardSystem : TransitionSystem ForwardState ForwardEvent where
  init s := s = ForwardState.start ∨ s = ForwardState.startBodyless sha256
  step s e s' := s.step sha256 e = some s'

end Steps

/-! ## The invariant -/

/-- The body and its reader: one read at a time, and nothing left of a body that has ended. -/
structure ForwardState.BodyOk (s : ForwardState) : Prop where
  reads : s.upstream.readRequests = if s.pump = .reading then 1 else 0
  reading : s.pump = .reading → s.upstream.status = .readable ∧ s.upstream.queue = []
  ended : s.upstream.ended = true → s.upstream.queue = []
  closing : s.upstream.status = .closing → s.upstream.queue ≠ []

/-- The hash, the terminal facts and the stream of the consumer. -/
structure ForwardState.Consistent (sha256 : Bytes → Bytes) (s : ForwardState) : Prop where
  hashed : s.hashed = s.enqueued.flatten
  bytes : s.bytesStreamed = s.hashed.length
  digests : s.digests = if s.settled then 1 else 0
  terminal : s.terminal = if s.settled then some ⟨sha256 s.hashed, s.bytesStreamed⟩ else none
  delivered : s.delivered ++ s.outQueue <+: s.enqueued
  kept : s.outStatus = .readable ∨ s.outStatus = .closing → s.delivered ++ s.outQueue = s.enqueued
  drained : s.drained = true →
    s.outQueue = [] ∧ s.delivered = s.enqueued ∧ s.outStatus = .closing
  finished : s.pump = .finished → s.settled = true ∧ s.outStatus ≠ .readable
  settled : s.settled = true → s.pump = .finished ∨ s.cancelled = true
  closing : s.outStatus = .closing ∨ s.outStatus = .errored → s.pump = .finished
  cancelled : s.outStatus = .cancelled ↔ s.cancelled = true
  cancelling : s.cancelling = true → s.cancelled = true

/-- The chunk that the pump has read and not enqueued. -/
def PumpPoint.held : PumpPoint → List Bytes
  | .read (.chunk value) => [value]
  | _ => []

/-- The chunks that have arrived and are not enqueued. -/
def ForwardState.pending (s : ForwardState) : List Bytes := s.pump.held ++ s.upstream.queue

/-- Chunks are enqueued in the order in which they arrive, and none is left out unless the body fails
or the consumer cancels. -/
structure ForwardState.InOrder (s : ForwardState) : Prop where
  arrived : s.enqueued ++ s.pending <+: s.received
  all : s.upstream.status ≠ .errored → s.cancelled = false → s.enqueued ++ s.pending = s.received

section Invariant

variable {sha256 : Bytes → Bytes} {s s' : ForwardState} {e : ForwardEvent}

/-- One event keeps the body in order. -/
lemma ForwardState.BodyOk.step (h : s.BodyOk) (hs : s.step sha256 e = some s') : s'.BodyOk := by
  obtain ⟨hreads, hreading, hended, hclosing⟩ := h
  cases e with
  | upstreamChunk value =>
    simp only [ForwardState.step, ForwardState.upstreamChunk, ForwardState.resolveRead] at hs
    grind -linarith [ForwardState.BodyOk, UpstreamBody.ended]
  | upstreamEof =>
    simp only [ForwardState.step, ForwardState.upstreamEof, ForwardState.resolveRead] at hs
    grind -linarith [ForwardState.BodyOk, UpstreamBody.ended]
  | upstreamError =>
    simp only [ForwardState.step, ForwardState.failBody, ForwardState.resolveRead] at hs
    grind -linarith [ForwardState.BodyOk, UpstreamBody.ended]
  | abort =>
    simp only [ForwardState.step, ForwardState.failBody, ForwardState.resolveRead] at hs
    grind -linarith [ForwardState.BodyOk, UpstreamBody.ended]
  | pull =>
    simp only [ForwardState.step, ForwardState.signalDemand] at hs
    grind -linarith [ForwardState.BodyOk, UpstreamBody.ended]
  | deliver =>
    simp only [ForwardState.step, ForwardState.deliver] at hs
    grind -linarith [ForwardState.BodyOk, UpstreamBody.ended]
  | deliverEnd =>
    simp only [ForwardState.step, ForwardState.deliverEnd] at hs
    grind -linarith [ForwardState.BodyOk, UpstreamBody.ended]
  | cancel =>
    simp only [ForwardState.step, ForwardState.cancel, ForwardState.cancelBody,
      ForwardState.resolveRead] at hs
    grind -linarith [ForwardState.BodyOk, UpstreamBody.ended]
  | cancelSettled =>
    simp only [ForwardState.step, ForwardState.cancelSettled, ForwardState.settle] at hs
    grind -linarith [ForwardState.BodyOk, UpstreamBody.ended]
  | pumpStep =>
    simp only [ForwardState.step, ForwardState.pumpStep, ForwardState.callRead,
      ForwardState.leaveLoop, ForwardState.fail, ForwardState.enqueue, ForwardState.awaitDemand,
      ForwardState.settle] at hs
    grind -linarith [ForwardState.BodyOk, UpstreamBody.ended]

/-- One event keeps the evidence in order. -/
lemma ForwardState.Consistent.step (hb : s.BodyOk) (h : s.Consistent sha256)
    (hs : s.step sha256 e = some s') : s'.Consistent sha256 := by
  obtain ⟨hhashed, hbytes, hdigests, hterminal, hdelivered, hkept, hdrained, hfinished, hsettled,
    hclosing, hcancelled, hcancelling⟩ := h
  cases e with
  | upstreamChunk value =>
    simp only [ForwardState.step, ForwardState.upstreamChunk, ForwardState.resolveRead] at hs
    grind -linarith [ForwardState.Consistent, ForwardState.BodyOk]
  | upstreamEof =>
    simp only [ForwardState.step, ForwardState.upstreamEof, ForwardState.resolveRead] at hs
    grind -linarith [ForwardState.Consistent, ForwardState.BodyOk]
  | upstreamError =>
    simp only [ForwardState.step, ForwardState.failBody, ForwardState.resolveRead] at hs
    grind -linarith [ForwardState.Consistent, ForwardState.BodyOk]
  | abort =>
    simp only [ForwardState.step, ForwardState.failBody, ForwardState.resolveRead] at hs
    grind -linarith [ForwardState.Consistent, ForwardState.BodyOk]
  | pull =>
    simp only [ForwardState.step, ForwardState.signalDemand] at hs
    grind -linarith [ForwardState.Consistent, ForwardState.BodyOk]
  | deliver =>
    have hassoc : ∀ (value : Bytes) queue, s.outQueue = value :: queue →
        s.delivered ++ [value] ++ queue = s.delivered ++ s.outQueue := by
      intro value queue hq
      rw [hq, List.append_assoc, List.singleton_append]
    simp only [ForwardState.step, ForwardState.deliver] at hs
    grind -linarith [ForwardState.Consistent, ForwardState.BodyOk]
  | deliverEnd =>
    simp only [ForwardState.step, ForwardState.deliverEnd] at hs
    grind -linarith [ForwardState.Consistent, ForwardState.BodyOk]
  | cancel =>
    simp only [ForwardState.step, ForwardState.cancel, ForwardState.cancelBody,
      ForwardState.resolveRead] at hs
    grind -linarith [ForwardState.Consistent, ForwardState.BodyOk]
  | cancelSettled =>
    simp only [ForwardState.step, ForwardState.cancelSettled, ForwardState.settle] at hs
    grind -linarith [ForwardState.Consistent, ForwardState.BodyOk]
  | pumpStep =>
    have hopen : s.pump ≠ .finished → s.cancelled = false →
        s.delivered ++ s.outQueue = s.enqueued := by
      intro hp hc
      cases hst : s.outStatus <;> simp_all
    have hflat : ∀ value, (s.enqueued ++ [value]).flatten = s.enqueued.flatten ++ value := by
      simp
    simp only [ForwardState.step, ForwardState.pumpStep, ForwardState.callRead,
      ForwardState.leaveLoop, ForwardState.fail, ForwardState.enqueue, ForwardState.awaitDemand,
      ForwardState.settle] at hs
    grind -linarith [ForwardState.Consistent, ForwardState.BodyOk]

/-! ## The end of the body -/

/-- What ends the body: a read that found the end, a cancel, an abort. -/
structure ForwardState.Ending (s : ForwardState) : Prop where
  read : s.pump = .read .done ∨ s.pump = .read .failed → s.upstream.ended = true
  cancelled : s.cancelled = true → s.upstream.ended = true
  aborted : s.aborted = true → s.upstream.ended = true

/-- The consumer is told of the end of a body that was closed, not of one that failed. -/
structure ForwardState.EndOfClosed (s : ForwardState) : Prop where
  done : s.pump = .read .done → s.upstream.status = .closed
  closing : s.outStatus = .closing → s.upstream.status = .closed

/-- How many steps the pump takes at most once the body has ended. -/
def PumpPoint.rank : PumpPoint → ℕ
  | .reading => 5
  | .read (.chunk _) => 4
  | .waiting => 3
  | .awake => 2
  | .read _ => 1
  | .finished => 0

/-- The pump is never more than five steps away. -/
lemma PumpPoint.rank_le (p : PumpPoint) : p.rank ≤ 5 := by
  cases p with
  | read result => cases result <;> simp [PumpPoint.rank]
  | _ => simp [PumpPoint.rank]

/-- The end of a read leaves the body as it is. -/
lemma ForwardState.resolveRead_ended (s : ForwardState) (r : ReadResult) :
    (s.resolveRead r).upstream.ended = s.upstream.ended := by
  unfold ForwardState.resolveRead
  split <;> rfl

/-- After an error the body has ended. -/
lemma ForwardState.failBody_ended (s : ForwardState) : s.failBody.upstream.ended = true := by
  unfold ForwardState.failBody
  split
  · rw [ForwardState.resolveRead_ended]
    rfl
  · cases hst : s.upstream.status <;> simp_all [UpstreamBody.ended]

/-- After a cancel the body has ended. -/
lemma ForwardState.cancelBody_ended (s : ForwardState) : s.cancelBody.upstream.ended = true := by
  unfold ForwardState.cancelBody
  split
  · rw [ForwardState.resolveRead_ended]
    rfl
  · cases hst : s.upstream.status <;> simp_all [UpstreamBody.ended]

/-- A body that has ended stays ended. -/
lemma ForwardState.ended_step (hs : s.step sha256 e = some s') (h : s.upstream.ended = true) :
    s'.upstream.ended = true := by
  cases e with
  | upstreamChunk value =>
    simp only [ForwardState.step, ForwardState.upstreamChunk] at hs
    grind -linarith [UpstreamBody.ended]
  | upstreamEof =>
    simp only [ForwardState.step, ForwardState.upstreamEof] at hs
    grind -linarith [UpstreamBody.ended]
  | upstreamError =>
    obtain rfl := Option.some.inj hs
    exact s.failBody_ended
  | abort =>
    obtain rfl := Option.some.inj hs
    exact s.failBody_ended
  | pull =>
    simp only [ForwardState.step, ForwardState.signalDemand] at hs
    grind -linarith
  | deliver =>
    simp only [ForwardState.step, ForwardState.deliver] at hs
    grind -linarith
  | deliverEnd =>
    simp only [ForwardState.step, ForwardState.deliverEnd] at hs
    grind -linarith
  | cancel =>
    simp only [ForwardState.step, ForwardState.cancel] at hs
    split at hs
    · obtain rfl := Option.some.inj hs
      exact ForwardState.cancelBody_ended _
    · cases hs
  | cancelSettled =>
    simp only [ForwardState.step, ForwardState.cancelSettled, ForwardState.settle] at hs
    grind -linarith
  | pumpStep =>
    simp only [ForwardState.step, ForwardState.pumpStep, ForwardState.callRead,
      ForwardState.leaveLoop, ForwardState.fail, ForwardState.enqueue, ForwardState.awaitDemand,
      ForwardState.settle] at hs
    grind -linarith [UpstreamBody.ended]

/-- One event keeps track of what has ended the body. -/
lemma ForwardState.Ending.step (hb : s.BodyOk) (h : s.Ending) (hs : s.step sha256 e = some s') :
    s'.Ending := by
  have hstay := fun hend => ForwardState.ended_step hs hend
  obtain ⟨hread, hcancelled, haborted⟩ := h
  cases e with
  | upstreamChunk value =>
    simp only [ForwardState.step, ForwardState.upstreamChunk, ForwardState.resolveRead] at hs
    grind -linarith [ForwardState.Ending, UpstreamBody.ended]
  | upstreamEof =>
    simp only [ForwardState.step, ForwardState.upstreamEof, ForwardState.resolveRead] at hs
    grind -linarith [ForwardState.Ending, UpstreamBody.ended]
  | upstreamError =>
    obtain rfl := Option.some.inj hs
    have hend := s.failBody_ended
    exact ⟨fun _ => hend, fun _ => hend, fun _ => hend⟩
  | abort =>
    obtain rfl := Option.some.inj hs
    have hend := s.failBody_ended
    exact ⟨fun _ => hend, fun _ => hend, fun _ => hend⟩
  | pull =>
    simp only [ForwardState.step, ForwardState.signalDemand] at hs
    grind -linarith [ForwardState.Ending]
  | deliver =>
    simp only [ForwardState.step, ForwardState.deliver] at hs
    grind -linarith [ForwardState.Ending]
  | deliverEnd =>
    simp only [ForwardState.step, ForwardState.deliverEnd] at hs
    grind -linarith [ForwardState.Ending]
  | cancel =>
    simp only [ForwardState.step, ForwardState.cancel] at hs
    split at hs
    · obtain rfl := Option.some.inj hs
      have hend := ForwardState.cancelBody_ended { s with
        outQueue := [], outStatus := .cancelled, cancelled := true, cancelling := true }
      exact ⟨fun _ => hend, fun _ => hend, fun _ => hend⟩
    · cases hs
  | cancelSettled =>
    simp only [ForwardState.step, ForwardState.cancelSettled, ForwardState.settle] at hs
    grind -linarith [ForwardState.Ending]
  | pumpStep =>
    obtain ⟨hreads, hreading, hended, hclosing⟩ := hb
    simp only [ForwardState.step, ForwardState.pumpStep] at hs
    split at hs
    · grind -linarith [ForwardState.Ending]
    · cases hq : s.upstream.queue with
      | nil =>
        cases hst : s.upstream.status <;>
          grind -linarith [ForwardState.Ending, UpstreamBody.ended, ForwardState.callRead]
      | cons value queue => grind -linarith [ForwardState.Ending, ForwardState.callRead]
    · cases hs
    · grind -linarith [ForwardState.Ending, ForwardState.leaveLoop, ForwardState.settle]
    · grind -linarith [ForwardState.Ending, ForwardState.fail, ForwardState.settle]
    · grind -linarith [ForwardState.Ending, ForwardState.leaveLoop, ForwardState.settle,
        ForwardState.enqueue, ForwardState.awaitDemand]
    · cases hs

/-- A closed body stays closed. -/
lemma ForwardState.closed_step (hb : s.BodyOk) (hs : s.step sha256 e = some s')
    (h : s.upstream.status = .closed) : s'.upstream.status = .closed := by
  have hq : s.upstream.queue = [] := hb.ended (by simp [UpstreamBody.ended, h])
  cases e <;>
    simp only [ForwardState.step, ForwardState.upstreamChunk, ForwardState.upstreamEof,
      ForwardState.failBody, ForwardState.signalDemand, ForwardState.deliver,
      ForwardState.deliverEnd, ForwardState.cancel, ForwardState.cancelBody,
      ForwardState.cancelSettled, ForwardState.pumpStep, ForwardState.callRead,
      ForwardState.leaveLoop, ForwardState.fail, ForwardState.enqueue, ForwardState.awaitDemand,
      ForwardState.settle] at hs <;>
    grind -linarith

/-- A call of `read` that finds the end finds a closed body. -/
lemma ForwardState.callRead_done (hb : s.BodyOk) (h : s.callRead.pump = .read .done) :
    s.callRead.upstream.status = .closed := by
  have hclosing := hb.closing
  cases hq : s.upstream.queue with
  | nil => cases hst : s.upstream.status <;> simp_all [ForwardState.callRead]
  | cons value queue => simp [ForwardState.callRead, hq] at h

/-- A read that finds the end finds a closed body. -/
lemma ForwardState.done_step (hb : s.BodyOk) (h : s.EndOfClosed) (hs : s.step sha256 e = some s')
    (hdone : s'.pump = .read .done) : s'.upstream.status = .closed := by
  by_cases hp : s.pump = .read .done
  · exact ForwardState.closed_step hb hs (h.done hp)
  by_cases he : e = .pumpStep
  · subst he
    have hcall := ForwardState.callRead_done hb
    simp only [ForwardState.step, ForwardState.pumpStep, ForwardState.leaveLoop,
      ForwardState.fail, ForwardState.enqueue, ForwardState.awaitDemand,
      ForwardState.settle] at hs
    grind -linarith
  · cases e <;>
      simp only [ForwardState.step, ForwardState.upstreamChunk, ForwardState.resolveRead,
        ForwardState.upstreamEof, ForwardState.failBody, ForwardState.signalDemand,
        ForwardState.deliver, ForwardState.deliverEnd, ForwardState.cancel,
        ForwardState.cancelBody, ForwardState.cancelSettled, ForwardState.settle] at hs <;>
      grind -linarith

/-- The consumer's stream is closed once the body is. -/
lemma ForwardState.closing_step (hb : s.BodyOk) (hc : s.Consistent sha256) (h : s.EndOfClosed)
    (hs : s.step sha256 e = some s') (hout : s'.outStatus = .closing) :
    s'.upstream.status = .closed := by
  by_cases ho : s.outStatus = .closing
  · exact ForwardState.closed_step hb hs (h.closing ho)
  have hset := hc.settled
  have hdone := h.done
  cases e <;>
    simp only [ForwardState.step, ForwardState.upstreamChunk, ForwardState.resolveRead,
      ForwardState.upstreamEof, ForwardState.failBody, ForwardState.signalDemand,
      ForwardState.deliver, ForwardState.deliverEnd, ForwardState.cancel, ForwardState.cancelBody,
      ForwardState.cancelSettled, ForwardState.pumpStep, ForwardState.callRead,
      ForwardState.leaveLoop, ForwardState.fail, ForwardState.enqueue, ForwardState.awaitDemand,
      ForwardState.settle] at hs <;>
    grind -linarith

/-- Once the body has ended no event moves the pump away from its end, and each step of the pump
brings it nearer. -/
lemma ForwardState.rank_step (hb : s.BodyOk) (h : s.upstream.ended = true)
    (hs : s.step sha256 e = some s') :
    s'.pump.rank + (if e = .pumpStep then 1 else 0) ≤ s.pump.rank := by
  obtain ⟨hreads, hreading, hended, hclosing⟩ := hb
  by_cases he : e = .pumpStep
  · subst he
    simp only [ForwardState.step, ForwardState.pumpStep, ForwardState.callRead,
      ForwardState.leaveLoop, ForwardState.fail, ForwardState.enqueue, ForwardState.awaitDemand,
      ForwardState.settle] at hs
    grind -linarith [UpstreamBody.ended, PumpPoint.rank]
  · -- no read waits for a body that has ended, so the others leave the pump or wake it
    have hnone : s.upstream.readRequests = 0 := by grind -linarith [UpstreamBody.ended]
    cases e <;>
      simp only [ForwardState.step, ForwardState.upstreamChunk, ForwardState.resolveRead,
        ForwardState.upstreamEof, ForwardState.failBody, ForwardState.signalDemand,
        ForwardState.deliver, ForwardState.deliverEnd, ForwardState.cancel,
        ForwardState.cancelBody, ForwardState.cancelSettled, ForwardState.settle] at hs <;>
      grind -linarith [PumpPoint.rank]

/-- Until the facts are settled the pump of a body that has ended can go on. -/
lemma ForwardState.exists_pumpStep (hb : s.BodyOk) (hc : s.Consistent sha256)
    (h : s.upstream.ended = true) (hopen : s.settled = false) :
    ∃ s', s.step sha256 .pumpStep = some s' := by
  rw [← Option.isSome_iff_exists]
  obtain ⟨_, hreading, _, _⟩ := hb
  have hfinished := fun hp => (hc.finished hp).1
  simp only [ForwardState.step, ForwardState.pumpStep]
  split
  · rw [if_pos h, Option.isSome_some]
  · rfl
  · rename_i hp
    rw [UpstreamBody.ended, (hreading hp).1] at h
    cases h
  · rfl
  · rfl
  · split <;> rfl
  · rename_i hp
    rw [hfinished hp] at hopen
    cases hopen

/-- Once the facts are settled no event changes them, the hash or what was enqueued. -/
lemma ForwardState.Consistent.settled_step (h : s.Consistent sha256)
    (hs : s.step sha256 e = some s') (hset : s.settled = true) :
    s'.settled = true ∧ s'.terminal = s.terminal ∧ s'.digests = s.digests ∧
      s'.hashed = s.hashed ∧ s'.enqueued = s.enqueued := by
  have hdone := h.settled hset
  cases e <;>
    simp only [ForwardState.step, ForwardState.upstreamChunk, ForwardState.resolveRead,
      ForwardState.upstreamEof, ForwardState.failBody, ForwardState.signalDemand,
      ForwardState.deliver, ForwardState.deliverEnd, ForwardState.cancel, ForwardState.cancelBody,
      ForwardState.cancelSettled, ForwardState.pumpStep, ForwardState.callRead,
      ForwardState.leaveLoop, ForwardState.fail, ForwardState.enqueue, ForwardState.awaitDemand,
      ForwardState.settle] at hs <;>
    grind -linarith

/-! ## The runs of the forwarder -/

/-- The invariants of the forwarder. -/
structure ForwardState.Ok (sha256 : Bytes → Bytes) (s : ForwardState) : Prop where
  body : s.BodyOk
  consistent : s.Consistent sha256
  ending : s.Ending
  endOfClosed : s.EndOfClosed
  inOrder : s.InOrder

/-- The invariants hold when there is a body. -/
lemma ForwardState.start_ok : start.Ok sha256 := by
  refine ⟨?_, ?_, ?_, ?_, ?_⟩ <;> constructor <;>
    simp [ForwardState.start, UpstreamBody.ended, ForwardState.pending,
      PumpPoint.held]

/-- The invariants hold when there is no body. -/
lemma ForwardState.startBodyless_ok : (startBodyless sha256).Ok sha256 := by
  refine ⟨?_, ?_, ?_, ?_, ?_⟩ <;> constructor <;>
    simp [ForwardState.startBodyless, ForwardState.start, ForwardState.settle, UpstreamBody.ended,
      ForwardState.pending, PumpPoint.held]

/-- One event keeps the order of the chunks. -/
lemma ForwardState.InOrder.step (ho : s.InOrder) (h : s.Ok sha256)
    (hs : s.step sha256 e = some s') : s'.InOrder := by
  obtain ⟨harrived, hall⟩ := ho
  obtain ⟨hreads, hreading, hended, hclosing⟩ := h.body
  have hcancelled := h.ending.cancelled
  have hsettled := h.consistent.settled
  have hshort : s.enqueued ++ s.pump.held <+: s.received := by
    refine List.IsPrefix.trans ?_ harrived
    rw [ForwardState.pending, ← List.append_assoc]
    exact List.prefix_append _ _
  have hleast : s.enqueued <+: s.received := (List.prefix_append _ _).trans hshort
  simp only [ForwardState.pending] at harrived hall
  cases e with
  | upstreamChunk value =>
    simp only [ForwardState.step, ForwardState.upstreamChunk, ForwardState.resolveRead] at hs
    grind -linarith [ForwardState.InOrder, ForwardState.pending, PumpPoint.held, UpstreamBody.ended]
  | upstreamEof =>
    simp only [ForwardState.step, ForwardState.upstreamEof, ForwardState.resolveRead] at hs
    grind -linarith [ForwardState.InOrder, ForwardState.pending, PumpPoint.held]
  | upstreamError =>
    simp only [ForwardState.step, ForwardState.failBody, ForwardState.resolveRead] at hs
    grind -linarith [ForwardState.InOrder, ForwardState.pending, PumpPoint.held]
  | abort =>
    simp only [ForwardState.step, ForwardState.failBody, ForwardState.resolveRead] at hs
    grind -linarith [ForwardState.InOrder, ForwardState.pending, PumpPoint.held]
  | pull =>
    simp only [ForwardState.step, ForwardState.signalDemand] at hs
    grind -linarith [ForwardState.InOrder, ForwardState.pending, PumpPoint.held]
  | deliver =>
    simp only [ForwardState.step, ForwardState.deliver] at hs
    grind -linarith [ForwardState.InOrder, ForwardState.pending, PumpPoint.held]
  | deliverEnd =>
    simp only [ForwardState.step, ForwardState.deliverEnd] at hs
    grind -linarith [ForwardState.InOrder, ForwardState.pending, PumpPoint.held]
  | cancel =>
    simp only [ForwardState.step, ForwardState.cancel, ForwardState.cancelBody,
      ForwardState.resolveRead] at hs
    grind -linarith [ForwardState.InOrder, ForwardState.pending, PumpPoint.held]
  | cancelSettled =>
    simp only [ForwardState.step, ForwardState.cancelSettled, ForwardState.settle] at hs
    grind -linarith [ForwardState.InOrder, ForwardState.pending, PumpPoint.held]
  | pumpStep =>
    simp only [ForwardState.step, ForwardState.pumpStep] at hs
    split at hs
    · grind -linarith [ForwardState.InOrder, ForwardState.pending, PumpPoint.held]
    · cases hq : s.upstream.queue with
      | nil =>
        cases hst : s.upstream.status <;>
          grind -linarith [ForwardState.InOrder, ForwardState.pending, PumpPoint.held,
            ForwardState.callRead]
      | cons value queue =>
        grind -linarith [ForwardState.InOrder, ForwardState.pending, PumpPoint.held, ForwardState.callRead]
    · cases hs
    · grind -linarith [ForwardState.InOrder, ForwardState.pending, PumpPoint.held, ForwardState.leaveLoop,
        ForwardState.settle]
    · grind -linarith [ForwardState.InOrder, ForwardState.pending, PumpPoint.held, ForwardState.fail,
        ForwardState.settle]
    · grind -linarith [ForwardState.InOrder, ForwardState.pending, PumpPoint.held, ForwardState.leaveLoop,
        ForwardState.settle, ForwardState.enqueue, ForwardState.awaitDemand]
    · cases hs

/-- One event keeps the invariants. -/
lemma ForwardState.Ok.step (h : s.Ok sha256) (hs : s.step sha256 e = some s') : s'.Ok sha256 where
  body := h.body.step hs
  consistent := h.consistent.step h.body hs
  ending := h.ending.step h.body hs
  endOfClosed :=
    ⟨ForwardState.done_step h.body h.endOfClosed hs,
      ForwardState.closing_step h.body h.consistent h.endOfClosed hs⟩
  inOrder := h.inOrder.step h hs

/-- The forwarder keeps its invariants. -/
theorem forwardSystem_ok (hs : (forwardSystem sha256).Reachable s) : s.Ok sha256 := by
  refine TransitionSystem.Reachable.invariant (I := fun s => s.Ok sha256) ?_ ?_ hs
  · rintro s (rfl | rfl)
    · exact ForwardState.start_ok
    · exact ForwardState.startBodyless_ok
  · intro s e s' _ h hstep
    exact h.step hstep

/-- What a run counts: the steps of the pump. -/
def pumpSteps (es : List ForwardEvent) : ℕ := es.countP (· = .pumpStep)

/-- **Settlement.** Once the body has ended, a run in which the pump takes five steps settles the
facts. -/
theorem settled_of_pumpSteps {es : List ForwardEvent} (hs : (forwardSystem sha256).Reachable s)
    (hr : (forwardSystem sha256).Run s es s') (h : s.upstream.ended = true)
    (hn : s.pump.rank ≤ pumpSteps es) : s'.settled = true := by
  induction hr with
  | nil s =>
    have h0 : s.pump.rank = 0 := by simpa [pumpSteps] using hn
    refine ((forwardSystem_ok hs).consistent.finished ?_).1
    cases hp : s.pump with
    | read result => cases result <;> simp [hp, PumpPoint.rank] at h0
    | finished => rfl
    | _ => simp [hp, PumpPoint.rank] at h0
  | @cons s t s' e es hstep hr ih =>
    refine ih (hs.step hstep) (ForwardState.ended_step hstep h) ?_
    have hrank := ForwardState.rank_step (forwardSystem_ok hs).body h hstep
    simp only [pumpSteps, List.countP_cons, decide_eq_true_eq] at hn ⊢
    omega

/-! ## The evidence -/

/-- What the terminal facts say, and what the consumer has. -/
structure ForwardState.EvidenceExact (sha256 : Bytes → Bytes) (s : ForwardState) : Prop where
  oneRead : s.upstream.readRequests ≤ 1
  oneDigest : s.digests = if s.settled then 1 else 0
  unsettled : s.settled = false → s.terminal = none
  settled : s.settled = true →
    s.terminal = some ⟨sha256 s.enqueued.flatten, s.enqueued.flatten.length⟩
  hashed : s.hashed = s.enqueued.flatten
  arrivalOrder : s.enqueued <+: s.received
  delivered : s.delivered.flatten <+: s.hashed
  drained : s.drained = true → s.delivered.flatten = s.hashed ∧ s.delivered = s.received

/-- The evidence is exact in every reachable state. -/
theorem ForwardState.Ok.evidenceExact (h : s.Ok sha256) : s.EvidenceExact sha256 where
  oneRead := by
    rw [h.body.reads]
    split <;> decide
  oneDigest := h.consistent.digests
  unsettled hset := by rw [h.consistent.terminal, hset, if_neg (by decide)]
  settled hset := by
    rw [h.consistent.terminal, hset, if_pos rfl, h.consistent.bytes, h.consistent.hashed]
  hashed := h.consistent.hashed
  arrivalOrder := (List.prefix_append _ _).trans h.inOrder.arrived
  delivered := by
    obtain ⟨rest, hrest⟩ := (List.prefix_append _ _).trans h.consistent.delivered
    rw [h.consistent.hashed, ← hrest, List.flatten_append]
    exact List.prefix_append _ _
  drained hdrained := by
    obtain ⟨-, hall, hclosing⟩ := h.consistent.drained hdrained
    have hclosed := h.endOfClosed.closing hclosing
    have hopen : s.cancelled = false := by
      rw [← Bool.not_eq_true, ← h.consistent.cancelled, hclosing]
      decide
    have hqueue : s.upstream.queue = [] := h.body.ended (by simp [UpstreamBody.ended, hclosed])
    have hpump := h.consistent.closing (.inl hclosing)
    have hreceived : s.enqueued = s.received := by
      simpa [ForwardState.pending, hpump, hqueue, PumpPoint.held] using
        h.inOrder.all (by simp [hclosed]) hopen
    exact ⟨by rw [hall, h.consistent.hashed], hall.trans hreceived⟩

/-- The facts are settled after a few steps of the pump, and until then the pump does not wait. -/
def ForwardState.Settles (sha256 : Bytes → Bytes) (s : ForwardState) : Prop :=
  ∀ es s', (forwardSystem sha256).Run s es s' →
    (s'.settled = false → ∃ s'', s'.step sha256 .pumpStep = some s'') ∧
      (5 ≤ pumpSteps es → s'.settled = true)

/-- A body that has ended settles the facts. -/
theorem settles_of_ended (hs : (forwardSystem sha256).Reachable s)
    (h : s.upstream.ended = true) : s.Settles sha256 := by
  intro es s' hr
  have hok := forwardSystem_ok (hs.run hr)
  have hend : s'.upstream.ended = true :=
    hr.stable (P := fun s => s.upstream.ended = true)
      (fun s e s' _ hend hstep => ForwardState.ended_step hstep hend) hs h
  refine ⟨ForwardState.exists_pumpStep hok.body hok.consistent hend, fun hn => ?_⟩
  exact settled_of_pumpSteps hs hr h (s.pump.rank_le.trans hn)

/-- Once the facts are settled no run changes them, the hash or what was enqueued. -/
theorem settled_run {es : List ForwardEvent} (hs : (forwardSystem sha256).Reachable s)
    (hr : (forwardSystem sha256).Run s es s') (hset : s.settled = true) :
    s'.settled = true ∧ s'.terminal = s.terminal ∧ s'.digests = s.digests ∧
      s'.hashed = s.hashed ∧ s'.enqueued = s.enqueued := by
  refine hr.stable (P := fun t => t.settled = true ∧ t.terminal = s.terminal ∧
    t.digests = s.digests ∧ t.hashed = s.hashed ∧ t.enqueued = s.enqueued) ?_ hs
    ⟨hset, rfl, rfl, rfl, rfl⟩
  rintro t e t' ht ⟨hset, hterminal, hdigests, hhashed, henqueued⟩ hstep
  obtain ⟨hset', hterminal', hdigests', hhashed', henqueued'⟩ :=
    (forwardSystem_ok ht).consistent.settled_step hstep hset
  exact ⟨hset', hterminal'.trans hterminal, hdigests'.trans hdigests, hhashed'.trans hhashed,
    henqueued'.trans henqueued⟩

end Invariant

end GovAI
