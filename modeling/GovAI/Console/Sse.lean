import GovAI.Adapters.Entry

/-!
# Server-sent events of the console

`streaming/sse.ts`: `parseFrameJson`, `frameType` and `pumpSse`.  What the parser of the event stream
completes with a chunk of the body is data of the chunk, and so are the frames that it completes when
the decoder is flushed after the chunk.  `pumpSse` hands the frames to `onFrame`, whose state it
threads; `dispatched` is the list of the frames that it hands over.
-/

namespace GovAI.Console

/-! ## Frames -/

/-- `SseFrame`. -/
structure SseFrame where
  event : Option JsString
  data : List Char
deriving DecidableEq

/-- `parseFrameJson`: the payload of a frame, if it is an object. -/
def parseFrameJson (number : List Char → Option JsonNumber) (data : List Char) : Option JsonValue :=
  if jsTrim data = [] then none
  else (jsonParse number (jsTrim data)).filter JsonValue.isObject

/-- A text that is not empty. -/
def nonempty (s : Option JsString) : Option JsString := s.filter (· ≠ [])

/-- `frameType`: the type that the payload declares, or else the name of the event. -/
def frameType (frame : SseFrame) (payload : Option JsonValue) : Option JsString :=
  (nonempty (payload.bind (·.textAt "type"))).or (nonempty frame.event)

/-! ## The body -/

/-- A chunk of the body. -/
structure SseChunk where
  /-- The frames that the parser completes with the chunk. -/
  frames : List SseFrame
  /-- The frames that it completes if the decoder is flushed after the chunk. -/
  tail : List SseFrame := []
  /-- The parser terminates itself on the chunk. -/
  overflow : Bool := false
  /-- `signal.aborted` after the chunk. -/
  aborted : Bool := false

/-- How the body ends after its chunks. -/
inductive BodyEnd where
  | done
  | fault

/-- A body and its signal. -/
structure SseBody where
  /-- `signal.aborted` before the first chunk. -/
  abortedBefore : Bool := false
  chunks : List SseChunk
  finish : BodyEnd := .done
  /-- `signal.aborted` when the turn is classified. -/
  abortedAfter : Bool := false

section Pump

variable {σ : Type} (onFrame : σ → SseFrame → σ) (stopWhen : σ → Bool)

/-- The loop of `pumpSse`; `pending` are the frames that a flush would complete. -/
def pumpChunks (finish : BodyEnd) : σ → List SseFrame → List SseChunk → σ
  | st, pending, [] =>
    match finish with
    | .done => pending.foldl onFrame st
    | .fault => st
  | st, _, c :: rest =>
    if c.overflow then c.frames.foldl onFrame st
    else if c.aborted then c.tail.foldl onFrame (c.frames.foldl onFrame st)
    else if stopWhen (c.frames.foldl onFrame st) then c.frames.foldl onFrame st
    else pumpChunks finish (c.frames.foldl onFrame st) c.tail rest

/-- `pumpSse`. -/
def pumpSse (st : σ) (body : SseBody) : σ :=
  if body.abortedBefore then st else pumpChunks onFrame stopWhen body.finish st [] body.chunks

/-- The frames that `pumpSse` hands to `onFrame`. -/
def dispatched (st : σ) (body : SseBody) : List SseFrame :=
  (pumpSse (fun s f => (onFrame s.1 f, s.2 ++ [f])) (fun s => stopWhen s.1) (st, []) body).2

variable {onFrame stopWhen}

/-- A fold that records its list. -/
lemma foldl_recorded (st : σ) (fs frames : List SseFrame) :
    frames.foldl (fun s f => (onFrame s.1 f, s.2 ++ [f])) (st, fs) =
      (frames.foldl onFrame st, fs ++ frames) := by
  induction frames generalizing st fs with
  | nil => simp
  | cons f frames ih =>
    rw [List.foldl_cons, List.foldl_cons, ih]
    simp

/-- The loop folds what it records. -/
lemma pumpChunks_recorded (finish : BodyEnd) (chunks : List SseChunk) (st₀ st : σ)
    (fs pending : List SseFrame) (h : fs.foldl onFrame st₀ = st) :
    (pumpChunks onFrame stopWhen finish st pending chunks) =
      (pumpChunks (fun s f => (onFrame s.1 f, s.2 ++ [f])) (fun s => stopWhen s.1) finish (st, fs)
        pending chunks).2.foldl onFrame st₀ := by
  have hfold : ∀ frames : List SseFrame,
      (fs ++ frames).foldl onFrame st₀ = frames.foldl onFrame st := by
    intro frames
    rw [List.foldl_append, h]
  induction chunks generalizing st fs pending with
  | nil =>
    cases finish with
    | done => rw [pumpChunks, pumpChunks, foldl_recorded, hfold]
    | fault => rw [pumpChunks, pumpChunks, h]
  | cons c rest ih =>
    rw [pumpChunks, pumpChunks, foldl_recorded]
    split
    · rw [hfold]
    · split
      · rw [foldl_recorded, List.append_assoc, hfold, List.foldl_append]
      · split
        · rw [hfold]
        · refine ih _ _ _ (hfold c.frames) fun frames => ?_
          rw [List.foldl_append, hfold]

/-- **The state after the pump is the fold over the frames that it handed over.** -/
lemma pumpSse_eq_foldl (st : σ) (body : SseBody) :
    pumpSse onFrame stopWhen st body = (dispatched onFrame stopWhen st body).foldl onFrame st := by
  unfold dispatched pumpSse
  split
  · rfl
  · exact pumpChunks_recorded body.finish body.chunks st st [] [] rfl

end Pump

end GovAI.Console
