import GovAI.Console.RunTurn

/-!
# What a turn may claim

The accumulators fold the frames of a stream as their surface reads them.  A `Reading` says so of one
frame: an invariant for the state after the frames so far, and a relation between the states with and
without the frames of the reasoning.  From it follows the law of the console for every body, however it
is cut into chunks and wherever it ends (`Reading.streamLaw`).
-/

namespace GovAI.Console

variable {number : List Char → Option JsonNumber}

/-! ## One frame -/

/-- An accumulator reads the frames as its surface does. -/
structure Reading (number : List Char → Option JsonNumber) (surface : SurfaceId)
    (A : StreamAccumulator) where
  /-- The state after frames without a terminal one. -/
  Inv : List SseFrame → A.State → Prop
  /-- The states after frames, with and without those of the reasoning. -/
  Rel : List SseFrame → A.State → A.State → Prop
  inv_init : Inv [] A.init
  rel_init : Rel [] A.init A.init
  init_text : (A.snapshot A.init).text = []
  live : ∀ {pre st}, Inv pre st → (A.snapshot st).terminal = none
  frozen : ∀ st f, (A.snapshot st).terminal.isSome = true → A.accept st f = st
  flag : ∀ st f, (A.snapshot st).unsupportedOutput = true →
    (A.snapshot (A.accept st f)).unsupportedOutput = true
  stop : ∀ {pre st f s}, Inv pre st → terminalState number surface f = some s →
    ∃ t, (A.snapshot (A.accept st f)).terminal = some t ∧ turnState (some t) false = s ∧
      (A.snapshot (A.accept st f)).text = (A.snapshot st).text
  inv_step : ∀ {pre st f}, Inv pre st → terminalState number surface f = none →
    Inv (pre ++ [f]) (A.accept st f)
  text_step : ∀ {pre st f}, Inv pre st → terminalState number surface f = none →
    (surface = .messages → Placed number pre f) →
      (A.snapshot (A.accept st f)).text = (A.snapshot st).text ++ shown number surface pre f
  flag_step : ∀ {pre st f}, Inv pre st → surface = .messages → IsTextDelta number f →
    Placed number pre f → ¬OfTextBlock number pre f →
      (A.snapshot (A.accept st f)).unsupportedOutput = true
  rel_snapshot : ∀ {pre st st'}, Rel pre st st' → A.snapshot st = A.snapshot st'
  rel_skip : ∀ {pre st st' f}, Rel pre st st' → Inv pre st → isReasoning number surface f = true →
    Rel (pre ++ [f]) (A.accept st f) st'
  rel_step : ∀ {pre st st' f}, Rel pre st st' → Inv pre st → isReasoning number surface f = false →
    (surface = .messages → Placed number pre f) → Rel (pre ++ [f]) (A.accept st f) (A.accept st' f)
  not_terminal : ∀ {f}, isReasoning number surface f = true → terminalState number surface f = none
  placed : ∀ {pre f s}, terminalState number surface f = some s → surface = .messages →
    Placed number pre f

namespace Reading

variable {surface : SurfaceId} {A : StreamAccumulator}

/-! ## Runs -/

/-- After a terminal frame the state stays. -/
lemma foldl_frozen (R : Reading number surface A) {st : A.State}
    (h : (A.snapshot st).terminal.isSome = true) (frames : List SseFrame) :
    frames.foldl A.accept st = st := by
  induction frames with
  | nil => rfl
  | cons f rest ih => rw [List.foldl_cons, R.frozen st f h, ih]

/-- What was flagged stays flagged. -/
lemma foldl_flag (R : Reading number surface A) {st : A.State}
    (h : (A.snapshot st).unsupportedOutput = true) (frames : List SseFrame) :
    (A.snapshot (frames.foldl A.accept st)).unsupportedOutput = true := by
  induction frames generalizing st with
  | nil => exact h
  | cons f rest ih => exact ih (R.flag st f h)

/-- The invariant after frames without a terminal one. -/
lemma inv_foldl (R : Reading number surface A) {pre : List SseFrame} {st : A.State}
    (hInv : R.Inv pre st) {frames : List SseFrame}
    (hlive : ∀ f ∈ frames, terminalState number surface f = none) :
    R.Inv (pre ++ frames) (frames.foldl A.accept st) := by
  induction frames generalizing pre st with
  | nil => simpa using hInv
  | cons f rest ih =>
    obtain ⟨hf, hrest⟩ := List.forall_mem_cons.mp hlive
    have hassoc : pre ++ f :: rest = pre ++ [f] ++ rest := by simp
    rw [hassoc, List.foldl_cons]
    exact ih (R.inv_step hInv hf) hrest

/-- The text after frames without a terminal one. -/
lemma text_foldl (R : Reading number surface A) {pre : List SseFrame} {st : A.State}
    (hInv : R.Inv pre st) {frames : List SseFrame}
    (hlive : ∀ f ∈ frames, terminalState number surface f = none)
    (hplaced : surface = .messages → AllPlaced number pre frames) :
    (A.snapshot (frames.foldl A.accept st)).text =
      (A.snapshot st).text ++ shownFrom number surface pre frames := by
  induction frames generalizing pre st with
  | nil => simp [shownFrom]
  | cons f rest ih =>
    obtain ⟨hf, hrest⟩ := List.forall_mem_cons.mp hlive
    rw [List.foldl_cons, ih (R.inv_step hInv hf) hrest fun h => (hplaced h).2,
      R.text_step hInv hf fun h => (hplaced h).1, shownFrom, List.append_assoc]

/-- The run over the first terminal frame. -/
lemma foldl_settled (R : Reading number surface A) {pre : List SseFrame} {f : SseFrame}
    {s : TurnState} (hpre : ∀ g ∈ pre, terminalState number surface g = none)
    (hf : terminalState number surface f = some s) (post : List SseFrame) :
    (pre ++ f :: post).foldl A.accept A.init = A.accept (pre.foldl A.accept A.init) f ∧
      ∃ t, (A.snapshot (A.accept (pre.foldl A.accept A.init) f)).terminal = some t ∧
        turnState (some t) false = s ∧
        (A.snapshot (A.accept (pre.foldl A.accept A.init) f)).text =
          (A.snapshot (pre.foldl A.accept A.init)).text := by
  have hInv := R.inv_foldl R.inv_init hpre
  obtain ⟨t, ht, hstop⟩ := R.stop hInv hf
  refine ⟨?_, t, ht, hstop⟩
  rw [List.foldl_append, List.foldl_cons, R.foldl_frozen]
  rw [ht]
  rfl

/-- A text delta that is not of a text block flags the rest of the run. -/
lemma foldl_flagged (R : Reading number surface A) (hsurface : surface = .messages)
    {pre before after : List SseFrame} {f : SseFrame} {st : A.State} (hInv : R.Inv pre st)
    (hlive : ∀ g ∈ before, terminalState number surface g = none)
    (hplaced : AllPlaced number pre (before ++ f :: after)) (hdelta : IsTextDelta number f)
    (hnot : ¬OfTextBlock number (pre ++ before) f) :
    (A.snapshot ((before ++ f :: after).foldl A.accept st)).unsupportedOutput = true := by
  induction before generalizing pre st with
  | nil =>
    rw [List.append_nil] at hnot
    exact R.foldl_flag (R.flag_step hInv hsurface hdelta hplaced.1 hnot) after
  | cons g before ih =>
    obtain ⟨hg, hbefore⟩ := List.forall_mem_cons.mp hlive
    refine @ih (pre ++ [g]) _ (R.inv_step hInv hg) hbefore hplaced.2 ?_
    simpa using hnot

/-- The runs with and without the frames of the reasoning. -/
lemma foldl_withoutReasoning (R : Reading number surface A) {pre : List SseFrame} {st st' : A.State}
    (hrel : R.Rel pre st st') (hInv : R.Inv pre st) {frames : List SseFrame}
    (hplaced : surface = .messages → AllPlaced number pre (beforeTerminal number surface frames)) :
    A.snapshot (frames.foldl A.accept st) =
      A.snapshot ((withoutReasoning number surface frames).foldl A.accept st') := by
  induction frames generalizing pre st st' with
  | nil => exact R.rel_snapshot hrel
  | cons f rest ih =>
    rw [List.foldl_cons]
    cases hterminal : terminalState number surface f with
    | none =>
      have hInv' := R.inv_step hInv hterminal
      have hbefore : beforeTerminal number surface (f :: rest) =
          f :: beforeTerminal number surface rest := by
        simp [beforeTerminal, hterminal]
      rw [hbefore] at hplaced
      cases hreasoning : isReasoning number surface f with
      | true =>
        have hskip : withoutReasoning number surface (f :: rest) =
            withoutReasoning number surface rest := by simp [withoutReasoning, hreasoning]
        rw [hskip]
        exact ih (R.rel_skip hrel hInv hreasoning) hInv' fun h => (hplaced h).2
      | false =>
        have hkeep : withoutReasoning number surface (f :: rest) =
            f :: withoutReasoning number surface rest := by simp [withoutReasoning, hreasoning]
        rw [hkeep, List.foldl_cons]
        exact ih (R.rel_step hrel hInv hreasoning fun h => (hplaced h).1) hInv' fun h => (hplaced h).2
    | some s =>
      have hreasoning : isReasoning number surface f = false := by
        rw [← Bool.not_eq_true]
        intro h
        rw [R.not_terminal h] at hterminal
        cases hterminal
      have hkeep : withoutReasoning number surface (f :: rest) =
          f :: withoutReasoning number surface rest := by simp [withoutReasoning, hreasoning]
      have hstep := R.rel_step hrel hInv hreasoning (R.placed hterminal)
      obtain ⟨t, ht, -⟩ := R.stop hInv hterminal
      have hfrozen : (A.snapshot (A.accept st f)).terminal.isSome = true := by
        rw [ht]
        rfl
      rw [hkeep, List.foldl_cons, R.foldl_frozen hfrozen]
      rw [R.rel_snapshot hstep] at hfrozen ⊢
      rw [R.foldl_frozen hfrozen]

/-! ## The law -/

/-- A stream ends live or with its first terminal frame. -/
lemma beforeTerminal_cases (number : List Char → Option JsonNumber) (surface : SurfaceId)
    (frames : List SseFrame) :
    (∀ f ∈ beforeTerminal number surface frames, terminalState number surface f = none) ∧
      (beforeTerminal number surface frames = frames ∨
        ∃ f post s, frames = beforeTerminal number surface frames ++ f :: post ∧
          terminalState number surface f = some s) := by
  induction frames with
  | nil => exact ⟨List.forall_mem_nil _, .inl rfl⟩
  | cons f rest ih =>
    cases hterminal : terminalState number surface f with
    | none =>
      have hbefore : beforeTerminal number surface (f :: rest) =
          f :: beforeTerminal number surface rest := by simp [beforeTerminal, hterminal]
      rw [hbefore]
      refine ⟨List.forall_mem_cons.mpr ⟨hterminal, ih.1⟩, ih.2.imp (congrArg (f :: ·)) ?_⟩
      rintro ⟨g, post, s, heq, hg⟩
      exact ⟨g, post, s, congrArg (f :: ·) heq, hg⟩
    | some s =>
      have hbefore : beforeTerminal number surface (f :: rest) = [] := by
        simp [beforeTerminal, hterminal]
      rw [hbefore]
      exact ⟨List.forall_mem_nil _, .inr ⟨f, rest, s, rfl, hterminal⟩⟩

end Reading

section Law

variable {surface : SurfaceId} {body : SseBody}

/-- The result of a turn from the frames that were dispatched. -/
lemma runTurn_eq (number : List Char → Option JsonNumber) (surface : SurfaceId) (body : SseBody) :
    runTurn number surface body = turnResult ((createAccumulator number surface).snapshot
      ((framesOf number surface body).foldl (createAccumulator number surface).accept
        (createAccumulator number surface).init)) body.abortedAfter := by
  rw [runTurn, pumpSse_eq_foldl, framesOf]

/-- With a terminal marker the signal does not matter. -/
lemma turnResult_congr {snapshot : AccumulatorSnapshot} (h : snapshot.terminal.isSome = true)
    (aborted aborted' : Bool) : turnResult snapshot aborted = turnResult snapshot aborted' := by
  obtain ⟨t, ht⟩ := Option.isSome_iff_exists.mp h
  unfold turnResult turnState
  rw [ht]
  cases t <;> rfl

/-- A terminal marker decides the state. -/
lemma turnState_some (t : StreamTerminal) (aborted : Bool) :
    turnState (some t) aborted = turnState (some t) false := by
  cases t <;> rfl

/-- A marker confirms the turn. -/
lemma turnState_confirmed_iff (terminal : Option StreamTerminal) (aborted : Bool) :
    turnState terminal aborted = .completed ∨ turnState terminal aborted = .providerError ↔
      terminal.isSome = true := by
  rcases terminal with _ | (_ | _)
  · cases aborted <;> decide
  · exact iff_of_true (.inl rfl) rfl
  · exact iff_of_true (.inr rfl) rfl

variable (R : Reading number surface (createAccumulator number surface))

include R

/-- The turn after the first terminal frame. -/
lemma Reading.runTurn_settled {pre post : List SseFrame} {f : SseFrame} {s : TurnState}
    (heq : framesOf number surface body = pre ++ f :: post)
    (hpre : ∀ g ∈ pre, terminalState number surface g = none)
    (hf : terminalState number surface f = some s) :
    runTurn number surface body = turnResult ((createAccumulator number surface).snapshot
        ((createAccumulator number surface).accept
          (pre.foldl (createAccumulator number surface).accept
            (createAccumulator number surface).init) f)) false ∧
      (runTurn number surface body).state = s := by
  obtain ⟨hfold, t, ht, hstate, -⟩ := R.foldl_settled hpre hf post
  have hresult := runTurn_eq number surface body
  rw [heq, hfold] at hresult
  refine ⟨hresult.trans (turnResult_congr (by rw [ht]; rfl) _ _), ?_⟩
  rw [hresult]
  show turnState _ _ = _
  rw [ht, turnState_some, hstate]

/-- The turn after frames without a terminal one. -/
lemma Reading.runTurn_live
    (hlive : ∀ f ∈ framesOf number surface body, terminalState number surface f = none) :
    (runTurn number surface body).state = if body.abortedAfter then .stopped else .unknownOutcome := by
  rw [runTurn_eq]
  show turnState _ _ = _
  rw [R.live (R.inv_foldl R.inv_init hlive)]
  rfl

/-- The text of the turn. -/
lemma Reading.text_eq (hplaced : StreamPlaced number surface body) :
    (runTurn number surface body).text =
      shownFrom number surface [] (beforeTerminal number surface (framesOf number surface body)) := by
  obtain ⟨hlive, hcases⟩ :=
    Reading.beforeTerminal_cases number surface (framesOf number surface body)
  have htext := R.text_foldl R.inv_init hlive hplaced
  rw [R.init_text, List.nil_append] at htext
  rw [runTurn_eq, ← htext]
  show AccumulatorSnapshot.text _ = _
  rcases hcases with hall | ⟨f, post, s, heq, hf⟩
  · rw [hall]
  · obtain ⟨hfold, t, -, -, hsame⟩ := R.foldl_settled hlive hf post
    rw [← hsame]
    conv_lhs => rw [heq, hfold]

/-- A text delta that is not of a text block is unsupported output. -/
lemma Reading.flagged (hplaced : StreamPlaced number surface body) (hsurface : surface = .messages)
    {pre post : List SseFrame} {f : SseFrame}
    (heq : beforeTerminal number surface (framesOf number surface body) = pre ++ f :: post)
    (hdelta : IsTextDelta number f) (hnot : ¬OfTextBlock number pre f) :
    (runTurn number surface body).unsupportedOutput = true := by
  obtain ⟨hlive, hcases⟩ :=
    Reading.beforeTerminal_cases number surface (framesOf number surface body)
  have hall := hplaced hsurface
  rw [heq] at hall hlive
  rw [runTurn_eq]
  show AccumulatorSnapshot.unsupportedOutput _ = true
  have hflag := R.foldl_flagged hsurface R.inv_init
    (fun g hg => hlive g (List.mem_append_left _ hg)) hall hdelta hnot
  rcases hcases with hsame | ⟨f', post', s, hsplit, -⟩
  · rwa [← hsame, heq]
  · rw [hsplit, List.foldl_append, heq]
    exact R.foldl_flag hflag _

/-- **A reading gives the law.** -/
theorem Reading.streamLaw (hplaced : StreamPlaced number surface body) :
    StreamLaw number surface body := by
  obtain ⟨hlive, hcases⟩ :=
    Reading.beforeTerminal_cases number surface (framesOf number surface body)
  have hconfirmed : (∀ f ∈ framesOf number surface body, terminalState number surface f = none) ∨
      ∃ pre f post s, framesOf number surface body = pre ++ f :: post ∧
        (∀ g ∈ pre, terminalState number surface g = none) ∧
        terminalState number surface f = some s := by
    rcases hcases with hall | ⟨f, post, s, heq, hf⟩
    · rw [hall] at hlive
      exact .inl hlive
    · exact .inr ⟨_, f, post, s, heq, hlive, hf⟩
  refine ⟨?_, ?_, R.runTurn_live, R.text_eq hplaced, fun hsurface pre f post heq hdelta hnot =>
    R.flagged hplaced hsurface heq hdelta hnot, ?_⟩
  · rcases hconfirmed with hnone | ⟨pre, f, post, s, heq, hpre, hf⟩
    · rw [R.runTurn_live hnone]
      refine iff_of_false (by cases body.abortedAfter <;> decide) ?_
      rintro ⟨f, hf, hsome⟩
      rw [hnone f hf] at hsome
      cases hsome
    · obtain ⟨hresult, -⟩ := R.runTurn_settled heq hpre hf
      obtain ⟨-, t, ht, -⟩ := R.foldl_settled hpre hf post
      rw [hresult]
      show turnState _ _ = _ ∨ turnState _ _ = _ ↔ _
      rw [turnState_confirmed_iff, ht]
      refine iff_of_true rfl ⟨f, ?_, by rw [hf]; rfl⟩
      rw [heq]
      exact List.mem_append_right _ List.mem_cons_self
  · intro pre f post s heq hpre hf
    obtain ⟨hresult, hstate⟩ := R.runTurn_settled heq hpre hf
    refine ⟨hstate, fun body' post' heq' => ?_⟩
    rw [hresult, (R.runTurn_settled heq' hpre hf).1]
  · intro body' hplaced' hsame haborted
    rw [runTurn_eq, runTurn_eq, haborted,
      R.foldl_withoutReasoning R.rel_init R.inv_init hplaced',
      R.foldl_withoutReasoning R.rel_init R.inv_init hplaced, hsame]

end Law

end GovAI.Console
