import GovAI.Library.Fallible

/-!
# Programs that read a changing database statement by statement

Under READ COMMITTED a transaction that only reads sees, at each of its statements, the rows that
are committed at that moment, so that its answers may come from different states.  A `ReadProgram`
keeps the statements apart; `eval` runs all of them on one state.  A program is `Frozen` at a state
if every statement it still has to run answers the same in all later states: then its statements may
be spread over any later states and the result is still that of one atomic run
(`Frozen.later`, `Frozen.next`).  A program `Ensures` a property if its result has it whatever later
states its statements run on.
-/

namespace GovAI

/-- A program that reads states `D` one statement at a time and ends with a result or an error. -/
inductive ReadProgram (D ε α : Type) where
  | done (r : Except ε α)
  | stmt (next : D → ReadProgram D ε α)

namespace ReadProgram

variable {D ε α β : Type}

/-- Run `f` after the program, unless it ends with an error. -/
def bind : ReadProgram D ε α → (α → ReadProgram D ε β) → ReadProgram D ε β
  | done (.ok a), f => f a
  | done (.error e), _ => done (.error e)
  | stmt next, f => stmt fun d => (next d).bind f

instance : Monad (ReadProgram D ε) where
  pure a := done (.ok a)
  bind := bind

/-- One statement. -/
def read (f : D → α) : ReadProgram D ε α := stmt fun d => done (.ok (f d))

/-- End with an error. -/
def fail (e : ε) : ReadProgram D ε α := done (.error e)

/-- End with an error if `p` holds. -/
def failIf (p : Prop) [Decidable p] (e : ε) : ReadProgram D ε Unit := if p then fail e else pure ()

/-- All statements on one state. -/
def eval : ReadProgram D ε α → D → Except ε α
  | done r, _ => r
  | stmt next, d => (next d).eval d

@[simp] lemma eval_done (r : Except ε α) (d : D) : (done r).eval d = r := rfl

@[simp] lemma eval_stmt (next : D → ReadProgram D ε α) (d : D) :
    (stmt next).eval d = (next d).eval d := rfl

@[simp] lemma eval_pure (a : α) (d : D) : (pure a : ReadProgram D ε α).eval d = .ok a := rfl

@[simp] lemma eval_read (f : D → α) (d : D) : (read f : ReadProgram D ε α).eval d = .ok (f d) := rfl

@[simp] lemma eval_fail (e : ε) (d : D) : (fail e : ReadProgram D ε α).eval d = .error e := rfl

@[simp] lemma eval_failIf (p : Prop) [Decidable p] (e : ε) (d : D) :
    (failIf p e : ReadProgram D ε Unit).eval d = rejectIf p e := by
  unfold failIf rejectIf
  split <;> rfl

/-- A sequence evaluates in sequence. -/
@[simp] lemma eval_bind (p : ReadProgram D ε α) (f : α → ReadProgram D ε β) (d : D) :
    (p >>= f).eval d = p.eval d >>= fun a => (f a).eval d := by
  change (p.bind f).eval d = _
  induction p with
  | done r => cases r <;> rfl
  | stmt next ih => exact ih d

lemma bind_assoc {γ : Type} (p : ReadProgram D ε α) (f : α → ReadProgram D ε β)
    (g : β → ReadProgram D ε γ) : (p >>= f) >>= g = p >>= fun a => f a >>= g := by
  change (p.bind f).bind g = p.bind fun a => (f a).bind g
  induction p with
  | done r => cases r <;> rfl
  | stmt next ih => exact congrArg stmt (funext ih)

/-! ## Frozen programs -/

/-- Along the run of the program on `d`, every statement answers in all later states what it answers
on `d`. -/
def Frozen (R : D → D → Prop) (d : D) : ReadProgram D ε α → Prop
  | done _ => True
  | stmt next => (∀ d', R d d' → next d' = next d) ∧ (next d).Frozen R d

variable {R : D → D → Prop} {d d' : D}

lemma Frozen.pure (a : α) : Frozen R d (pure a : ReadProgram D ε α) := trivial

lemma Frozen.fail (e : ε) : Frozen R d (fail e : ReadProgram D ε α) := trivial

lemma Frozen.failIf (p : Prop) [Decidable p] (e : ε) :
    Frozen R d (failIf p e : ReadProgram D ε Unit) := by
  unfold ReadProgram.failIf
  split <;> trivial

/-- A statement with a settled answer is frozen. -/
lemma Frozen.read {f : D → α} (h : ∀ d', R d d' → f d' = f d) :
    Frozen R d (read f : ReadProgram D ε α) :=
  ⟨fun d' hd => congrArg (fun a => done (.ok a)) (h d' hd), trivial⟩

/-- A statement is frozen if what follows it does not tell its later answers from the present one. -/
lemma Frozen.read_bind {f : D → α} {k : α → ReadProgram D ε β}
    (h : ∀ d', R d d' → k (f d') = k (f d)) (hk : Frozen R d (k (f d))) :
    Frozen R d (ReadProgram.read f >>= k) :=
  ⟨h, hk⟩

/-- A sequence is frozen if its parts are. -/
lemma Frozen.bind {p : ReadProgram D ε α} {f : α → ReadProgram D ε β} (hp : Frozen R d p)
    (hf : ∀ a, p.eval d = .ok a → Frozen R d (f a)) : Frozen R d (p >>= f) := by
  change Frozen R d (p.bind f)
  induction p with
  | done r =>
    cases r with
    | ok a => exact hf a rfl
    | error e => trivial
  | stmt next ih =>
    obtain ⟨hnext, hrest⟩ := hp
    refine ⟨fun d' hd => ?_, ih d hrest hf⟩
    change (next d').bind f = (next d).bind f
    rw [hnext d' hd]

/-- A frozen program keeps its result in every later state, and stays frozen. -/
lemma Frozen.later (htrans : ∀ d₁ d₂ d₃, R d₁ d₂ → R d₂ d₃ → R d₁ d₃) {p : ReadProgram D ε α}
    (hp : Frozen R d p) (hd : R d d') : Frozen R d' p ∧ p.eval d' = p.eval d := by
  induction p with
  | done r => exact ⟨trivial, rfl⟩
  | stmt next ih =>
    obtain ⟨hnext, hrest⟩ := hp
    obtain ⟨hfrozen, heval⟩ := ih d hrest
    have hsame := hnext d' hd
    refine ⟨⟨fun d'' hd' => ?_, hsame ▸ hfrozen⟩, ?_⟩
    · rw [hnext d'' (htrans _ _ _ hd hd'), hsame]
    · rw [eval_stmt, eval_stmt, hsame, heval]

/-- After one statement a frozen program is still frozen, with the same result. -/
lemma Frozen.next {next : D → ReadProgram D ε α} (h : Frozen R d (stmt next)) :
    Frozen R d (next d) ∧ (next d).eval d = (stmt next).eval d :=
  ⟨h.2, rfl⟩

/-! ## What a program ensures -/

/-- Whatever states from `d` on the statements of the program run on, in the state of the last one
`Q` holds of the result. -/
def Ensures (R : D → D → Prop) (Q : D → Except ε α → Prop) : D → ReadProgram D ε α → Prop
  | d, done r => Q d r
  | d, stmt next => ∀ d', R d d' → (next d').Ensures R Q d'

variable {Q : D → Except ε α → Prop}

/-- What a program ensures it ensures in all later states, if this holds of the property. -/
lemma Ensures.later (htrans : ∀ d₁ d₂ d₃, R d₁ d₂ → R d₂ d₃ → R d₁ d₃)
    (hQ : ∀ d d' r, R d d' → Q d r → Q d' r) {p : ReadProgram D ε α} (hp : Ensures R Q d p)
    (hd : R d d') : Ensures R Q d' p := by
  cases p with
  | done r => exact hQ d d' r hd hp
  | stmt next => exact fun d'' hd' => hp d'' (htrans _ _ _ hd hd')

/-- After one statement a program still ensures what it did. -/
lemma Ensures.next {next : D → ReadProgram D ε α} (h : Ensures R Q d (stmt next)) (hd : R d d') :
    Ensures R Q d' (next d') :=
  h d' hd

lemma Ensures.mono {Q' : D → Except ε α → Prop} {p : ReadProgram D ε α} (hp : Ensures R Q d p)
    (hQ : ∀ d r, Q d r → Q' d r) : Ensures R Q' d p := by
  induction p generalizing d with
  | done r => exact hQ d r hp
  | stmt next ih => exact fun d' hd => ih d' (hp d' hd)

lemma Ensures.pure {a : α} (h : Q d (.ok a)) : Ensures R Q d (pure a : ReadProgram D ε α) := h

lemma Ensures.fail {e : ε} (h : Q d (.error e)) : Ensures R Q d (fail e : ReadProgram D ε α) := h

/-- A statement ensures what holds of its answer in every later state. -/
lemma Ensures.read {f : D → α} (h : ∀ d', R d d' → Q d' (.ok (f d'))) :
    Ensures R Q d (read f : ReadProgram D ε α) :=
  h

/-- A sequence ensures what its second part ensures after the first. -/
lemma Ensures.bind {Q : D → Except ε β → Prop} {p : ReadProgram D ε α} {f : α → ReadProgram D ε β}
    (hp : Ensures R (fun d r => match r with
      | .ok a => Ensures R Q d (f a)
      | .error e => Q d (.error e)) d p) : Ensures R Q d (p >>= f) := by
  change Ensures R Q d (p.bind f)
  induction p generalizing d with
  | done r => cases r <;> exact hp
  | stmt next ih => exact fun d' hd => ih d' (hp d' hd)

/-- A program ensures what holds in all later states of every result. -/
lemma Ensures.of_always (htrans : ∀ d₁ d₂ d₃, R d₁ d₂ → R d₂ d₃ → R d₁ d₃) (hrefl : R d d)
    (h : ∀ d' r, R d d' → Q d' r) {p : ReadProgram D ε α} : Ensures R Q d p := by
  suffices hp : ∀ d', R d d' → Ensures R Q d' p from hp d hrefl
  induction p with
  | done r => exact fun d' hd => h d' r hd
  | stmt next ih => exact fun d' hd d'' hd' => ih d'' d'' (htrans _ _ _ hd hd')

/-- A frozen program ensures its result. -/
lemma Frozen.ensures (htrans : ∀ d₁ d₂ d₃, R d₁ d₂ → R d₂ d₃ → R d₁ d₃)
    (hQ : ∀ d d' r, R d d' → Q d r → Q d' r) {p : ReadProgram D ε α} (hp : Frozen R d p)
    (h : Q d (p.eval d)) : Ensures R Q d p := by
  induction p with
  | done r => exact h
  | stmt next ih =>
    intro d' hd
    rw [hp.1 d' hd]
    exact (ih d hp.2 h).later htrans hQ hd

end ReadProgram

end GovAI
