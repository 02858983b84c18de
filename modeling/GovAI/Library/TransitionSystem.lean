import Mathlib.Logic.Relation
import Mathlib.Data.Set.Basic

/-!
# Transition systems

The vocabulary shared by all the models of this development: a labelled transition system, its
reachable states, its runs, and the two induction rules by which every safety result is proved.
A *step lemma* says what one labelled step preserves; `Reachable.invariant` turns it into a
statement about every reachable state, and `Run.stable` turns it into a statement about every
continuation of a state.
-/

namespace GovAI

/-- A labelled transition system over states `σ` and labels `α`. -/
structure TransitionSystem (σ α : Type*) where
  /-- The states a run may start in. -/
  init : σ → Prop
  /-- `step s a s'`: the label `a` takes `s` to `s'`. -/
  step : σ → α → σ → Prop

namespace TransitionSystem

variable {σ α : Type*} (M : TransitionSystem σ α)

/-! ## Reachable states -/

/-- The states reached from an initial one by finitely many steps. -/
inductive Reachable : σ → Prop
  | init {s : σ} (hs : M.init s) : Reachable s
  | step {s s' : σ} {a : α} (hs : Reachable s) (h : M.step s a s') : Reachable s'

variable {M}

/-- `Reachable.step` with the label as an explicit argument, for concrete runs. -/
theorem Reachable.next {s s' : σ} (hs : M.Reachable s) (a : α) (h : M.step s a s') :
    M.Reachable s' :=
  hs.step h

/-- The invariant rule: what holds initially and is preserved by every step from a reachable
state holds of every reachable state. -/
theorem Reachable.invariant {I : σ → Prop} (hinit : ∀ s, M.init s → I s)
    (hstep : ∀ s a s', M.Reachable s → I s → M.step s a s' → I s') {s : σ}
    (hs : M.Reachable s) : I s := by
  induction hs with
  | init h => exact hinit _ h
  | step hs h ih => exact hstep _ _ _ hs ih h

variable (M)

/-! ## Runs -/

/-- `M.Run s as s'`: the labels `as`, in this order, take `s` to `s'`. -/
inductive Run : σ → List α → σ → Prop
  | nil (s : σ) : Run s [] s
  | cons {s s' s'' : σ} {a : α} {as : List α} (h : M.step s a s') (hr : Run s' as s'') :
      Run s (a :: as) s''

variable {M}

/-- A single step is a run. -/
theorem Run.single {s s' : σ} {a : α} (h : M.step s a s') : M.Run s [a] s' :=
  .cons h (.nil _)

/-- Runs compose. -/
theorem Run.append {s s' s'' : σ} {as bs : List α} (h₁ : M.Run s as s') (h₂ : M.Run s' bs s'') :
    M.Run s (as ++ bs) s'' := by
  induction h₁ with
  | nil => exact h₂
  | cons h _ ih => exact .cons h (ih h₂)

/-- A step function that is computed gives a run. -/
theorem Run.of_foldlM {f : σ → α → Option σ} (hf : ∀ s a s', f s a = some s' → M.step s a s')
    {s s' : σ} {as : List α} (h : as.foldlM f s = some s') : M.Run s as s' := by
  induction as generalizing s with
  | nil =>
    obtain rfl := Option.some.inj h
    exact .nil s
  | cons a as ih =>
    rw [List.foldlM_cons, Option.bind_eq_bind, Option.bind_eq_some_iff] at h
    obtain ⟨s₁, hstep, hrest⟩ := h
    exact .cons (hf _ _ _ hstep) (ih hrest)

/-- A run from a reachable state ends in a reachable state. -/
theorem Reachable.run {s s' : σ} {as : List α} (hs : M.Reachable s) (hr : M.Run s as s') :
    M.Reachable s' := by
  induction hr with
  | nil => exact hs
  | cons h _ ih => exact ih (hs.step h)

/-- The stability rule: a property preserved by every step from a reachable state, once true,
stays true along every run. -/
theorem Run.stable {P : σ → Prop}
    (hstep : ∀ s a s', M.Reachable s → P s → M.step s a s' → P s') {s s' : σ} {as : List α}
    (hs : M.Reachable s) (hr : M.Run s as s') (hP : P s) : P s' := by
  induction hr with
  | nil => exact hP
  | cons h _ ih => exact ih (hs.step h) (hstep _ _ _ hs hP h)

/-- A relation that is reflexive, transitive and contains every step from a reachable state
relates the two ends of every run. -/
theorem Run.relates {R : σ → σ → Prop} (hrefl : ∀ s, R s s)
    (htrans : ∀ s₁ s₂ s₃, R s₁ s₂ → R s₂ s₃ → R s₁ s₃)
    (hstep : ∀ s a s', M.Reachable s → M.step s a s' → R s s') {s s' : σ} {as : List α}
    (hs : M.Reachable s) (hr : M.Run s as s') : R s s' := by
  induction hr with
  | nil => exact hrefl _
  | cons h _ ih => exact htrans _ _ _ (hstep _ _ _ hs h) (ih (hs.step h))

/-! ## Restricting the labels -/

variable (M)

/-- The same system with only the steps that satisfy a side condition on the state before the
step and on its label. -/
def restrict (C : σ → α → Prop) : TransitionSystem σ α where
  init := M.init
  step s a s' := C s a ∧ M.step s a s'

variable {M}

/-- A reachable state of a restriction is a reachable state of the whole system. -/
theorem Reachable.of_restrict {C : σ → α → Prop} {s : σ} (hs : (M.restrict C).Reachable s) :
    M.Reachable s := by
  induction hs with
  | init h => exact .init h
  | step _ h ih => exact ih.step h.2

/-- A run of a restriction is a run of the whole system. -/
theorem Run.of_restrict {C : σ → α → Prop} {s s' : σ} {as : List α}
    (hr : (M.restrict C).Run s as s') : M.Run s as s' := by
  induction hr with
  | nil => exact .nil _
  | cons h _ ih => exact .cons h.2 ih

/-- Every reachable state is one of the restriction that leaves nothing out. -/
theorem Reachable.restrict_true {s : σ} (hs : M.Reachable s) :
    (M.restrict fun _ _ => True).Reachable s := by
  induction hs with
  | init h => exact .init h
  | step _ h ih => exact ih.step ⟨trivial, h⟩

end TransitionSystem

end GovAI
