import GovAI.Library.Fallible
import Mathlib.Data.List.Basic

/-!
# Projections of runs

A run is a fallible fold of a step over a list of events.  Where the steps at some events act on a
part of the state alone and the others leave that part as it is, the part after the run is the fold
over those events (`foldlM_project`).
-/

namespace GovAI

universe u

variable {ε S T : Type u} {E : Type*}

/-- **The part of the state that some of the events act on is their fold.** -/
theorem foldlM_project {step : S → E → Except ε S} {f : S → T} {p : E → Bool}
    {g : T → E → Option T}
    (hstep : ∀ s e s', step s e = .ok s' →
      if p e then g (f s) e = some (f s') else f s' = f s)
    {events : List E} {s s' : S} (hrun : events.foldlM step s = .ok s') :
    (events.filter p).foldlM g (f s) = some (f s') := by
  induction events generalizing s with
  | nil =>
    cases hrun
    rfl
  | cons e events ih =>
    rw [List.foldlM_cons, except_bind_eq_ok_iff] at hrun
    obtain ⟨s₁, hs₁, hrest⟩ := hrun
    have hpart := hstep _ _ _ hs₁
    rw [List.filter_cons]
    split at hpart
    · next hp => rw [if_pos hp, List.foldlM_cons, hpart, Option.bind_eq_bind, Option.bind_some,
        ih hrest]
    · next hp => rw [if_neg hp, ← hpart, ih hrest]

/-- The same of an action that always succeeds. -/
theorem foldl_project {step : S → E → Except ε S} {f : S → T} {p : E → Bool} {g : T → E → T}
    (hstep : ∀ s e s', step s e = .ok s' →
      f s' = if p e then g (f s) e else f s)
    {events : List E} {s s' : S} (hrun : events.foldlM step s = .ok s') :
    f s' = (events.filter p).foldl g (f s) := by
  induction events generalizing s with
  | nil =>
    cases hrun
    rfl
  | cons e events ih =>
    rw [List.foldlM_cons, except_bind_eq_ok_iff] at hrun
    obtain ⟨s₁, hs₁, hrest⟩ := hrun
    rw [ih hrest, hstep _ _ _ hs₁, List.filter_cons]
    split <;> rfl

/-- A number that goes up by one at some of the events counts them. -/
theorem count_project {ε S : Type} {step : S → E → Except ε S} {f : S → ℕ} {p : E → Bool}
    (hstep : ∀ s e s', step s e = .ok s' → f s' = if p e then f s + 1 else f s)
    {events : List E} {s s' : S} (hrun : events.foldlM step s = .ok s') :
    f s' = f s + (events.filter p).length := by
  have hcount : ∀ (l : List E) (n : ℕ), l.foldl (fun n _ => n + 1) n = n + l.length := by
    intro l
    induction l with
    | nil => intro n; rfl
    | cons e l ih =>
      intro n
      rw [List.foldl_cons, ih, List.length_cons]
      omega
  have hfold := foldl_project (T := ℕ) (g := fun n _ => n + 1) hstep hrun
  rw [hfold, hcount]

/-- What every step preserves a run preserves. -/
theorem run_preserves {step : S → E → Except ε S} {P : S → Prop}
    (hstep : ∀ s e s', P s → step s e = .ok s' → P s') {events : List E} {s s' : S} (hs : P s)
    (hrun : events.foldlM step s = .ok s') : P s' := by
  induction events generalizing s with
  | nil =>
    cases hrun
    exact hs
  | cons e events ih =>
    rw [List.foldlM_cons, except_bind_eq_ok_iff] at hrun
    obtain ⟨s₁, hs₁, hrest⟩ := hrun
    exact ih (hstep _ _ _ hs hs₁) hrest

end GovAI
