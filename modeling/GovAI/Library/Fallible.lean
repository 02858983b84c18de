import Mathlib.Data.List.Forall2
import Mathlib.Data.Option.Basic

/-!
# Fallible computations

Validators are sequences of checks in `Except`, each of which throws its own error.  `rejectIf` is
one check; the `simp` lemmas below turn "the whole sequence succeeded" into the conjunction of what
its checks demand.  `Yields E P` is the partial correctness of a fallible computation: its errors
satisfy `E` and its results `P`.
-/

namespace GovAI

universe u v

/-! ## Conditions on an optional value

They are decided at the value.  The instances are scoped and come before those that would try all values
of the type. -/

namespace OptionConditions

/-- A condition on the value, if there is one. -/
scoped instance (priority := 20000) decidableForallOption {α : Type} (o : Option α) (p : α → Prop)
    [DecidablePred p] : Decidable (∀ a ∈ o, p a) :=
  Option.decidableForallMem o

/-- The existence of a value with a property. -/
scoped instance (priority := 20000) decidableExistsOption {α : Type} (o : Option α) (p : α → Prop)
    [DecidablePred p] : Decidable (∃ a ∈ o, p a) :=
  Option.decidableExistsMem o

end OptionConditions

/-! ## Checks -/

variable {ε : Type u} {α β : Type v}

/-- Throw `e` if `p` holds. -/
def rejectIf (p : Prop) [Decidable p] (e : ε) : Except ε Unit := if p then .error e else .ok ()

/-- A check passes exactly when its condition fails. -/
@[simp] theorem rejectIf_eq_ok_iff {p : Prop} [Decidable p] {e : ε} {u : Unit} :
    rejectIf p e = .ok u ↔ ¬p := by
  unfold rejectIf
  split <;> simp_all

/-- A check whose condition fails passes. -/
theorem rejectIf_of_not {p : Prop} [Decidable p] {e : ε} (h : ¬p) : rejectIf p e = .ok () := if_neg h

/-- A sequence succeeds when its first part does and the rest does with its result. -/
@[simp] theorem except_bind_eq_ok_iff {x : Except ε α} {f : α → Except ε β} {b : β} :
    x >>= f = .ok b ↔ ∃ a, x = .ok a ∧ f a = .ok b := by
  cases x <;> simp [bind, Except.bind]

/-- The result of a successful `pure` is its argument. -/
@[simp] theorem except_pure_eq_ok_iff {a b : α} : (pure a : Except ε α) = .ok b ↔ a = b := by
  simp [pure, Except.pure]

/-- A mapped computation succeeds when the computation does. -/
@[simp] theorem except_map_eq_ok_iff {x : Except ε α} {f : α → β} {b : β} :
    x.map f = .ok b ↔ ∃ a, x = .ok a ∧ f a = b := by
  cases x <;> simp [Except.map]

/-- Renaming the error of a computation does not touch its results. -/
@[simp] lemma except_mapError_eq_ok_iff {ε' : Type u} {x : Except ε α} {f : ε → ε'} {a : α} :
    x.mapError f = .ok a ↔ x = .ok a := by
  cases x <;> simp [Except.mapError]

/-- What follows a result. -/
lemma except_ok_bind (a : α) (f : α → Except ε β) : (Except.ok a >>= f) = f a := rfl

/-- A computation has a result when it succeeds with it. -/
theorem except_toOption_eq_some_iff {x : Except ε α} {a : α} :
    x.toOption = some a ↔ x = .ok a := by
  cases x <;> simp [Except.toOption]

/-- The results of a list of calls that all succeed. -/
lemma except_mapM_mem {ε α β : Type} {f : α → Except ε β} {l : List α} {r : List β}
    (h : l.mapM f = .ok r) : ∀ b ∈ r, ∃ a ∈ l, f a = .ok b := by
  induction l generalizing r with
  | nil =>
    cases h
    exact fun _ => nofun
  | cons a l ih =>
    rw [List.mapM_cons] at h
    simp only [except_bind_eq_ok_iff, except_pure_eq_ok_iff] at h
    obtain ⟨b, hb, rest, hrest, rfl⟩ := h
    intro c hc
    rcases List.mem_cons.mp hc with rfl | hc
    · exact ⟨a, List.mem_cons_self .., hb⟩
    · obtain ⟨a', ha', hc'⟩ := ih hrest c hc
      exact ⟨a', List.mem_cons_of_mem _ ha', hc'⟩

/-- A list of calls succeeds when each of them succeeds with its result. -/
lemma except_mapM_eq_ok_iff {ε α β : Type} {f : α → Except ε β} {l : List α} {r : List β} :
    l.mapM f = .ok r ↔ List.Forall₂ (fun a b => f a = .ok b) l r := by
  induction l generalizing r with
  | nil => rw [List.mapM_nil, except_pure_eq_ok_iff, List.forall₂_nil_left_iff, eq_comm]
  | cons a l ih =>
    rw [List.mapM_cons, List.forall₂_cons_left_iff]
    simp only [except_bind_eq_ok_iff, except_pure_eq_ok_iff, ih]
    constructor
    · rintro ⟨b, hb, rest, hrest, rfl⟩
      exact ⟨b, rest, hb, hrest, rfl⟩
    · rintro ⟨b, rest, hb, hrest, rfl⟩
      exact ⟨b, hb, rest, hrest, rfl⟩

/-- A list of checks passes when each of them does. -/
lemma except_forM_eq_ok_iff {ε α : Type} {f : α → Except ε Unit} {l : List α} {u : Unit} :
    l.forM f = .ok u ↔ ∀ a ∈ l, f a = .ok () := by
  induction l with
  | nil => exact ⟨fun _ => List.forall_mem_nil _, fun _ => rfl⟩
  | cons a l ih =>
    change (f a >>= fun _ => l.forM f) = .ok u ↔ _
    rw [except_bind_eq_ok_iff, List.forall_mem_cons, ← ih]
    exact ⟨fun ⟨_, ha, hl⟩ => ⟨ha, hl⟩, fun ⟨ha, hl⟩ => ⟨(), ha, hl⟩⟩

/-- A list of calls succeeds if each of them does. -/
lemma exists_except_mapM {ε α β : Type} {f : α → Except ε β} {l : List α}
    (h : ∀ a ∈ l, ∃ b, f a = .ok b) : ∃ r, l.mapM f = .ok r := by
  induction l with
  | nil => exact ⟨[], rfl⟩
  | cons a l ih =>
    obtain ⟨b, hb⟩ := h a (List.mem_cons_self ..)
    obtain ⟨rest, hrest⟩ := ih fun a ha => h a (List.mem_cons_of_mem _ ha)
    exact ⟨b :: rest, by rw [List.mapM_cons, hb, hrest]; rfl⟩

/-! ## Errors and results -/

/-- The errors satisfy `E`, and the results `P`. -/
def Yields (E : ε → Prop) (P : α → Prop) : Except ε α → Prop
  | .ok a => P a
  | .error e => E e

variable {E : ε → Prop} {P : α → Prop} {Q : β → Prop}

lemma Yields.of_error {r : Except ε α} {e : ε} (h : Yields E P r) (hr : r = .error e) : E e := by
  subst hr
  exact h

lemma Yields.mono {P' : α → Prop} {r : Except ε α} (h : Yields E P r) (hP : ∀ a, P a → P' a) :
    Yields E P' r := by
  cases r with
  | error e => exact h
  | ok a => exact hP a h

lemma yields_rejectIf {p : Prop} [Decidable p] {e : ε} (he : E e) :
    Yields E (fun _ => ¬p) (rejectIf p e) := by
  unfold rejectIf
  split
  · exact he
  · next h => exact h

/-- The rule of sequencing. -/
lemma Yields.bind {x : Except ε α} {f : α → Except ε β} (hx : Yields E P x)
    (hf : ∀ a, P a → Yields E Q (f a)) : Yields E Q (x >>= f) := by
  cases x with
  | error e => exact hx
  | ok a => exact hf a hx

lemma Yields.map {x : Except ε α} {f : α → β} (hx : Yields E P x) (hf : ∀ a, P a → Q (f a)) :
    Yields E Q (x.map f) := by
  cases x with
  | error e => exact hx
  | ok a => exact hf a hx

/-- The rule of iteration. -/
lemma yields_mapM {ε α β : Type} {E : ε → Prop} {Q : β → Prop} {f : α → Except ε β} {l : List α}
    (h : ∀ a ∈ l, Yields E Q (f a)) : Yields E (fun r => ∀ b ∈ r, Q b) (l.mapM f) := by
  induction l with
  | nil => exact fun _ => nofun
  | cons a l ih =>
    rw [List.mapM_cons]
    refine (h a (List.mem_cons_self ..)).bind fun b hb => ?_
    refine (ih fun a ha => h a (List.mem_cons_of_mem _ ha)).bind fun rest hrest => ?_
    exact List.forall_mem_cons.mpr ⟨hb, hrest⟩

end GovAI
