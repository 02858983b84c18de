import GovAI.Library.TxProgram

/-!
# Programs that write nothing

The checks of a transaction read and lock, but do not write.  They may be skipped when it is asked what
the transaction leaves: only their answers matter.
-/

namespace GovAI

namespace TxProgram

variable {K : Type} {Val : K → Type} {ε α β : Type} [DecidableEq K]

/-- The program writes nothing. -/
def ReadsOnly (p : TxProgram Val ε α) : Prop :=
  ∀ ⦃H s ws b ws'⦄, Exec H s p ws b ws' → ws' = ws

lemma readsOnly_pure (a : α) : ReadsOnly (pure a : TxProgram Val ε α) := fun _ _ _ _ _ h => h.2

lemma readsOnly_read (f : Store Val → α) : ReadsOnly (read f : TxProgram Val ε α) :=
  fun _ _ _ b _ h => ((exec_read f b).mp h).2

lemma readsOnly_failIf (p : Prop) [Decidable p] (e : ε) :
    ReadsOnly (failIf p e : TxProgram Val ε Unit) :=
  fun _ _ _ b _ h => ((exec_failIf p e b).mp h).2

lemma readsOnly_orFail (e : ε) (a : Option α) : ReadsOnly (orFail e a : TxProgram Val ε α) :=
  fun _ _ _ b _ h => ((exec_orFail e a b).mp h).2

/-- A sequence of programs that write nothing. -/
lemma ReadsOnly.bind {p : TxProgram Val ε α} {f : α → TxProgram Val ε β} (hp : ReadsOnly p)
    (hf : ∀ a, ReadsOnly (f a)) : ReadsOnly (p >>= f) := by
  intro H s ws b ws' h
  obtain ⟨a, ws₁, h₁, h₂⟩ := exec_bind.mp h
  rw [hf a h₂, hp h₁]

lemma readsOnly_ite {p : Prop} [Decidable p] {x y : TxProgram Val ε α} (hx : ReadsOnly x)
    (hy : ReadsOnly y) : ReadsOnly (if p then x else y) := by
  split
  · exact hx
  · exact hy

/-- A check before a program is passed, and leaves the writes as they are. -/
lemma ReadsOnly.exec_bind {p : TxProgram Val ε α} {f : α → TxProgram Val ε β} (hp : ReadsOnly p)
    {H : Set (Store Val)} {s : Store Val} {ws ws' : Pending Val} {b : β}
    (h : Exec H s (p >>= f) ws b ws') : ∃ a, Exec H s p ws a ws ∧ Exec H s (f a) ws b ws' := by
  obtain ⟨a, ws₁, h₁, h₂⟩ := TxProgram.exec_bind.mp h
  obtain rfl := hp h₁
  exact ⟨a, h₁, h₂⟩

end TxProgram

end GovAI
