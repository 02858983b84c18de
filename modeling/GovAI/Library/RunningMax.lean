import Mathlib.Order.Basic
import Mathlib.Order.Lattice
import Mathlib.Data.List.Basic

/-!
# Running maxima

A loop that keeps the best value seen so far, and replaces it when the next one ranks strictly
higher.  The rank of the result is the least upper bound of the ranks (`rank_runningMax_le_iff`), so
it neither depends on the order nor falls when a value is added; the result itself is one of the
values (`runningMax_mem`).
-/

namespace GovAI

variable {β κ : Type} [LinearOrder κ] (rank : β → κ)

/-- The value kept by the loop. -/
def runningMax (best : β) (values : List β) : β :=
  values.foldl (fun best v => if rank best < rank v then v else best) best

variable {rank}

@[simp] lemma runningMax_nil (best : β) : runningMax rank best [] = best := rfl

lemma runningMax_cons (best v : β) (values : List β) :
    runningMax rank best (v :: values) =
      runningMax rank (if rank best < rank v then v else best) values := rfl

/-- The result is the first value or one of the others. -/
lemma runningMax_mem (best : β) (values : List β) :
    runningMax rank best values = best ∨ runningMax rank best values ∈ values := by
  induction values generalizing best with
  | nil => exact .inl rfl
  | cons v values ih =>
    rw [runningMax_cons]
    rcases ih (if rank best < rank v then v else best) with h | h
    · rw [h]
      split
      · exact .inr List.mem_cons_self
      · exact .inl rfl
    · exact .inr (List.mem_cons_of_mem _ h)

/-- **The rank of the result is the least upper bound of the ranks.** -/
theorem rank_runningMax_le_iff {best : β} {values : List β} {k : κ} :
    rank (runningMax rank best values) ≤ k ↔ rank best ≤ k ∧ ∀ v ∈ values, rank v ≤ k := by
  induction values generalizing best with
  | nil => simp
  | cons v values ih =>
    rw [runningMax_cons, ih, List.forall_mem_cons]
    split
    · constructor
      · rintro ⟨hv, hrest⟩
        exact ⟨(le_of_lt ‹_›).trans hv, hv, hrest⟩
      · rintro ⟨-, hv, hrest⟩
        exact ⟨hv, hrest⟩
    · constructor
      · rintro ⟨hbest, hrest⟩
        exact ⟨hbest, (not_lt.mp ‹_›).trans hbest, hrest⟩
      · rintro ⟨hbest, -, hrest⟩
        exact ⟨hbest, hrest⟩

end GovAI
