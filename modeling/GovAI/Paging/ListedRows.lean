import GovAI.Audit.Event
import GovAI.Library.PageRuns
import Mathlib.Data.Prod.Lex

/-!
# Lists, the newest first

The lists of the API are ordered by a timestamp column and by `id`, both descending.  A page is read
after a position in this order (`ListedTable.sort_filter_eq`).
-/

namespace GovAI

/-- A row with the columns of the order of a list: a `timestamptz`, in microseconds, and `id`. -/
class ListedRow (ρ : Type) where
  listedAt : ρ → ℤ
  id : ρ → Uuid

section Rows

variable {ρ : Type} [ListedRow ρ]

/-- `ORDER BY … DESC, id DESC`: the place of a row in a list.  A `uuid` is compared by its
bytes. -/
def listKey (r : ρ) : (ℤ ×ₗ ℕ)ᵒᵈ :=
  OrderDual.toDual (toLex (ListedRow.listedAt r, (ListedRow.id r).toNat))

/-- `r` comes before `r'` in a list. -/
def NewerFirst (r r' : ρ) : Prop :=
  ListedRow.listedAt r' < ListedRow.listedAt r ∨
    ListedRow.listedAt r' = ListedRow.listedAt r ∧ ListedRow.id r' < ListedRow.id r

/-- A table of rows with an `id` as primary key, as it stands while a client reads a list. -/
structure ListedTable (ρ : Type) [ListedRow ρ] where
  rows : List ρ
  ids_nodup : (rows.map ListedRow.id).Nodup

/-- The rows of a condition in the order of the lists. -/
def ListedTable.inOrder (table : ListedTable ρ) (matches? : ρ → Bool) : List ρ :=
  (table.rows.filter matches?).insertionSort (listKey · ≤ listKey ·)

lemma listKey_lt_iff {r r' : ρ} : listKey r < listKey r' ↔ NewerFirst r r' := by
  rw [listKey, listKey, OrderDual.toDual_lt_toDual, Prod.Lex.toLex_lt_toLex]
  rfl

instance : IsTrans ρ fun r r' => listKey r ≤ listKey r' := ⟨fun _ _ _ => le_trans⟩

instance : Std.Total fun r r' : ρ => listKey r ≤ listKey r' := ⟨fun _ _ => le_total _ _⟩

/-- Rows of a table in the order of the lists are sorted strictly. -/
lemma ListedTable.pairwise_insertionSort (table : ListedTable ρ) {rows : List ρ}
    (hrows : rows.Sublist table.rows) :
    (rows.insertionSort (listKey · ≤ listKey ·)).Pairwise (listKey · < listKey ·) := by
  have hids : ((rows.insertionSort (listKey · ≤ listKey ·)).map ListedRow.id).Nodup :=
    ((List.perm_insertionSort _ _).map _).nodup_iff.mpr (table.ids_nodup.sublist (hrows.map _))
  have hne := List.pairwise_map.mp hids
  refine ((List.pairwise_insertionSort _ _).and hne).imp ?_
  rintro r r' ⟨hle, hid⟩
  refine lt_of_le_of_ne hle fun heq => hid ?_
  have hpair := congrArg (fun k => (ofLex (OrderDual.ofDual k)).2) heq
  exact BitVec.eq_of_toNat_eq hpair

/-- The rows of a condition in their order are sorted strictly. -/
lemma ListedTable.inOrder_pairwise (table : ListedTable ρ) (matches? : ρ → Bool) :
    (table.inOrder matches?).Pairwise (listKey · < listKey ·) :=
  table.pairwise_insertionSort List.filter_sublist

/-- The rows of a condition that come after a position, sorted. -/
lemma ListedTable.sort_filter_eq (table : ListedTable ρ) (matches? : ρ → Bool)
    {pos : Option (ℤ ×ₗ ℕ)ᵒᵈ} {after : ρ → Prop} [DecidablePred after]
    (hafter : ∀ r, after r ↔ ∀ k ∈ pos, k < listKey r) :
    (table.rows.filter fun r => matches? r ∧ after r).insertionSort (listKey · ≤ listKey ·) =
      rowsAfter listKey (table.inOrder matches?) pos := by
  have hperm : (table.rows.filter fun r => matches? r ∧ after r).Perm
      (rowsAfter listKey (table.inOrder matches?) pos) := by
    have hfilter : rowsAfter listKey (table.inOrder matches?) pos =
        (table.inOrder matches?).filter fun r => after r :=
      List.filter_congr fun r _ => by rw [decide_eq_decide]; exact (hafter r).symm
    rw [hfilter, ListedTable.inOrder]
    refine List.Perm.trans ?_ ((List.perm_insertionSort _ _).symm.filter _)
    rw [List.filter_filter]
    refine List.Perm.of_eq (List.filter_congr fun r _ => ?_)
    rw [Bool.decide_and, Bool.decide_eq_true, Bool.and_comm]
  have hsorted : (rowsAfter listKey (table.inOrder matches?) pos).Pairwise (listKey · < listKey ·) :=
    (table.inOrder_pairwise matches?).sublist List.filter_sublist
  refine ((List.perm_insertionSort _ _).trans hperm).eq_of_pairwise
    (fun _ _ _ _ h h' => absurd h h'.asymm) ?_ hsorted
  exact table.pairwise_insertionSort List.filter_sublist

/-- Rows are a list in its order if they are its rows and the newest come first. -/
lemma ListedTable.eq_inOrder_iff (table : ListedTable ρ) (matches? : ρ → Bool) {visited : List ρ} :
    visited.Perm (table.rows.filter matches?) ∧ visited.Pairwise NewerFirst ↔
      visited = table.inOrder matches? := by
  have hsorted := table.inOrder_pairwise matches?
  have hperm : (table.inOrder matches?).Perm (table.rows.filter matches?) :=
    List.perm_insertionSort _ _
  constructor
  · rintro ⟨hrows, horder⟩
    refine (hrows.trans hperm.symm).eq_of_pairwise (fun _ _ _ _ h h' => absurd h h'.asymm) ?_ hsorted
    exact horder.imp listKey_lt_iff.mpr
  · rintro rfl
    exact ⟨hperm, hsorted.imp listKey_lt_iff.mp⟩

end Rows

end GovAI
