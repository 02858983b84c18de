import Mathlib.Data.List.Basic
import Mathlib.Tactic

/-!
# Row versions

An append-only table as a multi-version database keeps it: a heap of rows, each one either committed
or written by a transaction that is still open.  A transaction sees the committed rows and its own;
committing releases its rows to everybody, rolling back removes them.

`OwnedTail o h` is the shape of a table whose only writer is the holder `o` of an exclusive lock: the
committed rows come first and the rows behind them belong to `o`.
-/

namespace GovAI

/-- A row with the open transaction that wrote it (`none` once committed). -/
structure Version (τ R : Type*) where
  owner : Option τ
  row : R

namespace Version

variable {τ R : Type*} [DecidableEq τ]

/-- The rows of a heap, whoever wrote them. -/
def rows (h : List (Version τ R)) : List R := h.map Version.row

/-- The committed rows. -/
def committed (h : List (Version τ R)) : List R := rows (h.filter fun v => v.owner = none)

/-- The rows a transaction sees: the committed ones and its own. -/
def visible (t : τ) (h : List (Version τ R)) : List R :=
  rows (h.filter fun v => v.owner = none ∨ v.owner = some t)

/-- The end of a transaction that commits. -/
def commit (t : τ) (h : List (Version τ R)) : List (Version τ R) :=
  h.map fun v => if v.owner = some t then { v with owner := none } else v

/-- The end of a transaction that rolls back. -/
def rollback (t : τ) (h : List (Version τ R)) : List (Version τ R) :=
  h.filter fun v => v.owner ≠ some t

/-- The part of a heap whose rows satisfy a test that does not look at the owner. -/
def select (q : R → Bool) (h : List (Version τ R)) : List (Version τ R) := h.filter fun v => q v.row

/-! ## Selections -/

omit [DecidableEq τ] in
@[simp] theorem rows_append (h h' : List (Version τ R)) : rows (h ++ h') = rows h ++ rows h' :=
  List.map_append

omit [DecidableEq τ] in
/-- Selecting versions is filtering their rows. -/
theorem rows_select (q : R → Bool) (h : List (Version τ R)) :
    rows (select q h) = (rows h).filter q := by
  simp [rows, select, List.filter_map, Function.comp_def]

/-- The visible rows of a selection. -/
theorem visible_select (t : τ) (q : R → Bool) (h : List (Version τ R)) :
    visible t (select q h) = (visible t h).filter q := by
  simp only [visible, rows, select, List.filter_filter, List.filter_map, Function.comp_def]
  congr 1
  exact List.filter_congr fun v _ => Bool.and_comm _ _

omit [DecidableEq τ] in
/-- The committed rows of a selection. -/
theorem committed_select (q : R → Bool) (h : List (Version τ R)) :
    committed (select q h) = (committed h).filter q := by
  simp only [committed, rows, select, List.filter_filter, List.filter_map, Function.comp_def]
  congr 1
  exact List.filter_congr fun v _ => Bool.and_comm _ _

/-- Committing commutes with a selection. -/
theorem select_commit (t : τ) (q : R → Bool) (h : List (Version τ R)) :
    select q (commit t h) = commit t (select q h) := by
  simp only [select, commit, List.filter_map, Function.comp_def]
  congr 1
  refine List.filter_congr fun v _ => ?_
  split <;> rfl

/-- Rolling back commutes with a selection. -/
theorem select_rollback (t : τ) (q : R → Bool) (h : List (Version τ R)) :
    select q (rollback t h) = rollback t (select q h) := by
  simp only [select, rollback, List.filter_filter]
  exact List.filter_congr fun v _ => Bool.and_comm _ _

omit [DecidableEq τ] in
/-- A new version is selected by the test on its row. -/
theorem select_concat (q : R → Bool) (h : List (Version τ R)) (v : Version τ R) :
    select q (h ++ [v]) = select q h ++ if q v.row then [v] else [] := by
  simp [select, List.filter_append, List.filter_singleton]

/-- Committing changes no row. -/
@[simp] theorem rows_commit (t : τ) (h : List (Version τ R)) : rows (commit t h) = rows h := by
  simp only [rows, commit, List.map_map]
  refine List.map_congr_left fun v _ => ?_
  simp only [Function.comp_apply]
  split <;> rfl

/-! ## Tables with one writer -/

/-- The committed rows come first; the others belong to `o`. -/
def OwnedTail (o : Option τ) (h : List (Version τ R)) : Prop :=
  ∃ pre post, h = pre ++ post ∧ (∀ v ∈ pre, v.owner = none) ∧
    ∀ v ∈ post, v.owner = o ∧ v.owner ≠ none

omit [DecidableEq τ] in
@[simp] theorem ownedTail_nil (o : Option τ) : OwnedTail o ([] : List (Version τ R)) :=
  ⟨[], [], by simp⟩

omit [DecidableEq τ] in
/-- Without a writer everything is committed. -/
theorem OwnedTail.all_committed {h : List (Version τ R)} (hh : OwnedTail none h) :
    ∀ v ∈ h, v.owner = none := by
  obtain ⟨pre, post, rfl, hpre, hpost⟩ := hh
  intro v hv
  rcases List.mem_append.mp hv with hv | hv
  · exact hpre v hv
  · exact absurd (hpost v hv).1 (hpost v hv).2

omit [DecidableEq τ] in
/-- A table with everything committed may be handed to any writer. -/
theorem OwnedTail.of_committed {h : List (Version τ R)} (hh : ∀ v ∈ h, v.owner = none)
    (o : Option τ) : OwnedTail o h :=
  ⟨h, [], by simp, hh, by simp⟩

omit [DecidableEq τ] in
/-- The writer appends a row. -/
theorem OwnedTail.concat {t : τ} {h : List (Version τ R)} (hh : OwnedTail (some t) h) (r : R) :
    OwnedTail (some t) (h ++ [⟨some t, r⟩]) := by
  obtain ⟨pre, post, rfl, hpre, hpost⟩ := hh
  refine ⟨pre, post ++ [⟨some t, r⟩], by simp, hpre, ?_⟩
  intro v hv
  rcases List.mem_append.mp hv with hv | hv
  · exact hpost v hv
  · obtain rfl := List.mem_singleton.mp hv
    exact ⟨rfl, by simp⟩

/-- The writer sees the whole table. -/
theorem OwnedTail.visible_eq {t : τ} {h : List (Version τ R)} (hh : OwnedTail (some t) h) :
    visible t h = rows h := by
  obtain ⟨pre, post, rfl, hpre, hpost⟩ := hh
  unfold visible
  rw [List.filter_eq_self.mpr]
  intro v hv
  rcases List.mem_append.mp hv with hv | hv
  · simp [hpre v hv]
  · simp [(hpost v hv).1]

omit [DecidableEq τ] in
/-- The committed rows are the first rows of the table. -/
theorem OwnedTail.committed_isPrefix {o : Option τ} {h : List (Version τ R)} (hh : OwnedTail o h) :
    committed h <+: rows h := by
  obtain ⟨pre, post, rfl, hpre, hpost⟩ := hh
  have h₁ : pre.filter (fun v => v.owner = none) = pre :=
    List.filter_eq_self.mpr fun v hv => by simp [hpre v hv]
  have h₂ : post.filter (fun v => v.owner = none) = [] :=
    List.filter_eq_nil_iff.mpr fun v hv => by simp [(hpost v hv).2]
  refine ⟨rows post, ?_⟩
  simp [committed, List.filter_append, h₁, h₂]

/-- After the writer has committed, everything is committed. -/
theorem OwnedTail.commit {t : τ} {h : List (Version τ R)} (hh : OwnedTail (some t) h) :
    ∀ v ∈ Version.commit t h, v.owner = none := by
  obtain ⟨pre, post, rfl, hpre, hpost⟩ := hh
  intro v hv
  simp only [Version.commit, List.mem_map] at hv
  obtain ⟨w, hw, rfl⟩ := hv
  rcases List.mem_append.mp hw with hw | hw
  · simp [hpre w hw]
  · simp [(hpost w hw).1]

/-- After the writer has rolled back, everything left is committed and is a prefix of what was
there. -/
theorem OwnedTail.rollback {t : τ} {h : List (Version τ R)} (hh : OwnedTail (some t) h) :
    (∀ v ∈ Version.rollback t h, v.owner = none) ∧ rows (Version.rollback t h) <+: rows h := by
  obtain ⟨pre, post, rfl, hpre, hpost⟩ := hh
  have h₁ : Version.rollback t pre = pre :=
    List.filter_eq_self.mpr fun v hv => by simp [hpre v hv]
  have h₂ : Version.rollback t post = [] :=
    List.filter_eq_nil_iff.mpr fun v hv => by simp [(hpost v hv).1]
  have h₃ : Version.rollback t (pre ++ post) = pre := by
    rw [show Version.rollback t (pre ++ post) = Version.rollback t pre ++ Version.rollback t post
      from List.filter_append .., h₁, h₂, List.append_nil]
  rw [h₃]
  exact ⟨hpre, rows post, by simp⟩

omit [DecidableEq τ] in
/-- The end of a transaction that is not the writer does not touch the table. -/
theorem OwnedTail.owner_ne {t : τ} {o : Option τ} {h : List (Version τ R)} (hh : OwnedTail o h)
    (ho : o ≠ some t) : ∀ v ∈ h, v.owner ≠ some t := by
  obtain ⟨pre, post, rfl, hpre, hpost⟩ := hh
  intro v hv
  rcases List.mem_append.mp hv with hv | hv
  · simp [hpre v hv]
  · rw [(hpost v hv).1]
    exact ho

/-- Committing a transaction without rows in the table leaves the table as it is. -/
theorem commit_eq_self {t : τ} {h : List (Version τ R)} (hh : ∀ v ∈ h, v.owner ≠ some t) :
    Version.commit t h = h := by
  unfold Version.commit
  conv_rhs => rw [← List.map_id h]
  exact List.map_congr_left fun v hv => by simp [hh v hv]

/-- Rolling back a transaction without rows in the table leaves the table as it is. -/
theorem rollback_eq_self {t : τ} {h : List (Version τ R)} (hh : ∀ v ∈ h, v.owner ≠ some t) :
    Version.rollback t h = h :=
  List.filter_eq_self.mpr fun v hv => by simpa using hh v hv

end Version

end GovAI
