import GovAI.Library.LockedTransactions

/-!
# Transactions as programs

The code of a transaction, as a program over a store of items.  A `select` reads the rows that are
committed at its moment, under the transaction's own writes; `lock` waits for an item and reads it
(`SELECT … FOR UPDATE`, an advisory lock with the read that follows it, the check of a unique key);
`write` waits for an item and writes it.  What a transaction has locked it keeps to its end, and its
writes are seen by nobody else before it commits.

`TxProgram.Exec` runs a program alone.  `txProtocol` interleaves programs statement by statement
under their locks, and `txSystem_invariant` is the rule for the committed states: an invariant that
every program keeps when it runs alone, with its unlocked reads answered by any earlier committed
states, holds in every interleaving.
-/

namespace GovAI

open ItemStore Function

variable {K : Type} {Val : K → Type} {ε α β : Type}

/-- A database as a family of items. -/
abbrev Store (Val : K → Type) : Type := ∀ k, Val k

instance (Val : K → Type) : ItemStore (Store Val) K where
  Val := Val
  items := Equiv.refl _

/-- The code of a transaction that commits with a result or rolls back with an error. -/
inductive TxProgram (Val : K → Type) (ε α : Type) : Type
  | done (a : α)
  | fail (e : ε)
  | select (next : Store Val → TxProgram Val ε α)
  | lock (k : K) (next : Val k → TxProgram Val ε α)
  | write (k : K) (v : Val k) (next : TxProgram Val ε α)

/-- The writes of a transaction, the last one first. -/
abbrev Pending (Val : K → Type) : Type := List (Sigma Val)

/-- What a transaction with these writes sees of a committed state. -/
def Pending.apply [DecidableEq K] : Pending Val → Store Val → Store Val
  | [], s => s
  | w :: ws, s => update (Pending.apply ws s) w.1 w.2

namespace TxProgram

/-! ## Sequences -/

/-- Run `f` after the program, in the same transaction. -/
def bind : TxProgram Val ε α → (α → TxProgram Val ε β) → TxProgram Val ε β
  | done a, f => f a
  | fail e, _ => fail e
  | select next, f => select fun s => (next s).bind f
  | lock k next, f => lock k fun v => (next v).bind f
  | write k v next, f => write k v (next.bind f)

instance : Monad (TxProgram Val ε) where
  pure := done
  bind := bind

/-- One unlocked read. -/
def read (f : Store Val → α) : TxProgram Val ε α := select fun s => done (f s)

/-- Lock an item and read it. -/
def lockItem (k : K) : TxProgram Val ε (Val k) := lock k done

/-- Write an item. -/
def set (k : K) (v : Val k) : TxProgram Val ε Unit := write k v (done ())

/-- Roll back if `p` holds. -/
def failIf (p : Prop) [Decidable p] (e : ε) : TxProgram Val ε Unit := if p then fail e else done ()

/-- The value of a row, or a rollback if there is none. -/
def orFail (e : ε) : Option α → TxProgram Val ε α
  | some a => done a
  | none => fail e

/-- The result of a pure check, or a rollback with its error. -/
def ofExcept : Except ε α → TxProgram Val ε α
  | .ok a => done a
  | .error e => fail e

variable [DecidableEq K]

/-! ## A transaction that runs alone -/

/-- On the committed state `s` and with the writes `ws` so far the program may end with the result `b`
and the writes `ws'`, when its unlocked reads are answered by states of `H`. -/
def Exec (H : Set (Store Val)) (s : Store Val) : TxProgram Val ε α → Pending Val → α → Pending Val →
    Prop
  | done a, ws, b, ws' => b = a ∧ ws' = ws
  | fail _, _, _, _ => False
  | select next, ws, b, ws' => ∃ r ∈ H, Exec H s (next (ws.apply r)) ws b ws'
  | lock k next, ws, b, ws' => Exec H s (next (ws.apply s k)) ws b ws'
  | write k v next, ws, b, ws' => Exec H s next (⟨k, v⟩ :: ws) b ws'

variable {H : Set (Store Val)} {s : Store Val} {ws ws' : Pending Val}

@[simp] lemma exec_pure (a b : α) :
    Exec H s (pure a : TxProgram Val ε α) ws b ws' ↔ b = a ∧ ws' = ws := Iff.rfl

@[simp] lemma exec_done (a b : α) :
    Exec H s (done a : TxProgram Val ε α) ws b ws' ↔ b = a ∧ ws' = ws := Iff.rfl

@[simp] lemma exec_fail (e : ε) (b : α) :
    ¬Exec H s (fail e : TxProgram Val ε α) ws b ws' := id

@[simp] lemma exec_read (f : Store Val → α) (b : α) :
    Exec H s (read f : TxProgram Val ε α) ws b ws' ↔ (∃ r ∈ H, b = f (ws.apply r)) ∧ ws' = ws := by
  simp only [read, Exec]
  constructor
  · rintro ⟨r, hr, rfl, rfl⟩
    exact ⟨⟨r, hr, rfl⟩, rfl⟩
  · rintro ⟨⟨r, hr, rfl⟩, rfl⟩
    exact ⟨r, hr, rfl, rfl⟩

@[simp] lemma exec_lockItem (k : K) (v : Val k) :
    Exec H s (lockItem k : TxProgram Val ε (Val k)) ws v ws' ↔ v = ws.apply s k ∧ ws' = ws := Iff.rfl

@[simp] lemma exec_set (k : K) (v : Val k) (b : Unit) :
    Exec H s (set k v : TxProgram Val ε Unit) ws b ws' ↔ ws' = ⟨k, v⟩ :: ws := by
  simp [set, Exec]

@[simp] lemma exec_failIf (p : Prop) [Decidable p] (e : ε) (b : Unit) :
    Exec H s (failIf p e : TxProgram Val ε Unit) ws b ws' ↔ ¬p ∧ ws' = ws := by
  unfold failIf
  split
  · next h => simp [h]
  · next h => simp [h]

@[simp] lemma exec_orFail (e : ε) (a : Option α) (b : α) :
    Exec H s (orFail e a : TxProgram Val ε α) ws b ws' ↔ a = some b ∧ ws' = ws := by
  cases a with
  | none => simp [orFail]
  | some a => simp [orFail, eq_comm]

@[simp] lemma exec_ofExcept (a : Except ε α) (b : α) :
    Exec H s (ofExcept a : TxProgram Val ε α) ws b ws' ↔ a = .ok b ∧ ws' = ws := by
  cases a with
  | error e => simp [ofExcept]
  | ok a => simp [ofExcept, eq_comm]

/-- A sequence runs in sequence. -/
@[simp] lemma exec_bind {p : TxProgram Val ε α} {f : α → TxProgram Val ε β} {b : β} :
    Exec H s (p >>= f) ws b ws' ↔
      ∃ a ws₁, Exec H s p ws a ws₁ ∧ Exec H s (f a) ws₁ b ws' := by
  change Exec H s (p.bind f) ws b ws' ↔ _
  induction p generalizing ws with
  | done a => simp [bind]
  | fail e => simp [bind, Exec]
  | select next ih =>
    simp only [bind, Exec, ih]
    constructor
    · rintro ⟨r, hr, a, ws₁, h, hf⟩
      exact ⟨a, ws₁, ⟨r, hr, h⟩, hf⟩
    · rintro ⟨a, ws₁, ⟨r, hr, h⟩, hf⟩
      exact ⟨r, hr, a, ws₁, h, hf⟩
  | lock k next ih => simp only [bind, Exec, ih]
  | write k v next ih => simp only [bind, Exec, ih]

/-- The more committed states there are, the more may be read. -/
lemma Exec.mono {H' : Set (Store Val)} (hH : H ⊆ H') {p : TxProgram Val ε α} {b : α}
    (h : Exec H s p ws b ws') : Exec H' s p ws b ws' := by
  induction p generalizing ws with
  | done a => exact h
  | fail e => exact h
  | select next ih =>
    obtain ⟨r, hr, h⟩ := h
    exact ⟨r, hH hr, ih _ h⟩
  | lock k next ih => exact ih _ h
  | write k v next ih => exact ih h

/-- The program on one state, which also answers the unlocked reads. -/
def run (s : Store Val) : TxProgram Val ε α → Pending Val → Except ε (α × Pending Val)
  | done a, ws => .ok (a, ws)
  | fail e, _ => .error e
  | select next, ws => run s (next (ws.apply s)) ws
  | lock k next, ws => run s (next (ws.apply s k)) ws
  | write k v next, ws => run s next (⟨k, v⟩ :: ws)

/-- Such a run is one of the program's. -/
lemma exec_of_run (hs : s ∈ H) {p : TxProgram Val ε α} {b : α} (h : p.run s ws = .ok (b, ws')) :
    Exec H s p ws b ws' := by
  induction p generalizing ws with
  | done a =>
    obtain ⟨rfl, rfl⟩ := Prod.mk.inj (Except.ok.inj h)
    exact ⟨rfl, rfl⟩
  | fail e => cases h
  | select next ih => exact ⟨s, hs, ih _ h⟩
  | lock k next ih => exact ih _ h
  | write k v next ih => exact ih h

/-! ## Evaluation -/

/-- On the committed state `s`, with the writes `ws` so far and its unlocked reads answered by states
of `H`, the program may end with this result, or be rolled back with this error. -/
def Ends (H : Set (Store Val)) (s : Store Val) :
    TxProgram Val ε α → Pending Val → Except ε (α × Pending Val) → Prop
  | done a, ws, q => q = .ok (a, ws)
  | fail e, _, q => q = .error e
  | select next, ws, q => ∃ r ∈ H, Ends H s (next (ws.apply r)) ws q
  | lock k next, ws, q => Ends H s (next (ws.apply s k)) ws q
  | write k v next, ws, q => Ends H s next (⟨k, v⟩ :: ws) q

/-- A sequence ends as its second part does, or with the error of the first. -/
lemma ends_bind {p : TxProgram Val ε α} {f : α → TxProgram Val ε β}
    {q : Except ε (β × Pending Val)} :
    Ends H s (p >>= f) ws q ↔ ∃ x, Ends H s p ws x ∧
      match x with
      | .ok (a, ws₁) => Ends H s (f a) ws₁ q
      | .error e => q = .error e := by
  change Ends H s (p.bind f) ws q ↔ _
  induction p generalizing ws with
  | done a => simp [bind, Ends]
  | fail e => simp [bind, Ends]
  | select next ih =>
    simp only [bind, Ends, ih]
    constructor
    · rintro ⟨r, hr, x, hx, hq⟩
      exact ⟨x, ⟨r, hr, hx⟩, hq⟩
    · rintro ⟨x, ⟨r, hr, hx⟩, hq⟩
      exact ⟨r, hr, x, hx, hq⟩
  | lock k next ih => simp only [bind, Ends, ih]
  | write k v next ih => simp only [bind, Ends, ih]

/-- The program always ends in this way, whatever states of `H` it reads. -/
def Evaluates (H : Set (Store Val)) (s : Store Val) (p : TxProgram Val ε α) (ws : Pending Val)
    (q : Except ε (α × Pending Val)) : Prop :=
  ∀ x, Ends H s p ws x ↔ x = q

section Evaluates

variable {q : Except ε (β × Pending Val)}

lemma evaluates_pure (a : α) : Evaluates H s (pure a : TxProgram Val ε α) ws (.ok (a, ws)) :=
  fun _ => Iff.rfl

/-- A sequence, when its first part ends with a result. -/
lemma Evaluates.bind {p : TxProgram Val ε α} {f : α → TxProgram Val ε β} {a : α}
    (hp : Evaluates H s p ws (.ok (a, ws'))) (hf : Evaluates H s (f a) ws' q) :
    Evaluates H s (p >>= f) ws q := by
  intro x
  rw [ends_bind, ← hf x]
  constructor
  · rintro ⟨y, hy, hx⟩
    rwa [(hp y).mp hy] at hx
  · intro hx
    exact ⟨_, (hp _).mpr rfl, hx⟩

/-- A sequence, when its first part is rolled back. -/
lemma Evaluates.bind_error {p : TxProgram Val ε α} {f : α → TxProgram Val ε β} {e : ε}
    (hp : Evaluates H s p ws (.error e)) : Evaluates H s (p >>= f) ws (.error e) := by
  intro x
  rw [ends_bind]
  constructor
  · rintro ⟨y, hy, hx⟩
    rwa [(hp y).mp hy] at hx
  · intro hx
    exact ⟨_, (hp _).mpr rfl, hx⟩

lemma evaluates_lockItem (k : K) :
    Evaluates H s (lockItem k : TxProgram Val ε (Val k)) ws (.ok (ws.apply s k, ws)) :=
  fun _ => Iff.rfl

/-- After an unlocked read, when every state that may answer it leads to the same end. -/
lemma evaluates_read_bind {g : Store Val → α} {f : α → TxProgram Val ε β} (hH : H.Nonempty)
    (h : ∀ r ∈ H, Evaluates H s (f (g (ws.apply r))) ws q) : Evaluates H s (read g >>= f) ws q := by
  intro x
  constructor
  · rintro ⟨r, hr, hx⟩
    exact (h r hr x).mp hx
  · intro hx
    obtain ⟨r, hr⟩ := hH
    exact ⟨r, hr, (h r hr x).mpr hx⟩

lemma evaluates_failIf_pos {p : Prop} [Decidable p] (h : p) (e : ε) :
    Evaluates H s (failIf p e : TxProgram Val ε Unit) ws (.error e) := by
  rw [failIf, if_pos h]
  exact fun _ => Iff.rfl

lemma evaluates_failIf_neg {p : Prop} [Decidable p] (h : ¬p) (e : ε) :
    Evaluates H s (failIf p e : TxProgram Val ε Unit) ws (.ok ((), ws)) := by
  rw [failIf, if_neg h]
  exact fun _ => Iff.rfl

lemma evaluates_orFail_some (a : α) (e : ε) :
    Evaluates H s (orFail e (some a) : TxProgram Val ε α) ws (.ok (a, ws)) :=
  fun _ => Iff.rfl

lemma evaluates_orFail_none (e : ε) :
    Evaluates H s (orFail e (none : Option α) : TxProgram Val ε α) ws (.error e) :=
  fun _ => Iff.rfl

end Evaluates

/-! ## Pre- and postconditions -/

/-- Whenever the program runs alone on a state with `P`, as the transaction sees it, the transaction
then sees a state with `Q`. -/
def Triple (P : Store Val → Prop) (p : TxProgram Val ε α) (Q : α → Store Val → Prop) : Prop :=
  ∀ ⦃H s ws b ws'⦄, P (ws.apply s) → p.Exec H s ws b ws' → Q b (ws'.apply s)

section Triple

variable {P P' : Store Val → Prop} {Q : α → Store Val → Prop} {R : β → Store Val → Prop}

/-- A program that has written nothing before. -/
lemma Triple.exec {p : TxProgram Val ε α} {b : α} (h : Triple P p Q) (hP : P s)
    (hrun : Exec H s p [] b ws) : Q b (ws.apply s) :=
  h (show P (Pending.apply [] s) from hP) hrun

/-- The rule of consequence. -/
lemma Triple.imp {Q' : α → Store Val → Prop} {p : TxProgram Val ε α} (h : Triple P p Q)
    (hP : ∀ v, P' v → P v) (hQ : ∀ a v, Q a v → Q' a v) : Triple P' p Q' :=
  fun _ _ _ _ _ hpre hrun => hQ _ _ (h (hP _ hpre) hrun)

/-- A precondition that does not depend on the state. -/
lemma triple_of_and {φ : Prop} {p : TxProgram Val ε α} (h : φ → Triple P p Q) :
    Triple (fun v => P v ∧ φ) p Q :=
  fun _ _ _ _ _ hpre hrun => h hpre.2 hpre.1 hrun

lemma triple_pure {a : α} (h : ∀ v, P v → Q a v) : Triple P (pure a : TxProgram Val ε α) Q := by
  rintro H s ws b ws' hP ⟨rfl, rfl⟩
  exact h _ hP

lemma triple_fail (e : ε) : Triple P (fail e : TxProgram Val ε α) Q :=
  fun _ _ _ _ _ _ hrun => absurd hrun (exec_fail e _)

/-- The rule of composition. -/
lemma triple_bind {p : TxProgram Val ε α} {f : α → TxProgram Val ε β} (hp : Triple P p Q)
    (hf : ∀ a, Triple (Q a) (f a) R) : Triple P (p >>= f) R := by
  intro H s ws b ws' hP hrun
  obtain ⟨a, ws₁, hrun, hrun'⟩ := exec_bind.mp hrun
  exact hf a (hp hP hrun) hrun'

/-- An unlocked read may answer anything. -/
lemma triple_read {f : Store Val → α} (h : ∀ a v, P v → Q a v) :
    Triple P (read f : TxProgram Val ε α) Q := by
  intro H s ws b ws' hP hrun
  obtain ⟨-, rfl⟩ := (exec_read f b).mp hrun
  exact h _ _ hP

/-- A locked item is as the transaction sees it. -/
lemma triple_lockItem {k : K} {Q : Val k → Store Val → Prop} (h : ∀ v, P v → Q (v k) v) :
    Triple P (lockItem k : TxProgram Val ε (Val k)) Q := by
  rintro H s ws b ws' hP ⟨rfl, rfl⟩
  exact h _ hP

lemma triple_set {k : K} {v : Val k} {Q : Unit → Store Val → Prop}
    (h : ∀ db, P db → Q () (update db k v)) : Triple P (set k v : TxProgram Val ε Unit) Q := by
  intro H s ws b ws' hP hrun
  obtain rfl := (exec_set k v b).mp hrun
  exact h _ hP

lemma triple_failIf {p : Prop} [Decidable p] {e : ε} {Q : Unit → Store Val → Prop}
    (h : ∀ v, P v → ¬p → Q () v) : Triple P (failIf p e : TxProgram Val ε Unit) Q := by
  intro H s ws b ws' hP hrun
  obtain ⟨hp, rfl⟩ := (exec_failIf p e b).mp hrun
  exact h _ hP hp

lemma triple_orFail {a : Option α} {e : ε} (h : ∀ b v, P v → a = some b → Q b v) :
    Triple P (orFail e a : TxProgram Val ε α) Q := by
  intro H s ws b ws' hP hrun
  obtain ⟨ha, rfl⟩ := (exec_orFail e a b).mp hrun
  exact h _ _ hP ha

lemma triple_ofExcept {a : Except ε α} (h : ∀ b v, P v → a = .ok b → Q b v) :
    Triple P (ofExcept a : TxProgram Val ε α) Q := by
  intro H s ws b ws' hP hrun
  obtain ⟨ha, rfl⟩ := (exec_ofExcept a b).mp hrun
  exact h _ _ hP ha

end Triple

/-- The program keeps `P`. -/
def Keeps (P : Store Val → Prop) (p : TxProgram Val ε α) : Prop := Triple P p fun _ => P

section Keeps

variable {P : Store Val → Prop}

lemma keeps_pure (a : α) : Keeps P (pure a : TxProgram Val ε α) := triple_pure fun _ h => h

lemma keeps_fail (e : ε) : Keeps P (fail e : TxProgram Val ε α) := triple_fail e

lemma keeps_bind {p : TxProgram Val ε α} {f : α → TxProgram Val ε β} (hp : Keeps P p)
    (hf : ∀ a, Keeps P (f a)) : Keeps P (p >>= f) :=
  triple_bind hp hf

lemma keeps_read (f : Store Val → α) : Keeps P (read f : TxProgram Val ε α) :=
  triple_read fun _ _ h => h

lemma keeps_lockItem (k : K) : Keeps P (lockItem k : TxProgram Val ε (Val k)) :=
  triple_lockItem fun _ h => h

lemma keeps_set {k : K} {v : Val k} (h : ∀ db, P db → P (update db k v)) :
    Keeps P (set k v : TxProgram Val ε Unit) :=
  triple_set h

lemma keeps_failIf (p : Prop) [Decidable p] (e : ε) : Keeps P (failIf p e : TxProgram Val ε Unit) :=
  triple_failIf fun _ h _ => h

lemma keeps_orFail (e : ε) (a : Option α) : Keeps P (orFail e a : TxProgram Val ε α) :=
  triple_orFail fun _ _ h _ => h

lemma keeps_ofExcept (a : Except ε α) : Keeps P (ofExcept a : TxProgram Val ε α) :=
  triple_ofExcept fun _ _ h _ => h

lemma keeps_ite {p : Prop} [Decidable p] {x y : TxProgram Val ε α} (hx : Keeps P x)
    (hy : Keeps P y) : Keeps P (if p then x else y) := by
  split
  · exact hx
  · exact hy

end Keeps

end TxProgram

/-! ## Interleavings -/

/-- How far a transaction has come. -/
inductive TxPoint (Val : K → Type) (ε α : Type) : Type
  | running (p : TxProgram Val ε α) (ws : Pending Val)
  | finished (a : α)

variable [DecidableEq K]

/-- The items that a list of writes is about. -/
def Pending.keys (ws : Pending Val) : Set K := {k | ∃ w ∈ ws, w.1 = k}

/-- The statements of a transaction.  Its writes, whose items it has locked, take effect when it has
ended. -/
inductive TxStatement (H : Set (Store Val)) : TxPoint Val ε α → Store Val → Set K →
    TxPoint Val ε α → Store Val → Prop
  | select {next : Store Val → TxProgram Val ε α} {ws : Pending Val} {s r : Store Val} (hr : r ∈ H) :
      TxStatement H (.running (.select next) ws) s ∅ (.running (next (ws.apply r)) ws) s
  | lock {k : K} {next : Val k → TxProgram Val ε α} {ws : Pending Val} {s : Store Val} :
      TxStatement H (.running (.lock k next) ws) s {k} (.running (next (ws.apply s k)) ws) s
  | write {k : K} {v : Val k} {next : TxProgram Val ε α} {ws : Pending Val} {s : Store Val} :
      TxStatement H (.running (.write k v next) ws) s {k} (.running next (⟨k, v⟩ :: ws)) s
  | finish {a : α} {ws : Pending Val} {s : Store Val} :
      TxStatement H (.running (.done a) ws) s ws.keys (.finished a) (ws.apply s)

section Apply

variable {ws : Pending Val} {s t : Store Val}

/-- Items that are not written are as in the committed state. -/
lemma Pending.apply_of_notMem {k : K} (hk : k ∉ ws.keys) : ws.apply s k = s k := by
  induction ws with
  | nil => rfl
  | cons w ws ih =>
    have hne : k ≠ w.1 := fun h => hk ⟨w, List.mem_cons_self, h.symm⟩
    rw [Pending.apply, update_of_ne hne]
    exact ih fun ⟨w', hw', h⟩ => hk ⟨w', List.mem_cons_of_mem _ hw', h⟩

/-- What a transaction sees of an item depends on the item alone. -/
lemma Pending.apply_congr {k : K} (h : s k = t k) : ws.apply s k = ws.apply t k := by
  induction ws with
  | nil => exact h
  | cons w ws ih =>
    by_cases hk : k = w.1
    · subst hk
      simp [Pending.apply]
    · rw [Pending.apply, Pending.apply, update_of_ne hk, update_of_ne hk, ih]

/-- Written items do not depend on the committed state. -/
lemma Pending.apply_of_mem {k : K} (hk : k ∈ ws.keys) : ws.apply s k = ws.apply t k := by
  induction ws with
  | nil => obtain ⟨w, hw, -⟩ := hk; cases hw
  | cons w ws ih =>
    by_cases hkw : k = w.1
    · subst hkw
      simp [Pending.apply]
    · rw [Pending.apply, Pending.apply, update_of_ne hkw, update_of_ne hkw]
      obtain ⟨w', hw', rfl⟩ := hk
      exact ih ⟨w', (List.mem_cons.mp hw').resolve_left fun h => hkw (h ▸ rfl), rfl⟩

end Apply

/-- The transactions with the given programs, as a protocol of locking statements. -/
def txProtocol (init : Store Val → Prop) (start : TxProgram Val ε α → Prop) :
    LockProtocol (Store Val) K (TxPoint Val ε α) where
  init := init
  start x := ∃ p, start p ∧ x = .running p []
  exec := TxStatement
  exec_frame {_ _ s _ _ _} h k hk := by
    cases h with
    | select _ => rfl
    | lock => rfl
    | write => rfl
    | finish => exact Pending.apply_of_notMem hk
  exec_local {_ _ s _ _ _ t} h ht := by
    cases h with
    | select hr => rw [overlay_empty]; exact .select hr
    | @lock k next ws _ =>
      have hsame : overlay {k} s t = t :=
        (overlay_eq_iff.mpr ⟨fun k hk => (ht k hk).symm, fun _ _ => rfl⟩).symm
      have hread : ws.apply s k = ws.apply t k := Pending.apply_congr (ht k rfl)
      rw [hsame, hread]
      exact .lock
    | @write k v next ws _ =>
      have hsame : overlay {k} s t = t :=
        (overlay_eq_iff.mpr ⟨fun k hk => (ht k hk).symm, fun _ _ => rfl⟩).symm
      rw [hsame]
      exact .write
    | @finish a ws _ =>
      have hsame : overlay ws.keys (ws.apply s) t = ws.apply t := by
        refine (overlay_eq_iff.mpr ⟨fun k hk => ?_, fun k hk => ?_⟩).symm
        · exact Pending.apply_of_mem (s := t) (t := s) hk
        · exact Pending.apply_of_notMem (s := t) hk
      rw [hsame]
      exact .finish
  exec_mono hH h := by
    cases h with
    | select hr => exact .select (hH hr)
    | lock => exact .lock
    | write => exact .write
    | finish => exact .finish

variable {init : Store Val → Prop} {start : TxProgram Val ε α → Prop} {T : Type} [DecidableEq T]

/-- All interleavings of transactions with the given programs. -/
abbrev txSystem (T : Type) [DecidableEq T] (init : Store Val → Prop)
    (start : TxProgram Val ε α → Prop) :
    TransitionSystem (LockState (Store Val) K (TxPoint Val ε α) T) (T × LockAction (TxPoint Val ε α)) :=
  (txProtocol init start).system T

/-- What a transaction that runs alone has done when it has come to some point. -/
lemma exec_of_serialTx {H : Set (Store Val)} {p : TxProgram Val ε α} {s s' : Store Val}
    {x : TxPoint Val ε α} (h : (txProtocol init start).SerialTx H (.running p []) s x s') :
    match x with
    | .running p' ws => s' = s ∧ ∀ b ws', p'.Exec H s ws b ws' → p.Exec H s [] b ws'
    | .finished b => ∃ ws, p.Exec H s [] b ws ∧ s' = ws.apply s := by
  induction h with
  | nil => exact ⟨rfl, fun _ _ h => h⟩
  | snoc _ h ih =>
    cases h with
    | select hr =>
      obtain ⟨rfl, ih⟩ := ih
      exact ⟨rfl, fun b ws' h => ih b ws' ⟨_, hr, h⟩⟩
    | lock =>
      obtain ⟨rfl, ih⟩ := ih
      exact ⟨rfl, fun b ws' h => ih b ws' h⟩
    | write =>
      obtain ⟨rfl, ih⟩ := ih
      exact ⟨rfl, fun b ws' h => ih b ws' h⟩
    | finish =>
      obtain ⟨rfl, ih⟩ := ih
      exact ⟨_, ih _ _ ⟨rfl, rfl⟩, rfl⟩

/-- An invariant that every program keeps when it runs alone holds after transactions that ran one
after the other. -/
lemma serial_invariant {I : Set (Store Val) → Store Val → Prop} (hinit : ∀ s, init s → I {s} s)
    (hexec : ∀ H s p b ws, I H s → s ∈ H → start p → p.Exec H s [] b ws →
      I (insert (ws.apply s) H) (ws.apply s))
    {H : Set (Store Val)} {s : Store Val} (h : (txProtocol init start).Serial H s) : I H s := by
  induction h with
  | init hs => exact hinit _ hs
  | @tx H s s' x₀ x hs hp hrun ih =>
    obtain ⟨p, hp, rfl⟩ := hp
    have hdone := exec_of_serialTx hrun
    cases x with
    | running p' ws =>
      obtain ⟨rfl, -⟩ := hdone
      rwa [Set.insert_eq_of_mem hs.mem]
    | finished b =>
      obtain ⟨ws, hexec', rfl⟩ := hdone
      exact hexec H s p b ws ih hs.mem hp hexec'

/-- **The rule for committed states.**  An invariant that every program keeps when it runs alone,
with its unlocked reads answered by any earlier committed states, holds in every interleaving. -/
theorem txSystem_invariant {I : Set (Store Val) → Store Val → Prop}
    (hinit : ∀ s, init s → I {s} s)
    (hexec : ∀ H s p b ws, I H s → s ∈ H → start p → p.Exec H s [] b ws →
      I (insert (ws.apply s) H) (ws.apply s))
    {c : LockState (Store Val) K (TxPoint Val ε α) T} (hc : (txSystem T init start).Reachable c) :
    ∃ H, I H c.committed ∧ c.committed ∈ H := by
  obtain ⟨H, h⟩ := LockProtocol.serializable_of_reachable hc
  exact ⟨H, serial_invariant hinit hexec h.serial, h.serial.mem⟩

/-- **The rule for steps.**  A step leaves the committed state, or a program has run alone on it; and
an invariant as above holds of the state before. -/
theorem txSystem_exec {I : Set (Store Val) → Store Val → Prop} (hinit : ∀ s, init s → I {s} s)
    (hexec : ∀ H s p b ws, I H s → s ∈ H → start p → p.Exec H s [] b ws →
      I (insert (ws.apply s) H) (ws.apply s))
    {c c' : LockState (Store Val) K (TxPoint Val ε α) T} {a : T × LockAction (TxPoint Val ε α)}
    (hc : (txSystem T init start).Reachable c) (h : (txSystem T init start).step c a c') :
    ∃ H, I H c.committed ∧ c.committed ∈ H ∧ (c'.committed = c.committed ∨
      ∃ p b ws, start p ∧ p.Exec H c.committed [] b ws ∧ c'.committed = ws.apply c.committed) := by
  obtain ⟨H, hserial⟩ := LockProtocol.serializable_of_reachable hc
  refine ⟨H, serial_invariant hinit hexec hserial.serial, hserial.serial.mem, ?_⟩
  obtain ⟨t, a⟩ := a
  cases h with
  | begin _ _ => exact .inl rfl
  | statement _ _ _ => exact .inl rfl
  | rollback _ => exact .inl rfl
  | @commit x ht =>
    obtain ⟨x₀, ⟨p, hp, rfl⟩, halone⟩ := hserial.alone t x ht
    have hdone := exec_of_serialTx (halone c.committed fun k _ => rfl)
    split at hdone
    · exact .inl hdone.1
    · obtain ⟨ws, hexec', heq⟩ := hdone
      exact .inr ⟨p, _, ws, hp, hexec', heq⟩

/-- **The rule for one transaction.**  A step of a transaction leaves the committed state, or the
program that it was opened with has run alone on it. -/
theorem txSystem_transaction {I : Set (Store Val) → Store Val → Prop}
    (hinit : ∀ s, init s → I {s} s)
    (hexec : ∀ H s p b ws, I H s → s ∈ H → start p → p.Exec H s [] b ws →
      I (insert (ws.apply s) H) (ws.apply s))
    {c c₁ c₂ : LockState (Store Val) K (TxPoint Val ε α) T} {t : T} {p : TxProgram Val ε α}
    (hc : (txSystem T init start).Reachable c)
    (h : (txProtocol init start).TransactionStep t (.running p []) c c₁ c₂) :
    ∃ H, I H c₁.committed ∧ c₁.committed ∈ H ∧ (c₂.committed = c₁.committed ∨
      ∃ b ws, p.Exec H c₁.committed [] b ws ∧ c₂.committed = ws.apply c₁.committed) := by
  obtain ⟨H, hserial, x, hx, halone⟩ := LockProtocol.openFrom_of_transactionStep hc h
  refine ⟨H, serial_invariant hinit hexec hserial.serial, hserial.serial.mem, ?_⟩
  obtain ⟨c', as, a, -, -, -, hstep⟩ := h
  cases hstep with
  | begin _ _ => exact .inl rfl
  | statement _ _ _ => exact .inl rfl
  | rollback _ => exact .inl rfl
  | @commit y hy =>
    obtain rfl := Option.some.inj (hx.symm.trans hy)
    have hdone := exec_of_serialTx (halone c₁.committed fun k _ => rfl)
    split at hdone
    · exact .inl hdone.1
    · obtain ⟨ws, hexec', heq⟩ := hdone
      exact .inr ⟨_, ws, hexec', heq⟩

/-- The committed states before and after a step are consecutive states of such an invariant. -/
theorem txSystem_step {I : Set (Store Val) → Store Val → Prop} (hinit : ∀ s, init s → I {s} s)
    (hexec : ∀ H s p b ws, I H s → s ∈ H → start p → p.Exec H s [] b ws →
      I (insert (ws.apply s) H) (ws.apply s))
    {c c' : LockState (Store Val) K (TxPoint Val ε α) T} {a : T × LockAction (TxPoint Val ε α)}
    (hc : (txSystem T init start).Reachable c) (h : (txSystem T init start).step c a c') :
    ∃ H, I H c.committed ∧ c.committed ∈ H ∧ I (insert c'.committed H) c'.committed := by
  obtain ⟨H, hI, hmem, hstep⟩ := txSystem_exec hinit hexec hc h
  refine ⟨H, hI, hmem, ?_⟩
  rcases hstep with heq | ⟨p, b, ws, hp, hrun, heq⟩
  · rwa [heq, Set.insert_eq_of_mem hmem]
  · rw [heq]
    exact hexec H _ p b ws hI hmem hp hrun

/-! ## Serial runs -/

/-- The rest of a program that runs alone. -/
lemma serialTx_of_exec {H : Set (Store Val)} {x₀ : TxPoint Val ε α} {s : Store Val}
    {p : TxProgram Val ε α} {ws ws' : Pending Val} {b : α}
    (hrun : (txProtocol init start).SerialTx H x₀ s (.running p ws) s) (h : p.Exec H s ws b ws') :
    (txProtocol init start).SerialTx H x₀ s (.finished b) (ws'.apply s) := by
  induction p generalizing ws with
  | done a =>
    obtain ⟨rfl, rfl⟩ := h
    exact hrun.snoc .finish
  | fail e => exact absurd h (TxProgram.exec_fail e b)
  | select next ih =>
    obtain ⟨r, hr, h⟩ := h
    exact ih _ (hrun.snoc (.select hr)) h
  | lock k next ih => exact ih _ (hrun.snoc .lock) h
  | write k v next ih => exact ih (hrun.snoc .write) h

/-- Transactions one after the other; one that fails changes nothing. -/
def serialRun : List (TxProgram Val ε α) → Store Val → Store Val
  | [], s => s
  | p :: ps, s =>
    match p.run s [] with
    | .ok (_, ws) => serialRun ps (ws.apply s)
    | .error _ => serialRun ps s

/-- Before each of them the committed state has `C`. -/
def SerialSafe (C : Store Val → Prop) : List (TxProgram Val ε α) → Store Val → Prop
  | [], _ => True
  | p :: ps, s => C s ∧
    match p.run s [] with
    | .ok (_, ws) => SerialSafe C ps (ws.apply s)
    | .error _ => SerialSafe C ps s

/-- It is enough to look at the initial segments. -/
lemma serialSafe_of_take {C : Store Val → Prop} {ps : List (TxProgram Val ε α)} {s : Store Val}
    (h : ∀ n < ps.length, C (serialRun (ps.take n) s)) : SerialSafe C ps s := by
  induction ps generalizing s with
  | nil => trivial
  | cons p ps ih =>
    refine ⟨h 0 (Nat.succ_pos _), ?_⟩
    have hrest : ∀ n < ps.length, C (serialRun (p :: ps.take n) s) := fun n hn =>
      h (n + 1) (Nat.succ_lt_succ hn)
    cases hrun : p.run s [] with
    | ok done =>
      simp only [serialRun, hrun] at hrest
      exact ih hrest
    | error e =>
      simp only [serialRun, hrun] at hrest
      exact ih hrest

/-- After a transaction that ran alone. -/
theorem reachable_exec (t : T) {p : TxProgram Val ε α} {s : Store Val} {b : α} {ws : Pending Val}
    (hc : (txSystem T init start).Reachable ⟨s, fun _ => none⟩) (hp : start p)
    (hrun : p.Exec {s} s [] b ws) : (txSystem T init start).Reachable ⟨ws.apply s, fun _ => none⟩ :=
  LockProtocol.reachable_of_serialTx t hc ⟨p, hp, rfl⟩ (serialTx_of_exec .nil hrun)

/-- After such transactions. -/
theorem reachable_serialRun_restrict {C : Store Val → Prop} (t : T)
    {ps : List (TxProgram Val ε α)} {s : Store Val}
    (hc : ((txSystem T init start).restrict fun c _ => C c.committed).Reachable ⟨s, fun _ => none⟩)
    (hps : ∀ p ∈ ps, start p) (hsafe : SerialSafe C ps s) :
    ((txSystem T init start).restrict fun c _ => C c.committed).Reachable
      ⟨serialRun ps s, fun _ => none⟩ := by
  induction ps generalizing s with
  | nil => exact hc
  | cons p ps ih =>
    have hrest : ∀ q ∈ ps, start q := fun q hq => hps q (List.mem_cons_of_mem p hq)
    obtain ⟨hC, hsafe⟩ := hsafe
    unfold serialRun
    split at hsafe
    · next b ws h =>
      exact ih (LockProtocol.reachable_of_serialTx_restrict t hC hc ⟨p, hps p List.mem_cons_self, rfl⟩
        (serialTx_of_exec .nil (TxProgram.exec_of_run (Set.mem_singleton s) h))) hrest hsafe
    · exact ih hc hrest hsafe

/-- Every serial run is safe in this sense. -/
lemma serialSafe_true (ps : List (TxProgram Val ε α)) (s : Store Val) :
    SerialSafe (fun _ => True) ps s := by
  induction ps generalizing s with
  | nil => trivial
  | cons p ps ih =>
    refine ⟨trivial, ?_⟩
    split
    · exact ih _
    · exact ih _

/-- After transactions that ran one after the other. -/
theorem reachable_serialRun (t : T) {ps : List (TxProgram Val ε α)} {s : Store Val}
    (hc : (txSystem T init start).Reachable ⟨s, fun _ => none⟩) (hps : ∀ p ∈ ps, start p) :
    (txSystem T init start).Reachable ⟨serialRun ps s, fun _ => none⟩ :=
  (reachable_serialRun_restrict t hc.restrict_true hps (serialSafe_true ps s)).of_restrict

/-- The items that they write. -/
def serialKeys : List (TxProgram Val ε α) → Store Val → List K
  | [], _ => []
  | p :: ps, s =>
    match p.run s [] with
    | .ok (_, ws) => ws.map Sigma.fst ++ serialKeys ps (ws.apply s)
    | .error _ => serialKeys ps s

/-- The other items stay as they are. -/
lemma serialRun_of_notMem {ps : List (TxProgram Val ε α)} {s : Store Val} {k : K}
    (hk : k ∉ serialKeys ps s) : serialRun ps s k = s k := by
  induction ps generalizing s with
  | nil => rfl
  | cons p ps ih =>
    cases h : p.run s [] with
    | ok done =>
      simp only [serialKeys, h, List.mem_append, List.mem_map, not_or, not_exists, not_and] at hk
      simp only [serialRun, h]
      rw [ih hk.2]
      exact Pending.apply_of_notMem fun ⟨w, hw, heq⟩ => hk.1 w hw heq
    | error e =>
      simp only [serialKeys, h] at hk
      simp only [serialRun, h]
      exact ih hk

end GovAI
