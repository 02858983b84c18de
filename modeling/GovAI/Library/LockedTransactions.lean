import GovAI.Library.TransitionSystem
import Mathlib

/-!
# Transactions under two-phase locking

A database is a store of items.  A statement of a transaction locks the items it touches (its
*footprint*) and keeps them to the end of the transaction; besides, it may look at committed states
without locking anything.  Such a protocol is serializable in the following sense: at every moment
the committed state is the result of executing some transactions one after the other, and what an
open transaction sees and has written is what it would see and write if it ran alone now.
`LockProtocol.invariant` is the rule that follows: properties of stores and program points are
proved for statements that run alone and hold in every interleaving, with rollbacks and with
commits at any point of a transaction.
-/

namespace GovAI

/-! ## Stores of items -/

/-- A state that consists of independent items. -/
class ItemStore (S : Type*) (K : outParam (Type*)) where
  /-- The type of each item. -/
  Val : K → Type*
  /-- A state is the family of its items. -/
  items : S ≃ ∀ k, Val k

section Store

variable {S K : Type*} [ItemStore S K]

/-- One item of a state. -/
def ItemStore.item (s : S) (k : K) : ItemStore.Val (S := S) k := ItemStore.items s k

open ItemStore

/-- States with the same items are equal. -/
theorem ItemStore.ext_item {s t : S} (h : ∀ k, item s k = item t k) : s = t :=
  items.injective (funext h)

/-- Two states agree on a set of items. -/
def AgreeOn (L : Set K) (s t : S) : Prop := ∀ k ∈ L, item s k = item t k

open Classical in
/-- The state with the items of `r` on `L` and those of `s` elsewhere. -/
noncomputable def overlay (L : Set K) (r s : S) : S :=
  items.symm fun k => if k ∈ L then item r k else item s k

open Classical in
lemma item_overlay (L : Set K) (r s : S) (k : K) :
    item (overlay L r s) k = if k ∈ L then item r k else item s k := by
  simp [overlay, item]

/-- On its set an overlay has the items of the upper state. -/
lemma item_overlay_of_mem {L : Set K} {k : K} (hk : k ∈ L) (r s : S) :
    item (overlay L r s) k = item r k := by
  rw [item_overlay, if_pos hk]

/-- Off its set an overlay has the items of the lower state. -/
lemma item_overlay_of_notMem {L : Set K} {k : K} (hk : k ∉ L) (r s : S) :
    item (overlay L r s) k = item s k := by
  rw [item_overlay, if_neg hk]

/-- Nothing is laid over the empty set. -/
lemma overlay_empty (r s : S) : overlay ∅ r s = s :=
  ext_item fun k => item_overlay_of_notMem (Set.notMem_empty k) r s

/-- A state that differs from `s` on `L` only, carried over to a state that agrees with `s` on
`L`. -/
lemma overlay_eq_iff {L : Set K} {r t u : S} :
    u = overlay L r t ↔ AgreeOn L u r ∧ ∀ k ∉ L, item u k = item t k := by
  constructor
  · rintro rfl
    exact ⟨fun k hk => item_overlay_of_mem hk r t, fun k hk => item_overlay_of_notMem hk r t⟩
  · rintro ⟨hin, hout⟩
    refine ext_item fun k => ?_
    by_cases hk : k ∈ L
    · rw [hin k hk, item_overlay_of_mem hk]
    · rw [hout k hk, item_overlay_of_notMem hk]

/-- An update that changes items of `L` only, and in a way that depends on items of `L` only. -/
structure LocalUpdate (L : Set K) (f : S → S) : Prop where
  frame : ∀ s, ∀ k ∉ L, item (f s) k = item s k
  congr : ∀ s t, AgreeOn L s t → AgreeOn L (f s) (f t)

/-- Doing nothing is local. -/
lemma LocalUpdate.id (L : Set K) : LocalUpdate L (fun s : S => s) where
  frame _ _ _ := rfl
  congr _ _ h := h

/-- A local update of a state, carried over to a state that agrees with it. -/
lemma LocalUpdate.eq_overlay {L : Set K} {f : S → S} (hf : LocalUpdate L f) {s t : S}
    (h : AgreeOn L s t) : f t = overlay L (f s) t :=
  overlay_eq_iff.mpr ⟨fun k hk => (hf.congr s t h k hk).symm, hf.frame t⟩

end Store

/-! ## Protocols -/

/-- What the transactions of a database may do.  `exec H p s L p' s'`: at program point `p` and in
state `s` a statement that looks at committed states of `H` and locks `L` may lead to `p'` and
`s'`. -/
structure LockProtocol (S K P : Type*) [ItemStore S K] where
  /-- The states the database may start in. -/
  init : S → Prop
  /-- The program points a transaction may start at. -/
  start : P → Prop
  /-- The statements. -/
  exec : Set S → P → S → Set K → P → S → Prop
  /-- A statement changes items of its footprint only. -/
  exec_frame : ∀ {H p s L p' s'}, exec H p s L p' s' → ∀ k ∉ L, ItemStore.item s' k =
    ItemStore.item s k
  /-- A statement depends on the items of its footprint only. -/
  exec_local : ∀ {H p s L p' s' t}, exec H p s L p' s' → AgreeOn L s t →
    exec H p t L p' (overlay L s' t)
  /-- The more committed states there are, the more may be seen. -/
  exec_mono : ∀ {H H' p s L p' s'}, H ⊆ H' → exec H p s L p' s' → exec H' p s L p' s'

/-- An open transaction: where it is, the items it has locked and what it has made of them. -/
structure OpenTx (S K P : Type*) where
  point : P
  held : Set K
  written : S

/-- A database with its open transactions. -/
structure LockState (S K P T : Type*) where
  committed : S
  tx : T → Option (OpenTx S K P)

/-- What an open transaction sees: the committed state under its own writes. -/
noncomputable def OpenTx.view {S K P : Type*} [ItemStore S K] (x : OpenTx S K P) (committed : S) :
    S :=
  overlay x.held x.written committed

/-- The steps of a transaction. -/
inductive LockAction (P : Type*) where
  | begin (p : P)
  | statement
  | commit
  | rollback

namespace LockProtocol

open ItemStore Function

variable {S K P : Type*} [ItemStore S K] (M : LockProtocol S K P)

/-! ## The concurrent system -/

section Concurrent

variable {T : Type*} [DecidableEq T]

/-- One step of transaction `t`.  A statement waits while another transaction holds one of the
items it locks, and the committed state it may look at is the present one. -/
inductive Step (c : LockState S K P T) (t : T) : LockAction P → LockState S K P T → Prop
  | begin {p : P} (hp : M.start p) (ht : c.tx t = none) :
      Step c t (.begin p) { c with tx := update c.tx t (some ⟨p, ∅, c.committed⟩) }
  | statement {x : OpenTx S K P} {L : Set K} {p' : P} {s' : S} (ht : c.tx t = some x)
      (hexec : M.exec {c.committed} x.point (x.view c.committed) L p' s')
      (hfree : ∀ u y, u ≠ t → c.tx u = some y → Disjoint L y.held) :
      Step c t .statement { c with tx := update c.tx t (some ⟨p', x.held ∪ L, s'⟩) }
  | commit {x : OpenTx S K P} (ht : c.tx t = some x) :
      Step c t .commit ⟨x.view c.committed, update c.tx t none⟩
  | rollback {x : OpenTx S K P} (ht : c.tx t = some x) :
      Step c t .rollback { c with tx := update c.tx t none }

variable (T)

/-- All interleavings of the transactions of a protocol. -/
def system : TransitionSystem (LockState S K P T) (T × LockAction P) where
  init c := M.init c.committed ∧ ∀ t, c.tx t = none
  step c a c' := M.Step c a.1 a.2 c'

end Concurrent

/-! ## The serial system -/

/-- A transaction that runs alone, from its start to some program point. -/
inductive SerialTx (H : Set S) (p₀ : P) (s₀ : S) : P → S → Prop
  | nil : SerialTx H p₀ s₀ p₀ s₀
  | snoc {p p' : P} {s s' : S} {L : Set K} (hrun : SerialTx H p₀ s₀ p s)
      (h : M.exec H p s L p' s') : SerialTx H p₀ s₀ p' s'

/-- The states the database goes through when transactions run one after the other, with the set of
all committed states so far. -/
inductive Serial : Set S → S → Prop
  | init {s : S} (hs : M.init s) : Serial {s} s
  | tx {H : Set S} {s s' : S} {p₀ p : P} (h : Serial H s) (hp : M.start p₀)
      (hrun : M.SerialTx H p₀ s p s') : Serial (insert s' H) s'

variable {M}

/-- A transaction may run alone in the same way when more committed states are known. -/
theorem SerialTx.mono {H H' : Set S} {p₀ p : P} {s₀ s : S} (h : M.SerialTx H p₀ s₀ p s)
    (hH : H ⊆ H') : M.SerialTx H' p₀ s₀ p s := by
  induction h with
  | nil => exact .nil
  | snoc _ hexec ih => exact ih.snoc (M.exec_mono hH hexec)

/-- The present state is one of the committed states. -/
theorem Serial.mem {H : Set S} {s : S} (h : M.Serial H s) : s ∈ H := by
  cases h with
  | init _ => exact Set.mem_singleton _
  | tx _ _ _ => exact Set.mem_insert _ _

/-! ## A transaction among others -/

/-- An open transaction might as well have run alone from `p₀`, in any state that has the items it
holds. -/
def AloneFrom (M : LockProtocol S K P) (H : Set S) (committed : S) (p₀ : P) (x : OpenTx S K P) :
    Prop :=
  ∀ s, AgreeOn x.held committed s → M.SerialTx H p₀ s x.point (overlay x.held x.written s)

/-- Opening a transaction. -/
lemma aloneFrom_begin (H : Set S) (committed : S) (p₀ : P) :
    M.AloneFrom H committed p₀ ⟨p₀, ∅, committed⟩ := by
  intro s _
  rw [overlay_empty]
  exact .nil

/-- A statement: it could as well be executed in any state that has the items its transaction holds
now. -/
lemma AloneFrom.statement {H : Set S} {committed : S} {p₀ p' : P} {x : OpenTx S K P} {L : Set K}
    {s' : S} (h : M.AloneFrom H committed p₀ x) (hmem : committed ∈ H)
    (hexec : M.exec {committed} x.point (x.view committed) L p' s') :
    M.AloneFrom H committed p₀ ⟨p', x.held ∪ L, s'⟩ := by
  intro s hs
  have hrun := h s fun k hk => hs k (.inl hk)
  -- the footprint looks the same over `s` as over the committed state
  have hagree : AgreeOn L (x.view committed) (overlay x.held x.written s) := by
    intro k hk
    by_cases hheld : k ∈ x.held
    · rw [OpenTx.view, item_overlay_of_mem hheld, item_overlay_of_mem hheld]
    · rw [OpenTx.view, item_overlay_of_notMem hheld, item_overlay_of_notMem hheld]
      exact hs k (.inr hk)
  have hexec' := M.exec_mono (Set.singleton_subset_iff.mpr hmem) (M.exec_local hexec hagree)
  have hsame : overlay L s' (overlay x.held x.written s) = overlay (x.held ∪ L) s' s := by
    refine overlay_eq_iff.mpr ⟨fun k hk => ?_, fun k hk => ?_⟩
    · by_cases hL : k ∈ L
      · exact item_overlay_of_mem hL ..
      · have hheld : k ∈ x.held := hk.resolve_right hL
        rw [item_overlay_of_notMem hL, item_overlay_of_mem hheld, M.exec_frame hexec k hL,
          OpenTx.view, item_overlay_of_mem hheld]
    · rw [Set.mem_union, not_or] at hk
      rw [item_overlay_of_notMem hk.2, item_overlay_of_notMem hk.1]
  rw [← hsame]
  exact hrun.snoc hexec'

/-- Another transaction commits, which holds other items. -/
lemma AloneFrom.commit {H : Set S} {committed : S} {p₀ : P} {x y : OpenTx S K P}
    (h : M.AloneFrom H committed p₀ y) (hdisjoint : Disjoint y.held x.held) :
    M.AloneFrom (insert (x.view committed) H) (x.view committed) p₀ y := by
  refine fun s hs => (h s fun k hk => ?_).mono (Set.subset_insert _ _)
  have hk' : k ∉ x.held := fun hx => Set.disjoint_left.mp hdisjoint hk hx
  rw [← hs k hk, OpenTx.view, item_overlay_of_notMem hk']

/-! ## Serializability -/

section Serializability

variable {T : Type*} [DecidableEq T]

/-- What holds of every interleaving, with `H` the committed states so far. -/
structure Serializable (M : LockProtocol S K P) (H : Set S) (c : LockState S K P T) : Prop where
  /-- The committed state is the result of transactions that ran one after the other. -/
  serial : M.Serial H c.committed
  /-- Different transactions hold different items. -/
  disjoint : ∀ t u x y, t ≠ u → c.tx t = some x → c.tx u = some y → Disjoint x.held y.held
  /-- An open transaction might as well have run alone from any state that has the items it
  holds. -/
  alone : ∀ t x, c.tx t = some x → ∃ p₀, M.start p₀ ∧
    ∀ s, AgreeOn x.held c.committed s → M.SerialTx H p₀ s x.point (overlay x.held x.written s)

/-- Opening a transaction. -/
lemma Serializable.begin {H : Set S} {c : LockState S K P T} (h : Serializable M H c) {t : T}
    {p : P} (hp : M.start p) :
    Serializable M H { c with tx := update c.tx t (some ⟨p, ∅, c.committed⟩) } where
  serial := h.serial
  disjoint u v x y huv hx hy := by
    by_cases hu : u = t
    · subst hu
      simp only [update_self, Option.some.injEq] at hx
      subst hx
      exact Set.empty_disjoint _
    · by_cases hv : v = t
      · subst hv
        simp only [update_self, Option.some.injEq] at hy
        subst hy
        exact Set.disjoint_empty _
      · simp only [update_of_ne hu] at hx
        simp only [update_of_ne hv] at hy
        exact h.disjoint u v x y huv hx hy
  alone u x hx := by
    by_cases hu : u = t
    · subst hu
      simp only [update_self, Option.some.injEq] at hx
      subst hx
      refine ⟨p, hp, fun s _ => ?_⟩
      rw [overlay_empty]
      exact .nil
    · simp only [update_of_ne hu] at hx
      exact h.alone u x hx

/-- A statement that has taken its locks: it could as well be executed in any state that has the
items its transaction holds now. -/
lemma Serializable.statement {H : Set S} {c : LockState S K P T} (h : Serializable M H c) {t : T}
    {x : OpenTx S K P} {L : Set K} {p' : P} {s' : S} (ht : c.tx t = some x)
    (hexec : M.exec {c.committed} x.point (x.view c.committed) L p' s')
    (hfree : ∀ u y, u ≠ t → c.tx u = some y → Disjoint L y.held) :
    Serializable M H { c with tx := update c.tx t (some ⟨p', x.held ∪ L, s'⟩) } where
  serial := h.serial
  disjoint u v y z huv hy hz := by
    by_cases hu : u = t
    · subst hu
      simp only [update_self, Option.some.injEq] at hy
      subst hy
      simp only [update_of_ne (Ne.symm huv)] at hz
      exact (h.disjoint u v x z huv ht hz).union_left (hfree v z (Ne.symm huv) hz)
    · by_cases hv : v = t
      · subst hv
        simp only [update_self, Option.some.injEq] at hz
        subst hz
        simp only [update_of_ne hu] at hy
        exact (h.disjoint u v y x huv hy ht).union_right (hfree u y huv hy).symm
      · simp only [update_of_ne hu] at hy
        simp only [update_of_ne hv] at hz
        exact h.disjoint u v y z huv hy hz
  alone u y hy := by
    by_cases hu : u = t
    · subst hu
      simp only [update_self, Option.some.injEq] at hy
      subst hy
      obtain ⟨p₀, hp₀, halone⟩ := h.alone u x ht
      exact ⟨p₀, hp₀, AloneFrom.statement halone h.serial.mem hexec⟩
    · simp only [update_of_ne hu] at hy
      exact h.alone u y hy

omit [ItemStore S K] in
/-- The end of a transaction leaves the other ones. -/
lemma disjoint_update_none {c : LockState S K P T}
    (h : ∀ t u x y, t ≠ u → c.tx t = some x → c.tx u = some y → Disjoint x.held y.held) (t : T)
    {u v : T} {x y : OpenTx S K P} (huv : u ≠ v) (hx : update c.tx t none u = some x)
    (hy : update c.tx t none v = some y) : Disjoint x.held y.held := by
  have hu : u ≠ t := by rintro rfl; simp at hx
  have hv : v ≠ t := by rintro rfl; simp at hy
  rw [update_of_ne hu] at hx
  rw [update_of_ne hv] at hy
  exact h u v x y huv hx hy

/-- Committing, at whatever point: the transaction runs alone at the moment of the commit. -/
lemma Serializable.commit {H : Set S} {c : LockState S K P T} (h : Serializable M H c) {t : T}
    {x : OpenTx S K P} (ht : c.tx t = some x) :
    Serializable M (insert (x.view c.committed) H)
      ⟨x.view c.committed, update c.tx t none⟩ where
  serial := by
    obtain ⟨p₀, hp₀, halone⟩ := h.alone t x ht
    exact .tx h.serial hp₀ (halone c.committed fun k _ => rfl)
  disjoint _ _ _ _ huv hy hz := disjoint_update_none h.disjoint t huv hy hz
  alone u y hy := by
    have hu : u ≠ t := by rintro rfl; simp at hy
    simp only [update_of_ne hu] at hy
    obtain ⟨p₀, hp₀, halone⟩ := h.alone u y hy
    exact ⟨p₀, hp₀, AloneFrom.commit halone (h.disjoint u t y x hu hy ht)⟩

/-- Rolling back. -/
lemma Serializable.rollback {H : Set S} {c : LockState S K P T} (h : Serializable M H c) (t : T) :
    Serializable M H { c with tx := update c.tx t none } where
  serial := h.serial
  disjoint _ _ _ _ huv hy hz := disjoint_update_none h.disjoint t huv hy hz
  alone u y hy := by
    have hu : u ≠ t := by rintro rfl; simp at hy
    simp only [update_of_ne hu] at hy
    exact h.alone u y hy

/-- **Serializability.** -/
theorem serializable_of_reachable {c : LockState S K P T} (hc : (M.system T).Reachable c) :
    ∃ H, Serializable M H c := by
  refine hc.invariant (I := fun c => ∃ H, Serializable M H c) (fun c hc => ?_) fun c a c' _ ih hstep => ?_
  · exact ⟨{c.committed}, .init hc.1, fun t _ x _ _ hx _ => by simp [hc.2 t] at hx,
      fun t x hx => by simp [hc.2 t] at hx⟩
  · obtain ⟨H, h⟩ := ih
    obtain ⟨t, a⟩ := a
    cases hstep with
    | begin hp _ => exact ⟨H, h.begin hp⟩
    | statement ht hexec hfree => exact ⟨H, h.statement ht hexec hfree⟩
    | commit ht => exact ⟨_, h.commit ht⟩
    | rollback _ => exact ⟨H, h.rollback t⟩

/-! ## One transaction of a run -/

/-- A step from `c₁` to `c₂` of transaction `t`, which was opened in `c` with `p₀`. -/
def TransactionStep (M : LockProtocol S K P) (t : T) (p₀ : P) (c c₁ c₂ : LockState S K P T) :
    Prop :=
  ∃ c' as a, (M.system T).step c (t, .begin p₀) c' ∧ (M.system T).Run c' as c₁ ∧
    (∀ b ∈ as, b.1 = t → b.2 = .statement) ∧ (M.system T).step c₁ (t, a) c₂

/-- Transaction `t` is open, and might as well have run alone from `p₀`. -/
def OpenFrom (M : LockProtocol S K P) (H : Set S) (c : LockState S K P T) (t : T) (p₀ : P) : Prop :=
  Serializable M H c ∧ ∃ x, c.tx t = some x ∧ M.AloneFrom H c.committed p₀ x

/-- It stays so whatever the other transactions do. -/
lemma OpenFrom.step {H : Set S} {c c' : LockState S K P T} {t : T} {p₀ : P}
    {a : T × LockAction P} (h : OpenFrom M H c t p₀) (hstep : (M.system T).step c a c')
    (ha : a.1 = t → a.2 = .statement) : ∃ H', OpenFrom M H' c' t p₀ := by
  obtain ⟨hser, x, hx, halone⟩ := h
  obtain ⟨u, a⟩ := a
  cases hstep with
  | begin hp hu =>
    have hne : t ≠ u := by
      rintro rfl
      cases ha rfl
    exact ⟨H, hser.begin hp, x, (update_of_ne hne ..).trans hx, halone⟩
  | @statement y L p' s' hy hexec hfree =>
    refine ⟨H, hser.statement hy hexec hfree, ?_⟩
    by_cases hu : t = u
    · subst hu
      obtain rfl := Option.some.inj (hx.symm.trans hy)
      exact ⟨_, update_self .., halone.statement hser.serial.mem hexec⟩
    · exact ⟨x, (update_of_ne hu ..).trans hx, halone⟩
  | @commit y hy =>
    have hne : t ≠ u := by
      rintro rfl
      cases ha rfl
    exact ⟨_, hser.commit hy, x, (update_of_ne hne ..).trans hx,
      halone.commit (hser.disjoint t u x y hne hx hy)⟩
  | rollback hy =>
    have hne : t ≠ u := by
      rintro rfl
      cases ha rfl
    exact ⟨H, hser.rollback u, x, (update_of_ne hne ..).trans hx, halone⟩

/-- Before each of its steps a transaction has come to its point from the point it was opened at. -/
theorem openFrom_of_transactionStep {t : T} {p₀ : P} {c c₁ c₂ : LockState S K P T}
    (hc : (M.system T).Reachable c) (h : M.TransactionStep t p₀ c c₁ c₂) :
    ∃ H, OpenFrom M H c₁ t p₀ := by
  obtain ⟨c', as, a, hbegin, hrun, has, -⟩ := h
  have hopen : ∃ H, OpenFrom M H c' t p₀ := by
    obtain ⟨H, hser⟩ := serializable_of_reachable hc
    cases hbegin with
    | begin hp ht =>
      exact ⟨H, hser.begin hp, _, update_self .., aloneFrom_begin H c.committed p₀⟩
  clear hbegin hc
  induction hrun with
  | nil => exact hopen
  | cons hstep _ ih =>
    obtain ⟨H, hopen⟩ := hopen
    refine ih (fun b hb => has b (List.mem_cons_of_mem _ hb)) ?_
    exact hopen.step hstep (has _ List.mem_cons_self)

/-- **The invariant rule.**  `I` is proved of the states between transactions and `J` of what a
transaction that runs alone sees at each program point; then `I` holds of the committed state in
every interleaving, and `J` of every open transaction's view. -/
theorem invariant {I : Set S → S → Prop} {J : Set S → P → S → Prop}
    (hinit : ∀ s, M.init s → I {s} s)
    (hstart : ∀ H s p, I H s → M.start p → J H p s)
    (hexec : ∀ H p s L p' s', J H p s → M.exec H p s L p' s' → J H p' s')
    (hcommit : ∀ H p s, J H p s → I (insert s H) s) {c : LockState S K P T}
    (hc : (M.system T).Reachable c) :
    ∃ H, I H c.committed ∧ ∀ t x, c.tx t = some x → J H x.point (x.view c.committed) := by
  have htx : ∀ {H : Set S} {p₀ p : P} {s s' : S}, I H s → M.start p₀ →
      M.SerialTx H p₀ s p s' → J H p s' := by
    intro H p₀ p s s' hI hp₀ hrun
    induction hrun with
    | nil => exact hstart H s p₀ hI hp₀
    | snoc _ h ih => exact hexec _ _ _ _ _ _ ih h
  have hserial : ∀ {H : Set S} {s : S}, M.Serial H s → I H s := by
    intro H s hs
    induction hs with
    | init hs => exact hinit _ hs
    | tx _ hp₀ hrun ih => exact hcommit _ _ _ (htx ih hp₀ hrun)
  obtain ⟨H, h⟩ := serializable_of_reachable hc
  refine ⟨H, hserial h.serial, fun t x hx => ?_⟩
  obtain ⟨p₀, hp₀, halone⟩ := h.alone t x hx
  exact htx (hserial h.serial) hp₀ (halone c.committed fun k _ => rfl)

/-- A transaction that runs alone is a run of the system, also when steps are only taken under a
condition that holds while it runs and when it commits at its last point. -/
theorem run_of_serialTx_where {D : LockState S K P T → T × LockAction P → Prop} (t : T)
    {s s' : S} {p₀ p : P}
    (hD : ∀ c a, c.committed = s →
      (a.2 = .commit → ∀ x, c.tx a.1 = some x → x.point = p) → D c a)
    (hp : M.start p₀) (hrun : M.SerialTx {s} p₀ s p s') :
    ∃ as, ((M.system T).restrict D).Run ⟨s, fun _ => none⟩ as ⟨s', fun _ => none⟩ := by
  have hopen : ∀ {q : P} {r : S}, M.SerialTx {s} p₀ s q r →
      ∃ x : OpenTx S K P, x.point = q ∧ x.view s = r ∧
        ∃ as, ((M.system T).restrict D).Run ⟨s, fun _ => none⟩ as
          ⟨s, update (fun _ => none) t (some x)⟩ := by
    intro q r hrun
    induction hrun with
    | nil =>
      have hbegin : ((M.system T).restrict D).step ⟨s, fun _ => none⟩ (t, LockAction.begin p₀)
          ⟨s, update (fun _ => none) t (some ⟨p₀, ∅, s⟩)⟩ := ⟨hD _ _ rfl (by simp), .begin hp rfl⟩
      exact ⟨⟨p₀, ∅, s⟩, rfl, overlay_empty _ _, _, .single hbegin⟩
    | @snoc p p' s₁ s₂ L _ hexec ih =>
      obtain ⟨x, rfl, rfl, as, hreach⟩ := ih
      refine ⟨⟨p', x.held ∪ L, s₂⟩, rfl, ?_, ?_⟩
      · refine (overlay_eq_iff.mpr ⟨fun k _ => rfl, fun k hk => ?_⟩).symm
        rw [Set.mem_union, not_or] at hk
        rw [M.exec_frame hexec k hk.2, OpenTx.view, item_overlay_of_notMem hk.1]
      · have hstep := Step.statement (c := ⟨s, update (fun _ => none) t (some x)⟩)
          (update_self t (some x) fun _ => none) hexec
          fun u y hu hy => by simp [update_of_ne hu] at hy
        simp only [update_idem] at hstep
        have hstatement : ((M.system T).restrict D).step ⟨s, update (fun _ => none) t (some x)⟩
            (t, LockAction.statement) ⟨s, update (fun _ => none) t (some ⟨p', x.held ∪ L, s₂⟩)⟩ :=
          ⟨hD _ _ rfl (by simp), hstep⟩
        exact ⟨_, hreach.append (.single hstatement)⟩
  obtain ⟨x, hpoint, rfl, as, hreach⟩ := hopen hrun
  have hstep := Step.commit (M := M) (c := ⟨s, update (fun _ => none) t (some x)⟩)
    (update_self t (some x) fun _ => none)
  simp only [update_idem] at hstep
  have hnone : update (fun _ : T => (none : Option (OpenTx S K P))) t none = fun _ => none :=
    update_eq_self t _
  rw [hnone] at hstep
  have hcommit : ((M.system T).restrict D).step ⟨s, update (fun _ => none) t (some x)⟩
      (t, LockAction.commit) ⟨x.view s, fun _ => none⟩ := by
    refine ⟨hD _ _ rfl fun _ y hy => ?_, hstep⟩
    simp only [update_self, Option.some.injEq] at hy
    rw [← hy, hpoint]
  exact ⟨_, hreach.append (.single hcommit)⟩

/-- A transaction that runs alone is one of the interleavings, also when steps are only taken in
committed states with `C`. -/
theorem reachable_of_serialTx_restrict {C : S → Prop} (t : T) {s s' : S} {p₀ p : P} (hC : C s)
    (hc : ((M.system T).restrict fun c _ => C c.committed).Reachable ⟨s, fun _ => none⟩)
    (hp : M.start p₀) (hrun : M.SerialTx {s} p₀ s p s') :
    ((M.system T).restrict fun c _ => C c.committed).Reachable ⟨s', fun _ => none⟩ := by
  obtain ⟨as, hrun'⟩ := run_of_serialTx_where (D := fun c _ => C c.committed) t
    (fun c a hcommitted _ => by rwa [hcommitted]) hp hrun
  exact hc.run hrun'

/-- A transaction that runs alone is one of the interleavings. -/
theorem reachable_of_serialTx (t : T) {s s' : S} {p₀ p : P}
    (hc : (M.system T).Reachable ⟨s, fun _ => none⟩) (hp : M.start p₀)
    (hrun : M.SerialTx {s} p₀ s p s') : (M.system T).Reachable ⟨s', fun _ => none⟩ :=
  (reachable_of_serialTx_restrict (C := fun _ => True) t trivial hc.restrict_true hp
    hrun).of_restrict

/-- An open transaction that holds nothing may run to its end while the others hold nothing. -/
theorem reachable_finish {t : T} {c : LockState S K P T} {x : OpenTx S K P} {p : P} {s : S}
    (hc : (M.system T).Reachable c) (ht : c.tx t = some x) (hx : x.held = ∅)
    (hothers : ∀ u y, u ≠ t → c.tx u = some y → y.held = ∅)
    (hrun : M.SerialTx {c.committed} x.point c.committed p s) :
    (M.system T).Reachable ⟨s, update c.tx t none⟩ := by
  have hopen : ∃ y : OpenTx S K P, y.point = p ∧ y.view c.committed = s ∧
      (M.system T).Reachable ⟨c.committed, update c.tx t (some y)⟩ := by
    induction hrun with
    | nil =>
      refine ⟨x, rfl, ?_, ?_⟩
      · rw [OpenTx.view, hx, overlay_empty]
      · rwa [← ht, update_eq_self]
    | @snoc p p' s₁ s₂ L _ hexec ih =>
      obtain ⟨y, rfl, rfl, hreach⟩ := ih
      refine ⟨⟨p', y.held ∪ L, s₂⟩, rfl, ?_, ?_⟩
      · refine (overlay_eq_iff.mpr ⟨fun k _ => rfl, fun k hk => ?_⟩).symm
        rw [Set.mem_union, not_or] at hk
        rw [M.exec_frame hexec k hk.2, OpenTx.view, item_overlay_of_notMem hk.1]
      · have hstep := Step.statement (c := ⟨c.committed, update c.tx t (some y)⟩)
          (update_self t (some y) c.tx) hexec fun u z hu hz => by
            rw [hothers u z hu ((update_of_ne hu ..).symm.trans hz)]
            exact Set.disjoint_empty _
        simp only [update_idem] at hstep
        exact hreach.step (a := (t, .statement)) hstep
  obtain ⟨y, -, rfl, hreach⟩ := hopen
  have hstep := Step.commit (M := M) (c := ⟨c.committed, update c.tx t (some y)⟩)
    (update_self t (some y) c.tx)
  simp only [update_idem] at hstep
  exact hreach.step (a := (t, .commit)) hstep

end Serializability

end LockProtocol

end GovAI
