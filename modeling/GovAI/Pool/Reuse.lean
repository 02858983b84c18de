import GovAI.Pool.Checkout
import Mathlib.Data.List.Basic

/-!
# Which clients go back to the pool

The envelopes of `Pool/Checkout` under every schedule of failures.  All of them show the first failure
to their callers.  A client that returns to its pool is clean, and one whose rollback failed is
destroyed, exactly under the condition `Path.Holds` on the schedule: the four envelopes that swallow a
failed `ROLLBACK` need it to succeed on a healthy socket, and the three that issue `BEGIN` outside
their `try` need a failed one to leave no transaction.
-/

namespace GovAI.Pool

variable {ε α : Type}

/-! ## What the paths promise -/

/-- The failure of the work. -/
def Schedule.workFailure (o : Schedule ε α) : Option (Failure ε) :=
  match o.work with
  | .ok _ => none
  | .error f => some f

/-- The first failure of a sequence of statements. -/
def firstFailure (outcomes : List (Option (Failure ε))) : Option (Failure ε) :=
  outcomes.findSome? id

/-- The statements before `BEGIN`. -/
def Path.checks (o : Schedule ε α) : Path → List (Option (Failure ε))
  | bridgeOverride => [o.attest]
  | workerOwner => [o.attest, o.reset]
  | _ => []

/-- The statements after `BEGIN`, with the work. -/
def Path.body (o : Schedule ε α) : Path → List (Option (Failure ε))
  | owner => [o.setOrgId, o.setUserId, o.workFailure, o.commit]
  | workerOwner => [o.setOrgId, o.setUserId, o.dateStyle, o.workFailure, o.commit]
  | _ => [o.setOrgId, o.workFailure, o.commit]

/-- The first failure of a path. -/
def Path.firstError (o : Schedule ε α) (p : Path) : Option ε :=
  match o.connect with
  | some err => some err
  | none => (firstFailure (p.checks o ++ o.begin :: p.body o)).map Failure.error

/-- A client that goes back to the pool has no transaction, and one whose rollback failed does not go
back. -/
structure Session.Settled (s : Session) : Prop where
  clean : s.Pooled → s.connection.tx = .idle
  destroyed : s.rollbackFailed = true → ¬s.Pooled

/-- What is thrown is the first failure, and the audit bridge reports it. -/
structure Reports (result : Except ε α) (first : Option ε) : Prop where
  error : ∀ err, result = .error err ↔ first = some err
  report : ∀ code posture, bridgeReport code posture result =
    match first with
    | none => (none, .ok ())
    | some err => (some (classifyCaptureError code err),
        if posture = .strict then .error err else .ok ())

/-- A path settles its client and reports its first failure. -/
structure PoolSafe (o : Schedule ε α) (p : Path) : Prop where
  settled : (p.run o).2.Settled
  reports : Reports (p.run o).1 (p.firstError o)

/-- After a failure that leaves the socket healthy, `ROLLBACK` succeeds or the socket dies. -/
def Schedule.RollbackProven (o : Schedule ε α) (failure : Option (Failure ε)) : Prop :=
  ∀ f, failure = some f → f.left.healthy = true → ∀ left, o.rollback = some left →
    left.healthy = false

/-- A `BEGIN` that fails leaves no transaction on a healthy socket. -/
def Schedule.BeginClean (o : Schedule ε α) : Prop :=
  ∀ f, o.begin = some f → f.left.healthy = true → f.left.tx = .idle

/-- The condition of a path that issues `BEGIN` outside its `try`. -/
def Path.OpenedHolds (o : Schedule ε α) (p : Path) : Prop :=
  o.connect = none → firstFailure (p.checks o) = none →
    o.BeginClean ∧ (o.begin = none → o.RollbackProven (firstFailure (p.body o)))

/-- The condition of a path on its schedule. -/
def Path.Holds (o : Schedule ε α) : Path → Prop
  | bridgeDirect =>
    o.connect = none → o.RollbackProven (firstFailure (o.begin :: bridgeDirect.body o))
  | bridgeOverride => True
  | tenant => tenant.OpenedHolds o
  | owner => owner.OpenedHolds o
  | workerOwner => workerOwner.OpenedHolds o

/-! ## What the parts of an envelope do -/

/-- Code whose statements end as listed: it returns with no transaction, or stops at the first
failure. -/
def Behaves (x : ClientM ε α) (outcomes : List (Option (Failure ε))) : Prop :=
  ∀ s, (firstFailure outcomes = none ∧ ∃ result,
      x s = (.ok result, s.leave ⟨s.connection.healthy, .idle⟩)) ∨
    ∃ f, firstFailure outcomes = some f ∧ x s = (.error f.error, s.leave f.left)

/-- A statement and code after it. -/
lemma Behaves.statement {x : ClientM ε α} {outcomes : List (Option (Failure ε))}
    (h : Behaves x outcomes) (outcome : Option (Failure ε)) (tx : TxStatus) :
    Behaves (do statement outcome tx; x) (outcome :: outcomes) := by
  intro s
  cases outcome with
  | none => exact h (s.leave ⟨s.connection.healthy, tx⟩)
  | some f => exact .inr ⟨f, rfl, rfl⟩

/-- The work and the `COMMIT`. -/
lemma behaves_work (o : Schedule ε α) :
    Behaves (do
      let result ← runWork o.work
      Pool.statement o.commit .idle
      return result) [o.workFailure, o.commit] := by
  intro s
  obtain ⟨connect, attest, reset, begin, setOrgId, setUserId, dateStyle, work, commit, rollback⟩ := o
  cases work with
  | error f => exact .inr ⟨f, rfl, rfl⟩
  | ok r =>
    cases commit with
    | none => exact .inl ⟨rfl, r.1, rfl⟩
    | some f => exact .inr ⟨f, rfl, rfl⟩

/-- `try x catch err => handler err`. -/
lemma tryCatch_eq (x : ClientM ε α) (handler : ε → ClientM ε α) (s : Session) :
    (tryCatch x handler : ClientM ε α) s = match x s with
      | (.ok result, s') => (.ok result, s')
      | (.error err, s') => handler err s' := by
  simp only [tryCatch, tryCatchThe, MonadExceptOf.tryCatch, ExceptT.tryCatch, ExceptT.mk, bind,
    StateT.bind]
  cases x s with
  | mk result s' => cases result <;> rfl

/-- Guarded code: it returns with no transaction, or its handler runs after its first failure. -/
lemma Behaves.caught {x : ClientM ε α} {outcomes : List (Option (Failure ε))}
    (h : Behaves x outcomes) (handler : ε → ClientM ε α) (s : Session) :
    (firstFailure outcomes = none ∧ ∃ result,
        (tryCatch x handler : ClientM ε α) s =
          (.ok result, s.leave ⟨s.connection.healthy, .idle⟩)) ∨
      ∃ f, firstFailure outcomes = some f ∧
        (tryCatch x handler : ClientM ε α) s = handler f.error (s.leave f.left) := by
  rcases h s with ⟨hnone, result, hx⟩ | ⟨f, hf, hx⟩
  · exact .inl ⟨hnone, result, by rw [tryCatch_eq, hx]⟩
  · exact .inr ⟨f, hf, by rw [tryCatch_eq, hx]⟩

/-- The handler of the audit bridge on a client of `withClient`. -/
lemma markUnusable_eq (rollback : Option Connection) (err : ε) (s : Session) :
    (do
      let closed ← runRollback rollback
      if !closed then
        modify fun s => { s with unusable := true }
      throw err : ClientM ε α) s =
        (.error err, { s.rolledBack rollback with
          unusable := (s.rolledBack rollback).unusable || (s.rolledBack rollback).rollbackFailed }) := by
  have hrollback : (runRollback rollback : ClientM ε Bool) s =
      (.ok (!(s.rolledBack rollback).rollbackFailed), s.rolledBack rollback) := rfl
  simp only [bind, ExceptT.bind, ExceptT.mk, StateT.bind, hrollback, ExceptT.bindCont]
  obtain ⟨connection, rollbackFailed, unusable, released⟩ := s.rolledBack rollback
  cases rollbackFailed with
  | true => cases unusable <;> rfl
  | false => cases unusable <;> rfl

/-- A result is reported as a success. -/
lemma reports_ok (result : α) : Reports (.ok result : Except ε α) none :=
  ⟨fun _ => iff_of_false nofun nofun, fun _ _ => rfl⟩

/-- A failure is reported as itself. -/
lemma reports_error (err : ε) : Reports (.error err : Except ε α) (some err) :=
  ⟨fun _ => by rw [Except.error.injEq, Option.some.injEq], fun _ _ => rfl⟩

/-- A client that never left the pool, or comes back after a success, is settled. -/
lemma settled_of_idle {s : Session} (htx : s.connection.tx = .idle)
    (hrollback : s.rollbackFailed = false) : s.Settled :=
  ⟨fun _ => htx, fun h => by rw [hrollback] at h; cases h⟩

/-- A client that is released after a failure and a `ROLLBACK`, and is destroyed only if its socket
is dead. -/
lemma settled_rolledBack_iff {o : Schedule ε α} {f : Failure ε} {s : Session} {destroy : Bool}
    (hs : s = { (Session.fresh.leave f.left).rolledBack o.rollback with released := some destroy })
    (hdestroy : s.connection.healthy = true → destroy = false) :
    s.Settled ↔ o.RollbackProven (some f) := by
  subst hs
  cases hrollback : o.rollback with
  | none =>
    refine iff_of_true ?_ fun _ _ _ left h => by rw [hrollback] at h; cases h
    rw [Session.rolledBack]
    cases hhealthy : f.left.healthy with
    | true => exact settled_of_idle (by simp [Session.leave, hhealthy]) (by simp [Session.leave, hhealthy, Session.fresh])
    | false =>
      have hnot : ¬Session.Pooled
          { (Session.fresh.leave f.left).rolledBack none with released := some destroy } := by
        rintro ⟨-, h⟩
        simp [Session.rolledBack, Session.leave, hhealthy] at h
      exact ⟨fun h => absurd h hnot, fun _ => hnot⟩
  | some left =>
    rw [hrollback] at hdestroy
    constructor
    · rintro ⟨-, hnot⟩ g hg hhealthy left' hleft
      obtain rfl := Option.some.inj hg
      obtain rfl := Option.some.inj (hrollback.symm.trans hleft)
      rw [← Bool.not_eq_true]
      intro halive
      have hconnection : (f.left.healthy && left.healthy) = true := by rw [hhealthy, halive]; rfl
      exact hnot rfl ⟨congrArg some (hdestroy hconnection), hconnection⟩
    · intro hproven
      have hnot : ¬Session.Pooled
          { (Session.fresh.leave f.left).rolledBack (some left) with released := some destroy } := by
        rintro ⟨-, h⟩
        obtain ⟨hhealthy, halive⟩ := Bool.and_eq_true_iff.mp h
        rw [hproven f rfl hhealthy left hrollback] at halive
        cases halive
      exact ⟨fun h => absurd h hnot, fun _ => hnot⟩

/-- The session after a `ROLLBACK` that marks the client unusable if it fails, and the release. -/
def Session.destroyedIfOpen (rollback : Option Connection) (s : Session) : Session :=
  { s.rolledBack rollback with
    unusable := (s.rolledBack rollback).unusable || (s.rolledBack rollback).rollbackFailed
    released := some (!(s.rolledBack rollback).connection.healthy ||
      ((s.rolledBack rollback).unusable || (s.rolledBack rollback).rollbackFailed)) }

/-- Such a client is settled, whatever its `ROLLBACK` does. -/
lemma settled_destroyedIfOpen (rollback : Option Connection) (left : Connection) :
    ((Session.fresh.leave left).destroyedIfOpen rollback).Settled := by
  have hfailed : ∀ s : Session, s.rollbackFailed = false → (s.rolledBack rollback).rollbackFailed =
      false → (s.rolledBack rollback).connection.tx = .idle := by
    intro s _ h
    cases rollback with
    | none =>
      rw [Session.rolledBack] at h ⊢
      split at h
      · rename_i hhealthy
        rw [if_pos hhealthy]
        rfl
      · cases h
    | some left => cases h
  constructor
  · rintro ⟨hreleased, -⟩
    have hkept := Option.some.inj hreleased
    rw [Bool.or_eq_false_iff, Bool.or_eq_false_iff] at hkept
    exact hfailed _ rfl hkept.2.2
  · rintro h ⟨hreleased, -⟩
    have hkept := Option.some.inj hreleased
    rw [Bool.or_eq_false_iff, Bool.or_eq_false_iff] at hkept
    have hrollback : ((Session.fresh.leave left).rolledBack rollback).rollbackFailed = true := h
    rw [hkept.2.2] at hrollback
    cases hrollback

/-! ## The paths -/

section Paths

variable {o : Schedule ε α}

/-- A path whose checkout fails has no client. -/
lemma poolSafe_of_connect {p : Path} {err : ε} (h : o.connect = some err) : PoolSafe o p := by
  have hrun : p.run o = (.error err, Session.fresh) := by
    cases p <;> simp only [Path.run, bridgeDirect, bridgeOverride, pooled, workerOwnerContext,
      withCheckedOutWorkerClient, h] <;> rfl
  refine ⟨?_, ?_⟩
  · rw [hrun]
    exact settled_of_idle rfl rfl
  · rw [hrun, Path.firstError, h]
    exact reports_error err

/-- A run that ends in a known session with a known result. -/
lemma poolSafe_iff_of_run {p : Path} {result : Except ε α} {s : Session} {first : Option ε}
    {q : Prop} (hrun : p.run o = (result, s)) (hfirst : p.firstError o = first)
    (hreports : Reports result first) (hs : s.Settled ↔ q) : PoolSafe o p ↔ q := by
  rw [← hs]
  constructor
  · intro h
    have hsettled := h.settled
    rwa [hrun] at hsettled
  · intro h
    refine ⟨?_, ?_⟩
    · rwa [hrun]
    · rwa [hrun, hfirst]

/-- No statement has failed. -/
lemma rollbackProven_none : o.RollbackProven none := fun _ => nofun

/-- The audit bridge with its own checkout. -/
lemma poolSafe_bridgeDirect (hconnect : o.connect = none) :
    PoolSafe o .bridgeDirect ↔
      o.RollbackProven (firstFailure (o.begin :: Path.bridgeDirect.body o)) := by
  have hbehaves : Behaves (runEnvelope o) (o.begin :: Path.bridgeDirect.body o) :=
    ((behaves_work o).statement o.setOrgId .open).statement o.begin .open
  have hfirst : Path.bridgeDirect.firstError o =
      (firstFailure (o.begin :: Path.bridgeDirect.body o)).map Failure.error := by
    rw [Path.firstError, hconnect]
    rfl
  have hpath : Path.bridgeDirect.run o = bridgeDirect o Session.fresh := rfl
  rw [bridgeDirect, hconnect] at hpath
  rcases hbehaves.caught (fun err => do
      let _ ← runRollback o.rollback
      throw err) Session.fresh with ⟨hnone, result, hx⟩ | ⟨f, hf, hx⟩
  · rw [hnone] at hfirst ⊢
    have hrun : Path.bridgeDirect.run o = (.ok result,
        { Session.fresh.leave ⟨true, .idle⟩ with released := some false }) := by
      rw [hpath]
      dsimp only [finallyRelease]
      rw [hx]
      rfl
    exact poolSafe_iff_of_run hrun hfirst (reports_ok result)
      (iff_of_true (settled_of_idle rfl rfl) rollbackProven_none)
  · rw [hf] at hfirst ⊢
    have hrun : Path.bridgeDirect.run o = (.error f.error,
        { (Session.fresh.leave f.left).rolledBack o.rollback with released := some false }) := by
      rw [hpath]
      dsimp only [finallyRelease]
      rw [hx]
      rfl
    exact poolSafe_iff_of_run hrun hfirst (reports_error f.error)
      (settled_rolledBack_iff rfl fun _ => rfl)

/-- The audit bridge on a client of `withClient`: it destroys what it cannot roll back. -/
lemma poolSafe_bridgeOverride (hconnect : o.connect = none) : PoolSafe o .bridgeOverride := by
  have hbehaves : Behaves (runEnvelope o) (o.begin :: Path.bridgeOverride.body o) :=
    ((behaves_work o).statement o.setOrgId .open).statement o.begin .open
  have hfirst : Path.bridgeOverride.firstError o =
      (firstFailure (o.attest :: o.begin :: Path.bridgeOverride.body o)).map Failure.error := by
    rw [Path.firstError, hconnect]
    rfl
  have hpath : Path.bridgeOverride.run o = bridgeOverride o Session.fresh := rfl
  rw [bridgeOverride, withCheckedOutWorkerClient, hconnect] at hpath
  suffices h : PoolSafe o .bridgeOverride ↔ True from h.mpr trivial
  cases hattest : o.attest with
  | some f =>
    rw [hattest] at hfirst hpath
    exact poolSafe_iff_of_run hpath hfirst (reports_error f.error)
      (iff_of_true (settled_of_idle rfl rfl) trivial)
  | none =>
    rw [hattest] at hfirst hpath
    rcases hbehaves.caught (fun err => do
        let closed ← runRollback o.rollback
        if !closed then
          modify fun s => { s with unusable := true }
        throw err) Session.fresh with ⟨hnone, result, hx⟩ | ⟨f, hf, hx⟩
    · have hrun : Path.bridgeOverride.run o = (.ok result,
          { Session.fresh.leave ⟨true, .idle⟩ with released := some false }) := by
        refine hpath.trans ?_
        change finallyRelease _ _ _ = _
        dsimp only [finallyRelease]
        exact congrArg (fun r : Except ε α × Session =>
          (r.1, { r.2 with released := some (!r.2.connection.healthy || r.2.unusable) })) hx
      have hfirst' : Path.bridgeOverride.firstError o = none := by
        rw [hfirst]
        exact congrArg (Option.map Failure.error) hnone
      exact poolSafe_iff_of_run hrun hfirst' (reports_ok result)
        (iff_of_true (settled_of_idle rfl rfl) trivial)
    · have hfirst' : Path.bridgeOverride.firstError o = some f.error := by
        rw [hfirst]
        exact congrArg (Option.map Failure.error) hf
      rw [markUnusable_eq] at hx
      have hrun : Path.bridgeOverride.run o = (.error f.error,
          (Session.fresh.leave f.left).destroyedIfOpen o.rollback) := by
        refine hpath.trans ?_
        change finallyRelease _ _ _ = _
        dsimp only [finallyRelease]
        exact congrArg (fun r : Except ε α × Session =>
          (r.1, { r.2 with released := some (!r.2.connection.healthy || r.2.unusable) })) hx
      exact poolSafe_iff_of_run hrun hfirst' (reports_error f.error)
        (iff_of_true (settled_destroyedIfOpen o.rollback f.left) trivial)

/-- A path that issues `BEGIN` outside its `try`. -/
lemma poolSafe_opened {p : Path} {body : ClientM ε α} {destroy : Session → Bool}
    (hbody : Behaves body (p.body o))
    (hdestroy : ∀ s : Session, s.unusable = false → s.connection.healthy = true → destroy s = false)
    (hrun : p.run o = finallyRelease destroy (do
      statement o.begin .open
      try body
      catch err =>
        let _ ← runRollback o.rollback
        throw err) Session.fresh)
    (hfirst : p.firstError o = (firstFailure (o.begin :: p.body o)).map Failure.error) :
    PoolSafe o p ↔
      o.BeginClean ∧ (o.begin = none → o.RollbackProven (firstFailure (p.body o))) := by
  cases hbegin : o.begin with
  | some f =>
    rw [hbegin] at hrun hfirst
    refine poolSafe_iff_of_run hrun hfirst (reports_error f.error) ?_
    constructor
    · rintro ⟨hclean, -⟩
      refine ⟨fun g hg hhealthy => ?_, nofun⟩
      obtain rfl := Option.some.inj (hbegin.symm.trans hg)
      exact hclean ⟨congrArg some (hdestroy _ rfl hhealthy), hhealthy⟩
    · rintro ⟨hclean, -⟩
      exact ⟨fun h => hclean f hbegin h.2, nofun⟩
  | none =>
    rw [hbegin] at hrun hfirst
    have hclean : o.BeginClean := fun g hg => by rw [hbegin] at hg; cases hg
    rcases hbody.caught (fun err => do
        let _ ← runRollback o.rollback
        throw err) (Session.fresh.leave ⟨true, .open⟩) with ⟨hnone, result, hx⟩ | ⟨f, hf, hx⟩
    · have hrun' : p.run o = (.ok result, { Session.fresh.leave ⟨true, .idle⟩ with
          released := some (destroy (Session.fresh.leave ⟨true, .idle⟩)) }) := by
        refine hrun.trans ?_
        exact congrArg (fun r : Except ε α × Session =>
          (r.1, { r.2 with released := some (destroy r.2) })) hx
      have hfirst' : p.firstError o = none :=
        hfirst.trans (congrArg (Option.map Failure.error) hnone)
      rw [hnone]
      exact poolSafe_iff_of_run hrun' hfirst' (reports_ok result)
        (iff_of_true (settled_of_idle rfl rfl) ⟨hclean, fun _ => rollbackProven_none⟩)
    · have hrun' : p.run o = (.error f.error,
          { (Session.fresh.leave f.left).rolledBack o.rollback with
            released := some (destroy ((Session.fresh.leave f.left).rolledBack o.rollback)) }) := by
        refine hrun.trans ?_
        exact congrArg (fun r : Except ε α × Session =>
          (r.1, { r.2 with released := some (destroy r.2) })) hx
      have hfirst' : p.firstError o = some f.error :=
        hfirst.trans (congrArg (Option.map Failure.error) hf)
      have hkept : ((Session.fresh.leave f.left).rolledBack o.rollback).unusable = false := by
        unfold Session.rolledBack
        split
        · split <;> rfl
        · rfl
      rw [hf]
      refine poolSafe_iff_of_run hrun' hfirst' (reports_error f.error) ?_
      rw [settled_rolledBack_iff rfl fun hhealthy => hdestroy _ hkept hhealthy]
      exact ⟨fun h => ⟨hclean, fun _ => h⟩, fun h => h.2 rfl⟩

/-- `withTenant`. -/
lemma poolSafe_tenant (hconnect : o.connect = none) :
    PoolSafe o .tenant ↔ Path.tenant.OpenedHolds o := by
  have hbody : Behaves _ (Path.tenant.body o) := (behaves_work o).statement o.setOrgId .open
  have hrun : Path.tenant.run o = finallyRelease (fun _ => false) (withTenant o) Session.fresh := by
    rw [Path.run, pooled, hconnect]
  rw [poolSafe_opened hbody (fun _ _ _ => rfl) hrun (by rw [Path.firstError, hconnect]; rfl)]
  exact ⟨fun h _ _ => h, fun h => h hconnect rfl⟩

/-- `withOwnerContext` of `core-tenant`. -/
lemma poolSafe_owner (hconnect : o.connect = none) :
    PoolSafe o .owner ↔ Path.owner.OpenedHolds o := by
  have hbody : Behaves _ (Path.owner.body o) :=
    ((behaves_work o).statement o.setUserId .open).statement o.setOrgId .open
  have hrun : Path.owner.run o = finallyRelease (fun _ => false) (withOwnerContext o)
      Session.fresh := by
    rw [Path.run, pooled, hconnect]
  rw [poolSafe_opened hbody (fun _ _ _ => rfl) hrun (by rw [Path.firstError, hconnect]; rfl)]
  exact ⟨fun h _ _ => h, fun h => h hconnect rfl⟩

/-- A check before `BEGIN` that fails leaves no transaction. -/
lemma poolSafe_of_check {p : Path} {f : Failure ε} {destroy : Session → Bool}
    (hrun : p.run o = (.error f.error, { Session.fresh.leave ⟨f.left.healthy, .idle⟩ with
      released := some (destroy (Session.fresh.leave ⟨f.left.healthy, .idle⟩)) }))
    (hfirst : p.firstError o = some f.error) : PoolSafe o p :=
  (poolSafe_iff_of_run hrun hfirst (reports_error f.error)
    (iff_of_true (settled_of_idle rfl rfl) trivial)).mpr trivial

/-- `withOwnerContext` of the conversation worker. -/
lemma poolSafe_workerOwner (hconnect : o.connect = none) :
    PoolSafe o .workerOwner ↔ Path.workerOwner.OpenedHolds o := by
  have hpath : Path.workerOwner.run o = workerOwnerContext o Session.fresh := rfl
  rw [workerOwnerContext, withCheckedOutWorkerClient, hconnect] at hpath
  have hfirst : Path.workerOwner.firstError o =
      (firstFailure ([o.attest, o.reset] ++ o.begin :: Path.workerOwner.body o)).map
        Failure.error := by
    rw [Path.firstError, hconnect]
    rfl
  have hcheck := fun f => @poolSafe_of_check ε α o .workerOwner f
    fun s => !s.connection.healthy || s.unusable
  cases hattest : o.attest with
  | some f =>
    rw [hattest] at hpath hfirst
    refine iff_of_true (hcheck f hpath hfirst) fun _ hchecks => ?_
    rw [Path.checks, hattest] at hchecks
    cases hchecks
  | none =>
    cases hreset : o.reset with
    | some f =>
      rw [hattest, hreset] at hpath hfirst
      refine iff_of_true (hcheck f hpath hfirst) fun _ hchecks => ?_
      rw [Path.checks, hattest, hreset] at hchecks
      cases hchecks
    | none =>
      rw [hattest, hreset] at hpath hfirst
      have hbody : Behaves _ (Path.workerOwner.body o) :=
        (((behaves_work o).statement o.dateStyle .open).statement o.setUserId .open).statement
          o.setOrgId .open
      have hdestroy : ∀ s : Session, s.unusable = false → s.connection.healthy = true →
          (!s.connection.healthy || s.unusable) = false := by
        intro s hunusable hhealthy
        rw [hunusable, hhealthy]
        rfl
      rw [poolSafe_opened hbody hdestroy hpath hfirst]
      refine ⟨fun h _ _ => h, fun h => h hconnect ?_⟩
      rw [Path.checks, hattest, hreset]
      rfl

/-- **What goes back to the pool.**  On every path and for every schedule of failures: the client that
goes back is clean, a client whose rollback failed is destroyed, and the first failure is what is
seen, exactly when the schedule meets the condition of the path. -/
theorem poolSafe_iff {ε α : Type} (o : Schedule ε α) (p : Path) : PoolSafe o p ↔ p.Holds o := by
  cases hconnect : o.connect with
  | some err =>
    have hnot : ∀ q : Prop, o.connect = none → q := fun q h => by rw [hconnect] at h; cases h
    refine iff_of_true (poolSafe_of_connect hconnect) ?_
    cases p with
    | bridgeOverride => trivial
    | bridgeDirect => exact hnot _
    | tenant | owner | workerOwner => exact hnot _
  | none =>
    cases p with
    | bridgeDirect =>
      rw [poolSafe_bridgeDirect hconnect]
      exact ⟨fun h _ => h, fun h => h hconnect⟩
    | bridgeOverride => exact iff_of_true (poolSafe_bridgeOverride hconnect) trivial
    | tenant => exact poolSafe_tenant hconnect
    | owner => exact poolSafe_owner hconnect
    | workerOwner => exact poolSafe_workerOwner hconnect

end Paths

/-! ## A rollback that fails on a healthy socket -/

/-- The work fails and aborts the transaction, and then `ROLLBACK` fails, for instance by a timeout
of the client. -/
def failedRollback : Schedule String Unit where
  connect := none
  attest := none
  reset := none
  begin := none
  setOrgId := none
  setUserId := none
  dateStyle := none
  work := .error ⟨"work failed", ⟨true, .aborted⟩⟩
  commit := none
  rollback := some ⟨true, .aborted⟩

/-- **After a failed `ROLLBACK` that is swallowed, an aborted transaction goes back to the pool**, on
every path but the override of the audit bridge. -/
theorem failed_rollback_poisons_pool :
    ¬PoolSafe failedRollback .bridgeDirect ∧ ¬PoolSafe failedRollback .tenant ∧
      ¬PoolSafe failedRollback .owner ∧ ¬PoolSafe failedRollback .workerOwner ∧
        PoolSafe failedRollback .bridgeOverride := by
  have hproven : ¬failedRollback.RollbackProven (some ⟨"work failed", ⟨true, .aborted⟩⟩) := fun h =>
    absurd (h _ rfl rfl _ rfl) (by decide)
  refine ⟨fun h => ?_, fun h => ?_, fun h => ?_, fun h => ?_, poolSafe_bridgeOverride rfl⟩
  · exact hproven ((poolSafe_bridgeDirect rfl).mp h)
  · exact hproven (((poolSafe_tenant rfl).mp h rfl rfl).2 rfl)
  · exact hproven (((poolSafe_owner rfl).mp h rfl rfl).2 rfl)
  · exact hproven (((poolSafe_workerOwner rfl).mp h rfl rfl).2 rfl)

end GovAI.Pool
