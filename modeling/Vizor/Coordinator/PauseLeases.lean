import Vizor.Lib.Run
import Mathlib.Logic.Function.Basic

/-!
# Pause leases of wallet mutations

A wallet mutation pauses the migration work of the native side with a lease, and gives a lease
back when it ends.  The ids of the leases wait in one queue, and a lease that could not be
given back is tried again with a later one.  Removals and resets also revoke the operations of
their accounts, and make this final when the accounts are deleted.  Mutations run in one
another and next to one another.
-/

namespace Vizor

open Run

namespace PauseLeases

/-- A mutation: another one that runs with sync paused, a removal, or a reset. -/
inductive Kind where
  | guarded (shouldQuiesceMigrationWork : Bool)
  | removeAccount (accountUuid : String)
  | resetWallet (accountUuids : List String)
  deriving DecidableEq

/-- The accounts that a mutation deletes. -/
def Kind.accounts : Kind → List String
  | .guarded _ => []
  | .removeAccount accountUuid => [accountUuid]
  | .resetWallet accountUuids => accountUuids

/-- The mutation does not delete. -/
def Kind.isGuarded : Kind → Bool
  | .guarded _ => true
  | .removeAccount _ | .resetWallet _ => false

/-- Where a mutation is: before its pause, in the call of `quiesce`, after it, after its
deletion, in `resumeAfterMutation` with the leases that are left to release, or at its end. -/
inductive Point where
  | preflight
  | quiescing
  | running
  | deleted
  | resuming (leaseIds : List Nat) (attempt : Nat) (failed : Bool)
  | ended
  deriving DecidableEq

/-- A mutation, with the accounts that it has yet to revoke and those that it has revoked,
whether its call of `quiesce` reached the native side, and whether it succeeded. -/
structure Mutation where
  kind : Kind
  managedByCaller : Bool
  toRevoke : List String
  revoked : List String
  reached : Bool
  quiesced : Bool
  point : Point
  deriving DecidableEq

/-- The mutation takes a lease. -/
def Mutation.quiesces (m : Mutation) : Bool :=
  match m.kind with
  | .guarded shouldQuiesceMigrationWork => shouldQuiesceMigrationWork
  | .removeAccount _ | .resetWallet _ => !m.managedByCaller

/-- `IronwoodMigrationBackgroundLifecycle` with the leases of the native side, and whether the
last call of `resumeAfterMutation` to end released all of its leases. -/
structure Lifecycle where
  quiescenceLeaseIds : List Nat
  pendingResumeLeaseIds : List Nat
  mutationLeases : List Nat
  nextLeaseId : Nat
  lastResume : Option Bool
  deriving DecidableEq

/-- The length of `_resumeRetryDelays`. -/
def resumeAttempts : Nat := 3

end PauseLeases

open PauseLeases

/-- The mutations with what they share: the lifecycle, the revocations of accounts by the
mutations that hold them, the final ones among these, and the accounts whose rows or database
were deleted. -/
structure PauseLeases where
  lifecycle : Lifecycle
  revocations : String → Option Nat
  committedRevocations : String → Bool
  deletedAccounts : String → Bool
  mutations : List Mutation

namespace PauseLeases

/-- Before all mutations. -/
def start : PauseLeases :=
  { lifecycle :=
      { quiescenceLeaseIds := []
        pendingResumeLeaseIds := []
        mutationLeases := []
        nextLeaseId := 0
        lastResume := none }
    revocations := fun _ => none
    committedRevocations := fun _ => false
    deletedAccounts := fun _ => false
    mutations := [] }

/-- What happens next.  A call of the native side reaches it or not, and answers true or not.
-/
inductive Event where
  | begin (kind : Kind) (parent : Option Nat)
  | revoke (i : Nat)
  | quiesce (i : Nat) (reached : Bool)
  | quiesceAnswers (i : Nat) (answer : Bool)
  | throws (i : Nat)
  | deletes (i : Nat) (returned : Bool)
  | returns (i : Nat)
  | resumeAnswers (i : Nat) (reached answer : Bool)

variable (c : PauseLeases)

/-! ### The lifecycle -/

/-- The call of `quiesce`, with a new lease. -/
def Lifecycle.quiesce (l : Lifecycle) (reached : Bool) : Lifecycle :=
  { l with
    quiescenceLeaseIds := l.quiescenceLeaseIds ++ [l.nextLeaseId]
    mutationLeases := if reached then l.mutationLeases ++ [l.nextLeaseId] else l.mutationLeases
    nextLeaseId := l.nextLeaseId + 1 }

/-- A set with an element added. -/
def insertLease (leaseIds : List Nat) (leaseId : Nat) : List Nat :=
  if leaseId ∈ leaseIds then leaseIds else leaseIds ++ [leaseId]

/-- The leases that `resumeAfterMutation` releases, and what it leaves of the lifecycle before
the first call. -/
def Lifecycle.resumeAfterMutation (l : Lifecycle) : List Nat × Lifecycle :=
  match l.quiescenceLeaseIds with
  | leaseId :: leaseIds =>
    (insertLease l.pendingResumeLeaseIds leaseId,
      { l with quiescenceLeaseIds := leaseIds, pendingResumeLeaseIds := [] })
  | [] =>
    (insertLease l.pendingResumeLeaseIds l.nextLeaseId,
      { l with pendingResumeLeaseIds := [], nextLeaseId := l.nextLeaseId + 1 })

/-- A call of `resume`, as far as the native side sees it. -/
def Lifecycle.resume (l : Lifecycle) (leaseId : Nat) (reached : Bool) : Lifecycle :=
  { l with
    mutationLeases := if reached then l.mutationLeases.erase leaseId else l.mutationLeases }

/-- A lease is given up until the next `resumeAfterMutation`. -/
def Lifecycle.giveUp (l : Lifecycle) (leaseId : Nat) : Lifecycle :=
  { l with pendingResumeLeaseIds := insertLease l.pendingResumeLeaseIds leaseId }

/-! ### Revocations -/

/-- Whether the mutation holds the revocation of an account. -/
def owns (i : Nat) (m : Mutation) (accountUuid : String) : Bool :=
  accountUuid ∈ m.revoked ∧ c.revocations accountUuid = some i

/-- `rollback` of the revocations of a mutation. -/
def rollback (i : Nat) (m : Mutation) : PauseLeases :=
  { c with
    revocations := fun a => if c.owns i m a then none else c.revocations a
    committedRevocations := fun a => if c.owns i m a then false else c.committedRevocations a }

/-- `commit` of the revocations of a mutation. -/
def commit (i : Nat) (m : Mutation) : PauseLeases :=
  { c with
    committedRevocations := fun a => if c.owns i m a then true else c.committedRevocations a }

/-! ### Mutations -/

/-- A mutation is replaced. -/
def put (i : Nat) (m : Mutation) : PauseLeases :=
  { c with mutations := c.mutations.set i m }

/-- The mutation calls `resumeAfterMutation` when it took a lease, and ends otherwise. -/
def resumeOrEnd (i : Nat) (m : Mutation) : PauseLeases :=
  if m.quiesces then
    let (leaseIds, lifecycle) := c.lifecycle.resumeAfterMutation
    { c.put i { m with quiesced := false, point := .resuming leaseIds 0 false } with lifecycle }
  else c.put i { m with quiesced := false, point := .ended }

/-- A step before the deletion throws, after the pause. -/
def fails (i : Nat) (m : Mutation) : PauseLeases :=
  (c.rollback i m).resumeOrEnd i { m with revoked := [] }

/-- A mutation is called, in the action of another one or on its own. -/
def begin (kind : Kind) (parent : Option Nat) : PauseLeases :=
  let add (managedByCaller : Bool) : PauseLeases :=
    { c with mutations := c.mutations ++ [{
        kind
        managedByCaller
        toRevoke := kind.accounts
        revoked := []
        reached := false
        quiesced := false
        point := .preflight }] }
  match parent with
  | none => add false
  | some j =>
    match c.mutations[j]? with
    | some m =>
      if m.kind.isGuarded ∧ m.point = .running then add (m.managedByCaller || m.quiesced) else c
    | none => c

/-- `revokeAndWait` of the next account. -/
def revoke (i : Nat) : PauseLeases :=
  match c.mutations[i]? with
  | some m =>
    match m.point, m.toRevoke with
    | .preflight, a :: accountUuids =>
      match c.revocations a with
      | some _ =>
        if c.committedRevocations a then c.put i { m with toRevoke := accountUuids }
        else (c.rollback i m).put i { m with revoked := [], point := .ended }
      | none =>
        { c.put i { m with toRevoke := accountUuids, revoked := m.revoked ++ [a] } with
          revocations := Function.update c.revocations a (some i) }
    | _, _ => c
  | none => c

/-- The call of `quiesce`, unless the mutation takes no lease. -/
def quiesce (i : Nat) (reached : Bool) : PauseLeases :=
  match c.mutations[i]? with
  | some m =>
    if m.point = .preflight ∧ m.toRevoke = [] then
      if m.quiesces then
        { c.put i { m with reached, point := .quiescing } with
          lifecycle := c.lifecycle.quiesce reached }
      else c.put i { m with point := .running }
    else c
  | none => c

/-- The answer to the call of `quiesce`. -/
def quiesceAnswers (i : Nat) (answer : Bool) : PauseLeases :=
  match c.mutations[i]? with
  | some m =>
    if m.point = .quiescing then
      if m.reached ∧ answer then c.put i { m with quiesced := true, point := .running }
      else c.fails i m
    else c
  | none => c

/-- A step throws: before the pause, before the deletion, or after it. -/
def throws (i : Nat) : PauseLeases :=
  match c.mutations[i]? with
  | some m =>
    match m.point with
    | .preflight =>
      if m.toRevoke ≠ [] ∨ m.revoked = [] then
        (c.rollback i m).put i { m with revoked := [], point := .ended }
      else c
    | .running => c.fails i m
    | .deleted => c.put i { m with point := .ended }
    | _ => c
  | none => c

/-- The rows of the account or the database are deleted, and the call that did this returns or
throws. -/
def deletes (i : Nat) (returned : Bool) : PauseLeases :=
  match c.mutations[i]? with
  | some m =>
    if m.kind.isGuarded = false ∧ m.point = .running then
      let c := { c with
        deletedAccounts := fun a => a ∈ m.kind.accounts || c.deletedAccounts a }
      if returned then (c.commit i m).put i { m with revoked := [], point := .deleted }
      else c.fails i m
    else c
  | none => c

/-- The action or the rest of the deletion returns. -/
def returns (i : Nat) : PauseLeases :=
  match c.mutations[i]? with
  | some m =>
    if m.kind.isGuarded ∧ m.point = .running ∨ m.point = .deleted then c.resumeOrEnd i m else c
  | none => c

/-- The loop of `resumeAfterMutation` goes on to the next lease, or ends. -/
def nextLease (i : Nat) (m : Mutation) (leaseIds : List Nat) (failed : Bool) : PauseLeases :=
  if leaseIds = [] then
    { c.put i { m with point := .ended } with
      lifecycle := { c.lifecycle with lastResume := some !failed } }
  else c.put i { m with point := .resuming leaseIds 0 failed }

/-- The answer to a call of `resume`. -/
def resumeAnswers (i : Nat) (reached answer : Bool) : PauseLeases :=
  match c.mutations[i]? with
  | some m =>
    match m.point with
    | .resuming (leaseId :: leaseIds) attempt failed =>
      let c := { c with lifecycle := c.lifecycle.resume leaseId reached }
      if reached ∧ answer then c.nextLease i m leaseIds failed
      else if attempt + 1 < resumeAttempts then
        c.put i { m with point := .resuming (leaseId :: leaseIds) (attempt + 1) failed }
      else { c with lifecycle := c.lifecycle.giveUp leaseId }.nextLease i m leaseIds true
    | _ => c
  | none => c

/-- What happens next, happens. -/
def step : Event → PauseLeases
  | .begin kind parent => c.begin kind parent
  | .revoke i => c.revoke i
  | .quiesce i reached => c.quiesce i reached
  | .quiesceAnswers i answer => c.quiesceAnswers i answer
  | .throws i => c.throws i
  | .deletes i returned => c.deletes i returned
  | .returns i => c.returns i
  | .resumeAnswers i reached answer => c.resumeAnswers i reached answer

/-- The number of mutations between a successful pause and their resume. -/
def pausedCount : Nat :=
  c.mutations.countP fun m => m.quiesced ∧ m.point ≠ .ended

end PauseLeases

end Vizor
