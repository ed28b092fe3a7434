import Vizor.Lib.Run
import Mathlib.Logic.Function.Basic

/-!
# The registry of migration operations

Migration work of an account runs in operations that wait for one another along a chain of
futures: each waits for the last one that was called before it.  A revocation refuses later
operations of the account and waits for the chain to end.  It is undone or made final through
the handle that the wait returns.  Each event of this file is what one caller does between
two waits.
-/

namespace Vizor

open Run

namespace Registry

universe u v

variable {α : Type u} {ε : Type v}

/-! ### Calls -/

/-- How an operation that was queued ended: it returned or threw, or its account was revoked
while it waited. -/
inductive Outcome (α : Type u) (ε : Type v) where
  | returned (value : α)
  | threw (error : ε)
  | revoked (accountUuid : String)
  deriving DecidableEq

/-- Where a call of `run` stands.  A call that is refused at once is not queued.  The future of
a queued call completes when the call is released, which is after it has waited for the future
before it. -/
inductive Phase (α : Type u) (ε : Type v) where
  | refused (accountUuid : String)
  | waiting (previous : Option Nat)
  | running
  | released (outcome : Outcome α ε)
  deriving DecidableEq

/-- A call of `run`. -/
structure Operation (α : Type u) (ε : Type v) where
  key : String
  accountUuid : String
  phase : Phase α ε
  deriving DecidableEq

/-- Where a call of `revokeAndWait` stands: it was refused, as the account is stopping, or it
waits for a future, or it has returned a handle.  The flag is that of the handle. -/
inductive RevocationPhase where
  | stopping
  | waiting (tail : Option Nat) (finished : Bool)
  | completed (finished : Bool)
  deriving DecidableEq

/-- A call of `revokeAndWait`, with the token of the handle that it returns. -/
structure Revocation where
  key : String
  accountUuid : String
  token : Nat
  phase : RevocationPhase
  deriving DecidableEq

end Registry

open Registry

/-- The registry, with the calls that were made of it.  A future is the index of its
operation, and a token the index of the call that made it.  The last field lists the
operations that were started. -/
structure Registry (α : Type u) (ε : Type v) where
  tails : String → Option Nat
  revocations : String → Option Nat
  committedRevocations : String → Bool
  operations : List (Operation α ε)
  calls : List Revocation
  started : List Nat

namespace Registry

/-- The registry before all calls. -/
def empty : Registry α ε :=
  { tails := fun _ => none
    revocations := fun _ => none
    committedRevocations := fun _ => false
    operations := []
    calls := []
    started := [] }

/-- The key of an account. -/
def keyOf (network accountUuid : String) : String :=
  network ++ ":" ++ accountUuid

/-! ### Operations -/

/-- The future has completed. -/
def isReleased (r : Registry α ε) : Option Nat → Bool
  | none => true
  | some i =>
    match r.operations[i]?.map Operation.phase with
    | some (.released _) => true
    | _ => false

/-- The call of `run` up to its wait. -/
def run (r : Registry α ε) (network accountUuid : String) : Registry α ε :=
  let key := keyOf network accountUuid
  if (r.revocations key).isSome then
    { r with operations := r.operations ++ [⟨key, accountUuid, .refused accountUuid⟩] }
  else
    { r with
      operations := r.operations ++ [⟨key, accountUuid, .waiting (r.tails key)⟩]
      tails := Function.update r.tails key (some r.operations.length) }

/-- The end of an operation: its future completes, and it is not the last one any more. -/
def release (r : Registry α ε) (i : Nat) (op : Operation α ε) (outcome : Outcome α ε) :
    Registry α ε :=
  { r with
    operations := r.operations.set i { op with phase := .released outcome }
    tails := if r.tails op.key = some i then Function.update r.tails op.key none else r.tails }

/-- The call of `run` after its wait, which starts the operation. -/
def resume (r : Registry α ε) (i : Nat) : Registry α ε :=
  match r.operations[i]? with
  | some ⟨key, accountUuid, .waiting previous⟩ =>
    if r.isReleased previous then
      if (r.revocations key).isSome then
        r.release i ⟨key, accountUuid, .waiting previous⟩ (.revoked accountUuid)
      else
        { r with
          operations := r.operations.set i ⟨key, accountUuid, .running⟩
          started := r.started ++ [i] }
    else r
  | _ => r

/-- The operation returns or throws. -/
def finish (r : Registry α ε) (i : Nat) (result : Except ε α) : Registry α ε :=
  match r.operations[i]? with
  | some ⟨key, accountUuid, .running⟩ =>
    r.release i ⟨key, accountUuid, .running⟩ <|
      match result with
      | .ok value => .returned value
      | .error error => .threw error
  | _ => r

/-! ### Revocations -/

/-- The call of `revokeAndWait` up to its wait. -/
def revokeAndWait (r : Registry α ε) (network accountUuid : String) : Registry α ε :=
  let key := keyOf network accountUuid
  match r.revocations key with
  | some existingToken =>
    if r.committedRevocations key then
      { r with calls := r.calls ++ [⟨key, accountUuid, existingToken, .waiting (r.tails key) true⟩] }
    else
      { r with calls := r.calls ++ [⟨key, accountUuid, existingToken, .stopping⟩] }
  | none =>
    let token := r.calls.length
    { r with
      revocations := Function.update r.revocations key (some token)
      calls := r.calls ++ [⟨key, accountUuid, token, .waiting (r.tails key) false⟩] }

/-- The call of `revokeAndWait` after its wait, which returns the handle. -/
def revoked (r : Registry α ε) (j : Nat) : Registry α ε :=
  match r.calls[j]? with
  | some ⟨key, accountUuid, token, .waiting tail finished⟩ =>
    if r.isReleased tail then
      { r with calls := r.calls.set j ⟨key, accountUuid, token, .completed finished⟩ }
    else r
  | _ => r

/-- `_rollbackRevocation`. -/
def rollbackRevocation (r : Registry α ε) (key : String) (token : Nat) : Registry α ε :=
  if r.revocations key = some token then
    { r with
      revocations := Function.update r.revocations key none
      committedRevocations := Function.update r.committedRevocations key false }
  else r

/-- `_commitRevocation`. -/
def commitRevocation (r : Registry α ε) (key : String) (token : Nat) : Registry α ε :=
  if r.revocations key = some token then
    { r with committedRevocations := Function.update r.committedRevocations key true }
  else r

/-- A call of `commit` on the handle of a call. -/
def commit (r : Registry α ε) (j : Nat) : Registry α ε :=
  match r.calls[j]? with
  | some ⟨key, accountUuid, token, .completed false⟩ =>
    { r with calls := r.calls.set j ⟨key, accountUuid, token, .completed true⟩ }.commitRevocation
      key token
  | _ => r

/-- A call of `rollback` on the handle of a call. -/
def rollback (r : Registry α ε) (j : Nat) : Registry α ε :=
  match r.calls[j]? with
  | some ⟨key, accountUuid, token, .completed false⟩ =>
    { r with calls := r.calls.set j ⟨key, accountUuid, token, .completed true⟩ }.rollbackRevocation
      key token
  | _ => r

/-! ### Events -/

/-- What a caller does between two waits. -/
inductive Event (α : Type u) (ε : Type v) where
  | run (network accountUuid : String)
  | resume (i : Nat)
  | finish (i : Nat) (result : Except ε α)
  | revokeAndWait (network accountUuid : String)
  | revoked (j : Nat)
  | commit (j : Nat)
  | rollback (j : Nat)

/-- The registry after an event.  A caller that cannot go on yet changes nothing. -/
def step (r : Registry α ε) : Event α ε → Registry α ε
  | .run network accountUuid => r.run network accountUuid
  | .resume i => r.resume i
  | .finish i result => r.finish i result
  | .revokeAndWait network accountUuid => r.revokeAndWait network accountUuid
  | .revoked j => r.revoked j
  | .commit j => r.commit j
  | .rollback j => r.rollback j

/-- The operations of a key that were started, in the order in which they were. -/
def startedOf (r : Registry α ε) (key : String) : List Nat :=
  r.started.filter fun i => r.operations[i]?.map Operation.key = some key

end Registry

end Vizor
