import Vizor.Lib.Run

/-!
# Refreshes of the migration coordinator

A request for a refresh sets a flag and starts a drain unless one is recorded.  A drain takes
the flag and runs a pass, again and again until the flag is not set or a pass throws.  A drain
that has ended is unrecorded later, by the callback of its future.  Each event of this file is
one turn of the event loop, and the provider stays mounted.
-/

namespace Vizor

open Run

namespace Refreshes

/-- Where a drain stands: in a pass, or at its end, or behind its callback. -/
inductive Drain where
  | running (forceAdvance : Bool)
  | ended
  | unrecorded
  deriving DecidableEq

/-- What happened: a request was accepted, or a pass was started. -/
inductive Entry where
  | requested (forceAdvance : Bool)
  | started (forceAdvance : Bool)
  deriving DecidableEq

end Refreshes

open Refreshes

/-- The fields of the coordinator that its refreshes use, with the drains that were started.
The last field is the history of requests and passes. -/
structure Refreshes where
  refreshOperation : Option Nat
  refreshPending : Bool
  forceAdvancePending : Bool
  drains : List Drain
  history : List Entry
  deriving DecidableEq

namespace Refreshes

/-- The coordinator before all requests. -/
def idle : Refreshes :=
  { refreshOperation := none
    refreshPending := false
    forceAdvancePending := false
    drains := []
    history := [] }

/-- `_drainRefreshes` up to its next wait: the next pass, if one is asked for. -/
def drainRefreshes (c : Refreshes) (d : Nat) : Refreshes :=
  if c.refreshPending then
    { c with
      refreshPending := false
      forceAdvancePending := false
      drains := c.drains.set d (.running c.forceAdvancePending)
      history := c.history ++ [.started c.forceAdvancePending] }
  else { c with drains := c.drains.set d .ended }

/-- A request sets the flags. -/
def request (c : Refreshes) (forceAdvance : Bool) : Refreshes :=
  { c with
    refreshPending := true
    forceAdvancePending := c.forceAdvancePending || forceAdvance
    history := c.history ++ [.requested forceAdvance] }

/-- A new drain runs up to its first wait, and is recorded. -/
def startDrain (c : Refreshes) : Refreshes :=
  let tracked := c.drains.length
  { ({ c with drains := c.drains ++ [.ended] } : Refreshes).drainRefreshes tracked with
    refreshOperation := some tracked }

/-- `refreshNow`, which accepts the request when the process can run and the wallet is
unlocked. -/
def refreshNow (c : Refreshes) (accepted forceAdvance : Bool) : Refreshes :=
  if accepted then
    match c.refreshOperation with
    | some _ => c.request forceAdvance
    | none => (c.request forceAdvance).startDrain
  else c

/-- `refreshForPolling`. -/
def refreshForPolling (c : Refreshes) (accepted : Bool) : Refreshes :=
  match c.refreshOperation with
  | some _ => c
  | none => c.refreshNow accepted false

/-- A pass returns, and its drain goes on. -/
def passReturns (c : Refreshes) (d : Nat) : Refreshes :=
  match c.drains[d]? with
  | some (.running _) => c.drainRefreshes d
  | _ => c

/-- A pass throws, and its drain ends. -/
def passThrows (c : Refreshes) (d : Nat) : Refreshes :=
  match c.drains[d]? with
  | some (.running _) => { c with drains := c.drains.set d .ended }
  | _ => c

/-- The callback at the end of a drain. -/
def whenComplete (c : Refreshes) (d : Nat) : Refreshes :=
  match c.drains[d]? with
  | some .ended =>
    { c with
      drains := c.drains.set d .unrecorded
      refreshOperation := if c.refreshOperation = some d then none else c.refreshOperation }
  | _ => c

/-- A turn of the event loop. -/
inductive Event where
  | refreshNow (accepted forceAdvance : Bool)
  | refreshForPolling (accepted : Bool)
  | passReturns (d : Nat)
  | passThrows (d : Nat)
  | whenComplete (d : Nat)
  deriving DecidableEq

/-- The coordinator after a turn. -/
def step (c : Refreshes) : Event → Refreshes
  | .refreshNow accepted forceAdvance => c.refreshNow accepted forceAdvance
  | .refreshForPolling accepted => c.refreshForPolling accepted
  | .passReturns d => c.passReturns d
  | .passThrows d => c.passThrows d
  | .whenComplete d => c.whenComplete d

/-! ### Requests and passes -/

/-- A pass was started after the request, and forces the advance if the request does. -/
def FollowedBy (history : List Entry) (i : Nat) (forceAdvance : Bool) : Prop :=
  ∃ j > i, ∃ f, history[j]? = some (.started f) ∧ (forceAdvance = true → f = true)

/-- Every request is followed by a pass, and a request for a forced advance by one that
forces it. -/
def Answered (history : List Entry) : Prop :=
  ∀ (i : Nat) (forceAdvance : Bool), history[i]? = some (.requested forceAdvance) →
    FollowedBy history i forceAdvance

/-- A drain is in a pass. -/
def InPass (c : Refreshes) (d : Nat) : Prop :=
  ∃ forceAdvance, c.drains[d]? = some (.running forceAdvance)

/-- No pass throws while a request is pending, and no request is accepted between the end of
a drain and its callback. -/
def InTurn (c : Refreshes) : Event → Prop
  | .passThrows d => c.InPass d → c.refreshPending = false
  | .refreshNow accepted _ => accepted = true → ∀ d, c.refreshOperation = some d → c.InPass d
  | _ => True

end Refreshes

end Vizor
