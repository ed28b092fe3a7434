import Vizor.Lib.Interleave

/-!
# The network route

Requests go direct or through Tor.  The desired route, the status, the Tor client and the
epoch of direct connections are kept apart: the client behind a lock, the others in atomics.
Enabling and disabling Tor, the bootstrap of a client, the resolution of routes and the polls
of direct connections take their steps in any order; a region under the lock of the client is
one step, and so is an access to an atomic.
-/

namespace Vizor

open Run Interleave

namespace NetworkPrivacy

/-! ### Routes -/

inductive Status where
  | direct
  | bootstrapping
  | ready
  | failed
  deriving DecidableEq, Repr

inductive RouteDecision where
  | direct
  | torShared
  | torIsolated
  deriving DecidableEq, Repr

inductive RouteBlocked where
  | bootstrapping
  | failed
  | unavailable
  deriving DecidableEq, Repr

def RouteBlocked.message : RouteBlocked → String
  | bootstrapping => "Tor is still connecting"
  | failed => "Tor connection failed"
  | unavailable => "Tor is enabled but unavailable"

def routeDecision (torDesired : Bool) (torStatus : Status) (hasClient isolated : Bool) :
    Except RouteBlocked RouteDecision :=
  if torDesired = false then .ok .direct
  else if torStatus ≠ .ready ∨ hasClient = false then
    .error (match torStatus with
      | .bootstrapping => .bootstrapping
      | .failed => .failed
      | _ => .unavailable)
  else .ok (if isolated then .torIsolated else .torShared)

def torBootstrapTimeoutMessage : String :=
  "Tor could not connect. Check your internet connection and try again."

def routeWaitCancelledMessage : String :=
  "Route wait cancelled"

/-! ### The state of the process -/

structure Shared where
  torDesired : Bool := false
  torStatus : Status := .direct
  client : Option Nat := none
  initLocked : Bool := false
  directRouteEpoch : Nat := 0
  nextDirectIoId : Nat := 1
  activeDirectIo : Nat := 0
  wakersLocked : Bool := false
  wakers : List Nat := []
  /-- The number of times that Tor was requested; no code reads it. -/
  attempts : Nat := 0
  /-- A request for Tor has returned, and Tor was not switched off since; no code reads it. -/
  enabled : Bool := false
  /-- The failure of an older request changed the status or the client of a newer one; no code
  reads it. -/
  disturbed : Bool := false
  deriving DecidableEq, Repr

/-- The right to poll a direct connection. -/
structure DirectRouteLease where
  id : Nat
  epoch : Nat
  deriving DecidableEq, Repr

/-- Where a call stands. -/
inductive Point where
  /-- Tor is requested. -/
  | beginTorEnable
  | beginDesired
  | beginStatus
  | beginEpoch
  | beginUnlock
  | beginClear
  /-- Tor is switched off. -/
  | disableTor
  /-- A request for Tor is abandoned. -/
  | failTorEnable (attempt : Nat)
  /-- A client is bootstrapped for a request. -/
  | enableTor (attempt : Nat)
  | waitInit (attempt : Nat)
  | checkDesired (attempt : Nat)
  | checkStatus (attempt : Nat)
  | checkClient (attempt : Nat)
  | storeBootstrapping (attempt : Nat)
  | createDir (attempt : Nat)
  | awaitBootstrap (attempt : Nat)
  | install (attempt client : Nat)
  | failing (attempt : Nat)
  | releaseInit
  /-- The route of a request is resolved. -/
  | resolveRoute (isolated : Bool)
  | routeDesired (isolated : Bool) (client : Option Nat)
  /-- The desired route was read, and whether Tor was enabled then, which no code reads. -/
  | routeStatus (isolated : Bool) (client : Option Nat) (desired enabled : Bool)
  | routed (route : Except String RouteDecision) (enabled : Bool)
  /-- A lease is obtained, polled and dropped. -/
  | newLease
  | leaseId
  | leaseEpoch (id : Nat)
  | lease (l : DirectRouteLease)
  | pollDesired (l : DirectRouteLease)
  | pollEpoch (l : DirectRouteLease)
  /-- The inner connection is polled. -/
  | pollInner (l : DirectRouteLease)
  | pollUnlock (l : DirectRouteLease)
  | done

/-- What becomes of a bootstrap while it is awaited. -/
inductive BootstrapEvent where
  | created (client : Nat)
  /-- The bootstrap fails, or its deadline passes. -/
  | failed
  /-- The route is looked at. -/
  | tick
  deriving DecidableEq, Repr

/-- What a step gets from outside. -/
structure Answer where
  expired : Bool := false
  cancelled : Bool := false
  dirCreated : Bool := true
  bootstrap : BootstrapEvent := .tick
  dropped : Bool := false
  deriving DecidableEq, Repr

/-- The calls. -/
inductive Call where
  | beginTorEnable
  | disableTor
  | failTorEnable (attempt : Nat)
  | enableTor (attempt : Nat)
  | torClientForRoute (isolated : Bool)
  | directRouteLease

namespace Shared

/-- Publish that a request has failed. -/
def setTorFailed (s : Shared) (attempt : Nat) : Shared :=
  { s with
    client := none
    torStatus := if s.torDesired then .failed else s.torStatus
    disturbed := s.disturbed || decide (attempt < s.attempts
      ∧ (s.client ≠ none ∨ s.torDesired = true ∧ s.torStatus ≠ .failed)) }

/-- The next step of a call. -/
def advance (a : Answer) (s : Shared) : Point → Shared × Point
  | .beginTorEnable =>
    if s.wakersLocked then (s, .beginTorEnable)
    else ({ s with wakersLocked := true }, .beginDesired)
  | .beginDesired => ({ s with torDesired := true, attempts := s.attempts + 1 }, .beginStatus)
  | .beginStatus => ({ s with torStatus := .bootstrapping }, .beginEpoch)
  | .beginEpoch => ({ s with directRouteEpoch := s.directRouteEpoch + 1 }, .beginUnlock)
  | .beginUnlock => ({ s with wakers := [], wakersLocked := false }, .beginClear)
  | .beginClear => ({ s with client := none, enabled := true }, .done)
  | .disableTor =>
    ({ s with torDesired := false, torStatus := .direct, client := none, enabled := false },
      .done)
  | .failTorEnable attempt => (s.setTorFailed attempt, .done)
  | .enableTor attempt => ({ s with torDesired := true }, .waitInit attempt)
  | .waitInit attempt =>
    if s.initLocked then (if a.expired then (s, .done) else (s, .waitInit attempt))
    else ({ s with initLocked := true }, .checkDesired attempt)
  | .checkDesired attempt =>
    if s.torDesired then (s, .checkStatus attempt) else (s, .releaseInit)
  | .checkStatus attempt =>
    if s.torStatus = .ready then (s, .checkClient attempt) else (s, .storeBootstrapping attempt)
  | .checkClient attempt =>
    if s.client.isSome then (s, .releaseInit) else (s, .storeBootstrapping attempt)
  | .storeBootstrapping attempt => ({ s with torStatus := .bootstrapping }, .createDir attempt)
  | .createDir attempt =>
    if a.dirCreated then (s, .awaitBootstrap attempt) else (s, .failing attempt)
  | .awaitBootstrap attempt =>
    match a.bootstrap with
    | .created client => (s, .install attempt client)
    | .failed => (s, .failing attempt)
    | .tick => if s.torDesired then (s, .awaitBootstrap attempt) else (s, .failing attempt)
  | .install _ client =>
    if s.torDesired then ({ s with client := some client, torStatus := .ready }, .releaseInit)
    else (s, .releaseInit)
  | .failing attempt => (s.setTorFailed attempt, .releaseInit)
  | .releaseInit => ({ s with initLocked := false }, .done)
  | .resolveRoute isolated =>
    if a.cancelled then (s, .routed (.error routeWaitCancelledMessage) false)
    else (s, .routeDesired isolated s.client)
  | .routeDesired isolated client => (s, .routeStatus isolated client s.torDesired s.enabled)
  | .routeStatus isolated client desired enabled =>
    match routeDecision desired s.torStatus client.isSome isolated with
    | .ok route => (s, .routed (.ok route) enabled)
    | .error .bootstrapping =>
      if a.expired then (s, .routed (.error torBootstrapTimeoutMessage) enabled)
      else (s, .resolveRoute isolated)
    | .error blocked => (s, .routed (.error blocked.message) enabled)
  | .newLease => ({ s with activeDirectIo := s.activeDirectIo + 1 }, .leaseId)
  | .leaseId => ({ s with nextDirectIoId := s.nextDirectIoId + 1 }, .leaseEpoch s.nextDirectIoId)
  | .leaseEpoch id => (s, .lease ⟨id, s.directRouteEpoch⟩)
  | .lease l =>
    if s.wakersLocked then (s, .lease l)
    else if a.dropped then
      ({ s with
        wakers := s.wakers.filter (· ≠ l.id), activeDirectIo := s.activeDirectIo - 1 }, .done)
    else ({ s with wakersLocked := true }, .pollDesired l)
  | .pollDesired l => if s.torDesired then (s, .pollUnlock l) else (s, .pollEpoch l)
  | .pollEpoch l =>
    if l.epoch ≠ s.directRouteEpoch then (s, .pollUnlock l) else (s, .pollInner l)
  | .pollInner l => ({ s with wakers := l.id :: s.wakers.filter (· ≠ l.id) }, .pollUnlock l)
  | .pollUnlock l => ({ s with wakersLocked := false }, .lease l)
  | .routed route enabled => (s, .routed route enabled)
  | .done => (s, .done)

end Shared

/-- Where a call begins. -/
def Call.start : Call → Point
  | .beginTorEnable => .beginTorEnable
  | .disableTor => .disableTor
  | .failTorEnable attempt => .failTorEnable attempt
  | .enableTor attempt => .enableTor attempt
  | .torClientForRoute isolated => .resolveRoute isolated
  | .directRouteLease => .newLease

/-- The calls of a process, in any order of their steps. -/
def calls : Program Shared Point Call Answer where
  start := Call.start
  advance := Shared.advance
  crash _ := {}

/-! ### What the policy promises -/

/-- The call has taken its steps; a lease waits to be polled or dropped. -/
def Point.Finished : Point → Prop
  | .routed _ _ | .lease _ | .done => True
  | _ => False

instance {p : Point} : Decidable p.Finished := by
  cases p <;> unfold Point.Finished <;> infer_instance

/-- The policy fails closed. -/
structure FailsClosed (w : World Shared Point) : Prop where
  /-- No request was routed directly while Tor was enabled. -/
  routed : ∀ enabled, Point.routed (.ok .direct) enabled ∈ w.calls → enabled = false
  /-- No direct connection is polled while Tor is enabled, or after Tor was requested since
  its lease was obtained. -/
  polled : ∀ l, Point.pollInner l ∈ w.calls →
    l.epoch = w.shared.directRouteEpoch ∧ w.shared.enabled = false
  undisturbed : w.shared.disturbed = false
  settled : (∀ p ∈ w.calls, p.Finished) →
    (w.shared.torStatus = .direct ↔ w.shared.torDesired = false)
      ∧ (w.shared.client.isSome = true ↔ w.shared.torStatus = .ready)

/-! ### Orders that keep the promise -/

/-- A request for Tor has stored what is desired, and has not returned. -/
def Point.InBegin : Point → Prop
  | .beginStatus | .beginEpoch | .beginUnlock | .beginClear => True
  | _ => False

/-- The call has stored that Tor is desired, and is on its way to store a status. -/
def Point.Publishes : Point → Prop
  | .beginStatus | .waitInit _ | .checkDesired _ | .checkStatus _ | .checkClient _
  | .storeBootstrapping _ => True
  | _ => False

instance {p : Point} : Decidable p.InBegin := by
  cases p <;> unfold Point.InBegin <;> infer_instance

instance {p : Point} : Decidable p.Publishes := by
  cases p <;> unfold Point.Publishes <;> infer_instance

/-- A failure is that of the newest request, or finds nothing to change. -/
def Shared.FailureInOrder (s : Shared) (attempt : Nat) : Prop :=
  s.attempts ≤ attempt ∨ s.torDesired = false ∨ s.torStatus = .failed

/-- A step in order: Tor is not switched off while a request for Tor is being made; a bootstrap
stores its status while Tor is desired; a request for Tor does not clear the client of a status
that is ready; a failure is that of the newest request, or finds nothing to change; and a wait
for a bootstrap does not expire when no other call is to publish a status for a route that is
desired and has none. -/
def StepInOrder (w : World Shared Point) (i : Nat) (a : Answer) : Point → Prop
  | .disableTor => ∀ q ∈ w.calls, ¬q.InBegin
  | .storeBootstrapping _ => w.shared.torDesired = true
  | .beginClear => w.shared.torStatus ≠ .ready
  | .failing attempt | .failTorEnable attempt => w.shared.FailureInOrder attempt
  | .waitInit _ =>
    w.shared.initLocked = true → a.expired = true → w.shared.torDesired = true →
      w.shared.torStatus = .direct → ∃ q ∈ w.calls.eraseIdx i, q.Publishes
  | _ => True

/-- A move in order. -/
def InOrder (w : World Shared Point) : Move Call Answer → Prop
  | .advance i a => ∀ p ∈ w.calls[i]?, StepInOrder w i a p
  | _ => True

instance {s : Shared} {attempt : Nat} : Decidable (s.FailureInOrder attempt) := by
  unfold Shared.FailureInOrder
  infer_instance

instance {w : World Shared Point} {i : Nat} {a : Answer} {p : Point} :
    Decidable (StepInOrder w i a p) := by
  cases p <;> unfold StepInOrder <;> infer_instance

instance {w : World Shared Point} {m : Move Call Answer} : Decidable (InOrder w m) := by
  cases m <;> unfold InOrder <;> infer_instance

end NetworkPrivacy

end Vizor
