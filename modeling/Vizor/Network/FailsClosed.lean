import Vizor.Network.Privacy

/-!
# The network policy fails closed

In every run in order, no request is routed directly and no direct connection is polled while
Tor is enabled, a failure of an older request does not disturb a newer one, and the status
agrees with the desired route and the client when all calls have taken their steps.
-/

namespace Vizor

open Run Interleave

namespace NetworkPrivacy

/-! ### Regions -/

/-- The call holds the lock of the wakers. -/
def Point.InWakers : Point → Prop
  | .beginDesired | .beginStatus | .beginEpoch | .beginUnlock | .pollDesired _ | .pollEpoch _
  | .pollInner _ | .pollUnlock _ => True
  | _ => False

/-- The call holds the lock of the bootstrap. -/
def Point.InInit : Point → Prop
  | .checkDesired _ | .checkStatus _ | .checkClient _ | .storeBootstrapping _ | .createDir _
  | .awaitBootstrap _ | .install _ _ | .failing _ | .releaseInit => True
  | _ => False

/-- The poll has found that Tor is not desired. -/
def Point.InDirectPoll : Point → Prop
  | .pollEpoch _ | .pollInner _ => True
  | _ => False

/-- The request for Tor is going to clear the client. -/
def Point.Clears : Point → Prop
  | .beginEpoch | .beginUnlock | .beginClear => True
  | _ => False

theorem Point.InDirectPoll.inWakers {p : Point} (h : p.InDirectPoll) :
  p.InWakers
  := by
  cases p with
  | pollEpoch l => trivial
  | pollInner l => trivial
  | _ => exact h.elim

/-- Calls that keep each other out. -/
structure Point.Apart (p q : Point) : Prop where
  wakers : p.InWakers → ¬q.InWakers
  init : p.InInit → ¬q.InInit
  poll : p.InDirectPoll → ¬q.InBegin
  begin : p.InBegin → ¬q.InDirectPoll

/-! ### What is known at a point -/

/-- What holds of the state of the process. -/
structure Sound (s : Shared) : Prop where
  enabled : s.enabled = true → s.torDesired = true
  direct : s.torDesired = false → s.torStatus = .direct ∧ s.client = none
  ready : s.torStatus = .ready → s.client ≠ none
  client : s.client ≠ none → s.torStatus = .ready ∨ s.torStatus = .bootstrapping
  undisturbed : s.disturbed = false

/-- A bootstrap that is going to store its status has seen that the status is not ready. -/
def Point.StoresStatus : Point → Prop
  | .storeBootstrapping _ => True
  | _ => False

/-- The direct route was chosen while Tor was not enabled. -/
def Point.RoutedWell : Point → Prop
  | .routeStatus _ _ desired enabled => desired = false → enabled = false
  | .routed (.ok .direct) enabled => enabled = false
  | _ => True

/-- What a call relies on at its point. -/
structure Relies (s : Shared) (p : Point) : Prop where
  wakers : p.InWakers → s.wakersLocked = true
  init : p.InInit → s.initLocked = true
  begin : p.InBegin → s.torDesired = true
  status : p.StoresStatus → s.torStatus ≠ .ready
  poll : p.InDirectPoll → s.enabled = false
  epoch : ∀ l, p = .pollInner l → l.epoch = s.directRouteEpoch
  routed : p.RoutedWell

variable {s : Shared} {a : Answer} {p q : Point} {w : World Shared Point}

/-! ### What a step does -/

/-- What a step of a call does to what others rely on. -/
structure Effect (s : Shared) (p : Point) (s' : Shared) : Prop where
  wakers : s.wakersLocked = true → s'.wakersLocked = true ∨ p.InWakers
  init : s.initLocked = true → s'.initLocked = true ∨ p.InInit
  desired : s.torDesired = true → s'.torDesired = true ∨ p = .disableTor
  ready : s'.torStatus = .ready → s.torStatus = .ready ∨ p.InInit
  enabled : s'.enabled = true → s.enabled = true ∨ p.InBegin
  epoch : s'.directRouteEpoch = s.directRouteEpoch ∨ p.InWakers

theorem effect_self :
  Effect s p s
  := ⟨Or.inl, Or.inl, Or.inl, Or.inl, Or.inl, Or.inl rfl⟩

theorem effect_setTorFailed {attempt : Nat} :
  Effect s p (s.setTorFailed attempt)
  := by
  refine ⟨Or.inl, Or.inl, Or.inl, fun h => ?_, Or.inl, Or.inl rfl⟩
  rw [Shared.setTorFailed] at h
  split at h
  · cases h
  · exact Or.inl h

theorem effect_advance :
  Effect s p (s.advance a p).1
  := by
  cases p with
  | beginTorEnable =>
    rw [Shared.advance]
    split
    · apply effect_self
    · exact ⟨fun _ => Or.inl rfl, Or.inl, Or.inl, Or.inl, Or.inl, Or.inl rfl⟩
  | beginDesired => exact ⟨Or.inl, Or.inl, fun _ => Or.inl rfl, Or.inl, Or.inl, Or.inl rfl⟩
  | beginStatus => exact ⟨Or.inl, Or.inl, Or.inl, nofun, Or.inl, Or.inl rfl⟩
  | beginEpoch => exact ⟨Or.inl, Or.inl, Or.inl, Or.inl, Or.inl, Or.inr trivial⟩
  | beginUnlock => exact ⟨fun _ => Or.inr trivial, Or.inl, Or.inl, Or.inl, Or.inl, Or.inl rfl⟩
  | beginClear => exact ⟨Or.inl, Or.inl, Or.inl, Or.inl, fun _ => Or.inr trivial, Or.inl rfl⟩
  | disableTor => exact ⟨Or.inl, Or.inl, fun _ => Or.inr rfl, nofun, nofun, Or.inl rfl⟩
  | failTorEnable attempt => exact effect_setTorFailed
  | enableTor attempt => exact ⟨Or.inl, Or.inl, fun _ => Or.inl rfl, Or.inl, Or.inl, Or.inl rfl⟩
  | waitInit attempt =>
    rw [Shared.advance]
    split
    · split <;> exact effect_self
    · exact ⟨Or.inl, fun _ => Or.inl rfl, Or.inl, Or.inl, Or.inl, Or.inl rfl⟩
  | storeBootstrapping attempt => exact ⟨Or.inl, Or.inl, Or.inl, nofun, Or.inl, Or.inl rfl⟩
  | install attempt client =>
    rw [Shared.advance]
    split
    · exact ⟨Or.inl, Or.inl, Or.inl, fun _ => Or.inr trivial, Or.inl, Or.inl rfl⟩
    · apply effect_self
  | failing attempt => exact effect_setTorFailed
  | releaseInit => exact ⟨Or.inl, fun _ => Or.inr trivial, Or.inl, Or.inl, Or.inl, Or.inl rfl⟩
  | newLease => exact ⟨Or.inl, Or.inl, Or.inl, Or.inl, Or.inl, Or.inl rfl⟩
  | leaseId => exact ⟨Or.inl, Or.inl, Or.inl, Or.inl, Or.inl, Or.inl rfl⟩
  | lease l =>
    rw [Shared.advance]
    split
    · apply effect_self
    · split
      · exact ⟨Or.inl, Or.inl, Or.inl, Or.inl, Or.inl, Or.inl rfl⟩
      · exact ⟨fun _ => Or.inl rfl, Or.inl, Or.inl, Or.inl, Or.inl, Or.inl rfl⟩
  | pollInner l => exact ⟨Or.inl, Or.inl, Or.inl, Or.inl, Or.inl, Or.inl rfl⟩
  | pollUnlock l => exact ⟨fun _ => Or.inr trivial, Or.inl, Or.inl, Or.inl, Or.inl, Or.inl rfl⟩
  | routeStatus isolated client desired enabled =>
    rw [Shared.advance]
    split
    · apply effect_self
    · split <;> exact effect_self
    · apply effect_self
  | awaitBootstrap attempt =>
    rw [Shared.advance]
    split
    · apply effect_self
    · apply effect_self
    · split <;> exact effect_self
  | resolveRoute _ | checkDesired _ | checkStatus _ | checkClient _ | createDir _
  | pollDesired _ | pollEpoch _ =>
    rw [Shared.advance]
    split <;> exact effect_self
  | routeDesired _ _ | leaseEpoch _ | routed _ _ | done => exact effect_self

/-- How a call comes into a region. -/
structure Enters (s : Shared) (p p' : Point) : Prop where
  wakers : p'.InWakers → p.InWakers ∨ s.wakersLocked = false
  init : p'.InInit → p.InInit ∨ s.initLocked = false
  poll : p'.InDirectPoll → p.InDirectPoll ∨ s.torDesired = false
  begin : p'.InBegin → p.InBegin ∨ p.InWakers

theorem enters_advance :
  Enters s p (s.advance a p).2
  := by
  cases p with
  | beginTorEnable =>
    rw [Shared.advance]
    split
    · exact ⟨nofun, nofun, nofun, nofun⟩
    case _ h => exact ⟨fun _ => Or.inr (Bool.eq_false_iff.mpr h), nofun, nofun, nofun⟩
  | beginDesired => exact ⟨Or.inl, nofun, nofun, fun _ => Or.inr trivial⟩
  | beginStatus | beginEpoch => exact ⟨Or.inl, nofun, nofun, Or.inl⟩
  | beginUnlock => exact ⟨nofun, nofun, nofun, Or.inl⟩
  | waitInit attempt =>
    rw [Shared.advance]
    split
    · split <;> exact ⟨nofun, nofun, nofun, nofun⟩
    case _ h => exact ⟨nofun, fun _ => Or.inr (Bool.eq_false_iff.mpr h), nofun, nofun⟩
  | checkDesired _ | checkStatus _ | checkClient _ | createDir _ | install _ _ =>
    rw [Shared.advance]
    split <;> exact ⟨nofun, Or.inl, nofun, nofun⟩
  | awaitBootstrap attempt =>
    rw [Shared.advance]
    split
    · exact ⟨nofun, Or.inl, nofun, nofun⟩
    · exact ⟨nofun, Or.inl, nofun, nofun⟩
    · split <;> exact ⟨nofun, Or.inl, nofun, nofun⟩
  | storeBootstrapping _ | failing _ => exact ⟨nofun, Or.inl, nofun, nofun⟩
  | lease l =>
    rw [Shared.advance]
    split
    · exact ⟨nofun, nofun, nofun, nofun⟩
    case _ h =>
      split
      · exact ⟨nofun, nofun, nofun, nofun⟩
      · exact ⟨fun _ => Or.inr (Bool.eq_false_iff.mpr h), nofun, nofun, nofun⟩
  | pollDesired l =>
    rw [Shared.advance]
    split
    · exact ⟨Or.inl, nofun, nofun, nofun⟩
    case _ h =>
      exact ⟨Or.inl, nofun, fun _ => Or.inr (Bool.eq_false_iff.mpr h), nofun⟩
  | pollEpoch l =>
    rw [Shared.advance]
    split
    · exact ⟨Or.inl, nofun, nofun, nofun⟩
    · exact ⟨Or.inl, nofun, Or.inl, nofun⟩
  | pollInner l => exact ⟨Or.inl, nofun, nofun, nofun⟩
  | resolveRoute isolated =>
    rw [Shared.advance]
    split <;> exact ⟨nofun, nofun, nofun, nofun⟩
  | routeStatus isolated client desired enabled =>
    rw [Shared.advance]
    split
    · exact ⟨nofun, nofun, nofun, nofun⟩
    · split <;> exact ⟨nofun, nofun, nofun, nofun⟩
    · exact ⟨nofun, nofun, nofun, nofun⟩
  | beginClear | disableTor | failTorEnable _ | enableTor _ | releaseInit | routeDesired _ _
  | routed _ _ | newLease | leaseId | leaseEpoch _ | pollUnlock _ | done =>
    exact ⟨nofun, nofun, nofun, nofun⟩

/-! ### Other calls -/

/-- A step in order does not disturb the other calls. -/
theorem Relies.stable (hq : Relies s q) (hpq : p.Apart q)
    (hdisable : p = .disableTor → ¬q.InBegin) :
  Relies (s.advance a p).1 q
  := by
  have heffect : Effect s p (s.advance a p).1 := effect_advance
  constructor
  · intro h
    apply (heffect.wakers (hq.wakers h)).resolve_right fun hpw => hpq.wakers hpw h
  · intro h
    apply (heffect.init (hq.init h)).resolve_right fun hpi => hpq.init hpi h
  · intro h
    apply (heffect.desired (hq.begin h)).resolve_right fun hpd => hdisable hpd h
  · intro h hready
    rcases heffect.ready hready with hready | hpi
    · apply hq.status h hready
    · cases q with
      | storeBootstrapping _ => exact hpq.init hpi trivial
      | _ => exact h.elim
  · intro h
    rw [Bool.eq_false_iff]
    intro henabled
    rcases heffect.enabled henabled with henabled | hpb
    · rw [hq.poll h] at henabled
      cases henabled
    · apply hpq.begin hpb h
  · rintro l rfl
    rcases heffect.epoch with hsame | hpw
    · rw [hsame]
      apply hq.epoch l rfl
    · exact absurd trivial (hpq.wakers hpw)
  · apply hq.routed

/-- A step does not bring a call to where another one keeps it out. -/
theorem Relies.apart (hq : Relies s q) (hpq : p.Apart q) :
  (s.advance a p).2.Apart q
  := by
  have henters : Enters s p (s.advance a p).2 := enters_advance
  constructor
  · intro h hqw
    rcases henters.wakers h with hpw | hfree
    · apply hpq.wakers hpw hqw
    · rw [hq.wakers hqw] at hfree
      cases hfree
  · intro h hqi
    rcases henters.init h with hpi | hfree
    · apply hpq.init hpi hqi
    · rw [hq.init hqi] at hfree
      cases hfree
  · intro h hqb
    rcases henters.poll h with hpp | hundesired
    · apply hpq.poll hpp hqb
    · rw [hq.begin hqb] at hundesired
      cases hundesired
  · intro h hqp
    rcases henters.begin h with hpb | hpw
    · apply hpq.begin hpb hqp
    · apply hpq.wakers hpw hqp.inWakers

/-! ### The call that takes the step -/

/-- A call that is in no region relies on nothing but its route. -/
theorem Relies.outside (hw : ¬p.InWakers) (hi : ¬p.InInit) (hb : ¬p.InBegin)
    (hs : ¬p.StoresStatus) (hr : p.RoutedWell) :
  Relies s p
  := by
  refine ⟨fun h => absurd h hw, fun h => absurd h hi, fun h => absurd h hb,
    fun h => absurd h hs, fun h => absurd h.inWakers hw, ?_, hr⟩
  rintro l rfl
  exact absurd trivial hw

/-- A bootstrap that goes on relies on its lock. -/
theorem Relies.bootstrap (hi : s.initLocked = true) (hw : ¬p.InWakers) (hb : ¬p.InBegin)
    (hs : p.StoresStatus → s.torStatus ≠ .ready) (hr : p.RoutedWell) :
  Relies s p
  := by
  refine ⟨fun h => absurd h hw, fun _ => hi, fun h => absurd h hb, hs,
    fun h => absurd h.inWakers hw, ?_, hr⟩
  rintro l rfl
  exact absurd trivial hw

/-- Only a route that is not desired through Tor is direct. -/
theorem routeDecision_eq_direct {torDesired hasClient isolated : Bool} {torStatus : Status}
    (h : routeDecision torDesired torStatus hasClient isolated = .ok .direct) :
  torDesired = false
  := by
  unfold routeDecision at h
  split at h
  · assumption
  · split at h
    · cases h
    · cases isolated <;> cases h

theorem Relies.advance (hs : Sound s) (hp : Relies s p) :
  Relies (s.advance a p).1 (s.advance a p).2
  := by
  cases p with
  | beginTorEnable =>
    rw [Shared.advance]
    split
    · exact .outside nofun nofun nofun nofun trivial
    · exact ⟨fun _ => rfl, nofun, nofun, nofun, nofun, nofun, trivial⟩
  | beginDesired => exact ⟨hp.wakers, nofun, fun _ => rfl, nofun, nofun, nofun, trivial⟩
  | beginStatus | beginEpoch =>
    exact ⟨hp.wakers, nofun, hp.begin, nofun, nofun, nofun, trivial⟩
  | beginUnlock => exact ⟨nofun, nofun, hp.begin, nofun, nofun, nofun, trivial⟩
  | waitInit attempt =>
    rw [Shared.advance]
    split
    · split <;> exact .outside nofun nofun nofun nofun trivial
    · exact .bootstrap rfl nofun nofun nofun trivial
  | checkDesired _ | createDir _ | install _ _ =>
    rw [Shared.advance]
    split <;> exact .bootstrap (hp.init trivial) nofun nofun nofun trivial
  | checkStatus attempt =>
    rw [Shared.advance]
    split
    · exact .bootstrap (hp.init trivial) nofun nofun nofun trivial
    case _ h => exact .bootstrap (hp.init trivial) nofun nofun (fun _ => h) trivial
  | checkClient attempt =>
    rw [Shared.advance]
    split
    · exact .bootstrap (hp.init trivial) nofun nofun nofun trivial
    case _ h =>
      refine .bootstrap (hp.init trivial) nofun nofun ?_ trivial
      intro _ hready
      apply hs.ready hready (Option.not_isSome_iff_eq_none.mp h)
  | storeBootstrapping _ | failing _ =>
    exact .bootstrap (hp.init trivial) nofun nofun nofun trivial
  | awaitBootstrap attempt =>
    rw [Shared.advance]
    split
    · exact .bootstrap (hp.init trivial) nofun nofun nofun trivial
    · exact .bootstrap (hp.init trivial) nofun nofun nofun trivial
    · split <;> exact .bootstrap (hp.init trivial) nofun nofun nofun trivial
  | resolveRoute isolated =>
    rw [Shared.advance]
    split <;> exact .outside nofun nofun nofun nofun trivial
  | routeDesired isolated client =>
    refine .outside nofun nofun nofun nofun ?_
    intro hundesired
    rw [Bool.eq_false_iff]
    intro henabled
    rw [hs.enabled henabled] at hundesired
    cases hundesired
  | routeStatus isolated client desired enabled =>
    rw [Shared.advance]
    split
    case _ route hroute =>
      refine .outside nofun nofun nofun nofun ?_
      cases route with
      | direct => exact hp.routed (routeDecision_eq_direct hroute)
      | _ => trivial
    · split <;> exact .outside nofun nofun nofun nofun trivial
    · exact .outside nofun nofun nofun nofun trivial
  | routed route enabled => exact .outside nofun nofun nofun nofun hp.routed
  | lease l =>
    rw [Shared.advance]
    split
    · exact .outside nofun nofun nofun nofun trivial
    · split
      · exact .outside nofun nofun nofun nofun trivial
      · exact ⟨fun _ => rfl, nofun, nofun, nofun, nofun, nofun, trivial⟩
  | pollDesired l =>
    rw [Shared.advance]
    split
    · exact ⟨hp.wakers, nofun, nofun, nofun, nofun, nofun, trivial⟩
    case _ h =>
      refine ⟨hp.wakers, nofun, nofun, nofun, fun _ => ?_, nofun, trivial⟩
      rw [Bool.eq_false_iff]
      intro henabled
      apply h (hs.enabled henabled)
  | pollEpoch l =>
    rw [Shared.advance]
    split
    · exact ⟨hp.wakers, nofun, nofun, nofun, nofun, nofun, trivial⟩
    case _ h =>
      refine ⟨hp.wakers, nofun, nofun, nofun, hp.poll, ?_, trivial⟩
      rintro l' ⟨⟩
      apply not_not.mp h
  | pollInner l => exact ⟨hp.wakers, nofun, nofun, nofun, nofun, nofun, trivial⟩
  | beginClear | disableTor | failTorEnable _ | enableTor _ | releaseInit | newLease | leaseId
  | leaseEpoch _ | pollUnlock _ | done =>
    exact .outside nofun nofun nofun nofun trivial

/-! ### The shared state -/

/-- A failure in order leaves the state sound. -/
theorem Sound.setTorFailed {attempt : Nat} (hs : Sound s) (h : s.FailureInOrder attempt) :
  Sound (s.setTorFailed attempt)
  := by
  constructor
  · apply hs.enabled
  · intro hundesired
    have hundesired : s.torDesired = false := hundesired
    simp only [Shared.setTorFailed, hundesired]
    exact ⟨(hs.direct hundesired).1, trivial⟩
  · intro hready
    rw [Shared.setTorFailed] at hready
    split at hready
    · cases hready
    case _ hdesired =>
      rw [(hs.direct (Bool.eq_false_iff.mpr hdesired)).1] at hready
      cases hready
  · intro hclient
    exact absurd rfl hclient
  · simp only [Shared.setTorFailed, hs.undisturbed, Bool.false_or, decide_eq_false_iff_not]
    rintro ⟨holder, hchanged⟩
    rcases h with hnewest | hundesired | hfailed
    · omega
    · rcases hchanged with hclient | ⟨hdesired, -⟩
      · apply hclient (hs.direct hundesired).2
      · rw [hundesired] at hdesired
        cases hdesired
    · rcases hchanged with hclient | ⟨-, hstatus⟩
      · rcases hs.client hclient with h | h
        · rw [hfailed] at h
          cases h
        · rw [hfailed] at h
          cases h
      · apply hstatus hfailed

/-- A step in order leaves the state sound. -/
theorem Sound.advance {i : Nat} (hs : Sound w.shared) (hp : Relies w.shared p)
    (h : StepInOrder w i a p) :
  Sound (w.shared.advance a p).1
  := by
  have hsame : ∀ s' : Shared, s'.enabled = w.shared.enabled →
      s'.torDesired = w.shared.torDesired → s'.torStatus = w.shared.torStatus →
      s'.client = w.shared.client → s'.disturbed = w.shared.disturbed → Sound s' := by
    rintro ⟨⟩ ⟨⟩ ⟨⟩ ⟨⟩ ⟨⟩ ⟨⟩
    exact ⟨hs.enabled, hs.direct, hs.ready, hs.client, hs.undisturbed⟩
  cases p with
  | beginDesired => exact ⟨fun _ => rfl, nofun, hs.ready, hs.client, hs.undisturbed⟩
  | beginStatus =>
    refine ⟨hs.enabled, fun hundesired => ?_, nofun, fun _ => Or.inr rfl, hs.undisturbed⟩
    cases (hp.begin trivial).symm.trans hundesired
  | beginClear =>
    refine ⟨fun _ => hp.begin trivial, fun hundesired => ?_, fun hready => absurd hready h,
      fun hclient => absurd rfl hclient, hs.undisturbed⟩
    cases (hp.begin trivial).symm.trans hundesired
  | disableTor =>
    exact ⟨nofun, fun _ => ⟨rfl, rfl⟩, nofun, fun hclient => absurd rfl hclient, hs.undisturbed⟩
  | failTorEnable attempt => exact hs.setTorFailed h
  | enableTor attempt => exact ⟨fun _ => rfl, nofun, hs.ready, hs.client, hs.undisturbed⟩
  | storeBootstrapping attempt =>
    refine ⟨hs.enabled, fun hundesired => ?_, nofun, fun _ => Or.inr rfl, hs.undisturbed⟩
    cases (show w.shared.torDesired = true from h).symm.trans hundesired
  | install attempt client =>
    rw [Shared.advance]
    split
    case _ hdesired =>
      refine ⟨hs.enabled, fun hundesired => ?_, fun _ => nofun, fun _ => Or.inl rfl,
        hs.undisturbed⟩
      cases hdesired.symm.trans hundesired
    · apply hs
  | failing attempt => exact hs.setTorFailed h
  | beginTorEnable =>
    rw [Shared.advance]
    split
    · apply hs
    · exact hsame _ rfl rfl rfl rfl rfl
  | waitInit attempt =>
    rw [Shared.advance]
    split
    · split <;> exact hs
    · exact hsame _ rfl rfl rfl rfl rfl
  | lease l =>
    rw [Shared.advance]
    split
    · apply hs
    · split <;> exact hsame _ rfl rfl rfl rfl rfl
  | awaitBootstrap attempt =>
    rw [Shared.advance]
    split
    · apply hs
    · apply hs
    · split <;> exact hs
  | routeStatus isolated client desired enabled =>
    rw [Shared.advance]
    split
    · apply hs
    · split <;> exact hs
    · apply hs
  | checkDesired _ | checkStatus _ | checkClient _ | createDir _ | resolveRoute _
  | pollDesired _ | pollEpoch _ =>
    rw [Shared.advance]
    split <;> exact hs
  | beginEpoch | beginUnlock | releaseInit | newLease | leaseId | pollInner _ | pollUnlock _ =>
    exact hsame _ rfl rfl rfl rfl rfl
  | routeDesired _ _ | leaseEpoch _ | routed _ _ | done => exact hs

/-! ### Statuses and clients that are to be set right -/

/-- Tor is desired, and the status does not say so yet. -/
def Unpublished (s : Shared) : Prop :=
  s.torDesired = true ∧ s.torStatus = .direct

/-- A client is left that a request for Tor is going to clear. -/
def Uncleared (s : Shared) : Prop :=
  s.client ≠ none ∧ s.torStatus ≠ .ready

theorem not_unpublished_setTorFailed {attempt : Nat} :
  ¬Unpublished (s.setTorFailed attempt)
  := by
  rintro ⟨hdesired, hstatus⟩
  have hdesired : s.torDesired = true := hdesired
  simp only [Shared.setTorFailed, hdesired, if_true] at hstatus
  cases hstatus

/-- After a step in order, a status that is to be published is so by the call, or by another
one. -/
theorem unpublished_advance {i : Nat} (hs : Sound w.shared) (h : StepInOrder w i a p)
    (hafter : Unpublished (w.shared.advance a p).1) :
  (w.shared.advance a p).2.Publishes ∨ Unpublished w.shared ∧ ¬p.Publishes
    ∨ ∃ q ∈ w.calls.eraseIdx i, q.Publishes
  := by
  cases p with
  | beginDesired | enableTor _ => exact Or.inl trivial
  | beginStatus | storeBootstrapping _ => cases hafter.2
  | disableTor => cases hafter.1
  | failTorEnable _ | failing _ => exact absurd hafter not_unpublished_setTorFailed
  | waitInit attempt =>
    revert hafter
    rw [Shared.advance]
    split
    case _ hlocked =>
      split
      case _ hexpired =>
        intro hafter
        exact Or.inr (Or.inr (h hlocked hexpired hafter.1 hafter.2))
      · exact fun _ => Or.inl trivial
    · exact fun _ => Or.inl trivial
  | checkDesired attempt =>
    revert hafter
    rw [Shared.advance]
    split
    · exact fun _ => Or.inl trivial
    case _ hundesired => exact fun hafter => absurd hafter.1 hundesired
  | checkStatus attempt =>
    rw [Shared.advance]
    split <;> exact Or.inl trivial
  | checkClient attempt =>
    revert hafter
    rw [Shared.advance]
    split
    case _ hclient =>
      intro hafter
      rcases hs.client (Option.isSome_iff_ne_none.mp hclient) with h | h
      · cases h.symm.trans hafter.2
      · cases h.symm.trans hafter.2
    · exact fun _ => Or.inl trivial
  | install attempt client =>
    revert hafter
    rw [Shared.advance]
    split
    · exact fun hafter => nomatch hafter.2
    case _ hundesired => exact fun hafter => absurd hafter.1 hundesired
  | beginTorEnable | createDir _ | resolveRoute _ | pollDesired _ | pollEpoch _ =>
    revert hafter
    rw [Shared.advance]
    split <;> exact fun hafter => Or.inr (Or.inl ⟨hafter, nofun⟩)
  | lease l =>
    revert hafter
    rw [Shared.advance]
    split
    · exact fun hafter => Or.inr (Or.inl ⟨hafter, nofun⟩)
    · split <;> exact fun hafter => Or.inr (Or.inl ⟨hafter, nofun⟩)
  | awaitBootstrap attempt =>
    revert hafter
    rw [Shared.advance]
    split
    · exact fun hafter => Or.inr (Or.inl ⟨hafter, nofun⟩)
    · exact fun hafter => Or.inr (Or.inl ⟨hafter, nofun⟩)
    · split <;> exact fun hafter => Or.inr (Or.inl ⟨hafter, nofun⟩)
  | routeStatus isolated client desired enabled =>
    revert hafter
    rw [Shared.advance]
    split
    · exact fun hafter => Or.inr (Or.inl ⟨hafter, nofun⟩)
    · split <;> exact fun hafter => Or.inr (Or.inl ⟨hafter, nofun⟩)
    · exact fun hafter => Or.inr (Or.inl ⟨hafter, nofun⟩)
  | beginEpoch | beginUnlock | beginClear | releaseInit | newLease | leaseId | pollInner _
  | pollUnlock _ | routeDesired _ _ | leaseEpoch _ | routed _ _ | done =>
    exact Or.inr (Or.inl ⟨hafter, nofun⟩)

/-- After a step, a client that is to be cleared is so by the call, or by another one. -/
theorem uncleared_advance (hp : Relies s p) (hafter : Uncleared (s.advance a p).1) :
  (s.advance a p).2.Clears ∨ Uncleared s ∧ ¬p.Clears
  := by
  cases p with
  | beginStatus | beginEpoch | beginUnlock => exact Or.inl trivial
  | beginClear | disableTor | failTorEnable _ | failing _ => exact absurd rfl hafter.1
  | storeBootstrapping attempt => exact Or.inr ⟨⟨hafter.1, hp.status trivial⟩, nofun⟩
  | install attempt client =>
    revert hafter
    rw [Shared.advance]
    split
    · exact fun hafter => absurd rfl hafter.2
    · exact fun hafter => Or.inr ⟨hafter, nofun⟩
  | waitInit attempt =>
    revert hafter
    rw [Shared.advance]
    split
    · split <;> exact fun hafter => Or.inr ⟨hafter, nofun⟩
    · exact fun hafter => Or.inr ⟨hafter, nofun⟩
  | beginTorEnable | checkDesired _ | checkStatus _ | checkClient _ | createDir _
  | resolveRoute _ | pollDesired _ | pollEpoch _ =>
    revert hafter
    rw [Shared.advance]
    split <;> exact fun hafter => Or.inr ⟨hafter, nofun⟩
  | lease l =>
    revert hafter
    rw [Shared.advance]
    split
    · exact fun hafter => Or.inr ⟨hafter, nofun⟩
    · split <;> exact fun hafter => Or.inr ⟨hafter, nofun⟩
  | awaitBootstrap attempt =>
    revert hafter
    rw [Shared.advance]
    split
    · exact fun hafter => Or.inr ⟨hafter, nofun⟩
    · exact fun hafter => Or.inr ⟨hafter, nofun⟩
    · split <;> exact fun hafter => Or.inr ⟨hafter, nofun⟩
  | routeStatus isolated client desired enabled =>
    revert hafter
    rw [Shared.advance]
    split
    · exact fun hafter => Or.inr ⟨hafter, nofun⟩
    · split <;> exact fun hafter => Or.inr ⟨hafter, nofun⟩
    · exact fun hafter => Or.inr ⟨hafter, nofun⟩
  | beginDesired | enableTor _ | releaseInit | newLease | leaseId | pollInner _ | pollUnlock _
  | routeDesired _ _ | leaseEpoch _ | routed _ _ | done =>
    exact Or.inr ⟨hafter, nofun⟩

/-! ### Runs -/

theorem preservesApart :
  PreservesApart calls InOrder Sound Relies Point.Apart
  := by
  constructor
  · intro p q h
    exact ⟨fun hq hp => h.wakers hp hq, fun hq hp => h.init hp hq,
      fun hq hp => h.begin hp hq, fun hq hp => h.poll hp hq⟩
  · intro w k _ _
    refine ⟨?_, fun q _ => ?_⟩
    · cases k <;> exact .outside nofun nofun nofun nofun trivial
    · cases k <;> exact ⟨nofun, nofun, nofun, nofun⟩
  · intro w i a p hw h hp
    exact ⟨hw.1.advance (hw.at hp) (h p hp), (hw.at hp).advance hw.1⟩
  · intro w i a p q hw h hp hq hpq
    refine ⟨(hw.2 q hq).stable hpq ?_, (hw.2 q hq).apart hpq⟩
    rintro rfl
    apply h _ hp q hq
  · intro w _
    exact ⟨nofun, fun _ => ⟨rfl, rfl⟩, nofun, fun h => absurd rfl h, rfl⟩

theorem preservesOwed_unpublished :
  PreservesOwed calls InOrder Sound Relies Unpublished Point.Publishes
  := by
  constructor
  · intro w i a p hw h hp hafter
    apply unpublished_advance hw.1 (h p hp) hafter
  · exact fun _ h => nomatch h.1

theorem preservesOwed_uncleared :
  PreservesOwed calls InOrder Sound Relies Uncleared Point.Clears
  := by
  constructor
  · intro w i a p hw _ hp hafter
    rcases uncleared_advance (hw.at hp) hafter with hclears | hbefore
    · exact Or.inl hclears
    · exact Or.inr (Or.inl hbefore)
  · exact fun _ h => h.1 rfl

/-- What holds after every run in order. -/
structure Settles (w : World Shared Point) : Prop where
  holds : Holds Sound Relies w
  apart : Apart Point.Apart w
  published : Owed Unpublished Point.Publishes w
  cleared : Owed Uncleared Point.Clears w

theorem settles_idle :
  Settles (World.idle {})
  := by
  refine ⟨holds_idle ?_, apart_idle, nofun, fun h => absurd rfl h.1⟩
  exact ⟨nofun, fun _ => ⟨rfl, rfl⟩, nofun, fun h => absurd rfl h, rfl⟩

theorem Settles.step {m : Move Call Answer} (hw : Settles w) (h : InOrder w m) :
  Settles (calls.step w m)
  := by
  obtain ⟨hholds, hapart⟩ := preservesApart.step ⟨hw.holds, hw.apart⟩ h
  exact ⟨hholds, hapart, preservesOwed_unpublished.step hw.holds hw.published h,
    preservesOwed_uncleared.step hw.holds hw.cleared h⟩

theorem Point.Finished.not_publishes (h : p.Finished) :
  ¬p.Publishes
  := by
  cases p with
  | routed _ _ | lease _ | done => exact id
  | _ => exact h.elim

theorem Point.Finished.not_clears (h : p.Finished) :
  ¬p.Clears
  := by
  cases p with
  | routed _ _ | lease _ | done => exact id
  | _ => exact h.elim

theorem Settles.failsClosed (hw : Settles w) :
  FailsClosed w
  := by
  constructor
  · intro enabled hmem
    apply (hw.holds.2 _ hmem).routed
  · intro l hmem
    exact ⟨(hw.holds.2 _ hmem).epoch l rfl, (hw.holds.2 _ hmem).poll trivial⟩
  · apply hw.holds.1.undisturbed
  · intro hfinished
    constructor
    · constructor
      · intro hdirect
        rw [Bool.eq_false_iff]
        intro hdesired
        obtain ⟨p, hp, hpublishes⟩ := hw.published ⟨hdesired, hdirect⟩
        apply (hfinished p hp).not_publishes hpublishes
      · exact fun hundesired => (hw.holds.1.direct hundesired).1
    · constructor
      · intro hclient
        by_contra hready
        obtain ⟨p, hp, hclears⟩ :=
          hw.cleared ⟨Option.isSome_iff_ne_none.mp hclient, hready⟩
        apply (hfinished p hp).not_clears hclears
      · exact fun hready => Option.isSome_iff_ne_none.mpr (hw.holds.1.ready hready)

/-- In every run in order the network policy fails closed. -/
theorem fails_closed {moves : List (Move Call Answer)}
    (h : Along calls.step InOrder (World.idle {}) moves) :
  FailsClosed (after calls.step (World.idle {}) moves)
  := by
  have hsettles : Settles (after calls.step (World.idle {}) moves) :=
    invariant (fun _ _ hw hm => hw.step hm) settles_idle h
  apply hsettles.failsClosed

/-- Steps of one call. -/
def sampleSteps (i n : Nat) (a : Answer := {}) : List (Move Call Answer) :=
  List.replicate n (.advance i a)

/-- A lease is obtained and polled; Tor is requested and bootstrapped; the lease is polled
again, and a request is routed. -/
def sampleEnabled : List (Move Call Answer) :=
  [.call .directRouteLease] ++ sampleSteps 0 8
    ++ [.call .beginTorEnable] ++ sampleSteps 1 6
    ++ [.call (.enableTor 1)] ++ sampleSteps 2 6 ++ sampleSteps 2 3 { bootstrap := .created 7 }
    ++ sampleSteps 0 3 ++ [.call (.torClientForRoute true)] ++ sampleSteps 3 3

theorem fails_closed_sample :
  FailsClosed (after calls.step (World.idle {}) sampleEnabled)
  := fails_closed (by decide +kernel)

/-- Tor is requested, and switched off after its bootstrap has seen that it is desired and
before the bootstrap stores its status. -/
def sampleSwitchedOff : List (Move Call Answer) :=
  [.call .beginTorEnable] ++ sampleSteps 0 6 ++ [.call (.enableTor 1)] ++ sampleSteps 1 4
    ++ [.call .disableTor] ++ sampleSteps 2 1 ++ sampleSteps 1 5

/-- All calls have taken their steps, Tor is not desired, and the status is that of a
bootstrap. -/
theorem sampleSwitchedOff_not_closed :
  ¬ FailsClosed (after calls.step (World.idle {}) sampleSwitchedOff)
  := by
  intro h
  have hfinished : ∀ p ∈ (after calls.step (World.idle {}) sampleSwitchedOff).calls,
      p.Finished := by decide +kernel
  have hstatus : (after calls.step (World.idle {}) sampleSwitchedOff).shared.torStatus
      = .bootstrapping := by decide +kernel
  have hdesired : (after calls.step (World.idle {}) sampleSwitchedOff).shared.torDesired
      = false := by decide +kernel
  have hdirect := (h.settled hfinished).1.mpr hdesired
  cases hstatus.symm.trans hdirect

end NetworkPrivacy

end Vizor
