import Vizor.Coordinator.Refreshes

/-!
# No refresh is lost

Passes do not overlap, and a poll adds none.  When no pass throws while a request is pending,
and no request is accepted between the end of a drain and its callback, every request that was
accepted is followed by a pass by the time no operation is recorded.  From a state where one
of these happens, a request can stay without a pass.
-/

namespace Vizor

open Run

namespace Refreshes

variable {c c' : Refreshes}

/-! ### What a turn does -/

/-- A request is taken by a pass of the drain. -/
def take (c : Refreshes) (d : Nat) : Refreshes :=
  { c with
    refreshPending := false
    forceAdvancePending := false
    drains := c.drains.set d (.running c.forceAdvancePending)
    history := c.history ++ [.started c.forceAdvancePending] }

/-- A drain ends. -/
def finish (c : Refreshes) (d : Nat) : Refreshes :=
  { c with drains := c.drains.set d .ended }

/-- A drain that has ended is unrecorded. -/
def unrecord (c : Refreshes) (d : Nat) : Refreshes :=
  { c with
    drains := c.drains.set d .unrecorded
    refreshOperation := if c.refreshOperation = some d then none else c.refreshOperation }

/-- The pass that a request starts when no operation is recorded. -/
def begun (c : Refreshes) (f : Bool) : Refreshes :=
  { c with
    refreshOperation := some c.drains.length
    refreshPending := false
    forceAdvancePending := false
    drains := c.drains ++ [.running (c.forceAdvancePending || f)]
    history := c.history ++ [.requested f] ++ [.started (c.forceAdvancePending || f)] }

theorem startDrain_request {f : Bool} :
  (c.request f).startDrain = c.begun f
  := by
  have hset : (c.drains ++ [Drain.ended]).set c.drains.length
      (.running (c.forceAdvancePending || f))
        = c.drains ++ [.running (c.forceAdvancePending || f)] := by
    rw [List.set_append_right _ _ (Nat.le_refl _), Nat.sub_self, List.set_cons_zero]
  rw [startDrain, drainRefreshes, request, begun]
  dsimp only
  rw [if_pos rfl, hset]

/-- What a turn does to the coordinator. -/
inductive Does (c : Refreshes) : Event → Refreshes → Prop where
  | nothing {e} : Does c e c
  | queue {d f} (hrecorded : c.refreshOperation = some d) :
      Does c (.refreshNow true f) (c.request f)
  | start {e f} (hnone : c.refreshOperation = none) : Does c e (c.begun f)
  | again {d} (hpass : c.InPass d) (hpending : c.refreshPending = true) :
      Does c (.passReturns d) (c.take d)
  | finish {e d} (hpass : c.InPass d) (hdone : c.refreshPending = false ∨ e = .passThrows d) :
      Does c e (c.finish d)
  | unrecord {d} (hended : c.drains[d]? = some .ended) : Does c (.whenComplete d) (c.unrecord d)

variable {e : Event} {d : Nat} {f accepted : Bool}

theorem does_refreshNow :
  Does c (.refreshNow accepted f) (c.refreshNow accepted f)
  := by
  rw [refreshNow.eq_def]
  split
  case _ haccepted =>
    subst haccepted
    split
    case _ d hrecorded => exact .queue hrecorded
    case _ hnone =>
      rw [startDrain_request]
      exact .start hnone
  case _ => exact .nothing

theorem does_step :
  Does c e (c.step e)
  := by
  cases e with
  | refreshNow accepted f => exact does_refreshNow
  | refreshForPolling accepted =>
    rw [step, refreshForPolling]
    split
    case _ => exact .nothing
    case _ hnone =>
      rw [refreshNow, hnone]
      dsimp only
      split
      · rw [startDrain_request]
        exact .start hnone
      · exact .nothing
  | passReturns d =>
    rw [step, passReturns]
    split
    case _ f hpass =>
      rw [drainRefreshes]
      split
      case _ hpending => exact .again ⟨f, hpass⟩ hpending
      case _ hpending => exact .finish ⟨f, hpass⟩ (.inl (Bool.eq_false_iff.mpr hpending))
    case _ => exact .nothing
  | passThrows d =>
    rw [step, passThrows]
    split
    case _ f hpass => exact .finish ⟨f, hpass⟩ (.inr rfl)
    case _ => exact .nothing
  | whenComplete d =>
    rw [step, whenComplete]
    split
    case _ hended => exact .unrecord hended
    case _ => exact .nothing

/-! ### Drains -/

/-- The recorded operation is the only drain that has not been unrecorded. -/
structure Sound (c : Refreshes) : Prop where
  recorded : ∀ (d : Nat) (drain : Drain), c.drains[d]? = some drain → drain ≠ .unrecorded →
    c.refreshOperation = some d
  operation : ∀ d, c.refreshOperation = some d →
    ∃ drain, c.drains[d]? = some drain ∧ drain ≠ .unrecorded

theorem Sound.of_inPass (h : c.Sound) (hpass : c.InPass d) :
  c.refreshOperation = some d
  := by
  obtain ⟨f, hf⟩ := hpass
  apply h.recorded d _ hf nofun

/-- A drain that goes on stays the only one. -/
theorem Sound.set {drain : Drain} (h : c.Sound) (hrecorded : c.refreshOperation = some d)
    (hdrains : c'.drains = c.drains.set d drain) (hne : drain ≠ .unrecorded)
    (hoperation : c'.refreshOperation = c.refreshOperation) :
  c'.Sound
  := by
  obtain ⟨old, hold, -⟩ := h.operation d hrecorded
  have hlt := (List.getElem?_eq_some_iff.mp hold).1
  constructor
  · intro i other hother hunrecorded
    rw [hoperation]
    rw [hdrains] at hother
    by_cases hdi : d = i
    · rw [← hdi]
      apply hrecorded
    · rw [List.getElem?_set_ne hdi] at hother
      apply h.recorded i other hother hunrecorded
  · intro i hi
    rw [hoperation, hrecorded, Option.some_inj] at hi
    subst hi
    rw [hdrains, List.getElem?_set_self hlt]
    exact ⟨drain, rfl, hne⟩

theorem Sound.does (h : c.Sound) (hdoes : Does c e c') :
  c'.Sound
  := by
  cases hdoes with
  | nothing => exact h
  | queue hrecorded => exact ⟨h.recorded, h.operation⟩
  | @start _ f hnone =>
    have hall : ∀ (i : Nat) (drain : Drain), c.drains[i]? = some drain → drain = .unrecorded := by
      intro i drain hdrain
      by_contra hunrecorded
      rw [h.recorded i drain hdrain hunrecorded] at hnone
      cases hnone
    constructor
    · intro i drain hdrain hunrecorded
      rw [begun] at hdrain
      dsimp only at hdrain
      rcases Nat.lt_or_ge i c.drains.length with hlt | hge
      · rw [List.getElem?_append_left hlt] at hdrain
        exact absurd (hall i drain hdrain) hunrecorded
      · have hlt := (List.getElem?_eq_some_iff.mp hdrain).1
        rw [List.length_append, List.length_singleton] at hlt
        have hi : c.drains.length = i := by omega
        rw [begun, hi]
    · intro i hi
      rw [begun, Option.some_inj] at hi
      subst hi
      refine ⟨.running (c.forceAdvancePending || f), ?_, nofun⟩
      apply List.getElem?_concat_length
  | again hpass hpending => exact h.set (h.of_inPass hpass) rfl nofun rfl
  | finish hpass hdone => exact h.set (h.of_inPass hpass) rfl nofun rfl
  | @unrecord d hended =>
    have hrecorded := h.recorded d _ hended nofun
    have hlt := (List.getElem?_eq_some_iff.mp hended).1
    constructor
    · intro i drain hdrain hunrecorded
      rw [unrecord] at hdrain
      dsimp only at hdrain
      by_cases hdi : d = i
      · subst hdi
        rw [List.getElem?_set_self hlt, Option.some_inj] at hdrain
        exact absurd hdrain.symm hunrecorded
      · rw [List.getElem?_set_ne hdi] at hdrain
        have hother := h.recorded i drain hdrain hunrecorded
        rw [hrecorded, Option.some_inj] at hother
        exact absurd hother hdi
    · intro i hi
      rw [unrecord, if_pos hrecorded] at hi
      cases hi

/-! ### Requests -/

variable {history : List Entry} {entry : Entry} {i : Nat}

theorem FollowedBy.append {new : List Entry} (h : FollowedBy history i f) :
  FollowedBy (history ++ new) i f
  := by
  obtain ⟨j, hj, f', hf', hforced⟩ := h
  refine ⟨j, hj, f', ?_, hforced⟩
  rw [List.getElem?_append_left (List.getElem?_eq_some_iff.mp hf').1, hf']

theorem getElem?_append_entry {old : Entry} (h : (history ++ [entry])[i]? = some old) :
  history[i]? = some old ∨ i = history.length ∧ old = entry
  := by
  rcases Nat.lt_or_ge i history.length with hlt | hge
  · rw [List.getElem?_append_left hlt] at h
    exact .inl h
  · rw [List.getElem?_append_right hge, List.getElem?_singleton] at h
    split at h
    · cases h
      exact .inr ⟨by omega, rfl⟩
    · cases h

/-- A request that is older than the newest pass is followed by it. -/
theorem followedBy_started {forced : Bool} (hi : i < history.length)
    (hforced : f = true → forced = true) :
  FollowedBy (history ++ [.started forced]) i f
  := ⟨history.length, hi, forced, List.getElem?_concat_length, hforced⟩

/-- A request that has no pass yet is pending, and a pass is going to take it. -/
structure Kept (c : Refreshes) : Prop where
  forced : c.forceAdvancePending = true → c.refreshPending = true
  pending : c.refreshPending = true → ∃ d, c.InPass d
  answered : ∀ (i : Nat) (f : Bool), c.history[i]? = some (.requested f) →
    FollowedBy c.history i f
      ∨ c.refreshPending = true ∧ (f = true → c.forceAdvancePending = true)

theorem Kept.does (h : c.Kept) (hs : c.Sound) (hdoes : Does c e c') (hturn : c.InTurn e) :
  c'.Kept
  := by
  cases hdoes with
  | nothing => exact h
  | @queue d f hrecorded =>
    refine ⟨fun _ => rfl, fun _ => ⟨d, hturn rfl d hrecorded⟩, ?_⟩
    intro i f' hi
    rcases getElem?_append_entry hi with hi | ⟨-, hf⟩
    · apply (h.answered i f' hi).imp FollowedBy.append
      rintro ⟨-, hforced⟩
      refine ⟨rfl, fun hf' => ?_⟩
      rw [request, hforced hf', Bool.true_or]
    · cases hf
      refine .inr ⟨rfl, fun hf => ?_⟩
      rw [request, hf, Bool.or_true]
  | @start _ f hnone =>
    refine ⟨nofun, nofun, ?_⟩
    intro i f' hi
    left
    rw [begun] at hi ⊢
    dsimp only at hi ⊢
    rcases getElem?_append_entry hi with hi | ⟨-, hf⟩
    · have hlt := (List.getElem?_eq_some_iff.mp hi).1
      rcases getElem?_append_entry hi with hi | ⟨-, hf⟩
      · rcases h.answered i f' hi with hfollowed | ⟨hpending, -⟩
        · apply hfollowed.append.append
        · obtain ⟨d, hpass⟩ := h.pending hpending
          rw [hs.of_inPass hpass] at hnone
          cases hnone
      · cases hf
        apply followedBy_started hlt
        intro hf
        rw [hf, Bool.or_true]
    · cases hf
  | @again d hpass hpending =>
    refine ⟨nofun, nofun, ?_⟩
    intro i f hi
    left
    rcases getElem?_append_entry hi with hi | ⟨-, hf⟩
    · rcases h.answered i f hi with hfollowed | ⟨-, hforced⟩
      · apply hfollowed.append
      · apply followedBy_started (List.getElem?_eq_some_iff.mp hi).1 hforced
    · cases hf
  | @finish _ d hpass hdone =>
    have hpending : c.refreshPending = false := by
      rcases hdone with hpending | rfl
      · apply hpending
      · apply hturn hpass
    refine ⟨h.forced, fun htrue => ?_, h.answered⟩
    rw [finish, hpending] at htrue
    cases htrue
  | @unrecord d hended =>
    refine ⟨h.forced, fun hpending => ?_, h.answered⟩
    obtain ⟨d', f, hpass⟩ := h.pending hpending
    refine ⟨d', f, ?_⟩
    rw [unrecord]
    dsimp only
    rw [List.getElem?_set_ne, hpass]
    rintro rfl
    rw [hended] at hpass
    cases hpass

/-! ### The newest request -/

/-- The newest pass is older than the pending request. -/
def Newest (c : Refreshes) : Prop :=
  c.refreshPending = true → ∃ (i : Nat) (f : Bool), c.history[i]? = some (.requested f) ∧
    ∀ (j : Nat) (f' : Bool), c.history[j]? = some (.started f') → j < i

theorem newest_request (c : Refreshes) (f : Bool) :
  (c.request f).Newest
  := by
  intro _
  refine ⟨c.history.length, f, List.getElem?_concat_length, ?_⟩
  intro j f' hj
  rcases getElem?_append_entry hj with hj | ⟨-, hf⟩
  · apply (List.getElem?_eq_some_iff.mp hj).1
  · cases hf

theorem Newest.does (h : c.Newest) (hdoes : Does c e c') :
  c'.Newest
  := by
  cases hdoes with
  | queue hrecorded => exact newest_request c _
  | start hnone => exact nofun
  | again hpass hpending => exact nofun
  | _ => exact h

theorem Newest.not_answered (h : c.Newest) (hpending : c.refreshPending = true) :
  ¬Answered c.history
  := by
  intro hanswered
  obtain ⟨i, f, hi, hnewest⟩ := h hpending
  obtain ⟨j, hj, f', hf', -⟩ := hanswered i f hi
  have := hnewest j f' hf'
  omega

/-! ### Runs -/

theorem sound_idle :
  idle.Sound
  := by
  constructor
  · intro d drain hdrain
    cases hdrain
  · intro d hd
    cases hd

theorem kept_idle :
  idle.Kept
  := by
  refine ⟨nofun, nofun, ?_⟩
  intro i f hi
  cases hi

theorem sound_after (events : List Event) :
  (after step idle events).Sound ∧ (after step idle events).Newest
  := by
  have hstep : ∀ (c : Refreshes) (e : Event), c.Sound ∧ c.Newest → True →
      (c.step e).Sound ∧ (c.step e).Newest := by
    rintro c e ⟨hs, hnewest⟩ -
    exact ⟨hs.does does_step, hnewest.does does_step⟩
  apply Run.invariant (I := fun c : Refreshes => c.Sound ∧ c.Newest) hstep ⟨sound_idle, nofun⟩
  apply along_of_forall
  intro _ _ _
  trivial

theorem kept_after {events : List Event} (hevents : Along step InTurn idle events) :
  (after step idle events).Kept
  := by
  have h : (after step idle events).Sound ∧ (after step idle events).Kept := by
    apply Run.invariant (I := fun c => c.Sound ∧ c.Kept) _ ⟨sound_idle, kept_idle⟩ hevents
    rintro c e ⟨hs, hkept⟩ hturn
    exact ⟨hs.does does_step, hkept.does hs does_step hturn⟩
  apply h.2

/-- A drain that ends while a request is pending leaves the request without a pass. -/
theorem lost_of_ended (hs : c.Sound) (hnewest : c.Newest) (hended : c.drains[d]? = some .ended)
    (hpending : c.refreshPending = true) :
  (c.step (.whenComplete d)).refreshOperation = none
    ∧ ¬Answered (c.step (.whenComplete d)).history
  := by
  rw [step, whenComplete, hended]
  dsimp only
  rw [if_pos (hs.recorded d _ hended nofun)]
  exact ⟨rfl, hnewest.not_answered hpending⟩

/-- Where the condition fails, a request stays without a pass once the drain is unrecorded. -/
theorem lost_of_not_inTurn (hs : c.Sound) (hnewest : c.Newest) (hturn : ¬c.InTurn e) :
  ∃ d, ((c.step e).step (.whenComplete d)).refreshOperation = none
    ∧ ¬Answered ((c.step e).step (.whenComplete d)).history
  := by
  have hs' : (c.step e).Sound := hs.does does_step
  have hnewest' : (c.step e).Newest := hnewest.does does_step
  cases e with
  | refreshNow accepted f =>
    rw [InTurn] at hturn
    push Not at hturn
    obtain ⟨rfl, d, hrecorded, hpass⟩ := hturn
    obtain ⟨drain, hdrain, hunrecorded⟩ := hs.operation d hrecorded
    refine ⟨d, ?_⟩
    have hstep : c.step (.refreshNow true f) = c.request f := by
      rw [step, refreshNow.eq_def, if_pos rfl, hrecorded]
    rw [hstep] at hs' hnewest' ⊢
    apply lost_of_ended hs' hnewest' _ rfl
    cases drain with
    | running f' => exact absurd ⟨f', hdrain⟩ hpass
    | ended => exact hdrain
    | unrecorded => exact absurd rfl hunrecorded
  | passThrows d =>
    rw [InTurn] at hturn
    push Not at hturn
    obtain ⟨⟨f, hpass⟩, hpending⟩ := hturn
    refine ⟨d, ?_⟩
    have hstep : c.step (.passThrows d) = c.finish d := by
      rw [step, passThrows, hpass]
      rfl
    rw [hstep] at hs' hnewest' ⊢
    apply lost_of_ended hs' hnewest'
    · apply List.getElem?_set_self (List.getElem?_eq_some_iff.mp hpass).1
    · rw [ne_eq, Bool.not_eq_false] at hpending
      apply hpending
  | refreshForPolling accepted => exact absurd trivial hturn
  | passReturns d => exact absurd trivial hturn
  | whenComplete d => exact absurd trivial hturn

/-- In every run in turn, every request is followed by a pass by the time no operation is
recorded.  In every run, passes do not overlap, a poll adds no pass behind a running one, and
a turn that breaks the condition can leave a request without a pass. -/
theorem no_refresh_lost (events : List Event) :
  let c := after step idle events
  (Along step InTurn idle events → c.refreshOperation = none → Answered c.history)
    ∧ (∀ d d', c.InPass d → c.InPass d' → d = d')
    ∧ (∀ d accepted, c.InPass d → c.step (.refreshForPolling accepted) = c)
    ∧ ∀ e, ¬c.InTurn e → ∃ d, ((c.step e).step (.whenComplete d)).refreshOperation = none
      ∧ ¬Answered ((c.step e).step (.whenComplete d)).history
  := by
  intro c
  obtain ⟨hs, hnewest⟩ : c.Sound ∧ c.Newest := sound_after events
  refine ⟨?_, ?_, ?_, ?_⟩
  · intro hevents hnone i f hi
    have hkept : c.Kept := kept_after hevents
    rcases hkept.answered i f hi with hfollowed | ⟨hpending, -⟩
    · apply hfollowed
    · obtain ⟨d, hpass⟩ := hkept.pending hpending
      rw [hs.of_inPass hpass] at hnone
      cases hnone
  · intro d d' hpass hpass'
    have hrecorded := hs.of_inPass hpass
    rw [hs.of_inPass hpass', Option.some_inj] at hrecorded
    apply hrecorded.symm
  · intro d accepted hpass
    rw [step, refreshForPolling, hs.of_inPass hpass]
  · intro e hturn
    apply lost_of_not_inTurn hs hnewest hturn

/-- A request that forces an advance is made during the pass of another one, which returns. -/
def sampleQueued : List Event :=
  [.refreshNow true false, .refreshNow true true, .passReturns 0, .passReturns 0, .whenComplete 0]

/-- The second request is answered by a second pass. -/
theorem no_refresh_lost_queued :
  (after step idle sampleQueued).history
      = [.requested false, .started false, .requested true, .started true]
    ∧ Answered (after step idle sampleQueued).history
  := by
  have hturns : Along step InTurn idle sampleQueued := by
    refine ⟨fun _ d hd => ?_, fun _ d hd => ?_, trivial, trivial, trivial, trivial⟩
    · cases hd
    · cases hd
      exact ⟨false, rfl⟩
  exact ⟨by decide, (no_refresh_lost sampleQueued).1 hturns (by decide)⟩

/-- A request that forces an advance is made during the pass of another one, and this pass
throws. -/
def sampleThrown : List Event :=
  [.refreshNow true false, .refreshNow true true, .passThrows 0, .whenComplete 0]

theorem sampleThrown_not_answered :
  (after step idle sampleThrown).refreshOperation = none
    ∧ ¬Answered (after step idle sampleThrown).history
  := by
  refine ⟨by decide, ?_⟩
  apply Newest.not_answered (sound_after sampleThrown).2
  decide

end Refreshes

end Vizor
