import Vizor.Coordinator.LeaseAccounts

/-!
# Pause leases balance

Every mutation that pauses has its own lease until it resumes, the leases that the native side
holds are known to the lifecycle, and the revocations are final exactly for deleted accounts.
This holds as long as no mutation gives back the lease of another one in place of a lease that
it never took, none throws between its deletion and its resume, no deletion throws after it
deleted, and no lease is given up while others are given back.
-/

namespace Vizor

open Run

namespace PauseLeases

variable {c c' : PauseLeases} {l : Lifecycle} {ms : List Mutation} {m m' : Mutation}
  {i leaseId : Nat} {leaseIds : List Nat}

/-! ### Fair events -/

/-- A mutation whose pause did not reach the native side does not take the held lease of
another one off the queue, none throws between its deletion and its resume, no deletion throws
after it deleted, and no held lease is given up while others are given back. -/
def Fair (c : PauseLeases) : Event → Prop
  | .quiesceAnswers i _ => ∀ m ∈ c.mutations[i]?, m.point = .quiescing → m.reached = false →
    ∀ id ∈ c.lifecycle.quiescenceLeaseIds.head?, id ∉ c.lifecycle.mutationLeases
  | .throws i => ∀ m ∈ c.mutations[i]?, m.point = .deleted → m.quiesces = false
  | .deletes i returned => ∀ m ∈ c.mutations[i]?, m.kind.isGuarded = false → m.point = .running →
    returned = false → m.revoked = []
  | .resumeAnswers i reached _ => ∀ m ∈ c.mutations[i]?, ∀ id ∈ m.releasing.head?,
    reached = false → id ∈ c.lifecycle.mutationLeases →
      m.isLastAttempt → ∀ m' ∈ c.mutations.eraseIdx i, m'.isResuming = false
  | _ => True

/-- The leases of a state are accounted for. -/
def LeasesBalanced (c : PauseLeases) : Prop :=
  Balanced c.lifecycle c.mutations

/-- A mutation changes nothing that its leases depend on. -/
theorem Balanced.edit (h : Balanced l ms) (hi : ms[i]? = some m)
    (hquiesces : m'.quiesces = m.quiesces) (hpoint : m'.point = m.point)
    (hreached : m'.reached = m.reached) (hquiesced : m'.quiesced = m.quiesced) :
  Balanced l (ms.set i m')
  := by
  have hm := List.mem_of_getElem? hi
  have howes : m'.owes = m.owes := by rw [Mutation.owes, Mutation.owes, hquiesces, hpoint]
  apply h.move hi howes (fun _ => hreached)
  · rw [howes, hreached, hquiesced, hpoint]
    apply h.quiesced m hm
  · rw [howes, hreached, hpoint]
    apply h.paused m hm
  · rw [hpoint, hquiesces]
    apply h.asked m hm
  · rw [Mutation.releasing, Mutation.releasing, hpoint]
  · rw [Mutation.isResuming, Mutation.isResuming, hpoint]
  · rw [Mutation.succeeds, Mutation.succeeds, hpoint]
    apply id

/-- A mutation without a lease ends. -/
theorem Balanced.end (h : Balanced l ms) (hi : ms[i]? = some m) (howes : m.owes = false)
    (hresuming : m.isResuming = false) (hpoint : m'.point = .ended) :
  Balanced l (ms.set i m')
  := by
  have howes' : m'.owes = false := by
    rw [Mutation.owes, hpoint]
    simp
  have hreleasing : m.releasing = [] := by
    rw [Mutation.isResuming] at hresuming
    rw [Mutation.releasing]
    split at hresuming
    case _ => cases hresuming
    case _ => rfl
  apply h.move hi
  · rw [howes, howes']
  · rw [howes']
    intro htrue
    cases htrue
  · intro _ hne
    exact absurd hpoint hne
  · rw [howes']
    intro htrue
    cases htrue
  · rw [hpoint]
    apply Point.noConfusion
  · rw [hreleasing, Mutation.releasing, hpoint]
  · rw [hresuming, Mutation.isResuming, hpoint]
  · rw [Mutation.succeeds, hpoint]
    intro htrue
    cases htrue

theorem balanced_resumeOrEnd (h : LeasesBalanced c) (hi : c.mutations[i]? = some m)
    (hquiesces : m'.quiesces = m.quiesces)
    (hpoint : m.point = .quiescing ∨ m.point = .running ∨ m.point = .deleted)
    (hown : m.reached = false → m.quiesces = true →
      ∀ id ∈ c.lifecycle.quiescenceLeaseIds.head?, id ∉ c.lifecycle.mutationLeases) :
  LeasesBalanced (c.resumeOrEnd i m')
  := by
  have howes : m.owes = m.quiesces := by
    rw [Mutation.owes]
    obtain hpoint | hpoint | hpoint := hpoint
    all_goals simp [hpoint]
  have hresuming : m.isResuming = false := by
    rw [Mutation.isResuming]
    obtain hpoint | hpoint | hpoint := hpoint
    all_goals rw [hpoint]
  rw [resumeOrEnd, hquiesces]
  split
  case isTrue htrue =>
    apply Balanced.resumeAfterMutation h hi
    · rw [howes, htrue]
    · intro hreached
      apply hown hreached htrue
    · rfl
    · rfl
  case isFalse hfalse =>
    rw [Bool.not_eq_true] at hfalse
    apply Balanced.end h hi (howes.trans hfalse) hresuming rfl

/-- A mutation that has paused gives back a lease that the native side holds. -/
theorem LeasesBalanced.reached_of_paused (h : LeasesBalanced c) (hi : c.mutations[i]? = some m)
    (hpoint : m.point = .running ∨ m.point = .deleted) (hreached : m.reached = false) :
  m.quiesces = false
  := by
  rw [← Bool.not_eq_true]
  intro hquiesces
  have howes : m.owes = true := by
    rw [Mutation.owes, hquiesces]
    obtain hpoint | hpoint := hpoint
    all_goals simp [hpoint]
  have hne : m.point ≠ .quiescing := by
    obtain hpoint | hpoint := hpoint
    all_goals
      rw [hpoint]
      apply Point.noConfusion
  have htrue := h.paused m (List.mem_of_getElem? hi) howes hne
  rw [hreached] at htrue
  cases htrue

/-- A mutation goes on in `resumeAfterMutation` or ends, after it has paused. -/
theorem balanced_resumeOrEnd_of_paused (h : LeasesBalanced c) (hi : c.mutations[i]? = some m)
    (hquiesces : m'.quiesces = m.quiesces) (hpoint : m.point = .running ∨ m.point = .deleted) :
  LeasesBalanced (c.resumeOrEnd i m')
  := by
  apply balanced_resumeOrEnd h hi hquiesces (.inr hpoint)
  intro hreached htrue
  rw [h.reached_of_paused hi hpoint hreached] at htrue
  cases htrue

theorem balanced_begin {kind : Kind} {parent : Option Nat} (h : LeasesBalanced c) :
  LeasesBalanced (c.begin kind parent)
  := by
  rw [begin.eq_def]
  split
  case _ => exact Balanced.begin h rfl rfl
  case _ =>
    split
    case _ =>
      split
      case isTrue => exact Balanced.begin h rfl rfl
      case isFalse => exact h
    case _ => exact h

theorem balanced_revoke (h : LeasesBalanced c) :
  LeasesBalanced (c.revoke i)
  := by
  rw [revoke]
  split
  case _ m hi =>
    split
    case _ hpoint _ =>
      split
      case _ =>
        split
        case isTrue => exact Balanced.edit h hi rfl rfl rfl rfl
        case isFalse =>
          apply Balanced.end h hi
          · rw [Mutation.owes, hpoint]
            simp
          · rw [Mutation.isResuming, hpoint]
          · rfl
      case _ => exact Balanced.edit h hi rfl rfl rfl rfl
    case _ => exact h
  case _ => exact h

theorem balanced_quiesce {reached : Bool} (h : LeasesBalanced c) :
  LeasesBalanced (c.quiesce i reached)
  := by
  rw [quiesce]
  split
  case _ m hi =>
    split
    case isTrue hpreflight =>
      split
      case isTrue hquiesces => exact Balanced.quiesce h hi hpreflight.1 hquiesces
      case isFalse hquiesces =>
        have hpoint := hpreflight.1
        rw [Bool.not_eq_true] at hquiesces
        have howes : m.owes = false := by rw [Mutation.owes, hquiesces, Bool.false_and]
        have howes' : Mutation.owes { m with point := .running } = false := by
          rw [Mutation.owes]
          simpa [Mutation.quiesces] using hquiesces
        apply Balanced.move h hi
        · rw [howes, howes']
        · exact fun _ => rfl
        · intro hquiesced _
          have hne : m.point ≠ .ended := by
            rw [hpoint]
            apply Point.noConfusion
          have htrue := (Balanced.quiesced h m (List.mem_of_getElem? hi) hquiesced hne).1
          rw [howes] at htrue
          cases htrue
        · rw [howes']
          intro htrue
          cases htrue
        · apply Point.noConfusion
        · rw [Mutation.releasing, Mutation.releasing, hpoint]
        · rw [Mutation.isResuming, Mutation.isResuming, hpoint]
        · intro htrue
          cases htrue
    case isFalse => exact h
  case _ => exact h

theorem balanced_quiesceAnswers {answer : Bool} (h : LeasesBalanced c)
    (hfair : Fair c (.quiesceAnswers i answer)) :
  LeasesBalanced (c.quiesceAnswers i answer)
  := by
  rw [quiesceAnswers]
  split
  case _ m hi =>
    split
    case isTrue hpoint =>
      split
      case isTrue htrue =>
        have howes : Mutation.owes { m with quiesced := true, point := .running } = m.owes := by
          rw [Mutation.owes, Mutation.owes, hpoint]
          simp [Mutation.quiesces]
        apply Balanced.move h hi howes (fun _ => rfl)
        · intro _ _
          rw [howes, Mutation.owes, hpoint, h.asked m (List.mem_of_getElem? hi) hpoint]
          exact ⟨rfl, htrue.1⟩
        · intro _ _
          apply htrue.1
        · apply Point.noConfusion
        · rw [Mutation.releasing, Mutation.releasing, hpoint]
        · rw [Mutation.isResuming, Mutation.isResuming, hpoint]
        · intro htrue
          cases htrue
      case isFalse =>
        rw [fails]
        apply balanced_resumeOrEnd (c := c.rollback i m) h hi
        · rfl
        · exact .inl hpoint
        intro hreached _
        apply hfair m hi hpoint hreached
    case isFalse => exact h
  case _ => exact h

theorem balanced_fails (h : LeasesBalanced c) (hi : c.mutations[i]? = some m)
    (hpoint : m.point = .running) :
  LeasesBalanced (c.fails i m)
  := by
  rw [fails]
  apply balanced_resumeOrEnd_of_paused (c := c.rollback i m) h hi
  · rfl
  · exact .inl hpoint

theorem balanced_throws (h : LeasesBalanced c) (hfair : Fair c (.throws i)) :
  LeasesBalanced (c.throws i)
  := by
  rw [throws]
  split
  case _ m hi =>
    split
    case _ hpoint =>
      split
      case isTrue =>
        apply Balanced.end h hi
        · rw [Mutation.owes, hpoint]
          simp
        · rw [Mutation.isResuming, hpoint]
        · rfl
      case isFalse => exact h
    case _ hpoint => exact balanced_fails h hi hpoint
    case _ hpoint =>
      apply Balanced.end h hi
      · rw [Mutation.owes, hfair m hi hpoint, Bool.false_and]
      · rw [Mutation.isResuming, hpoint]
      · rfl
    case _ => exact h
  case _ => exact h

theorem balanced_deletes {returned : Bool} (h : LeasesBalanced c) :
  LeasesBalanced (c.deletes i returned)
  := by
  rw [deletes]
  split
  case _ m hi =>
    split
    case isTrue hrunning =>
      have hpoint := hrunning.2
      have hm := List.mem_of_getElem? hi
      split
      case isTrue =>
        have howes : Mutation.owes { m with revoked := [], point := .deleted } = m.owes := by
          rw [Mutation.owes, Mutation.owes, hpoint]
          simp [Mutation.quiesces]
        apply Balanced.move h hi howes (fun _ => rfl)
        · intro hquiesced _
          rw [howes]
          apply h.quiesced m hm hquiesced
          rw [hpoint]
          apply Point.noConfusion
        · intro htrue _
          rw [howes] at htrue
          apply h.paused m hm htrue
          rw [hpoint]
          apply Point.noConfusion
        · apply Point.noConfusion
        · rw [Mutation.releasing, Mutation.releasing, hpoint]
        · rw [Mutation.isResuming, Mutation.isResuming, hpoint]
        · intro htrue
          cases htrue
      case isFalse =>
        apply balanced_fails (c := { c with
          deletedAccounts := fun a => a ∈ m.kind.accounts || c.deletedAccounts a }) h hi hpoint
    case isFalse => exact h
  case _ => exact h

theorem balanced_returns (h : LeasesBalanced c) :
  LeasesBalanced (c.returns i)
  := by
  rw [returns]
  split
  case _ m hi =>
    split
    case isTrue hpaused =>
      apply balanced_resumeOrEnd_of_paused h hi rfl
      obtain ⟨-, hpoint⟩ | hpoint := hpaused
      · exact .inl hpoint
      · exact .inr hpoint
    case isFalse => exact h
  case _ => exact h

/-- The loop of a resume goes on or ends, when the native side does not hold the lease before,
or it was given up. -/
theorem balanced_nextLease {failed : Bool} {attempt : Nat} (h : LeasesBalanced c)
    (hi : c.mutations[i]? = some m)
    (hpoint : m.point = .resuming (leaseId :: leaseIds) attempt failed)
    (hgone : leaseId ∈ c.lifecycle.mutationLeases → leaseId ∈ c.lifecycle.pendingResumeLeaseIds) :
  LeasesBalanced (c.nextLease i m leaseIds failed)
  := by
  have hquiesced : m.quiesced = false := by
    rw [← Bool.not_eq_true]
    intro htrue
    have hne : m.point ≠ .ended := by
      rw [hpoint]
      apply Point.noConfusion
    have howes := (h.quiesced m (List.mem_of_getElem? hi) htrue hne).1
    rw [Mutation.owes, hpoint] at howes
    simp at howes
  have hnext : Balanced _ (List.set _ i { m with point := .resuming leaseIds 0 failed }) :=
    h.nextLease hi hpoint hquiesced hgone ⟨rfl, hquiesced⟩
  rw [nextLease]
  split
  case isTrue hnil =>
    subst hnil
    have hi' : (c.mutations.set i { m with point := .resuming [] 0 failed })[i]?
        = some { m with point := .resuming [] 0 failed } := by
      obtain ⟨hlt, -⟩ := List.getElem?_eq_some_iff.mp hi
      rw [List.getElem?_set_self hlt]
    have hend : Balanced _ (List.set _ i { m with point := .ended }) :=
      hnext.endResume hi' rfl rfl
    rw [List.set_set] at hend
    apply hend
  case isFalse => exact hnext

/-- The loop goes on or ends after a lease was given up. -/
theorem balanced_giveUp {failed : Bool} {attempt : Nat} (h : LeasesBalanced c)
    (hi : c.mutations[i]? = some m)
    (hpoint : m.point = .resuming (leaseId :: leaseIds) attempt failed)
    (halone : leaseId ∈ c.lifecycle.mutationLeases →
      ∀ m' ∈ c.mutations.eraseIdx i, m'.isResuming = false) :
  LeasesBalanced
    ({ c with lifecycle := c.lifecycle.giveUp leaseId }.nextLease i m leaseIds true)
  := by
  have hm := List.mem_of_getElem? hi
  obtain ⟨hlt, -⟩ := List.getElem?_eq_some_iff.mp hi
  let failing : Mutation := { m with point := .resuming (leaseId :: leaseIds) attempt true }
  have hi' : (c.mutations.set i failing)[i]? = some failing := List.getElem?_set_self hlt
  have howes : failing.owes = m.owes := by
    rw [Mutation.owes, Mutation.owes, hpoint]
    simp [failing]
  have hfailing : Balanced c.lifecycle (c.mutations.set i failing) := by
    apply Balanced.move h hi howes (fun _ => rfl)
    · intro hquiesced _
      rw [howes]
      apply h.quiesced m hm hquiesced
      rw [hpoint]
      apply Point.noConfusion
    · intro htrue _
      rw [howes] at htrue
      apply h.paused m hm htrue
      rw [hpoint]
      apply Point.noConfusion
    · apply Point.noConfusion
    · rw [Mutation.releasing, Mutation.releasing, hpoint]
    · rw [Mutation.isResuming, Mutation.isResuming, hpoint]
    · intro htrue
      cases htrue
  have hgiven : Balanced (c.lifecycle.giveUp leaseId) (c.mutations.set i failing) := by
    apply hfailing.giveUp (Slots.mem_set_self hi)
    · apply List.mem_cons_self
    · intro hheld m' hm'
      rw [← Bool.not_eq_true]
      intro hsucceeds
      obtain ⟨j, hj⟩ := List.getElem?_of_mem hm'
      obtain ⟨-, rfl⟩ | ⟨hne, hj⟩ := Slots.getElem?_set_cases hj
      · cases hsucceeds
      · have hother := halone hheld m' (List.mem_eraseIdx_iff_getElem?.mpr ⟨j, hne, hj⟩)
        rw [Mutation.isResuming_of_succeeds hsucceeds] at hother
        cases hother
  have hnext := balanced_nextLease (c := { c with
    lifecycle := c.lifecycle.giveUp leaseId
    mutations := c.mutations.set i failing }) hgiven hi' rfl
    fun _ => mem_insertLease.mpr (.inr rfl)
  rw [nextLease] at hnext ⊢
  split at hnext
  case isTrue hnil =>
    rw [if_pos hnil]
    rw [LeasesBalanced, put] at hnext
    dsimp only at hnext
    rw [List.set_set] at hnext
    apply hnext
  case isFalse hne =>
    rw [if_neg hne]
    rw [LeasesBalanced, put] at hnext
    dsimp only at hnext
    rw [List.set_set] at hnext
    apply hnext

theorem balanced_resumeAnswers {reached answer : Bool} (h : LeasesBalanced c)
    (hfair : Fair c (.resumeAnswers i reached answer)) :
  LeasesBalanced (c.resumeAnswers i reached answer)
  := by
  rw [resumeAnswers]
  split
  case _ m hi =>
    split
    case _ leaseId leaseIds attempt failed hpoint =>
      have hm := List.mem_of_getElem? hi
      have hreleasing : m.releasing = leaseId :: leaseIds := by rw [Mutation.releasing, hpoint]
      have hmem : leaseId ∈ m.releasing := by
        rw [hreleasing]
        apply List.mem_cons_self
      have hreleased : LeasesBalanced { c with lifecycle := c.lifecycle.resume leaseId reached } :=
        Balanced.resume h hm hmem
      have hgone : reached = true → leaseId ∉ (c.lifecycle.resume leaseId reached).mutationLeases
          := by
        rintro rfl hheld
        apply h.heldNodup.not_mem_erase hheld
      dsimp only
      split
      case isTrue hreached =>
        apply balanced_nextLease hreleased hi hpoint
        intro hheld
        exact absurd hheld (hgone hreached.1)
      case isFalse =>
        split
        case isTrue =>
          have howes : Mutation.owes
              { m with point := .resuming (leaseId :: leaseIds) (attempt + 1) failed } = m.owes := by
            rw [Mutation.owes, Mutation.owes, hpoint]
            simp
          apply Balanced.move hreleased hi howes (fun _ => rfl)
          · intro hquiesced _
            rw [howes]
            apply h.quiesced m hm hquiesced
            rw [hpoint]
            apply Point.noConfusion
          · intro htrue _
            rw [howes] at htrue
            apply h.paused m hm htrue
            rw [hpoint]
            apply Point.noConfusion
          · apply Point.noConfusion
          · rw [hreleasing]
            rfl
          · rw [Mutation.isResuming, Mutation.isResuming, hpoint]
          · rw [Mutation.succeeds, Mutation.succeeds, hpoint]
            apply id
        case isFalse hlast =>
          apply balanced_giveUp hreleased hi hpoint
          intro hheld
          cases reached with
          | true => exact absurd hheld (hgone rfl)
          | false =>
            apply hfair m hi leaseId
            · rw [hreleasing]
              rfl
            · rfl
            · apply hheld
            · rw [Mutation.isLastAttempt, hpoint]
              simpa using hlast
    case _ => exact h
  case _ => exact h

/-- A fair event keeps the leases accounted for. -/
theorem balanced_step {e : Event} (h : LeasesBalanced c) (hfair : Fair c e) :
  LeasesBalanced (c.step e)
  := by
  cases e with
  | begin kind parent => exact balanced_begin h
  | revoke i => exact balanced_revoke h
  | quiesce i reached => exact balanced_quiesce h
  | quiesceAnswers i answer => exact balanced_quiesceAnswers h hfair
  | throws i => exact balanced_throws h hfair
  | deletes i returned => exact balanced_deletes h
  | returns i => exact balanced_returns h
  | resumeAnswers i reached answer => exact balanced_resumeAnswers h hfair

/-- Every mutation that has paused has its own lease. -/
theorem LeasesBalanced.pausedCount_le (h : LeasesBalanced c) :
  c.pausedCount ≤ c.lifecycle.mutationLeases.length
  := by
  calc
    c.pausedCount ≤ c.mutations.countP (fun m => m.owes && m.reached) := by
      apply List.countP_mono_left
      intro m hm hpaused
      rw [decide_eq_true_eq] at hpaused
      obtain ⟨howes, hreached⟩ := h.quiesced m hm hpaused.1 hpaused.2
      rw [howes, hreached]
      rfl
    _ ≤ c.lifecycle.quiescenceLeaseIds.countP (· ∈ c.lifecycle.mutationLeases) := h.reached
    _ = (c.lifecycle.quiescenceLeaseIds.filter (· ∈ c.lifecycle.mutationLeases)).length :=
      List.countP_eq_length_filter
    _ ≤ c.lifecycle.mutationLeases.length := by
      apply List.Subperm.length_le
      apply List.subperm_of_subset (h.queueNodup.filter _)
      intro id hid
      simpa using (List.mem_filter.mp hid).2

/-- When every mutation has ended, and the last one to resume gave back all of its leases, no
lease is held. -/
theorem LeasesBalanced.released (h : LeasesBalanced c)
    (hended : ∀ m ∈ c.mutations, m.point = .ended)
    (hlast : c.lifecycle.lastResume ≠ some false) :
  c.lifecycle.mutationLeases = []
  := by
  have hresuming : ∀ m ∈ c.mutations, m.isResuming = false := by
    intro m hm
    rw [Mutation.isResuming, hended m hm]
  have hqueue : c.lifecycle.quiescenceLeaseIds = [] := by
    rw [← List.length_eq_zero_iff, h.owed, List.countP_eq_zero]
    intro m hm
    rw [Mutation.owes, hended m hm]
    simp
  rw [List.eq_nil_iff_forall_not_mem]
  intro id hid
  obtain hqueued | hpending | ⟨m, hm, hmem⟩ := h.held id hid
  · rw [hqueue] at hqueued
    cases hqueued
  · apply hlast ((h.givenUp id hpending hid).2 hresuming)
  · have htrue := Mutation.isResuming_of_mem hmem
    rw [hresuming m hm] at htrue
    cases htrue

/-! ### Revocations -/

/-- The mutation can still roll back. -/
def Point.isOpen (point : Point) : Bool :=
  point = .preflight || point = .quiescing || point = .running

/-- The revocations are final for deleted accounts, and the others are those of a mutation in
progress. -/
structure Revoked (c : PauseLeases) : Prop where
  held : ∀ i m, c.mutations[i]? = some m → ∀ a ∈ m.revoked,
    c.revocations a = some i ∧ c.committedRevocations a = false
  owned : ∀ a i, c.revocations a = some i →
    c.committedRevocations a = true ∨ ∃ m, c.mutations[i]? = some m ∧ a ∈ m.revoked
  covered : ∀ m ∈ c.mutations, m.point.isOpen = true → ∀ a ∈ m.kind.accounts,
    a ∈ m.toRevoke ∨ a ∈ m.revoked ∨ c.committedRevocations a = true
  paused : ∀ m ∈ c.mutations, m.point = .quiescing ∨ m.point = .running → m.toRevoke = []
  settled : ∀ m ∈ c.mutations, m.point.isOpen = false → m.revoked = []
  within : ∀ m ∈ c.mutations, ∀ a, a ∈ m.toRevoke ∨ a ∈ m.revoked → a ∈ m.kind.accounts
  committed : ∀ a, c.committedRevocations a = c.deletedAccounts a
  kept : ∀ a, c.committedRevocations a = true → c.revocations a ≠ none

theorem Revoked.withLifecycle (h : Revoked c) (l : Lifecycle) :
  Revoked { c with lifecycle := l }
  := ⟨h.held, h.owned, h.covered, h.paused, h.settled, h.within, h.committed, h.kept⟩

theorem revoked_start :
  Revoked start
  := by
  constructor
  case held =>
    intro i m hi
    cases hi
  case owned =>
    intro a i hi
    cases hi
  case committed =>
    intro a
    rfl
  case kept =>
    intro a ha
    cases ha
  all_goals
    intro m hm
    cases hm

/-- A mutation moves, and keeps its revocations. -/
theorem Revoked.move (h : Revoked c) (hi : c.mutations[i]? = some m) (hkind : m'.kind = m.kind)
    (htoRevoke : m'.toRevoke = m.toRevoke) (hrevoked : m'.revoked = m.revoked)
    (hopen : m'.point.isOpen = true → m.point.isOpen = true)
    (hpaused : m'.point = .quiescing ∨ m'.point = .running → m.toRevoke = [])
    (hsettled : m'.point.isOpen = false → m.revoked = []) :
  Revoked (c.put i m')
  := by
  have hm := List.mem_of_getElem? hi
  obtain ⟨hlt, -⟩ := List.getElem?_eq_some_iff.mp hi
  constructor
  case held =>
    intro j x hj a ha
    obtain ⟨rfl, rfl⟩ | ⟨-, hj⟩ := Slots.getElem?_set_cases hj
    · rw [hrevoked] at ha
      apply h.held _ m hi a ha
    · apply h.held j x hj a ha
  case owned =>
    intro a j hj
    obtain hcommitted | ⟨x, hx, ha⟩ := h.owned a j hj
    · exact .inl hcommitted
    · right
      by_cases hij : i = j
      · subst hij
        rw [hi, Option.some_inj] at hx
        subst hx
        exact ⟨m', List.getElem?_set_self hlt, hrevoked ▸ ha⟩
      · exact ⟨x, (List.getElem?_set_ne hij).trans hx, ha⟩
  case covered =>
    apply Slots.forall_set h.covered
    intro hopen'
    rw [hkind, htoRevoke, hrevoked]
    apply h.covered m hm (hopen hopen')
  case paused =>
    apply Slots.forall_set h.paused
    rw [htoRevoke]
    apply hpaused
  case settled =>
    apply Slots.forall_set h.settled
    rw [hrevoked]
    apply hsettled
  case within =>
    apply Slots.forall_set h.within
    rw [hkind, htoRevoke, hrevoked]
    apply h.within m hm
  case committed => exact h.committed
  case kept => exact h.kept

/-- A mutation owns the revocations that it has. -/
theorem Revoked.owns_iff (h : Revoked c) (hi : c.mutations[i]? = some m) {a : String} :
  c.owns i m a = true ↔ a ∈ m.revoked
  := by
  rw [owns, decide_eq_true_eq]
  refine ⟨And.left, fun ha => ⟨ha, (h.held i m hi a ha).1⟩⟩

/-- A mutation rolls back, and moves. -/
theorem Revoked.rollback (h : Revoked c) (hi : c.mutations[i]? = some m)
    (hkind : m'.kind = m.kind) (hto : m'.toRevoke = m.toRevoke) (hrevoked : m'.revoked = []) (hclosed : m'.point.isOpen = false) :
  Revoked ((c.rollback i m).put i m')
  := by
  have hcommitted : ∀ a, (c.rollback i m).committedRevocations a = c.committedRevocations a := by
    intro a
    rw [PauseLeases.rollback]
    dsimp only
    split
    case isTrue howns =>
      apply ((h.held i m hi a ((h.owns_iff hi).mp howns)).2).symm
    case isFalse => rfl
  have hrevocations : ∀ a, a ∉ m.revoked → (c.rollback i m).revocations a = c.revocations a := by
    intro a ha
    rw [PauseLeases.rollback]
    dsimp only
    rw [if_neg (mt (h.owns_iff hi).mp ha)]
  have hrolledBack : ∀ a, a ∈ m.revoked → (c.rollback i m).revocations a = none := by
    intro a ha
    rw [PauseLeases.rollback]
    dsimp only
    rw [if_pos ((h.owns_iff hi).mpr ha)]
  constructor
  case held =>
    intro j x hj a ha
    obtain ⟨rfl, rfl⟩ | ⟨hne, hj⟩ := Slots.getElem?_set_cases hj
    · rw [hrevoked] at ha
      cases ha
    · obtain ⟨hj', hcommitted'⟩ := h.held j x hj a ha
      have hnot : a ∉ m.revoked := by
        intro hmem
        rw [(h.held i m hi a hmem).1, Option.some_inj] at hj'
        apply hne hj'.symm
      refine ⟨(hrevocations a hnot).trans hj', (hcommitted a).trans hcommitted'⟩
  case owned =>
    intro a j hj
    by_cases ha : a ∈ m.revoked
    · have hnone := hrolledBack a ha
      rw [put] at hj
      dsimp only at hj
      rw [hnone] at hj
      cases hj
    · have hj' := hj
      rw [put] at hj'
      dsimp only at hj'
      rw [hrevocations a ha] at hj'
      obtain hdone | ⟨x, hx, hmem⟩ := h.owned a j hj'
      · exact .inl ((hcommitted a).trans hdone)
      · right
        have hij : i ≠ j := by
          rintro rfl
          rw [hi, Option.some_inj] at hx
          subst hx
          apply ha hmem
        exact ⟨x, (List.getElem?_set_ne hij).trans hx, hmem⟩
  case covered =>
    apply Slots.forall_set
    · intro x hx hopen a ha
      obtain hto | hrev | hdone := h.covered x hx hopen a ha
      · exact .inl hto
      · exact .inr (.inl hrev)
      · exact .inr (.inr ((hcommitted a).trans hdone))
    · rw [hclosed]
      intro hopen
      cases hopen
  case paused =>
    apply Slots.forall_set h.paused
    rintro (hpoint | hpoint)
    · rw [hpoint] at hclosed
      cases hclosed
    · rw [hpoint] at hclosed
      cases hclosed
  case settled => exact Slots.forall_set h.settled fun _ => hrevoked
  case within =>
    apply Slots.forall_set h.within
    rw [hkind, hrevoked, hto]
    intro a ha
    apply h.within m (List.mem_of_getElem? hi) a
    obtain ha | ha := ha
    · exact .inl ha
    · cases ha
  case committed =>
    intro a
    apply (hcommitted a).trans (h.committed a)
  case kept =>
    intro a ha
    have hdone : c.committedRevocations a = true := (hcommitted a).symm.trans ha
    have hnot : a ∉ m.revoked := by
      intro hmem
      rw [(h.held i m hi a hmem).2] at hdone
      cases hdone
    rw [put]
    dsimp only
    rw [hrevocations a hnot]
    apply h.kept a hdone

/-- A mutation commits after its deletion, and moves. -/
theorem Revoked.commit (h : Revoked c) (hi : c.mutations[i]? = some m)
    (hpoint : m.point = .running) (hkind : m'.kind = m.kind) (hto : m'.toRevoke = m.toRevoke)
    (hrevoked : m'.revoked = []) (hclosed : m'.point.isOpen = false) :
  Revoked (({ c with deletedAccounts := fun a => a ∈ m.kind.accounts || c.deletedAccounts a
    }.commit i m).put i m')
  := by
  have hm := List.mem_of_getElem? hi
  have hnothing := h.paused m hm (.inr hpoint)
  have hcommitted : ∀ a, (if c.owns i m a then true else c.committedRevocations a) = true
      ↔ a ∈ m.kind.accounts ∨ c.committedRevocations a = true := by
    intro a
    have hopen : m.point.isOpen = true := by
      rw [hpoint]
      rfl
    split
    case isTrue howns =>
      refine ⟨fun _ => .inl ?_, fun _ => rfl⟩
      apply h.within m hm a (.inr ((h.owns_iff hi).mp howns))
    case isFalse howns =>
      refine ⟨.inr, ?_⟩
      rintro (ha | ha)
      · obtain hto | hrev | hdone := h.covered m hm hopen a ha
        · rw [hnothing] at hto
          cases hto
        · exact absurd ((h.owns_iff hi).mpr hrev) howns
        · apply hdone
      · apply ha
  constructor
  case held =>
    intro j x hj a ha
    obtain ⟨rfl, rfl⟩ | ⟨hne, hj⟩ := Slots.getElem?_set_cases hj
    · rw [hrevoked] at ha
      cases ha
    · obtain ⟨hj', hcommitted'⟩ := h.held j x hj a ha
      refine ⟨hj', ?_⟩
      have hnot : ¬ c.owns i m a = true := by
        intro howns
        rw [(h.held i m hi a ((h.owns_iff hi).mp howns)).1, Option.some_inj] at hj'
        apply hne hj'.symm
      apply (if_neg hnot).trans hcommitted'
  case owned =>
    intro a j hj
    obtain hdone | ⟨x, hx, hmem⟩ := h.owned a j hj
    · exact .inl ((hcommitted a).mpr (.inr hdone))
    · by_cases hij : i = j
      · subst hij
        rw [hi, Option.some_inj] at hx
        subst hx
        exact .inl ((hcommitted a).mpr (.inl (h.within m hm a (.inr hmem))))
      · exact .inr ⟨x, (List.getElem?_set_ne hij).trans hx, hmem⟩
  case covered =>
    apply Slots.forall_set
    · intro x hx hopen a ha
      obtain hto | hrev | hdone := h.covered x hx hopen a ha
      · exact .inl hto
      · exact .inr (.inl hrev)
      · exact .inr (.inr ((hcommitted a).mpr (.inr hdone)))
    · rw [hclosed]
      intro hopen
      cases hopen
  case paused =>
    apply Slots.forall_set h.paused
    rintro (hpoint' | hpoint')
    · rw [hpoint'] at hclosed
      cases hclosed
    · rw [hpoint'] at hclosed
      cases hclosed
  case settled => exact Slots.forall_set h.settled fun _ => hrevoked
  case within =>
    apply Slots.forall_set h.within
    rw [hkind, hrevoked, hto]
    intro a ha
    apply h.within m hm a
    obtain ha | ha := ha
    · exact .inl ha
    · cases ha
  case committed =>
    intro a
    rw [Bool.eq_iff_iff]
    refine (hcommitted a).trans ?_
    rw [h.committed a]
    simp [put, PauseLeases.commit]
  case kept =>
    intro a ha
    obtain ha | ha := (hcommitted a).mp ha
    · by_cases hrev : a ∈ m.revoked
      · intro hnone
        cases (h.held i m hi a hrev).1.symm.trans hnone
      · obtain hto | hrev' | hdone := h.covered m hm (by rw [hpoint]; rfl) a ha
        · rw [hnothing] at hto
          cases hto
        · exact absurd hrev' hrev
        · apply h.kept a hdone
    · apply h.kept a ha

/-- The next account of a mutation is revoked. -/
theorem Revoked.revoke {a : String} {accountUuids : List String} (h : Revoked c)
    (hi : c.mutations[i]? = some m) (hpoint : m.point = .preflight)
    (hto : m.toRevoke = a :: accountUuids) (hnone : c.revocations a = none) :
  Revoked { c.put i { m with toRevoke := accountUuids, revoked := m.revoked ++ [a] } with
    revocations := Function.update c.revocations a (some i) }
  := by
  have hm := List.mem_of_getElem? hi
  obtain ⟨hlt, -⟩ := List.getElem?_eq_some_iff.mp hi
  have hfresh : ∀ b j, c.revocations b = some j → b ≠ a := by
    rintro b j hj rfl
    rw [hnone] at hj
    cases hj
  have huncommitted : c.committedRevocations a = false := by
    rw [← Bool.not_eq_true]
    intro htrue
    apply h.kept a htrue hnone
  constructor
  case held =>
    intro j x hj b hb
    dsimp only
    obtain ⟨rfl, rfl⟩ | ⟨-, hj⟩ := Slots.getElem?_set_cases hj
    · obtain hb | hb := List.mem_append.mp hb
      · obtain ⟨hb', hcommitted⟩ := h.held _ m hi b hb
        rw [Function.update_of_ne (hfresh b _ hb')]
        exact ⟨hb', hcommitted⟩
      · rw [List.mem_singleton.mp hb, Function.update_self]
        exact ⟨rfl, huncommitted⟩
    · obtain ⟨hb', hcommitted⟩ := h.held j x hj b hb
      rw [Function.update_of_ne (hfresh b _ hb')]
      exact ⟨hb', hcommitted⟩
  case owned =>
    intro b j hj
    dsimp only at hj
    by_cases hb : b = a
    · subst hb
      rw [Function.update_self, Option.some_inj] at hj
      subst hj
      refine .inr ⟨_, List.getElem?_set_self hlt, ?_⟩
      apply List.mem_append_right _ List.mem_cons_self
    · rw [Function.update_of_ne hb] at hj
      obtain hcommitted | ⟨x, hx, hmem⟩ := h.owned b j hj
      · exact .inl hcommitted
      · right
        by_cases hij : i = j
        · subst hij
          rw [hi, Option.some_inj] at hx
          subst hx
          exact ⟨_, List.getElem?_set_self hlt, List.mem_append_left _ hmem⟩
        · exact ⟨x, (List.getElem?_set_ne hij).trans hx, hmem⟩
  case covered =>
    apply Slots.forall_set h.covered
    intro hopen b hb
    obtain hb | hb | hb := h.covered m hm hopen b hb
    · rw [hto, List.mem_cons] at hb
      obtain rfl | hb := hb
      · exact .inr (.inl (List.mem_append_right _ List.mem_cons_self))
      · exact .inl hb
    · exact .inr (.inl (List.mem_append_left _ hb))
    · exact .inr (.inr hb)
  case paused =>
    apply Slots.forall_set h.paused
    rintro (hpoint' | hpoint')
    · cases hpoint.symm.trans hpoint'
    · cases hpoint.symm.trans hpoint'
  case settled =>
    apply Slots.forall_set h.settled
    intro hopen
    dsimp only at hopen
    rw [hpoint] at hopen
    cases hopen
  case within =>
    apply Slots.forall_set h.within
    intro b hb
    apply h.within m hm b
    rw [hto]
    obtain hb | hb := hb
    · exact .inl (List.mem_cons_of_mem _ hb)
    · obtain hb | hb := List.mem_append.mp hb
      · exact .inr hb
      · rw [List.mem_singleton.mp hb]
        exact .inl List.mem_cons_self
  case committed => exact h.committed
  case kept =>
    intro b hb
    dsimp only
    by_cases hba : b = a
    · rw [hba, Function.update_self]
      apply Option.some_ne_none i
    · rw [Function.update_of_ne hba]
      apply h.kept b hb

/-- An account that was deleted is not revoked again. -/
theorem Revoked.skip {a : String} {accountUuids : List String} (h : Revoked c)
    (hi : c.mutations[i]? = some m) (hpoint : m.point = .preflight)
    (hto : m.toRevoke = a :: accountUuids) (hcommitted : c.committedRevocations a = true) :
  Revoked (c.put i { m with toRevoke := accountUuids })
  := by
  have hm := List.mem_of_getElem? hi
  obtain ⟨hlt, -⟩ := List.getElem?_eq_some_iff.mp hi
  constructor
  case held =>
    intro j x hj b hb
    obtain ⟨rfl, rfl⟩ | ⟨-, hj⟩ := Slots.getElem?_set_cases hj
    · apply h.held _ m hi b hb
    · apply h.held j x hj b hb
  case owned =>
    intro b j hj
    obtain hdone | ⟨x, hx, hmem⟩ := h.owned b j hj
    · exact .inl hdone
    · right
      by_cases hij : i = j
      · subst hij
        rw [hi, Option.some_inj] at hx
        subst hx
        exact ⟨_, List.getElem?_set_self hlt, hmem⟩
      · exact ⟨x, (List.getElem?_set_ne hij).trans hx, hmem⟩
  case covered =>
    apply Slots.forall_set h.covered
    intro hopen b hb
    obtain hb | hb := h.covered m hm hopen b hb
    · rw [hto, List.mem_cons] at hb
      obtain rfl | hb := hb
      · exact .inr (.inr hcommitted)
      · exact .inl hb
    · exact .inr hb
  case paused =>
    apply Slots.forall_set h.paused
    rintro (hpoint' | hpoint')
    · cases hpoint.symm.trans hpoint'
    · cases hpoint.symm.trans hpoint'
  case settled => exact Slots.forall_set h.settled (h.settled m hm)
  case within =>
    apply Slots.forall_set h.within
    intro b hb
    apply h.within m hm b
    rw [hto]
    obtain hb | hb := hb
    · exact .inl (List.mem_cons_of_mem _ hb)
    · exact .inr hb
  case committed => exact h.committed
  case kept => exact h.kept

/-- A mutation is called. -/
theorem Revoked.begin (h : Revoked c) (hpoint : m.point = .preflight) (hrevoked : m.revoked = [])
    (hto : m.toRevoke = m.kind.accounts) :
  Revoked { c with mutations := c.mutations ++ [m] }
  := by
  have hforall : ∀ P : Mutation → Prop, (∀ x ∈ c.mutations, P x) → P m →
      ∀ x ∈ c.mutations ++ [m], P x := by
    intro P hold hnew x hx
    obtain hx | hx := List.mem_append.mp hx
    · apply hold x hx
    · rw [List.mem_singleton.mp hx]
      apply hnew
  constructor
  case held =>
    intro j x hj a ha
    obtain hj | ⟨-, rfl⟩ := Slots.getElem?_concat_cases hj
    · apply h.held j x hj a ha
    · rw [hrevoked] at ha
      cases ha
  case owned =>
    intro a j hj
    obtain hcommitted | ⟨x, hx, ha⟩ := h.owned a j hj
    · exact .inl hcommitted
    · obtain ⟨hlt, -⟩ := List.getElem?_eq_some_iff.mp hx
      exact .inr ⟨x, (List.getElem?_append_left hlt).trans hx, ha⟩
  case covered =>
    apply hforall _ h.covered
    intro _ a ha
    rw [hto]
    exact .inl ha
  case paused =>
    apply hforall _ h.paused
    rintro (hpoint' | hpoint')
    · cases hpoint.symm.trans hpoint'
    · cases hpoint.symm.trans hpoint'
  case settled => exact hforall _ h.settled fun _ => hrevoked
  case within =>
    apply hforall _ h.within
    rw [hrevoked, hto]
    intro a ha
    obtain ha | ha := ha
    · apply ha
    · cases ha
  case committed => exact h.committed
  case kept => exact h.kept

theorem revoked_resumeOrEnd (h : ∀ x : Mutation, x.kind = m.kind → x.toRevoke = m.toRevoke →
    x.revoked = m.revoked → x.point.isOpen = false → Revoked (c.put i x)) :
  Revoked (c.resumeOrEnd i m)
  := by
  rw [resumeOrEnd]
  split
  · apply Revoked.withLifecycle
    exact h _ rfl rfl rfl rfl
  · exact h _ rfl rfl rfl rfl

theorem revoked_fails (h : Revoked c) (hi : c.mutations[i]? = some m) :
  Revoked (c.fails i m)
  := by
  rw [fails]
  apply revoked_resumeOrEnd
  intro x hkind hto hrevoked hclosed
  apply h.rollback hi hkind hto hrevoked hclosed

theorem revoked_begin {kind : Kind} {parent : Option Nat} (h : Revoked c) :
  Revoked (c.begin kind parent)
  := by
  rw [begin.eq_def]
  split
  case _ => exact h.begin rfl rfl rfl
  case _ =>
    split
    case _ =>
      split
      case isTrue => exact h.begin rfl rfl rfl
      case isFalse => exact h
    case _ => exact h

theorem revoked_revoke (h : Revoked c) :
  Revoked (c.revoke i)
  := by
  rw [revoke]
  split
  case _ m hi =>
    split
    case _ hpoint hto =>
      split
      case _ =>
        split
        case isTrue hcommitted => exact h.skip hi hpoint hto hcommitted
        case isFalse => exact h.rollback hi rfl rfl rfl rfl
      case _ hnone => exact h.revoke hi hpoint hto hnone
    case _ => exact h
  case _ => exact h

theorem revoked_quiesce {reached : Bool} (h : Revoked c) :
  Revoked (c.quiesce i reached)
  := by
  rw [quiesce]
  split
  case _ m hi =>
    split
    case isTrue hpreflight =>
      have hopen : m.point.isOpen = true := by
        rw [hpreflight.1]
        rfl
      split
      case isTrue =>
        apply Revoked.withLifecycle
        refine h.move hi rfl rfl rfl (fun _ => hopen) (fun _ => hpreflight.2) ?_
        intro hclosed
        cases hclosed
      case isFalse =>
        refine h.move hi rfl rfl rfl (fun _ => hopen) (fun _ => hpreflight.2) ?_
        intro hclosed
        cases hclosed
    case isFalse => exact h
  case _ => exact h

theorem revoked_quiesceAnswers {answer : Bool} (h : Revoked c) :
  Revoked (c.quiesceAnswers i answer)
  := by
  rw [quiesceAnswers]
  split
  case _ m hi =>
    split
    case isTrue hpoint =>
      split
      case isTrue =>
        have hnothing := h.paused m (List.mem_of_getElem? hi) (.inl hpoint)
        refine h.move hi rfl rfl rfl ?_ (fun _ => hnothing) ?_
        · intro _
          rw [hpoint]
          rfl
        · intro hclosed
          cases hclosed
      case isFalse => exact revoked_fails h hi
    case isFalse => exact h
  case _ => exact h

theorem revoked_throws (h : Revoked c) :
  Revoked (c.throws i)
  := by
  rw [throws]
  split
  case _ m hi =>
    split
    case _ =>
      split
      case isTrue => exact h.rollback hi rfl rfl rfl rfl
      case isFalse => exact h
    case _ => exact revoked_fails h hi
    case _ hpoint =>
      have hsettled := h.settled m (List.mem_of_getElem? hi) (by rw [hpoint]; rfl)
      refine h.move hi rfl rfl rfl ?_ ?_ (fun _ => hsettled)
      · intro hopen
        cases hopen
      · rintro (hpoint' | hpoint')
        · cases hpoint'
        · cases hpoint'
    case _ => exact h
  case _ => exact h

/-- Accounts that are revoked for good are deleted once more. -/
theorem Revoked.deletes_nothing (h : Revoked c) (hi : c.mutations[i]? = some m)
    (hpoint : m.point = .running) (hrevoked : m.revoked = []) :
  Revoked { c with deletedAccounts := fun a => a ∈ m.kind.accounts || c.deletedAccounts a }
  := by
  have hm := List.mem_of_getElem? hi
  have hdone : ∀ a ∈ m.kind.accounts, c.committedRevocations a = true := by
    intro a ha
    obtain hto | hrev | hcommitted := h.covered m hm (by rw [hpoint]; rfl) a ha
    · rw [h.paused m hm (.inr hpoint)] at hto
      cases hto
    · rw [hrevoked] at hrev
      cases hrev
    · apply hcommitted
  refine ⟨h.held, h.owned, h.covered, h.paused, h.settled, h.within, ?_, h.kept⟩
  intro a
  dsimp only
  by_cases ha : a ∈ m.kind.accounts
  · rw [hdone a ha, decide_eq_true ha, Bool.true_or]
  · rw [decide_eq_false ha, Bool.false_or]
    apply h.committed a

theorem revoked_deletes {returned : Bool} (h : Revoked c)
    (hfair : Fair c (.deletes i returned)) :
  Revoked (c.deletes i returned)
  := by
  rw [deletes]
  split
  case _ m hi =>
    split
    case isTrue hrunning =>
      split
      case isTrue => exact h.commit hi hrunning.2 rfl rfl rfl rfl
      case isFalse hthrew =>
        have hrevoked := hfair m hi hrunning.1 hrunning.2 (Bool.eq_false_iff.mpr hthrew)
        apply revoked_fails (h.deletes_nothing hi hrunning.2 hrevoked) hi
    case isFalse => exact h
  case _ => exact h

theorem revoked_returns (h : Revoked c) :
  Revoked (c.returns i)
  := by
  rw [returns]
  split
  case _ m hi =>
    split
    case isTrue hreturns =>
      have hm := List.mem_of_getElem? hi
      have hnone : m.revoked = [] := by
        obtain ⟨hguarded, -⟩ | hpoint := hreturns
        · rw [List.eq_nil_iff_forall_not_mem]
          intro a ha
          have haccount := h.within m hm a (.inr ha)
          cases hkind : m.kind with
          | guarded shouldQuiesce =>
            rw [hkind] at haccount
            cases haccount
          | removeAccount accountUuid | resetWallet accountUuids =>
            rw [hkind] at hguarded
            cases hguarded
        · apply h.settled m hm (by rw [hpoint]; rfl)
      apply revoked_resumeOrEnd
      intro x hkind hto hrevoked hclosed
      apply h.move hi hkind hto hrevoked
      · rw [hclosed]
        intro hopen
        cases hopen
      · rintro (hpoint | hpoint)
        · rw [hpoint] at hclosed
          cases hclosed
        · rw [hpoint] at hclosed
          cases hclosed
      · exact fun _ => hnone
    case isFalse => exact h
  case _ => exact h

/-- A mutation that is giving leases back moves. -/
theorem Revoked.resuming (h : Revoked c) (hi : c.mutations[i]? = some m) (point : Point)
    (hclosed : m.point.isOpen = false) (hclosed' : point.isOpen = false) :
  Revoked (c.put i { m with point })
  := by
  refine h.move hi rfl rfl rfl ?_ ?_ ?_
  · intro hopen
    dsimp only at hopen
    rw [hclosed'] at hopen
    cases hopen
  · rintro (hpoint | hpoint)
    · dsimp only at hpoint
      rw [hpoint] at hclosed'
      cases hclosed'
    · dsimp only at hpoint
      rw [hpoint] at hclosed'
      cases hclosed'
  · intro _
    apply h.settled m (List.mem_of_getElem? hi) hclosed

theorem revoked_nextLease {failed : Bool} (h : Revoked c) (hi : c.mutations[i]? = some m)
    (hclosed : m.point.isOpen = false) :
  Revoked (c.nextLease i m leaseIds failed)
  := by
  rw [nextLease]
  split
  · apply Revoked.withLifecycle
    apply h.resuming hi .ended hclosed rfl
  · apply h.resuming hi _ hclosed rfl

theorem revoked_resumeAnswers {reached answer : Bool} (h : Revoked c) :
  Revoked (c.resumeAnswers i reached answer)
  := by
  rw [resumeAnswers]
  split
  case _ m hi =>
    split
    case _ leaseId leaseIds attempt failed hpoint =>
      have hclosed : m.point.isOpen = false := by
        rw [hpoint]
        rfl
      have hresumed := h.withLifecycle (c.lifecycle.resume leaseId reached)
      dsimp only
      split
      case isTrue => exact revoked_nextLease hresumed hi hclosed
      case isFalse =>
        split
        case isTrue => exact hresumed.resuming hi _ hclosed rfl
        case isFalse => exact revoked_nextLease (hresumed.withLifecycle _) hi hclosed
    case _ => exact h
  case _ => exact h

/-- A fair event keeps the revocations in step with the deletions. -/
theorem revoked_step {e : Event} (h : Revoked c) (hfair : Fair c e) :
  Revoked (c.step e)
  := by
  cases e with
  | begin kind parent => exact revoked_begin h
  | revoke i => exact revoked_revoke h
  | quiesce i reached => exact revoked_quiesce h
  | quiesceAnswers i answer => exact revoked_quiesceAnswers h
  | throws i => exact revoked_throws h
  | deletes i returned => exact revoked_deletes h hfair
  | returns i => exact revoked_returns h
  | resumeAnswers i reached answer => exact revoked_resumeAnswers h

/-- A revocation is final, or that of a mutation in progress. -/
theorem Revoked.inProgress (h : Revoked c) {a : String} (ha : c.revocations a ≠ none) :
  c.committedRevocations a = true
    ∨ ∃ m ∈ c.mutations, m.point.isOpen = true ∧ a ∈ m.kind.accounts
  := by
  obtain ⟨i, hi⟩ := Option.ne_none_iff_exists'.mp ha
  obtain hcommitted | ⟨m, hm, hmem⟩ := h.owned a i hi
  · exact .inl hcommitted
  · have hmem' := List.mem_of_getElem? hm
    refine .inr ⟨m, hmem', ?_, h.within m hmem' a (.inr hmem)⟩
    rw [← Bool.not_eq_false]
    intro hclosed
    rw [h.settled m hmem' hclosed] at hmem
    cases hmem

/-! ### Runs of mutations -/

/-- Along fair events, the native side holds as many leases as there are mutations between
their pause and their resume, no lease is held when every mutation has ended and the last one
to resume gave back all of its leases, and the revocation of an account is final exactly when
the account was deleted, and undone otherwise once no mutation in progress has the account. -/
theorem leases_balance {events : List Event} (h : Along step Fair start events) :
  let c := after step start events
  c.pausedCount ≤ c.lifecycle.mutationLeases.length
  ∧ ((∀ m ∈ c.mutations, m.point = .ended) → c.lifecycle.lastResume ≠ some false →
      c.lifecycle.mutationLeases = [])
  ∧ ∀ a, (c.committedRevocations a = true ↔ c.deletedAccounts a = true)
      ∧ (c.revocations a ≠ none → c.committedRevocations a = true
        ∨ ∃ m ∈ c.mutations, m.point.isOpen = true ∧ a ∈ m.kind.accounts)
  := by
  have hleases : ∀ c e, LeasesBalanced c → Fair c e → LeasesBalanced (c.step e) :=
    fun c e hc hfair => balanced_step hc hfair
  have hrevocations : ∀ c e, Revoked c → Fair c e → Revoked (c.step e) :=
    fun c e hc hfair => revoked_step hc hfair
  have hbalanced := invariant hleases balanced_start h
  have hrevoked := invariant hrevocations revoked_start h
  refine ⟨hbalanced.pausedCount_le, hbalanced.released, ?_⟩
  intro a
  refine ⟨?_, hrevoked.inProgress⟩
  rw [hrevoked.committed a]

instance (c : PauseLeases) : ∀ e : Event, Decidable (Fair c e)
  | .quiesceAnswers i _ => inferInstanceAs (Decidable (∀ m ∈ c.mutations[i]?, m.point = .quiescing →
      m.reached = false →
        ∀ id ∈ c.lifecycle.quiescenceLeaseIds.head?, id ∉ c.lifecycle.mutationLeases))
  | .throws i => inferInstanceAs (Decidable (∀ m ∈ c.mutations[i]?, m.point = .deleted →
      m.quiesces = false))
  | .deletes i returned => inferInstanceAs (Decidable (∀ m ∈ c.mutations[i]?,
      m.kind.isGuarded = false → m.point = .running → returned = false → m.revoked = []))
  | .resumeAnswers i reached _ => inferInstanceAs (Decidable (∀ m ∈ c.mutations[i]?,
      ∀ id ∈ m.releasing.head?, reached = false → id ∈ c.lifecycle.mutationLeases →
        m.isLastAttempt → ∀ m' ∈ c.mutations.eraseIdx i, m'.isResuming = false))
  | .begin _ _ | .revoke _ | .quiesce _ _ | .returns _ => inferInstanceAs (Decidable True)

/-- A removal in the action of another mutation, and one on its own. -/
def removals : List Event :=
  [.begin (.guarded true) none, .quiesce 0 true, .quiesceAnswers 0 true,
    .begin (.removeAccount "a") (some 0), .revoke 1, .quiesce 1 true, .deletes 1 true, .throws 1,
    .throws 0, .resumeAnswers 0 true true, .begin (.removeAccount "b") none, .revoke 2,
    .quiesce 2 true, .quiesceAnswers 2 true, .deletes 2 true, .returns 2,
    .resumeAnswers 2 true true]

theorem leases_balance_removals :
  let c := after step start removals
  c.lifecycle.mutationLeases = []
    ∧ (c.committedRevocations "a" = true ↔ c.deletedAccounts "a" = true)
  := by
  have h : Along step Fair start removals := by decide +kernel
  obtain ⟨-, hreleased, hrevoked⟩ := leases_balance h
  have hpoints : (after step start removals).mutations.map (·.point) = [.ended, .ended, .ended] := by
    decide +kernel
  refine ⟨hreleased ?_ ?_, (hrevoked "a").1⟩
  · intro m hm
    have hpoint := List.mem_map_of_mem (f := Mutation.point) hm
    rw [hpoints] at hpoint
    simpa using hpoint
  · decide +kernel

/-- A removal that throws after its deletion leaves its lease to the next mutation, whose own
lease stays.  A mutation whose pause does not reach the native side gives back the lease of
another one. -/
theorem leases_unbalanced :
  (let c := after step start [.begin (.removeAccount "a") none, .revoke 0, .quiesce 0 true,
      .quiesceAnswers 0 true, .deletes 0 true, .throws 0, .begin (.guarded true) none,
      .quiesce 1 true, .quiesceAnswers 1 true, .returns 1, .resumeAnswers 1 true true]
   c.mutations.map (·.point) = [.ended, .ended] ∧ c.lifecycle.lastResume = some true
    ∧ c.lifecycle.mutationLeases = [1])
  ∧ (let c := after step start [.begin (.guarded true) none, .quiesce 0 true,
      .quiesceAnswers 0 true, .begin (.guarded true) none, .quiesce 1 false,
      .quiesceAnswers 1 false, .resumeAnswers 1 true true]
     c.pausedCount = 1 ∧ c.lifecycle.mutationLeases = [])
  ∧ (let c := after step start [.begin (.resetWallet ["a"]) none, .revoke 0, .quiesce 0 true,
      .quiesceAnswers 0 true, .deletes 0 false]
     c.deletedAccounts "a" = true ∧ c.committedRevocations "a" = false ∧ c.revocations "a" = none)
  := by
  decide +kernel

end PauseLeases

end Vizor
