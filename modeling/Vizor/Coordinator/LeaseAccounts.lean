import Vizor.Coordinator.PauseLeases
import Vizor.Lib.Slots
import Mathlib.Data.List.Nodup
import Mathlib.Data.List.Perm.Subperm

/-!
# Leases are accounted for

Every lease that the native side holds waits in the queue, was given up, or is being given
back, and the queue has a held lease for every mutation whose pause reached the native side.
The lemmas of this file say what keeps this.
-/

namespace Vizor

namespace PauseLeases

variable {c c' : PauseLeases} {l : Lifecycle} {ms : List Mutation} {m m' : Mutation}
  {i leaseId : Nat} {leaseIds : List Nat}

/-! ### What a mutation owes -/

/-- The mutation has taken a lease from the queue's point of view, and not yet one off it. -/
def Mutation.owes (m : Mutation) : Bool :=
  m.quiesces && (m.point = .quiescing || m.point = .running || m.point = .deleted)

/-- The leases that the mutation is giving back. -/
def Mutation.releasing (m : Mutation) : List Nat :=
  match m.point with
  | .resuming leaseIds _ _ => leaseIds
  | _ => []

/-- The mutation is giving leases back. -/
def Mutation.isResuming (m : Mutation) : Bool :=
  match m.point with
  | .resuming _ _ _ => true
  | _ => false

/-- The mutation is giving leases back, and gave up none. -/
def Mutation.succeeds (m : Mutation) : Bool :=
  match m.point with
  | .resuming _ _ failed => !failed
  | _ => false

/-- The next call of the mutation for its lease is the last one. -/
def Mutation.isLastAttempt (m : Mutation) : Bool :=
  match m.point with
  | .resuming _ attempt _ => resumeAttempts ≤ attempt + 1
  | _ => false

theorem Mutation.isResuming_of_succeeds (h : m.succeeds = true) :
  m.isResuming = true
  := by
  rw [succeeds] at h
  rw [isResuming]
  split at h
  case _ => rfl
  case _ => cases h

theorem Mutation.isResuming_of_mem (h : leaseId ∈ m.releasing) :
  m.isResuming = true
  := by
  rw [releasing] at h
  rw [isResuming]
  split at h
  case _ => rfl
  case _ => cases h

/-! ### Balanced leases -/

/-- The leases are accounted for. -/
structure Balanced (l : Lifecycle) (ms : List Mutation) : Prop where
  owed : l.quiescenceLeaseIds.length = ms.countP Mutation.owes
  reached : ms.countP (fun m => m.owes && m.reached)
    ≤ l.quiescenceLeaseIds.countP (· ∈ l.mutationLeases)
  quiesced : ∀ m ∈ ms, m.quiesced = true → m.point ≠ .ended → m.owes = true ∧ m.reached = true
  paused : ∀ m ∈ ms, m.owes = true → m.point ≠ .quiescing → m.reached = true
  asked : ∀ m ∈ ms, m.point = .quiescing → m.quiesces = true
  held : ∀ id ∈ l.mutationLeases, id ∈ l.quiescenceLeaseIds ∨ id ∈ l.pendingResumeLeaseIds
    ∨ ∃ m ∈ ms, id ∈ m.releasing
  queueFresh : ∀ id ∈ l.quiescenceLeaseIds, id < l.nextLeaseId
  pendingFresh : ∀ id ∈ l.pendingResumeLeaseIds, id < l.nextLeaseId
  resumingFresh : ∀ m ∈ ms, ∀ id ∈ m.releasing, id < l.nextLeaseId
  queueNodup : l.quiescenceLeaseIds.Nodup
  heldNodup : l.mutationLeases.Nodup
  pendingApart : ∀ id ∈ l.quiescenceLeaseIds, id ∉ l.pendingResumeLeaseIds
  resumingApart : ∀ m ∈ ms, ∀ id ∈ l.quiescenceLeaseIds, id ∉ m.releasing
  givenUp : ∀ id ∈ l.pendingResumeLeaseIds, id ∈ l.mutationLeases →
    (∀ m ∈ ms, m.succeeds = false)
      ∧ ((∀ m ∈ ms, m.isResuming = false) → l.lastResume = some false)

theorem Balanced.held_lt (h : Balanced l ms) {id : Nat} (hid : id ∈ l.mutationLeases) :
  id < l.nextLeaseId
  := by
  obtain hqueue | hpending | ⟨m, hm, hids⟩ := h.held id hid
  · apply h.queueFresh id hqueue
  · apply h.pendingFresh id hpending
  · apply h.resumingFresh m hm id hids

theorem balanced_start :
  Balanced start.lifecycle start.mutations
  := by
  constructor
  case owed => rfl
  case reached => exact Nat.le_refl _
  case queueNodup => exact List.nodup_nil
  case heldNodup => exact List.nodup_nil
  all_goals
    intro x hx
    cases hx

/-- A mutation that is called owes nothing. -/
theorem Balanced.begin (h : Balanced l ms) (hpoint : m.point = .preflight)
    (hquiesced : m.quiesced = false) :
  Balanced l (ms ++ [m])
  := by
  have howes : m.owes = false := by
    rw [Mutation.owes, hpoint]
    simp
  have hids : m.releasing = [] := by rw [Mutation.releasing, hpoint]
  have hresuming : m.isResuming = false := by rw [Mutation.isResuming, hpoint]
  have hsucceeds : m.succeeds = false := by rw [Mutation.succeeds, hpoint]
  have hforall : ∀ P : Mutation → Prop, (∀ m ∈ ms, P m) → P m → ∀ x ∈ ms ++ [m], P x := by
    intro P hold hnew x hx
    obtain hx | hx := List.mem_append.mp hx
    · apply hold x hx
    · rw [List.mem_singleton.mp hx]
      apply hnew
  constructor
  case owed =>
    rw [List.countP_append, List.countP_singleton, howes, h.owed]
    rfl
  case reached =>
    rw [List.countP_append, List.countP_singleton, howes, Bool.false_and]
    apply h.reached
  case quiesced =>
    apply hforall _ h.quiesced
    intro htrue
    rw [hquiesced] at htrue
    cases htrue
  case paused =>
    apply hforall _ h.paused
    rw [howes]
    intro htrue
    cases htrue
  case asked =>
    apply hforall _ h.asked
    rw [hpoint]
    apply Point.noConfusion
  case held =>
    intro id hid
    obtain hqueue | hpending | ⟨x, hx, hmem⟩ := h.held id hid
    · exact .inl hqueue
    · exact .inr (.inl hpending)
    · exact .inr (.inr ⟨x, List.mem_append_left _ hx, hmem⟩)
  case queueFresh => exact h.queueFresh
  case pendingFresh => exact h.pendingFresh
  case resumingFresh =>
    apply hforall _ h.resumingFresh
    rw [hids]
    intro id hid
    cases hid
  case queueNodup => exact h.queueNodup
  case heldNodup => exact h.heldNodup
  case pendingApart => exact h.pendingApart
  case resumingApart =>
    apply hforall _ h.resumingApart
    rw [hids]
    intro id _ hid
    cases hid
  case givenUp =>
    intro id hpending hid
    obtain ⟨hall, hlast⟩ := h.givenUp id hpending hid
    refine ⟨hforall _ hall hsucceeds, ?_⟩
    intro hnone
    apply hlast
    intro x hx
    apply hnone x (List.mem_append_left _ hx)

/-- A mutation moves, and neither takes nor gives back a lease. -/
theorem Balanced.move (h : Balanced l ms) (hi : ms[i]? = some m) (howes : m'.owes = m.owes)
    (hreached : m'.owes = true → m'.reached = m.reached)
    (hquiesced : m'.quiesced = true → m'.point ≠ .ended → m'.owes = true ∧ m'.reached = true)
    (hpaused : m'.owes = true → m'.point ≠ .quiescing → m'.reached = true)
    (hasked : m'.point = .quiescing → m'.quiesces = true)
    (hreleasing : m'.releasing = m.releasing) (hresuming : m'.isResuming = m.isResuming)
    (hsucceeds : m'.succeeds = true → m.succeeds = true) :
  Balanced l (ms.set i m')
  := by
  have hm := List.mem_of_getElem? hi
  have hsame : ms.countP Mutation.owes = (ms.set i m').countP Mutation.owes := by
    have hcount := Slots.countP_set_add (a := m') (p := Mutation.owes) hi
    rw [howes] at hcount
    omega
  have hsameReached : (ms.set i m').countP (fun m => m.owes && m.reached)
      = ms.countP fun m => m.owes && m.reached := by
    have hcount := Slots.countP_set_add (a := m') (p := fun m => m.owes && m.reached) hi
    have heq : (m'.owes && m'.reached) = (m.owes && m.reached) := by
      rw [howes]
      cases hm : m.owes with
      | false => rfl
      | true =>
        rw [hreached]
        rw [howes]
        apply hm
    rw [heq] at hcount
    omega
  constructor
  case owed => rw [← hsame, h.owed]
  case reached =>
    rw [hsameReached]
    apply h.reached
  case quiesced => exact Slots.forall_set h.quiesced hquiesced
  case paused => exact Slots.forall_set h.paused hpaused
  case asked => exact Slots.forall_set h.asked hasked
  case held =>
    intro id hid
    obtain hqueue | hpending | ⟨x, hx, hmem⟩ := h.held id hid
    · exact .inl hqueue
    · exact .inr (.inl hpending)
    · right
      right
      obtain hx | rfl := Slots.mem_set_or_eq (a := m') hi hx
      · exact ⟨x, hx, hmem⟩
      · refine ⟨m', Slots.mem_set_self hi, ?_⟩
        rw [hreleasing]
        apply hmem
  case queueFresh => exact h.queueFresh
  case pendingFresh => exact h.pendingFresh
  case resumingFresh =>
    apply Slots.forall_set h.resumingFresh
    rw [hreleasing]
    apply h.resumingFresh m hm
  case queueNodup => exact h.queueNodup
  case heldNodup => exact h.heldNodup
  case pendingApart => exact h.pendingApart
  case resumingApart =>
    apply Slots.forall_set h.resumingApart
    rw [hreleasing]
    apply h.resumingApart m hm
  case givenUp =>
    intro id hpending hid
    obtain ⟨hall, hlast⟩ := h.givenUp id hpending hid
    constructor
    · apply Slots.forall_set hall
      rw [← Bool.not_eq_true]
      intro htrue
      rw [hall m hm] at hsucceeds
      cases hsucceeds htrue
    · intro hnone
      apply hlast
      intro x hx
      obtain hx | rfl := Slots.mem_set_or_eq (a := m') hi hx
      · apply hnone x hx
      · rw [← hresuming]
        apply hnone m' (Slots.mem_set_self hi)

/-- A lease is taken. -/
theorem Balanced.quiesce {reached : Bool} (h : Balanced l ms) (hi : ms[i]? = some m)
    (hpoint : m.point = .preflight) (hquiesces : m.quiesces = true) :
  Balanced (l.quiesce reached) (ms.set i { m with reached, point := .quiescing })
  := by
  have hm := List.mem_of_getElem? hi
  have howes : m.owes = false := by
    rw [Mutation.owes, hpoint]
    simp
  have howes' : Mutation.owes { m with reached, point := .quiescing } = true := by
    rw [Mutation.owes]
    simpa [Mutation.quiesces] using hquiesces
  have hold : ∀ id ∈ l.mutationLeases, id ∈ (l.quiesce reached).mutationLeases := by
    intro id hid
    rw [Lifecycle.quiesce]
    dsimp only
    split
    · apply List.mem_append_left _ hid
    · apply hid
  have hnew : ∀ id ∈ (l.quiesce reached).mutationLeases,
      id ∈ l.mutationLeases ∨ id = l.nextLeaseId ∧ reached = true := by
    intro id hid
    rw [Lifecycle.quiesce] at hid
    dsimp only at hid
    split at hid
    case isTrue htrue =>
      obtain hid | hid := List.mem_append.mp hid
      · exact .inl hid
      · exact .inr ⟨List.mem_singleton.mp hid, htrue⟩
    case isFalse => exact .inl hid
  have hcounted : ∀ id ∈ l.quiescenceLeaseIds,
      (id ∈ (l.quiesce reached).mutationLeases ↔ id ∈ l.mutationLeases) := by
    intro id hid
    refine ⟨?_, hold id⟩
    intro hmem
    obtain hmem | ⟨rfl, -⟩ := hnew id hmem
    · apply hmem
    · exact absurd (h.queueFresh _ hid) (Nat.lt_irrefl _)
  constructor
  case owed =>
    have hcount := Slots.countP_set_add (p := Mutation.owes)
      (a := { m with reached, point := .quiescing }) hi
    rw [howes, howes', if_pos rfl, if_neg Bool.false_ne_true] at hcount
    rw [Lifecycle.quiesce, List.length_append, List.length_singleton, h.owed]
    apply hcount.symm
  case reached =>
    have hcount := Slots.countP_set_add (p := fun m => m.owes && m.reached)
      (a := { m with reached, point := .quiescing }) hi
    dsimp only at hcount
    rw [howes, howes', Bool.true_and, Bool.false_and, if_neg Bool.false_ne_true] at hcount
    have hqueue : l.quiescenceLeaseIds.countP (· ∈ (l.quiesce reached).mutationLeases)
        = l.quiescenceLeaseIds.countP (· ∈ l.mutationLeases) := by
      apply List.countP_congr
      intro id hid
      simpa using hcounted id hid
    have hlast : (if reached = true then 1 else 0)
        ≤ [l.nextLeaseId].countP (· ∈ (l.quiesce reached).mutationLeases) := by
      split
      case isTrue htrue =>
        subst htrue
        have hmem : l.nextLeaseId ∈ (l.quiesce true).mutationLeases :=
          List.mem_append_right _ List.mem_cons_self
        have hone : [l.nextLeaseId].countP (· ∈ (l.quiesce true).mutationLeases) = 1 := by
          rw [List.countP_singleton, if_pos (decide_eq_true hmem)]
        apply Nat.le_of_eq hone.symm
      case isFalse => exact Nat.zero_le _
    have hsplit : (l.quiesce reached).quiescenceLeaseIds
        = l.quiescenceLeaseIds ++ [l.nextLeaseId] := rfl
    rw [hsplit, List.countP_append, hqueue]
    have hreached := h.reached
    omega
  case quiesced =>
    apply Slots.forall_set h.quiesced
    intro htrue
    have hpast := (h.quiesced m hm htrue (by rw [hpoint]; exact Point.noConfusion)).1
    rw [howes] at hpast
    cases hpast
  case paused =>
    apply Slots.forall_set h.paused
    intro _ hne
    exact absurd rfl hne
  case asked => exact Slots.forall_set h.asked fun _ => hquiesces
  case held =>
    intro id hid
    obtain hid | ⟨rfl, -⟩ := hnew id hid
    · obtain hqueue | hpending | ⟨x, hx, hmem⟩ := h.held id hid
      · exact .inl (List.mem_append_left _ hqueue)
      · exact .inr (.inl hpending)
      · right
        right
        obtain hx | rfl := Slots.mem_set_or_eq (a := { m with reached, point := .quiescing }) hi hx
        · exact ⟨x, hx, hmem⟩
        · rw [Mutation.releasing, hpoint] at hmem
          cases hmem
    · exact .inl (List.mem_append_right _ List.mem_cons_self)
  case queueFresh =>
    intro id hid
    obtain hid | hid := List.mem_append.mp hid
    · apply Nat.lt_succ_of_lt (h.queueFresh id hid)
    · rw [List.mem_singleton.mp hid]
      apply Nat.lt_succ_self _
  case pendingFresh =>
    intro id hid
    apply Nat.lt_succ_of_lt (h.pendingFresh id hid)
  case resumingFresh =>
    apply Slots.forall_set
    · intro x hx id hid
      apply Nat.lt_succ_of_lt (h.resumingFresh x hx id hid)
    · intro id hid
      cases hid
  case queueNodup =>
    apply List.Nodup.append h.queueNodup (List.nodup_singleton _)
    rw [List.disjoint_singleton]
    intro hid
    exact absurd (h.queueFresh _ hid) (Nat.lt_irrefl _)
  case heldNodup =>
    rw [Lifecycle.quiesce]
    dsimp only
    split
    · apply List.Nodup.append h.heldNodup (List.nodup_singleton _)
      rw [List.disjoint_singleton]
      intro hid
      exact absurd (h.held_lt hid) (Nat.lt_irrefl _)
    · apply h.heldNodup
  case pendingApart =>
    intro id hid hpending
    obtain hid | hid := List.mem_append.mp hid
    · apply h.pendingApart id hid hpending
    · rw [List.mem_singleton.mp hid] at hpending
      exact absurd (h.pendingFresh _ hpending) (Nat.lt_irrefl _)
  case resumingApart =>
    apply Slots.forall_set
    · intro x hx id hid hmem
      obtain hid | hid := List.mem_append.mp hid
      · apply h.resumingApart x hx id hid hmem
      · rw [List.mem_singleton.mp hid] at hmem
        exact absurd (h.resumingFresh x hx _ hmem) (Nat.lt_irrefl _)
    · intro id _ hmem
      cases hmem
  case givenUp =>
    intro id hpending hid
    have hheld : id ∈ l.mutationLeases := by
      obtain hid | ⟨rfl, -⟩ := hnew id hid
      · apply hid
      · exact absurd (h.pendingFresh _ hpending) (Nat.lt_irrefl _)
    obtain ⟨hall, hlast⟩ := h.givenUp id hpending hheld
    refine ⟨Slots.forall_set hall rfl, ?_⟩
    intro hnone
    apply hlast
    intro x hx
    obtain hx | rfl := Slots.mem_set_or_eq (a := { m with reached, point := .quiescing }) hi hx
    · apply hnone x hx
    · rw [Mutation.isResuming, hpoint]

theorem mem_insertLease {id : Nat} :
  id ∈ insertLease leaseIds leaseId ↔ id ∈ leaseIds ∨ id = leaseId
  := by
  rw [insertLease]
  split
  case isTrue hmem =>
    refine ⟨Or.inl, ?_⟩
    rintro (hid | rfl)
    · apply hid
    · apply hmem
  case isFalse => rw [List.mem_append, List.mem_singleton]

/-- A lease is taken off the queue, to be given back with the ones that were given up. -/
theorem Balanced.resumeAfterMutation (h : Balanced l ms) (hi : ms[i]? = some m)
    (howes : m.owes = true)
    (hown : m.reached = false → ∀ id ∈ l.quiescenceLeaseIds.head?, id ∉ l.mutationLeases)
    (hquiesced : m'.quiesced = false)
    (hpoint : m'.point = .resuming l.resumeAfterMutation.1 0 false) :
  Balanced l.resumeAfterMutation.2 (ms.set i m')
  := by
  have hm := List.mem_of_getElem? hi
  have howes' : m'.owes = false := by
    rw [Mutation.owes, hpoint]
    simp
  have hresuming' : m'.isResuming = true := by rw [Mutation.isResuming, hpoint]
  obtain ⟨first, rest, hqueue⟩ : ∃ first rest, l.quiescenceLeaseIds = first :: rest := by
    apply List.exists_cons_of_length_pos
    rw [h.owed]
    apply List.countP_pos_iff.mpr ⟨m, hm, howes⟩
  have hids : m'.releasing = insertLease l.pendingResumeLeaseIds first := by
    rw [Mutation.releasing, hpoint, Lifecycle.resumeAfterMutation, hqueue]
  have hrest : ∀ id ∈ rest, id ∈ l.quiescenceLeaseIds := by
    intro id hid
    rw [hqueue]
    apply List.mem_cons_of_mem _ hid
  have hfirst : first ∈ l.quiescenceLeaseIds := by
    rw [hqueue]
    apply List.mem_cons_self
  have hafter : l.resumeAfterMutation.2
      = { l with quiescenceLeaseIds := rest, pendingResumeLeaseIds := [] } := by
    rw [Lifecycle.resumeAfterMutation, hqueue]
  have hnodup := h.queueNodup
  rw [hqueue, List.nodup_cons] at hnodup
  rw [hafter]
  constructor
  case owed =>
    have hcount := Slots.countP_set_add (p := Mutation.owes) (a := m') hi
    rw [howes, howes', if_pos rfl, if_neg Bool.false_ne_true] at hcount
    have howed := h.owed
    rw [hqueue, List.length_cons] at howed
    dsimp only
    omega
  case reached =>
    have hcount := Slots.countP_set_add (p := fun m => m.owes && m.reached) (a := m') hi
    have hreached := h.reached
    dsimp only at hcount ⊢
    rw [howes, howes', Bool.true_and, Bool.false_and, if_neg Bool.false_ne_true] at hcount
    rw [hqueue, List.countP_cons] at hreached
    cases hown' : m.reached with
    | true =>
      rw [hown', if_pos rfl] at hcount
      split at hreached
      · omega
      · omega
    | false =>
      have hnot : first ∉ l.mutationLeases := by
        apply hown hown'
        rw [hqueue]
        rfl
      rw [hown', if_neg Bool.false_ne_true] at hcount
      rw [if_neg (by simpa using hnot)] at hreached
      omega
  case quiesced =>
    apply Slots.forall_set h.quiesced
    rw [hquiesced]
    intro htrue
    cases htrue
  case paused =>
    apply Slots.forall_set h.paused
    rw [howes']
    intro htrue
    cases htrue
  case asked =>
    apply Slots.forall_set h.asked
    rw [hpoint]
    apply Point.noConfusion
  case held =>
    intro id hid
    have hself : m' ∈ ms.set i m' := Slots.mem_set_self hi
    obtain hqueued | hpending | ⟨x, hx, hmem⟩ := h.held id hid
    · rw [hqueue, List.mem_cons] at hqueued
      obtain rfl | hqueued := hqueued
      · refine .inr (.inr ⟨m', hself, ?_⟩)
        rw [hids, mem_insertLease]
        exact .inr rfl
      · exact .inl hqueued
    · refine .inr (.inr ⟨m', hself, ?_⟩)
      rw [hids, mem_insertLease]
      exact .inl hpending
    · right
      right
      obtain hx | rfl := Slots.mem_set_or_eq (a := m') hi hx
      · exact ⟨x, hx, hmem⟩
      · have hnone := Mutation.isResuming_of_mem hmem
        rw [Mutation.owes] at howes
        rw [Mutation.isResuming] at hnone
        split at hnone
        case _ hpoint => simp [hpoint] at howes
        case _ => cases hnone
  case queueFresh =>
    intro id hid
    apply h.queueFresh id (hrest id hid)
  case pendingFresh =>
    intro id hid
    cases hid
  case resumingFresh =>
    apply Slots.forall_set h.resumingFresh
    intro id hid
    rw [hids, mem_insertLease] at hid
    obtain hid | rfl := hid
    · apply h.pendingFresh id hid
    · apply h.queueFresh id hfirst
  case queueNodup => exact hnodup.2
  case heldNodup => exact h.heldNodup
  case pendingApart =>
    intro id _ hid
    cases hid
  case resumingApart =>
    apply Slots.forall_set
    · intro x hx id hid
      apply h.resumingApart x hx id (hrest id hid)
    · intro id hid hmem
      rw [hids, mem_insertLease] at hmem
      obtain hmem | rfl := hmem
      · apply h.pendingApart id (hrest id hid) hmem
      · apply hnodup.1 hid
  case givenUp =>
    intro id hid
    cases hid

/-- A lease that a mutation is giving back is released by the native side. -/
theorem Balanced.resume {reached : Bool} (h : Balanced l ms) (hm : m ∈ ms)
    (hid : leaseId ∈ m.releasing) :
  Balanced (l.resume leaseId reached) ms
  := by
  have hsub : ∀ id ∈ (l.resume leaseId reached).mutationLeases, id ∈ l.mutationLeases := by
    intro id hid
    rw [Lifecycle.resume] at hid
    dsimp only at hid
    split at hid
    · apply List.mem_of_mem_erase hid
    · apply hid
  have hother : ∀ id ≠ leaseId,
      (id ∈ (l.resume leaseId reached).mutationLeases ↔ id ∈ l.mutationLeases) := by
    intro id hne
    rw [Lifecycle.resume]
    dsimp only
    split
    · apply List.mem_erase_of_ne hne
    · rfl
  constructor
  case owed => exact h.owed
  case reached =>
    have hcount : l.quiescenceLeaseIds.countP (· ∈ (l.resume leaseId reached).mutationLeases)
        = l.quiescenceLeaseIds.countP (· ∈ l.mutationLeases) := by
      apply List.countP_congr
      intro id hqueued
      have hne : id ≠ leaseId := by
        rintro rfl
        apply h.resumingApart m hm id hqueued hid
      simpa using hother id hne
    have hsame : (l.resume leaseId reached).quiescenceLeaseIds = l.quiescenceLeaseIds := rfl
    rw [hsame, hcount]
    apply h.reached
  case quiesced => exact h.quiesced
  case paused => exact h.paused
  case asked => exact h.asked
  case held =>
    intro id hid
    apply h.held id (hsub id hid)
  case queueFresh => exact h.queueFresh
  case pendingFresh => exact h.pendingFresh
  case resumingFresh => exact h.resumingFresh
  case queueNodup => exact h.queueNodup
  case heldNodup =>
    rw [Lifecycle.resume]
    dsimp only
    split
    · apply h.heldNodup.erase _
    · apply h.heldNodup
  case pendingApart => exact h.pendingApart
  case resumingApart => exact h.resumingApart
  case givenUp =>
    intro id hpending hid
    apply h.givenUp id hpending (hsub id hid)

/-- A lease is given up. -/
theorem Balanced.giveUp (h : Balanced l ms) (hm : m ∈ ms) (hid : leaseId ∈ m.releasing)
    (halone : leaseId ∈ l.mutationLeases → ∀ m ∈ ms, m.succeeds = false) :
  Balanced (l.giveUp leaseId) ms
  := by
  constructor
  case owed => exact h.owed
  case reached => exact h.reached
  case quiesced => exact h.quiesced
  case paused => exact h.paused
  case asked => exact h.asked
  case held =>
    intro id hheld
    obtain hqueue | hpending | hmem := h.held id hheld
    · exact .inl hqueue
    · refine .inr (.inl ?_)
      apply mem_insertLease.mpr (.inl hpending)
    · exact .inr (.inr hmem)
  case queueFresh => exact h.queueFresh
  case pendingFresh =>
    intro id hpending
    obtain hpending | rfl := mem_insertLease.mp hpending
    · apply h.pendingFresh id hpending
    · apply h.resumingFresh m hm id hid
  case resumingFresh => exact h.resumingFresh
  case queueNodup => exact h.queueNodup
  case heldNodup => exact h.heldNodup
  case pendingApart =>
    intro id hqueued hpending
    obtain hpending | rfl := mem_insertLease.mp hpending
    · apply h.pendingApart id hqueued hpending
    · apply h.resumingApart m hm id hqueued hid
  case resumingApart => exact h.resumingApart
  case givenUp =>
    intro id hpending hheld
    obtain hpending | rfl := mem_insertLease.mp hpending
    · apply h.givenUp id hpending hheld
    · refine ⟨halone hheld, ?_⟩
      intro hnone
      have hsome := Mutation.isResuming_of_mem hid
      rw [hnone m hm] at hsome
      cases hsome

/-- The loop goes on to the next lease, when the native side does not hold the one before, or
it was given up. -/
theorem Balanced.nextLease {failed : Bool} {attempt : Nat} (h : Balanced l ms)
    (hi : ms[i]? = some m) (hpoint : m.point = .resuming (leaseId :: leaseIds) attempt failed)
    (hquiesced : m.quiesced = false)
    (hgone : leaseId ∈ l.mutationLeases → leaseId ∈ l.pendingResumeLeaseIds)
    (hpoint' : m'.point = .resuming leaseIds 0 failed ∧ m'.quiesced = false) :
  Balanced l (ms.set i m')
  := by
  have hm := List.mem_of_getElem? hi
  have hids : m.releasing = leaseId :: leaseIds := by rw [Mutation.releasing, hpoint]
  have hids' : m'.releasing = leaseIds := by rw [Mutation.releasing, hpoint'.1]
  have howes : m.owes = false := by
    rw [Mutation.owes, hpoint]
    simp
  have howes' : m'.owes = false := by
    rw [Mutation.owes, hpoint'.1]
    simp
  have hsub : ∀ id ∈ m'.releasing, id ∈ m.releasing := by
    intro id hid
    rw [hids'] at hid
    rw [hids]
    apply List.mem_cons_of_mem _ hid
  constructor
  case owed =>
    have hcount := Slots.countP_set_add (p := Mutation.owes) (a := m') hi
    rw [howes, howes'] at hcount
    rw [h.owed]
    omega
  case reached =>
    have hcount := Slots.countP_set_add (p := fun m => m.owes && m.reached) (a := m') hi
    rw [howes, howes', Bool.false_and, Bool.false_and] at hcount
    have hreached := h.reached
    omega
  case quiesced =>
    apply Slots.forall_set h.quiesced
    rw [hpoint'.2]
    intro htrue
    cases htrue
  case paused =>
    apply Slots.forall_set h.paused
    rw [howes']
    intro htrue
    cases htrue
  case asked =>
    apply Slots.forall_set h.asked
    rw [hpoint'.1]
    apply Point.noConfusion
  case held =>
    intro id hid
    obtain hqueue | hpending | ⟨x, hx, hmem⟩ := h.held id hid
    · exact .inl hqueue
    · exact .inr (.inl hpending)
    · obtain hx | rfl := Slots.mem_set_or_eq (a := m') hi hx
      · exact .inr (.inr ⟨x, hx, hmem⟩)
      · rw [hids, List.mem_cons] at hmem
        obtain rfl | hmem := hmem
        · exact .inr (.inl (hgone hid))
        · refine .inr (.inr ⟨m', Slots.mem_set_self hi, ?_⟩)
          rw [hids']
          apply hmem
  case queueFresh => exact h.queueFresh
  case pendingFresh => exact h.pendingFresh
  case resumingFresh =>
    apply Slots.forall_set h.resumingFresh
    intro id hid
    apply h.resumingFresh m hm id (hsub id hid)
  case queueNodup => exact h.queueNodup
  case heldNodup => exact h.heldNodup
  case pendingApart => exact h.pendingApart
  case resumingApart =>
    apply Slots.forall_set h.resumingApart
    intro id hqueued hid
    apply h.resumingApart m hm id hqueued (hsub id hid)
  case givenUp =>
    intro id hpending hid
    obtain ⟨hall, hlast⟩ := h.givenUp id hpending hid
    constructor
    · apply Slots.forall_set hall
      have hfailed := hall m hm
      rw [Mutation.succeeds, hpoint] at hfailed
      rw [Mutation.succeeds, hpoint'.1]
      apply hfailed
    · intro hnone
      have hself := hnone m' (Slots.mem_set_self hi)
      rw [Mutation.isResuming, hpoint'.1] at hself
      cases hself

/-- The loop ends after the last lease. -/
theorem Balanced.endResume {failed : Bool} {attempt : Nat} (h : Balanced l ms)
    (hi : ms[i]? = some m) (hpoint : m.point = .resuming [] attempt failed)
    (hpoint' : m'.point = .ended) :
  Balanced { l with lastResume := some !failed } (ms.set i m')
  := by
  have hm := List.mem_of_getElem? hi
  have hids : m.releasing = [] := by rw [Mutation.releasing, hpoint]
  have hids' : m'.releasing = [] := by rw [Mutation.releasing, hpoint']
  have howes : m.owes = false := by
    rw [Mutation.owes, hpoint]
    simp
  have howes' : m'.owes = false := by
    rw [Mutation.owes, hpoint']
    simp
  constructor
  case owed =>
    have hcount := Slots.countP_set_add (p := Mutation.owes) (a := m') hi
    rw [howes, howes'] at hcount
    have howed := h.owed
    dsimp only
    omega
  case reached =>
    have hcount := Slots.countP_set_add (p := fun m => m.owes && m.reached) (a := m') hi
    rw [howes, howes', Bool.false_and, Bool.false_and] at hcount
    have hreached := h.reached
    dsimp only
    omega
  case quiesced =>
    apply Slots.forall_set h.quiesced
    intro _ hne
    exact absurd hpoint' hne
  case paused =>
    apply Slots.forall_set h.paused
    rw [howes']
    intro htrue
    cases htrue
  case asked =>
    apply Slots.forall_set h.asked
    rw [hpoint']
    apply Point.noConfusion
  case held =>
    intro id hid
    obtain hqueue | hpending | ⟨x, hx, hmem⟩ := h.held id hid
    · exact .inl hqueue
    · exact .inr (.inl hpending)
    · obtain hx | rfl := Slots.mem_set_or_eq (a := m') hi hx
      · exact .inr (.inr ⟨x, hx, hmem⟩)
      · rw [hids] at hmem
        cases hmem
  case queueFresh => exact h.queueFresh
  case pendingFresh => exact h.pendingFresh
  case resumingFresh =>
    apply Slots.forall_set h.resumingFresh
    rw [hids']
    intro id hid
    cases hid
  case queueNodup => exact h.queueNodup
  case heldNodup => exact h.heldNodup
  case pendingApart => exact h.pendingApart
  case resumingApart =>
    apply Slots.forall_set h.resumingApart
    rw [hids']
    intro id _ hid
    cases hid
  case givenUp =>
    intro id hpending hid
    obtain ⟨hall, -⟩ := h.givenUp id hpending hid
    have hfailed := hall m hm
    rw [Mutation.succeeds, hpoint] at hfailed
    dsimp only at hfailed ⊢
    rw [hfailed]
    refine ⟨Slots.forall_set hall ?_, fun _ => rfl⟩
    rw [Mutation.succeeds, hpoint']

end PauseLeases

end Vizor
