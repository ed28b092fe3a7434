import Mathlib.Data.Finset.Basic
import Mathlib.Data.Finset.SDiff
import Vizor.Store.Reconciliation

/-!
# Locks in the wallet

The notes of a run are locked in the wallet under the name of the run.  The phase of the run
and the locks are behind different interfaces, so a reconciliation of the locks reads the
phase and the candidates first, then locks or unlocks the candidates in the wallet, and reads
the phase again.  Calls interleave between these steps.  A stop of the run unlocks its notes
and then removes the stages that were not submitted, with the candidates that these list.
-/

namespace Vizor

open Table Run

/-! ### Calls -/

/-- What the wallet knows when notes are to be locked. -/
structure WalletView where
  /-- Whether the wallet has a target height. -/
  hasTargetHeight : Bool
  /-- Whether the wallet has the note among those that can be spent. -/
  spendable : OutPoint → Bool

/-- Where a reconciliation of the locks stands, with the number of rounds that are left. -/
inductive LockPoint where
  /-- Before the phase and the candidates are read. -/
  | snapshot (left : Nat)
  | unlock (left : Nat) (candidates : List OutPoint)
  | lock (left : Nat) (candidates : List OutPoint)
  /-- Before the phase is read again. -/
  | check (left : Nat) (releaseLocks : Bool) (candidates : List OutPoint)
  /-- The run was deleted. -/
  | cleanUp (candidates : List OutPoint)
  deriving DecidableEq, Repr

/-- Where a call stands. -/
inductive LockProcess where
  | reconcile (point : LockPoint) (thenDiscard : Bool)
  | abandon (account : AccountUuid) (network : WalletNetwork)
  /-- Before the phase that was read is written over. -/
  | stop (phase : Phase)
  | discard
  | returned
  | failed
  deriving DecidableEq, Repr

/-- The store, the notes that are locked under the name of the run, and the calls. -/
structure LockWorld where
  store : Store
  locked : Finset OutPoint
  processes : List LockProcess
  deriving DecidableEq

/-- A step of a call, or a new call. -/
inductive LockOp where
  | reconcileWalletLocksForRun
  | abandonRun (account : AccountUuid) (network : WalletNetwork)
  | discardUnsubmittedPreparationStages
  | advance (i : Nat) (wallet : WalletView)
  /-- A call fails; `unlocked` of the candidates that it was to unlock are unlocked. -/
  | fail (i unlocked : Nat)

namespace Store

/-- The notes of a run that are to be locked. -/
def walletLockCandidates (s : Store) (r : RunId) : List OutPoint :=
  (s.preparedOf r).map (·.note.outpoint)
    ++ (s.stageInputs.filter fun input => input.runId = r).map (·.outpoint)

/-- Whether the locks of a run are to be released, and its candidates. -/
def walletLockReconciliationSnapshot (s : Store) (r : RunId) : Option (Bool × List OutPoint) :=
  (s.phaseOf r).map fun phase => (phase.releasesWalletLocks, s.walletLockCandidates r)

end Store

namespace LockWorld

/-- The notes that are locked when the candidates are to be locked. -/
def ensureOrchardMigrationLocks (wallet : WalletView) (locked : Finset OutPoint)
    (candidates : List OutPoint) : Finset OutPoint :=
  if wallet.hasTargetHeight then locked ∪ (candidates.filter wallet.spendable).toFinset
  else locked

/-- The notes that are locked after the candidates are unlocked. -/
def unlockOrchardMigrationOutputs (locked : Finset OutPoint) (candidates : List OutPoint) :
    Finset OutPoint :=
  locked \ candidates.toFinset

/-- A reconciliation of the locks starts. -/
def startReconcile (thenDiscard : Bool) : LockProcess :=
  .reconcile (.snapshot 8) thenDiscard

/-- A reconciliation of the locks is done. -/
def doneReconcile (thenDiscard : Bool) : LockProcess :=
  if thenDiscard then .discard else .returned

/-- The next step of a reconciliation of the locks of `r`. -/
def advanceReconcile (r : RunId) (wallet : WalletView) (s : Store) (locked : Finset OutPoint)
    (thenDiscard : Bool) : LockPoint → Finset OutPoint × LockProcess
  | .snapshot 0 => (locked, .failed)
  | .snapshot (left + 1) =>
    match s.walletLockReconciliationSnapshot r with
    | none => (locked, doneReconcile thenDiscard)
    | some (true, candidates) => (locked, .reconcile (.unlock left candidates) thenDiscard)
    | some (false, candidates) => (locked, .reconcile (.lock left candidates) thenDiscard)
  | .unlock left candidates =>
    (unlockOrchardMigrationOutputs locked candidates,
      .reconcile (.check left true candidates) thenDiscard)
  | .lock left candidates =>
    (ensureOrchardMigrationLocks wallet locked candidates,
      .reconcile (.check left false candidates) thenDiscard)
  | .check left releaseLocks candidates =>
    match s.walletLockReconciliationSnapshot r with
    | none => (locked, .reconcile (.cleanUp candidates) thenDiscard)
    | some (currentReleaseLocks, _) =>
      if releaseLocks = currentReleaseLocks then (locked, doneReconcile thenDiscard)
      else (locked, .reconcile (.snapshot left) thenDiscard)
  | .cleanUp candidates =>
    (unlockOrchardMigrationOutputs locked candidates, doneReconcile thenDiscard)

/-- What a stop of `r` does after it read the run. -/
def readBeforeStopping (s : Store) (r : RunId) (account : AccountUuid) (network : WalletNetwork) :
    LockProcess :=
  match s.run? r with
  | none => .failed
  | some run =>
    if ¬(run.accountUuid = account ∧ run.network = network) then .failed
    else if run.phase = .abandoned then startReconcile true
    else if run.phase = .complete ∨ run.phase = .failedTerminal then .failed
    else .stop run.phase

/-- The next step of a call for `r`. -/
def advance (r : RunId) (wallet : WalletView) (s : Store) (locked : Finset OutPoint) :
    LockProcess → Store × Finset OutPoint × LockProcess
  | .reconcile point thenDiscard => (s, advanceReconcile r wallet s locked thenDiscard point)
  | .abandon account network => (s, locked, readBeforeStopping s r account network)
  | .stop phase =>
    if s.phaseOf r = some phase then (s.stopRun r phase, locked, startReconcile true)
    else (s, locked, .failed)
  | .discard => (s.discardUnsubmittedPreparationStages r, locked, .returned)
  | .returned => (s, locked, .returned)
  | .failed => (s, locked, .failed)

/-- The notes that are locked when a call fails. -/
def lockedAfterFailure (locked : Finset OutPoint) (unlocked : Nat) :
    LockProcess → Finset OutPoint
  | .reconcile (.unlock _ candidates) _ | .reconcile (.cleanUp candidates) _ =>
    unlockOrchardMigrationOutputs locked (candidates.take unlocked)
  | _ => locked

/-- A call that returned does not fail. -/
def failProcess : LockProcess → LockProcess
  | .returned => .returned
  | _ => .failed

/-- A step of the calls for `r`. -/
def step (r : RunId) (w : LockWorld) : LockOp → LockWorld
  | .reconcileWalletLocksForRun => { w with processes := w.processes ++ [startReconcile false] }
  | .abandonRun account network => { w with processes := w.processes ++ [.abandon account network] }
  | .discardUnsubmittedPreparationStages => { w with processes := w.processes ++ [.discard] }
  | .advance i wallet =>
    match w.processes[i]? with
    | none => w
    | some p =>
      let next := advance r wallet w.store w.locked p
      { store := next.1, locked := next.2.1, processes := w.processes.set i next.2.2 }
  | .fail i unlocked =>
    match w.processes[i]? with
    | none => w
    | some p =>
      { w with
        locked := lockedAfterFailure w.locked unlocked p
        processes := w.processes.set i (failProcess p) }

/-! ### Candidates -/

variable {r : RunId} {s s' : Store} {o : OutPoint}

/-- A stop keeps the candidates. -/
theorem walletLockCandidates_stopRun {phase : Phase} :
  (s.stopRun r phase).walletLockCandidates r = s.walletLockCandidates r
  := by
  unfold Store.walletLockCandidates Store.preparedOf
  have hprepared : (s.stopRun r phase).preparedNotes
      = updateWhere (fun row => row.runId = r) (fun row => { row with locked := false })
        s.preparedNotes := rfl
  have hinputs : (s.stopRun r phase).stageInputs = s.stageInputs := rfl
  rw [hprepared, hinputs, filter_updateWhere, map_updateWhere]
  · exact fun _ _ _ => rfl
  · exact fun _ _ _ => rfl

/-- The removal of stages removes candidates at most. -/
theorem mem_walletLockCandidates_of_discard
    (h : o ∈ (s.discardUnsubmittedPreparationStages r).walletLockCandidates r) :
  o ∈ s.walletLockCandidates r
  := by
  unfold Store.walletLockCandidates at h ⊢
  rw [List.mem_append] at h ⊢
  rcases h with hprepared | hinput
  · exact .inl hprepared
  · right
    obtain ⟨input, hmem, rfl⟩ := List.mem_map.mp hinput
    obtain ⟨hrow, hrun⟩ := List.mem_filter.mp hmem
    have hold := (mem_deleteWhere.mp hrow).1
    apply List.mem_map.mpr ⟨input, List.mem_filter.mpr ⟨hold, hrun⟩, rfl⟩

/-- The phase of `r` is terminal. -/
def Terminal (r : RunId) (s : Store) : Prop :=
  ∃ phase, s.phaseOf r = some phase ∧ phase.releasesWalletLocks = true

/-- The snapshot of a run in a terminal phase. -/
theorem Terminal.snapshot (h : Terminal r s) :
  s.walletLockReconciliationSnapshot r = some (true, s.walletLockCandidates r)
  := by
  obtain ⟨phase, hphase, hterminal⟩ := h
  unfold Store.walletLockReconciliationSnapshot
  rw [hphase, Option.map_some, hterminal]

/-! ### What the calls are going to do -/

/-- Whether the next step of a call may lock `o`. -/
def willLock (o : OutPoint) : LockProcess → Prop
  | .reconcile (.lock _ candidates) _ => o ∈ candidates
  | _ => False

/-- Whether the next step of a call unlocks `o`. -/
def willUnlock (o : OutPoint) : LockProcess → Prop
  | .reconcile (.unlock _ candidates) _ => o ∈ candidates
  | _ => False

/-- Whether a call is going to read the phase and the candidates once the phase is
terminal. -/
def willRead : LockProcess → Prop
  | .reconcile (.snapshot _) _ | .reconcile (.lock _ _) _ | .reconcile (.check _ false _) _ => True
  | _ => False

instance : (p : LockProcess) → Decidable (willLock o p)
  | .reconcile (.lock _ candidates) _ => inferInstanceAs (Decidable (o ∈ candidates))
  | .reconcile (.snapshot _) _ | .reconcile (.unlock _ _) _ | .reconcile (.check _ _ _) _
  | .reconcile (.cleanUp _) _ | .abandon _ _ | .stop _ | .discard | .returned | .failed =>
    isFalse id

instance : (p : LockProcess) → Decidable (willUnlock o p)
  | .reconcile (.unlock _ candidates) _ => inferInstanceAs (Decidable (o ∈ candidates))
  | .reconcile (.snapshot _) _ | .reconcile (.lock _ _) _ | .reconcile (.check _ _ _) _
  | .reconcile (.cleanUp _) _ | .abandon _ _ | .stop _ | .discard | .returned | .failed =>
    isFalse id

/-- Where a note of `r` is locked though it is no candidate, or though the phase of `r` is
terminal, a call is going to unlock it. -/
structure Guarded (r : RunId) (s : Store) (locked : Finset OutPoint)
    (processes : List LockProcess) (o : OutPoint) : Prop where
  /-- No call locks a note that is no candidate any more. -/
  lock : o ∉ s.walletLockCandidates r → ∀ p ∈ processes, ¬willLock o p
  gone : o ∉ s.walletLockCandidates r → o ∈ locked → ∃ p ∈ processes, willUnlock o p
  listed : o ∈ s.walletLockCandidates r → Terminal r s → o ∈ locked →
    ∃ p ∈ processes, willUnlock o p ∨ willRead p

/-- A member that meets a condition is left after one that does not is replaced. -/
theorem exists_mem_set {α : Type} {P : α → Prop} {l : List α} {i : Nat} {x y : α}
    (hi : l[i]? = some x) (hx : ¬P x) (h : ∃ z ∈ l, P z) :
  ∃ z ∈ l.set i y, P z
  := by
  obtain ⟨z, hz, hP⟩ := h
  obtain ⟨j, hj⟩ := List.mem_iff_getElem?.mp hz
  have hne : i ≠ j := by
    rintro rfl
    rw [hi] at hj
    cases hj
    apply hx hP
  refine ⟨z, ?_, hP⟩
  rw [List.mem_iff_getElem?]
  use j
  rw [List.getElem?_set_ne hne, hj]

theorem mem_set_self {α : Type} {l : List α} {i : Nat} {x y : α} (hi : l[i]? = some x) :
  y ∈ l.set i y
  := by
  obtain ⟨hlt, -⟩ := List.getElem?_eq_some_iff.mp hi
  apply List.mem_set hlt y

variable {locked locked' : Finset OutPoint} {processes : List LockProcess}

/-- A step of a call that leaves the store as it is. -/
theorem Guarded.set (h : Guarded r s locked processes o) {i : Nat} {p p' : LockProcess}
    (hi : processes[i]? = some p)
    (hlock : o ∉ s.walletLockCandidates r → ¬willLock o p')
    (hgone : o ∉ s.walletLockCandidates r → o ∈ locked' → o ∈ locked ∧ ¬willUnlock o p)
    (hlisted : o ∈ s.walletLockCandidates r → Terminal r s → o ∈ locked' →
      (willUnlock o p' ∨ willRead p') ∨ o ∈ locked ∧ ¬(willUnlock o p ∨ willRead p)) :
  Guarded r s locked' (processes.set i p') o
  := by
  constructor
  · intro ho q hq
    rcases List.mem_or_eq_of_mem_set hq with hq | rfl
    · apply h.lock ho q hq
    · apply hlock ho
  · intro ho hlocked
    obtain ⟨hbefore, hp⟩ := hgone ho hlocked
    apply exists_mem_set hi hp (h.gone ho hbefore)
  · intro ho hterminal hlocked
    rcases hlisted ho hterminal hlocked with hp' | ⟨hbefore, hp⟩
    · exact ⟨p', mem_set_self hi, hp'⟩
    · apply exists_mem_set hi hp (h.listed ho hterminal hbefore)

@[simp]
theorem not_willLock_doneReconcile {thenDiscard : Bool} :
  ¬willLock o (doneReconcile thenDiscard)
  := by
  unfold doneReconcile
  split <;> exact id

theorem mem_unlockOrchardMigrationOutputs {candidates : List OutPoint} :
  o ∈ unlockOrchardMigrationOutputs locked candidates ↔ o ∈ locked ∧ o ∉ candidates
  := by
  simp [unlockOrchardMigrationOutputs]

/-- Only candidates are locked. -/
theorem mem_ensureOrchardMigrationLocks {wallet : WalletView} {candidates : List OutPoint}
    (h : o ∈ ensureOrchardMigrationLocks wallet locked candidates) :
  o ∈ locked ∨ o ∈ candidates
  := by
  unfold ensureOrchardMigrationLocks at h
  split at h
  · rcases Finset.mem_union.mp h with h | h
    · exact .inl h
    · exact .inr (List.mem_filter.mp (List.mem_toFinset.mp h)).1
  · exact .inl h

/-- A step of a reconciliation of the locks. -/
theorem Guarded.advanceReconcile (h : Guarded r s locked processes o) {i : Nat}
    {point : LockPoint} {thenDiscard : Bool}
    (hi : processes[i]? = some (.reconcile point thenDiscard)) (wallet : WalletView) :
  LockProcess.failed
      ∈ processes.set i (LockWorld.advanceReconcile r wallet s locked thenDiscard point).2
    ∨ Guarded r s (LockWorld.advanceReconcile r wallet s locked thenDiscard point).1
      (processes.set i (LockWorld.advanceReconcile r wallet s locked thenDiscard point).2) o
  := by
  cases point with
  | snapshot left =>
    cases left with
    | zero => exact .inl (mem_set_self hi)
    | succ left =>
      right
      rw [LockWorld.advanceReconcile]
      split
      · rename_i hnone
        apply h.set hi
        · simp
        · exact fun _ hlocked => ⟨hlocked, id⟩
        · intro _ hterminal
          rw [hterminal.snapshot] at hnone
          cases hnone
      · rename_i candidates hsome
        apply h.set hi
        · exact fun _ => id
        · exact fun _ hlocked => ⟨hlocked, id⟩
        · intro ho hterminal _
          rw [hterminal.snapshot] at hsome
          cases hsome
          exact .inl (.inl ho)
      · rename_i candidates hsome
        apply h.set hi
        · intro ho hmem
          obtain ⟨phase, -, hsnapshot⟩ := Option.map_eq_some_iff.mp hsome
          have hcandidates : s.walletLockCandidates r = candidates := congrArg Prod.snd hsnapshot
          rw [hcandidates] at ho
          apply ho hmem
        · exact fun _ hlocked => ⟨hlocked, id⟩
        · intro _ hterminal
          rw [hterminal.snapshot] at hsome
          cases hsome
  | unlock left candidates =>
    right
    apply h.set hi
    · exact fun _ => id
    · intro _ hlocked
      apply mem_unlockOrchardMigrationOutputs.mp hlocked
    · intro _ _ hlocked
      obtain ⟨hbefore, hnot⟩ := mem_unlockOrchardMigrationOutputs.mp hlocked
      exact .inr ⟨hbefore, by rintro (hmem | hread) <;> contradiction⟩
  | lock left candidates =>
    right
    apply h.set hi
    · exact fun _ => id
    · intro ho hlocked
      have hnot : o ∉ candidates := h.lock ho _ (List.mem_of_getElem? hi)
      rcases mem_ensureOrchardMigrationLocks hlocked with hbefore | hmem
      · exact ⟨hbefore, id⟩
      · exact absurd hmem hnot
    · exact fun _ _ _ => .inl (.inr trivial)
  | check left releaseLocks candidates =>
    right
    rw [LockWorld.advanceReconcile]
    split
    · rename_i hnone
      apply h.set hi
      · exact fun _ => id
      · exact fun _ hlocked => ⟨hlocked, id⟩
      · intro _ hterminal
        rw [hterminal.snapshot] at hnone
        cases hnone
    · rename_i current _ hsome
      split
      · rename_i hsame
        apply h.set hi
        · simp
        · exact fun _ hlocked => ⟨hlocked, id⟩
        · intro _ hterminal hlocked
          rw [hterminal.snapshot] at hsome
          cases hsome
          rw [hsame]
          exact .inr ⟨hlocked, by rintro (hmem | hread) <;> contradiction⟩
      · apply h.set hi
        · exact fun _ => id
        · exact fun _ hlocked => ⟨hlocked, id⟩
        · exact fun _ _ _ => .inl (.inr trivial)
  | cleanUp candidates =>
    right
    apply h.set hi
    · exact fun _ => not_willLock_doneReconcile
    · exact fun _ hlocked => ⟨(mem_unlockOrchardMigrationOutputs.mp hlocked).1, id⟩
    · intro _ _ hlocked
      exact .inr ⟨(mem_unlockOrchardMigrationOutputs.mp hlocked).1,
        by rintro (hmem | hread) <;> contradiction⟩

/-! ### Runs of the calls -/

/-- A call that discards the stages of `r` removes no candidate that a call is about to
lock, or that is locked while no call is about to unlock it. -/
def DiscardsReleased (r : RunId) (w : LockWorld) : LockOp → Prop
  | .advance i _ => w.processes[i]? = some .discard →
    ∀ o ∈ w.store.walletLockCandidates r,
      o ∉ (w.store.discardUnsubmittedPreparationStages r).walletLockCandidates r →
        (∀ p ∈ w.processes, ¬willLock o p) ∧ (o ∈ w.locked → ∃ p ∈ w.processes, willUnlock o p)
  | _ => True

instance {w : LockWorld} : (op : LockOp) → Decidable (DiscardsReleased r w op)
  | .advance i _ => inferInstanceAs (Decidable (w.processes[i]? = some .discard →
    ∀ o ∈ w.store.walletLockCandidates r,
      o ∉ (w.store.discardUnsubmittedPreparationStages r).walletLockCandidates r →
        (∀ p ∈ w.processes, ¬willLock o p) ∧ (o ∈ w.locked → ∃ p ∈ w.processes, willUnlock o p)))
  | .reconcileWalletLocksForRun | .abandonRun _ _ | .discardUnsubmittedPreparationStages
  | .fail _ _ => isTrue trivial

/-- The locks of a run that is in a terminal phase are released, or a call that is going to
release them has started. -/
def Released (r : RunId) (w : LockWorld) : Prop :=
  Terminal r w.store → w.locked = ∅ ∨ startReconcile false ∈ w.processes

/-- A note is guarded unless a call failed. -/
def Safe (r : RunId) (o : OutPoint) (w : LockWorld) : Prop :=
  LockProcess.failed ∈ w.processes ∨ Guarded r w.store w.locked w.processes o

theorem Guarded.append (h : Guarded r s locked processes o) {p : LockProcess}
    (hp : ¬willLock o p) :
  Guarded r s locked (processes ++ [p]) o
  := by
  constructor
  · intro ho q hq
    rcases List.mem_append.mp hq with hq | hq
    · apply h.lock ho q hq
    · obtain rfl := List.mem_singleton.mp hq
      apply hp
  · intro ho hlocked
    obtain ⟨q, hq, hunlock⟩ := h.gone ho hlocked
    exact ⟨q, List.mem_append_left _ hq, hunlock⟩
  · intro ho hterminal hlocked
    obtain ⟨q, hq, hguard⟩ := h.listed ho hterminal hlocked
    exact ⟨q, List.mem_append_left _ hq, hguard⟩

/-- A failed call stays so. -/
theorem failed_mem_set {i : Nat} {p p' : LockProcess} (hi : processes[i]? = some p)
    (hp : p = .failed → p' = .failed) (h : LockProcess.failed ∈ processes) :
  LockProcess.failed ∈ processes.set i p'
  := by
  by_cases hfailed : p = .failed
  · rw [← hp hfailed]
    apply mem_set_self hi
  · obtain ⟨q, hq, rfl⟩ := exists_mem_set (P := fun q => q = .failed) (y := p') hi hfailed
      ⟨_, h, rfl⟩
    apply hq

theorem failed_mem_step {w : LockWorld} {op : LockOp} (h : LockProcess.failed ∈ w.processes) :
  LockProcess.failed ∈ (step r w op).processes
  := by
  cases op with
  | reconcileWalletLocksForRun => exact List.mem_append_left _ h
  | abandonRun account network => exact List.mem_append_left _ h
  | discardUnsubmittedPreparationStages => exact List.mem_append_left _ h
  | advance i wallet =>
    unfold step
    dsimp only
    split
    · apply h
    · rename_i p hi
      apply failed_mem_set hi _ h
      rintro rfl
      rfl
  | fail i unlocked =>
    unfold step
    dsimp only
    split
    · apply h
    · rename_i p hi
      apply failed_mem_set hi _ h
      rintro rfl
      rfl

/-- A step of a call keeps the guard, unless the call fails. -/
theorem Guarded.advance (h : Guarded r s locked processes o) {i : Nat} {p : LockProcess}
    (hi : processes[i]? = some p) (wallet : WalletView)
    (hdiscard : p = .discard → o ∈ s.walletLockCandidates r →
      o ∉ (s.discardUnsubmittedPreparationStages r).walletLockCandidates r →
        (∀ p ∈ processes, ¬willLock o p) ∧ (o ∈ locked → ∃ p ∈ processes, willUnlock o p)) :
  LockProcess.failed ∈ processes.set i (LockWorld.advance r wallet s locked p).2.2
    ∨ Guarded r (LockWorld.advance r wallet s locked p).1
      (LockWorld.advance r wallet s locked p).2.1
      (processes.set i (LockWorld.advance r wallet s locked p).2.2) o
  := by
  cases p with
  | reconcile point thenDiscard => exact h.advanceReconcile hi wallet
  | abandon account network =>
    have hread : readBeforeStopping s r account network = .failed
        ∨ ¬willLock o (readBeforeStopping s r account network) := by
      unfold readBeforeStopping
      split
      · exact .inl rfl
      · split
        · exact .inl rfl
        · split
          · exact .inr id
          · split
            · exact .inl rfl
            · exact .inr id
    rcases hread with hfailed | hlock
    · left
      rw [LockWorld.advance, hfailed]
      apply mem_set_self hi
    · right
      apply h.set hi
      · exact fun _ => hlock
      · exact fun _ hlocked => ⟨hlocked, id⟩
      · exact fun _ _ hlocked => .inr ⟨hlocked, by rintro (hmem | hread) <;> contradiction⟩
  | stop phase =>
    rw [LockWorld.advance]
    split
    · rename_i hphase
      right
      have hset : Guarded r s locked (processes.set i (startReconcile true)) o :=
        h.set hi (fun _ => id) (fun _ hlocked => ⟨hlocked, id⟩)
          (fun _ _ _ => .inl (.inr trivial))
      constructor
      · rw [walletLockCandidates_stopRun]
        apply hset.lock
      · rw [walletLockCandidates_stopRun]
        apply hset.gone
      · intro _ _ _
        exact ⟨_, mem_set_self hi, .inr trivial⟩
    · exact .inl (mem_set_self hi)
  | discard =>
    right
    rw [LockWorld.advance]
    have hset : Guarded r s locked (processes.set i .returned) o :=
      h.set hi (fun _ => id) (fun _ hlocked => ⟨hlocked, id⟩)
        (fun _ _ hlocked => .inr ⟨hlocked, by rintro (hmem | hread) <;> contradiction⟩)
    by_cases ho : o ∈ s.walletLockCandidates r
    · constructor
      · intro hgone q hq
        rcases List.mem_or_eq_of_mem_set hq with hq | rfl
        · apply (hdiscard rfl ho hgone).1 q hq
        · apply id
      · intro hgone hlocked
        apply exists_mem_set hi id ((hdiscard rfl ho hgone).2 hlocked)
      · exact fun _ hterminal hlocked => hset.listed ho hterminal hlocked
    · constructor
      · exact fun _ => hset.lock ho
      · exact fun _ => hset.gone ho
      · intro hmem
        exact absurd (mem_walletLockCandidates_of_discard hmem) ho
  | returned =>
    right
    rw [LockWorld.advance]
    apply h.set hi
    · exact fun _ => id
    · exact fun _ hlocked => ⟨hlocked, id⟩
    · exact fun _ _ hlocked => .inr ⟨hlocked, by rintro (hmem | hread) <;> contradiction⟩
  | failed => exact .inl (mem_set_self hi)

/-- A step keeps the notes guarded, when it discards no note that is locked or about to be. -/
theorem safe_step {w : LockWorld} {op : LockOp} (h : Safe r o w)
    (hop : DiscardsReleased r w op) :
  Safe r o (step r w op)
  := by
  rcases h with hfailed | hguarded
  · exact .inl (failed_mem_step hfailed)
  · cases op with
    | reconcileWalletLocksForRun => exact .inr (hguarded.append id)
    | abandonRun account network => exact .inr (hguarded.append id)
    | discardUnsubmittedPreparationStages => exact .inr (hguarded.append id)
    | advance i wallet =>
      unfold step
      dsimp only
      split
      · exact .inr hguarded
      · rename_i p hi
        apply hguarded.advance hi wallet
        rintro rfl ho hgone
        apply hop hi o ho hgone
    | fail i unlocked =>
      unfold step
      dsimp only
      split
      · exact .inr hguarded
      · rename_i p hi
        by_cases hp : p = .returned
        · subst hp
          right
          apply hguarded.set hi
          · exact fun _ => id
          · exact fun _ hlocked => ⟨hlocked, id⟩
          · exact fun _ _ hlocked => .inr ⟨hlocked, by rintro (hmem | hread) <;> contradiction⟩
        · left
          have hfails : failProcess p = .failed := by
            cases p <;> first | rfl | contradiction
          rw [hfails]
          apply mem_set_self hi

/-- A step adds no candidates. -/
theorem mem_walletLockCandidates_of_step {w : LockWorld} {op : LockOp}
    (h : o ∈ (step r w op).store.walletLockCandidates r) :
  o ∈ w.store.walletLockCandidates r
  := by
  cases op with
  | advance i wallet =>
    unfold step at h
    dsimp only at h
    split at h
    · apply h
    · rename_i p _
      cases p with
      | stop phase =>
        rw [LockWorld.advance] at h
        split at h
        · rwa [walletLockCandidates_stopRun] at h
        · apply h
      | discard => exact mem_walletLockCandidates_of_discard h
      | _ => exact h
  | fail i unlocked =>
    unfold step at h
    dsimp only at h
    split at h <;> exact h
  | _ => exact h

/-- A run of the calls adds no candidates. -/
theorem mem_walletLockCandidates_of_after {w : LockWorld} {ops : List LockOp}
    (h : o ∈ (after (step r) w ops).store.walletLockCandidates r) :
  o ∈ w.store.walletLockCandidates r
  := by
  induction ops generalizing w with
  | nil => exact h
  | cons op ops ih => exact mem_walletLockCandidates_of_step (ih h)

/-- **No lock is left.**  When all calls for a run that ends in a terminal phase have
returned, no note that ever was a candidate of the run is locked, if the calls that discard
stages remove only candidates that are released. -/
theorem no_lock_left {w : LockWorld} {ops : List LockOp} (hstart : Released r w)
    (hops : Along (step r) (DiscardsReleased r) w ops)
    (hreturned : ∀ p ∈ (after (step r) w ops).processes, p = .returned)
    (hterminal : Terminal r (after (step r) w ops).store) {n : Nat}
    (ho : o ∈ (after (step r) w (ops.take n)).store.walletLockCandidates r) :
  o ∉ (after (step r) w ops).locked
  := by
  have hcandidate := mem_walletLockCandidates_of_after ho
  have hsafe : Safe r o w := by
    right
    constructor
    · exact fun hgone => absurd hcandidate hgone
    · exact fun hgone => absurd hcandidate hgone
    · intro _ hbefore hlocked
      rcases hstart hbefore with hempty | hmem
      · rw [hempty] at hlocked
        cases hlocked
      · exact ⟨_, hmem, .inr trivial⟩
  have hend := Run.invariant (fun _ _ => safe_step) hsafe hops
  intro hlocked
  rcases hend with hfailed | hguarded
  · cases hreturned _ hfailed
  · by_cases hlisted : o ∈ (after (step r) w ops).store.walletLockCandidates r
    · obtain ⟨p, hp, hguard⟩ := hguarded.listed hlisted hterminal hlocked
      rw [hreturned p hp] at hguard
      rcases hguard with hguard | hguard <;> exact hguard
    · obtain ⟨p, hp, hguard⟩ := hguarded.gone hlisted hlocked
      rw [hreturned p hp] at hguard
      apply hguard

/-! ### A late lock -/

/-- A run whose only stage was not submitted, before any call. -/
def sampleSplit : LockWorld where
  store := { Store.sampleStages .waitingDenomConfirmations with
    stages := [Store.sampleStage 0 10 (.pending [1])]
    stageInputs := [Store.sampleStageInput 0 9] }
  locked := ∅
  processes := []

/-- A wallet in which every note can be spent. -/
def sampleWallet : WalletView where
  hasTargetHeight := true
  spendable _ := true

/-- The steps of the calls in a given order. -/
def advances (order : List Nat) : List LockOp :=
  order.map fun i => .advance i sampleWallet

/-- A reconciliation locks the notes of the run, and then the run is stopped. -/
def sampleStopAfterLock : List LockOp :=
  .reconcileWalletLocksForRun :: advances [0, 0, 0]
    ++ .abandonRun 1 .main :: advances [1, 1, 1, 1, 1, 1]

theorem no_lock_left_sample :
  (⟨9, 0⟩ : OutPoint) ∉ (after (step 1) sampleSplit sampleStopAfterLock).locked
  := by
  have hops : Along (step 1) (DiscardsReleased 1) sampleSplit sampleStopAfterLock := by
    decide +kernel
  apply no_lock_left (n := 0) (r := 1) _ hops
  · decide +kernel
  · exact ⟨.abandoned, by decide +kernel, rfl⟩
  · decide +kernel
  · rintro ⟨phase, hphase, hterminal⟩
    have hlive : sampleSplit.store.phaseOf 1 = some .waitingDenomConfirmations := by
      decide +kernel
    rw [hlive] at hphase
    cases hphase
    cases hterminal

/-- The same calls: the reconciliation reads the phase before the stop, and locks the notes
after the stop unlocked them. -/
def sampleLateLock : List LockOp :=
  .reconcileWalletLocksForRun :: advances [0]
    ++ .abandonRun 1 .main :: advances [1, 1, 1, 1, 1, 0, 1, 0, 0, 0, 0]

/-- All calls returned and the run is in a terminal phase, but its note is still locked. -/
theorem sampleLateLock_locked :
  (∀ p ∈ (after (step 1) sampleSplit sampleLateLock).processes, p = .returned)
    ∧ (after (step 1) sampleSplit sampleLateLock).store.phaseOf 1 = some .abandoned
    ∧ ⟨9, 0⟩ ∈ sampleSplit.store.walletLockCandidates 1
    ∧ ⟨9, 0⟩ ∈ (after (step 1) sampleSplit sampleLateLock).locked
  := by
  decide +kernel

end LockWorld

end Vizor
