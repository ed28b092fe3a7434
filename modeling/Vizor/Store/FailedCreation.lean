import Vizor.Lib.Savepoint
import Vizor.Store.Expiry
import Vizor.Store.Placing
import Vizor.Store.WalletLocks

/-!
# Creations that fail

The rows of a new run are committed in one transaction, and the notes of the run are locked in
the wallet afterwards, under the name of the run.  What fails before the commit is rolled back.
When the notes cannot be locked, all locks are released before the run is removed: the run names
the notes that may be locked, so it stays when they cannot be released, and a later
reconciliation finds them.
-/

namespace Vizor

open Table Run Savepoint

/-! ### Answers of the wallet -/

/-- The store, and the notes that are locked under the name of the new run. -/
structure CreationWorld where
  store : Store
  locked : Finset OutPoint
  deriving DecidableEq

/-- An error of the wallet, after some notes were changed. -/
structure WalletFault where
  error : String
  changed : List OutPoint
  deriving DecidableEq, Repr

/-- What happens in one round of a reconciliation of the locks. -/
structure RoundAnswers where
  snapshotError : Option String
  wallet : WalletView
  changeFault : Option WalletFault
  checkError : Option String
  cleanUpFault : Option WalletFault

/-- What happens while a run is created: the error of a statement of the transaction or of its
commit, the rounds by the number of rounds that are left, and the errors of the cleanup. -/
structure CreationAnswers where
  transactionError : Option String
  rounds : Nat → RoundAnswers
  unlockFault : Option WalletFault
  deleteError : Option String

namespace CreationWorld

/-! ### Locks -/

/-- The script stops if there is an error. -/
def stopOn (error : Option String) : Script CreationWorld Unit :=
  value (refuse error id)

def unlockOrchardMigrationOutputs (candidates : List OutPoint) (fault : Option WalletFault) :
    Script CreationWorld Unit :=
  if candidates = [] then pure ()
  else call fun w => match fault with
    | none =>
      (.ok (), { w with
        locked := LockWorld.unlockOrchardMigrationOutputs w.locked candidates })
    | some fault =>
      (.error fault.error, { w with
        locked := LockWorld.unlockOrchardMigrationOutputs w.locked
          (candidates.filter (· ∈ fault.changed)) })

/-- Whether the wallet had a target height, so that the notes are locked. -/
def ensureOrchardMigrationLocks (wallet : WalletView) (candidates : List OutPoint)
    (fault : Option WalletFault) : Script CreationWorld Bool :=
  if candidates = [] then pure true
  else call fun w => match fault with
    | none =>
      (.ok wallet.hasTargetHeight, { w with
        locked := LockWorld.ensureOrchardMigrationLocks wallet w.locked candidates })
    | some fault =>
      (.error fault.error, { w with
        locked := LockWorld.ensureOrchardMigrationLocks wallet w.locked
          (candidates.filter (· ∈ fault.changed)) })

/-- Lock or unlock the candidates. -/
def changeLocks (releaseLocks : Bool) (candidates : List OutPoint) (answers : RoundAnswers) :
    Script CreationWorld Bool :=
  if releaseLocks then do
    unlockOrchardMigrationOutputs candidates answers.changeFault
    return true
  else ensureOrchardMigrationLocks answers.wallet candidates answers.changeFault

/-- A reconciliation of the locks with as many rounds as are left. -/
def reconcileWalletLocksForRun (r : RunId) (rounds : Nat → RoundAnswers) :
    Nat → Script CreationWorld Bool
  | 0 => value (.error "Migration phase changed repeatedly during wallet-lock reconciliation")
  | left + 1 => do
    stopOn (rounds left).snapshotError
    let snapshot ← readState fun w => w.store.walletLockReconciliationSnapshot r
    match snapshot with
    | none => return true
    | some (releaseLocks, candidates) =>
      let completed ← changeLocks releaseLocks candidates (rounds left)
      stopOn (rounds left).checkError
      let current ← readState fun w => w.store.walletLockReconciliationSnapshot r
      match current with
      | none =>
        unlockOrchardMigrationOutputs candidates (rounds left).cleanUpFault
        return true
      | some (currentReleaseLocks, _) =>
        if releaseLocks = currentReleaseLocks then return completed
        else reconcileWalletLocksForRun r rounds left

/-! ### Creations -/

/-- The notes of a new run that may be locked. -/
def initialWalletLockCandidates (preparedNotes : List PreparedOrchardNoteRef)
    (denominationStages : List DenominationStageInsert) : List OutPoint :=
  preparedNotes.map (·.outpoint)
    ++ denominationStages.flatMap fun stage =>
      stage.inputs.map fun input => ⟨input.txid, input.outputIndex⟩

/-- The message after the locks of a new run could not be reconciled. -/
def cleanupFailedCreatedRun (reconciliationError : String)
    (unlock deleteRun : Script CreationWorld Unit) : Script CreationWorld String := do
  let unlocked ← attempt unlock
  match unlocked with
  | .error unlockError =>
    return s!"{reconciliationError}; additionally failed to release migration wallet locks; "
      ++ s!"the durable run was preserved for recovery: {unlockError}"
  | .ok _ =>
    let deleted ← attempt deleteRun
    match deleted with
    | .ok _ => return reconciliationError
    | .error deleteError =>
      return s!"{reconciliationError}; wallet locks were released but the migration run could not "
        ++ s!"be removed and was preserved for reconciliation: {deleteError}"

/-- Remove the row of the run. -/
def deleteRun (r : RunId) (error : Option String) : Script CreationWorld Unit :=
  statement fun w => do
    refuse error fun e => s!"Delete unlocked migration run: {e}"
    return { w with store := w.store.deleteCreatedRun r }

section

variable (new : Store.NewRun) (preparedNotes : List PreparedOrchardNoteRef)
  (signedChildren : List SignedMigrationPcztInsert)
  (denominationStages : List DenominationStageInsert)
  (approvedSchedule : Option (List MigrationScheduleEntry)) (answers : CreationAnswers)

/-- The checks and the transaction of a creation, of which nothing is kept when it fails. -/
def commitCreatedRun (w : CreationWorld) : Except String CreationWorld := do
  let store ← w.store.createRunWithStagedDenominationsAndSignedChildren new preparedNotes
    signedChildren denominationStages approvedSchedule
  refuse answers.transactionError id
  return { w with store := store }

/-- Create a run and lock its notes. -/
def createRunWithStagedDenominationsAndSignedChildren : Script CreationWorld RunId := do
  statement (commitCreatedRun new preparedNotes signedChildren denominationStages
    approvedSchedule answers)
  let result ← attempt (reconcileWalletLocksForRun new.runId answers.rounds 8)
  match result with
  | .ok _ => return new.runId
  | .error error =>
    let message ← cleanupFailedCreatedRun error
      (unlockOrchardMigrationOutputs
        (initialWalletLockCandidates preparedNotes denominationStages) answers.unlockFault)
      (deleteRun new.runId answers.deleteError)
    value (.error message)

end

end CreationWorld

/-! ### What a failed creation leaves -/

/-- No row of the run is in the tables that a creation fills. -/
structure Store.Lacks (s : Store) (r : RunId) : Prop where
  runs : ∀ run ∈ s.runs, run.runId ≠ r
  preparedNotes : ∀ row ∈ s.preparedNotes, row.runId ≠ r
  stages : ∀ row ∈ s.stages, row.runId ≠ r
  stageInputs : ∀ row ∈ s.stageInputs, row.runId ≠ r
  stageOutputs : ∀ row ∈ s.stageOutputs, row.runId ≠ r
  signedChildren : ∀ row ∈ s.signedChildren, row.runId ≠ r

namespace CreationWorld

/-- There is no row and no lock of the run. -/
structure Absent (w : CreationWorld) (r : RunId) : Prop where
  rows : w.store.Lacks r
  locks : w.locked = ∅

/-- What is left of a run that was committed, after the cleanup. -/
structure CleanedUp (answers : CreationAnswers) (r : RunId) (created w : CreationWorld) :
    Prop where
  released : answers.unlockFault = none → w.locked = ∅
  removed : answers.unlockFault = none → answers.deleteError = none →
    ∀ run ∈ w.store.runs, run.runId ≠ r
  preserved : answers.unlockFault.isSome ∨ answers.deleteError.isSome →
    w.store = created.store ∧ ∃ run ∈ w.store.runs, run.runId = r
  recoverable : ∀ o ∈ w.locked, o ∈ w.store.walletLockCandidates r

variable {w : CreationWorld} {r : RunId} {s s' : Store} {o : OutPoint}

/-! ### Candidates of a new run -/

theorem mem_insertPreparedNotes {notes : List PreparedOrchardNoteRef} {locked : Bool}
    {row : PreparedNote} (h : row ∈ (s.insertPreparedNotes r notes locked).preparedNotes) :
  row ∈ s.preparedNotes ∨ ∃ note ∈ notes, row = ⟨r, note, locked⟩
  := by
  unfold Store.insertPreparedNotes at h
  dsimp only at h
  generalize s.preparedNotes = table at h ⊢
  induction notes generalizing table with
  | nil => exact .inl h
  | cons note notes ih =>
    obtain hrow | ⟨other, hother, rfl⟩ := ih _ h
    · obtain ⟨hrow, -⟩ | rfl := mem_upsert.mp hrow
      · exact .inl hrow
      · exact .inr ⟨note, List.mem_cons_self, rfl⟩
    · exact .inr ⟨other, List.mem_cons_of_mem _ hother, rfl⟩

theorem insertStage_stageInputs {stage : DenominationStageInsert}
    (h : Store.insertStage r s stage = .ok s') :
  s'.preparedNotes = s.preparedNotes
    ∧ s'.stageInputs = s.stageInputs ++ Store.stageInputRows r stage
  := by
  simp only [Store.insertStage, bind_eq_ok, pure_eq_ok] at h
  obtain ⟨_, -, _, -, _, -, _, -, rfl⟩ := h
  exact ⟨rfl, rfl⟩

theorem mem_stageInputRows {stage : DenominationStageInsert} {row : StageInput}
    (h : row ∈ Store.stageInputRows r stage) :
  ∃ input ∈ stage.inputs, row.outpoint = ⟨input.txid, input.outputIndex⟩
  := by
  obtain ⟨⟨input, order⟩, hinput, rfl⟩ := List.mem_map.mp h
  exact ⟨input, List.fst_mem_of_mem_zipIdx hinput, rfl⟩

theorem insertDenominationStages_stageInputs {stages : List DenominationStageInsert}
    (h : s.insertDenominationStages r stages = .ok s') :
  s'.preparedNotes = s.preparedNotes
    ∧ ∀ row ∈ s'.stageInputs, row ∈ s.stageInputs
      ∨ ∃ stage ∈ stages, row ∈ Store.stageInputRows r stage
  := by
  obtain ⟨_, -, h⟩ := bind_eq_ok.mp h
  apply foldlM_invariant (I := fun t : Store => t.preparedNotes = s.preparedNotes
    ∧ ∀ row ∈ t.stageInputs, row ∈ s.stageInputs
      ∨ ∃ stage ∈ stages, row ∈ Store.stageInputRows r stage) _ ⟨rfl, fun _ => .inl⟩ h
  rintro t t' stage hstage ⟨hnotes, hinputs⟩ hstep
  obtain ⟨hnotes', hinputs'⟩ := insertStage_stageInputs hstep
  use hnotes'.trans hnotes
  intro row hrow
  rw [hinputs'] at hrow
  obtain hrow | hrow := List.mem_append.mp hrow
  · apply hinputs row hrow
  · exact .inr ⟨stage, hstage, hrow⟩

/-- Adding signed children keeps the notes that the runs name, and the names of the runs. -/
theorem insertSignedChildPczts_keeps {children : List SignedMigrationPcztInsert}
    {mode : SignedChildInsertMode} (h : s.insertSignedChildPczts r children mode = .ok s') :
  s'.preparedNotes = s.preparedNotes ∧ s'.stageInputs = s.stageInputs
    ∧ s'.runs.map (·.runId) = s.runs.map (·.runId)
  := by
  rw [Store.insertSignedChildPczts] at h
  split at h
  · obtain rfl : s = s' := by simpa using h
    exact ⟨rfl, rfl, rfl⟩
  · obtain ⟨run, -, h⟩ := bind_eq_ok.mp h
    obtain ⟨origin, -, h⟩ := bind_eq_ok.mp h
    obtain rfl := pure_eq_ok.mp h
    split
    · refine ⟨rfl, rfl, ?_⟩
      apply map_updateWhere
      intro _ _ _
      rfl
    · exact ⟨rfl, rfl, rfl⟩

section

variable {new : Store.NewRun} {preparedNotes : List PreparedOrchardNoteRef}
  {signedChildren : List SignedMigrationPcztInsert}
  {denominationStages : List DenominationStageInsert}
  {approvedSchedule : Option (List MigrationScheduleEntry)} {answers : CreationAnswers}

/-- The notes that a new run names are those of its input. -/
theorem mem_initialWalletLockCandidates (hnew : s.Lacks new.runId)
    (h : s.createRunWithStagedDenominationsAndSignedChildren new preparedNotes signedChildren
      denominationStages approvedSchedule = .ok s')
    (ho : o ∈ s'.walletLockCandidates new.runId) :
  o ∈ initialWalletLockCandidates preparedNotes denominationStages
  := by
  obtain ⟨-, -, u, hu, hchildren⟩ := Store.createRun_eq_ok h
  obtain ⟨hnotes, hinputs, -⟩ := insertSignedChildPczts_keeps hchildren
  obtain ⟨hnotes', hinputs'⟩ := insertDenominationStages_stageInputs hu
  obtain ho | ho := List.mem_append.mp ho
  · apply List.mem_append_left
    obtain ⟨row, hrow, rfl⟩ := List.mem_map.mp ho
    rw [Store.preparedOf, List.mem_filter, decide_eq_true_eq, hnotes, hnotes'] at hrow
    obtain hold | ⟨note, hnote, rfl⟩ := mem_insertPreparedNotes hrow.1
    · exact absurd hrow.2 (hnew.preparedNotes row hold)
    · apply List.mem_map_of_mem hnote
  · apply List.mem_append_right
    obtain ⟨row, hrow, rfl⟩ := List.mem_map.mp ho
    rw [List.mem_filter, decide_eq_true_eq, hinputs] at hrow
    obtain hold | ⟨stage, hstage, hrow⟩ := hinputs' row hrow.1
    · exact absurd hrow.2 (hnew.stageInputs row hold)
    · obtain ⟨input, hinput, houtpoint⟩ := mem_stageInputRows hrow
      rw [houtpoint]
      apply List.mem_flatMap.mpr ⟨stage, hstage, List.mem_map_of_mem hinput⟩

theorem exists_created
    (h : s.createRunWithStagedDenominationsAndSignedChildren new preparedNotes signedChildren
      denominationStages approvedSchedule = .ok s') :
  ∃ run ∈ s'.runs, run.runId = new.runId
  := by
  obtain ⟨-, -, u, hu, hchildren⟩ := Store.createRun_eq_ok h
  apply List.mem_map.mp
  obtain ⟨-, -, hruns⟩ := insertSignedChildPczts_keeps hchildren
  rw [hruns, (Store.insertDenominationStages_keeps hu).1]
  apply List.mem_map_of_mem (List.mem_append_right _ (List.mem_singleton_self _))

/-- A creation has some notes that may be locked. -/
theorem initialWalletLockCandidates_ne_nil
    (h : s.createRunWithStagedDenominationsAndSignedChildren new preparedNotes signedChildren
      denominationStages approvedSchedule = .ok s') :
  initialWalletLockCandidates preparedNotes denominationStages ≠ []
  := by
  obtain ⟨hsome, -, _, hstages, -⟩ := Store.createRun_eq_ok h
  obtain ⟨_, hbatch, -⟩ := bind_eq_ok.mp hstages
  rw [initialWalletLockCandidates, ne_eq, List.append_eq_nil_iff, List.map_eq_nil_iff, not_and]
  intro hnotes
  cases denominationStages with
  | nil => simp [hnotes] at hsome
  | cons stage stages =>
    obtain ⟨_, hfold, -⟩ := bind_eq_ok.mp hbatch
    rw [List.foldlM_cons] at hfold
    obtain ⟨_, hstage, -⟩ := bind_eq_ok.mp hfold
    simp only [StageBatch.validate, bind_eq_ok, ensure_eq_ok] at hstage
    obtain ⟨_, -, _, -, _, -, _, hinputs, -⟩ := hstage
    simp [hinputs]

end

/-! ### Reconciliations of the locks -/

/-- The store is `s`, and the run names every note that is locked under its name. -/
structure Names (s : Store) (r : RunId) (w : CreationWorld) : Prop where
  store : w.store = s
  locked : ∀ o ∈ w.locked, o ∈ s.walletLockCandidates r

theorem maintains_stopOn {error : Option String} : Maintains (Names s r) (stopOn error) :=
  maintains_value

theorem maintains_unlock (candidates : List OutPoint) (fault : Option WalletFault) :
  Maintains (Names s r) (unlockOrchardMigrationOutputs candidates fault)
  := by
  have hlocked {w : CreationWorld} (hw : Names s r w) (some : List OutPoint) :
      Names s r { w with
        locked := LockWorld.unlockOrchardMigrationOutputs w.locked some } := by
    refine ⟨hw.store, ?_⟩
    intro o ho
    apply hw.locked o (LockWorld.mem_unlockOrchardMigrationOutputs.mp ho).1
  unfold unlockOrchardMigrationOutputs
  split_ifs
  · apply maintains_pure
  · apply maintains_call
    intro w hw
    cases fault with
    | none => apply hlocked hw
    | some fault => apply hlocked hw

theorem maintains_ensure (wallet : WalletView) {candidates : List OutPoint}
    (hcandidates : ∀ o ∈ candidates, o ∈ s.walletLockCandidates r)
    (fault : Option WalletFault) :
  Maintains (Names s r) (ensureOrchardMigrationLocks wallet candidates fault)
  := by
  have hlocked {w : CreationWorld} (hw : Names s r w) {some : List OutPoint}
      (hsome : ∀ o ∈ some, o ∈ candidates) :
      Names s r { w with
        locked := LockWorld.ensureOrchardMigrationLocks wallet w.locked some } := by
    refine ⟨hw.store, ?_⟩
    intro o ho
    obtain ho | ho := LockWorld.mem_ensureOrchardMigrationLocks ho
    · apply hw.locked o ho
    · apply hcandidates o (hsome o ho)
  unfold ensureOrchardMigrationLocks
  split_ifs
  · apply maintains_pure
  · apply maintains_call
    intro w hw
    cases fault with
    | none => exact hlocked hw fun _ ho => ho
    | some fault => exact hlocked hw fun _ ho => (List.mem_filter.mp ho).1

theorem maintains_changeLocks {candidates : List OutPoint}
    (hcandidates : ∀ o ∈ candidates, o ∈ s.walletLockCandidates r) (releaseLocks : Bool)
    (answers : RoundAnswers) :
  Maintains (Names s r) (changeLocks releaseLocks candidates answers)
  := by
  unfold changeLocks
  split_ifs
  · apply (maintains_unlock _ _).bind
    intro _
    apply maintains_pure
  · apply maintains_ensure _ hcandidates

/-- A reconciliation of the locks keeps the store, and locks only notes that the run names. -/
theorem maintains_reconcile (rounds : Nat → RoundAnswers) (left : Nat) :
  Maintains (Names s r) (reconcileWalletLocksForRun r rounds left)
  := by
  induction left with
  | zero => apply maintains_value
  | succ left ih =>
    rw [reconcileWalletLocksForRun]
    apply maintains_stopOn.bind
    intro _
    apply maintains_readState_bind
    intro w hw
    cases hsnapshot : w.store.walletLockReconciliationSnapshot r with
    | none => apply maintains_pure
    | some snapshot =>
      obtain ⟨releaseLocks, candidates⟩ := snapshot
      have hcandidates : candidates = s.walletLockCandidates r := by
        obtain ⟨_, -, hsnapshot⟩ := Option.map_eq_some_iff.mp hsnapshot
        rw [← (Prod.mk.inj hsnapshot).2, hw.store]
      apply Maintains.bind
      · apply maintains_changeLocks
        rw [hcandidates]
        exact fun _ => id
      intro completed
      apply maintains_stopOn.bind
      intro _
      apply maintains_readState_bind
      intro w' _
      cases w'.store.walletLockReconciliationSnapshot r with
      | none =>
        apply (maintains_unlock _ _).bind
        intro _
        apply maintains_pure
      | some current =>
        dsimp only
        split_ifs
        · apply maintains_pure
        · apply ih

/-! ### The cleanup -/

/-- Releasing all the notes that the run names releases every lock. -/
theorem run_unlock {candidates : List OutPoint} (hw : Names s r w)
    (hcandidates : ∀ o ∈ s.walletLockCandidates r, o ∈ candidates) (hne : candidates ≠ []) :
  (unlockOrchardMigrationOutputs candidates none).run w = (.ok (), ⟨s, ∅⟩)
  := by
  have hempty : LockWorld.unlockOrchardMigrationOutputs w.locked candidates = ∅ := by
    rw [Finset.eq_empty_iff_forall_notMem]
    intro o ho
    obtain ⟨hlocked, hnot⟩ := LockWorld.mem_unlockOrchardMigrationOutputs.mp ho
    apply hnot (hcandidates o (hw.locked o hlocked))
  unfold unlockOrchardMigrationOutputs
  rw [if_neg hne]
  calc Script.run (fun w => _) w
    _ = (.ok (), ⟨w.store, LockWorld.unlockOrchardMigrationOutputs w.locked candidates⟩) := rfl
    _ = (.ok (), ⟨s, ∅⟩) := by rw [hempty, hw.store]

theorem run_unlock_fails {candidates : List OutPoint} (hne : candidates ≠ [])
    (fault : WalletFault) :
  ((unlockOrchardMigrationOutputs candidates (some fault)).run w).1 = .error fault.error
  := by
  unfold unlockOrchardMigrationOutputs
  rw [if_neg hne]
  rfl

/-- The cleanup releases the locks before it removes the run, which stays when one of both
fails. -/
theorem cleanedUp_of_names {answers : CreationAnswers} {created : CreationWorld}
    {candidates : List OutPoint} (hw : Names created.store r w)
    (hcandidates : ∀ o ∈ created.store.walletLockCandidates r, o ∈ candidates)
    (hne : candidates ≠ []) (hrun : ∃ run ∈ created.store.runs, run.runId = r)
    (error : String) :
  CleanedUp answers r created
    ((cleanupFailedCreatedRun error (unlockOrchardMigrationOutputs candidates answers.unlockFault)
      (deleteRun r answers.deleteError)).run w).2
  := by
  unfold cleanupFailedCreatedRun
  rw [run_bind, run_attempt]
  dsimp only
  cases hunlock : answers.unlockFault with
  | some fault =>
    rw [run_unlock_fails hne]
    dsimp only
    rw [run_pure]
    have hnames := maintains_unlock candidates (some fault) w hw
    constructor
    · intro hnone
      rw [hunlock] at hnone
      cases hnone
    · intro hnone
      rw [hunlock] at hnone
      cases hnone
    · intro _
      rw [hnames.store]
      exact ⟨rfl, hrun⟩
    · intro o ho
      rw [hnames.store]
      apply hnames.locked o ho
  | none =>
    rw [run_unlock hw hcandidates hne]
    dsimp only
    rw [run_bind, run_attempt, deleteRun, run_statement]
    cases hdelete : answers.deleteError with
    | some deleteError =>
      constructor
      · intro _
        rfl
      · intro _ hnone
        rw [hdelete] at hnone
        cases hnone
      · intro _
        exact ⟨rfl, hrun⟩
      · intro o ho
        cases ho
    | none =>
      constructor
      · intro _
        rfl
      · intro _ _ run hmem
        have hkept := (mem_deleteWhere.mp hmem).2
        simpa using hkept
      · intro hfault
        simp [hunlock, hdelete] at hfault
      · intro o ho
        cases ho

/-! ### Failed creations -/

section

variable {new : Store.NewRun} {preparedNotes : List PreparedOrchardNoteRef}
  {signedChildren : List SignedMigrationPcztInsert}
  {denominationStages : List DenominationStageInsert}
  {approvedSchedule : Option (List MigrationScheduleEntry)} {answers : CreationAnswers}
  {created w' : CreationWorld}

/-- A committed run has a row, and the notes that it names are those of the input, of which
there is one at least. -/
theorem committed_of_commitCreatedRun (hnew : w.Absent new.runId)
    (h : commitCreatedRun new preparedNotes signedChildren denominationStages approvedSchedule
      answers w = .ok created) :
  Names created.store new.runId created
    ∧ (∀ o ∈ created.store.walletLockCandidates new.runId,
      o ∈ initialWalletLockCandidates preparedNotes denominationStages)
    ∧ initialWalletLockCandidates preparedNotes denominationStages ≠ []
    ∧ ∃ run ∈ created.store.runs, run.runId = new.runId
  := by
  obtain ⟨store, hstore, h⟩ := bind_eq_ok.mp h
  obtain ⟨_, -, h⟩ := bind_eq_ok.mp h
  obtain rfl := pure_eq_ok.mp h
  have hnames : Names store new.runId { w with store := store } := by
    refine ⟨rfl, ?_⟩
    intro o ho
    rw [hnew.locks] at ho
    cases ho
  use hnames
  use fun _ => mem_initialWalletLockCandidates hnew.rows hstore
  use initialWalletLockCandidates_ne_nil hstore
  apply exists_created hstore

/-- A creation that fails in its transaction leaves nothing of the run.  After the transaction
was committed the cleanup releases the locks and removes the row of the run, or it preserves the
run, which names the notes that are still locked. -/
theorem absent_or_cleanedUp {message : String} (hnew : w.Absent new.runId)
    (h : (createRunWithStagedDenominationsAndSignedChildren new preparedNotes signedChildren
      denominationStages approvedSchedule answers).run w = (.error message, w')) :
  (∀ error, commitCreatedRun new preparedNotes signedChildren denominationStages
      approvedSchedule answers w = .error error → w'.Absent new.runId)
    ∧ ∀ created, commitCreatedRun new preparedNotes signedChildren denominationStages
      approvedSchedule answers w = .ok created → CleanedUp answers new.runId created w'
  := by
  rw [createRunWithStagedDenominationsAndSignedChildren, run_bind, run_statement] at h
  constructor
  · intro error hcommit
    rw [hcommit] at h
    obtain rfl := (Prod.mk.inj h).2
    apply hnew
  · intro created hcommit
    obtain ⟨hnames, hcandidates, hne, hrun⟩ := committed_of_commitCreatedRun hnew hcommit
    rw [hcommit] at h
    dsimp only at h
    rw [run_bind, run_attempt] at h
    have hreconciled := maintains_reconcile answers.rounds 8 created hnames
    generalize (reconcileWalletLocksForRun new.runId answers.rounds 8).run created = reconciled
      at h hreconciled
    obtain ⟨result, w₁⟩ := reconciled
    cases result with
    | ok completed => cases (Prod.mk.inj h).1
    | error error =>
      obtain rfl : _ = w' := run_bind_value.symm.trans (congrArg Prod.snd h)
      apply cleanedUp_of_names hreconciled hcandidates hne hrun

end

/-! ### A failed creation -/

section

open Store (sampleRun sampleNote)

/-- The notes are locked, and the phase of the run cannot be read again. -/
def sampleRound : RoundAnswers where
  snapshotError := none
  wallet := ⟨true, fun _ => true⟩
  changeFault := none
  checkError := some "Read migration phase for wallet-lock reconciliation: database is locked"
  cleanUpFault := none

/-- The cleanup cannot unlock the notes if there is a fault. -/
def sampleAnswers (fault : Option WalletFault) : CreationAnswers where
  transactionError := none
  rounds _ := sampleRound
  unlockFault := fault
  deleteError := none

/-- The wallet cannot be opened for a write. -/
def sampleFault : WalletFault where
  error := "database is locked"
  changed := []

/-- The transaction of a run with one note, in an empty store. -/
def sampleCommit : Except String CreationWorld :=
  commitCreatedRun sampleRun [sampleNote] [] [] (some [⟨some 0, 100, 10⟩]) (sampleAnswers none)
    ⟨{}, ∅⟩

/-- The creation of the run, and what it leaves. -/
def sampleFailure (fault : Option WalletFault) : Except String RunId × CreationWorld :=
  (createRunWithStagedDenominationsAndSignedChildren sampleRun [sampleNote] [] []
    (some [⟨some 0, 100, 10⟩]) (sampleAnswers fault)).run ⟨{}, ∅⟩

theorem absent_empty :
  Absent ⟨{}, ∅⟩ r
  := by
  refine ⟨?_, rfl⟩
  constructor <;> exact fun _ h => absurd h List.not_mem_nil

/-- The note of the run is unlocked and the row of the run is removed. -/
theorem cleanedUp_sampleFailure :
  ∃ created, sampleCommit = .ok created
    ∧ CleanedUp (sampleAnswers none) 1 created (sampleFailure none).2
  := by
  have hfails : (sampleFailure none).1
      = .error "Read migration phase for wallet-lock reconciliation: database is locked" := by
    decide +kernel
  have hcommits : sampleCommit.isOk = true := by
    decide +kernel
  cases hcommit : sampleCommit with
  | error error =>
    rw [hcommit] at hcommits
    cases hcommits
  | ok created =>
    use created, rfl
    apply (absent_or_cleanedUp absent_empty (Prod.ext hfails rfl)).2 created hcommit

/-- The lock and the run stay when the note cannot be unlocked.  When the note is unlocked and
the row of the run is removed, its prepared note stays. -/
theorem not_absent_sampleFailure :
  Absent ⟨{}, ∅⟩ 1
    ∧ (sampleFailure (some sampleFault)).1.isOk = false
    ∧ (sampleFailure (some sampleFault)).2.locked = {sampleNote.outpoint}
    ∧ (sampleFailure (some sampleFault)).2.store.runs.map (·.runId) = [1]
    ∧ ¬(sampleFailure (some sampleFault)).2.Absent 1
    ∧ (sampleFailure none).1.isOk = false
    ∧ (sampleFailure none).2.locked = ∅
    ∧ (sampleFailure none).2.store.runs = []
    ∧ (sampleFailure none).2.store.preparedNotes.map (·.runId) = [1]
    ∧ ¬(sampleFailure none).2.Absent 1
  := by
  have hlocked : (sampleFailure (some sampleFault)).2.locked = {sampleNote.outpoint} := by
    decide +kernel
  have hnotes : (sampleFailure none).2.store.preparedNotes.map (·.runId) = [1] := by
    decide +kernel
  refine ⟨absent_empty, by decide +kernel, hlocked, by decide +kernel, ?_, by decide +kernel,
    by decide +kernel, by decide +kernel, hnotes, ?_⟩
  · intro habsent
    rw [habsent.locks] at hlocked
    cases Finset.singleton_ne_empty _ hlocked.symm
  · intro habsent
    have hmem : 1 ∈ (sampleFailure none).2.store.preparedNotes.map (·.runId) := by
      rw [hnotes]
      apply List.mem_singleton_self
    obtain ⟨row, hrow, hid⟩ := List.mem_map.mp hmem
    apply habsent.rows.preparedNotes row hrow hid

end

end CreationWorld

end Vizor
