import Vizor.Store.Placing

/-!
# Broadcast heights

The columns for the broadcast height of a pending transaction and for the start of its schedule
are absent in old schemas only.  Every transaction that an operation adds has both, and no
operation removes them, so the queries that need them can read every row of a store that the
operations made.
-/

namespace Vizor

open Table Run

namespace Store

/-- Every pending transaction has a broadcast height. -/
def Dated (s : Store) : Prop :=
  ∀ row ∈ s.pendingTxs, row.scheduledHeight.isSome

variable {s s' : Store} {r : RunId} {view : ChainView}

/-! ### Statements -/

theorem Dated.of_eq (h : s.Dated) (hpending : s'.pendingTxs = s.pendingTxs) :
  s'.Dated
  := by
  intro row hrow
  rw [hpending] at hrow
  apply h row hrow

theorem Dated.of_map (h : s.Dated) {g : PendingTx → PendingTx}
    (hpending : s'.pendingTxs = s.pendingTxs.map g)
    (hg : ∀ row ∈ s.pendingTxs, row.scheduledHeight.isSome → (g row).scheduledHeight.isSome) :
  s'.Dated
  := by
  intro row hrow
  rw [hpending] at hrow
  obtain ⟨old, hold, rfl⟩ := List.mem_map.mp hrow
  apply hg old hold (h old hold)

theorem Dated.updatePendingTxs (h : s.Dated) {p : PendingTx → Bool} {f : PendingTx → PendingTx}
    (hf : ∀ row, row.scheduledHeight.isSome → (f row).scheduledHeight.isSome) :
  (s.updatePendingTxs p f).Dated
  := by
  apply h.of_map rfl
  intro row _ hrow
  split
  · apply hf row hrow
  · apply hrow

theorem Dated.deletePendingTxs (h : s.Dated) {p : PendingTx → Bool} :
  (s.deletePendingTxs p).Dated
  := by
  intro row hrow
  apply h row (mem_deleteWhere.mp hrow).1

theorem SameRows.dated (hsame : s.SameRows s') (h : s.Dated) :
  s'.Dated
  := by
  obtain ⟨stages, rfl⟩ := hsame
  apply h

theorem Completes.dated (hcompletes : s.Completes s') (h : s.Dated) :
  s'.Dated
  := by
  obtain ⟨g, hpending, hg⟩ := hcompletes.rows
  apply h.of_map hpending
  intro row _ hrow
  rw [(hg row).2.1]
  apply hrow

/-! ### Operations that sign -/

theorem Dated.insertSignedChildPczts (h : s.Dated) {children : List SignedMigrationPcztInsert}
    {mode : SignedChildInsertMode} (hs' : s.insertSignedChildPczts r children mode = .ok s') :
  s'.Dated
  := h.of_eq (insertSignedChildPczts_children hs').1

theorem Dated.insertDenominationStages (h : s.Dated) {stages : List DenominationStageInsert}
    (hs' : s.insertDenominationStages r stages = .ok s') :
  s'.Dated
  := h.of_eq (insertDenominationStages_keeps hs').2.1

theorem Dated.insertRun (h : s.Dated) {run : MigrationRun} {what : String}
    (hs' : s.insertRun run what = .ok s') :
  s'.Dated
  := by
  simp only [Store.insertRun, bind_eq_ok, pure_eq_ok] at hs'
  obtain ⟨_, -, rfl⟩ := hs'
  apply h

theorem Dated.createRun (h : s.Dated) {new : NewRun}
    {preparedNotes : List PreparedOrchardNoteRef}
    {signedChildren : List SignedMigrationPcztInsert}
    {denominationStages : List DenominationStageInsert}
    {approvedSchedule : Option (List MigrationScheduleEntry)}
    (hs' : s.createRunWithStagedDenominationsAndSignedChildren new preparedNotes signedChildren
      denominationStages approvedSchedule = .ok s') :
  s'.Dated
  := by
  obtain ⟨_, -, hs'⟩ := bind_eq_ok.mp hs'
  obtain ⟨_, -, hs'⟩ := bind_eq_ok.mp hs'
  obtain ⟨_, -, hs'⟩ := bind_eq_ok.mp hs'
  obtain ⟨t, ht, hs'⟩ := bind_eq_ok.mp hs'
  obtain ⟨u, hu, hs'⟩ := bind_eq_ok.mp hs'
  have hcreated : t.Dated := h.insertRun ht
  have hnoted : (t.insertPreparedNotes new.runId preparedNotes true).Dated := hcreated
  apply (hnoted.insertDenominationStages hu).insertSignedChildPczts hs'

theorem Dated.createDraft (h : s.Dated) {new : NewRun}
    {approvedSchedule : List MigrationScheduleEntry} {r' : RunId}
    (hs' : s.createOrResumePrivateMigrationDraft new approvedSchedule = .ok (s', r')) :
  s'.Dated
  := by
  rw [createOrResumePrivateMigrationDraft] at hs'
  split at hs'
  · split at hs'
    · simp only [bind_eq_ok, pure_eq_ok, Prod.mk.injEq] at hs'
      obtain ⟨_, -, rfl, -⟩ := hs'
      apply h
    · cases hs'
  · obtain ⟨_, -, hs'⟩ := bind_eq_ok.mp hs'
    obtain ⟨_, -, hs'⟩ := bind_eq_ok.mp hs'
    obtain ⟨t, ht, hs'⟩ := bind_eq_ok.mp hs'
    rw [pure_eq_ok, Prod.mk.injEq] at hs'
    obtain ⟨rfl, -⟩ := hs'
    apply h.insertRun ht

theorem Dated.finalizeDraft (h : s.Dated) {account : AccountUuid} {network : WalletNetwork}
    {targetValues : List Nat} {preparedNotes : List PreparedOrchardNoteRef}
    {signedChildren : List SignedMigrationPcztInsert}
    {denominationStages : List DenominationStageInsert}
    (hs' : s.finalizePrivateMigrationDraft r account network targetValues preparedNotes
      signedChildren denominationStages = .ok s') :
  s'.Dated
  := by
  obtain ⟨_, -, hs'⟩ := bind_eq_ok.mp hs'
  obtain ⟨_, -, hs'⟩ := bind_eq_ok.mp hs'
  obtain ⟨_, -, hs'⟩ := bind_eq_ok.mp hs'
  obtain ⟨_, -, hs'⟩ := bind_eq_ok.mp hs'
  obtain ⟨t, ht, hs'⟩ := bind_eq_ok.mp hs'
  obtain ⟨u, hu, hs'⟩ := bind_eq_ok.mp hs'
  obtain rfl := pure_eq_ok.mp hs'
  have hnoted : (s.insertPreparedNotes r preparedNotes true).Dated := h
  have hsigned : u.Dated := (hnoted.insertDenominationStages ht).insertSignedChildPczts hu
  apply hsigned

/-- The rows of a checked batch have their broadcast heights. -/
theorem PendingBatch.dated {run : MigrationRun} {schedule : List MigrationScheduleEntry}
    {pendingTxs : List PendingMigrationTxInsert} {batch : PendingBatch}
    (h : pendingTxs.foldlM (PendingBatch.add s run schedule) {} = .ok batch) :
  ∀ row ∈ batch.scheduledPending, row.scheduledHeight.isSome
  := by
  intro row hrow
  obtain ⟨pending, -, origin, hplaces, -⟩ := PendingBatch.foldlM_spec h row hrow
  obtain ⟨offset, -, horiginal⟩ := hplaces.height
  rw [hplaces.scheduled, horiginal]
  rfl

theorem Dated.insertPendingTxsWithTx (h : s.Dated) {pendingTxs : List PendingMigrationTxInsert}
    {generated : List MigrationScheduleEntry}
    (hs' : s.insertPendingTxsWithTx r pendingTxs generated = .ok s') :
  s'.Dated
  := by
  obtain ⟨run, -, hs'⟩ := bind_eq_ok.mp hs'
  obtain ⟨_, -, hs'⟩ := bind_eq_ok.mp hs'
  obtain ⟨batch, hbatch, hs'⟩ := bind_eq_ok.mp hs'
  obtain ⟨t, ht, hs'⟩ := bind_eq_ok.mp hs'
  obtain rfl := pure_eq_ok.mp hs'
  obtain rfl := insertPendingRows_eq ht
  intro row hrow
  rcases List.mem_append.mp hrow with hrow | hrow
  · apply h row
    split at hrow <;> split at hrow <;> exact hrow
  · apply PendingBatch.dated hbatch row hrow

theorem Dated.promote (hunique : s.RunsUnique) (h : s.Dated)
    {pendingTxs : List PendingMigrationTxInsert}
    {currentScannedHeight remainingChildRetryHeight : Nat}
    {generated : List MigrationScheduleEntry}
    (hs' : s.promoteSignedChildPcztsToPendingTxs r pendingTxs currentScannedHeight
      remainingChildRetryHeight generated = .ok s') :
  s'.Dated
  := by
  rw [promoteSignedChildPcztsToPendingTxs] at hs'
  split at hs'
  · cases hs'
    apply h
  · obtain ⟨_, -, hs'⟩ := bind_eq_ok.mp hs'
    obtain ⟨_, -, hs'⟩ := bind_eq_ok.mp hs'
    obtain ⟨⟨t, applied⟩, ht, hs'⟩ := bind_eq_ok.mp hs'
    obtain ⟨_, -, hs'⟩ := bind_eq_ok.mp hs'
    obtain ⟨u, hu, hs'⟩ := bind_eq_ok.mp hs'
    obtain rfl := pure_eq_ok.mp hs'
    have hrebased : t.Dated := h.of_eq (rebaseInitial_spec hunique ht).1
    have hinserted : u.Dated := hrebased.insertPendingTxsWithTx hu
    apply hinserted

theorem Dated.replacePendingRow (h : s.Dated) {recoveryOrigin : Option Nat}
    {replacement : PendingMigrationTxReplacement}
    (hs' : replacePendingRow r recoveryOrigin s replacement = .ok s') :
  s'.Dated
  := by
  simp only [Store.replacePendingRow, bind_eq_ok, pure_eq_ok] at hs'
  obtain ⟨_, -, _, -, _, -, _, -, _, -, _, -, _, -, _, -, rfl⟩ := hs'
  intro row hrow
  rcases List.mem_append.mp hrow with hrow | hrow
  · apply h row (mem_deleteWhere.mp hrow).1
  · rw [List.mem_singleton] at hrow
    subst hrow
    rfl

theorem Dated.replaceResigned (h : s.Dated)
    {replacements : List PendingMigrationTxReplacement}
    {signedChildren : List SignedMigrationPcztInsert}
    (hs' : s.replaceResignedPendingParts r replacements signedChildren = .ok s') :
  s'.Dated
  := by
  rw [replaceResignedPendingParts] at hs'
  split at hs'
  · cases hs'
    apply h
  · obtain ⟨run, -, hs'⟩ := bind_eq_ok.mp hs'
    obtain ⟨_, -, hs'⟩ := bind_eq_ok.mp hs'
    obtain ⟨t, ht, hs'⟩ := bind_eq_ok.mp hs'
    obtain ⟨u, hu, hs'⟩ := bind_eq_ok.mp hs'
    obtain rfl := pure_eq_ok.mp hs'
    have hreplaced : t.Dated := by
      apply foldlM_invariant (I := Dated) _ h ht
      intro v v' replacement _ hv hstep
      apply hv.replacePendingRow hstep
    have hsigned : u.Dated := hreplaced.insertSignedChildPczts hu
    apply hsigned

/-! ### Operations that sign nothing -/

theorem Dated.ensureRebuildScheduleGeneration (h : s.Dated) {originCandidateHeight : Nat}
    {fresh : Txid → Nat} {generation : Option RebuildScheduleGeneration}
    (hs' : s.ensureRebuildScheduleGeneration r originCandidateHeight fresh
      = .ok (s', generation)) :
  s'.Dated
  := by
  rw [Store.ensureRebuildScheduleGeneration] at hs'
  split at hs'
  · rw [pure_eq_ok, Prod.mk.injEq] at hs'
    obtain ⟨rfl, -⟩ := hs'
    apply h
  · obtain ⟨run, -, hs'⟩ := bind_eq_ok.mp hs'
    obtain ⟨_, -, hs'⟩ := bind_eq_ok.mp hs'
    obtain ⟨_, -, hs'⟩ := bind_eq_ok.mp hs'
    obtain ⟨_, -, hs'⟩ := bind_eq_ok.mp hs'
    obtain ⟨_, -, hs'⟩ := bind_eq_ok.mp hs'
    obtain ⟨assigned, -, hs'⟩ := bind_eq_ok.mp hs'
    obtain ⟨t, ht, hs'⟩ := bind_eq_ok.mp hs'
    obtain ⟨_, -, hs'⟩ := bind_eq_ok.mp hs'
    rw [pure_eq_ok, Prod.mk.injEq] at hs'
    obtain ⟨rfl, -⟩ := hs'
    have hassigned : t.Dated := by
      apply foldlM_invariant (I := Dated) _ h ht
      intro u u' row _ hu hstep
      simp only [assignRebuildOffset, bind_eq_ok, pure_eq_ok] at hstep
      obtain ⟨_, -, rfl⟩ := hstep
      apply hu.updatePendingTxs
      exact fun _ => id
    apply hassigned

theorem Dated.reconcilePendingRows (h : s.Dated) :
  (s.reconcilePendingRows view r).Dated
  := by
  apply h.updatePendingTxs
  intro row hrow
  unfold reconcilePendingRow
  split
  · apply hrow
  · apply hrow
  · rfl
  · apply hrow

theorem Dated.settlePendingTxs (h : s.Dated) :
  (s.settlePendingTxs view r).Dated
  := by
  unfold Store.settlePendingTxs
  dsimp only
  split
  · apply h.reconcilePendingRows
  · apply h.reconcilePendingRows

theorem Dated.reconcileRunConfirmations (h : s.Dated)
    (hs' : s.reconcileRunConfirmations view r = .ok s') :
  s'.Dated
  := by
  obtain ⟨u, hu, hs'⟩ := reconcileRunConfirmations_cases hs'
  have hsettled : u.Dated := by
    rcases hu with rfl | rfl
    · apply h.settlePendingTxs
    · apply h.settlePendingTxs
  rcases hs' with rfl | rfl | ⟨rfl, -⟩
  · apply hsettled
  · apply hsettled
  · apply hsettled

theorem Dated.reconcileAndMarkForResign (h : s.Dated) {selected : PendingTx → Bool}
    {message : String} {affected : Nat}
    (hs' : s.reconcileAndMarkForResign view r selected message = .ok (s', affected)) :
  s'.Dated
  := by
  simp only [Store.reconcileAndMarkForResign, bind_eq_ok, pure_eq_ok, Prod.mk.injEq] at hs'
  obtain ⟨t, ht, rfl, -⟩ := hs'
  have hmarked : (t.updatePendingTxs selected
      fun row => { row with status := .needsResign }).Dated := by
    apply (h.reconcileRunConfirmations ht).updatePendingTxs
    exact fun _ => id
  split
  · apply hmarked
  · apply hmarked

theorem Dated.recordNullifiers (h : s.Dated)
    {confirmed : List (PreparedOrchardNoteRef × Nat × Nat)} :
  (s.recordNullifiers r confirmed).Dated
  := by
  unfold Store.recordNullifiers
  induction confirmed generalizing s with
  | nil => exact h
  | cons note confirmed ih =>
    rw [List.foldl_cons]
    apply ih
    apply h

theorem Dated.reconcileDenominationConfirmations (h : s.Dated) :
  (s.reconcileDenominationConfirmations view r).Dated
  := by
  unfold Store.reconcileDenominationConfirmations
  split
  · split
    · apply h
    · split
      · apply h
      · dsimp only
        split
        · apply (markStagesConfirmed_sameRows _).dated h.recordNullifiers
        · apply (markStagesConfirmed_sameRows _).dated h.recordNullifiers
  · apply h

theorem Dated.backfillReadyMigrationProofRetryHeight (h : s.Dated)
    (hs' : s.backfillReadyMigrationProofRetryHeight view r = .ok s') :
  s'.Dated
  := by
  obtain ⟨run, -, hs'⟩ := bind_eq_ok.mp hs'
  split at hs'
  · obtain rfl := pure_eq_ok.mp hs'
    apply h
  · obtain ⟨ready, -, hs'⟩ := bind_eq_ok.mp hs'
    obtain ⟨readyHeight, -, hs'⟩ := bind_eq_ok.mp hs'
    obtain rfl := pure_eq_ok.mp hs'
    apply h

theorem Dated.rescheduleOverduePendingTxs (h : s.Dated)
    {chainTipHeight minimumDelayBlocks : Nat} {excluded : Option Txid} {offsets : Txid → Nat}
    (hs' : s.rescheduleOverduePendingTxs r chainTipHeight minimumDelayBlocks excluded offsets
      = .ok s') :
  s'.Dated
  := by
  rw [Store.rescheduleOverduePendingTxs] at hs'
  split at hs'
  · cases hs'
    apply h
  · obtain ⟨_, -, hs'⟩ := bind_eq_ok.mp hs'
    obtain ⟨pendingTxs, hpending, hs'⟩ := bind_eq_ok.mp hs'
    obtain rfl := pure_eq_ok.mp hs'
    obtain ⟨g, rfl, hg⟩ := exists_map_of_mapM_eq_ok hpending
    have hmoved : Dated { s with pendingTxs := s.pendingTxs.map g } := by
      apply h.of_map rfl
      intro row hrow hheight
      have hrow' := hg row hrow
      split at hrow'
      · obtain ⟨height, -, hrow'⟩ := bind_eq_ok.mp hrow'
        obtain ⟨expiry, -, hrow'⟩ := bind_eq_ok.mp hrow'
        rw [← pure_eq_ok.mp hrow']
        split
        · apply hheight
        · rfl
      · have hsame : row = g row := by simpa using hrow'
        rw [← hsame]
        apply hheight
    split
    · apply hmoved
    · apply hmoved

theorem Dated.updateRunAfterPendingBroadcast (h : s.Dated)
    (hs' : s.updateRunAfterPendingBroadcast r = .ok s') :
  s'.Dated
  := by
  obtain ⟨planned, -, hs'⟩ := bind_eq_ok.mp hs'
  obtain rfl := pure_eq_ok.mp hs'
  apply h

theorem Dated.markPendingBroadcasted (h : s.Dated) {txid : Txid}
    (hs' : s.markPendingBroadcasted r txid = .ok s') :
  s'.Dated
  := by
  apply Dated.updateRunAfterPendingBroadcast _ hs'
  apply h.updatePendingTxs
  exact fun _ => id

theorem Dated.applyScheduleUpdate {acc acc' : Store × Bool} (h : acc.1.Dated)
    {update : MigrationOutboxScheduleUpdate} (hs' : applyScheduleUpdate r acc update = .ok acc') :
  acc'.1.Dated
  := by
  simp only [Store.applyScheduleUpdate, bind_eq_ok, okOr_eq_ok] at hs'
  obtain ⟨row, -, expiry, -, hs'⟩ := hs'
  split at hs'
  · obtain rfl := pure_eq_ok.mp hs'
    apply h.updatePendingTxs
    intro other hother
    unfold updatedRow
    split
    · apply hother
    · rfl
  · obtain ⟨_, -, hs'⟩ := bind_eq_ok.mp hs'
    obtain rfl := pure_eq_ok.mp hs'
    apply h

theorem Dated.applyAcceptedMigrationOutboxReceipt (h : s.Dated) {account : AccountUuid}
    {network : WalletNetwork} {txid : Txid} {remoteHeight : Nat}
    {scheduleUpdates : List MigrationOutboxScheduleUpdate}
    (hs' : s.applyAcceptedMigrationOutboxReceipt account network r txid remoteHeight
      scheduleUpdates = .ok s') :
  s'.Dated
  := by
  simp only [Store.applyAcceptedMigrationOutboxReceipt, bind_eq_ok, okOr_eq_ok] at hs'
  obtain ⟨run, -, accepted, -, supplied, -, _, -, ⟨t, crossed⟩, happlied, hs'⟩ := hs'
  have hmoved : t.Dated := by
    apply foldlM_invariant (I := fun acc : Store × Bool => acc.1.Dated) _ h happlied
    intro acc acc' update _ hacc hstep
    apply hacc.applyScheduleUpdate hstep
  dsimp only at hs'
  set u : Store := if crossed = true then
      t.updateRuns (fun run => run.runId = r) fun run => { run with
        phase := .readyToMigrate
        lastError := some "Migration schedule crossed a ZIP 318 expiry boundary" }
    else t with hu
  have hcrossed : u.Dated := by
    rw [hu]
    split
    · apply hmoved
    · apply hmoved
  split at hs'
  · apply Dated.updateRunAfterPendingBroadcast _ hs'
    apply hcrossed.updatePendingTxs
    exact fun _ => id
  · obtain rfl := pure_eq_ok.mp hs'
    apply hcrossed

theorem Dated.abandonRun (h : s.Dated) {account : AccountUuid} {network : WalletNetwork}
    (hs' : s.abandonRun account network r = .ok s') :
  s'.Dated
  := by
  obtain ⟨run, -, hs'⟩ := bind_eq_ok.mp hs'
  obtain ⟨_, -, hs'⟩ := bind_eq_ok.mp hs'
  split at hs'
  · obtain rfl := pure_eq_ok.mp hs'
    apply h
  · obtain ⟨_, -, hs'⟩ := bind_eq_ok.mp hs'
    obtain rfl := pure_eq_ok.mp hs'
    apply h.deletePendingTxs

theorem Dated.resetChildrenOf {acc : Store × Bool} (h : acc.1.Dated) {txids : List Txid} :
  (txids.foldl (resetChildrenOf view r) acc).1.Dated
  := by
  induction txids generalizing acc with
  | nil => exact h
  | cons txid txids ih =>
    rw [List.foldl_cons]
    apply ih
    apply h.deletePendingTxs

theorem Dated.commitChildReset (h : s.Dated) {plan : ReorgPlan}
    (hs' : commitChildReset view r plan s = .ok s') :
  s'.Dated
  := by
  obtain ⟨reset, hreset, hs'⟩ := bind_eq_ok.mp hs'
  obtain rfl := pure_eq_ok.mp hs'
  rw [resetMigrationChildrenForReorgedDenominations] at hreset
  split at hreset
  · cases hreset
    apply h
  · obtain ⟨run, -, hreset⟩ := bind_eq_ok.mp hreset
    split at hreset
    · obtain rfl := pure_eq_ok.mp hreset
      apply h
    · obtain rfl := pure_eq_ok.mp hreset
      have hchildren : (plan.affected.foldl (Store.resetChildrenOf view r) (s, false)).1.Dated :=
        @Dated.resetChildrenOf _ _ (s, false) h _
      dsimp only
      split
      · apply hchildren
      · apply hchildren

/-- A reconciliation of the denomination split removes no height, wherever it stops. -/
theorem Dated.reconcileDenominationStageChainState (h : s.Dated) {stop : Nat}
    {chainTipHeight : Except String Nat} {delays : Nat → Nat} :
  (s.reconcileDenominationStageChainStateUpTo stop view r chainTipHeight delays).1.Dated
  := by
  unfold reconcileDenominationStageChainStateUpTo
  split
  · apply h
  · split
    · apply h
    · apply commitAll_invariant (I := Dated) _ h
      intro f hf t t' ht hstep
      have hmem := List.mem_of_mem_take hf
      simp only [List.mem_cons, List.not_mem_nil, or_false] at hmem
      rcases hmem with rfl | rfl | rfl
      · apply ht.commitChildReset hstep
      · apply (commitStageState_sameRows hstep).dated ht
      · rw [commitReorgPhase] at hstep
        split at hstep
        · cases hstep
          apply ht
        · cases hstep
          apply ht

theorem Dated.recoverLatestIdempotentBroadcastFailure (h : s.Dated) {account : AccountUuid}
    {network : WalletNetwork} :
  (s.recoverLatestIdempotentBroadcastFailure account network).Dated
  := by
  unfold Store.recoverLatestIdempotentBroadcastFailure
  split
  · apply h
  · dsimp only
    split
    · apply h
    · apply h

theorem Dated.adoptTimingPolicy (h : s.Dated) {account : AccountUuid} {network : WalletNetwork}
    {desiredPolicy : MigrationTimingPolicy} {generated : List MigrationScheduleEntry} :
  (s.adoptTimingPolicyForActiveRun account network desiredPolicy generated).Dated
  := by
  unfold adoptTimingPolicyForActiveRun
  split
  · apply h
  · split
    · apply h
    · split
      · apply h
      · split
        · apply h
        · apply h

/-! ### Backfills -/

theorem Dated.backfillPendingRow (h : s.Dated) {row : PendingTx}
    (hs' : backfillPendingRow row s = .ok s') :
  s'.Dated
  := by
  rw [Store.backfillPendingRow] at hs'
  split at hs'
  · cases hs'
    apply h
  · split at hs'
    · cases hs'
      apply h
    · obtain ⟨height, -, hs'⟩ := bind_eq_ok.mp hs'
      split at hs'
      · obtain rfl := pure_eq_ok.mp hs'
        apply h.of_map rfl
        intro other _ hother
        split
        · rfl
        · apply hother
      · obtain rfl := pure_eq_ok.mp hs'
        apply h.of_map rfl
        intro other _ hother
        split
        · rfl
        · apply hother

theorem Dated.andThen {p : Store × Option String} {f : Store → Store × Option String}
    (h : p.1.Dated) (hf : ∀ {t : Store}, t.Dated → (f t).1.Dated) :
  (andThen p f).1.Dated
  := andThen_rel (R := fun t t' : Store => t.Dated → t'.Dated)
    (fun h h' ht => h' (h ht)) (s := p.1) id hf h

/-- The backfills remove no height. -/
theorem Dated.ensureRows (h : s.Dated) :
  s.ensureRows.1.Dated
  := by
  have hsigned : s.backfillPendingPartIndices.backfillLegacySignedScheduleMetadata.1.Dated :=
    completes_backfillLegacySignedScheduleMetadata.dated
      (completes_backfillPendingPartIndices.dated h)
  have hpending : ∀ {t : Store}, t.Dated → t.backfillLegacyPendingScheduleMetadata.1.Dated := by
    intro t ht
    apply commitAll_invariant (I := Dated) _ ht
    intro f hf u u' hu hstep
    obtain ⟨row, -, rfl⟩ := List.mem_map.mp hf
    apply hu.backfillPendingRow hstep
  have hlast : ∀ {t : Store}, t.Dated →
      (if t.backfillOriginalPendingScheduleHeights.PartsUnique then
        (t.backfillOriginalPendingScheduleHeights.backfillScheduleStartHeights, none)
      else (t.backfillOriginalPendingScheduleHeights,
        some "Create migration pending part index: UNIQUE constraint failed")).1.Dated := by
    intro t ht
    have horiginal : t.backfillOriginalPendingScheduleHeights.Dated :=
      ht.updatePendingTxs fun _ => id
    split
    · exact horiginal.updatePendingTxs fun _ => id
    · apply horiginal
  have hbackfilled : (Run.andThen
      s.backfillPendingPartIndices.backfillLegacySignedScheduleMetadata
      backfillLegacyPendingScheduleMetadata).1.Dated := hsigned.andThen hpending
  apply hbackfilled.andThen hlast

/-! ### Runs of the store -/

/-- No operation removes a broadcast height, and what an operation adds has one. -/
theorem Dated.apply {op : Op} (hunique : s.RunsUnique) (h : s.Dated) (hs' : s.apply op = .ok s') :
  s'.Dated
  := by
  cases op with
  | createRunWithStagedDenominationsAndSignedChildren _ _ _ _ _ => apply h.createRun hs'
  | deleteCreatedRun _ =>
    cases hs'
    apply h
  | createOrResumePrivateMigrationDraft _ _ =>
    obtain ⟨_, hs'⟩ := map_fst_eq_ok hs'
    apply h.createDraft hs'
  | finalizePrivateMigrationDraft _ _ _ _ _ _ _ => apply h.finalizeDraft hs'
  | persistSignedChildPcztsForRun r signedChildren =>
    simp only [Store.apply, persistSignedChildPcztsForRun, bind_eq_ok, pure_eq_ok] at hs'
    obtain ⟨_, -, t, ht, _, -, rfl⟩ := hs'
    have hsigned : t.Dated := h.insertSignedChildPczts ht
    apply hsigned
  | markRunPhase _ _ _ =>
    cases hs'
    apply h
  | deleteAccountMigrationRows _ =>
    cases hs'
    apply h.deletePendingTxs
  | adoptTimingPolicyForActiveRun _ _ _ _ =>
    cases hs'
    apply h.adoptTimingPolicy
  | insertPendingTxs r pendingTxs generated =>
    replace hs' : s.insertPendingTxs r pendingTxs generated = .ok s' := hs'
    rw [insertPendingTxs] at hs'
    split at hs'
    · cases hs'
      apply h
    · apply h.insertPendingTxsWithTx hs'
  | promoteSignedChildPcztsToPendingTxs _ _ _ _ _ => apply h.promote hunique hs'
  | replaceResignedPendingParts _ _ _ => apply h.replaceResigned hs'
  | ensureRebuildScheduleGeneration _ _ _ =>
    obtain ⟨_, hs'⟩ := map_fst_eq_ok hs'
    apply h.ensureRebuildScheduleGeneration hs'
  | markPendingBroadcastAttempted r txid =>
    simp only [Store.apply, markPendingBroadcastAttempted, bind_eq_ok, pure_eq_ok] at hs'
    obtain ⟨_, -, rfl⟩ := hs'
    apply h.updatePendingTxs
    exact fun _ => id
  | setProofRetryHeight _ _ =>
    cases hs'
    apply h
  | reconcileRunConfirmations _ _ => apply h.reconcileRunConfirmations hs'
  | markDuePartsWithNoncanonicalBroadcastHeightForResign view r chainTipHeight =>
    obtain ⟨_, hs'⟩ := map_fst_eq_ok
      (x := s.markDuePartsWithNoncanonicalBroadcastHeightForResign view r chainTipHeight) hs'
    obtain ⟨_, -, hs'⟩ := bind_eq_ok.mp hs'
    apply h.reconcileAndMarkForResign hs'
  | markExpiredPendingPartsForResign _ _ _ =>
    obtain ⟨_, hs'⟩ := map_fst_eq_ok hs'
    apply h.reconcileAndMarkForResign hs'
  | reconcileDenominationConfirmations _ _ =>
    cases hs'
    apply h.reconcileDenominationConfirmations
  | backfillReadyMigrationProofRetryHeight _ _ =>
    apply h.backfillReadyMigrationProofRetryHeight hs'
  | rescheduleOverduePendingTxs _ _ _ _ _ => apply h.rescheduleOverduePendingTxs hs'
  | markPendingBroadcasted _ _ => apply h.markPendingBroadcasted hs'
  | applyAcceptedMigrationOutboxReceipt _ _ _ _ _ _ =>
    apply h.applyAcceptedMigrationOutboxReceipt hs'
  | retireRunForRebuild _ _ =>
    cases hs'
    apply h
  | abandonRun _ _ _ => apply h.abandonRun hs'
  | discardUnsubmittedPreparationStages _ =>
    cases hs'
    apply h
  | recoverLatestIdempotentBroadcastFailure _ _ =>
    cases hs'
    apply h.recoverLatestIdempotentBroadcastFailure
  | reconcileDenominationStageChainState _ _ _ _ _ =>
    cases hs'
    apply h.reconcileDenominationStageChainState
  | promoteAwaitingDenominationStage _ _ _ _ =>
    simp only [Store.apply, promoteAwaitingDenominationStage, bind_eq_ok, pure_eq_ok] at hs'
    obtain ⟨_, -, _, -, rfl⟩ := hs'
    apply h
  | replaceDenominationStageConfirmationIdentity _ _ _ =>
    apply (replaceDenominationStageConfirmationIdentity_sameRows hs').dated h
  | completeDenominationBroadcast r txid overdue chainTipHeight delays =>
    obtain ⟨t, ht, hs'⟩ := bind_eq_ok.mp
      (show s.completeDenominationBroadcast r txid overdue chainTipHeight delays = .ok s' from hs')
    have hmarked : t.Dated := (markDenominationStageBroadcasted_sameRows ht).dated h
    split at hs'
    · apply (rerandomizeRemainingPreparationBroadcastHeights_sameRows hs').dated hmarked
    · obtain rfl := pure_eq_ok.mp hs'
      apply hmarked
  | markDenominationBroadcastAttempted _ _ =>
    simp only [Store.apply, markDenominationBroadcastAttempted, bind_eq_ok, pure_eq_ok] at hs'
    obtain ⟨_, -, rfl⟩ := hs'
    apply h
  | clearDenominationBroadcastAttempted _ _ =>
    cases hs'
    apply h
  | ensureSchema =>
    cases hs'
    apply h.ensureRows

theorem Dated.step {op : Op} (hunique : s.RunsUnique) (h : s.Dated) :
  (s.step op).Dated
  := by
  unfold Store.step committed
  split
  · apply h.apply hunique ‹_›
  · apply h

/-- Every pending transaction of a store that the operations made has a broadcast height. -/
theorem Dated.after {ops : List Op} (hkeys : s.Keys) (h : s.Dated) :
  (Run.after Store.step s ops).Dated
  := by
  induction ops generalizing s with
  | nil => exact h
  | cons op ops ih => apply ih hkeys.step (h.step hkeys.runs)

/-! ### The start of the schedule -/

/-- Every pending transaction has a start of its schedule. -/
def Started (s : Store) : Prop :=
  ∀ row ∈ s.pendingTxs, row.scheduleStartHeight.isSome

/-- No statement removes the start of a schedule. -/
theorem Change.started {l : Licence} (hchange : Change l s s') (h : s.Started) :
  s'.Started
  := by
  cases hchange with
  | runs f _ hpending _ =>
    unfold Started
    rwa [hpending]
  | pending f _ hpending hf =>
    intro row hrow
    rw [hpending] at hrow
    obtain ⟨old, hold, rfl⟩ := List.mem_map.mp hrow
    apply (hf old hold).scheduleStartHeight (h old hold)
  | discard p _ hpending =>
    intro row hrow
    rw [hpending] at hrow
    apply h row (mem_deleteWhere.mp hrow).1
  | insert new _ hpending hfresh _ _ =>
    intro row hrow
    rw [hpending, List.mem_append, List.mem_singleton] at hrow
    rcases hrow with hrow | rfl
    · apply h row hrow
    · apply hfresh.scheduleStartHeight
  | replace old new p _ hpending _ _ hfresh _ _ =>
    intro row hrow
    rw [hpending, List.mem_append, List.mem_singleton] at hrow
    rcases hrow with hrow | rfl
    · apply h row (mem_deleteWhere.mp hrow).1
    · apply hfresh.scheduleStartHeight
  | create run _ hpending _ _ _ =>
    unfold Started
    rwa [hpending]
  | drop p _ hpending _ =>
    unfold Started
    rwa [hpending]

/-- Every pending transaction of a store that the operations made has a start of its schedule. -/
theorem Started.after {ops : List Op} (hkeys : s.Keys) (h : s.Started) :
  (Run.after Store.step s ops).Started
  := by
  apply run_invariant (C := fun _ _ => True) _ hkeys h
  · apply along_of_forall
    exact fun _ _ _ => trivial
  · intro s op _ _ t t' _ hchange ht
    apply hchange.started ht

end Store

end Vizor
