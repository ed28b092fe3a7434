import Vizor.Store.Operation

/-!
# Operations that do not sign

Most operations move what was signed through its life without signing anything: they write
phases, statuses and broadcast heights, and they remove rows.  What such an operation leaves
of the signed children, of the parts of the pending transactions and of the schedules of the
runs was there before it.
-/

namespace Vizor

open Table Run

/-- The columns of a run from which the heights of its parts are derived. -/
def MigrationRun.schedulePlan (run : MigrationRun) :
    RunId × List MigrationScheduleEntry × List Nat × Option Nat :=
  (run.runId, run.schedule, run.targetValues, run.signedScheduleOriginHeight)

/-- The columns of a run that an operation which signs nothing leaves: the plan of its parts
and the marker of its rebase. -/
def MigrationRun.signedPlan (run : MigrationRun) :
    (RunId × List MigrationScheduleEntry × List Nat × Option Nat) × Option Nat :=
  (run.schedulePlan, run.initialScheduleRebasedOriginHeight)

/-- The columns of a pending transaction that say what was signed for which part. -/
def PendingTx.signedPart (row : PendingTx) :
    RunId × Option Nat × OutPoint × Nat × Option Nat × Txid :=
  (row.runId, row.partIndex, row.selectedOutpoint, row.valueZatoshi, row.originalScheduledHeight,
    row.txid)

/-- Whether an operation signs parts, or decides the schedule of a run. -/
def Op.signs : Op → Bool
  | .createRunWithStagedDenominationsAndSignedChildren _ _ _ _ _
  | .createOrResumePrivateMigrationDraft _ _
  | .finalizePrivateMigrationDraft _ _ _ _ _ _ _
  | .persistSignedChildPcztsForRun _ _
  | .adoptTimingPolicyForActiveRun _ _ _ _
  | .insertPendingTxs _ _ _
  | .promoteSignedChildPcztsToPendingTxs _ _ _ _ _
  | .replaceResignedPendingParts _ _ _
  | .ensureSchema => true
  | _ => false

namespace Store

/-- What `s'` has signed was signed in `s`. -/
structure SignedFrom (s s' : Store) : Prop where
  runs : s'.runs.map (·.schedulePlan) ⊆ s.runs.map (·.schedulePlan)
  children : s'.signedChildren ⊆ s.signedChildren
  rows : s'.pendingTxs.map (·.signedPart) ⊆ s.pendingTxs.map (·.signedPart)

/-- What `s'` has signed was signed in `s`, and no run lost the marker of its rebase. -/
structure Inherits (s s' : Store) : Prop where
  runs : s'.runs.map (·.signedPlan) ⊆ s.runs.map (·.signedPlan)
  children : s'.signedChildren ⊆ s.signedChildren
  rows : s'.pendingTxs.map (·.signedPart) ⊆ s.pendingTxs.map (·.signedPart)

variable {s s' : Store} {r : RunId} {view : ChainView}

/-! ### Statements -/

theorem SignedFrom.refl : SignedFrom s s
  := ⟨List.Subset.refl _, List.Subset.refl _, List.Subset.refl _⟩

/-- The plan of a run was there before. -/
theorem SignedFrom.exists_run (h : SignedFrom s s') {run' : MigrationRun} (hrun : run' ∈ s'.runs) :
  ∃ run ∈ s.runs, run.schedulePlan = run'.schedulePlan
  := List.mem_map.mp (h.runs (List.mem_map_of_mem hrun))

/-- The signed part of a pending transaction was there before. -/
theorem SignedFrom.exists_row (h : SignedFrom s s') {row' : PendingTx}
    (hrow : row' ∈ s'.pendingTxs) :
  ∃ row ∈ s.pendingTxs, row.signedPart = row'.signedPart
  := List.mem_map.mp (h.rows (List.mem_map_of_mem hrow))

theorem signedFrom_updateRuns {p : MigrationRun → Bool} {f : MigrationRun → MigrationRun}
    (hf : ∀ run, (f run).schedulePlan = run.schedulePlan) :
  SignedFrom s (s.updateRuns p f)
  := by
  constructor
  · have hsame : (s.updateRuns p f).runs.map (·.schedulePlan) = s.runs.map (·.schedulePlan) :=
      map_updateWhere fun run _ _ => hf run
    rw [hsame]
    apply List.Subset.refl
  · apply List.Subset.refl
  · apply List.Subset.refl

theorem Inherits.refl : Inherits s s
  := ⟨List.Subset.refl _, List.Subset.refl _, List.Subset.refl _⟩

theorem Inherits.trans {s s' s'' : Store} (h : Inherits s s') (h' : Inherits s' s'') :
  Inherits s s''
  := ⟨List.Subset.trans h'.runs h.runs, List.Subset.trans h'.children h.children,
    List.Subset.trans h'.rows h.rows⟩

/-- A run had the same plan and the same marker before. -/
theorem Inherits.exists_run (h : Inherits s s') {run' : MigrationRun} (hrun : run' ∈ s'.runs) :
  ∃ run ∈ s.runs, run.signedPlan = run'.signedPlan
  := List.mem_map.mp (h.runs (List.mem_map_of_mem hrun))

/-- What inherits the plans with their markers has signed nothing. -/
theorem Inherits.signedFrom (h : Inherits s s') :
  SignedFrom s s'
  := by
  refine ⟨?_, h.children, h.rows⟩
  intro plan hplan
  obtain ⟨run', hrun', rfl⟩ := List.mem_map.mp hplan
  obtain ⟨run, hrun, hsame⟩ := h.exists_run hrun'
  rw [MigrationRun.signedPlan, MigrationRun.signedPlan, Prod.mk.injEq] at hsame
  rw [← hsame.1]
  apply List.mem_map_of_mem hrun

/-- Statements on the other tables sign nothing. -/
theorem inherits_of_eq (hruns : s'.runs = s.runs) (hpending : s'.pendingTxs = s.pendingTxs)
    (hchildren : s'.signedChildren ⊆ s.signedChildren) :
  Inherits s s'
  := by
  constructor
  · rw [hruns]
    apply List.Subset.refl
  · apply hchildren
  · rw [hpending]
    apply List.Subset.refl

theorem inherits_updateRuns {p : MigrationRun → Bool} {f : MigrationRun → MigrationRun}
    (hf : ∀ run, (f run).signedPlan = run.signedPlan) :
  Inherits s (s.updateRuns p f)
  := by
  constructor
  · have hsame : (s.updateRuns p f).runs.map (·.signedPlan) = s.runs.map (·.signedPlan) :=
      map_updateWhere fun run _ _ => hf run
    rw [hsame]
    apply List.Subset.refl
  · apply List.Subset.refl
  · apply List.Subset.refl

theorem inherits_updatePendingTxs {p : PendingTx → Bool} {f : PendingTx → PendingTx}
    (hf : ∀ row, (f row).signedPart = row.signedPart) :
  Inherits s (s.updatePendingTxs p f)
  := by
  constructor
  · apply List.Subset.refl
  · apply List.Subset.refl
  · have hsame : (s.updatePendingTxs p f).pendingTxs.map (·.signedPart)
        = s.pendingTxs.map (·.signedPart) := map_updateWhere fun row _ _ => hf row
    rw [hsame]
    apply List.Subset.refl

theorem inherits_deletePendingTxs {p : PendingTx → Bool} :
  Inherits s (s.deletePendingTxs p)
  := by
  constructor
  · apply List.Subset.refl
  · apply List.Subset.refl
  · apply map_deleteWhere_sublist.subset

theorem inherits_deleteSignedChildren {p : SignedChild → Bool} :
  Inherits s (s.deleteSignedChildren p)
  := by
  apply inherits_of_eq
  · rfl
  · rfl
  · apply List.filter_subset_self

/-- Updates of the prepared notes sign nothing. -/
theorem inherits_updatePreparedNotes {p : PreparedNote → Bool} {f : PreparedNote → PreparedNote} :
  Inherits s (s.updatePreparedNotes p f)
  := by
  apply inherits_of_eq
  · rfl
  · rfl
  · apply List.Subset.refl

/-- Statements on stages sign nothing. -/
theorem SameRows.inherits (h : s.SameRows s') :
  Inherits s s'
  := by
  obtain ⟨stages, rfl⟩ := h
  apply inherits_of_eq
  · rfl
  · rfl
  · apply List.Subset.refl

/-! ### Reconciliation -/

theorem reconcilePendingRow_signedPart {row : PendingTx} :
  (reconcilePendingRow view row).signedPart = row.signedPart
  := by
  unfold reconcilePendingRow
  split <;> rfl

theorem resumeBroadcast_inherits {phases : Phase → Bool} :
  Inherits s (s.resumeBroadcast r phases)
  := by
  apply inherits_updateRuns
  intro run
  rfl

theorem settlePendingTxs_inherits :
  Inherits s (s.settlePendingTxs view r)
  := by
  have hrows : Inherits s (s.reconcilePendingRows view r) := by
    apply inherits_updatePendingTxs
    intro row
    apply reconcilePendingRow_signedPart
  unfold settlePendingTxs
  dsimp only
  split
  · apply hrows.trans resumeBroadcast_inherits
  · apply hrows

theorem completeRun_inherits :
  Inherits s (s.completeRun r)
  := by
  apply Inherits.trans _ inherits_deleteSignedChildren
  apply Inherits.trans _ inherits_updatePreparedNotes
  apply inherits_updateRuns
  intro run
  rfl

/-- A reconciliation signs nothing. -/
theorem reconcileRunConfirmations_inherits (h : s.reconcileRunConfirmations view r = .ok s') :
  Inherits s s'
  := by
  obtain ⟨u, hu, hs'⟩ := reconcileRunConfirmations_cases h
  have hsu : Inherits s u := by
    rcases hu with rfl | rfl
    · apply settlePendingTxs_inherits
    · apply settlePendingTxs_inherits.trans resumeBroadcast_inherits
  rcases hs' with rfl | rfl | ⟨rfl, -⟩
  · apply hsu
  · apply hsu.trans resumeBroadcast_inherits
  · apply hsu.trans completeRun_inherits

theorem reconcileAndMarkForResign_inherits {selected : PendingTx → Bool} {message : String}
    {affected : Nat} (h : s.reconcileAndMarkForResign view r selected message = .ok (s', affected)) :
  Inherits s s'
  := by
  simp only [reconcileAndMarkForResign, bind_eq_ok, pure_eq_ok, Prod.mk.injEq] at h
  obtain ⟨t, ht, rfl, -⟩ := h
  have hmark : Inherits s (t.updatePendingTxs selected
      fun row => { row with status := .needsResign }) := by
    apply (reconcileRunConfirmations_inherits ht).trans
    apply inherits_updatePendingTxs
    intro row
    rfl
  split
  · apply hmark.trans
    apply inherits_updateRuns
    intro run
    rfl
  · apply hmark

theorem markStagesConfirmed_sameRows (stages : List (Txid × LocalTransactionChainIdentity)) :
  s.SameRows (markStagesConfirmed r s stages).1
  := by
  induction stages generalizing s with
  | nil => exact SameRows.refl
  | cons stage stages ih =>
    obtain ⟨txid, identity⟩ := stage
    rw [markStagesConfirmed]
    split
    · rename_i t ht
      apply SameRows.trans _ ih
      rw [markDenominationStageConfirmedAt] at ht
      split at ht
      · cases ht
        exact ⟨_, rfl⟩
      · obtain ⟨stage, -, ht⟩ := bind_eq_ok.mp ht
        split at ht
        · split at ht
          · obtain rfl := pure_eq_ok.mp ht
            apply SameRows.refl
          · cases ht
        · cases ht
    · apply SameRows.refl

theorem recordNullifiers_inherits {confirmed : List (PreparedOrchardNoteRef × Nat × Nat)} :
  Inherits s (s.recordNullifiers r confirmed)
  := by
  unfold recordNullifiers
  induction confirmed generalizing s with
  | nil => exact Inherits.refl
  | cons note confirmed ih =>
    rw [List.foldl_cons]
    apply inherits_updatePreparedNotes.trans ih

theorem reconcileDenominationConfirmations_inherits :
  Inherits s (s.reconcileDenominationConfirmations view r)
  := by
  unfold reconcileDenominationConfirmations
  split
  · split
    · apply Inherits.refl
    · split
      · apply Inherits.refl
      · dsimp only
        split
        · apply recordNullifiers_inherits.trans
          apply (markStagesConfirmed_sameRows _).inherits.trans
          apply inherits_updateRuns
          intro run
          rfl
        · apply recordNullifiers_inherits.trans (markStagesConfirmed_sameRows _).inherits
  · apply Inherits.refl

theorem backfillReadyMigrationProofRetryHeight_inherits
    (h : s.backfillReadyMigrationProofRetryHeight view r = .ok s') :
  Inherits s s'
  := by
  obtain ⟨run, -, h⟩ := bind_eq_ok.mp h
  split at h
  · obtain rfl := pure_eq_ok.mp h
    apply Inherits.refl
  · obtain ⟨ready, -, h⟩ := bind_eq_ok.mp h
    obtain ⟨readyHeight, -, h⟩ := bind_eq_ok.mp h
    obtain rfl := pure_eq_ok.mp h
    apply inherits_updateRuns
    intro run
    rfl

theorem resetChildrenOf_inherits (acc : Store × Bool) {txids : List Txid} :
  Inherits acc.1 (txids.foldl (resetChildrenOf view r) acc).1
  := by
  induction txids generalizing acc with
  | nil => exact Inherits.refl
  | cons txid txids ih =>
    rw [List.foldl_cons]
    have hstep : Inherits acc.1 (resetChildrenOf view r acc txid).1 :=
      inherits_deletePendingTxs.trans inherits_updatePreparedNotes
    apply hstep.trans (ih _)

theorem waitForDenominations_inherits {f : MigrationRun → MigrationRun}
    (hf : ∀ run, (f run).signedPlan = run.signedPlan) :
  Inherits s (s.waitForDenominations r f)
  := by
  apply inherits_updateRuns
  intro run
  apply hf run

theorem commitChildReset_inherits {plan : ReorgPlan}
    (h : commitChildReset view r plan s = .ok s') :
  Inherits s s'
  := by
  obtain ⟨reset, hreset, h⟩ := bind_eq_ok.mp h
  obtain rfl := pure_eq_ok.mp h
  rw [resetMigrationChildrenForReorgedDenominations] at hreset
  split at hreset
  · cases hreset
    apply Inherits.refl
  · obtain ⟨run, -, hreset⟩ := bind_eq_ok.mp hreset
    split at hreset
    · obtain rfl := pure_eq_ok.mp hreset
      apply Inherits.refl
    · obtain rfl := pure_eq_ok.mp hreset
      have hchildren : Inherits s
          (plan.affected.foldl (resetChildrenOf view r) (s, false)).1 :=
        resetChildrenOf_inherits (s, false)
      dsimp only
      split
      · apply hchildren.trans
        apply waitForDenominations_inherits
        intro run
        rfl
      · apply hchildren

/-- A reconciliation of the denomination split signs nothing, wherever it stops. -/
theorem reconcileDenominationStageChainStateUpTo_inherits {stop : Nat}
    {chainTipHeight : Except String Nat} {delays : Nat → Nat} :
  Inherits s
    (s.reconcileDenominationStageChainStateUpTo stop view r chainTipHeight delays).1
  := by
  unfold reconcileDenominationStageChainStateUpTo
  split
  · apply Inherits.refl
  · split
    · apply Inherits.refl
    · apply commitAll_rel (R := Inherits) (fun _ => Inherits.refl) Inherits.trans
      intro f hf t t' ht
      have hmem := List.mem_of_mem_take hf
      simp only [List.mem_cons, List.not_mem_nil, or_false] at hmem
      rcases hmem with rfl | rfl | rfl
      · apply commitChildReset_inherits ht
      · apply (commitStageState_sameRows ht).inherits
      · rw [commitReorgPhase] at ht
        split at ht
        · cases ht
          apply Inherits.refl
        · cases ht
          apply waitForDenominations_inherits
          intro run
          rfl

/-! ### Broadcasts -/

theorem rescheduledRow_signedPart {chainTipHeight minimumDelayBlocks : Nat}
    {offsets : Txid → Nat} {row row' : PendingTx}
    (h : rescheduledRow chainTipHeight minimumDelayBlocks offsets row = .ok row') :
  row'.signedPart = row.signedPart
  := by
  obtain ⟨height, -, h⟩ := bind_eq_ok.mp h
  obtain ⟨expiry, -, h⟩ := bind_eq_ok.mp h
  obtain rfl := pure_eq_ok.mp h
  split <;> rfl

theorem rescheduleOverduePendingTxs_inherits {chainTipHeight minimumDelayBlocks : Nat}
    {excluded : Option Txid} {offsets : Txid → Nat}
    (h : s.rescheduleOverduePendingTxs r chainTipHeight minimumDelayBlocks excluded offsets
      = .ok s') :
  Inherits s s'
  := by
  rw [rescheduleOverduePendingTxs] at h
  split at h
  · obtain rfl : s = s' := by simpa using h
    apply Inherits.refl
  · obtain ⟨_, -, h⟩ := bind_eq_ok.mp h
    obtain ⟨pendingTxs, hpending, h⟩ := bind_eq_ok.mp h
    obtain rfl := pure_eq_ok.mp h
    obtain ⟨g, rfl, hg⟩ := exists_map_of_mapM_eq_ok hpending
    have hrows : Inherits s { s with pendingTxs := s.pendingTxs.map g } := by
      refine ⟨List.Subset.refl _, List.Subset.refl _, ?_⟩
      rw [List.map_map, List.map_congr_left (g := (·.signedPart))]
      · apply List.Subset.refl
      · intro row hrow
        have hrow' := hg row hrow
        split at hrow'
        · apply rescheduledRow_signedPart hrow'
        · have hsame : row = g row := by simpa using hrow'
          rw [Function.comp_apply, ← hsame]
    split
    · apply hrows.trans
      apply inherits_updateRuns
      intro run
      rfl
    · apply hrows

theorem updateRunAfterPendingBroadcast_inherits (h : s.updateRunAfterPendingBroadcast r = .ok s') :
  Inherits s s'
  := by
  obtain ⟨planned, -, h⟩ := bind_eq_ok.mp h
  obtain rfl := pure_eq_ok.mp h
  apply inherits_updateRuns
  intro run
  rfl

theorem markPendingBroadcasted_inherits {txid : Txid}
    (h : s.markPendingBroadcasted r txid = .ok s') :
  Inherits s s'
  := by
  apply Inherits.trans _ (updateRunAfterPendingBroadcast_inherits h)
  apply inherits_updatePendingTxs
  intro row
  rfl

theorem applyScheduleUpdate_inherits {acc acc' : Store × Bool}
    {update : MigrationOutboxScheduleUpdate} (h : applyScheduleUpdate r acc update = .ok acc') :
  Inherits acc.1 acc'.1
  := by
  simp only [applyScheduleUpdate, bind_eq_ok, okOr_eq_ok] at h
  obtain ⟨row, -, expiry, -, h⟩ := h
  split at h
  · obtain rfl := pure_eq_ok.mp h
    apply inherits_updatePendingTxs
    intro other
    unfold updatedRow
    split <;> rfl
  · obtain ⟨_, -, h⟩ := bind_eq_ok.mp h
    obtain rfl := pure_eq_ok.mp h
    apply Inherits.refl

theorem applyAcceptedMigrationOutboxReceipt_inherits {account : AccountUuid}
    {network : WalletNetwork} {txid : Txid} {remoteHeight : Nat}
    {scheduleUpdates : List MigrationOutboxScheduleUpdate}
    (h : s.applyAcceptedMigrationOutboxReceipt account network r txid remoteHeight
      scheduleUpdates = .ok s') :
  Inherits s s'
  := by
  simp only [applyAcceptedMigrationOutboxReceipt, bind_eq_ok, okOr_eq_ok] at h
  obtain ⟨run, -, accepted, -, supplied, -, _, -, ⟨t, crossed⟩, happlied, h⟩ := h
  have hst : Inherits s t := by
    apply foldlM_invariant (I := fun acc : Store × Bool => Inherits s acc.1) _ Inherits.refl
      happlied
    intro acc acc' update _ hacc hstep
    apply hacc.trans (applyScheduleUpdate_inherits hstep)
  dsimp only at h
  set u : Store := if crossed = true then
      t.updateRuns (fun run => run.runId = r) fun run => { run with
        phase := .readyToMigrate
        lastError := some "Migration schedule crossed a ZIP 318 expiry boundary" }
    else t with hu
  have hsu : Inherits s u := by
    rw [hu]
    split
    · apply hst.trans
      apply inherits_updateRuns
      intro run
      rfl
    · apply hst
  split at h
  · apply Inherits.trans _ (updateRunAfterPendingBroadcast_inherits h)
    apply hsu.trans
    apply inherits_updatePendingTxs
    intro row
    rfl
  · obtain rfl := pure_eq_ok.mp h
    apply hsu

theorem stopRun_inherits {phase : Phase} :
  Inherits s (s.stopRun r phase)
  := by
  have hruns : Inherits s (s.updateRuns (fun run => run.runId = r && run.phase = phase)
      fun run => { run with
        phase := .abandoned, lastError := some "Migration stopped by the user." }) := by
    apply inherits_updateRuns
    intro run
    rfl
  apply hruns.trans
  apply inherits_deleteSignedChildren.trans
  apply inherits_deletePendingTxs.trans
  apply inherits_updatePreparedNotes.trans
  apply inherits_updateRuns
  intro run
  rfl

theorem abandonRun_inherits {account : AccountUuid} {network : WalletNetwork}
    (h : s.abandonRun account network r = .ok s') :
  Inherits s s'
  := by
  obtain ⟨run, -, h⟩ := bind_eq_ok.mp h
  obtain ⟨_, -, h⟩ := bind_eq_ok.mp h
  split at h
  · obtain rfl := pure_eq_ok.mp h
    apply Inherits.refl
  · obtain ⟨_, -, h⟩ := bind_eq_ok.mp h
    obtain rfl := pure_eq_ok.mp h
    apply stopRun_inherits

theorem recoverLatestIdempotentBroadcastFailure_inherits {account : AccountUuid}
    {network : WalletNetwork} :
  Inherits s (s.recoverLatestIdempotentBroadcastFailure account network)
  := by
  unfold recoverLatestIdempotentBroadcastFailure
  split
  · apply Inherits.refl
  · dsimp only
    split
    · apply Inherits.refl
    · apply Inherits.trans _ inherits_updatePreparedNotes
      apply inherits_updateRuns
      intro run
      rfl

/-! ### Recovery schedules -/

theorem ensureRebuildScheduleGeneration_inherits {originCandidateHeight : Nat}
    {fresh : Txid → Nat} {generation : Option RebuildScheduleGeneration}
    (h : s.ensureRebuildScheduleGeneration r originCandidateHeight fresh = .ok (s', generation)) :
  Inherits s s'
  := by
  rw [ensureRebuildScheduleGeneration] at h
  split at h
  · rw [pure_eq_ok, Prod.mk.injEq] at h
    obtain ⟨rfl, -⟩ := h
    apply Inherits.refl
  · obtain ⟨run, -, h⟩ := bind_eq_ok.mp h
    obtain ⟨_, -, h⟩ := bind_eq_ok.mp h
    obtain ⟨_, -, h⟩ := bind_eq_ok.mp h
    obtain ⟨_, -, h⟩ := bind_eq_ok.mp h
    obtain ⟨_, -, h⟩ := bind_eq_ok.mp h
    obtain ⟨assigned, -, h⟩ := bind_eq_ok.mp h
    obtain ⟨t, ht, h⟩ := bind_eq_ok.mp h
    obtain ⟨_, -, h⟩ := bind_eq_ok.mp h
    rw [pure_eq_ok, Prod.mk.injEq] at h
    obtain ⟨rfl, -⟩ := h
    have hst : Inherits s t := by
      apply foldlM_rel (fun _ => Inherits.refl) Inherits.trans _ ht
      intro u u' row _ hu
      simp only [assignRebuildOffset, bind_eq_ok, pure_eq_ok] at hu
      obtain ⟨_, -, rfl⟩ := hu
      apply inherits_updatePendingTxs
      intro row
      rfl
    apply hst.trans
    apply inherits_updateRuns
    intro run
    rfl

/-! ### The operations -/

theorem deleteAccountMigrationRows_inherits {account : AccountUuid} :
  Inherits s (s.deleteAccountMigrationRows account)
  := by
  constructor
  · apply map_deleteWhere_sublist.subset
  · apply List.filter_subset_self
  · apply map_deleteWhere_sublist.subset

/-- An operation that does not sign leaves only what was signed before it, and the markers. -/
theorem apply_inherits {op : Op} (hop : op.signs = false) (h : s.apply op = .ok s') :
  Inherits s s'
  := by
  cases op with
  | createRunWithStagedDenominationsAndSignedChildren _ _ _ _ _ => cases hop
  | createOrResumePrivateMigrationDraft _ _ => cases hop
  | finalizePrivateMigrationDraft _ _ _ _ _ _ _ => cases hop
  | persistSignedChildPcztsForRun _ _ => cases hop
  | adoptTimingPolicyForActiveRun _ _ _ _ => cases hop
  | insertPendingTxs _ _ _ => cases hop
  | promoteSignedChildPcztsToPendingTxs _ _ _ _ _ => cases hop
  | replaceResignedPendingParts _ _ _ => cases hop
  | ensureSchema => cases hop
  | deleteCreatedRun r =>
    cases h
    refine ⟨map_deleteWhere_sublist.subset, List.Subset.refl _, List.Subset.refl _⟩
  | markRunPhase r phase message =>
    cases h
    apply inherits_updateRuns
    intro run
    rfl
  | deleteAccountMigrationRows account =>
    cases h
    apply deleteAccountMigrationRows_inherits
  | ensureRebuildScheduleGeneration _ _ _ =>
    obtain ⟨_, h⟩ := map_fst_eq_ok h
    apply ensureRebuildScheduleGeneration_inherits h
  | markPendingBroadcastAttempted r txid =>
    simp only [apply, markPendingBroadcastAttempted, bind_eq_ok, pure_eq_ok] at h
    obtain ⟨_, -, rfl⟩ := h
    apply inherits_updatePendingTxs
    intro row
    rfl
  | setProofRetryHeight r retryHeight =>
    cases h
    apply inherits_updateRuns
    intro run
    rfl
  | reconcileRunConfirmations _ _ => apply reconcileRunConfirmations_inherits h
  | markDuePartsWithNoncanonicalBroadcastHeightForResign view r chainTipHeight =>
    obtain ⟨_, h⟩ := map_fst_eq_ok
      (x := s.markDuePartsWithNoncanonicalBroadcastHeightForResign view r chainTipHeight) h
    obtain ⟨_, -, h⟩ := bind_eq_ok.mp h
    apply reconcileAndMarkForResign_inherits h
  | markExpiredPendingPartsForResign _ _ _ =>
    obtain ⟨_, h⟩ := map_fst_eq_ok h
    apply reconcileAndMarkForResign_inherits h
  | reconcileDenominationConfirmations _ _ =>
    cases h
    apply reconcileDenominationConfirmations_inherits
  | backfillReadyMigrationProofRetryHeight _ _ =>
    apply backfillReadyMigrationProofRetryHeight_inherits h
  | rescheduleOverduePendingTxs _ _ _ _ _ => apply rescheduleOverduePendingTxs_inherits h
  | markPendingBroadcasted _ _ => apply markPendingBroadcasted_inherits h
  | applyAcceptedMigrationOutboxReceipt _ _ _ _ _ _ =>
    apply applyAcceptedMigrationOutboxReceipt_inherits h
  | retireRunForRebuild r message =>
    cases h
    apply Inherits.trans _ inherits_updatePreparedNotes
    apply inherits_updateRuns
    intro run
    rfl
  | abandonRun _ _ _ => apply abandonRun_inherits h
  | discardUnsubmittedPreparationStages _ =>
    cases h
    exact inherits_of_eq rfl rfl (List.Subset.refl _)
  | recoverLatestIdempotentBroadcastFailure _ _ =>
    cases h
    apply recoverLatestIdempotentBroadcastFailure_inherits
  | reconcileDenominationStageChainState _ _ _ _ _ =>
    cases h
    apply reconcileDenominationStageChainStateUpTo_inherits
  | promoteAwaitingDenominationStage _ _ _ _ =>
    simp only [apply, promoteAwaitingDenominationStage, bind_eq_ok, pure_eq_ok] at h
    obtain ⟨_, -, _, -, rfl⟩ := h
    exact inherits_of_eq rfl rfl (List.Subset.refl _)
  | replaceDenominationStageConfirmationIdentity _ _ _ =>
    apply (replaceDenominationStageConfirmationIdentity_sameRows h).inherits
  | completeDenominationBroadcast r txid overdue chainTipHeight delays =>
    obtain ⟨t, ht, h⟩ := bind_eq_ok.mp
      (show s.completeDenominationBroadcast r txid overdue chainTipHeight delays = .ok s' from h)
    have hst := markDenominationStageBroadcasted_sameRows ht
    split at h
    · apply (hst.trans (rerandomizeRemainingPreparationBroadcastHeights_sameRows h)).inherits
    · obtain rfl := pure_eq_ok.mp h
      apply hst.inherits
  | markDenominationBroadcastAttempted _ _ =>
    simp only [apply, markDenominationBroadcastAttempted, bind_eq_ok, pure_eq_ok] at h
    obtain ⟨_, -, rfl⟩ := h
    exact inherits_of_eq rfl rfl (List.Subset.refl _)
  | clearDenominationBroadcastAttempted _ _ =>
    cases h
    exact inherits_of_eq rfl rfl (List.Subset.refl _)

/-- An operation that does not sign leaves only what was signed before it. -/
theorem apply_signedFrom {op : Op} (hop : op.signs = false) (h : s.apply op = .ok s') :
  SignedFrom s s'
  := (apply_inherits hop h).signedFrom

end Store

end Vizor
