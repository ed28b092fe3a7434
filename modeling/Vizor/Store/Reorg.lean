import Vizor.Lib.Closure
import Vizor.Store.Broadcast

/-!
# The denomination split and the chain

The stages of the denomination split follow the chain.  A stage that left the chain, and
every stage that spends its outputs and is not in the chain, awaits its inputs again.  The
reconciliation commits three transactions: it removes what was funded by the affected
stages, then updates the stages, then the phase of the run.
-/

namespace Vizor

open Table Run

namespace Store

/-! ### Statements on stages -/

/-- Whether a row is the stage of a run with a given transaction. -/
def isStage (r : RunId) (txid : Txid) (stage : DenominationStage) : Bool :=
  stage.runId = r && stage.expectedTxid = txid

/-- Remove the transaction of a stage. -/
def resetDenominationStageExact (r : RunId) (s : Store) (txid : Txid) : Except String Store := do
  ensure (s.stages.countP (isStage r txid) = 1)
    s!"Migration denomination stage {txid} was not found"
  return s.updateStages (isStage r txid) fun stage => { stage with state := .awaitingInputs }

/-- Record where the transaction of a stage was found in the chain. -/
def replaceDenominationStageConfirmationIdentity (r : RunId) (s : Store) (txid : Txid)
    (identity : LocalTransactionChainIdentity) : Except String Store := do
  ensure (s.stages.countP (isStage r txid) = 1)
    s!"Migration denomination stage {txid} cannot record a mined inclusion"
  return s.updateStages (isStage r txid)
    fun stage => { stage with state := .confirmed stage.state.rawTx identity }

/-- Add the transaction of a stage that awaited its inputs. -/
def promoteAwaitingDenominationStage (s : Store) (r : RunId) (stageIndex : Nat) (txid : Txid)
    (rawTx : Bytes) : Except String Store := do
  ensure (rawTx ≠ []) "Migration denomination stage raw transaction is empty"
  let selected (stage : DenominationStage) : Bool := isStage r txid stage
    && stage.stageIndex = stageIndex && stage.state = .awaitingInputs
  ensure (s.stages.countP selected = 1)
    s!"Migration denomination stage {stageIndex} is missing, has a different txid, or is not awaiting inputs"
  return s.updateStages selected fun stage => { stage with state := .pending rawTx }

/-- Record that the transaction of a stage was broadcast, unless that is known. -/
def markDenominationStageBroadcasted (s : Store) (r : RunId) (txid : Txid) :
    Except String Store :=
  let selected (stage : DenominationStage) : Bool :=
    isStage r txid stage && stage.state.status = .pending
  if s.stages.countP selected = 1 then
    .ok (s.updateStages selected fun stage =>
      { stage with state := .broadcasted (stage.state.rawTx.getD []) })
  else do
    let stage ← okOr (s.stages.find? (isStage r txid))
      s!"Migration denomination stage {txid} was not found"
    ensure (stage.state.status = .broadcasted ∨ stage.state.status = .confirmed)
      s!"Cannot move migration denomination stage from {stage.state.status.asStr} to broadcasted"
    return s

/-- Record that the transaction of a stage is about to be broadcast. -/
def markDenominationBroadcastAttempted (s : Store) (r : RunId) (txid : Txid) :
    Except String Store := do
  let selected (stage : DenominationStage) : Bool :=
    isStage r txid stage && stage.state.status = .pending
  ensure (s.stages.countP selected = 1)
    s!"Denomination transaction {txid} is no longer pending"
  return s.updateStages selected fun stage => { stage with broadcastAttempted := .attempted }

/-- Record that the transaction of a stage was not broadcast. -/
def clearDenominationBroadcastAttempted (s : Store) (r : RunId) (txid : Txid) : Store :=
  s.updateStages (fun stage => isStage r txid stage && stage.state.status = .pending)
    fun stage => { stage with broadcastAttempted := .notAttempted }

/-! ### Catching up -/

/-- The height before which a stage is not broadcast. -/
def effectiveBroadcastHeight (stage : DenominationStage) : Nat :=
  max stage.scheduledHeight (stage.broadcastNotBeforeHeight.getD 0)

/-- Delay a stage after `precedingHeight` by the blocks drawn for it. -/
def delayStage (r : RunId) (delays : Nat → Nat) (acc : Store × Nat) (stage : DenominationStage) :
    Except String (Store × Nat) := do
  let randomizedHeight ← okOr (checkedAdd32 acc.2 (delays stage.stageIndex))
    "Migration preparation catch-up height overflow"
  let effectiveHeight := max randomizedHeight (effectiveBroadcastHeight stage)
  return (acc.1.updateStages (fun other => other.runId = r
      && other.stageIndex = stage.stageIndex && other.state.unsubmitted)
    fun other => { other with broadcastNotBeforeHeight := some effectiveHeight }, effectiveHeight)

/-- Draw new delays for the stages that were not submitted. -/
def rerandomizeRemainingPreparationBroadcastHeights (s : Store) (r : RunId)
    (chainTipHeight : Nat) (delays : Nat → Nat) : Except String Store := do
  let run ← s.readRun r "Read migration preparation timing policy"
  if run.preparationTimingPolicy = .immediate then return s
  else do
    let remaining := ((s.stagesOf r).filter (·.state.unsubmitted)).insertionSort fun a b =>
      effectiveBroadcastHeight a < effectiveBroadcastHeight b
        ∨ effectiveBroadcastHeight a = effectiveBroadcastHeight b ∧ a.stageIndex ≤ b.stageIndex
    let delayed ← remaining.foldlM (delayStage r delays) (s, chainTipHeight)
    return delayed.1

/-- Record that the transaction of a stage was broadcast; after an overdue one the other
stages of a spaced run get new delays. -/
def completeDenominationBroadcast (s : Store) (r : RunId) (txid : Txid) (overdue : Bool)
    (chainTipHeight : Nat) (delays : Nat → Nat) : Except String Store := do
  let marked ← s.markDenominationStageBroadcasted r txid
  if overdue then marked.rerandomizeRemainingPreparationBroadcastHeights r chainTipHeight delays
  else return marked

/-! ### What the affected stages funded -/

/-- Whether the output was spent in the chain by a transaction of the run. -/
def includedOutput (view : ChainView) (s : Store) (r : RunId) (outpoint : OutPoint) : Bool :=
  s.pendingTxs.any fun row => row.runId = r && row.selectedOutpoint = outpoint
    && (view.localDenominationChainIdentity row.txid).isSome

/-- A transaction that spends an output of `txid` and is not in the chain. -/
def isReorgedChild (view : ChainView) (r : RunId) (txid : Txid) (row : PendingTx) : Bool :=
  row.runId = r && row.selectedNoteTxid = txid
    && (view.localDenominationChainIdentity row.txid).isNone

/-- A prepared note of `txid` that was not spent in the chain. -/
def isReorgedNote (view : ChainView) (s : Store) (r : RunId) (txid : Txid)
    (row : PreparedNote) : Bool :=
  row.runId = r && row.note.txid = txid && !s.includedOutput view r row.note.outpoint

/-- A prepared note whose nullifier is not known. -/
def PreparedNote.reset (row : PreparedNote) : PreparedNote :=
  { row with note := { row.note with nullifier := none }, locked := true }

/-- Remove the transactions that were funded by `txid`, and reset its notes. -/
def resetChildrenOf (view : ChainView) (r : RunId) (acc : Store × Bool) (txid : Txid) :
    Store × Bool :=
  let s := acc.1
  ((s.deletePendingTxs (isReorgedChild view r txid)).updatePreparedNotes
      (s.isReorgedNote view r txid) PreparedNote.reset,
    acc.2 || s.pendingTxs.any (isReorgedChild view r txid)
      || s.preparedNotes.any (s.isReorgedNote view r txid))

/-- Let a run that is not finished wait for its denominations. -/
def waitForDenominations (s : Store) (r : RunId) (f : MigrationRun → MigrationRun) : Store :=
  s.updateRuns (fun run => run.runId = r && !run.phase.releasesWalletLocks)
    fun run => { f run with phase := .waitingDenomConfirmations, lastError := none }

/-- Remove what was funded by transactions that left the chain. -/
def resetMigrationChildrenForReorgedDenominations (view : ChainView) (s : Store) (r : RunId)
    (denominationTxids : List Txid) : Except String (Store × Bool) :=
  if denominationTxids = [] then .ok (s, false)
  else do
    let run ← s.readRun r "Read migration phase before denomination reorg reset"
    if run.phase.releasesWalletLocks then return (s, false)
    else
      let reset := denominationTxids.foldl (resetChildrenOf view r) (s, false)
      return (if reset.2 then
          reset.1.waitForDenominations r fun run => { run with proofRetryHeight := none }
        else reset.1, reset.2)

/-! ### The reconciliation -/

/-- A stage and the transactions that it spends from. -/
structure DenominationStageChainRecord where
  stageIndex : Nat
  expectedTxid : Txid
  status : DenominationStageStatus
  confirmed : Option LocalTransactionChainIdentity
  parentTxids : List Txid
  deriving DecidableEq, Repr

/-- The inputs of a stage. -/
def inputsOfStage (s : Store) (r : RunId) (stageIndex : Nat) : List StageInput :=
  s.stageInputs.filter fun input => input.runId = r && input.stageIndex = stageIndex

/-- The record of a stage. -/
def chainRecord (s : Store) (r : RunId) (stage : DenominationStage) :
    DenominationStageChainRecord where
  stageIndex := stage.stageIndex
  expectedTxid := stage.expectedTxid
  status := stage.state.status
  confirmed := stage.state.identity
  parentTxids := ((s.inputsOfStage r stage.stageIndex).insertionSort fun a b =>
    a.inputOrder ≤ b.inputOrder).map (·.txid)

/-- The stages of a run in their order. -/
def denominationStageChainRecords (s : Store) (r : RunId) : List DenominationStageChainRecord :=
  ((s.stagesOf r).insertionSort fun a b => a.stageIndex ≤ b.stageIndex).map (s.chainRecord r)

/-- What the chain says of a stage. -/
inductive StageFinding where
  | unchanged
  | found (identity : LocalTransactionChainIdentity)
  /-- The transaction is in the chain though its broadcast was not recorded. -/
  | recovered (identity : LocalTransactionChainIdentity)
  | moved (identity : LocalTransactionChainIdentity)
  | lost
  deriving DecidableEq, Repr

/-- Compare a stage with the chain. -/
def stageFinding (view : ChainView) (record : DenominationStageChainRecord) : StageFinding :=
  match record.status, view.localDenominationChainIdentity record.expectedTxid with
  | .awaitingInputs, some identity => .found identity
  | .pending, some identity => .recovered identity
  | .broadcasted, some identity => .found identity
  | .confirmed, none => .lost
  | .confirmed, some identity =>
    if record.confirmed = some identity then .unchanged else .moved identity
  | _, none => .unchanged

/-- The place in the chain that a finding gives. -/
def StageFinding.identity : StageFinding → Option LocalTransactionChainIdentity
  | .found identity | .recovered identity | .moved identity => some identity
  | .unchanged | .lost => none

/-- Whether the transactions that depend on the stage are affected. -/
def StageFinding.affects : StageFinding → Bool
  | .moved _ | .lost => true
  | _ => false

/-- Whether the finding is a recovery. -/
def StageFinding.recovers : StageFinding → Bool
  | .recovered _ => true
  | _ => false

/-- What a reconciliation is going to write.  The sets are listed in the order of the
stages. -/
structure ReorgPlan where
  affected : List Txid
  invalidStages : List Txid
  identitiesToRecord : List (Txid × LocalTransactionChainIdentity)
  recoveredPendingTxids : List Txid
  /-- The tip of the chain, when the other stages get new delays. -/
  recoveryChainTipHeight : Option Nat
  deriving DecidableEq, Repr

/-- The affected stages and those of them that are not in the chain. -/
def affectedStages (view : ChainView) (records : List DenominationStageChainRecord) :
    Finset Txid × Finset Txid :=
  Closure.saturate (·.expectedTxid) (·.parentTxids)
    (fun record => (view.localDenominationChainIdentity record.expectedTxid).isNone) records
    (((records.filter fun record => (stageFinding view record).affects).map
        (·.expectedTxid)).toFinset,
      ((records.filter fun record => stageFinding view record = .lost).map
        (·.expectedTxid)).toFinset)

/-- The tip of the chain, which only the recovery of a spaced run needs. -/
def recoveryContext (s : Store) (r : RunId) (recovered : List Txid)
    (chainTipHeight : Except String Nat) : Except String (Option Nat) :=
  if recovered = [] then .ok none
  else do
    let run ← s.readRun r "Read migration preparation timing policy"
    if run.preparationTimingPolicy = .immediate then return none
    else do
      let height ← chainTipHeight
      return some height

/-- Compare the stages of a run with the chain. -/
def reorgPlan (view : ChainView) (s : Store) (r : RunId) (chainTipHeight : Except String Nat) :
    Except String ReorgPlan := do
  let records := s.denominationStageChainRecords r
  let found := affectedStages view records
  let recovered := records.filter fun record => (stageFinding view record).recovers
  let recoveryChainTipHeight ← s.recoveryContext r (recovered.map (·.expectedTxid)) chainTipHeight
  return {
    affected := (records.map (·.expectedTxid)).filter (· ∈ found.1)
    invalidStages := (records.map (·.expectedTxid)).filter (· ∈ found.2)
    identitiesToRecord := records.filterMap fun record =>
      (stageFinding view record).identity.map fun identity => (record.expectedTxid, identity)
    recoveredPendingTxids := recovered.map (·.expectedTxid)
    recoveryChainTipHeight := recoveryChainTipHeight }

/-- The first transaction: remove what the affected stages funded. -/
def commitChildReset (view : ChainView) (r : RunId) (plan : ReorgPlan) (s : Store) :
    Except String Store := do
  let reset ← s.resetMigrationChildrenForReorgedDenominations view r plan.affected
  return reset.1

/-- Whether the stage of a recovery is still pending. -/
def stillPending (s : Store) (r : RunId) (txid : Txid) : Except String Bool := do
  let stage ← okOr (s.stages.find? (isStage r txid))
    "Check recovered denomination stage state: Query returned no rows"
  return stage.state.status = .pending

/-- The second transaction: reset the invalid stages, record where the others were found,
and draw new delays after a recovery. -/
def commitStageState (r : RunId) (plan : ReorgPlan) (delays : Nat → Nat) (s : Store) :
    Except String Store :=
  if plan.invalidStages = [] ∧ plan.identitiesToRecord = [] then .ok s
  else do
    let run ← s.readRun r "Read migration phase before chain-state reconciliation"
    if run.phase.releasesWalletLocks then return s
    else do
      let recovered ← plan.recoveredPendingTxids.mapM (s.stillPending r)
      let s ← plan.invalidStages.foldlM (resetDenominationStageExact r) s
      let s ← (plan.identitiesToRecord.filter (·.1 ∉ plan.invalidStages)).foldlM
        (fun s found => replaceDenominationStageConfirmationIdentity r s found.1 found.2) s
      match recovered.any id, plan.recoveryChainTipHeight with
      | true, some chainTipHeight =>
        s.rerandomizeRemainingPreparationBroadcastHeights r chainTipHeight delays
      | _, _ => return s

/-- The third statement: the phase of a run that is not finished. -/
def commitReorgPhase (r : RunId) (plan : ReorgPlan) (s : Store) : Except String Store :=
  if plan.affected = [] then .ok s else .ok (s.waitForDenominations r id)

/-- Reconcile the stages of a run with the chain, in a process that stops after `stop`
transactions at most. -/
def reconcileDenominationStageChainStateUpTo (stop : Nat) (view : ChainView) (s : Store)
    (r : RunId) (chainTipHeight : Except String Nat) (delays : Nat → Nat) :
    Store × Option String :=
  if s.denominationStageChainRecords r = [] then (s, none)
  else match reorgPlan view s r chainTipHeight with
    | .error e => (s, some e)
    | .ok plan => commitAll
      ([commitChildReset view r plan, commitStageState r plan delays,
        commitReorgPhase r plan].take stop) s

/-- Reconcile the stages of a run with the chain. -/
def reconcileDenominationStageChainState (view : ChainView) (s : Store) (r : RunId)
    (chainTipHeight : Except String Nat) (delays : Nat → Nat) : Store × Option String :=
  s.reconcileDenominationStageChainStateUpTo 3 view r chainTipHeight delays

/-! ### What the reconciliation may do -/

variable {l : Licence} {s s' : Store} {r : RunId} {view : ChainView}

theorem waitForDenominations_evolves {f : MigrationRun → MigrationRun}
    (hid : ∀ run, (f run).runId = run.runId)
    (howner : ∀ run, (f run).accountUuid = run.accountUuid ∧ (f run).network = run.network)
    (htargets : ∀ run, (f run).targetValues = run.targetValues) :
  Evolves l s (s.waitForDenominations r f)
  := by
  apply evolves_updateRuns
  intro run _ hrun
  rw [Bool.and_eq_true] at hrun
  refine ⟨hid run, howner run, htargets run,
    .inr ⟨.inl (releasesWalletLocks_of_not hrun.2), by simp⟩⟩

theorem resetChildrenOf_evolves (acc : Store × Bool) {txids : List Txid} :
  Evolves l acc.1 (txids.foldl (resetChildrenOf view r) acc).1
  := by
  induction txids generalizing acc with
  | nil => apply Evolves.refl
  | cons txid txids ih =>
    rw [List.foldl_cons]
    have hstep : Evolves l acc.1 (resetChildrenOf view r acc txid).1 := by
      apply Evolves.trans (evolves_deletePendingTxs (p := isReorgedChild view r txid))
      apply evolves_of_eq <;> rfl
    apply hstep.trans (ih _)

theorem commitChildReset_evolves {plan : ReorgPlan}
    (h : commitChildReset view r plan s = .ok s') :
  Evolves l s s'
  := by
  obtain ⟨reset, hreset, h⟩ := bind_eq_ok.mp h
  obtain rfl := pure_eq_ok.mp h
  rw [resetMigrationChildrenForReorgedDenominations] at hreset
  split at hreset
  · cases hreset
    apply Evolves.refl
  · obtain ⟨run, -, hreset⟩ := bind_eq_ok.mp hreset
    split at hreset
    · obtain rfl := pure_eq_ok.mp hreset
      apply Evolves.refl
    · obtain rfl := pure_eq_ok.mp hreset
      have hchildren : Evolves l s
          (plan.affected.foldl (resetChildrenOf view r) (s, false)).1 :=
        resetChildrenOf_evolves (s, false)
      dsimp only
      split
      · apply hchildren.trans (waitForDenominations_evolves _ _ _) <;> simp
      · apply hchildren

/-- The statements on stages leave the other tables as they are. -/
def SameRows (s s' : Store) : Prop :=
  ∃ stages, s' = { s with stages := stages }

theorem SameRows.refl : s.SameRows s
  := ⟨s.stages, rfl⟩

theorem SameRows.trans {s s' s'' : Store} (h : s.SameRows s') (h' : s'.SameRows s'') :
  s.SameRows s''
  := by
  obtain ⟨stages, rfl⟩ := h
  obtain ⟨stages', rfl⟩ := h'
  exact ⟨stages', rfl⟩

theorem SameRows.evolves (h : s.SameRows s') :
  Evolves l s s'
  := by
  obtain ⟨stages, rfl⟩ := h
  apply evolves_of_eq <;> rfl

theorem resetDenominationStageExact_sameRows {txid : Txid}
    (h : resetDenominationStageExact r s txid = .ok s') :
  s.SameRows s'
  := by
  simp only [resetDenominationStageExact, bind_eq_ok, pure_eq_ok] at h
  obtain ⟨_, -, rfl⟩ := h
  exact ⟨_, rfl⟩

theorem replaceDenominationStageConfirmationIdentity_sameRows {txid : Txid}
    {identity : LocalTransactionChainIdentity}
    (h : replaceDenominationStageConfirmationIdentity r s txid identity = .ok s') :
  s.SameRows s'
  := by
  simp only [replaceDenominationStageConfirmationIdentity, bind_eq_ok, pure_eq_ok] at h
  obtain ⟨_, -, rfl⟩ := h
  exact ⟨_, rfl⟩

theorem rerandomizeRemainingPreparationBroadcastHeights_sameRows {chainTipHeight : Nat}
    {delays : Nat → Nat}
    (h : s.rerandomizeRemainingPreparationBroadcastHeights r chainTipHeight delays = .ok s') :
  s.SameRows s'
  := by
  obtain ⟨run, -, h⟩ := bind_eq_ok.mp h
  split at h
  · obtain rfl := pure_eq_ok.mp h
    apply SameRows.refl
  · obtain ⟨delayed, hdelayed, h⟩ := bind_eq_ok.mp h
    obtain rfl := pure_eq_ok.mp h
    apply foldlM_invariant (I := fun acc : Store × Nat => s.SameRows acc.1) _ SameRows.refl
      hdelayed
    intro acc acc' stage _ hacc hstep
    simp only [delayStage, bind_eq_ok, pure_eq_ok] at hstep
    obtain ⟨height, -, rfl⟩ := hstep
    apply hacc.trans ⟨_, rfl⟩

theorem commitStageState_sameRows {plan : ReorgPlan} {delays : Nat → Nat}
    (h : commitStageState r plan delays s = .ok s') :
  s.SameRows s'
  := by
  rw [commitStageState] at h
  split at h
  · cases h
    apply SameRows.refl
  · obtain ⟨run, -, h⟩ := bind_eq_ok.mp h
    split at h
    · obtain rfl := pure_eq_ok.mp h
      apply SameRows.refl
    · obtain ⟨recovered, -, h⟩ := bind_eq_ok.mp h
      obtain ⟨t, ht, h⟩ := bind_eq_ok.mp h
      obtain ⟨u, hu, h⟩ := bind_eq_ok.mp h
      have hst : s.SameRows t := by
        apply foldlM_rel (fun _ => SameRows.refl) SameRows.trans _ ht
        intro _ _ _ _ hstep
        apply resetDenominationStageExact_sameRows hstep
      have htu : t.SameRows u := by
        apply foldlM_rel (fun _ => SameRows.refl) SameRows.trans _ hu
        intro _ _ _ _ hstep
        apply replaceDenominationStageConfirmationIdentity_sameRows hstep
      split at h
      · apply (hst.trans htu).trans (rerandomizeRemainingPreparationBroadcastHeights_sameRows h)
      · obtain rfl := pure_eq_ok.mp h
        apply hst.trans htu

theorem commitReorgPhase_evolves {plan : ReorgPlan} (h : commitReorgPhase r plan s = .ok s') :
  Evolves l s s'
  := by
  rw [commitReorgPhase] at h
  split at h
  · cases h
    apply Evolves.refl
  · cases h
    apply waitForDenominations_evolves <;> simp

/-- A reconciliation needs no licence, wherever it stops. -/
theorem reconcileDenominationStageChainStateUpTo_evolves {stop : Nat}
    {chainTipHeight : Except String Nat} {delays : Nat → Nat} :
  Evolves l s
    (s.reconcileDenominationStageChainStateUpTo stop view r chainTipHeight delays).1
  := by
  unfold reconcileDenominationStageChainStateUpTo
  split
  · apply Evolves.refl
  · split
    · apply Evolves.refl
    · apply commitAll_rel (R := Evolves l) (fun _ => Evolves.refl) Evolves.trans
      intro f hf t t' ht
      have hmem := List.mem_of_mem_take hf
      simp only [List.mem_cons, List.not_mem_nil, or_false] at hmem
      rcases hmem with rfl | rfl | rfl
      · apply commitChildReset_evolves ht
      · apply (commitStageState_sameRows ht).evolves
      · apply commitReorgPhase_evolves ht

theorem promoteAwaitingDenominationStage_evolves {stageIndex : Nat} {txid : Txid}
    {rawTx : Bytes}
    (h : s.promoteAwaitingDenominationStage r stageIndex txid rawTx = .ok s') :
  Evolves l s s'
  := by
  simp only [promoteAwaitingDenominationStage, bind_eq_ok, pure_eq_ok] at h
  obtain ⟨_, -, _, -, rfl⟩ := h
  apply evolves_of_eq <;> rfl

theorem markDenominationStageBroadcasted_sameRows {txid : Txid}
    (h : s.markDenominationStageBroadcasted r txid = .ok s') :
  s.SameRows s'
  := by
  rw [markDenominationStageBroadcasted] at h
  split at h
  · cases h
    exact ⟨_, rfl⟩
  · simp only [bind_eq_ok, pure_eq_ok] at h
    obtain ⟨_, -, _, -, rfl⟩ := h
    apply SameRows.refl

theorem completeDenominationBroadcast_evolves {txid : Txid} {overdue : Bool}
    {chainTipHeight : Nat} {delays : Nat → Nat}
    (h : s.completeDenominationBroadcast r txid overdue chainTipHeight delays = .ok s') :
  Evolves l s s'
  := by
  obtain ⟨t, ht, h⟩ := bind_eq_ok.mp h
  have hst := markDenominationStageBroadcasted_sameRows ht
  split at h
  · apply (hst.trans (rerandomizeRemainingPreparationBroadcastHeights_sameRows h)).evolves
  · obtain rfl := pure_eq_ok.mp h
    apply hst.evolves

theorem markDenominationBroadcastAttempted_evolves {txid : Txid}
    (h : s.markDenominationBroadcastAttempted r txid = .ok s') :
  Evolves l s s'
  := by
  simp only [markDenominationBroadcastAttempted, bind_eq_ok, pure_eq_ok] at h
  obtain ⟨_, -, rfl⟩ := h
  apply evolves_of_eq <;> rfl

theorem clearDenominationBroadcastAttempted_evolves {txid : Txid} :
  Evolves l s (s.clearDenominationBroadcastAttempted r txid)
  := by
  apply evolves_of_eq <;> rfl

end Store

end Vizor
