import Vizor.Store.ChainState

/-!
# The life of a stage

The statements on the stages of the denomination split come from the signer, the broadcaster
and the reconciliation with the chain, in any order.  Each of them guards the status of the
row that it updates.  So a stage goes back to an earlier status only when it is reset, what
was signed stays with the row for as long as the row exists, and the notes that are locked
are those of the stages that are not confirmed.
-/

namespace Vizor

open Table Run

/-! ### Columns -/

namespace StageColumns

/-- Add a transaction to a stage that awaits its inputs. -/
def promote (rawTx : Bytes) (columns : StageColumns) : StageColumns :=
  if columns.status = .awaitingInputs ∧ columns.encryptedRawTx = none then
    { columns with encryptedRawTx := some rawTx, status := .pending }
  else columns

/-- Mark a pending stage as broadcast. -/
def broadcast (columns : StageColumns) : StageColumns :=
  if columns.status = .pending then { columns with status := .broadcasted } else columns

/-- Confirm a stage that has a transaction. -/
def confirm (identity : LocalTransactionChainIdentity) (columns : StageColumns) :
    StageColumns :=
  if columns.status = .pending ∨ columns.status = .broadcasted then { columns with
    status := .confirmed
    confirmedMinedHeight := some identity.minedHeight
    confirmedBlockHash := some identity.blockHash }
  else columns

/-- Confirm a stage, whatever its status. -/
def replaceIdentity (identity : LocalTransactionChainIdentity) (columns : StageColumns) :
    StageColumns :=
  { columns with
    status := .confirmed
    confirmedMinedHeight := some identity.minedHeight
    confirmedBlockHash := some identity.blockHash }

/-- Remove the transaction of a stage. -/
def reset (_ : StageColumns) : StageColumns where
  status := .awaitingInputs
  encryptedRawTx := none
  confirmedMinedHeight := none
  confirmedBlockHash := none

end StageColumns

namespace DenominationStageState

/-- The columns of a state. -/
def columns (state : DenominationStageState) : StageColumns where
  status := state.status
  encryptedRawTx := state.rawTx
  confirmedMinedHeight := state.identity.map (·.minedHeight)
  confirmedBlockHash := state.identity.map (·.blockHash)

/-- The columns of a state meet the constraints. -/
theorem columns_checked (state : DenominationStageState) :
  state.columns.Checked
  := by
  cases state <;> simp [StageColumns.Checked, columns, status, rawTx, identity]

/-- Columns that meet the constraints are those of a state. -/
theorem exists_columns {c : StageColumns} (h : c.Checked) :
  ∃ state : DenominationStageState, state.columns = c
  := by
  obtain ⟨status, encryptedRawTx, minedHeight, blockHash⟩ := c
  obtain ⟨hraw, hidentity⟩ := h
  dsimp only at hraw hidentity
  cases status with
  | awaitingInputs =>
    use .awaitingInputs
    simp_all [columns, DenominationStageState.status, rawTx, identity]
  | pending =>
    obtain ⟨raw, rfl⟩ : ∃ raw, encryptedRawTx = some raw := by
      rw [← Option.ne_none_iff_exists']
      simpa using hraw
    use .pending raw
    simp_all [columns, DenominationStageState.status, rawTx, identity]
  | broadcasted =>
    obtain ⟨raw, rfl⟩ : ∃ raw, encryptedRawTx = some raw := by
      rw [← Option.ne_none_iff_exists']
      simpa using hraw
    use .broadcasted raw
    simp_all [columns, DenominationStageState.status, rawTx, identity]
  | confirmed =>
    obtain ⟨height, rfl⟩ : ∃ height, minedHeight = some height := by
      rw [← Option.ne_none_iff_exists']
      simp_all
    obtain ⟨hash, rfl⟩ : ∃ hash, blockHash = some hash := by
      rw [← Option.ne_none_iff_exists']
      simp_all
    use .confirmed encryptedRawTx ⟨height, hash⟩
    simp [columns, DenominationStageState.status, rawTx, identity]

variable {state : DenominationStageState} {identity : LocalTransactionChainIdentity}

/-- The update of a promotion on the columns. -/
theorem columns_promote {raw : Bytes} :
  (if state = .awaitingInputs then .pending raw else state).columns
    = state.columns.promote raw
  := by
  cases state <;> rfl

/-- The update of a broadcast on the columns. -/
theorem columns_broadcast :
  (if state.status = .pending then .broadcasted (state.rawTx.getD []) else state).columns
    = state.columns.broadcast
  := by
  cases state <;> rfl

/-- The update of a confirmation on the columns. -/
theorem columns_confirm :
  (if state.status = .pending ∨ state.status = .broadcasted then
      .confirmed state.rawTx identity else state).columns
    = state.columns.confirm identity
  := by
  cases state <;> rfl

/-- The update of an inclusion on the columns. -/
theorem columns_replaceIdentity :
  (confirmed state.rawTx identity).columns = state.columns.replaceIdentity identity
  := by
  cases state <;> rfl

/-- The update of a reset on the columns. -/
theorem columns_reset :
  awaitingInputs.columns = state.columns.reset
  := rfl

end DenominationStageState

/-! ### Statements -/

/-- The order of the statuses. -/
def DenominationStageStatus.rank : DenominationStageStatus → Nat
  | .awaitingInputs => 0
  | .pending => 1
  | .broadcasted => 2
  | .confirmed => 3

/-- The key of a stage. -/
def DenominationStage.key (stage : DenominationStage) : RunId × Nat :=
  (stage.runId, stage.stageIndex)

/-- A statement on the stages, or a change of the other tables. -/
inductive StageOp where
  | insertDenominationStages (r : RunId) (stages : List DenominationStageInsert)
  | promoteAwaitingDenominationStage (r : RunId) (stageIndex : Nat) (txid : Txid) (rawTx : Bytes)
  | markDenominationStageBroadcasted (r : RunId) (txid : Txid)
  | completeDenominationBroadcast (r : RunId) (txid : Txid) (overdue : Bool)
      (chainTipHeight : Nat) (delays : Nat → Nat)
  | markDenominationStageConfirmedAt (r : RunId) (txid : Txid)
      (identity : LocalTransactionChainIdentity)
  | replaceDenominationStageConfirmationIdentity (r : RunId) (txid : Txid)
      (identity : LocalTransactionChainIdentity)
  | resetDenominationStageExact (r : RunId) (txid : Txid)
  | rerandomizeRemainingPreparationBroadcastHeights (r : RunId) (chainTipHeight : Nat)
      (delays : Nat → Nat)
  | markDenominationBroadcastAttempted (r : RunId) (txid : Txid)
  | clearDenominationBroadcastAttempted (r : RunId) (txid : Txid)
  | backfillStageBroadcastAttempts
  | discardUnsubmittedPreparationStages (r : RunId)
  | deleteAccountMigrationRows (account : AccountUuid)
  /-- The other tables become those of `t`. -/
  | others (t : Store)

/-- Whether the statement resets the stage. -/
def StageOp.resets : StageOp → DenominationStage → Prop
  | .resetDenominationStageExact r txid, stage => stage.runId = r ∧ stage.expectedTxid = txid
  | _, _ => False

/-- Whether the statement comes from a broadcast. -/
def StageOp.isBroadcastCallback : StageOp → Bool
  | .markDenominationStageBroadcasted _ _ | .completeDenominationBroadcast _ _ _ _ _
  | .markDenominationBroadcastAttempted _ _ | .clearDenominationBroadcastAttempted _ _ => true
  | _ => false

namespace Store

/-- Run a statement on the stages. -/
def applyStage (s : Store) : StageOp → Except String Store
  | .insertDenominationStages r stages => s.insertDenominationStages r stages
  | .promoteAwaitingDenominationStage r stageIndex txid rawTx =>
    s.promoteAwaitingDenominationStage r stageIndex txid rawTx
  | .markDenominationStageBroadcasted r txid => s.markDenominationStageBroadcasted r txid
  | .completeDenominationBroadcast r txid overdue chainTipHeight delays =>
    s.completeDenominationBroadcast r txid overdue chainTipHeight delays
  | .markDenominationStageConfirmedAt r txid identity =>
    s.markDenominationStageConfirmedAt r txid identity
  | .replaceDenominationStageConfirmationIdentity r txid identity =>
    replaceDenominationStageConfirmationIdentity r s txid identity
  | .resetDenominationStageExact r txid => resetDenominationStageExact r s txid
  | .rerandomizeRemainingPreparationBroadcastHeights r chainTipHeight delays =>
    s.rerandomizeRemainingPreparationBroadcastHeights r chainTipHeight delays
  | .markDenominationBroadcastAttempted r txid => s.markDenominationBroadcastAttempted r txid
  | .clearDenominationBroadcastAttempted r txid =>
    .ok (s.clearDenominationBroadcastAttempted r txid)
  | .backfillStageBroadcastAttempts => .ok s.backfillStageBroadcastAttempts
  | .discardUnsubmittedPreparationStages r => .ok (s.discardUnsubmittedPreparationStages r)
  | .deleteAccountMigrationRows account => .ok (s.deleteAccountMigrationRows account)
  | .others t => .ok { t with
      stages := s.stages
      stageInputs := s.stageInputs
      stageOutputs := s.stageOutputs }

/-- The store after a statement; one that fails changes nothing. -/
def stageStep (s : Store) (op : StageOp) : Store :=
  committed s (s.applyStage op)

/-- The outputs of a stage. -/
def outputsOfStage (s : Store) (r : RunId) (stageIndex : Nat) : List StageOutput :=
  s.stageOutputs.filter fun output => output.runId = r && output.stageIndex = stageIndex

/-- The outputs that the stages of a run keep from being spent otherwise. -/
def lockedDenominationStageInputOutpoints (s : Store) (r : RunId) : Finset OutPoint :=
  ((s.stageInputs.filter fun input => input.runId = r && s.stages.any fun stage =>
    stage.runId = input.runId && stage.stageIndex = input.stageIndex
      && stage.state.status ≠ .confirmed).map (·.outpoint)).toFinset

variable {s s' : Store} {r : RunId} {op : StageOp} {stage stage' stage'' : DenominationStage}

/-! ### Updates -/

/-- What a statement does to a stage that it leaves in the table. -/
structure RowStep (op : StageOp) (stage stage' : DenominationStage) : Prop where
  signed : stage' = { stage with
    broadcastNotBeforeHeight := stage'.broadcastNotBeforeHeight
    broadcastAttempted := stage'.broadcastAttempted
    state := stage'.state }
  rank : stage.state.status.rank ≤ stage'.state.status.rank ∨ op.resets stage
  callback : op.isBroadcastCallback = true → stage.state.status = .confirmed → stage' = stage

theorem RowStep.refl : RowStep op stage stage
  := ⟨rfl, .inl le_rfl, fun _ _ => rfl⟩

theorem RowStep.key (h : RowStep op stage stage') :
  stage'.key = stage.key
  := by
  rw [h.signed]
  rfl

theorem RowStep.resets_iff (h : RowStep op stage stage') :
  op.resets stage' ↔ op.resets stage
  := by
  rw [h.signed]
  cases op <;> rfl

theorem RowStep.trans (h : RowStep op stage stage') (h' : RowStep op stage' stage'') :
  RowStep op stage stage''
  := by
  constructor
  · rw [h'.signed, h.signed]
  · rcases h.rank with hrank | hresets
    · rcases h'.rank with hrank' | hresets
      · exact .inl (hrank.trans hrank')
      · exact .inr (h.resets_iff.mp hresets)
    · exact .inr hresets
  · intro hop hconfirmed
    obtain rfl := h.callback hop hconfirmed
    apply h'.callback hop hconfirmed

/-- The stages are updated one by one. -/
def RowsStep (op : StageOp) (s s' : Store) : Prop :=
  ∃ g, s' = { s with stages := s.stages.map g } ∧ ∀ stage, RowStep op stage (g stage)

theorem RowsStep.refl : RowsStep op s s
  := ⟨id, by simp, fun _ => RowStep.refl⟩

theorem RowsStep.trans {s s' s'' : Store} (h : RowsStep op s s') (h' : RowsStep op s' s'') :
  RowsStep op s s''
  := by
  obtain ⟨g, rfl, hg⟩ := h
  obtain ⟨g', rfl, hg'⟩ := h'
  use g' ∘ g
  constructor
  · rw [← List.map_map]
  · intro stage
    apply (hg stage).trans (hg' (g stage))

theorem rowsStep_updateStages {p : DenominationStage → Bool}
    {f : DenominationStage → DenominationStage}
    (hf : ∀ stage, p stage = true → RowStep op stage (f stage)) :
  RowsStep op s (s.updateStages p f)
  := by
  refine ⟨_, rfl, fun stage => ?_⟩
  split
  · apply hf stage ‹_›
  · apply RowStep.refl

/-- A new delay is drawn for stages that were not submitted only. -/
theorem rerandomizeRemainingPreparationBroadcastHeights_rowsStep {chainTipHeight : Nat}
    {delays : Nat → Nat}
    (h : s.rerandomizeRemainingPreparationBroadcastHeights r chainTipHeight delays = .ok s') :
  RowsStep op s s'
  := by
  obtain ⟨run, -, h⟩ := bind_eq_ok.mp h
  split at h
  · obtain rfl := pure_eq_ok.mp h
    apply RowsStep.refl
  · obtain ⟨delayed, hloop, h⟩ := bind_eq_ok.mp h
    obtain rfl := pure_eq_ok.mp h
    apply foldlM_rel (R := fun acc acc' : Store × Nat => RowsStep op acc.1 acc'.1)
      (fun _ => RowsStep.refl) RowsStep.trans _ hloop
    intro acc acc' stage _ hstep
    simp only [delayStage, bind_eq_ok, pure_eq_ok] at hstep
    obtain ⟨height, -, rfl⟩ := hstep
    apply rowsStep_updateStages
    intro other hother
    refine ⟨rfl, .inl le_rfl, fun _ hconfirmed => ?_⟩
    simp [DenominationStageState.unsubmitted, hconfirmed] at hother

theorem markDenominationStageBroadcasted_rowsStep {txid : Txid}
    (h : s.markDenominationStageBroadcasted r txid = .ok s') :
  RowsStep op s s'
  := by
  rw [markDenominationStageBroadcasted] at h
  split at h
  · cases h
    apply rowsStep_updateStages
    intro stage hstage
    simp only [Bool.and_eq_true, decide_eq_true_eq] at hstage
    refine ⟨rfl, .inl ?_, fun _ hconfirmed => ?_⟩
    · rw [hstage.2]
      show 1 ≤ 2
      decide
    · simp [hconfirmed] at hstage
  · simp only [bind_eq_ok, pure_eq_ok] at h
    obtain ⟨_, -, _, -, rfl⟩ := h
    apply RowsStep.refl

theorem completeDenominationBroadcast_rowsStep {txid : Txid} {overdue : Bool}
    {chainTipHeight : Nat} {delays : Nat → Nat}
    (h : s.completeDenominationBroadcast r txid overdue chainTipHeight delays = .ok s') :
  RowsStep op s s'
  := by
  obtain ⟨marked, hmarked, h⟩ := bind_eq_ok.mp h
  apply (markDenominationStageBroadcasted_rowsStep hmarked).trans
  split at h
  · apply rerandomizeRemainingPreparationBroadcastHeights_rowsStep h
  · obtain rfl := pure_eq_ok.mp h
    apply RowsStep.refl

/-- Every statement that neither adds nor removes stages updates them one by one. -/
def StageOp.updates : StageOp → Bool
  | .insertDenominationStages _ _ | .discardUnsubmittedPreparationStages _
  | .deleteAccountMigrationRows _ | .others _ => false
  | _ => true

theorem applyStage_rowsStep (hop : StageOp.updates op = true) (h : s.applyStage op = .ok s') :
  RowsStep op s s'
  := by
  cases op with
  | insertDenominationStages | discardUnsubmittedPreparationStages
  | deleteAccountMigrationRows | others => cases hop
  | promoteAwaitingDenominationStage r stageIndex txid rawTx =>
    simp only [applyStage, promoteAwaitingDenominationStage, bind_eq_ok, pure_eq_ok] at h
    obtain ⟨_, -, _, -, rfl⟩ := h
    apply rowsStep_updateStages
    intro stage hstage
    simp only [Bool.and_eq_true, decide_eq_true_eq] at hstage
    refine ⟨rfl, .inl ?_, fun hcallback => by cases hcallback⟩
    rw [hstage.2]
    show 0 ≤ 1
    decide
  | markDenominationStageBroadcasted r txid => apply markDenominationStageBroadcasted_rowsStep h
  | completeDenominationBroadcast r txid overdue chainTipHeight delays =>
    apply completeDenominationBroadcast_rowsStep h
  | markDenominationStageConfirmedAt r txid identity =>
    rw [applyStage, markDenominationStageConfirmedAt] at h
    split at h
    · cases h
      apply rowsStep_updateStages
      intro stage _
      refine ⟨rfl, .inl ?_, fun hcallback => by cases hcallback⟩
      show _ ≤ 3
      cases stage.state.status <;> decide
    · obtain ⟨stage, -, h⟩ := bind_eq_ok.mp h
      split at h
      · split at h
        · obtain rfl := pure_eq_ok.mp h
          apply RowsStep.refl
        · cases h
      · cases h
  | replaceDenominationStageConfirmationIdentity r txid identity =>
    simp only [applyStage, Store.replaceDenominationStageConfirmationIdentity, bind_eq_ok,
      pure_eq_ok] at h
    obtain ⟨_, -, rfl⟩ := h
    apply rowsStep_updateStages
    intro stage _
    refine ⟨rfl, .inl ?_, fun hcallback => by cases hcallback⟩
    show _ ≤ 3
    cases stage.state.status <;> decide
  | resetDenominationStageExact r txid =>
    simp only [applyStage, Store.resetDenominationStageExact, bind_eq_ok, pure_eq_ok] at h
    obtain ⟨_, -, rfl⟩ := h
    apply rowsStep_updateStages
    intro stage hstage
    simp only [isStage, Bool.and_eq_true, decide_eq_true_eq] at hstage
    exact ⟨rfl, .inr hstage, fun hcallback => by cases hcallback⟩
  | rerandomizeRemainingPreparationBroadcastHeights r chainTipHeight delays =>
    apply rerandomizeRemainingPreparationBroadcastHeights_rowsStep h
  | markDenominationBroadcastAttempted r txid =>
    simp only [applyStage, markDenominationBroadcastAttempted, bind_eq_ok, pure_eq_ok] at h
    obtain ⟨_, -, rfl⟩ := h
    apply rowsStep_updateStages
    intro stage hstage
    refine ⟨rfl, .inl le_rfl, fun _ hconfirmed => ?_⟩
    simp [hconfirmed] at hstage
  | clearDenominationBroadcastAttempted r txid =>
    cases h
    apply rowsStep_updateStages
    intro stage hstage
    refine ⟨rfl, .inl le_rfl, fun _ hconfirmed => ?_⟩
    simp [hconfirmed] at hstage
  | backfillStageBroadcastAttempts =>
    cases h
    apply rowsStep_updateStages
    intro stage hstage
    exact ⟨rfl, .inl le_rfl, fun hcallback => by cases hcallback⟩

/-! ### Additions -/

/-- The keys of the tables of stages and of their inputs. -/
structure StagesKeyed (s : Store) : Prop where
  stages : (s.stages.map DenominationStage.key).Nodup
  inputs : (s.stageInputs.map fun input => (input.runId, input.outpoint)).Nodup

/-- The inputs and outputs of a stage are the same. -/
structure SameParts (s s' : Store) (key : RunId × Nat) : Prop where
  inputs : s'.inputsOfStage key.1 key.2 = s.inputsOfStage key.1 key.2
  outputs : s'.outputsOfStage key.1 key.2 = s.outputsOfStage key.1 key.2

/-- Rows are added to the tables, none of them for a stage of before. -/
structure RowsAdded (s s' : Store) : Prop where
  stages : ∃ rows, s'.stages = s.stages ++ rows
  keyed : s.StagesKeyed → s'.StagesKeyed
  parts : ∀ stage ∈ s.stages, SameParts s s' stage.key

theorem RowsAdded.refl : RowsAdded s s
  := ⟨⟨[], by simp⟩, id, fun _ _ => ⟨rfl, rfl⟩⟩

theorem RowsAdded.trans {s s' s'' : Store} (h : RowsAdded s s') (h' : RowsAdded s' s'') :
  RowsAdded s s''
  := by
  obtain ⟨rows, hrows⟩ := h.stages
  obtain ⟨rows', hrows'⟩ := h'.stages
  constructor
  · use rows ++ rows'
    rw [hrows', hrows, List.append_assoc]
  · intro hkeyed
    apply h'.keyed (h.keyed hkeyed)
  · intro stage hstage
    have hparts := h.parts stage hstage
    have hparts' := h'.parts stage (by rw [hrows]; exact List.mem_append_left _ hstage)
    exact ⟨hparts'.inputs.trans hparts.inputs, hparts'.outputs.trans hparts.outputs⟩

/-- The inputs that are validated are distinct. -/
theorem validateInputs_nodup {inputs : List DenominationStageInputRef}
    {seen seen' : List OutPoint} (h : inputs.foldlM StageBatch.validateInput seen = .ok seen') :
  (inputs.map fun input => (⟨input.txid, input.outputIndex⟩ : OutPoint)).Nodup
    ∧ ∀ input ∈ inputs, (⟨input.txid, input.outputIndex⟩ : OutPoint) ∉ seen
  := by
  induction inputs generalizing seen with
  | nil => simp
  | cons input inputs ih =>
    rw [List.foldlM_cons, bind_eq_ok] at h
    obtain ⟨next, hnext, h⟩ := h
    simp only [StageBatch.validateInput, bind_eq_ok, ensure_eq_ok, pure_eq_ok] at hnext
    obtain ⟨_, hfresh, rfl⟩ := hnext
    obtain ⟨hnodup, hunseen⟩ := ih h
    constructor
    · rw [List.map_cons, List.nodup_cons]
      use ?_, hnodup
      intro hmem
      obtain ⟨other, hother, heq⟩ := List.mem_map.mp hmem
      apply hunseen other hother
      rw [heq]
      apply List.mem_cons_self
    · intro other hother
      rcases List.mem_cons.mp hother with rfl | hother
      · apply hfresh
      · exact fun hmem => hunseen other hother (List.mem_cons_of_mem _ hmem)

/-- The inputs of every stage of a valid batch are distinct. -/
theorem validateStageBatch_nodup {stages : List DenominationStageInsert}
    (h : validateStageBatch stages = .ok ()) {stage : DenominationStageInsert}
    (hstage : stage ∈ stages) :
  (stage.inputs.map fun input => (⟨input.txid, input.outputIndex⟩ : OutPoint)).Nodup
  := by
  obtain ⟨batch, hbatch, -⟩ := bind_eq_ok.mp h
  clear h
  generalize ({} : StageBatch) = start at hbatch
  induction stages generalizing start with
  | nil => cases hstage
  | cons first stages ih =>
    rw [List.foldlM_cons, bind_eq_ok] at hbatch
    obtain ⟨next, hnext, hbatch⟩ := hbatch
    rcases List.mem_cons.mp hstage with rfl | hstage
    · simp only [StageBatch.validate, bind_eq_ok] at hnext
      obtain ⟨_, -, _, -, _, -, _, -, _, -, _, -, _, hinputs, -⟩ := hnext
      apply (validateInputs_nodup hinputs).1
    · apply ih hstage next hbatch

theorem map_outpoint_stageInputRows {stage : DenominationStageInsert} :
  (stageInputRows r stage).map (fun input => (input.runId, input.outpoint))
    = stage.inputs.map fun input => (r, (⟨input.txid, input.outputIndex⟩ : OutPoint))
  := by
  rw [stageInputRows, List.map_map]
  conv_rhs => rw [← List.zipIdx_map_fst 0 stage.inputs, List.map_map]
  rfl

theorem insertStage_rowsAdded {stage : DenominationStageInsert}
    (hnodup : (stage.inputs.map fun input =>
      (⟨input.txid, input.outputIndex⟩ : OutPoint)).Nodup)
    (h : insertStage r s stage = .ok s') :
  RowsAdded s s'
  := by
  simp only [insertStage, bind_eq_ok, ensure_eq_ok, pure_eq_ok] at h
  obtain ⟨state, -, _, hstages, _, hinputs, _, -, rfl⟩ := h
  have hfresh : ∀ other ∈ s.stages, other.key ≠ (r, stage.stageIndex) := by
    intro other hother hkey
    obtain ⟨hrun, hindex⟩ := Prod.mk.inj hkey
    apply (hstages other (List.mem_filter.mpr ⟨hother, by simpa using hrun⟩)).1 hindex
  constructor
  · exact ⟨_, rfl⟩
  · rintro ⟨hkeys, houtpoints⟩
    constructor
    · rw [List.map_append, List.nodup_append]
      refine ⟨hkeys, List.nodup_singleton _, ?_⟩
      intro key hkey key' hkey'
      obtain ⟨other, hother, rfl⟩ := List.mem_map.mp hkey
      rw [List.map_singleton, List.mem_singleton] at hkey'
      rw [hkey']
      apply hfresh other hother
    · rw [List.map_append, List.nodup_append, map_outpoint_stageInputRows]
      refine ⟨houtpoints, ?_, ?_⟩
      · have := hnodup.map (f := fun outpoint => (r, outpoint)) (fun _ _ h => (Prod.mk.inj h).2)
        rwa [List.map_map] at this
      · intro key hkey key' hkey'
        obtain ⟨other, hother, rfl⟩ := List.mem_map.mp hkey
        obtain ⟨input, hinput, rfl⟩ := List.mem_map.mp hkey'
        intro heq
        obtain ⟨hrun, houtpoint⟩ := Prod.mk.inj heq
        apply (hinputs other hother hrun).2
        rw [houtpoint]
        apply List.mem_map_of_mem hinput
  · intro other hother
    have hkey := hfresh other hother
    constructor
    · rw [inputsOfStage, inputsOfStage, List.filter_append, List.append_right_eq_self,
        List.filter_eq_nil_iff]
      intro input hinput hsel
      obtain ⟨⟨ref, order⟩, -, rfl⟩ := List.mem_map.mp hinput
      simp only [Bool.and_eq_true, decide_eq_true_eq] at hsel
      apply hkey (Prod.ext hsel.1.symm hsel.2.symm)
    · rw [outputsOfStage, outputsOfStage, List.filter_append, List.append_right_eq_self,
        List.filter_eq_nil_iff]
      intro output houtput hsel
      obtain ⟨⟨ref, order⟩, -, rfl⟩ := List.mem_map.mp houtput
      simp only [Bool.and_eq_true, decide_eq_true_eq] at hsel
      apply hkey (Prod.ext hsel.1.symm hsel.2.symm)

theorem insertDenominationStages_rowsAdded {stages : List DenominationStageInsert}
    (h : s.insertDenominationStages r stages = .ok s') :
  RowsAdded s s'
  := by
  obtain ⟨_, hbatch, h⟩ := bind_eq_ok.mp h
  apply foldlM_rel (R := RowsAdded) (fun _ => RowsAdded.refl) RowsAdded.trans _ h
  intro t t' stage hstage ht
  apply insertStage_rowsAdded (validateStageBatch_nodup hbatch hstage) ht

/-! ### One statement -/

/-- What a statement does to the stages that it leaves in the table. -/
structure StageStep (op : StageOp) (s s' : Store) : Prop where
  keyed : s'.StagesKeyed
  rows : ∀ stage ∈ s.stages, ∀ stage' ∈ s'.stages, stage'.key = stage.key →
    RowStep op stage stage' ∧ SameParts s s' stage.key

theorem StagesKeyed.eq (h : s.StagesKeyed) (hstage : stage ∈ s.stages)
    (hstage' : stage' ∈ s.stages) (hkey : stage'.key = stage.key) :
  stage' = stage
  := List.inj_on_of_nodup_map h.stages hstage' hstage hkey

theorem stageStep_of_sameTables (hkeyed : s.StagesKeyed) (hstages : s'.stages = s.stages)
    (hinputs : s'.stageInputs = s.stageInputs) (houtputs : s'.stageOutputs = s.stageOutputs) :
  StageStep op s s'
  := by
  constructor
  · constructor
    · rw [hstages]
      apply hkeyed.stages
    · rw [hinputs]
      apply hkeyed.inputs
  · intro stage hstage stage' hstage' hkey
    rw [hstages] at hstage'
    obtain rfl := hkeyed.eq hstage hstage' hkey
    use RowStep.refl
    constructor
    · rw [inputsOfStage, inputsOfStage, hinputs]
    · rw [outputsOfStage, outputsOfStage, houtputs]

theorem RowsStep.stageStep (hkeyed : s.StagesKeyed) (h : RowsStep op s s') :
  StageStep op s s'
  := by
  obtain ⟨g, rfl, hg⟩ := h
  constructor
  · constructor
    · rw [List.map_map]
      have hsame : DenominationStage.key ∘ g = DenominationStage.key := by
        funext stage
        apply (hg stage).key
      rw [hsame]
      apply hkeyed.stages
    · apply hkeyed.inputs
  · intro stage hstage stage' hstage' hkey
    obtain ⟨other, hother, rfl⟩ := List.mem_map.mp hstage'
    rw [(hg other).key] at hkey
    obtain rfl := hkeyed.eq hstage hother hkey
    exact ⟨hg other, rfl, rfl⟩

theorem RowsAdded.stageStep (hkeyed : s.StagesKeyed) (h : RowsAdded s s') :
  StageStep op s s'
  := by
  obtain ⟨rows, hrows⟩ := h.stages
  use h.keyed hkeyed
  intro stage hstage stage' hstage' hkey
  have hmem : stage ∈ s'.stages := by
    rw [hrows]
    apply List.mem_append_left _ hstage
  obtain rfl := (h.keyed hkeyed).eq hmem hstage' hkey
  exact ⟨RowStep.refl, h.parts stage' hstage⟩

/-- The stages with the keys `removed` are removed with their inputs and outputs. -/
theorem stageStep_of_removed (hkeyed : s.StagesKeyed) (removed : RunId × Nat → Bool)
    {p : DenominationStage → Bool} (hp : ∀ stage ∈ s.stages, p stage = removed stage.key)
    (hstages : s'.stages = deleteWhere p s.stages)
    (hinputs : s'.stageInputs
      = deleteWhere (fun row => removed (row.runId, row.stageIndex)) s.stageInputs)
    (houtputs : s'.stageOutputs
      = deleteWhere (fun row => removed (row.runId, row.stageIndex)) s.stageOutputs) :
  StageStep op s s'
  := by
  constructor
  · constructor
    · rw [hstages]
      apply hkeyed.stages.sublist map_deleteWhere_sublist
    · rw [hinputs]
      apply hkeyed.inputs.sublist map_deleteWhere_sublist
  · intro stage hstage stage' hstage' hkey
    rw [hstages, mem_deleteWhere] at hstage'
    obtain ⟨hmem, hkept⟩ := hstage'
    obtain rfl := hkeyed.eq hstage hmem hkey
    rw [hp stage' hmem] at hkept
    use RowStep.refl
    constructor
    · rw [inputsOfStage, inputsOfStage, hinputs, deleteWhere, List.filter_filter]
      apply List.filter_congr
      intro input _
      by_cases hinput : (input.runId, input.stageIndex) = stage'.key
      · simp [hinput, hkept]
      · have : ¬(input.runId = stage'.key.1 ∧ input.stageIndex = stage'.key.2) :=
          fun h => hinput (Prod.ext h.1 h.2)
        simp [this]
    · rw [outputsOfStage, outputsOfStage, houtputs, deleteWhere, List.filter_filter]
      apply List.filter_congr
      intro output _
      by_cases houtput : (output.runId, output.stageIndex) = stage'.key
      · simp [houtput, hkept]
      · have : ¬(output.runId = stage'.key.1 ∧ output.stageIndex = stage'.key.2) :=
          fun h => houtput (Prod.ext h.1 h.2)
        simp [this]

theorem discardUnsubmittedPreparationStages_stageStep (hkeyed : s.StagesKeyed) :
  StageStep op s (s.discardUnsubmittedPreparationStages r)
  := by
  apply stageStep_of_removed hkeyed (fun key => key.1 = r && (s.stagesOf r).any fun stage =>
    stage.stageIndex = key.2 && stage.state.unsubmitted) _ rfl rfl rfl
  intro stage hstage
  rw [Bool.eq_iff_iff]
  simp only [Bool.and_eq_true, decide_eq_true_eq, List.any_eq_true]
  constructor
  · rintro ⟨hrun, hunsubmitted⟩
    refine ⟨hrun, stage, List.mem_filter.mpr ⟨hstage, by simpa using hrun⟩, rfl, hunsubmitted⟩
  · rintro ⟨hrun, other, hother, hindex, hunsubmitted⟩
    obtain ⟨hother, hrun'⟩ := List.mem_filter.mp hother
    rw [decide_eq_true_eq] at hrun'
    obtain rfl := hkeyed.eq hstage hother (Prod.ext (hrun'.trans hrun.symm) hindex)
    exact ⟨hrun, hunsubmitted⟩

/-- Every statement keeps what was signed, and lowers a status only by a reset. -/
theorem stageStep_stageStep (hkeyed : s.StagesKeyed) :
  StageStep op s (s.stageStep op)
  := by
  unfold stageStep committed
  split
  · rename_i s' hs'
    by_cases hop : StageOp.updates op = true
    · apply (applyStage_rowsStep hop hs').stageStep hkeyed
    · cases op with
      | insertDenominationStages r stages =>
        apply (insertDenominationStages_rowsAdded hs').stageStep hkeyed
      | discardUnsubmittedPreparationStages r =>
        cases hs'
        apply discardUnsubmittedPreparationStages_stageStep hkeyed
      | deleteAccountMigrationRows account =>
        cases hs'
        apply stageStep_of_removed hkeyed (fun key => s.runs.any fun run =>
          run.accountUuid = account && run.runId = key.1) _ rfl rfl rfl
        intro stage _
        rfl
      | others t =>
        cases hs'
        apply stageStep_of_sameTables hkeyed
        all_goals rfl
      | _ => exact absurd rfl hop
  · apply stageStep_of_sameTables hkeyed rfl rfl rfl

/-! ### Every run -/

theorem stagesKeyed_empty : StagesKeyed {}
  := ⟨List.nodup_nil, List.nodup_nil⟩

theorem stagesKeyed_after {ops : List StageOp} (hkeyed : s.StagesKeyed) :
  (after stageStep s ops).StagesKeyed
  := by
  induction ops generalizing s with
  | nil => exact hkeyed
  | cons op ops ih => exact ih (stageStep_stageStep hkeyed).keyed

/-- What was signed of a stage stays with it for as long as it is in the table. -/
theorem signed_after {ops : List StageOp} (hkeyed : s.StagesKeyed) (hstage : stage ∈ s.stages)
    (hops : Along stageStep (fun s op => stage.key ∈ (s.stageStep op).stages.map (·.key)) s
      ops) :
  ∃ stage' ∈ (after stageStep s ops).stages, stage'.key = stage.key
    ∧ stage'.basePczt = stage.basePczt ∧ stage'.sigs = stage.sigs
    ∧ SameParts s (after stageStep s ops) stage.key
  := by
  induction ops generalizing s stage with
  | nil => exact ⟨stage, hstage, rfl, rfl, rfl, rfl, rfl⟩
  | cons op ops ih =>
    obtain ⟨hmem, hrest⟩ := hops
    obtain ⟨next, hnext, hkey⟩ := List.mem_map.mp hmem
    have hstep : StageStep op s (s.stageStep op) := stageStep_stageStep hkeyed
    obtain ⟨hrow, hparts⟩ := hstep.rows stage hstage next hnext hkey
    rw [← hkey] at hrest
    obtain ⟨last, hlast, hkey', hbase, hsigs, hparts'⟩ := ih hstep.keyed hnext hrest
    refine ⟨last, hlast, hkey'.trans hkey, ?_, ?_, ?_⟩
    · rw [hbase, hrow.signed]
    · rw [hsigs, hrow.signed]
    · rw [hkey] at hparts'
      exact ⟨hparts'.inputs.trans hparts.inputs, hparts'.outputs.trans hparts.outputs⟩

/-- The outputs that are locked for a run are the inputs of its stages that are not
confirmed. -/
theorem mem_lockedDenominationStageInputOutpoints {o : OutPoint} :
  o ∈ s.lockedDenominationStageInputOutpoints r
    ↔ ∃ stage ∈ s.stagesOf r, stage.state.status ≠ .confirmed
      ∧ ∃ input ∈ s.inputsOfStage r stage.stageIndex, input.outpoint = o
  := by
  simp only [lockedDenominationStageInputOutpoints, inputsOfStage, stagesOf, List.mem_toFinset,
    List.mem_map, List.mem_filter, List.any_eq_true, Bool.and_eq_true, decide_eq_true_eq]
  constructor
  · rintro ⟨input, ⟨hinput, hrun, stage, hstage, ⟨hrun', hindex⟩, hstatus⟩, rfl⟩
    exact ⟨stage, ⟨hstage, hrun'.trans hrun⟩, hstatus, input, ⟨hinput, hrun, hindex.symm⟩, rfl⟩
  · rintro ⟨stage, ⟨hstage, hrun'⟩, hstatus, input, ⟨hinput, hrun, hindex⟩, rfl⟩
    exact ⟨input, ⟨hinput, hrun, stage, hstage, ⟨hrun'.trans hrun.symm, hindex.symm⟩, hstatus⟩,
      rfl⟩

/-- An input of a stage is locked exactly when the stage is not confirmed. -/
theorem StagesKeyed.locked_iff (hkeyed : s.StagesKeyed) (hstage : stage ∈ s.stages)
    {input : StageInput} (hinput : input ∈ s.inputsOfStage stage.runId stage.stageIndex) :
  input.outpoint ∈ s.lockedDenominationStageInputOutpoints stage.runId
    ↔ stage.state.status ≠ .confirmed
  := by
  rw [mem_lockedDenominationStageInputOutpoints]
  constructor
  · rintro ⟨other, hother, hstatus, input', hinput', houtpoint⟩
    obtain ⟨hmem, hsel⟩ := List.mem_filter.mp hinput
    obtain ⟨hmem', hsel'⟩ := List.mem_filter.mp hinput'
    obtain ⟨hother, hrun⟩ := List.mem_filter.mp hother
    simp only [Bool.and_eq_true, decide_eq_true_eq] at hsel hsel' hrun
    obtain rfl : input' = input := by
      apply List.inj_on_of_nodup_map hkeyed.inputs hmem' hmem
      rw [hsel.1, hsel'.1, houtpoint]
    obtain rfl := hkeyed.eq hstage hother
      (Prod.ext hrun (hsel'.2.symm.trans hsel.2))
    apply hstatus
  · intro hstatus
    exact ⟨stage, List.mem_filter.mpr ⟨hstage, by simp⟩, hstatus, input, hinput, rfl⟩

/-- In every state that a sequence of statements reaches, the columns of every stage agree
with its status; the next statement, whatever it is, lowers the status of a stage only by a
reset, leaves a confirmed stage as it is when it comes from a broadcast, and keeps what was
signed, which stays with the stage for as long as it is in the table; and the locked outputs
of a run are the inputs of its stages that are not confirmed. -/
theorem stage_status_machine (ops : List StageOp) :
  (∀ stage ∈ (after stageStep {} ops).stages,
      ((stage.state.columns.status = .pending ∨ stage.state.columns.status = .broadcasted) →
          stage.state.columns.encryptedRawTx.isSome)
        ∧ (stage.state.columns.status = .awaitingInputs →
          stage.state.columns.encryptedRawTx = none)
        ∧ (stage.state.columns.status = .confirmed
          ↔ stage.state.columns.confirmedMinedHeight.isSome)
        ∧ (stage.state.columns.status = .confirmed
          ↔ stage.state.columns.confirmedBlockHash.isSome))
    ∧ (∀ op, ∀ stage ∈ (after stageStep {} ops).stages,
      ∀ stage' ∈ (after stageStep {} (ops ++ [op])).stages, stage'.key = stage.key →
        (stage.state.status.rank ≤ stage'.state.status.rank ∨ op.resets stage)
        ∧ (op.isBroadcastCallback = true → stage.state.status = .confirmed → stage' = stage))
    ∧ (∀ later, ∀ stage ∈ (after stageStep {} ops).stages,
      Along stageStep (fun s op => stage.key ∈ (s.stageStep op).stages.map (·.key))
        (after stageStep {} ops) later →
      ∃ stage' ∈ (after stageStep {} (ops ++ later)).stages, stage'.key = stage.key
        ∧ stage'.basePczt = stage.basePczt ∧ stage'.sigs = stage.sigs
        ∧ SameParts (after stageStep {} ops) (after stageStep {} (ops ++ later)) stage.key)
    ∧ (∀ r o, o ∈ (after stageStep {} ops).lockedDenominationStageInputOutpoints r
      ↔ ∃ stage ∈ (after stageStep {} ops).stagesOf r, stage.state.status ≠ .confirmed
        ∧ ∃ input ∈ (after stageStep {} ops).inputsOfStage r stage.stageIndex,
          input.outpoint = o)
    ∧ ∀ stage ∈ (after stageStep {} ops).stages,
      ∀ input ∈ (after stageStep {} ops).inputsOfStage stage.runId stage.stageIndex,
        (input.outpoint ∈ (after stageStep {} ops).lockedDenominationStageInputOutpoints
            stage.runId ↔ stage.state.status ≠ .confirmed)
  := by
  have hkeyed : (after stageStep {} ops).StagesKeyed := stagesKeyed_after stagesKeyed_empty
  refine ⟨?_, ?_, ?_, ?_, ?_⟩
  · intro stage _
    obtain ⟨hraw, hidentity⟩ := stage.state.columns_checked
    cases hstatus : stage.state.columns.status <;>
      simp_all [← Option.isSome_iff_ne_none]
  · intro op stage hstage stage' hstage' hkey
    rw [after_append, after_cons, after_nil] at hstage'
    obtain ⟨hrow, -⟩ := (stageStep_stageStep hkeyed).rows stage hstage stage' hstage' hkey
    exact ⟨hrow.rank, hrow.callback⟩
  · intro later stage hstage hlater
    rw [after_append]
    apply signed_after hkeyed hstage hlater
  · intro r o
    apply mem_lockedDenominationStageInputOutpoints
  · intro stage hstage input hinput
    apply hkeyed.locked_iff hstage hinput

/-- The columns of a stage that was inserted without a transaction, and got one. -/
example : (after stageStep {} [
      .insertDenominationStages 1 [⟨0, [1], [], none, 7, 100, 100, 140, 10, .awaitingInputs,
        [⟨5, 0, 60, 2, none⟩], [⟨0, 50, 2, .continuation, none⟩]⟩],
      .promoteAwaitingDenominationStage 1 0 7 [2]]).stages.map (·.state.columns)
    = [⟨.pending, some [2], none, none⟩]
  := by decide

end Store

end Vizor
