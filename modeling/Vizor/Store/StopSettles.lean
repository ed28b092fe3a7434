import Mathlib.Data.List.ReduceOption
import Vizor.Store.ChainState
import Vizor.Store.OnOpen
import Vizor.Store.Stop

/-!
# What a stop settles

A stop that succeeds has looked for every transaction that is on record: it has found it and
stored it, or has seen that it is absent after its expiry.
-/

namespace Vizor

open Table Run

namespace Store

variable {s s' : Store} {r : RunId} {txid : Txid}

/-! ### Rows and stages of a transaction -/

/-- A pending transaction of the run that meets `P`. -/
def HasPending (s : Store) (r : RunId) (txid : Txid) (P : PendingTx → Prop) : Prop :=
  ∃ row ∈ s.pendingTxs, row.runId = r ∧ row.txid = txid ∧ P row

/-- A stage of the run that meets `P`. -/
def HasStage (s : Store) (r : RunId) (txid : Txid) (P : DenominationStage → Prop) : Prop :=
  ∃ stage ∈ s.stages, stage.runId = r ∧ stage.expectedTxid = txid ∧ P stage

variable {P Q : PendingTx → Prop} {P' Q' : DenominationStage → Prop}

theorem HasPending.of_eq (h : s.HasPending r txid P) (hs : s'.pendingTxs = s.pendingTxs)
    (hP : ∀ row, P row → Q row) :
  s'.HasPending r txid Q
  := by
  obtain ⟨row, hrow, hid, htxid, hp⟩ := h
  refine ⟨row, ?_, hid, htxid, hP row hp⟩
  rw [hs]
  apply hrow

theorem HasStage.of_eq (h : s.HasStage r txid P') (hs : s'.stages = s.stages)
    (hP : ∀ stage, stage.expectedTxid = txid → P' stage → Q' stage) :
  s'.HasStage r txid Q'
  := by
  obtain ⟨stage, hstage, hid, htxid, hp⟩ := h
  refine ⟨stage, ?_, hid, htxid, hP stage htxid hp⟩
  rw [hs]
  apply hstage

/-- Rows that are updated one by one. -/
theorem HasPending.map (h : s.HasPending r txid P) {f : PendingTx → PendingTx}
    (hs : s'.pendingTxs = s.pendingTxs.map f)
    (hf : ∀ row, row.txid = txid → P row →
      (f row).runId = row.runId ∧ (f row).txid = row.txid ∧ Q (f row)) :
  s'.HasPending r txid Q
  := by
  obtain ⟨row, hrow, hid, htxid, hp⟩ := h
  obtain ⟨hfid, hftxid, hq⟩ := hf row htxid hp
  refine ⟨f row, ?_, hfid.trans hid, hftxid.trans htxid, hq⟩
  rw [hs]
  apply List.mem_map_of_mem hrow

/-- Stages that are updated one by one. -/
theorem HasStage.map (h : s.HasStage r txid P') {f : DenominationStage → DenominationStage}
    (hs : s'.stages = s.stages.map f)
    (hf : ∀ stage, stage.runId = r → stage.expectedTxid = txid → P' stage →
      (f stage).runId = stage.runId ∧ (f stage).expectedTxid = stage.expectedTxid
        ∧ Q' (f stage)) :
  s'.HasStage r txid Q'
  := by
  obtain ⟨stage, hstage, hid, htxid, hp⟩ := h
  obtain ⟨hfid, hftxid, hq⟩ := hf stage hid htxid hp
  refine ⟨f stage, ?_, hfid.trans hid, hftxid.trans htxid, hq⟩
  rw [hs]
  apply List.mem_map_of_mem hstage

/-- A transaction that a query with other keys updates, or this one. -/
theorem HasPending.update (h : s.HasPending r txid P) {p : PendingTx → Bool}
    {f : PendingTx → PendingTx} (hs : s'.pendingTxs = updateWhere p f s.pendingTxs)
    (hf : ∀ row, row.txid = txid → P row → if p row then
      (f row).runId = row.runId ∧ (f row).txid = row.txid ∧ Q (f row) else Q row) :
  s'.HasPending r txid Q
  := by
  apply h.map hs
  intro row htxid hp
  have hrow := hf row htxid hp
  split
  · rename_i hsel
    rw [if_pos hsel] at hrow
    apply hrow
  · rename_i hsel
    rw [if_neg hsel] at hrow
    exact ⟨rfl, rfl, hrow⟩

theorem HasStage.update (h : s.HasStage r txid P') {p : DenominationStage → Bool}
    {f : DenominationStage → DenominationStage} (hs : s'.stages = updateWhere p f s.stages)
    (hf : ∀ stage, stage.runId = r → stage.expectedTxid = txid → P' stage → if p stage then
      (f stage).runId = stage.runId ∧ (f stage).expectedTxid = stage.expectedTxid ∧ Q' (f stage)
        else Q' stage) :
  s'.HasStage r txid Q'
  := by
  apply h.map hs
  intro stage hid htxid hp
  have hstage := hf stage hid htxid hp
  split
  · rename_i hsel
    rw [if_pos hsel] at hstage
    apply hstage
  · rename_i hsel
    rw [if_neg hsel] at hstage
    exact ⟨rfl, rfl, hstage⟩

/-! ### What the statements do -/

theorem updateRunAfterPendingBroadcast_keeps (h : s.updateRunAfterPendingBroadcast r = .ok s') :
  s'.pendingTxs = s.pendingTxs ∧ s'.stages = s.stages
  := by
  obtain ⟨planned, -, h⟩ := bind_eq_ok.mp h
  obtain rfl := pure_eq_ok.mp h
  exact ⟨rfl, rfl⟩

/-- Recording a broadcast changes the status of its row. -/
theorem markPendingBroadcasted_rows (h : s.markPendingBroadcasted r txid = .ok s') :
  s'.pendingTxs = updateWhere (fun row => row.runId = r && row.txid = txid)
      (fun row => { row with status := .broadcasted }) s.pendingTxs
    ∧ s'.stages = s.stages
  := updateRunAfterPendingBroadcast_keeps h

theorem markPendingBroadcastAttempted_rows (h : s.markPendingBroadcastAttempted r txid = .ok s') :
  s'.pendingTxs = updateWhere
      (fun row => row.runId = r && row.txid = txid && row.status = .scheduled)
      (fun row => { row with broadcastAttempted := .attempted }) s.pendingTxs
    ∧ s'.stages = s.stages ∧ s'.runs = s.runs
    ∧ ∃ row ∈ s.pendingTxs, row.runId = r ∧ row.txid = txid ∧ row.status = .scheduled
  := by
  obtain ⟨_, hcount, h⟩ := bind_eq_ok.mp h
  obtain rfl := pure_eq_ok.mp h
  rw [ensure_eq_ok] at hcount
  refine ⟨rfl, rfl, rfl, ?_⟩
  obtain ⟨row, hrow, hsel⟩ := List.countP_pos_iff.mp (hcount ▸ Nat.one_pos)
  simp only [Bool.and_eq_true, decide_eq_true_eq] at hsel
  exact ⟨row, hrow, hsel.1.1, hsel.1.2, hsel.2⟩

theorem markDenominationBroadcastAttempted_rows
    (h : s.markDenominationBroadcastAttempted r txid = .ok s') :
  s'.stages = updateWhere (fun stage => isStage r txid stage && stage.state.status = .pending)
      (fun stage => { stage with broadcastAttempted := .attempted }) s.stages
    ∧ s'.pendingTxs = s.pendingTxs ∧ s'.runs = s.runs
    ∧ ∃ stage ∈ s.stages, stage.runId = r ∧ stage.expectedTxid = txid
      ∧ stage.state.status = .pending
  := by
  obtain ⟨_, hcount, h⟩ := bind_eq_ok.mp h
  obtain rfl := pure_eq_ok.mp h
  rw [ensure_eq_ok] at hcount
  refine ⟨rfl, rfl, rfl, ?_⟩
  obtain ⟨stage, hstage, hsel⟩ := List.countP_pos_iff.mp (hcount ▸ Nat.one_pos)
  simp only [isStage, Bool.and_eq_true, decide_eq_true_eq] at hsel
  exact ⟨stage, hstage, hsel.1.1, hsel.1.2, hsel.2⟩

/-- The transaction of a stage was broadcast. -/
def StageSubmitted (stage : DenominationStage) : Prop :=
  stage.state.status = .broadcasted ∨ stage.state.status = .confirmed

/-- Recording the broadcast of a stage changes the status of the stage, unless it was
recorded before. -/
theorem markDenominationStageBroadcasted_rows
    (h : s.markDenominationStageBroadcasted r txid = .ok s') :
  (s'.stages = updateWhere (fun stage => isStage r txid stage && stage.state.status = .pending)
        (fun stage => { stage with state := .broadcasted (stage.state.rawTx.getD []) }) s.stages
      ∨ s'.stages = s.stages)
    ∧ s'.pendingTxs = s.pendingTxs
    ∧ s'.HasStage r txid StageSubmitted
  := by
  rw [markDenominationStageBroadcasted] at h
  split at h
  · rename_i hcount
    cases h
    refine ⟨.inl rfl, rfl, ?_⟩
    obtain ⟨stage, hstage, hsel⟩ := List.countP_pos_iff.mp (hcount ▸ Nat.one_pos)
    have hkeys := hsel
    simp only [isStage, Bool.and_eq_true, decide_eq_true_eq] at hkeys
    refine ⟨{ stage with state := .broadcasted (stage.state.rawTx.getD []) }, ?_, hkeys.1.1,
      hkeys.1.2, .inl rfl⟩
    apply mem_updateWhere.mpr
    exact ⟨stage, hstage, if_pos hsel⟩
  · simp only [bind_eq_ok, pure_eq_ok, okOr_eq_ok, ensure_eq_ok] at h
    obtain ⟨stage, hfound, _, hstatus, rfl⟩ := h
    have hkeys := List.find?_some hfound
    simp only [isStage, Bool.and_eq_true, decide_eq_true_eq] at hkeys
    exact ⟨.inr rfl, rfl, stage, List.mem_of_find?_eq_some hfound, hkeys.1, hkeys.2, hstatus⟩

/-- New delays for the stages change their delays. -/
theorem completeDenominationBroadcast_rows {overdue : Bool} {chainTipHeight : Nat}
    {delays : Nat → Nat}
    (h : s.completeDenominationBroadcast r txid overdue chainTipHeight delays = .ok s') :
  ∃ t g, s.markDenominationStageBroadcasted r txid = .ok t
    ∧ s'.stages = t.stages.map g ∧ s'.pendingTxs = t.pendingTxs ∧ s'.runs = t.runs
    ∧ ∀ stage, Delayed r stage (g stage)
  := by
  obtain ⟨t, ht, h⟩ := bind_eq_ok.mp h
  refine ⟨t, ?_⟩
  split at h
  · obtain ⟨run, hrun, -⟩ := bind_eq_ok.mp h
    rcases rerandomize_cases (okOr_eq_ok.mp hrun) chainTipHeight delays
      with ⟨g, hg, hdelayed⟩ | herror
    · rw [hg] at h
      cases h
      exact ⟨g, ht, rfl, rfl, rfl, hdelayed⟩
    · rw [herror] at h
      cases h
  · obtain rfl := pure_eq_ok.mp h
    exact ⟨id, ht, by simp, rfl, rfl, fun _ => ⟨rfl, fun _ => rfl⟩⟩

/-! ### What is on record -/

/-- There is a row or a stage for a transaction. -/
def Present (s : Store) (r : RunId) (txid : Txid) : MigrationStopCandidateKind → Prop
  | .migrationTransaction => s.HasPending r txid fun _ => True
  | .denominationStage => s.HasStage r txid fun _ => True

/-- The row or the stage of a transaction says that it was broadcast. -/
def Submitted (s : Store) (r : RunId) (txid : Txid) : MigrationStopCandidateKind → Prop
  | .migrationTransaction => s.HasPending r txid fun row => row.status = .broadcasted
  | .denominationStage => s.HasStage r txid StageSubmitted

/-- The row or the stage of a transaction, or the outbox, says that there may have been an
attempt to broadcast it. -/
def Attempted (s : Store) (r : RunId) (native : List Txid) (txid : Txid) :
    MigrationStopCandidateKind → Prop
  | .migrationTransaction => s.HasPending r txid fun row =>
    row.status = .scheduled ∧ (row.broadcastAttempted ≠ .notAttempted ∨ txid ∈ native)
  | .denominationStage => s.HasStage r txid fun stage =>
    stage.state.status = .pending ∧ stage.broadcastAttempted ≠ .notAttempted

/-- The row or the stage of a transaction expires, at a height that the tip has reached. -/
def ExpiredAt (s : Store) (r : RunId) (chainTipHeight : Nat) (txid : Txid) :
    MigrationStopCandidateKind → Prop
  | .migrationTransaction => s.HasPending r txid fun row =>
    0 < row.expiryHeight ∧ row.expiryHeight ≤ chainTipHeight
  | .denominationStage => s.HasStage r txid fun stage =>
    0 < stage.expiryHeight ∧ stage.expiryHeight ≤ chainTipHeight

/-- The run was not stopped. -/
def Running (s : Store) (r : RunId) : Prop :=
  ∀ run ∈ s.runs, run.runId = r → run.phase ≠ .abandoned

variable {native : List Txid} {kind : MigrationStopCandidateKind}

theorem Running.updateRuns {p : MigrationRun → Bool} {f : MigrationRun → MigrationRun}
    (h : s.Running r) (hf : ∀ run, (f run).phase ≠ .abandoned) :
  (s.updateRuns p f).Running r
  := by
  intro run hrun hr
  obtain ⟨run', hrun', rfl⟩ := mem_updateWhere.mp hrun
  cases hp : p run' with
  | true => apply hf
  | false =>
    rw [hp] at hr
    apply h run' hrun' hr

/-- A run that moves on after a broadcast was not stopped. -/
theorem Running.updateRunAfterPendingBroadcast (h : s.Running r)
    (hs : s.updateRunAfterPendingBroadcast r = .ok s') :
  s'.Running r
  := by
  obtain ⟨planned, -, hs⟩ := bind_eq_ok.mp hs
  obtain rfl := pure_eq_ok.mp hs
  apply Running.updateRuns h
  intro run
  change s.phaseAfterPendingBroadcast r planned ≠ .abandoned
  rw [phaseAfterPendingBroadcast]
  split
  · simp
  · split <;> simp

theorem Running.of_runs (h : s.Running r) (hs : s'.runs = s.runs) :
  s'.Running r
  := by
  intro run hrun
  rw [hs] at hrun
  apply h run hrun

/-- What is on record stays on record when the rows and the stages stay. -/
theorem Attempted.of_eq {native' : List Txid} (h : s.Attempted r native txid kind)
    (hpending : s'.pendingTxs = s.pendingTxs) (hstages : s'.stages = s.stages)
    (hnative : native ⊆ native') :
  s'.Attempted r native' txid kind
  := by
  cases kind with
  | migrationTransaction =>
    apply h.of_eq hpending
    intro row hrow
    exact ⟨hrow.1, hrow.2.imp_right fun hmem => hnative hmem⟩
  | denominationStage =>
    apply h.of_eq hstages
    intro stage _ hstage
    apply hstage

theorem Submitted.of_eq (h : s.Submitted r txid kind) (hpending : s'.pendingTxs = s.pendingTxs)
    (hstages : s'.stages = s.stages) :
  s'.Submitted r txid kind
  := by
  cases kind with
  | migrationTransaction => exact h.of_eq hpending fun _ hrow => hrow
  | denominationStage => exact h.of_eq hstages fun _ _ hstage => hstage

theorem Present.of_eq (h : s.Present r txid kind) (hpending : s'.pendingTxs = s.pendingTxs)
    (hstages : s'.stages = s.stages) :
  s'.Present r txid kind
  := by
  cases kind with
  | migrationTransaction => exact h.of_eq hpending fun _ hrow => hrow
  | denominationStage => exact h.of_eq hstages fun _ _ hstage => hstage

/-! ### Marks -/

/-- Nothing on record is lost. -/
structure Keeps (r : RunId) (s s' : Store) : Prop where
  running : s.Running r → s'.Running r
  present : ∀ txid kind, s.Present r txid kind → s'.Present r txid kind
  submitted : ∀ txid kind, s.Submitted r txid kind → s'.Submitted r txid kind

theorem Keeps.refl :
  Keeps r s s
  := ⟨id, fun _ _ => id, fun _ _ => id⟩

theorem Keeps.trans {s'' : Store} (h : Keeps r s s') (h' : Keeps r s' s'') :
  Keeps r s s''
  := ⟨fun hs => h'.running (h.running hs),
    fun txid kind hs => h'.present txid kind (h.present txid kind hs),
    fun txid kind hs => h'.submitted txid kind (h.submitted txid kind hs)⟩

/-- Changes of the runs lose nothing on record. -/
theorem keeps_of_runs (hrunning : s.Running r → s'.Running r)
    (hpending : s'.pendingTxs = s.pendingTxs) (hstages : s'.stages = s.stages) :
  Keeps r s s'
  := ⟨hrunning, fun _ _ hs => hs.of_eq hpending hstages, fun _ _ hs => hs.of_eq hpending hstages⟩

/-- The phases that a broadcast writes. -/
theorem markRunPhase_keeps {phase : Phase} {message : Option String}
    (hphase : phase ≠ .abandoned) :
  Keeps r s (s.markRunPhase r phase message)
  := by
  refine keeps_of_runs ?_ rfl rfl
  intro hs
  apply Running.updateRuns hs
  intro run
  apply hphase

/-- Recording a broadcast loses nothing. -/
theorem markPendingBroadcasted_keeps (h : s.markPendingBroadcasted r txid = .ok s') :
  Keeps r s s'
  := by
  obtain ⟨hpending, hstages⟩ := markPendingBroadcasted_rows h
  constructor
  · intro hs
    apply Running.updateRunAfterPendingBroadcast _ h
    apply hs
  · intro txid' kind hs
    cases kind with
    | migrationTransaction =>
      apply HasPending.update hs hpending
      intro row _ _
      split <;> simp
    | denominationStage => exact HasStage.of_eq hs hstages fun _ _ hstage => hstage
  · intro txid' kind hs
    cases kind with
    | migrationTransaction =>
      apply HasPending.update hs hpending
      intro row _ hrow
      split
      · simp
      · apply hrow
    | denominationStage => exact HasStage.of_eq hs hstages fun _ _ hstage => hstage

/-- A transaction is marked as broadcast. -/
theorem markPendingBroadcasted_submitted (h : s.markPendingBroadcasted r txid = .ok s')
    (hs : s.Present r txid .migrationTransaction) :
  s'.Submitted r txid .migrationTransaction
  := by
  obtain ⟨row, hrow, hid, htxid, -⟩ := hs
  refine ⟨{ row with status := .broadcasted }, ?_, hid, htxid, rfl⟩
  rw [(markPendingBroadcasted_rows h).1]
  apply mem_updateWhere.mpr
  refine ⟨row, hrow, if_pos ?_⟩
  simp [hid, htxid]

theorem markDenominationStageBroadcasted_keeps
    (h : s.markDenominationStageBroadcasted r txid = .ok s') :
  Keeps r s s'
  := by
  have hruns : s'.runs = s.runs := by
    rw [markDenominationStageBroadcasted] at h
    split at h
    · cases h
      rfl
    · simp only [bind_eq_ok, pure_eq_ok] at h
      obtain ⟨_, -, _, -, rfl⟩ := h
      rfl
  obtain ⟨hstages, hpending, -⟩ := markDenominationStageBroadcasted_rows h
  rcases hstages with hstages | hstages
  · constructor
    · intro hs
      apply hs.of_runs hruns
    · intro txid' kind hs
      cases kind with
      | migrationTransaction => exact HasPending.of_eq hs hpending fun _ hrow => hrow
      | denominationStage =>
        apply HasStage.update hs hstages
        intro stage _ _ _
        split <;> simp
    · intro txid' kind hs
      cases kind with
      | migrationTransaction => exact HasPending.of_eq hs hpending fun _ hrow => hrow
      | denominationStage =>
        apply HasStage.update hs hstages
        intro stage _ _ hstage
        split
        · exact ⟨rfl, rfl, .inl rfl⟩
        · apply hstage
  · apply keeps_of_runs (fun hs => hs.of_runs hruns) hpending hstages

/-- What was submitted stays so when its rows and stages stay. -/
theorem Submitted.of_mem (h : s.Submitted r txid kind)
    (hpending : ∀ row ∈ s.pendingTxs, row.status = .broadcasted → row ∈ s'.pendingTxs)
    (hstages : ∀ stage ∈ s.stages, StageSubmitted stage → stage ∈ s'.stages) :
  s'.Submitted r txid kind
  := by
  cases kind with
  | migrationTransaction =>
    obtain ⟨row, hrow, hid, htxid, hstatus⟩ := h
    exact ⟨row, hpending row hrow hstatus, hid, htxid, hstatus⟩
  | denominationStage =>
    obtain ⟨stage, hstage, hid, htxid, hstatus⟩ := h
    exact ⟨stage, hstages stage hstage hstatus, hid, htxid, hstatus⟩

/-- The stop removes nothing that was submitted. -/
theorem abandonRun_submitted {account : AccountUuid} {network : WalletNetwork}
    (h : s.abandonRun account network r = .ok s') (hs : s.Submitted r txid kind) :
  s'.Submitted r txid kind
  := by
  obtain ⟨run, -, h⟩ := bind_eq_ok.mp h
  obtain ⟨_, -, h⟩ := bind_eq_ok.mp h
  split at h
  · obtain rfl := pure_eq_ok.mp h
    apply hs
  · obtain ⟨_, -, h⟩ := bind_eq_ok.mp h
    obtain rfl := pure_eq_ok.mp h
    apply hs.of_mem
    · intro row hrow hstatus
      apply mem_deleteWhere.mpr
      simp [hstatus, hrow, deleteSignedChildren, updateRuns]
    · intro stage hstage _
      apply hstage

theorem discardUnsubmittedPreparationStages_submitted (hs : s.Submitted r txid kind) :
  (s.discardUnsubmittedPreparationStages r).Submitted r txid kind
  := by
  apply hs.of_mem
  · intro row hrow _
    apply hrow
  · intro stage hstage hstatus
    apply mem_deleteWhere.mpr
    refine ⟨hstage, ?_⟩
    rw [Bool.and_eq_false_iff]
    right
    unfold StageSubmitted at hstatus
    cases hstate : stage.state with
    | awaitingInputs => simp [hstate, DenominationStageState.status] at hstatus
    | pending rawTx => simp [hstate, DenominationStageState.status] at hstatus
    | broadcasted rawTx => rfl
    | confirmed rawTx identity => rfl

/-! ### The transactions that a stop reads -/

variable {view : ChainView} {account : AccountUuid} {network : WalletNetwork}
  {candidates : List MigrationStopCandidate}

/-- A stop of a run that was not stopped reads its rows and its stages. -/
theorem scheduledMigrationStopCandidates_eq_ok (hrunning : s.Running r)
    (h : s.scheduledMigrationStopCandidates view account network r = .ok candidates) :
  ∃ pending, (s.pendingStopRows r).mapM (pendingStopCandidate view) = .ok pending
    ∧ candidates = pending.reduceOption ++ (s.pendingStopStages r).map stageStopCandidate
  := by
  obtain ⟨run, hrun, h⟩ := bind_eq_ok.mp h
  obtain ⟨_, -, h⟩ := bind_eq_ok.mp h
  rw [okOr_eq_ok] at hrun
  have hphase : run.phase ≠ .abandoned := by
    apply hrunning run (List.mem_of_find?_eq_some hrun)
    simpa using List.find?_some hrun
  rw [if_neg hphase] at h
  obtain ⟨_, -, h⟩ := bind_eq_ok.mp h
  obtain ⟨pending, hpending, h⟩ := bind_eq_ok.mp h
  exact ⟨pending, hpending, (pure_eq_ok.mp h).symm⟩

theorem mem_pendingStopRows {row : PendingTx} :
  row ∈ s.pendingStopRows r ↔ row ∈ s.pendingTxs ∧ row.runId = r
    ∧ (row.status = .scheduled ∨ row.status = .broadcasted)
  := by
  simp [pendingStopRows, pendingOf, and_comm]

theorem mem_pendingStopStages {stage : DenominationStage} :
  stage ∈ s.pendingStopStages r ↔ stage ∈ s.stages ∧ stage.runId = r
    ∧ stage.state.status = .pending
  := by
  simp [pendingStopStages, stagesOf, and_comm]

/-- The candidate for a row. -/
def rowCandidate (row : PendingTx) (height : Nat) : MigrationStopCandidate where
  kind := .migrationTransaction
  txid := row.txid
  broadcastHeight := height
  expiryHeight := row.expiryHeight
  attemptState := if row.status = .broadcasted then .attempted else row.broadcastAttempted

theorem pendingStopCandidate_eq_ok {row : PendingTx} {c : Option MigrationStopCandidate} :
  pendingStopCandidate view row = .ok c ↔ ∃ height, row.scheduledHeight = some height
    ∧ c = if row.status = .broadcasted ∧ view.localTransactionRaw row.txid = true then none
      else some (rowCandidate row height)
  := by
  unfold pendingStopCandidate rowCandidate
  rw [bind_eq_ok]
  apply exists_congr
  intro height
  rw [okOr_eq_ok, pure_eq_ok, eq_comm (b := c)]
  simp only [Bool.and_eq_true, decide_eq_true_eq]

/-- A row that was scheduled or broadcast is stored, or the stop reads it. -/
theorem candidate_of_row (hrunning : s.Running r)
    (h : s.scheduledMigrationStopCandidates view account network r = .ok candidates)
    {row : PendingTx} (hrow : row ∈ s.pendingTxs) (hid : row.runId = r)
    (hstatus : row.status = .scheduled ∨ row.status = .broadcasted) :
  row.status = .broadcasted ∧ view.localTransactionRaw row.txid = true
    ∨ ∃ height, row.scheduledHeight = some height ∧ rowCandidate row height ∈ candidates
  := by
  obtain ⟨pending, hpending, rfl⟩ := scheduledMigrationStopCandidates_eq_ok hrunning h
  obtain ⟨c, hc, hread⟩ := mem_of_mapM_eq_ok hpending row
    (mem_pendingStopRows.mpr ⟨hrow, hid, hstatus⟩)
  obtain ⟨height, hheight, rfl⟩ := pendingStopCandidate_eq_ok.mp hread
  split at hc
  · rename_i hstored
    exact .inl hstored
  · refine .inr ⟨height, hheight, List.mem_append_left _ ?_⟩
    apply List.reduceOption_mem_iff.mpr hc

/-- The stop reads a stage that waits to be broadcast. -/
theorem candidate_of_stage (hrunning : s.Running r)
    (h : s.scheduledMigrationStopCandidates view account network r = .ok candidates)
    {stage : DenominationStage} (hstage : stage ∈ s.stages) (hid : stage.runId = r)
    (hstatus : stage.state.status = .pending) :
  stageStopCandidate stage ∈ candidates
  := by
  obtain ⟨pending, -, rfl⟩ := scheduledMigrationStopCandidates_eq_ok hrunning h
  apply List.mem_append_right
  apply List.mem_map_of_mem
  apply mem_pendingStopStages.mpr
  exact ⟨hstage, hid, hstatus⟩

/-- The stop reads rows and stages. -/
theorem present_of_candidate (hrunning : s.Running r)
    (h : s.scheduledMigrationStopCandidates view account network r = .ok candidates)
    {c : MigrationStopCandidate} (hc : c ∈ candidates) :
  s.Present r c.txid c.kind
  := by
  obtain ⟨pending, hpending, rfl⟩ := scheduledMigrationStopCandidates_eq_ok hrunning h
  rcases List.mem_append.mp hc with hc | hc
  · obtain ⟨row, hrow, hread⟩ := exists_of_mem_mapM_eq_ok hpending (some c)
      (List.reduceOption_mem_iff.mp hc)
    obtain ⟨height, -, hcand⟩ := pendingStopCandidate_eq_ok.mp hread
    split at hcand
    · cases hcand
    · cases hcand
      obtain ⟨hrow, hid, -⟩ := mem_pendingStopRows.mp hrow
      exact ⟨row, hrow, hid, rfl, trivial⟩
  · obtain ⟨stage, hstage, rfl⟩ := List.mem_map.mp hc
    obtain ⟨hstage, hid, -⟩ := mem_pendingStopStages.mp hstage
    exact ⟨stage, hstage, hid, rfl, trivial⟩

end Store

/-! ### What a stop looks for -/

namespace WalletDb

variable {w w' w'' : WalletDb} {r : RunId} {txid : Txid} {kind : MigrationStopCandidateKind}
  {tip : Nat} {getTransaction : Txid → EndpointAnswer}

/-- Nothing on record is lost, and nothing that is stored. -/
structure Keeps (r : RunId) (w w' : WalletDb) : Prop where
  store : Store.Keeps r w.store w'.store
  known : ∀ txid, w.known txid = true → w'.known txid = true

theorem Keeps.refl :
  Keeps r w w
  := ⟨.refl, fun _ h => h⟩

theorem Keeps.trans (h : Keeps r w w') (h' : Keeps r w' w'') :
  Keeps r w w''
  := ⟨h.store.trans h'.store, fun txid hknown => h'.known txid (h.known txid hknown)⟩

theorem keeps_decryptAndStoreMigrationTx :
  Keeps r w (w.decryptAndStoreMigrationTx txid)
  := ⟨.refl, fun _ h => by simp [decryptAndStoreMigrationTx, scan, h]⟩

theorem known_decryptAndStoreMigrationTx :
  (w.decryptAndStoreMigrationTx txid).known txid = true
  := by
  simp [decryptAndStoreMigrationTx, scan, ChainView.holds]

/-- The transaction is stored, and its row or stage says that it was broadcast. -/
def Landed (w : WalletDb) (r : RunId) (txid : Txid) (kind : MigrationStopCandidateKind) : Prop :=
  w.known txid = true ∧ w.store.Submitted r txid kind

theorem Landed.keeps (h : w.Landed r txid kind) (hkeeps : Keeps r w w') :
  w'.Landed r txid kind
  := ⟨hkeeps.known txid h.1, hkeeps.store.submitted txid kind h.2⟩

/-- The endpoint does not have the transaction, which expired. -/
def Gone (getTransaction : Txid → EndpointAnswer) (tip : Nat) (c : MigrationStopCandidate) :
    Prop :=
  getTransaction c.txid = .notFound ∧ 0 < c.expiryHeight ∧ c.expiryHeight ≤ tip

/-- A transaction that is looked for has landed, or is gone. -/
theorem reconcileStopCandidate_settles {c : MigrationStopCandidate}
    (hget : ∀ actual error, getTransaction c.txid = .found actual error → actual = c.txid)
    (hpresent : w.store.Present r c.txid c.kind)
    (h : (w.reconcileStopCandidate r tip getTransaction c).2 = .ok ()) :
  Keeps r w (w.reconcileStopCandidate r tip getTransaction c).1
    ∧ ((w.reconcileStopCandidate r tip getTransaction c).1.Landed r c.txid c.kind
      ∨ Gone getTransaction tip c)
  := by
  unfold reconcileStopCandidate at h ⊢
  split at h
  · cases h
  · rename_i actual hfound
    obtain rfl := hget actual none hfound
    dsimp only at h ⊢
    split at h
    · rename_i hkind
      rw [hkind] at hpresent ⊢
      obtain ⟨s, hs, hw⟩ := commitUnit_eq_ok h
      have hkeeps : Keeps r (w.decryptAndStoreMigrationTx c.txid)
          ((w.decryptAndStoreMigrationTx c.txid).write s) :=
        ⟨Store.markPendingBroadcasted_keeps hs, fun _ h => h⟩
      rw [hw]
      refine ⟨keeps_decryptAndStoreMigrationTx.trans hkeeps, .inl ⟨?_, ?_⟩⟩
      · apply known_decryptAndStoreMigrationTx
      · apply Store.markPendingBroadcasted_submitted hs hpresent
    · rename_i hkind
      rw [hkind]
      obtain ⟨s, hs, hw⟩ := commitUnit_eq_ok h
      have hkeeps : Keeps r (w.decryptAndStoreMigrationTx c.txid)
          ((w.decryptAndStoreMigrationTx c.txid).write s) :=
        ⟨Store.markDenominationStageBroadcasted_keeps hs, fun _ h => h⟩
      rw [hw]
      refine ⟨keeps_decryptAndStoreMigrationTx.trans hkeeps, .inl ⟨?_, ?_⟩⟩
      · apply known_decryptAndStoreMigrationTx
      · apply (Store.markDenominationStageBroadcasted_rows hs).2.2
  · rename_i hnone
    split at h
    · rename_i hexpired
      rw [if_pos hexpired]
      simp only [migrationStopCandidateIsExpired, Bool.and_eq_true, decide_eq_true_eq] at hexpired
      exact ⟨.refl, .inr ⟨hnone, hexpired⟩⟩
    · split at h <;> cases h
  · cases h

/-- Every transaction that is looked for has landed, or is gone. -/
theorem reconcileStopCandidates_settles {candidates : List MigrationStopCandidate}
    (hget : ∀ txid actual error, getTransaction txid = .found actual error → actual = txid)
    (hpresent : ∀ c ∈ candidates, w.store.Present r c.txid c.kind)
    (h : (w.reconcileStopCandidates r tip getTransaction candidates).2 = .ok ()) :
  Keeps r w (w.reconcileStopCandidates r tip getTransaction candidates).1
    ∧ ∀ c ∈ candidates,
      (w.reconcileStopCandidates r tip getTransaction candidates).1.Landed r c.txid c.kind
        ∨ Gone getTransaction tip c
  := by
  induction candidates generalizing w with
  | nil => exact ⟨.refl, nofun⟩
  | cons c candidates ih =>
    rw [reconcileStopCandidates] at h ⊢
    obtain ⟨_, hc, h⟩ := afterOk_eq_ok.mp h
    rw [afterOk_of_ok hc]
    obtain ⟨hkeeps, hsettled⟩ := reconcileStopCandidate_settles (hget c.txid)
      (hpresent c List.mem_cons_self) hc
    obtain ⟨hkeeps', hsettled'⟩ := ih (fun c' hc' => hkeeps.store.present _ _
      (hpresent c' (List.mem_cons_of_mem _ hc'))) h
    refine ⟨hkeeps.trans hkeeps', ?_⟩
    intro c' hc'
    rcases List.mem_cons.mp hc' with rfl | hc'
    · apply hsettled.imp_left fun hlanded => hlanded.keeps hkeeps'
    · apply hsettled' c' hc'

variable {account : AccountUuid} {network : WalletNetwork} {native : List Txid}
  {endpoint : StopEndpoint}

/-- The endpoint does not have the transaction, at a height at which it has expired. -/
def Expired (w : WalletDb) (r : RunId) (endpoint : StopEndpoint) (txid : Txid)
    (kind : MigrationStopCandidateKind) : Prop :=
  endpoint.getTransaction txid = .notFound
    ∧ ∃ tip, endpoint.chainTipHeight = .ok tip ∧ w.store.ExpiredAt r tip txid kind

/-- A stop looks for every transaction that was attempted, and for one without a mark when the
endpoint has reached its height. -/
theorem reconcileBeforeAbandon_settles (hrunning : w.store.Running r)
    (hown : ∀ txid actual error,
      endpoint.getTransaction txid = .found actual error → actual = txid)
    (h : (w.reconcileScheduledMigrationTxsBeforeAbandon account network r native endpoint).2
      = .ok ()) :
  Keeps r w
      (w.reconcileScheduledMigrationTxsBeforeAbandon account network r native endpoint).1
    ∧ ∃ candidates,
      w.store.scheduledMigrationStopCandidates w.view account network r = .ok candidates
      ∧ ∀ c ∈ candidates, c.txid ∈ native ∨ c.attemptState ≠ .notAttempted →
        (c.attemptState = .unknownLegacy → ∀ tip, endpoint.chainTipHeight = .ok tip →
          c.broadcastHeight ≤ tip) →
        (w.reconcileScheduledMigrationTxsBeforeAbandon account network r native endpoint).1.Landed
            r c.txid c.kind
          ∨ ∃ tip, endpoint.chainTipHeight = .ok tip ∧ Gone endpoint.getTransaction tip c
  := by
  unfold reconcileScheduledMigrationTxsBeforeAbandon at h ⊢
  obtain ⟨candidates, hcandidates, h⟩ := afterOk_eq_ok.mp h
  rw [afterOk_of_ok hcandidates]
  dsimp only at h hcandidates ⊢
  split at h
  · rename_i hnone
    rw [if_pos hnone]
    refine ⟨.refl, candidates, hcandidates, ?_⟩
    intro c hc hattempted _
    rw [Bool.not_eq_true', List.any_eq_false] at hnone
    have hunattempted := hnone c hc
    simp only [Bool.or_eq_true, decide_eq_true_eq] at hunattempted
    exact absurd hattempted hunattempted
  · rename_i hany
    rw [if_neg hany]
    obtain ⟨tip, htip, h⟩ := afterOk_eq_ok.mp h
    rw [afterOk_of_ok htip]
    dsimp only at h htip ⊢
    have hpresent : ∀ c ∈ candidates.filter fun candidate =>
        migrationStopCandidateRequiresReconciliation candidate (candidate.txid ∈ native) tip,
        w.store.Present r c.txid c.kind := by
      intro c hc
      apply Store.present_of_candidate hrunning hcandidates (List.mem_filter.mp hc).1
    obtain ⟨hkeeps, hsettled⟩ := reconcileStopCandidates_settles hown hpresent h
    refine ⟨hkeeps, candidates, hcandidates, ?_⟩
    intro c hc hattempted hlegacy
    refine (hsettled c (List.mem_filter.mpr ⟨hc, ?_⟩)).imp_right fun hgone => ⟨tip, htip, hgone⟩
    unfold migrationStopCandidateRequiresReconciliation
    rcases hattempted with hnative | hattempted
    · simp [hnative]
    · rw [Bool.or_eq_true]
      right
      cases hstate : c.attemptState with
      | notAttempted => exact absurd hstate hattempted
      | attempted => rfl
      | unknownLegacy => exact decide_eq_true (hlegacy hstate tip htip)

/-- The transaction may be on the network, and the database or the outbox knows it. -/
def Tracked (w : WalletDb) (r : RunId) (native : List Txid) (txid : Txid)
    (kind : MigrationStopCandidateKind) : Prop :=
  w.store.Attempted r native txid kind
    ∨ w.store.Submitted r txid kind ∧ (kind = .denominationStage → w.known txid = true)

/-- The endpoint returns the transaction that it is asked for.  For what was handed over
before attempts were marked, it has reached the height from which that was possible. -/
structure Answers (w : WalletDb) (r : RunId)
    (handed : List (MigrationStopCandidateKind × Txid)) (endpoint : StopEndpoint) : Prop where
  own : ∀ txid actual error, endpoint.getTransaction txid = .found actual error → actual = txid
  rowTip : ∀ tip, endpoint.chainTipHeight = .ok tip →
    ∀ row ∈ w.store.pendingTxs, row.runId = r → row.broadcastAttempted = .unknownLegacy →
    (.migrationTransaction, row.txid) ∈ handed →
    ∀ height, row.scheduledHeight = some height → height ≤ tip
  stageTip : ∀ tip, endpoint.chainTipHeight = .ok tip →
    ∀ stage ∈ w.store.stages, stage.runId = r → stage.broadcastAttempted = .unknownLegacy →
    (.denominationStage, stage.expectedTxid) ∈ handed →
    Store.effectiveBroadcastHeight stage ≤ tip

variable {handed : List (MigrationStopCandidateKind × Txid)}

/-- A row that was attempted or broadcast has landed after the stop, or is gone. -/
theorem row_settled (hrunning : w.store.Running r) (hanswers : w.Answers r handed endpoint)
    (h : (w.reconcileScheduledMigrationTxsBeforeAbandon account network r native endpoint).2
      = .ok ())
    {row : PendingTx} (hrow : row ∈ w.store.pendingTxs) (hid : row.runId = r)
    (hhanded : (.migrationTransaction, row.txid) ∈ handed)
    (hattempted : row.status = .broadcasted
      ∨ row.status = .scheduled ∧ (row.broadcastAttempted ≠ .notAttempted ∨ row.txid ∈ native)) :
  (w.reconcileScheduledMigrationTxsBeforeAbandon account network r native endpoint).1.Landed r
      row.txid .migrationTransaction
    ∨ w.Expired r endpoint row.txid .migrationTransaction
  := by
  obtain ⟨hkeeps, candidates, hcandidates, hsettled⟩ :=
    reconcileBeforeAbandon_settles hrunning hanswers.own h
  have hstatus : row.status = .scheduled ∨ row.status = .broadcasted := by
    rcases hattempted with hstatus | ⟨hstatus, -⟩
    · exact .inr hstatus
    · exact .inl hstatus
  rcases Store.candidate_of_row hrunning hcandidates hrow hid hstatus
    with ⟨hstatus, hraw⟩ | ⟨height, hheight, hc⟩
  · left
    have hlanded : w.Landed r row.txid .migrationTransaction := by
      constructor
      · apply w.known_of_holds
        rw [ChainView.holds, hraw, Bool.true_or]
      · exact ⟨row, hrow, hid, rfl, hstatus⟩
    apply hlanded.keeps hkeeps
  · have hlegacy : (Store.rowCandidate row height).attemptState = .unknownLegacy →
        row.broadcastAttempted = .unknownLegacy := by
      unfold Store.rowCandidate
      dsimp only
      split
      · nofun
      · apply id
    refine (hsettled _ hc ?_ ?_).imp_right ?_
    · unfold Store.rowCandidate
      dsimp only
      rcases hattempted with hstatus | ⟨hstatus, hmark | hnative⟩
      · right
        rw [if_pos hstatus]
        nofun
      · right
        rw [if_neg (by rw [hstatus]; nofun)]
        apply hmark
      · exact .inl hnative
    · intro hstate tip htip
      apply hanswers.rowTip tip htip row hrow hid (hlegacy hstate) hhanded height hheight
    · rintro ⟨tip, htip, hnone, hexpiry⟩
      exact ⟨hnone, tip, htip, row, hrow, hid, rfl, hexpiry⟩

/-- A stage that was attempted has landed after the stop, or is gone. -/
theorem stage_settled (hrunning : w.store.Running r) (hanswers : w.Answers r handed endpoint)
    (h : (w.reconcileScheduledMigrationTxsBeforeAbandon account network r native endpoint).2
      = .ok ())
    {stage : DenominationStage} (hstage : stage ∈ w.store.stages) (hid : stage.runId = r)
    (hhanded : (.denominationStage, stage.expectedTxid) ∈ handed)
    (hstatus : stage.state.status = .pending)
    (hmark : stage.broadcastAttempted ≠ .notAttempted) :
  (w.reconcileScheduledMigrationTxsBeforeAbandon account network r native endpoint).1.Landed r
      stage.expectedTxid .denominationStage
    ∨ w.Expired r endpoint stage.expectedTxid .denominationStage
  := by
  obtain ⟨hkeeps, candidates, hcandidates, hsettled⟩ :=
    reconcileBeforeAbandon_settles hrunning hanswers.own h
  have hc := Store.candidate_of_stage hrunning hcandidates hstage hid hstatus
  refine (hsettled _ hc (.inr hmark) ?_).imp_right ?_
  · intro hstate tip htip
    apply hanswers.stageTip tip htip stage hstage hid hstate hhanded
  · rintro ⟨tip, htip, hnone, hexpiry⟩
    exact ⟨hnone, tip, htip, stage, hstage, hid, rfl, hexpiry⟩

/-- What was handed over and is on record has landed after the stop, or is gone. -/
theorem tracked_settled (hrunning : w.store.Running r) (hanswers : w.Answers r handed endpoint)
    (h : (w.reconcileScheduledMigrationTxsBeforeAbandon account network r native endpoint).2
      = .ok ())
    (hhanded : (kind, txid) ∈ handed) (htracked : w.Tracked r native txid kind) :
  (w.reconcileScheduledMigrationTxsBeforeAbandon account network r native endpoint).1.Landed r
      txid kind
    ∨ w.Expired r endpoint txid kind
  := by
  have hkeeps := (reconcileBeforeAbandon_settles hrunning hanswers.own h).1
  cases kind with
  | migrationTransaction =>
    rcases htracked with ⟨row, hrow, hid, rfl, hattempted⟩ | ⟨⟨row, hrow, hid, rfl, hstatus⟩, -⟩
    · apply row_settled hrunning hanswers h hrow hid hhanded (.inr hattempted)
    · apply row_settled hrunning hanswers h hrow hid hhanded (.inl hstatus)
  | denominationStage =>
    rcases htracked with ⟨stage, hstage, hid, rfl, hstatus, hmark⟩ | ⟨hsubmitted, hknown⟩
    · apply stage_settled hrunning hanswers h hstage hid hhanded hstatus hmark
    · left
      have hlanded : w.Landed r txid .denominationStage := ⟨hknown rfl, hsubmitted⟩
      apply hlanded.keeps hkeeps

/-- What was handed over and is on record has landed when the run is abandoned, or is gone. -/
theorem abandonOrchardMigration_settles {locks discards : Except String Unit}
    (hrunning : w.store.Running r) (hanswers : w.Answers r handed endpoint)
    (h : (w.abandonOrchardMigration account network r native endpoint locks discards).2 = .ok ())
    (hhanded : (kind, txid) ∈ handed) (htracked : w.Tracked r native txid kind) :
  (w.abandonOrchardMigration account network r native endpoint locks discards).1.Landed r txid
      kind
    ∨ w.Expired r endpoint txid kind
  := by
  unfold abandonOrchardMigration at h ⊢
  obtain ⟨_, hreconcile, h⟩ := afterOk_eq_ok.mp h
  rw [afterOk_of_ok hreconcile]
  obtain ⟨_, habandon, h⟩ := afterOk_eq_ok.mp h
  rw [afterOk_of_ok habandon]
  obtain ⟨_, hlocks, h⟩ := afterOk_eq_ok.mp h
  rw [afterOk_of_ok hlocks]
  dsimp only
  refine (tracked_settled hrunning hanswers hreconcile hhanded htracked).imp_left ?_
  rintro ⟨hknown, hsubmitted⟩
  obtain ⟨s, hs, hw⟩ := commitUnit_eq_ok habandon
  rw [hw]
  refine ⟨hknown, ?_⟩
  apply Store.discardUnsubmittedPreparationStages_submitted
  apply Store.abandonRun_submitted hs hsubmitted

end WalletDb

end Vizor
