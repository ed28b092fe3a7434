import Vizor.Store.ChainState

/-!
# The result of a reconciliation

A reconciliation of a run that is not finished fails only when the tip of the chain cannot
be read or a height overflows.  Otherwise it reconciles the stages, after which there is
nothing left to reconcile.  A run that is finished is left as it is.
-/

namespace Vizor

open Table Run

namespace Store

variable {s s' s'' : Store} {r : RunId} {view : ChainView}

/-! ### Stores with the same stages -/

/-- The stages and their inputs are the same. -/
structure SameStages (s s' : Store) : Prop where
  stages : s'.stages = s.stages
  inputs : s'.stageInputs = s.stageInputs

theorem SameStages.refl :
  s.SameStages s
  := ⟨rfl, rfl⟩

theorem SameStages.symm (h : s.SameStages s') :
  s'.SameStages s
  := ⟨h.stages.symm, h.inputs.symm⟩

theorem SameStages.stagesOf (h : s.SameStages s') :
  s'.stagesOf r = s.stagesOf r
  := by
  unfold Store.stagesOf
  rw [h.stages]

theorem SameStages.inputsOfStage (h : s.SameStages s') {stageIndex : Nat} :
  s'.inputsOfStage r stageIndex = s.inputsOfStage r stageIndex
  := by
  unfold Store.inputsOfStage
  rw [h.inputs]

theorem SameStages.chainRecord (h : s.SameStages s') {stage : DenominationStage} :
  s'.chainRecord r stage = s.chainRecord r stage
  := by
  unfold Store.chainRecord
  rw [h.inputsOfStage]

theorem SameStages.records (h : s.SameStages s') :
  s'.denominationStageChainRecords r = s.denominationStageChainRecords r
  := by
  unfold denominationStageChainRecords
  rw [h.stagesOf]
  apply List.map_congr_left
  intro stage _
  rw [h.chainRecord]

theorem SameStages.disturbed (h : s.SameStages s') {txid : Txid} (hd : Disturbed view s r txid) :
  Disturbed view s' r txid
  := by
  induction hd with
  | changed hstage hstate hchain =>
    rw [← h.stagesOf] at hstage
    exact .changed hstage hstate hchain
  | spends hstage hinput _ ih =>
    rw [← h.stagesOf] at hstage
    rw [← h.inputsOfStage] at hinput
    exact .spends hstage hinput ih

theorem SameStages.disturbed_iff (h : s.SameStages s') {txid : Txid} :
  Disturbed view s' r txid ↔ Disturbed view s r txid
  := ⟨h.symm.disturbed, h.disturbed⟩

theorem SameStages.plans (h : s.SameStages s') {plan : ReorgPlan} (hplans : Plans view s r plan) :
  Plans view s' r plan
  := by
  constructor
  · intro txid
    rw [hplans.affected, h.disturbed_iff]
  · intro txid
    rw [hplans.invalid, h.disturbed_iff]
  · intro found
    rw [hplans.identities, h.stagesOf]
    simp only [h.chainRecord]
  · intro txid htxid
    rw [h.stagesOf]
    apply hplans.recovered txid htxid

theorem SameStages.reconciled (h : s.SameStages s') {stage stage' : DenominationStage}
    (hstage : Reconciled view s' r stage stage') :
  Reconciled view s r stage stage'
  := by
  constructor
  · apply hstage.columns
  · apply hstage.other
  · apply hstage.identity
  · intro hrun hchain hdisturbed
    apply hstage.disturbed hrun hchain (h.disturbed hdisturbed)
  · intro hrun hchain hdisturbed
    apply hstage.kept hrun hchain
    rwa [h.disturbed_iff]

/-- The policy of a run for its denomination split. -/
def policyOf (s : Store) (r : RunId) : Option PreparationTimingPolicy :=
  (s.run? r).map (·.preparationTimingPolicy)

theorem recoveryContext_congr (hpolicy : s'.policyOf r = s.policyOf r) {recovered : List Txid}
    {chainTipHeight : Except String Nat} :
  s'.recoveryContext r recovered chainTipHeight = s.recoveryContext r recovered chainTipHeight
  := by
  unfold policyOf at hpolicy
  unfold recoveryContext readRun
  cases hrun : s.run? r with
  | none =>
    rw [hrun, Option.map_none, Option.map_eq_none_iff] at hpolicy
    rw [hpolicy]
  | some run =>
    rw [hrun, Option.map_some, Option.map_eq_some_iff] at hpolicy
    obtain ⟨run', hrun', hsame⟩ := hpolicy
    rw [hrun']
    simp only [okOr, bind, Except.bind, hsame]

/-- The plan is made from the stages and the policy of the run. -/
theorem SameStages.reorgPlan (h : s.SameStages s') (hpolicy : s'.policyOf r = s.policyOf r)
    {chainTipHeight : Except String Nat} :
  Store.reorgPlan view s' r chainTipHeight = Store.reorgPlan view s r chainTipHeight
  := by
  unfold Store.reorgPlan
  dsimp only
  rw [h.records, recoveryContext_congr hpolicy]

/-! ### The transactions -/

/-- A run that waits for its denominations is live if it was. -/
theorem isLive_waitForDenominations {f : MigrationRun → MigrationRun}
    (hid : ∀ run, (f run).runId = run.runId) {r' : RunId} :
  (s.waitForDenominations r f).isLive r' = s.isLive r'
  := by
  apply isLive_updateRuns
  · apply hid
  · intro run hrun
    rw [Bool.and_eq_true] at hrun
    rw [releasesWalletLocks_of_not hrun.2]
    rfl

/-- A run that is finished does not wait for its denominations. -/
theorem waitForDenominations_of_not_live (hlive : s.isLive r = false)
    {f : MigrationRun → MigrationRun} :
  s.waitForDenominations r f = s
  := by
  unfold waitForDenominations updateRuns
  rw [updateWhere_eq_self]
  intro run hrun hsel
  rw [isLive, List.any_eq_false] at hlive
  exact absurd hsel (hlive run hrun)

theorem RunsUnique.live_run (h : s.RunsUnique) (hlive : s.isLive r = true) :
  ∃ run, s.run? r = some run ∧ run.phase.releasesWalletLocks = false
  := by
  obtain ⟨run, hrun, hid, hphase⟩ := isLive_iff.mp hlive
  exact ⟨run, h.run?_eq_some.mpr ⟨hrun, hid⟩, hphase⟩

theorem not_live_phase {run : MigrationRun} (hlive : s.isLive r = false)
    (hrun : s.run? r = some run) :
  run.phase.releasesWalletLocks = true
  := by
  rw [isLive, List.any_eq_false] at hlive
  have hnot := hlive run (List.mem_of_find?_eq_some hrun)
  have hid : run.runId = r := by simpa using List.find?_some hrun
  simpa [hid] using hnot

/-- The run that waits for its denominations. -/
theorem run?_waitForDenominations {f : MigrationRun → MigrationRun}
    (hid : ∀ run, (f run).runId = run.runId) {r' : RunId} :
  (s.waitForDenominations r f).run? r' = (s.run? r').map fun run =>
    if run.runId = r && !run.phase.releasesWalletLocks then
      { f run with phase := .waitingDenomConfirmations, lastError := none }
    else run
  := run?_updateRuns hid

/-- A statement on runs that keeps the policies keeps the policy of a run. -/
theorem policyOf_waitForDenominations {f : MigrationRun → MigrationRun}
    (hid : ∀ run, (f run).runId = run.runId)
    (hpolicy : ∀ run, (f run).preparationTimingPolicy = run.preparationTimingPolicy) {r' : RunId} :
  (s.waitForDenominations r f).policyOf r' = s.policyOf r'
  := by
  unfold policyOf
  rw [run?_waitForDenominations hid, Option.map_map]
  congr 1
  funext run
  rw [Function.comp_apply]
  split
  · apply hpolicy
  · rfl

/-- The transactions that were funded by others, with their notes, are removed in any order. -/
theorem resetChildrenOf_sameRows (view : ChainView) (r : RunId) (acc : Store × Bool)
    (txids : List Txid) :
  ∃ pendingTxs preparedNotes, (txids.foldl (resetChildrenOf view r) acc).1
    = { acc.1 with pendingTxs := pendingTxs, preparedNotes := preparedNotes }
  := by
  induction txids generalizing acc with
  | nil => exact ⟨_, _, rfl⟩
  | cons txid txids ih =>
    rw [List.foldl_cons]
    obtain ⟨pendingTxs, preparedNotes, h⟩ := ih (resetChildrenOf view r acc txid)
    exact ⟨pendingTxs, preparedNotes, h⟩

/-- The first transaction keeps the stages, whether the run is live, and its policy. -/
theorem commitChildReset_keeps {plan : ReorgPlan} (h : commitChildReset view r plan s = .ok s') :
  s.SameStages s' ∧ s'.isLive r = s.isLive r ∧ s'.policyOf r = s.policyOf r
  := by
  obtain ⟨reset, hreset, h⟩ := bind_eq_ok.mp h
  obtain rfl := pure_eq_ok.mp h
  rw [resetMigrationChildrenForReorgedDenominations] at hreset
  split at hreset
  · cases hreset
    exact ⟨.refl, rfl, rfl⟩
  · obtain ⟨run, -, hreset⟩ := bind_eq_ok.mp hreset
    split at hreset
    · obtain rfl := pure_eq_ok.mp hreset
      exact ⟨.refl, rfl, rfl⟩
    · obtain rfl := pure_eq_ok.mp hreset
      obtain ⟨pendingTxs, preparedNotes, hrows⟩  :=
        resetChildrenOf_sameRows view r (s, false) plan.affected
      dsimp only
      rw [hrows]
      split
      · refine ⟨⟨rfl, rfl⟩, ?_, ?_⟩
        · rw [isLive_waitForDenominations (by simp)]
          rfl
        · rw [policyOf_waitForDenominations (by simp) (by simp)]
          rfl
      · exact ⟨⟨rfl, rfl⟩, rfl, rfl⟩

/-- The first transaction of a live run succeeds. -/
theorem commitChildReset_eq_ok (hruns : s.RunsUnique) (hlive : s.isLive r = true)
    (view : ChainView) (plan : ReorgPlan) :
  ∃ t, commitChildReset view r plan s = .ok t
  := by
  obtain ⟨run, hrun, hphase⟩ := hruns.live_run hlive
  unfold commitChildReset resetMigrationChildrenForReorgedDenominations readRun
  split
  · exact ⟨s, rfl⟩
  · rw [hrun]
    simp only [okOr, bind, Except.bind, hphase, pure, Except.pure, Bool.false_eq_true, if_false]
    exact ⟨_, rfl⟩

/-- A run that is finished keeps what its stages funded. -/
theorem commitChildReset_of_not_live {plan : ReorgPlan} (hlive : s.isLive r = false)
    (h : commitChildReset view r plan s = .ok s') :
  s' = s
  := by
  obtain ⟨reset, hreset, h⟩ := bind_eq_ok.mp h
  obtain rfl := pure_eq_ok.mp h
  rw [resetMigrationChildrenForReorgedDenominations] at hreset
  split at hreset
  · cases hreset
    rfl
  · simp only [readRun, bind_eq_ok, okOr_eq_ok] at hreset
    obtain ⟨run, hrun, hreset⟩ := hreset
    rw [if_pos (not_live_phase hlive hrun)] at hreset
    obtain rfl := pure_eq_ok.mp hreset
    rfl

/-- A run that is finished keeps its stages. -/
theorem commitStageState_of_not_live {plan : ReorgPlan} {delays : Nat → Nat}
    (hlive : s.isLive r = false) (h : commitStageState r plan delays s = .ok s') :
  s' = s
  := by
  rw [commitStageState] at h
  split at h
  · cases h
    rfl
  · simp only [readRun, bind_eq_ok, okOr_eq_ok] at h
    obtain ⟨run, hrun, h⟩ := h
    rw [if_pos (not_live_phase hlive hrun)] at h
    obtain rfl := pure_eq_ok.mp h
    rfl

/-- The third statement keeps the stages. -/
theorem commitReorgPhase_sameStages {plan : ReorgPlan} (h : commitReorgPhase r plan s = .ok s') :
  s.SameStages s'
  := by
  rw [commitReorgPhase] at h
  split at h <;> cases h <;> exact ⟨rfl, rfl⟩

theorem commitReorgPhase_of_not_live {plan : ReorgPlan} (hlive : s.isLive r = false)
    (h : commitReorgPhase r plan s = .ok s') :
  s' = s
  := by
  rw [commitReorgPhase] at h
  split at h
  · cases h
    rfl
  · cases h
    apply waitForDenominations_of_not_live hlive

/-- A reconciliation leaves a run that is finished as it is, wherever it stops. -/
theorem reconcile_of_not_live (hlive : s.isLive r = false) {stop : Nat}
    {chainTipHeight : Except String Nat} {delays : Nat → Nat} :
  (s.reconcileDenominationStageChainStateUpTo stop view r chainTipHeight delays).1 = s
  := by
  unfold reconcileDenominationStageChainStateUpTo
  split
  · rfl
  · split
    · rfl
    · apply commitAll_invariant (I := fun t => t = s) _ rfl
      rintro f hf t t' rfl ht
      have hmem := List.mem_of_mem_take hf
      simp only [List.mem_cons, List.not_mem_nil, or_false] at hmem
      rcases hmem with rfl | rfl | rfl
      · apply commitChildReset_of_not_live hlive ht
      · apply commitStageState_of_not_live hlive ht
      · apply commitReorgPhase_of_not_live hlive ht

/-! ### A run that is live -/

/-- Every stage is confirmed exactly where its transaction is in the chain. -/
def Quiet (view : ChainView) (s : Store) (r : RunId) : Prop :=
  ∀ stage ∈ s.stagesOf r,
    stage.state.identity = view.localDenominationChainIdentity stage.expectedTxid

theorem stageFinding_of_identity {stage : DenominationStage}
    (h : stage.state.identity = view.localDenominationChainIdentity stage.expectedTxid) :
  stageFinding view (s.chainRecord r stage) = .unchanged
  := by
  unfold stageFinding chainRecord
  dsimp only
  rw [← h]
  cases hstate : stage.state with
  | confirmed rawTx identity =>
    simp [DenominationStageState.status, DenominationStageState.identity]
  | _ => rfl

theorem Quiet.not_disturbed (h : Quiet view s r) {txid : Txid} :
  ¬Disturbed view s r txid
  := by
  intro hdisturbed
  induction hdisturbed with
  | changed hstage hstate hchain =>
    apply hchain
    rw [← h _ hstage, hstate]
    rfl
  | spends _ _ _ ih => exact ih

/-- There is nothing to write. -/
theorem Quiet.reorgPlan (h : Quiet view s r) {chainTipHeight : Except String Nat} :
  Store.reorgPlan view s r chainTipHeight = .ok {
    affected := []
    invalidStages := []
    identitiesToRecord := []
    recoveredPendingTxids := []
    recoveryChainTipHeight := none }
  := by
  have hfinding : ∀ record ∈ s.denominationStageChainRecords r,
      stageFinding view record = .unchanged := by
    intro record hrecord
    obtain ⟨stage, hstage, rfl⟩ := mem_denominationStageChainRecords.mp hrecord
    apply stageFinding_of_identity (h stage hstage)
  have hrecovered : (s.denominationStageChainRecords r).filter
      (fun record => (stageFinding view record).recovers) = [] := by
    rw [List.filter_eq_nil_iff]
    intro record hrecord
    rw [hfinding record hrecord]
    simp [StageFinding.recovers]
  have hplan : ∃ plan, Store.reorgPlan view s r chainTipHeight = .ok plan
      ∧ plan.recoveredPendingTxids = [] ∧ plan.recoveryChainTipHeight = none := by
    unfold Store.reorgPlan
    simp only [hrecovered, List.map_nil]
    exact ⟨_, rfl, rfl, rfl⟩
  obtain ⟨plan, hok, hrecoveredTxids, htip⟩ := hplan
  have hplans := plans_of_reorgPlan hok
  have haffected : plan.affected = [] := by
    rw [List.eq_nil_iff_forall_not_mem]
    intro txid htxid
    apply h.not_disturbed ((hplans.affected txid).mp htxid)
  have hinvalid : plan.invalidStages = [] := by
    rw [List.eq_nil_iff_forall_not_mem]
    intro txid htxid
    apply h.not_disturbed ((hplans.invalid txid).mp htxid).1
  have hidentities : plan.identitiesToRecord = [] := by
    rw [List.eq_nil_iff_forall_not_mem]
    intro found hfound
    obtain ⟨stage, hstage, hidentity, -⟩ := (hplans.identities found).mp hfound
    rw [stageFinding_of_identity (h stage hstage)] at hidentity
    cases hidentity
  rw [hok]
  cases plan
  congr

/-- There is nothing to reconcile. -/
theorem Quiet.reconcile (h : Quiet view s r) {stop : Nat} {chainTipHeight : Except String Nat}
    {delays : Nat → Nat} :
  s.reconcileDenominationStageChainStateUpTo stop view r chainTipHeight delays = (s, none)
  := by
  unfold reconcileDenominationStageChainStateUpTo
  split
  · rfl
  · rw [h.reorgPlan]
    dsimp only
    have hnothing : ∀ fs : List (Store → Except String Store), (∀ f ∈ fs, f s = .ok s) →
        commitAll fs s = (s, none) := by
      intro fs hfs
      induction fs with
      | nil => rfl
      | cons f fs ih =>
        rw [commitAll_cons_ok (hfs f List.mem_cons_self)]
        apply ih
        intro g hg
        apply hfs g (List.mem_cons_of_mem _ hg)
    apply hnothing
    intro f hf
    have hmem := List.mem_of_mem_take hf
    simp only [List.mem_cons, List.not_mem_nil, or_false] at hmem
    rcases hmem with rfl | rfl | rfl <;> rfl

/-- Reconciled stages are quiet. -/
theorem quiet_of_reconciled {g : DenominationStage → DenominationStage}
    (hstages : s'.stages = s.stages.map g)
    (hg : ∀ stage ∈ s.stages, Reconciled view s r stage (g stage)) :
  Quiet view s' r
  := by
  intro stage' hstage'
  obtain ⟨hmem, hrun⟩ := List.mem_filter.mp hstage'
  rw [decide_eq_true_eq] at hrun
  rw [hstages, List.mem_map] at hmem
  obtain ⟨stage, hstage, rfl⟩ := hmem
  have hcolumns := (hg stage hstage).columns
  have hrunId : stage.runId = r := by
    rw [← hrun, hcolumns]
  have htxid : (g stage).expectedTxid = stage.expectedTxid := by
    rw [hcolumns]
  rw [(hg stage hstage).identity hrunId, htxid]

/-- Only the tip of the chain can fail the plan of a run. -/
theorem reorgPlan_eq_error (hruns : s.RunsUnique) (hlive : s.isLive r = true)
    {chainTipHeight : Except String Nat} {e : String}
    (h : reorgPlan view s r chainTipHeight = .error e) :
  chainTipHeight = .error e
  := by
  obtain ⟨run, hrun, -⟩ := hruns.live_run hlive
  unfold reorgPlan recoveryContext readRun at h
  rw [hrun] at h
  dsimp only [okOr] at h
  split at h
  · cases h
  · simp only [bind, Except.bind] at h
    split at h
    · rename_i hcontext
      split at hcontext
      · cases hcontext
      · cases chainTipHeight with
        | error e' =>
          cases hcontext
          cases h
          rfl
        | ok height => cases hcontext
    · cases h

/-- The first two transactions of a run that is live, unless a height overflows. -/
theorem commit_live (hruns : s.RunsUnique) (hstages : s.StagesUnique) (hlive : s.isLive r = true)
    {plan : ReorgPlan} (hplans : Plans view s r plan) (delays : Nat → Nat) :
  ∃ t, commitChildReset view r plan s = .ok t ∧ s.SameStages t ∧ t.isLive r = true
    ∧ ((∃ g, commitStageState r plan delays t = .ok { t with stages := s.stages.map g }
        ∧ ∀ stage ∈ s.stages, Reconciled view s r stage (g stage))
      ∨ commitStageState r plan delays t
        = .error "Migration preparation catch-up height overflow")
  := by
  obtain ⟨t, ht⟩ := commitChildReset_eq_ok hruns hlive view plan
  obtain ⟨hsame, htlive, -⟩ := commitChildReset_keeps ht
  rw [hlive] at htlive
  have htruns : t.RunsUnique := (commitChildReset_evolves (l := .none) ht).runsUnique hruns
  have htstages : t.StagesUnique := by
    unfold StagesUnique
    rw [hsame.stages]
    apply hstages
  obtain ⟨run, hrun, hphase⟩ := htruns.live_run htlive
  refine ⟨t, ht, hsame, htlive, ?_⟩
  rcases commitStageState_cases (hsame.plans hplans) htstages hrun hphase delays
    with ⟨g, hg, hreconciled⟩ | herror
  · left
    rw [hsame.stages] at hg hreconciled
    exact ⟨g, hg, fun stage hstage => hsame.reconciled (hreconciled stage hstage)⟩
  · exact .inr herror

/-! ### The result -/

/-- The stages of the other runs are reconciled as they are. -/
theorem reconciled_of_records_eq_nil (h : s.denominationStageChainRecords r = [])
    {stage : DenominationStage} (hstage : stage ∈ s.stages) :
  Reconciled view s r stage stage
  := by
  have hrun : stage.runId ≠ r := by
    intro hrun
    have hmem : stage ∈ s.stagesOf r := List.mem_filter.mpr ⟨hstage, by simpa using hrun⟩
    have hrecord := mem_denominationStageChainRecords.mpr ⟨stage, hmem, rfl⟩
    rw [h] at hrecord
    cases hrecord
  exact ⟨rfl, fun _ => rfl, fun h => absurd h hrun, fun h => absurd h hrun,
    fun h => absurd h hrun⟩

/-- A reconciliation of a live run settles its stages, or reports an error. -/
theorem reconcile_live (hruns : s.RunsUnique) (hstages : s.StagesUnique)
    (hlive : s.isLive r = true) (view : ChainView) (chainTipHeight : Except String Nat)
    (delays : Nat → Nat) :
  (∃ g, (s.reconcileDenominationStageChainState view r chainTipHeight delays).2 = none
      ∧ (s.reconcileDenominationStageChainState view r chainTipHeight delays).1.stages
        = s.stages.map g
      ∧ ∀ stage ∈ s.stages, Reconciled view s r stage (g stage))
    ∨ ∃ e, (s.reconcileDenominationStageChainState view r chainTipHeight delays).2 = some e
      ∧ (chainTipHeight = .error e ∨ e = "Migration preparation catch-up height overflow")
  := by
  unfold reconcileDenominationStageChainState reconcileDenominationStageChainStateUpTo
  split
  · rename_i hrecords
    left
    exact ⟨id, rfl, by simp, fun stage hstage => reconciled_of_records_eq_nil hrecords hstage⟩
  · cases hplan : reorgPlan view s r chainTipHeight with
    | error e => exact .inr ⟨e, rfl, .inl (reorgPlan_eq_error hruns hlive hplan)⟩
    | ok plan =>
      obtain ⟨t, ht, -, -, hstate⟩ :=
        commit_live hruns hstages hlive (plans_of_reorgPlan hplan) delays
      dsimp only [List.take]
      rw [commitAll_cons_ok ht]
      rcases hstate with ⟨g, hg, hreconciled⟩ | herror
      · left
        rw [commitAll_cons_ok hg]
        obtain ⟨u, hu⟩ : ∃ u, commitReorgPhase r plan { t with stages := s.stages.map g }
            = .ok u := by
          unfold commitReorgPhase
          split <;> exact ⟨_, rfl⟩
        rw [commitAll_cons_ok hu]
        exact ⟨g, rfl, (commitReorgPhase_sameStages hu).stages, hreconciled⟩
      · right
        rw [commitAll_cons_error herror]
        exact ⟨_, rfl, .inr rfl⟩

/-- **The result of a reconciliation.**  It leaves a run that is finished as it is.  For a
live run it fails only when the tip of the chain cannot be read or a height overflows, and
settles the stages otherwise.  After a reconciliation that did not fail, another one changes
nothing. -/
theorem reconcileDenominationStageChainState_settles (hruns : s.RunsUnique)
    (hstages : s.StagesUnique) (view : ChainView) (r : RunId)
    (chainTipHeight : Except String Nat) (delays : Nat → Nat) :
  (s.isLive r = true →
      ((s.reconcileDenominationStageChainState view r chainTipHeight delays).2 = none →
        ∃ g, (s.reconcileDenominationStageChainState view r chainTipHeight delays).1.stages
            = s.stages.map g
          ∧ ∀ stage ∈ s.stages, Reconciled view s r stage (g stage))
      ∧ ∀ e, (s.reconcileDenominationStageChainState view r chainTipHeight delays).2 = some e →
        chainTipHeight = .error e ∨ e = "Migration preparation catch-up height overflow")
    ∧ (s.isLive r = false →
      (s.reconcileDenominationStageChainState view r chainTipHeight delays).1 = s)
    ∧ ((s.reconcileDenominationStageChainState view r chainTipHeight delays).2 = none →
      ∀ chainTipHeight' delays',
        ((s.reconcileDenominationStageChainState view r chainTipHeight delays).1
            |>.reconcileDenominationStageChainState view r chainTipHeight' delays').1
          = (s.reconcileDenominationStageChainState view r chainTipHeight delays).1)
  := by
  refine ⟨fun hlive => ?_, fun hlive => ?_, fun hnone => ?_⟩
  · rcases reconcile_live hruns hstages hlive view chainTipHeight delays
      with ⟨g, hnone, hg, hreconciled⟩ | ⟨e, herror, he⟩
    · constructor
      · exact fun _ => ⟨g, hg, hreconciled⟩
      · intro e he
        rw [hnone] at he
        cases he
    · constructor
      · intro hnone
        rw [herror] at hnone
        cases hnone
      · intro e' he'
        rw [herror] at he'
        cases he'
        apply he
  · apply reconcile_of_not_live hlive
  · intro chainTipHeight' delays'
    cases hlive : s.isLive r with
    | false =>
      have hsame : (s.reconcileDenominationStageChainState view r chainTipHeight delays).1 = s :=
        reconcile_of_not_live hlive
      rw [hsame]
      apply reconcile_of_not_live hlive
    | true =>
      rcases reconcile_live hruns hstages hlive view chainTipHeight delays
        with ⟨g, -, hg, hreconciled⟩ | ⟨e, herror, -⟩
      · unfold reconcileDenominationStageChainState at hg ⊢
        rw [(quiet_of_reconciled hg hreconciled).reconcile]
      · rw [herror] at hnone
        cases hnone

/-! ### A chain of stages -/

/-- A stage of run 1. -/
def sampleStage (stageIndex : Nat) (txid : Txid) (state : DenominationStageState) :
    DenominationStage where
  runId := 1
  stageIndex := stageIndex
  basePczt := [1]
  sigs := []
  expectedTxid := txid
  targetHeight := 100
  scheduledHeight := 100
  broadcastNotBeforeHeight := none
  broadcastAttempted := .notAttempted
  expiryHeight := 140
  feeZatoshi := 10
  state := state

/-- An input of a stage of run 1 that spends the first output of a transaction. -/
def sampleStageInput (stageIndex : Nat) (txid : Txid) : StageInput where
  runId := 1
  stageIndex := stageIndex
  inputOrder := 0
  txid := txid
  outputIndex := 0
  valueZatoshi := 1000
  noteVersion := 2
  nullifier := none

/-- A run with three stages, each of which spends from the one before it.  The first two
were confirmed. -/
def sampleStages (phase : Phase) : Store where
  runs := [{
    runId := 1
    accountUuid := 1
    network := .main
    phase := phase
    createdAtMs := 0
    targetValues := [100]
    schedule := [⟨some 0, 100, 10⟩]
    timingPolicy := .standard
    preparationTimingPolicy := .immediate }]
  stages := [sampleStage 0 10 (.confirmed none ⟨100, 1⟩),
    sampleStage 1 11 (.confirmed none ⟨101, 1⟩), sampleStage 2 12 (.broadcasted [1])]
  stageInputs := [sampleStageInput 0 9, sampleStageInput 1 10, sampleStageInput 2 11]

/-- The first stage is mined again at another height, and the others leave the chain. -/
theorem reconcileDenominationStageChainState_settles_remined :
  (sampleStages .broadcastScheduled).isLive 1 = true
    ∧ ∃ g, ((sampleStages .broadcastScheduled).reconcileDenominationStageChainState
        (sampleView [(10, ⟨102, 2⟩)] 1) 1 (.ok 110) fun _ => 0).1.stages
        = (sampleStages .broadcastScheduled).stages.map g
      ∧ ∀ stage ∈ (sampleStages .broadcastScheduled).stages,
        Reconciled (sampleView [(10, ⟨102, 2⟩)] 1) (sampleStages .broadcastScheduled) 1 stage
          (g stage)
  := by
  have hspec := reconcileDenominationStageChainState_settles
    (s := sampleStages .broadcastScheduled) (by unfold RunsUnique; decide +kernel)
    (by unfold StagesUnique; decide +kernel)
    (sampleView [(10, ⟨102, 2⟩)] 1) 1 (.ok 110) fun _ => 0
  refine ⟨by decide +kernel, (hspec.1 (by decide +kernel)).1 ?_⟩
  decide +kernel

/-- The stages of a run that is finished are not reconciled: the second one stays confirmed
though its transaction left the chain. -/
theorem finished_stages_not_reconciled :
  ((sampleStages .complete).reconcileDenominationStageChainState
      (sampleView [(10, ⟨102, 2⟩)] 1) 1 (.ok 110) fun _ => 0).2 = none
    ∧ ∃ stage ∈ ((sampleStages .complete).reconcileDenominationStageChainState
        (sampleView [(10, ⟨102, 2⟩)] 1) 1 (.ok 110) fun _ => 0).1.stages,
      stage.runId = 1 ∧ stage.state.identity
        ≠ (sampleView [(10, ⟨102, 2⟩)] 1).localDenominationChainIdentity stage.expectedTxid
  := by
  decide +kernel

end Store

end Vizor
