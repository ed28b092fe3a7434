import Vizor.Store.Completion

/-!
# Stages after a reconciliation

After the reconciliation of a run that is not finished, a stage is confirmed exactly when
its transaction is in the chain, and where it is there.  The other stages await their inputs
if they spend, directly or not, outputs of a stage that left its place in the chain, and are
as they were otherwise.  A second reconciliation changes nothing.
-/

namespace Vizor

open Table Run

namespace Store

/-- The stage was confirmed at a place of the chain where it is not any more, or it spends,
directly or not, an output of such a stage. -/
inductive Disturbed (view : ChainView) (s : Store) (r : RunId) : Txid → Prop where
  | changed {stage : DenominationStage} {rawTx : Option Bytes}
      {identity : LocalTransactionChainIdentity} (hstage : stage ∈ s.stagesOf r)
      (hstate : stage.state = .confirmed rawTx identity)
      (hchain : view.localDenominationChainIdentity stage.expectedTxid ≠ some identity) :
      Disturbed view s r stage.expectedTxid
  | spends {stage : DenominationStage} {input : StageInput} (hstage : stage ∈ s.stagesOf r)
      (hinput : input ∈ s.inputsOfStage r stage.stageIndex)
      (h : Disturbed view s r input.txid) : Disturbed view s r stage.expectedTxid

/-- The transactions of the stages of a run are a key. -/
def StagesUnique (s : Store) : Prop :=
  (s.stages.map fun stage => (stage.runId, stage.expectedTxid)).Nodup

variable {s s' : Store} {r : RunId} {view : ChainView}

/-! ### The plan -/

theorem mem_denominationStageChainRecords {record : DenominationStageChainRecord} :
  record ∈ s.denominationStageChainRecords r
    ↔ ∃ stage ∈ s.stagesOf r, s.chainRecord r stage = record
  := by
  simp [denominationStageChainRecords]

/-- A stage affects others when it left its place in the chain. -/
theorem affects_iff {stage : DenominationStage} :
  (stageFinding view (s.chainRecord r stage)).affects = true
    ↔ ∃ rawTx identity, stage.state = .confirmed rawTx identity
      ∧ view.localDenominationChainIdentity stage.expectedTxid ≠ some identity
  := by
  unfold stageFinding chainRecord
  dsimp only
  cases hstate : stage.state with
  | awaitingInputs =>
    cases view.localDenominationChainIdentity stage.expectedTxid <;>
      simp [DenominationStageState.status, StageFinding.affects]
  | pending rawTx =>
    cases view.localDenominationChainIdentity stage.expectedTxid <;>
      simp [DenominationStageState.status, StageFinding.affects]
  | broadcasted rawTx =>
    cases view.localDenominationChainIdentity stage.expectedTxid <;>
      simp [DenominationStageState.status, StageFinding.affects]
  | confirmed rawTx identity =>
    cases hview : view.localDenominationChainIdentity stage.expectedTxid with
    | none => simp [DenominationStageState.status, StageFinding.affects]
    | some current =>
      by_cases hsame : identity = current
      · simp [DenominationStageState.status, DenominationStageState.identity, hsame,
          StageFinding.affects]
      · simp [DenominationStageState.status, DenominationStageState.identity, hsame,
          StageFinding.affects, eq_comm]

/-- What the saturation reaches is what is disturbed. -/
theorem reached_iff {txid : Txid} :
  Closure.Reached (·.expectedTxid) (·.parentTxids) (s.denominationStageChainRecords r)
      (((s.denominationStageChainRecords r).filter fun record =>
        (stageFinding view record).affects).map (·.expectedTxid)).toFinset txid
    ↔ Disturbed view s r txid
  := by
  constructor
  · intro h
    induction h with
    | base h =>
      obtain ⟨record, hrecord, rfl⟩ := List.mem_map.mp (List.mem_toFinset.mp h)
      obtain ⟨hmem, haffects⟩ := List.mem_filter.mp hrecord
      obtain ⟨stage, hstage, rfl⟩ := mem_denominationStageChainRecords.mp hmem
      obtain ⟨rawTx, identity, hstate, hchain⟩ := affects_iff.mp haffects
      exact .changed hstage hstate hchain
    | step hx ha _ ih =>
      obtain ⟨stage, hstage, rfl⟩ := mem_denominationStageChainRecords.mp hx
      obtain ⟨input, hinput, rfl⟩ := List.mem_map.mp ha
      exact .spends hstage (List.mem_insertionSort _ |>.mp hinput) ih
  · intro h
    induction h with
    | changed hstage hstate hchain =>
      apply Closure.Reached.base
      rw [List.mem_toFinset]
      apply List.mem_map.mpr
      refine ⟨s.chainRecord r _, List.mem_filter.mpr ⟨?_, ?_⟩, rfl⟩
      · apply mem_denominationStageChainRecords.mpr ⟨_, hstage, rfl⟩
      · apply affects_iff.mpr ⟨_, _, hstate, hchain⟩
    | spends hstage hinput _ ih =>
      apply Closure.Reached.step (mem_denominationStageChainRecords.mpr ⟨_, hstage, rfl⟩) _ ih
      apply List.mem_map.mpr
      exact ⟨_, (List.mem_insertionSort _).mpr hinput, rfl⟩

/-- The records of the plan, whatever the tip of the chain. -/
structure Plans (view : ChainView) (s : Store) (r : RunId) (plan : ReorgPlan) : Prop where
  affected : ∀ txid, txid ∈ plan.affected ↔ Disturbed view s r txid
  invalid : ∀ txid, txid ∈ plan.invalidStages
    ↔ Disturbed view s r txid ∧ view.localDenominationChainIdentity txid = none
  identities : ∀ found, found ∈ plan.identitiesToRecord ↔ ∃ stage ∈ s.stagesOf r,
    (stageFinding view (s.chainRecord r stage)).identity = some found.2
      ∧ stage.expectedTxid = found.1
  recovered : ∀ txid ∈ plan.recoveredPendingTxids, ∃ stage ∈ s.stagesOf r,
    stage.expectedTxid = txid

/-- A disturbed transaction is the one of a stage. -/
theorem Disturbed.stage {txid : Txid} (h : Disturbed view s r txid) :
  ∃ stage ∈ s.stagesOf r, stage.expectedTxid = txid
  := by
  cases h with
  | changed hstage _ _ => exact ⟨_, hstage, rfl⟩
  | spends hstage _ _ => exact ⟨_, hstage, rfl⟩

theorem stageFinding_lost {record : DenominationStageChainRecord}
    (h : stageFinding view record = .lost) :
  (stageFinding view record).affects = true
    ∧ view.localDenominationChainIdentity record.expectedTxid = none
  := by
  refine ⟨by rw [h]; rfl, ?_⟩
  unfold stageFinding at h
  split at h <;> first | assumption | (split at h <;> cases h) | cases h

theorem plans_of_reorgPlan {chainTipHeight : Except String Nat} {plan : ReorgPlan}
    (h : reorgPlan view s r chainTipHeight = .ok plan) :
  Plans view s r plan
  := by
  obtain ⟨height, -, h⟩ := bind_eq_ok.mp h
  obtain rfl := pure_eq_ok.mp h
  have hmem : ∀ {txid : Txid}, Disturbed view s r txid →
      txid ∈ (s.denominationStageChainRecords r).map (·.expectedTxid) := by
    intro txid hdisturbed
    obtain ⟨stage, hstage, rfl⟩ := hdisturbed.stage
    apply List.mem_map.mpr
      ⟨s.chainRecord r stage, mem_denominationStageChainRecords.mpr ⟨stage, hstage, rfl⟩, rfl⟩
  constructor
  · intro txid
    rw [List.mem_filter, decide_eq_true_eq, affectedStages, Closure.mem_saturate_fst, reached_iff]
    exact ⟨fun h => h.2, fun h => ⟨hmem h, h⟩⟩
  · intro txid
    rw [List.mem_filter, decide_eq_true_eq, affectedStages, Closure.mem_saturate_snd]
    constructor
    · rintro ⟨-, hlost | ⟨record, hrecord, rfl, hmark, parent, hparent, hreached⟩⟩
      · obtain ⟨record, hrecord, rfl⟩ := List.mem_map.mp (List.mem_toFinset.mp hlost)
        obtain ⟨hmemRecord, hfinding⟩ := List.mem_filter.mp hrecord
        rw [decide_eq_true_eq] at hfinding
        obtain ⟨haffects, hnone⟩ := stageFinding_lost hfinding
        refine ⟨?_, hnone⟩
        rw [← reached_iff]
        apply Closure.Reached.base
        rw [List.mem_toFinset]
        apply List.mem_map.mpr ⟨record, List.mem_filter.mpr ⟨hmemRecord, haffects⟩, rfl⟩
      · refine ⟨?_, by simpa using hmark⟩
        rw [← reached_iff]
        exact .step hrecord hparent hreached
    · rintro ⟨hdisturbed, hnone⟩
      refine ⟨hmem hdisturbed, ?_⟩
      cases hdisturbed with
      | changed hstage hstate hchain =>
        left
        rw [List.mem_toFinset]
        apply List.mem_map.mpr
        refine ⟨s.chainRecord r _, List.mem_filter.mpr ⟨?_, ?_⟩, rfl⟩
        · apply mem_denominationStageChainRecords.mpr ⟨_, hstage, rfl⟩
        · simp [stageFinding, chainRecord, hnone, hstate, DenominationStageState.status]
      | spends hstage hinput hparent =>
        right
        refine ⟨_, mem_denominationStageChainRecords.mpr ⟨_, hstage, rfl⟩, rfl, ?_, ?_⟩
        · simpa [chainRecord] using hnone
        · refine ⟨_, List.mem_map.mpr ⟨_, (List.mem_insertionSort _).mpr hinput, rfl⟩, ?_⟩
          apply reached_iff.mpr hparent
  · intro found
    rw [List.mem_filterMap]
    constructor
    · rintro ⟨record, hrecord, hfound⟩
      obtain ⟨stage, hstage, rfl⟩ := mem_denominationStageChainRecords.mp hrecord
      obtain ⟨identity, hidentity, rfl⟩ := Option.map_eq_some_iff.mp hfound
      exact ⟨stage, hstage, hidentity, rfl⟩
    · rintro ⟨stage, hstage, hidentity, htxid⟩
      refine ⟨s.chainRecord r stage,
        mem_denominationStageChainRecords.mpr ⟨stage, hstage, rfl⟩, ?_⟩
      rw [hidentity, Option.map_some]
      congr 1
      exact Prod.ext htxid rfl
  · intro txid htxid
    obtain ⟨record, hrecord, rfl⟩ := List.mem_map.mp htxid
    obtain ⟨stage, hstage, rfl⟩ :=
      mem_denominationStageChainRecords.mp (List.mem_filter.mp hrecord).1
    exact ⟨stage, hstage, rfl⟩

/-! ### The stages -/

/-- The stage after a reconciliation of `r`. -/
structure Reconciled (view : ChainView) (s : Store) (r : RunId)
    (stage stage' : DenominationStage) : Prop where
  /-- Only the state and the delay of the stage are written. -/
  columns : stage' = { stage with
    state := stage'.state, broadcastNotBeforeHeight := stage'.broadcastNotBeforeHeight }
  other : stage.runId ≠ r → stage' = stage
  /-- The stage is confirmed exactly where its transaction is in the chain. -/
  identity : stage.runId = r →
    stage'.state.identity = view.localDenominationChainIdentity stage.expectedTxid
  /-- A disturbed stage that is not in the chain awaits its inputs. -/
  disturbed : stage.runId = r → view.localDenominationChainIdentity stage.expectedTxid = none →
    Disturbed view s r stage.expectedTxid → stage'.state = .awaitingInputs
  /-- Another stage that is not in the chain is as it was. -/
  kept : stage.runId = r → view.localDenominationChainIdentity stage.expectedTxid = none →
    ¬Disturbed view s r stage.expectedTxid → stage'.state = stage.state

/-- The resets of a plan, at one stage. -/
theorem foldl_reset {txids : List Txid} {stage : DenominationStage} :
  txids.foldl (fun stage txid => if isStage r txid stage then
      { stage with state := .awaitingInputs } else stage) stage
    = if stage.runId = r ∧ stage.expectedTxid ∈ txids then { stage with state := .awaitingInputs }
      else stage
  := by
  induction txids generalizing stage with
  | nil => simp
  | cons txid txids ih =>
    rw [List.foldl_cons, ih]
    by_cases hrun : stage.runId = r <;> by_cases htxid : stage.expectedTxid = txid <;>
      by_cases hrest : stage.expectedTxid ∈ txids <;> simp [isStage, hrun, htxid, hrest]

/-- The identities of a plan, at one stage. -/
theorem foldl_confirm {found : List (Txid × LocalTransactionChainIdentity)}
    (hview : ∀ tx ∈ found, view.localDenominationChainIdentity tx.1 = some tx.2)
    (stage : DenominationStage) :
  found.foldl (fun stage tx => if isStage r tx.1 stage then
      { stage with state := .confirmed stage.state.rawTx tx.2 } else stage) stage = stage
      ∧ (stage.runId = r → stage.expectedTxid ∉ found.map (·.1))
    ∨ stage.runId = r ∧ ∃ identity,
      view.localDenominationChainIdentity stage.expectedTxid = some identity
        ∧ found.foldl (fun stage tx => if isStage r tx.1 stage then
          { stage with state := .confirmed stage.state.rawTx tx.2 } else stage) stage
            = { stage with state := .confirmed stage.state.rawTx identity }
  := by
  induction found generalizing stage with
  | nil => simp
  | cons tx found ih =>
    have hrest := fun other hother => hview other (List.mem_cons_of_mem tx hother)
    rw [List.foldl_cons]
    by_cases hsel : isStage r tx.1 stage = true
    · have hsel' := hsel
      simp only [isStage, Bool.and_eq_true, decide_eq_true_eq] at hsel'
      obtain ⟨hrun, htxid⟩ := hsel'
      have hidentity := hview tx List.mem_cons_self
      right
      refine ⟨hrun, tx.2, by rw [htxid, hidentity], ?_⟩
      rw [if_pos hsel]
      rcases ih hrest { stage with state := .confirmed stage.state.rawTx tx.2 }
        with ⟨hsame, -⟩ | ⟨-, identity, hchain, hfold⟩
      · apply hsame
      · rw [hfold]
        dsimp only at hchain
        rw [htxid, hidentity] at hchain
        cases hchain
        rfl
    · rw [if_neg hsel]
      rcases ih hrest stage with ⟨hsame, hnot⟩ | hconfirm
      · left
        refine ⟨hsame, fun hrun => ?_⟩
        rw [List.map_cons, List.mem_cons, not_or]
        refine ⟨fun htxid => hsel ?_, hnot hrun⟩
        simp [isStage, hrun, htxid]
      · exact .inr hconfirm

theorem identity_of_finding {record : DenominationStageChainRecord}
    {identity : LocalTransactionChainIdentity}
    (h : (stageFinding view record).identity = some identity) :
  view.localDenominationChainIdentity record.expectedTxid = some identity
  := by
  unfold stageFinding at h
  split at h
  all_goals first
    | (cases h; assumption)
    | (split at h <;> cases h; assumption)
    | cases h

/-- A stage that is in the chain is found there, unless it is confirmed there. -/
theorem finding_of_identity {stage : DenominationStage}
    {identity : LocalTransactionChainIdentity}
    (h : view.localDenominationChainIdentity stage.expectedTxid = some identity) :
  (stageFinding view (s.chainRecord r stage)).identity = some identity
    ∨ stage.state.identity = some identity
  := by
  unfold stageFinding chainRecord
  dsimp only
  rw [h]
  cases hstate : stage.state with
  | awaitingInputs => exact .inl rfl
  | pending rawTx => exact .inl rfl
  | broadcasted rawTx => exact .inl rfl
  | confirmed rawTx stored =>
    by_cases hsame : stored = identity
    · exact .inr (congrArg some hsame)
    · left
      simp [DenominationStageState.status, DenominationStageState.identity, hsame,
        StageFinding.identity]

/-- What the second transaction makes of a stage, up to its delay. -/
def settle (r : RunId) (plan : ReorgPlan) (stage : DenominationStage) : DenominationStage :=
  (plan.identitiesToRecord.filter (·.1 ∉ plan.invalidStages)).foldl
    (fun stage tx => if isStage r tx.1 stage then
      { stage with state := .confirmed stage.state.rawTx tx.2 } else stage)
    (plan.invalidStages.foldl (fun stage txid => if isStage r txid stage then
      { stage with state := .awaitingInputs } else stage) stage)

/-- The second transaction reconciles the stages. -/
theorem settle_reconciled {plan : ReorgPlan} (hplans : Plans view s r plan)
    {stage : DenominationStage} (hstage : stage ∈ s.stages) :
  Reconciled view s r stage (settle r plan stage)
  := by
  have hview : ∀ tx ∈ plan.identitiesToRecord.filter (·.1 ∉ plan.invalidStages),
      view.localDenominationChainIdentity tx.1 = some tx.2 := by
    intro tx htx
    obtain ⟨found, hfound, hidentity, htxid⟩ :=
      (hplans.identities tx).mp (List.mem_filter.mp htx).1
    rw [← htxid]
    apply identity_of_finding hidentity
  unfold settle
  rw [foldl_reset]
  by_cases hrun : stage.runId = r
  · have hmem : stage ∈ s.stagesOf r := List.mem_filter.mpr ⟨hstage, by simpa using hrun⟩
    cases hchain : view.localDenominationChainIdentity stage.expectedTxid with
    | none =>
      have hsettled : ∀ stage' : DenominationStage, stage'.expectedTxid = stage.expectedTxid →
          (plan.identitiesToRecord.filter (·.1 ∉ plan.invalidStages)).foldl
            (fun stage tx => if isStage r tx.1 stage then
              { stage with state := .confirmed stage.state.rawTx tx.2 } else stage) stage'
            = stage' := by
        intro stage' htxid
        rcases foldl_confirm (r := r) hview stage' with ⟨hsame, -⟩ | ⟨-, _, hsome, -⟩
        · apply hsame
        · rw [htxid, hchain] at hsome
          cases hsome
      by_cases hdisturbed : Disturbed view s r stage.expectedTxid
      · rw [if_pos ⟨hrun, (hplans.invalid _).mpr ⟨hdisturbed, hchain⟩⟩,
          hsettled { stage with state := .awaitingInputs } rfl]
        exact ⟨rfl, fun h => absurd hrun h, fun _ => by rw [hchain]; rfl, fun _ _ _ => rfl,
          fun _ _ h => absurd hdisturbed h⟩
      · rw [if_neg fun h => hdisturbed ((hplans.invalid _).mp h.2).1, hsettled _ rfl]
        refine ⟨rfl, fun h => absurd hrun h, fun _ => ?_, fun _ _ h => absurd h hdisturbed,
          fun _ _ _ => rfl⟩
        rw [hchain]
        cases hstate : stage.state with
        | confirmed rawTx identity =>
          exfalso
          apply hdisturbed
          apply Disturbed.changed hmem hstate
          rw [hchain]
          simp
        | _ => rfl
    | some identity =>
      have hvalid : stage.expectedTxid ∉ plan.invalidStages := by
        intro hinvalid
        have := ((hplans.invalid _).mp hinvalid).2
        rw [hchain] at this
        cases this
      rw [if_neg fun h => hvalid h.2]
      rcases foldl_confirm (r := r) hview stage
        with ⟨hsame, hnot⟩ | ⟨-, current, hcurrent, hconfirm⟩
      · rw [hsame]
        refine ⟨rfl, fun _ => rfl, fun _ => ?_, fun _ h => ?_, fun _ _ _ => rfl⟩
        · rw [hchain]
          rcases finding_of_identity (s := s) (r := r) hchain with hfinding | hstored
          · exfalso
            apply hnot hrun
            apply List.mem_map.mpr
            refine ⟨(stage.expectedTxid, identity), List.mem_filter.mpr ⟨?_, ?_⟩, rfl⟩
            · apply (hplans.identities _).mpr ⟨stage, hmem, hfinding, rfl⟩
            · simpa using hvalid
          · apply hstored
        · rw [hchain] at h
          cases h
      · rw [hconfirm]
        rw [hchain] at hcurrent
        cases hcurrent
        refine ⟨rfl, fun h => absurd hrun h, fun _ => by rw [hchain]; rfl, fun _ h => ?_,
          fun _ h => ?_⟩
        · rw [hchain] at h
          cases h
        · rw [hchain] at h
          cases h
  · rw [if_neg fun h => hrun h.1]
    rcases foldl_confirm (r := r) hview stage with ⟨hsame, -⟩ | ⟨hsame, -⟩
    · rw [hsame]
      exact ⟨rfl, fun _ => rfl, fun h => absurd h hrun, fun h => absurd h hrun,
        fun h => absurd h hrun⟩
    · exact absurd hsame hrun

/-! ### The transactions -/

theorem StagesUnique.countP_eq_one (h : s.StagesUnique) {stage : DenominationStage}
    (hstage : stage ∈ s.stagesOf r) :
  s.stages.countP (isStage r stage.expectedTxid) = 1
  := by
  obtain ⟨hmem, hrun⟩ := List.mem_filter.mp hstage
  rw [decide_eq_true_eq] at hrun
  have hkey : (r, stage.expectedTxid)
      ∈ s.stages.map fun stage => (stage.runId, stage.expectedTxid) :=
    List.mem_map.mpr ⟨stage, hmem, by rw [hrun]⟩
  rw [← List.count_eq_one_of_mem h hkey, List.count, List.countP_map]
  congr 1

/-- Updates of stages by their transactions succeed one after the other. -/
theorem foldlM_updateStages {α : Type} (key : α → Txid)
    (f : α → DenominationStage → DenominationStage) {op : Store → α → Except String Store}
    (hf : ∀ x txid stage, isStage r txid (f x stage) = isStage r txid stage)
    (hop : ∀ s x, s.stages.countP (isStage r (key x)) = 1 →
      op s x = .ok (s.updateStages (isStage r (key x)) (f x)))
    {xs : List α} (hcount : ∀ x ∈ xs, s.stages.countP (isStage r (key x)) = 1) :
  xs.foldlM op s = .ok { s with
    stages := s.stages.map fun stage =>
      xs.foldl (fun stage x => if isStage r (key x) stage then f x stage else stage) stage }
  := by
  rw [← foldl_updateWhere]
  induction xs generalizing s with
  | nil => rfl
  | cons x xs ih =>
    rw [List.foldlM_cons, hop s x (hcount x List.mem_cons_self), List.foldl_cons]
    apply ih
    intro y hy
    have hsame : (s.updateStages (isStage r (key x)) (f x)).stages.countP (isStage r (key y))
        = s.stages.countP (isStage r (key y)) :=
      countP_updateWhere (hf x (key y))
    rw [hsame]
    apply hcount y (List.mem_cons_of_mem _ hy)

/-- A stage of `r` up to its delay. -/
def Delayed (r : RunId) (stage stage' : DenominationStage) : Prop :=
  stage' = { stage with broadcastNotBeforeHeight := stage'.broadcastNotBeforeHeight }
    ∧ (stage.runId ≠ r → stage' = stage)

/-- New delays are drawn, or a height overflows. -/
theorem rerandomize_cases {run : MigrationRun} (hrun : s.run? r = some run)
    (chainTipHeight : Nat) (delays : Nat → Nat) :
  (∃ g, s.rerandomizeRemainingPreparationBroadcastHeights r chainTipHeight delays
        = .ok { s with stages := s.stages.map g } ∧ ∀ stage, Delayed r stage (g stage))
    ∨ s.rerandomizeRemainingPreparationBroadcastHeights r chainTipHeight delays
      = .error "Migration preparation catch-up height overflow"
  := by
  unfold rerandomizeRemainingPreparationBroadcastHeights readRun
  rw [hrun]
  dsimp only [okOr]
  set remaining := ((s.stagesOf r).filter (·.state.unsubmitted)).insertionSort fun a b =>
      effectiveBroadcastHeight a < effectiveBroadcastHeight b
        ∨ effectiveBroadcastHeight a = effectiveBroadcastHeight b ∧ a.stageIndex ≤ b.stageIndex
    with hremaining
  by_cases hpolicy : run.preparationTimingPolicy = .immediate
  · left
    use id
    rw [List.map_id]
    exact ⟨by simp [hpolicy, bind, Except.bind, pure, Except.pure], fun _ => ⟨rfl, fun _ => rfl⟩⟩
  · cases hloop : remaining.foldlM (delayStage r delays) (s, chainTipHeight) with
    | error e =>
      right
      obtain ⟨acc, stage, -, hstep⟩ := exists_of_foldlM_eq_error hloop
      have he : e = "Migration preparation catch-up height overflow" := by
        unfold delayStage at hstep
        cases hadd : checkedAdd32 acc.2 (delays stage.stageIndex) with
        | none =>
          rw [hadd] at hstep
          cases hstep
          rfl
        | some height =>
          rw [hadd] at hstep
          cases hstep
      simp [hpolicy, he, bind, Except.bind]
    | ok delayed =>
      left
      have hinv : ∃ g, delayed.1 = { s with stages := s.stages.map g }
          ∧ ∀ stage, Delayed r stage (g stage) := by
        apply foldlM_invariant (I := fun acc : Store × Nat => ∃ g,
          acc.1 = { s with stages := s.stages.map g } ∧ ∀ stage, Delayed r stage (g stage)) _ _
          hloop
        · rintro acc acc' stage - ⟨g, hg, hdelayed⟩ hstep
          simp only [delayStage, bind_eq_ok, pure_eq_ok] at hstep
          obtain ⟨height, -, rfl⟩ := hstep
          rw [hg]
          unfold updateStages updateWhere
          dsimp only
          rw [List.map_map]
          refine ⟨_, rfl, fun other => ?_⟩
          rw [Function.comp_apply]
          obtain ⟨hsame, hother⟩ := hdelayed other
          split
          · rename_i hsel
            simp only [Bool.and_eq_true, decide_eq_true_eq] at hsel
            constructor
            · dsimp only
              rw [hsame]
            · intro hrunId
              rw [hsame] at hsel
              exact absurd hsel.1.1 hrunId
          · exact ⟨hsame, hother⟩
        · exact ⟨id, by simp, fun _ => ⟨rfl, fun _ => rfl⟩⟩
      obtain ⟨g, hg, hdelayed⟩ := hinv
      exact ⟨g, by simp [hpolicy, hg, bind, Except.bind, pure, Except.pure], hdelayed⟩

/-- A delay does not count for the result. -/
theorem Reconciled.delayed {stage stage' stage'' : DenominationStage}
    (h : Reconciled view s r stage stage') (hdelayed : Delayed r stage' stage'') :
  Reconciled view s r stage stage''
  := by
  obtain ⟨hsame, hother⟩ := hdelayed
  have hstate : stage''.state = stage'.state := by rw [hsame]
  have hrunId : stage'.runId = stage.runId := by rw [h.columns]
  refine ⟨?_, fun hne => ?_, ?_, ?_, ?_⟩
  · rw [hstate, hsame]
    dsimp only
    rw [h.columns]
  · rw [hother (by rwa [hrunId]), h.other hne]
  · rw [hstate]
    apply h.identity
  · rw [hstate]
    apply h.disturbed
  · rw [hstate]
    apply h.kept

/-- The second transaction of a run that is not finished reconciles its stages, or a height
overflows. -/
theorem commitStageState_cases {plan : ReorgPlan} (hplans : Plans view s r plan)
    (hstages : s.StagesUnique) {run : MigrationRun} (hrun : s.run? r = some run)
    (hlive : run.phase.releasesWalletLocks = false) (delays : Nat → Nat) :
  (∃ g, commitStageState r plan delays s = .ok { s with stages := s.stages.map g }
      ∧ ∀ stage ∈ s.stages, Reconciled view s r stage (g stage))
    ∨ commitStageState r plan delays s
      = .error "Migration preparation catch-up height overflow"
  := by
  have hcount : ∀ {txid}, (∃ stage ∈ s.stagesOf r, stage.expectedTxid = txid) →
      s.stages.countP (isStage r txid) = 1 := by
    rintro txid ⟨stage, hstage, rfl⟩
    apply hstages.countP_eq_one hstage
  have hinvalid : plan.invalidStages.foldlM (resetDenominationStageExact r) s
      = .ok { s with stages := s.stages.map fun stage =>
          plan.invalidStages.foldl (fun stage txid => if isStage r txid stage then
            { stage with state := .awaitingInputs } else stage) stage } := by
    apply foldlM_updateStages (r := r) id fun _ stage => { stage with state := .awaitingInputs }
    · exact fun _ _ _ => rfl
    · intro t txid hone
      simp only [resetDenominationStageExact, bind_eq_ok, ensure_eq_ok, pure_eq_ok]
      exact ⟨(), hone, rfl⟩
    · intro txid htxid
      apply hcount ((hplans.invalid txid).mp htxid).1.stage
  set t : Store := { s with stages := s.stages.map fun stage =>
      plan.invalidStages.foldl (fun stage txid => if isStage r txid stage then
        { stage with state := .awaitingInputs } else stage) stage } with ht
  have hconfirm : (plan.identitiesToRecord.filter (·.1 ∉ plan.invalidStages)).foldlM
      (fun s found => replaceDenominationStageConfirmationIdentity r s found.1 found.2) t
      = .ok { s with stages := s.stages.map (settle r plan) } := by
    have hone : ∀ u (tx : Txid × LocalTransactionChainIdentity),
        u.stages.countP (isStage r tx.1) = 1 →
        replaceDenominationStageConfirmationIdentity r u tx.1 tx.2
          = .ok (u.updateStages (isStage r tx.1) fun stage =>
            { stage with state := .confirmed stage.state.rawTx tx.2 }) := by
      intro u tx hone
      simp only [replaceDenominationStageConfirmationIdentity, bind_eq_ok, ensure_eq_ok,
        pure_eq_ok]
      exact ⟨(), hone, trivial⟩
    have hcounts : ∀ tx ∈ plan.identitiesToRecord.filter (·.1 ∉ plan.invalidStages),
        t.stages.countP (isStage r tx.1) = 1 := by
      intro tx htx
      obtain ⟨stage, hstage, -, htxid⟩ :=
        (hplans.identities tx).mp (List.mem_filter.mp htx).1
      have hsame : t.stages.countP (isStage r tx.1) = s.stages.countP (isStage r tx.1) := by
        rw [ht]
        dsimp only
        rw [List.countP_map]
        congr 1
        funext other
        rw [Function.comp_apply, foldl_reset]
        split <;> rfl
      rw [hsame]
      apply hcount ⟨stage, hstage, htxid⟩
    rw [foldlM_updateStages (·.1) (fun tx stage =>
        { stage with state := .confirmed stage.state.rawTx tx.2 }) (fun _ _ _ => rfl) hone hcounts,
      ht, List.map_map]
    rfl
  obtain ⟨recovered, hrecovered⟩ : ∃ recovered,
      plan.recoveredPendingTxids.mapM (s.stillPending r) = .ok recovered := by
    apply exists_mapM_eq_ok
    intro txid htxid
    obtain ⟨stage, hstage, rfl⟩ := hplans.recovered txid htxid
    obtain ⟨hmem, hid⟩ := List.mem_filter.mp hstage
    have hsome : (s.stages.find? (isStage r stage.expectedTxid)).isSome := by
      rw [List.find?_isSome]
      exact ⟨stage, hmem, by simpa [isStage] using hid⟩
    obtain ⟨found, hfound⟩ := Option.isSome_iff_exists.mp hsome
    use decide (found.state.status = .pending)
    rw [stillPending, hfound]
    rfl
  unfold commitStageState readRun
  by_cases hnothing : plan.invalidStages = [] ∧ plan.identitiesToRecord = []
  · left
    use settle r plan
    refine ⟨?_, fun stage hstage => settle_reconciled hplans hstage⟩
    rw [if_pos hnothing]
    have hid : settle r plan = id := by
      funext stage
      unfold settle
      rw [hnothing.1, hnothing.2]
      rfl
    rw [hid, List.map_id]
  · rw [if_neg hnothing, hrun]
    dsimp only [okOr]
    simp only [hlive, hrecovered, hinvalid, hconfirm, bind, Except.bind, Bool.false_eq_true,
      if_false]
    split
    · rename_i chainTipHeight _ _
      have hrunSettled : ({ s with stages := s.stages.map (settle r plan) } : Store).run? r
          = some run := hrun
      rcases rerandomize_cases hrunSettled chainTipHeight delays
        with ⟨g, hg, hdelayed⟩ | herror
      · left
        use g ∘ settle r plan
        constructor
        · rw [hg]
          simp
        · intro stage hstage
          apply (settle_reconciled hplans hstage).delayed (hdelayed _)
      · right
        apply herror
    · left
      exact ⟨settle r plan, rfl, fun stage hstage => settle_reconciled hplans hstage⟩

end Store

end Vizor
