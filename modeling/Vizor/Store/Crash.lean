import Vizor.Store.Reconciliation

/-!
# A reconciliation that stops

The reconciliation commits its transactions one after the other, and a process can stop
between them.  The next reconciliation finds the same plan until the stages are updated,
and its first transaction changes nothing the second time.  When the stages are updated
there is nothing left to find, so a phase that only the last statement would write is lost.
-/

namespace Vizor

open Table Run

namespace Store

variable {s s' : Store} {r : RunId} {view : ChainView}

/-! ### The first transaction -/

/-- Whether a transaction or a prepared note is funded by the transactions of a list. -/
def funds (view : ChainView) (s : Store) (r : RunId) (txids : List Txid) : Bool :=
  txids.any fun txid => s.pendingTxs.any (isReorgedChild view r txid)
    || s.preparedNotes.any (s.isReorgedNote view r txid)

/-- Remove everything that was funded by the transactions of a list at once. -/
def withoutChildrenOf (view : ChainView) (s : Store) (r : RunId) (txids : List Txid) : Store :=
  (s.deletePendingTxs fun row => txids.any fun txid => isReorgedChild view r txid row)
    |>.updatePreparedNotes (fun row => txids.any fun txid => s.isReorgedNote view r txid row)
      PreparedNote.reset

/-- A transaction that is in the chain is not removed. -/
theorem includedOutput_deletePendingTxs {p : PendingTx → Bool}
    (hp : ∀ row, p row = true → view.localDenominationChainIdentity row.txid = none)
    {outpoint : OutPoint} :
  (s.deletePendingTxs p).includedOutput view r outpoint = s.includedOutput view r outpoint
  := by
  unfold includedOutput deletePendingTxs deleteWhere
  rw [List.any_filter]
  congr 1
  funext row
  cases hrow : p row with
  | false => simp
  | true => simp [hp row hrow]

theorem isReorgedChild_not_mined {txid : Txid} {row : PendingTx}
    (h : isReorgedChild view r txid row = true) :
  view.localDenominationChainIdentity row.txid = none
  := by
  simp only [isReorgedChild, Bool.and_eq_true, Option.isNone_iff_eq_none] at h
  apply h.2

@[simp]
theorem isReorgedNote_reset {txid : Txid} {row : PreparedNote} :
  s.isReorgedNote view r txid (PreparedNote.reset row) = s.isReorgedNote view r txid row
  := rfl

/-- The notes that are reset do not depend on the transactions that are removed. -/
theorem isReorgedNote_deletePendingTxs {p : PendingTx → Bool}
    (hp : ∀ row, p row = true → view.localDenominationChainIdentity row.txid = none)
    {txid : Txid} {row : PreparedNote} :
  (s.deletePendingTxs p).isReorgedNote view r txid row = s.isReorgedNote view r txid row
  := by
  unfold isReorgedNote
  rw [includedOutput_deletePendingTxs hp]

/-- The notes that are reset after a removal are those that were before it. -/
theorem isReorgedNote_resetChildrenOf {b : Bool} {txid other : Txid} {row : PreparedNote} :
  (resetChildrenOf view r (s, b) txid).1.isReorgedNote view r other row
    = s.isReorgedNote view r other row
  := isReorgedNote_deletePendingTxs (s := s) (r := r) fun _ h => isReorgedChild_not_mined h

theorem withoutChildrenOf_nil :
  s.withoutChildrenOf view r [] = s
  := by
  unfold withoutChildrenOf updatePreparedNotes deletePendingTxs
  rw [deleteWhere_eq_self (by simp), updateWhere_eq_self (by simp)]

theorem withoutChildrenOf_cons {b : Bool} {txid : Txid} {txids : List Txid} :
  (resetChildrenOf view r (s, b) txid).1.withoutChildrenOf view r txids
    = s.withoutChildrenOf view r (txid :: txids)
  := by
  unfold withoutChildrenOf
  simp only [isReorgedNote_resetChildrenOf, List.any_cons]
  unfold resetChildrenOf updatePreparedNotes deletePendingTxs
  dsimp only
  rw [deleteWhere_deleteWhere, updateWhere_updateWhere]
  · simp
  · exact fun _ => rfl

theorem funds_cons {b : Bool} {txid : Txid} {txids : List Txid} :
  ((resetChildrenOf view r (s, b) txid).2
      || (resetChildrenOf view r (s, b) txid).1.funds view r txids)
    = (b || s.funds view r (txid :: txids))
  := by
  have hnotes : ∀ other, (resetChildrenOf view r (s, b) txid).1.preparedNotes.any
      (s.isReorgedNote view r other) = s.preparedNotes.any (s.isReorgedNote view r other) := by
    intro other
    unfold resetChildrenOf updatePreparedNotes updateWhere
    dsimp only
    rw [List.any_map]
    congr 1
    funext row
    rw [Function.comp_apply]
    split <;> rfl
  by_cases hchild : s.pendingTxs.any (isReorgedChild view r txid) = true
  · simp [resetChildrenOf, funds, hchild]
  · have hsame : (resetChildrenOf view r (s, b) txid).1.pendingTxs = s.pendingTxs := by
      apply deleteWhere_eq_self
      rw [Bool.not_eq_true, List.any_eq_false] at hchild
      intro row hrow
      simpa using hchild row hrow
    have hfunds : (resetChildrenOf view r (s, b) txid).1.funds view r txids
        = s.funds view r txids := by
      unfold funds
      congr 1
      funext other
      rw [hsame]
      congr 1
      rw [← hnotes other]
      congr 1
      funext row
      apply isReorgedNote_resetChildrenOf
    rw [hfunds]
    simp [resetChildrenOf, funds, Bool.or_assoc]

/-- The removal of what was funded by one transaction after the other removes it at once. -/
theorem foldl_resetChildrenOf {txids : List Txid} {b : Bool} :
  txids.foldl (resetChildrenOf view r) (s, b)
    = (s.withoutChildrenOf view r txids, b || s.funds view r txids)
  := by
  induction txids generalizing s b with
  | nil => simp [withoutChildrenOf_nil, funds]
  | cons txid txids ih =>
    rw [List.foldl_cons, ← withoutChildrenOf_cons (b := b), ← funds_cons]
    apply ih

/-- What the first transaction makes of a live run. -/
def childReset (view : ChainView) (s : Store) (r : RunId) (txids : List Txid) : Store :=
  if s.funds view r txids then
    (s.withoutChildrenOf view r txids).waitForDenominations r
      fun run => { run with proofRetryHeight := none }
  else s.withoutChildrenOf view r txids

theorem commitChildReset_eq {plan : ReorgPlan} (hruns : s.RunsUnique) (hlive : s.isLive r = true) :
  commitChildReset view r plan s = .ok (s.childReset view r plan.affected)
  := by
  obtain ⟨run, hrun, hphase⟩ := hruns.live_run hlive
  unfold commitChildReset resetMigrationChildrenForReorgedDenominations readRun
  rw [hrun, foldl_resetChildrenOf]
  by_cases hnil : plan.affected = []
  · rw [if_pos hnil, hnil]
    simp [childReset, withoutChildrenOf_nil, funds, bind, Except.bind, pure, Except.pure]
  · rw [if_neg hnil]
    simp only [okOr, bind, Except.bind, hphase, pure, Except.pure, Bool.false_eq_true, if_false,
      Bool.false_or]
    rfl

theorem isReorgedNote_withoutChildrenOf {txids : List Txid} {txid : Txid} {row : PreparedNote} :
  (s.withoutChildrenOf view r txids).isReorgedNote view r txid row
    = s.isReorgedNote view r txid row
  := by
  apply isReorgedNote_deletePendingTxs (s := s) (r := r)
  intro other h
  obtain ⟨funding, -, hchild⟩ := List.any_eq_true.mp h
  apply isReorgedChild_not_mined hchild

/-- What was removed is not removed again. -/
theorem withoutChildrenOf_withoutChildrenOf {txids : List Txid} :
  (s.withoutChildrenOf view r txids).withoutChildrenOf view r txids
    = s.withoutChildrenOf view r txids
  := by
  rw [withoutChildrenOf]
  simp only [isReorgedNote_withoutChildrenOf]
  unfold withoutChildrenOf updatePreparedNotes deletePendingTxs
  dsimp only
  have hreset : updateWhere (fun row => txids.any fun txid => s.isReorgedNote view r txid row)
      PreparedNote.reset (updateWhere (fun row => txids.any fun txid =>
        s.isReorgedNote view r txid row) PreparedNote.reset s.preparedNotes)
      = updateWhere (fun row => txids.any fun txid => s.isReorgedNote view r txid row)
        PreparedNote.reset s.preparedNotes :=
    updateWhere_updateWhere_self fun _ _ _ _ => rfl
  rw [deleteWhere_deleteWhere, hreset]
  simp only [Bool.or_self]

/-- What is funded after the removal was funded before it. -/
theorem funds_of_withoutChildrenOf {txids : List Txid}
    (h : (s.withoutChildrenOf view r txids).funds view r txids = true) :
  s.funds view r txids = true
  := by
  obtain ⟨txid, htxid, hfunds⟩ := List.any_eq_true.mp h
  apply List.any_eq_true.mpr
  refine ⟨txid, htxid, ?_⟩
  rw [Bool.or_eq_true] at hfunds ⊢
  rcases hfunds with hchild | hnote
  · left
    obtain ⟨row, hrow, hsel⟩ := List.any_eq_true.mp hchild
    apply List.any_eq_true.mpr ⟨row, (mem_deleteWhere.mp hrow).1, hsel⟩
  · right
    obtain ⟨row', hrow', hsel⟩ := List.any_eq_true.mp hnote
    rw [isReorgedNote_withoutChildrenOf] at hsel
    obtain ⟨row, hrow, rfl⟩ := mem_updateWhere.mp hrow'
    apply List.any_eq_true.mpr
    refine ⟨row, hrow, ?_⟩
    split at hsel <;> exact hsel

/-- A run that waits for its denominations waits for them. -/
theorem waitForDenominations_self {f : MigrationRun → MigrationRun}
    (hf : ∀ run, { f { f run with phase := .waitingDenomConfirmations, lastError := none } with
        phase := .waitingDenomConfirmations, lastError := none }
      = { f run with phase := .waitingDenomConfirmations, lastError := none }) :
  (s.waitForDenominations r f).waitForDenominations r f = s.waitForDenominations r f
  := by
  unfold waitForDenominations updateRuns
  dsimp only
  rw [updateWhere_updateWhere_self fun run _ _ _ => hf run]

/-- The first transaction changes nothing the second time. -/
theorem childReset_childReset {txids : List Txid} :
  (s.childReset view r txids).childReset view r txids = s.childReset view r txids
  := by
  have hrows : (s.childReset view r txids).withoutChildrenOf view r txids
      = s.childReset view r txids := by
    unfold childReset
    split
    · have hcomm : ((s.withoutChildrenOf view r txids).waitForDenominations r
          fun run => { run with proofRetryHeight := none }).withoutChildrenOf view r txids
          = ((s.withoutChildrenOf view r txids).withoutChildrenOf view r txids).waitForDenominations
            r fun run => { run with proofRetryHeight := none } := rfl
      rw [hcomm, withoutChildrenOf_withoutChildrenOf]
    · apply withoutChildrenOf_withoutChildrenOf
  have hfunds : (s.childReset view r txids).funds view r txids
      = (s.withoutChildrenOf view r txids).funds view r txids := by
    unfold childReset
    split <;> rfl
  rw [childReset, hrows, hfunds]
  split
  · rename_i h
    rw [childReset, if_pos (funds_of_withoutChildrenOf h)]
    apply waitForDenominations_self
    simp
  · rfl

/-! ### What a stop loses -/

/-- The stages, the transactions, the notes and the phases are the same. -/
structure SameOutcome (s s' : Store) : Prop where
  stages : s'.stages = s.stages
  stageInputs : s'.stageInputs = s.stageInputs
  stageOutputs : s'.stageOutputs = s.stageOutputs
  signedChildren : s'.signedChildren = s.signedChildren
  pendingTxs : s'.pendingTxs = s.pendingTxs
  preparedNotes : s'.preparedNotes = s.preparedNotes
  phases : ∀ r, s'.phaseOf r = s.phaseOf r

theorem SameOutcome.refl :
  s.SameOutcome s
  := ⟨rfl, rfl, rfl, rfl, rfl, rfl, fun _ => rfl⟩

/-- Only the last statement of a reconciliation would let the run wait for its
denominations: some stage left its place in the chain, and the disturbed stages fund neither
a transaction that is not in the chain nor a note that was not spent in the chain. -/
structure PhaseOwed (view : ChainView) (s : Store) (r : RunId) : Prop where
  live : s.isLive r = true
  phase : s.phaseOf r ≠ some .waitingDenomConfirmations
  disturbed : ∃ txid, Disturbed view s r txid
  children : ∀ txid, Disturbed view s r txid →
    ∀ row ∈ s.pendingTxs, isReorgedChild view r txid row = false
  notes : ∀ txid, Disturbed view s r txid →
    ∀ row ∈ s.preparedNotes, s.isReorgedNote view r txid row = false

/-- The phases after a run waits for its denominations. -/
theorem phaseOf_waitForDenominations {f : MigrationRun → MigrationRun} (hruns : s.RunsUnique)
    (hid : ∀ run, (f run).runId = run.runId) {r' : RunId} :
  (s.waitForDenominations r f).phaseOf r'
    = if r' = r ∧ s.isLive r = true then some .waitingDenomConfirmations else s.phaseOf r'
  := by
  unfold phaseOf
  rw [run?_waitForDenominations hid]
  cases hrun : s.run? r' with
  | none =>
    rw [if_neg]
    · rfl
    · rintro ⟨rfl, hlive⟩
      obtain ⟨run, hsome, -⟩ := hruns.live_run hlive
      rw [hrun] at hsome
      cases hsome
  | some run =>
    obtain ⟨hmem, hrunId⟩ := hruns.run?_eq_some.mp hrun
    by_cases hid' : r' = r
    · subst hid'
      cases hlive : s.isLive r' with
      | true => simp [hrunId, hruns.live_phase hlive hmem hrunId]
      | false => simp [not_live_phase hlive hrun]
    · simp [hid', hrunId]

theorem phaseOf_childReset (hruns : s.RunsUnique) (hlive : s.isLive r = true)
    {txids : List Txid} :
  (s.childReset view r txids).phaseOf r
    = if s.funds view r txids then some .waitingDenomConfirmations else s.phaseOf r
  := by
  unfold childReset
  split
  · have hruns' : (s.withoutChildrenOf view r txids).RunsUnique := hruns
    have hlive' : (s.withoutChildrenOf view r txids).isLive r = true := hlive
    rw [phaseOf_waitForDenominations hruns' (by simp), if_pos ⟨rfl, hlive'⟩]
  · rfl

theorem funds_eq_false_iff {txids : List Txid} :
  s.funds view r txids = false ↔ ∀ txid ∈ txids,
    (∀ row ∈ s.pendingTxs, isReorgedChild view r txid row = false)
      ∧ ∀ row ∈ s.preparedNotes, s.isReorgedNote view r txid row = false
  := by
  simp only [funds, List.any_eq_false, Bool.or_eq_true, not_or, Bool.not_eq_true]

/-! ### Stops -/

variable {chainTipHeight : Except String Nat} {delays : Nat → Nat}

/-- A reconciliation that stops after `stop` transactions, and then one that does not. -/
def restartedReconciliation (stop : Nat) (view : ChainView) (s : Store) (r : RunId)
    (chainTipHeight : Except String Nat) (delays : Nat → Nat) : Store × Option String :=
  (s.reconcileDenominationStageChainStateUpTo stop view r chainTipHeight delays).1
    |>.reconcileDenominationStageChainState view r chainTipHeight delays

/-- The first transaction is made again: the plan is the same. -/
theorem reconcile_childReset (hruns : s.RunsUnique) (hlive : s.isLive r = true)
    {plan : ReorgPlan} (hplan : reorgPlan view s r chainTipHeight = .ok plan) :
  (s.childReset view r plan.affected).reconcileDenominationStageChainState view r chainTipHeight
      delays
    = s.reconcileDenominationStageChainState view r chainTipHeight delays
  := by
  have hreset : commitChildReset view r plan s = .ok (s.childReset view r plan.affected) :=
    commitChildReset_eq hruns hlive
  obtain ⟨hsame, hlive', hpolicy⟩ := commitChildReset_keeps hreset
  have hruns' := (commitChildReset_evolves (l := .none) hreset).runsUnique hruns
  rw [hlive] at hlive'
  have hagain : commitChildReset view r plan (s.childReset view r plan.affected)
      = .ok ((s.childReset view r plan.affected).childReset view r plan.affected) :=
    commitChildReset_eq hruns' hlive'
  rw [childReset_childReset] at hagain
  unfold reconcileDenominationStageChainState reconcileDenominationStageChainStateUpTo
  rw [hsame.records, hsame.reorgPlan hpolicy, hplan]
  split
  · rename_i hrecords
    have hnil : plan.affected = [] := by
      rw [List.eq_nil_iff_forall_not_mem]
      intro txid htxid
      obtain ⟨stage, hstage, -⟩ := ((plans_of_reorgPlan hplan).affected txid |>.mp htxid).stage
      have hrecord := mem_denominationStageChainRecords.mpr ⟨stage, hstage, rfl⟩
      rw [hrecords] at hrecord
      cases hrecord
    rw [hnil]
    simp [childReset, withoutChildrenOf_nil, funds]
  · dsimp only [List.take]
    rw [commitAll_cons_ok hagain, commitAll_cons_ok hreset]

/-- The last statement is what a stop after the second transaction loses. -/
theorem sameOutcome_commitReorgPhase (hruns : s.RunsUnique) (hlive : s.isLive r = true)
    {plan : ReorgPlan} (hplans : Plans view s r plan) {stages : List DenominationStage}
    (h : commitReorgPhase r plan { s.childReset view r plan.affected with stages := stages }
      = .ok s') :
  SameOutcome s' { s.childReset view r plan.affected with stages := stages }
    ↔ ¬PhaseOwed view s r
  := by
  have hreset : commitChildReset view r plan s = .ok (s.childReset view r plan.affected) :=
    commitChildReset_eq hruns hlive
  obtain ⟨-, hlive', -⟩ := commitChildReset_keeps hreset
  rw [hlive] at hlive'
  have hruns' : ({ s.childReset view r plan.affected with stages := stages } : Store).RunsUnique :=
    (commitChildReset_evolves (l := .none) hreset).runsUnique hruns
  have hphase : ({ s.childReset view r plan.affected with stages := stages } : Store).phaseOf r
      = if s.funds view r plan.affected then some .waitingDenomConfirmations
        else s.phaseOf r := phaseOf_childReset hruns hlive
  rw [commitReorgPhase] at h
  split at h
  · rename_i hnil
    cases h
    constructor
    · rintro - howed
      obtain ⟨txid, hdisturbed⟩ := howed.disturbed
      rw [← hplans.affected, hnil] at hdisturbed
      cases hdisturbed
    · exact fun _ => .refl
  · rename_i hne
    cases h
    have hwaits : ∀ r', ({ s.childReset view r plan.affected with stages := stages }
          |>.waitForDenominations r id).phaseOf r'
        = if r' = r then some .waitingDenomConfirmations
          else ({ s.childReset view r plan.affected with stages := stages } : Store).phaseOf r' := by
      intro r'
      rw [phaseOf_waitForDenominations hruns' (by simp)]
      have hliveStages : ({ s.childReset view r plan.affected with stages := stages } :
          Store).isLive r = true := hlive'
      simp only [hliveStages, and_true]
    constructor
    · intro hsame howed
      have hlost := hsame.phases r
      rw [hwaits, if_pos rfl, hphase, if_neg] at hlost
      · apply howed.phase hlost
      · rw [Bool.not_eq_true, funds_eq_false_iff]
        intro txid htxid
        have hdisturbed := (hplans.affected txid).mp htxid
        exact ⟨howed.children txid hdisturbed, howed.notes txid hdisturbed⟩
    · intro hnot
      refine ⟨rfl, rfl, rfl, rfl, rfl, rfl, fun r' => ?_⟩
      rw [hwaits]
      split
      · rename_i hr
        rw [hr, hphase]
        split
        · rfl
        · rename_i hfunds
          rw [Bool.not_eq_true, funds_eq_false_iff] at hfunds
          by_contra hphase'
          apply hnot
          obtain ⟨txid, htxid⟩ := List.exists_mem_of_ne_nil _ hne
          exact ⟨hlive, hphase', ⟨txid, (hplans.affected txid).mp htxid⟩,
            fun txid h => (hfunds txid ((hplans.affected txid).mpr h)).1,
            fun txid h => (hfunds txid ((hplans.affected txid).mpr h)).2⟩
      · rfl

/-- The transactions of a reconciliation that has a plan. -/
theorem reconcileUpTo_eq (hrecords : s.denominationStageChainRecords r ≠ []) {plan : ReorgPlan}
    (hplan : reorgPlan view s r chainTipHeight = .ok plan) (stop : Nat) (delays : Nat → Nat) :
  s.reconcileDenominationStageChainStateUpTo stop view r chainTipHeight delays
    = commitAll ([commitChildReset view r plan, commitStageState r plan delays,
        commitReorgPhase r plan].take stop) s
  := by
  unfold reconcileDenominationStageChainStateUpTo
  rw [if_neg hrecords, hplan]

/-- A reconciliation that has no plan, or nothing to compare, stops before its first
transaction. -/
theorem reconcileUpTo_of_no_plan (h : s.denominationStageChainRecords r = []
      ∨ ∃ e, reorgPlan view s r chainTipHeight = .error e) {stop : Nat} :
  (s.reconcileDenominationStageChainStateUpTo stop view r chainTipHeight delays).1 = s
  := by
  unfold reconcileDenominationStageChainStateUpTo
  rcases h with hrecords | ⟨e, hplan⟩
  · rw [if_pos hrecords]
  · rw [hplan]
    split <;> rfl

/-- A reconciliation that stopped before it committed anything is made as a whole. -/
theorem restartedReconciliation_of_unchanged {stop : Nat}
    (h : (s.reconcileDenominationStageChainStateUpTo stop view r chainTipHeight delays).1 = s) :
  s.restartedReconciliation stop view r chainTipHeight delays
    = s.reconcileDenominationStageChainState view r chainTipHeight delays
  := by
  unfold restartedReconciliation
  rw [h]

/-- A live run whose reconciliation fails at a height that overflows. -/
theorem restartedReconciliation_of_overflow (hruns : s.RunsUnique) (hlive : s.isLive r = true)
    (hrecords : s.denominationStageChainRecords r ≠ []) {plan : ReorgPlan}
    (hplan : reorgPlan view s r chainTipHeight = .ok plan) {e : String}
    (herror : commitStageState r plan delays (s.childReset view r plan.affected) = .error e)
    (stop : Nat) :
  s.restartedReconciliation stop view r chainTipHeight delays
    = s.reconcileDenominationStageChainState view r chainTipHeight delays
  := by
  have hreset : commitChildReset view r plan s = .ok (s.childReset view r plan.affected) :=
    commitChildReset_eq hruns hlive
  rcases stop with _ | stop
  · apply restartedReconciliation_of_unchanged
    rw [reconcileUpTo_eq hrecords hplan]
    rfl
  · unfold restartedReconciliation
    have hstopped : (s.reconcileDenominationStageChainStateUpTo (stop + 1) view r chainTipHeight
        delays).1 = s.childReset view r plan.affected := by
      rw [reconcileUpTo_eq hrecords hplan, List.take_succ_cons, commitAll_cons_ok hreset]
      rcases stop with _ | stop
      · rfl
      · rw [List.take_succ_cons, commitAll_cons_error herror]
    rw [hstopped, reconcile_childReset hruns hlive hplan]

theorem commitReorgPhase_eq_ok (plan : ReorgPlan) (s : Store) :
  ∃ u, commitReorgPhase r plan s = .ok u
  := by
  unfold commitReorgPhase
  split <;> exact ⟨_, rfl⟩

/-- The state after all transactions. -/
theorem reconcileUpTo_of_settled (hruns : s.RunsUnique) (hlive : s.isLive r = true)
    (hrecords : s.denominationStageChainRecords r ≠ []) {plan : ReorgPlan}
    (hplan : reorgPlan view s r chainTipHeight = .ok plan) {t u : Store}
    (hstate : commitStageState r plan delays (s.childReset view r plan.affected) = .ok t)
    (hu : commitReorgPhase r plan t = .ok u) (n : Nat) :
  s.reconcileDenominationStageChainStateUpTo (n + 3) view r chainTipHeight delays = (u, none)
  := by
  rw [reconcileUpTo_eq hrecords hplan]
  simp only [List.take_succ_cons, List.take_nil]
  rw [commitAll_cons_ok (commitChildReset_eq hruns hlive), commitAll_cons_ok hstate,
    commitAll_cons_ok hu]
  rfl

/-- A live run whose reconciliation does not fail. -/
theorem restartedReconciliation_of_settled (hruns : s.RunsUnique) (hlive : s.isLive r = true)
    (hrecords : s.denominationStageChainRecords r ≠ []) {plan : ReorgPlan}
    (hplan : reorgPlan view s r chainTipHeight = .ok plan)
    {g : DenominationStage → DenominationStage}
    (hstate : commitStageState r plan delays (s.childReset view r plan.affected)
      = .ok { s.childReset view r plan.affected with stages := s.stages.map g })
    (hg : ∀ stage ∈ s.stages, Reconciled view s r stage (g stage)) (stop : Nat) :
  SameOutcome (s.reconcileDenominationStageChainState view r chainTipHeight delays).1
      (s.restartedReconciliation stop view r chainTipHeight delays).1
    ↔ ¬(stop = 2 ∧ PhaseOwed view s r)
  := by
  have hreset : commitChildReset view r plan s = .ok (s.childReset view r plan.affected) :=
    commitChildReset_eq hruns hlive
  obtain ⟨u, hu⟩ := commitReorgPhase_eq_ok (r := r) plan
    { s.childReset view r plan.affected with stages := s.stages.map g }
  have hwhole : s.reconcileDenominationStageChainState view r chainTipHeight delays
      = (u, none) := reconcileUpTo_of_settled hruns hlive hrecords hplan hstate hu 0
  match stop with
  | 0 =>
    have hsame : s.restartedReconciliation 0 view r chainTipHeight delays
        = s.reconcileDenominationStageChainState view r chainTipHeight delays := by
      apply restartedReconciliation_of_unchanged
      rw [reconcileUpTo_eq hrecords hplan]
      rfl
    rw [hsame]
    exact ⟨fun _ h => absurd h.1 (by simp), fun _ => .refl⟩
  | 1 =>
    have hsame : s.restartedReconciliation 1 view r chainTipHeight delays
        = s.reconcileDenominationStageChainState view r chainTipHeight delays := by
      unfold restartedReconciliation
      rw [reconcileUpTo_eq hrecords hplan]
      dsimp only [List.take]
      rw [commitAll_cons_ok hreset]
      apply reconcile_childReset hruns hlive hplan
    rw [hsame]
    exact ⟨fun _ h => absurd h.1 (by simp), fun _ => .refl⟩
  | 2 =>
    have hlost : (s.restartedReconciliation 2 view r chainTipHeight delays).1
        = { s.childReset view r plan.affected with stages := s.stages.map g } := by
      unfold restartedReconciliation reconcileDenominationStageChainState
      rw [reconcileUpTo_eq hrecords hplan]
      dsimp only [List.take]
      rw [commitAll_cons_ok hreset, commitAll_cons_ok hstate]
      have hquiet : Quiet view
          { s.childReset view r plan.affected with stages := s.stages.map g } r :=
        quiet_of_reconciled rfl hg
      dsimp only [commitAll]
      rw [hquiet.reconcile]
    rw [hlost, hwhole, sameOutcome_commitReorgPhase hruns hlive (plans_of_reorgPlan hplan) hu]
    simp
  | n + 3 =>
    have hsame : (s.restartedReconciliation (n + 3) view r chainTipHeight delays).1 = u := by
      unfold restartedReconciliation
      rw [reconcileUpTo_of_settled hruns hlive hrecords hplan hstate hu n]
      have hquiet : Quiet view u r :=
        quiet_of_reconciled (commitReorgPhase_sameStages hu).stages hg
      unfold reconcileDenominationStageChainState
      rw [hquiet.reconcile]
    rw [hsame, hwhole]
    exact ⟨fun _ h => absurd h.1 (by simp), fun _ => .refl⟩

/-- **A reconciliation that stops.**  When the reconciliation fails, the one after a stop
ends in the same state.  Otherwise it ends in the same state unless the process stopped
between the second transaction and the last statement, and the phase was owed. -/
theorem restartedReconciliation_sameOutcome (hruns : s.RunsUnique) (hstages : s.StagesUnique)
    (stop : Nat) (view : ChainView) (r : RunId) (chainTipHeight : Except String Nat)
    (delays : Nat → Nat) :
  (∀ e, (s.reconcileDenominationStageChainState view r chainTipHeight delays).2 = some e →
      (s.restartedReconciliation stop view r chainTipHeight delays).1
        = (s.reconcileDenominationStageChainState view r chainTipHeight delays).1)
    ∧ ((s.reconcileDenominationStageChainState view r chainTipHeight delays).2 = none →
      (SameOutcome (s.reconcileDenominationStageChainState view r chainTipHeight delays).1
          (s.restartedReconciliation stop view r chainTipHeight delays).1
        ↔ ¬(stop = 2 ∧ PhaseOwed view s r)))
  := by
  by_cases hplanned : s.isLive r = true ∧ s.denominationStageChainRecords r ≠ []
      ∧ ∃ plan, reorgPlan view s r chainTipHeight = .ok plan
  · obtain ⟨hlive, hrecords, plan, hplan⟩ := hplanned
    obtain ⟨t, ht, -, -, hstate⟩ :=
      commit_live hruns hstages hlive (plans_of_reorgPlan hplan) delays
    rw [commitChildReset_eq hruns hlive] at ht
    cases ht
    rcases hstate with ⟨g, hstate, hg⟩ | herror
    · obtain ⟨u, hu⟩ := commitReorgPhase_eq_ok (r := r) plan
        { s.childReset view r plan.affected with stages := s.stages.map g }
      have hwhole := reconcileUpTo_of_settled hruns hlive hrecords hplan hstate hu 0
      constructor
      · intro e he
        unfold reconcileDenominationStageChainState at he
        rw [hwhole] at he
        cases he
      · intro _
        apply restartedReconciliation_of_settled hruns hlive hrecords hplan hstate hg
    · have hsame := restartedReconciliation_of_overflow hruns hlive hrecords hplan herror stop
      constructor
      · intro _ _
        rw [hsame]
      · intro hnone
        unfold reconcileDenominationStageChainState at hnone
        rw [reconcileUpTo_eq hrecords hplan] at hnone
        dsimp only [List.take] at hnone
        rw [commitAll_cons_ok (commitChildReset_eq hruns hlive),
          commitAll_cons_error herror] at hnone
        cases hnone
  · have hunchanged : (s.reconcileDenominationStageChainStateUpTo stop view r chainTipHeight
        delays).1 = s := by
      cases hlive : s.isLive r with
      | false => exact reconcile_of_not_live hlive
      | true =>
        apply reconcileUpTo_of_no_plan
        by_cases hrecords : s.denominationStageChainRecords r = []
        · exact .inl hrecords
        · right
          cases hplan : reorgPlan view s r chainTipHeight with
          | error e => exact ⟨e, rfl⟩
          | ok plan => exact absurd ⟨hlive, hrecords, plan, hplan⟩ hplanned
    rw [restartedReconciliation_of_unchanged hunchanged]
    refine ⟨fun _ _ => rfl, fun hnone => ⟨fun _ howed => hplanned ?_, fun _ => .refl⟩⟩
    have hrecords : s.denominationStageChainRecords r ≠ [] := by
      intro hnil
      obtain ⟨txid, hdisturbed⟩ := howed.2.disturbed
      obtain ⟨stage, hstage, -⟩ := hdisturbed.stage
      have hrecord := mem_denominationStageChainRecords.mpr ⟨stage, hstage, rfl⟩
      rw [hnil] at hrecord
      cases hrecord
    refine ⟨howed.2.live, hrecords, ?_⟩
    unfold reconcileDenominationStageChainState reconcileDenominationStageChainStateUpTo at hnone
    rw [if_neg hrecords] at hnone
    cases hplan : reorgPlan view s r chainTipHeight with
    | ok plan => exact ⟨plan, rfl⟩
    | error e =>
      rw [hplan] at hnone
      cases hnone

/-! ### A stop that loses the phase -/

/-- A run whose only stage was confirmed; its transaction spends the output of the stage. -/
def sampleReorged : Store where
  runs := (sampleStages .waitingMigrationConfirmations).runs
  preparedNotes := [⟨1, ⟨10, 0, 110, 2, some 1⟩, true⟩]
  pendingTxs := [{
    runId := 1
    txid := 20
    partIndex := some 0
    targetHeight := 101
    anchorBoundaryHeight := none
    expiryHeight := 34560
    valueZatoshi := 100
    feeZatoshi := 10
    selectedNoteTxid := 10
    selectedNoteOutputIndex := 0
    selectedNoteValue := 110
    scheduleStartHeight := some 101
    scheduledHeight := some 111
    originalScheduledHeight := some 111
    status := .broadcasted }]
  stages := [sampleStage 0 10 (.confirmed none ⟨100, 1⟩)]
  stageInputs := [sampleStageInput 0 9]

/-- Both transactions are mined again, at other heights. -/
def sampleReorgedView : ChainView :=
  sampleView [(10, ⟨102, 2⟩), (20, ⟨112, 2⟩)] 1

/-- A stop after the first transaction loses nothing. -/
theorem restartedReconciliation_sameOutcome_sample :
  SameOutcome
    (sampleReorged.reconcileDenominationStageChainState sampleReorgedView 1 (.ok 113)
      fun _ => 0).1
    (sampleReorged.restartedReconciliation 1 sampleReorgedView 1 (.ok 113) fun _ => 0).1
  := by
  apply ((restartedReconciliation_sameOutcome (s := sampleReorged)
    (by unfold RunsUnique; decide +kernel) (by unfold StagesUnique; decide +kernel) 1
    sampleReorgedView 1 (.ok 113) fun _ => 0).2 (by decide +kernel)).mpr
  rintro ⟨hstop, -⟩
  cases hstop

/-- A stop after the second transaction loses the phase: the run goes on as if its
denomination were confirmed as deep as before. -/
theorem sampleReorged_phase_lost :
  (sampleReorged.reconcileDenominationStageChainState sampleReorgedView 1 (.ok 113)
      fun _ => 0).1.phaseOf 1 = some .waitingDenomConfirmations
    ∧ (sampleReorged.restartedReconciliation 2 sampleReorgedView 1 (.ok 113)
      fun _ => 0).1.phaseOf 1 = some .waitingMigrationConfirmations
  := by
  decide +kernel

end Store

end Vizor
