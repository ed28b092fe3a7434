import Vizor.Store.Confirm

/-!
# Due and expired transactions

Before transactions are broadcast, those that expired and those whose broadcast height left
the window of their expiry are marked for new signatures, in one transaction with a
reconciliation.  What remains is read by the query for due transactions and exported to the
outbox, which both check the expiry again.
-/

namespace Vizor

open Table Run

namespace Store

/-! ### Marking for new signatures -/

/-- Reconcile, mark the selected transactions for new signatures, and make the run ready to
sign when there are any. -/
def reconcileAndMarkForResign (view : ChainView) (s : Store) (r : RunId)
    (selected : PendingTx → Bool) (message : String) : Except String (Store × Nat) := do
  let s ← s.reconcileRunConfirmations view r
  let affected := s.pendingTxs.countP selected
  let s := s.updatePendingTxs selected fun row => { row with status := .needsResign }
  return (if affected > 0 then
      s.updateRuns (fun run => run.runId = r)
        fun run => { run with phase := .readyToMigrate, lastError := some message }
    else s, affected)

/-- A scheduled transaction is due, and its expiry is not the one of the chain tip. -/
def dueWithNoncanonicalBroadcastHeight (r : RunId) (chainTipHeight canonicalExpiry : Nat)
    (row : PendingTx) : Bool :=
  row.runId = r && row.status = .scheduled
    && row.scheduledHeight.any (fun h => h ≤ chainTipHeight)
    && row.expiryHeight ≠ canonicalExpiry

/-- Mark due transactions that expire outside the window of the chain tip. -/
def markDuePartsWithNoncanonicalBroadcastHeightForResign (view : ChainView) (s : Store)
    (r : RunId) (chainTipHeight : Nat) : Except String (Store × Nat) := do
  let canonicalExpiry ← zip318CanonicalMigrationExpiryHeight chainTipHeight
  s.reconcileAndMarkForResign view r
    (dueWithNoncanonicalBroadcastHeight r chainTipHeight canonicalExpiry)
    "Migration broadcast height crossed a ZIP 318 expiry boundary"

/-- An unconfirmed transaction that expired; a broadcast one only when it was stored. -/
def pendingRowIsExpiredForResign (view : ChainView) (r : RunId) (chainTipHeight : Nat)
    (row : PendingTx) : Bool :=
  row.runId = r && row.expiryHeight ≠ 0 && row.expiryHeight ≤ chainTipHeight
    && (row.status = .scheduled
      || row.status = .broadcasted && view.localTransactionRaw row.txid)

/-- Mark expired transactions. -/
def markExpiredPendingPartsForResign (view : ChainView) (s : Store) (r : RunId)
    (chainTipHeight : Nat) : Except String (Store × Nat) :=
  s.reconcileAndMarkForResign view r (pendingRowIsExpiredForResign view r chainTipHeight)
    "Expired migration parts must be re-signed with fresh anchors and expiry heights."

/-! ### Due transactions -/

/-- The first due transaction that is not in the chain, in the order of `rows`. -/
def firstDue (view : ChainView) : List PendingTx → Except String (List Txid)
  | [] => .ok []
  | row :: rows =>
    if (view.localDenominationChainIdentity row.txid).isSome then firstDue view rows
    else do
      let scheduledHeight ← okOr row.scheduledHeight
        "Read due migration tx: Invalid column type Null"
      let canonicalExpiry ← zip318CanonicalMigrationExpiryHeight scheduledHeight
      ensure (row.expiryHeight = canonicalExpiry)
        s!"Due migration transaction {row.txid} expiry is not canonical for scheduled height {scheduledHeight}"
      return [row.txid]

/-- The due transactions of a run in the order of their broadcast heights. -/
def dueRows (s : Store) (r : RunId) (chainTipHeight : Nat) : List PendingTx :=
  ((s.pendingOf r).filter fun row => row.status = .scheduled
      && row.scheduledHeight.any fun h => h ≤ chainTipHeight).insertionSort fun a b =>
    a.scheduledHeight.getD 0 < b.scheduledHeight.getD 0
      ∨ a.scheduledHeight = b.scheduledHeight ∧ a.txid ≤ b.txid

/-- The transaction to broadcast, after a reconciliation. -/
def duePendingTxs (view : ChainView) (s : Store) (r : RunId) (chainTipHeight : Nat) :
    Except String (Store × List Txid) := do
  let s ← s.reconcileRunConfirmations view r
  let due ← firstDue view (s.dueRows r chainTipHeight)
  return (s, due)

/-! ### The outbox -/

/-- A transaction as it is exported. -/
structure MigrationOutboxItem where
  partIndex : Nat
  txid : Txid
  anchorBoundaryHeight : Nat
  scheduledHeight : Nat
  scheduleStartHeight : Nat
  expiryHeight : Nat
  deriving DecidableEq, Repr

/-- Check a transaction for the export. -/
def exportItem (row : PendingTx) : Except String MigrationOutboxItem := do
  let scheduledHeight ← okOr row.scheduledHeight
    "Read migration outbox export: Invalid column type Null"
  let partIndex ← okOr row.partIndex
    s!"Migration outbox transaction {row.txid} is missing its part index"
  let anchorBoundaryHeight ← okOr row.anchorBoundaryHeight
    s!"Migration outbox transaction {row.txid} is missing its anchor boundary"
  let scheduleStartHeight ← okOr row.scheduleStartHeight
    s!"Migration outbox transaction {row.txid} is missing its schedule origin"
  ensure (scheduledHeight < row.expiryHeight)
    s!"Migration outbox transaction {row.txid} is scheduled at or after expiry"
  let canonicalExpiry ← zip318CanonicalMigrationExpiryHeight scheduledHeight
  ensure (row.expiryHeight = canonicalExpiry)
    s!"Migration outbox transaction {row.txid} expiry is not canonical for scheduled height {scheduledHeight}"
  return ⟨partIndex, row.txid, anchorBoundaryHeight, scheduledHeight, scheduleStartHeight,
    row.expiryHeight⟩

/-- The transactions that are exported, in the order of their broadcast heights. -/
def exportItems (s : Store) (r : RunId) : Except String (List MigrationOutboxItem) :=
  (((s.pendingOf r).filter fun row => row.status = .scheduled).insertionSort fun a b =>
      a.scheduledHeight.getD 0 < b.scheduledHeight.getD 0
        ∨ a.scheduledHeight = b.scheduledHeight
          ∧ (a.partIndex.getD 0 < b.partIndex.getD 0
            ∨ a.partIndex = b.partIndex ∧ a.txid ≤ b.txid)).mapM exportItem

/-! ### Confirmed denominations -/

/-- The distance between anchors. -/
def anchorBucketModulus : WalletNetwork → MigrationTimingPolicy → Nat
  | .regtest, .fastTestnet => 12
  | .regtest, _ => 1
  | .test, .fastTestnet => 12
  | _, _ => 144

/-- The number of anchors that a proof waits for. -/
def anchorBucketMinAge : WalletNetwork → MigrationTimingPolicy → Nat
  | .regtest, .fastTestnet => 1
  | .regtest, _ => 0
  | .test, .fastTestnet => 1
  | _, .standard90MinutesLatestAnchor => 0
  | _, _ => 1

/-- The first anchor that contains a note. -/
def anchorBoundaryContainingNoteWithPolicy (network : WalletNetwork)
    (timingPolicy : MigrationTimingPolicy) (minedHeight : Nat) : Except String Nat :=
  let modulus := anchorBucketModulus network timingPolicy
  if minedHeight % modulus = 0 then .ok minedHeight
  else okOr (checkedAdd32 minedHeight (modulus - minedHeight % modulus))
    "Migration anchor boundary overflow"

/-- The height at which a note can be proved. -/
def proofReadyHeightForNoteMinedHeight (view : ChainView) (network : WalletNetwork)
    (timingPolicy : MigrationTimingPolicy) (minedHeight : Nat) : Except String Nat := do
  let boundary ← anchorBoundaryContainingNoteWithPolicy network timingPolicy minedHeight
  let aged ← okOr
    (checkedAdd32 boundary
      (anchorBucketModulus network timingPolicy * anchorBucketMinAge network timingPolicy))
    "Migration proof readiness height overflow"
  okOr (checkedAdd32 aged (view.denominationConfirmationsRequired - 1))
    "Migration proof readiness height overflow"

/-- The prepared notes of a run with their nullifiers and heights, if all can be spent. -/
def confirmedPreparedDenominationNotes (view : ChainView) (s : Store) (r : RunId) :
    Option (List (PreparedOrchardNoteRef × Nat × Nat)) :=
  (s.preparedOf r).mapM fun row => do
    let metadata ← view.noteSpendMetadata row.note
    return (row.note, metadata)

/-- Whether the wallet trusts a height. -/
def trustsHeight (view : ChainView) (height : Nat) : Bool :=
  view.denominationConfirmationsRequired ≤ view.syncedOrchardConfirmationCount height

/-- Confirm a stage at its inclusion, unless it was confirmed at it before. -/
def markDenominationStageConfirmedAt (s : Store) (r : RunId) (txid : Txid)
    (identity : LocalTransactionChainIdentity) : Except String Store :=
  let selected (stage : DenominationStage) : Bool := stage.runId = r && stage.expectedTxid = txid
    && (stage.state.status = .pending || stage.state.status = .broadcasted)
  if s.stages.countP selected = 1 then
    .ok (s.updateStages selected fun stage =>
      { stage with state := .confirmed stage.state.rawTx identity })
  else do
    let stage ← okOr ((s.stagesOf r).find? fun stage => stage.expectedTxid = txid)
      s!"Migration denomination stage {txid} was not found"
    match stage.state with
    | .confirmed _ stored =>
      if stored = identity then return s
      else .error s!"Migration denomination stage {txid} moved to a different chain inclusion"
    | state =>
      .error s!"Cannot move migration denomination stage from {state.status.asStr} to confirmed"

/-- Confirm the stages one after the other, up to the first failure. -/
def markStagesConfirmed (r : RunId) :
    Store → List (Txid × LocalTransactionChainIdentity) → Store × Bool
  | s, [] => (s, true)
  | s, (txid, identity) :: stages =>
    match s.markDenominationStageConfirmedAt r txid identity with
    | .ok s => markStagesConfirmed r s stages
    | .error _ => (s, false)

/-- Record the nullifiers of the prepared notes of a run. -/
def recordNullifiers (s : Store) (r : RunId)
    (confirmed : List (PreparedOrchardNoteRef × Nat × Nat)) : Store :=
  confirmed.foldl (fun s note => s.updatePreparedNotes
    (fun row => row.runId = r && row.note.outpoint = note.1.outpoint)
    fun row => { row with note := { row.note with nullifier := some note.2.1 } }) s

/-- Make a run ready to migrate when all its denominations are trusted.  The statements are
not in one transaction, so those before a failure stay. -/
def reconcileDenominationConfirmations (view : ChainView) (s : Store) (r : RunId) : Store :=
  match s.run? r, s.confirmedPreparedDenominationNotes view r,
      (s.stagesOf r).mapM fun stage => do
        let identity ← view.localDenominationChainIdentity stage.expectedTxid
        if trustsHeight view identity.minedHeight then some (stage.expectedTxid, identity)
        else none with
  | some run, some confirmed, some stageIdentities =>
    if run.phase ≠ .waitingDenomConfirmations || confirmed.isEmpty
        || !trustsHeight view (confirmed.foldl (fun m note => max m note.2.2) 0) then s
    else match confirmed.foldlM (fun ready note => do
        let height ← proofReadyHeightForNoteMinedHeight view run.network run.timingPolicy note.2.2
        return max ready height) 0 with
    | .error _ => s
    | .ok proofReadyHeight =>
      let marked := markStagesConfirmed r (s.recordNullifiers r confirmed) stageIdentities
      if marked.2 then marked.1.updateRuns
          (fun run => run.runId = r && run.phase = .waitingDenomConfirmations)
          fun run => { run with
            phase := .readyToMigrate
            proofRetryHeight := some proofReadyHeight
            lastError := none }
      else marked.1
  | _, _, _ => s

/-- The height at which all prepared notes of a run can be proved, if all are mined. -/
def preparedNotesProofReadyHeight (view : ChainView) (s : Store) (run : MigrationRun) :
    Except String (Option Nat) :=
  match (s.preparedOf run.runId).mapM fun row =>
      view.localDenominationChainIdentity row.note.txid with
  | none | some [] => .ok none
  | some identities => do
    let ready ← identities.foldlM (fun ready identity => do
      let height ← proofReadyHeightForNoteMinedHeight view run.network run.timingPolicy
        identity.minedHeight
      return max ready height) 0
    return some ready

/-- Record when the proofs of a run can be made, if that was not recorded. -/
def backfillReadyMigrationProofRetryHeight (view : ChainView) (s : Store) (r : RunId) :
    Except String Store := do
  let run ← s.readRun r "Read ready migration proof retry state"
  if run.phase ≠ .readyToMigrate || run.proofRetryHeight.isSome
      || s.unpromotedSignedChildPcztCount r = 0 then return s
  else do
    let ready ← s.preparedNotesProofReadyHeight view run
    let readyHeight ← okOr ready
      "Ready migration notes are missing their canonical mined height"
    return s.updateRuns (fun run => run.runId = r && run.proofRetryHeight.isNone)
      fun run => { run with proofRetryHeight := some readyHeight }

/-! ### What the operations may do -/

variable {l : Licence} {s s' : Store} {r : RunId} {view : ChainView}

/-- Marking transactions writes the phase of their run, which is live after a
reconciliation unless it was not live before. -/
theorem reconcileAndMarkForResign_evolves {selected : PendingTx → Bool} {message : String}
    {affected : Nat} (hunique : s.RunsUnique)
    (hdemote : ∀ row ∈ s.pendingTxs, row.runId = r → row.status = .confirmed →
      view.localDenominationChainIdentity row.txid = none → s.isLive r = true → l.demote row)
    (hcomplete : l.complete r)
    (hselected : ∀ row, selected row = true → row.runId = r ∧ row.status ≠ .confirmed)
    (hphase : (∃ row ∈ s.pendingTxs, selected row = true) → l.rephase r)
    (h : s.reconcileAndMarkForResign view r selected message = .ok (s', affected)) :
  Evolves l s s'
  := by
  simp only [reconcileAndMarkForResign, bind_eq_ok, pure_eq_ok, Prod.mk.injEq] at h
  obtain ⟨t, ht, rfl, rfl⟩ := h
  have hst := reconcileRunConfirmations_evolves hdemote hcomplete ht
  have hmark : Evolves l t (t.updatePendingTxs selected
      fun row => { row with status := .needsResign }) := by
    apply evolves_updatePendingTxs
    intro row _ _
    apply PendingTx.touched_of_status (by decide)
  apply Evolves.trans hst
  split
  · rename_i haffected
    apply Evolves.trans hmark
    apply evolves_updateRuns
    intro run hrun hid
    rw [decide_eq_true_eq] at hid
    refine ⟨rfl, ⟨rfl, rfl⟩, rfl, .inr ⟨?_, by simp⟩⟩
    obtain ⟨row, hrow, hsel⟩ := List.countP_pos_iff.mp haffected
    by_cases hlive : s.isLive r = true
    · rcases reconcileRunConfirmations_completed hlive ht with htlive | hcompleted
      · left
        apply (hst.runsUnique hunique).live_phase htlive hrun hid
      · obtain ⟨hrowId, hstatus⟩ := hselected row hsel
        have hmem : row ∈ t.pendingOf r := List.mem_filter.mpr ⟨hrow, by simpa using hrowId⟩
        exact absurd (hcompleted.confirmed row hmem) hstatus
    · rw [Bool.not_eq_true] at hlive
      rw [reconcileRunConfirmations_of_not_live hlive ht] at hrow
      right
      left
      rw [hid]
      apply hphase ⟨row, hrow, hsel⟩
  · apply hmark

theorem markStagesConfirmed_keeps (stages : List (Txid × LocalTransactionChainIdentity)) :
  (markStagesConfirmed r s stages).1.runs = s.runs
    ∧ (markStagesConfirmed r s stages).1.pendingTxs = s.pendingTxs
  := by
  induction stages generalizing s with
  | nil => exact ⟨rfl, rfl⟩
  | cons stage stages ih =>
    obtain ⟨txid, identity⟩ := stage
    rw [markStagesConfirmed]
    split
    · rename_i t ht
      obtain ⟨hruns, hpending⟩ := ih (s := t)
      rw [hruns, hpending]
      rw [markDenominationStageConfirmedAt] at ht
      split at ht
      · cases ht
        exact ⟨rfl, rfl⟩
      · obtain ⟨stage, -, ht⟩ := bind_eq_ok.mp ht
        split at ht
        · split at ht
          · rw [← pure_eq_ok.mp ht]
            exact ⟨rfl, rfl⟩
          · cases ht
        · cases ht
    · exact ⟨rfl, rfl⟩

theorem recordNullifiers_keeps {confirmed : List (PreparedOrchardNoteRef × Nat × Nat)} :
  (s.recordNullifiers r confirmed).runs = s.runs
    ∧ (s.recordNullifiers r confirmed).pendingTxs = s.pendingTxs
  := by
  unfold recordNullifiers
  induction confirmed generalizing s with
  | nil => exact ⟨rfl, rfl⟩
  | cons note confirmed ih =>
    rw [List.foldl_cons, ih.1, ih.2]
    exact ⟨rfl, rfl⟩

theorem reconcileDenominationConfirmations_evolves :
  Evolves l s (s.reconcileDenominationConfirmations view r)
  := by
  unfold reconcileDenominationConfirmations
  split
  · split
    · apply Evolves.refl
    · split
      · apply Evolves.refl
      · rename_i run confirmed stageIdentities _ _ _ _ _ proofReadyHeight _
        have hkeeps := markStagesConfirmed_keeps (r := r) (s := s.recordNullifiers r confirmed)
          stageIdentities
        have hsame : Evolves l s
            (markStagesConfirmed r (s.recordNullifiers r confirmed) stageIdentities).1 := by
          apply evolves_of_eq
          · rw [hkeeps.1, recordNullifiers_keeps.1]
          · rw [hkeeps.2, recordNullifiers_keeps.2]
        dsimp only
        split
        · apply Evolves.trans hsame
          apply evolves_updateRuns
          intro run _ hrun
          simp only [Bool.and_eq_true, decide_eq_true_eq] at hrun
          refine ⟨rfl, ⟨rfl, rfl⟩, rfl, .inr ⟨.inl ?_, by simp⟩⟩
          rw [hrun.2]
          rfl
        · apply hsame
  · apply Evolves.refl

theorem backfillReadyMigrationProofRetryHeight_evolves
    (h : s.backfillReadyMigrationProofRetryHeight view r = .ok s') :
  Evolves l s s'
  := by
  obtain ⟨run, -, h⟩ := bind_eq_ok.mp h
  split at h
  · obtain rfl := pure_eq_ok.mp h
    apply Evolves.refl
  · obtain ⟨ready, -, h⟩ := bind_eq_ok.mp h
    obtain ⟨readyHeight, -, h⟩ := bind_eq_ok.mp h
    obtain rfl := pure_eq_ok.mp h
    apply evolves_updateRuns_of_keep <;> simp

end Store

end Vizor
