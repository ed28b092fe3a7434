import Vizor.Store.Resign

/-!
# Broadcasts

Overdue transactions are rescheduled at random, or by the receipt of a transaction that was
broadcast from the outbox.  A broadcast moves the run on; a rejection retires it, and the
user may abandon it.
-/

namespace Vizor

open Table Run

namespace Store

/-! ### Overdue transactions -/

/-- A scheduled transaction whose broadcast height has passed. -/
def isOverdue (r : RunId) (chainTipHeight : Nat) (excluded : Option Txid) (row : PendingTx) :
    Bool :=
  row.runId = r && row.status = .scheduled
    && row.scheduledHeight.any (fun h => h ≤ chainTipHeight)
    && excluded ≠ some row.txid

/-- The new broadcast height of an overdue transaction, `offset` blocks after the tip. -/
def rescheduledHeight (chainTipHeight minimumDelayBlocks offset : Nat) : Except String Nat :=
  okOr (checkedAdd32 chainTipHeight (max offset minimumDelayBlocks))
    "Migration rescheduled height overflow"

/-- Move an overdue transaction, or mark it for a new signature when it would leave the
window of its expiry. -/
def rescheduledRow (chainTipHeight minimumDelayBlocks : Nat) (offsets : Txid → Nat)
    (row : PendingTx) : Except String PendingTx := do
  let scheduledHeight ← rescheduledHeight chainTipHeight minimumDelayBlocks (offsets row.txid)
  let canonicalExpiry ← zip318CanonicalMigrationExpiryHeight scheduledHeight
  return if canonicalExpiry ≠ row.expiryHeight then { row with status := .needsResign }
    else { row with
      scheduledHeight := some scheduledHeight
      scheduleStartHeight := some chainTipHeight }

/-- Move the overdue transactions of a run by the drawn `offsets`. -/
def rescheduleOverduePendingTxs (s : Store) (r : RunId)
    (chainTipHeight minimumDelayBlocks : Nat) (excluded : Option Txid) (offsets : Txid → Nat) :
    Except String Store :=
  if !s.pendingTxs.any (isOverdue r chainTipHeight excluded) then .ok s
  else do
    let _ ← s.readRun r "Read migration timing policy"
    let pendingTxs ← s.pendingTxs.mapM fun row =>
      if isOverdue r chainTipHeight excluded row then
        rescheduledRow chainTipHeight minimumDelayBlocks offsets row
      else .ok row
    let needsResign := (s.pendingTxs.zip pendingTxs).any fun row =>
      isOverdue r chainTipHeight excluded row.1 && row.2.status = .needsResign
    let s := { s with pendingTxs := pendingTxs }
    return if needsResign then
        s.updateRuns (fun run => run.runId = r) fun run => { run with
          phase := .readyToMigrate
          lastError := some "Migration schedule crossed a ZIP 318 expiry boundary" }
      else s

/-! ### After a broadcast -/

/-- The phase of a run after one of its transactions was broadcast. -/
def phaseAfterPendingBroadcast (s : Store) (r : RunId) (plannedCount : Nat) : Phase :=
  if s.countPendingWithStatus r .needsResign > 0 then .readyToMigrate
  else if s.countPendingWithStatus r .scheduled > 0
      || !(plannedCount > 0 && (s.pendingOf r).length = plannedCount
        && s.unpromotedSignedChildPcztCount r = 0) then .broadcastScheduled
  else .waitingMigrationConfirmations

/-- Move a run on after one of its transactions was broadcast. -/
def updateRunAfterPendingBroadcast (s : Store) (r : RunId) : Except String Store := do
  let plannedCount ← s.plannedPartCount r
  let needsResign := s.countPendingWithStatus r .needsResign > 0
  let nextPhase := s.phaseAfterPendingBroadcast r plannedCount
  return s.updateRuns (fun run => run.runId = r) fun run =>
    { run with phase := nextPhase, lastError := if needsResign then run.lastError else none }

/-- Record that a transaction was broadcast. -/
def markPendingBroadcasted (s : Store) (r : RunId) (txid : Txid) : Except String Store :=
  (s.updatePendingTxs (fun row => row.runId = r && row.txid = txid)
    fun row => { row with status := .broadcasted }).updateRunAfterPendingBroadcast r

/-! ### Receipts of the outbox -/

/-- A new broadcast height that comes with a receipt. -/
structure MigrationOutboxScheduleUpdate where
  itemId : Txid
  scheduledHeight : Nat
  scheduleStartHeight : Nat
  deriving DecidableEq, Repr

/-- Check an update against those before it. -/
def checkScheduleUpdate (accepted : Txid) (remoteHeight timingMaxBlocks : Nat)
    (checked : List Txid × Nat) (update : MigrationOutboxScheduleUpdate) :
    Except String (List Txid × Nat) := do
  ensure (update.itemId ≠ accepted) "Accepted migration outbox item cannot reschedule itself"
  ensure (update.itemId ∉ checked.1)
    s!"Migration outbox schedule update {update.itemId} is duplicated"
  ensure (update.scheduleStartHeight = remoteHeight)
    s!"Migration outbox schedule update {update.itemId} does not start at the receipt height"
  let incrementalDelay ← okOr (checkedSub32 update.scheduledHeight checked.2)
    s!"Migration outbox schedule update {update.itemId} moves backward"
  ensure (incrementalDelay ≠ 0 ∧ incrementalDelay ≤ timingMaxBlocks)
    s!"Migration outbox schedule update {update.itemId} is outside the timing window"
  return (update.itemId :: checked.1, update.scheduledHeight)

/-- The other scheduled transactions that are overdue at the height of a receipt. -/
def overduePeers (s : Store) (r : RunId) (txid : Txid) (remoteHeight : Nat) : List Txid :=
  ((s.pendingOf r).filter fun row => row.status = .scheduled
      && row.scheduledHeight.any (fun h => h ≤ remoteHeight) && row.expiryHeight > remoteHeight
      && row.txid ≠ txid).map (·.txid)

/-- Move a scheduled transaction to the height of an update, or mark it for a new signature
when it would leave the window of its expiry. -/
def updatedRow (update : MigrationOutboxScheduleUpdate) (canonicalExpiry : Nat)
    (row : PendingTx) : PendingTx :=
  if canonicalExpiry ≠ row.expiryHeight then { row with status := .needsResign }
  else { row with
    scheduledHeight := some update.scheduledHeight
    scheduleStartHeight := some update.scheduleStartHeight }

/-- Apply an update, and report whether the transaction needs a new signature. -/
def applyScheduleUpdate (r : RunId) (acc : Store × Bool)
    (update : MigrationOutboxScheduleUpdate) : Except String (Store × Bool) := do
  let s := acc.1
  let row ← okOr ((s.pendingOf r).find? fun row => row.txid = update.itemId)
    s!"Migration outbox schedule item {update.itemId} was not found"
  let canonicalExpiry ← zip318CanonicalMigrationExpiryHeight update.scheduledHeight
  if row.status = .scheduled then
    return (s.updatePendingTxs
      (fun row => row.runId = r && row.txid = update.itemId && row.status = .scheduled)
      (updatedRow update canonicalExpiry), acc.2 || canonicalExpiry ≠ row.expiryHeight)
  else do
    ensure (row.scheduledHeight = some update.scheduledHeight
        ∧ row.scheduleStartHeight = some update.scheduleStartHeight)
      s!"Migration outbox schedule item {update.itemId} is no longer scheduled"
    return (s, acc.2)

/-- Record that a transaction of the outbox was accepted, and reschedule the others. -/
def applyAcceptedMigrationOutboxReceipt (s : Store) (account : AccountUuid)
    (network : WalletNetwork) (r : RunId) (txid : Txid) (remoteHeight : Nat)
    (scheduleUpdates : List MigrationOutboxScheduleUpdate) : Except String Store := do
  let run ← okOr
    (s.runs.find? fun run =>
      run.runId = r && run.accountUuid = account && run.network = network)
    "Migration outbox receipt does not match this account and run"
  let accepted ← okOr ((s.pendingOf r).find? fun row => row.txid = txid)
    "Migration outbox receipt transaction was not found in this run"
  let timingMaxBlocks := (scheduleParametersWithPolicy network run.timingPolicy).2
  let supplied ← scheduleUpdates.foldlM (checkScheduleUpdate txid remoteHeight timingMaxBlocks)
    ([], remoteHeight)
  ensure (accepted.status = .scheduled →
      (∀ peer ∈ supplied.1, peer ∈ s.overduePeers r txid remoteHeight)
        ∧ ∀ peer ∈ s.overduePeers r txid remoteHeight, peer ∈ supplied.1)
    "Migration outbox receipt must reschedule exactly the remaining overdue items"
  let applied ← scheduleUpdates.foldlM (applyScheduleUpdate r) (s, false)
  let s := if applied.2 then
      applied.1.updateRuns (fun run => run.runId = r) fun run => { run with
        phase := .readyToMigrate
        lastError := some "Migration schedule crossed a ZIP 318 expiry boundary" }
    else applied.1
  if accepted.status = .scheduled || accepted.status = .needsResign then
    (s.updatePendingTxs (fun row => row.runId = r && row.txid = txid
        && (row.status = .scheduled || row.status = .needsResign))
      fun row => { row with status := .broadcasted }).updateRunAfterPendingBroadcast r
  else return s

/-! ### The end of a run -/

/-- Release the prepared notes of a run. -/
def unlockPreparedNotes (s : Store) (r : RunId) : Store :=
  s.updatePreparedNotes (fun row => row.runId = r) fun row => { row with locked := false }

/-- Retire a run whose transaction was rejected. -/
def retireRunForRebuild (s : Store) (r : RunId) (message : String) : Store :=
  (s.updateRuns (fun run => run.runId = r)
    fun run => { run with phase := .failedTerminal, lastError := some message }).unlockPreparedNotes r

/-- Stop a run: its phase, its signed children and its unsubmitted transactions. -/
def stopRun (s : Store) (r : RunId) (phase : Phase) : Store :=
  let s := s.updateRuns (fun run => run.runId = r && run.phase = phase)
    fun run => { run with
      phase := .abandoned, lastError := some "Migration stopped by the user." }
  let s := s.deleteSignedChildren fun child => child.runId = r
  let s := s.deletePendingTxs fun row =>
    row.runId = r && (row.status = .scheduled || row.status = .needsResign)
  let s := s.unlockPreparedNotes r
  s.updateRuns (fun run => run.runId = r) fun run => { run with
    recoveryScheduleOriginHeight := none
    recoveryScheduleMaxBlockOffset := none }

/-- Abandon a run of an account, up to the release of its locks in the wallet. -/
def abandonRun (s : Store) (account : AccountUuid) (network : WalletNetwork) (r : RunId) :
    Except String Store := do
  let run ← okOr (s.run? r) s!"Migration run {r} was not found"
  ensure (run.accountUuid = account ∧ run.network = network)
    "Migration run does not belong to this wallet account"
  if run.phase = .abandoned then return s
  else do
    ensure (run.phase ≠ .complete ∧ run.phase ≠ .failedTerminal)
      s!"Migration run is already terminal ({run.phase.asStr})"
    return s.stopRun r run.phase

/-- Remove the stages of a stopped run that were not submitted. -/
def discardUnsubmittedPreparationStages (s : Store) (r : RunId) : Store :=
  let discarded (stageIndex : Nat) : Bool := (s.stagesOf r).any fun stage =>
    stage.stageIndex = stageIndex && stage.state.unsubmitted
  { s with
    stageInputs := deleteWhere (fun row => row.runId = r && discarded row.stageIndex) s.stageInputs
    stageOutputs :=
      deleteWhere (fun row => row.runId = r && discarded row.stageIndex) s.stageOutputs
    stages := deleteWhere (fun stage => stage.runId = r && stage.state.unsubmitted) s.stages }

/-- Restore the latest run of an account if it failed because a transaction was already
accepted. -/
def recoverLatestIdempotentBroadcastFailure (s : Store) (account : AccountUuid)
    (network : WalletNetwork) : Store :=
  match s.latestIdempotentBroadcastFailure account network with
  | none => s
  | some (r, lastError) =>
    let selected (run : MigrationRun) : Bool := run.runId = r && run.phase = .failedTerminal
      && run.lastError = some lastError
    if s.runs.countP selected = 0 then s
    else (s.updateRuns selected
      fun run => { run with phase := .broadcastScheduled, lastError := none }).updatePreparedNotes
        (fun row => row.runId = r) fun row => { row with locked := true }

/-! ### What the operations may do -/

variable {l : Licence} {s s' : Store} {r : RunId}

/-- A phase may be written with the licence to do so. -/
theorem evolves_writePhase {f : MigrationRun → MigrationRun}
    (hid : ∀ run, (f run).runId = run.runId)
    (howner : ∀ run, (f run).accountUuid = run.accountUuid ∧ (f run).network = run.network)
    (htargets : ∀ run, (f run).targetValues = run.targetValues)
    (hne : ∀ run, (f run).phase ≠ .complete ∧ (f run).phase ≠ .noOrchardFunds)
    (hphase : l.rephase r) :
  Evolves l s (s.updateRuns (fun run => run.runId = r) f)
  := by
  apply evolves_updateRuns
  intro run _ hrun
  rw [decide_eq_true_eq] at hrun
  refine ⟨hid run, howner run, htargets run, .inr ⟨.inr (.inl ?_),
    fun h => absurd h (hne run).1, fun h => absurd h (hne run).2⟩⟩
  rw [hrun]
  apply hphase

/-- A rescheduled transaction stays in the window of its expiry. -/
theorem rescheduledRow_touched {chainTipHeight minimumDelayBlocks : Nat} {offsets : Txid → Nat}
    {row row' : PendingTx}
    (h : rescheduledRow chainTipHeight minimumDelayBlocks offsets row = .ok row') :
  row.Touched l row'
  := by
  obtain ⟨height, -, h⟩ := bind_eq_ok.mp h
  obtain ⟨expiry, hexpiry, h⟩ := bind_eq_ok.mp h
  obtain rfl := pure_eq_ok.mp h
  split
  · apply PendingTx.touched_of_status (by decide)
  · rename_i hcanonical
    rw [ne_eq, not_not] at hcanonical
    refine ⟨rfl, rfl, fun _ => rfl, fun _ => rfl, fun _ => .inr (.inl ?_)⟩
    use height, rfl
    rw [hexpiry, hcanonical]

/-- A change of the phase and of the error keeps the accounts and the networks of the runs. -/
def keepsOwners (s s' : Store) : Prop :=
  ∀ r network, (∃ run ∈ s'.runs, run.runId = r ∧ run.network = network)
    ↔ ∃ run ∈ s.runs, run.runId = r ∧ run.network = network

theorem keepsOwners_updateRuns {p : MigrationRun → Bool} {f : MigrationRun → MigrationRun}
    (hf : ∀ run, (f run).runId = run.runId ∧ (f run).network = run.network) :
  s.keepsOwners (s.updateRuns p f)
  := by
  intro r network
  constructor
  · rintro ⟨run', hrun', hid, hnetwork⟩
    obtain ⟨run, hrun, rfl⟩ := mem_updateWhere.mp hrun'
    use run, hrun
    split at hid <;> simp_all
  · rintro ⟨run, hrun, hid, hnetwork⟩
    use if p run then f run else run, mem_updateWhere.mpr ⟨run, hrun, rfl⟩
    split <;> simp_all

/-- Rescheduling a run changes its overdue transactions one by one. -/
theorem rescheduleOverduePendingTxs_spec {chainTipHeight minimumDelayBlocks : Nat}
    {excluded : Option Txid} {offsets : Txid → Nat}
    (h : s.rescheduleOverduePendingTxs r chainTipHeight minimumDelayBlocks excluded offsets
      = .ok s') :
  s.keepsOwners s' ∧ ∃ g : PendingTx → PendingTx, s'.pendingTxs = s.pendingTxs.map g
    ∧ ∀ row ∈ s.pendingTxs, if isOverdue r chainTipHeight excluded row then
        rescheduledRow chainTipHeight minimumDelayBlocks offsets row = .ok (g row)
      else g row = row
  := by
  rw [rescheduleOverduePendingTxs] at h
  split at h
  · rename_i hnone
    obtain rfl : s = s' := by simpa using h
    refine ⟨fun _ _ => Iff.rfl, id, by simp, fun row hrow => ?_⟩
    rw [Bool.not_eq_true', List.any_eq_false] at hnone
    rw [if_neg (hnone row hrow)]
    rfl
  · obtain ⟨_, -, h⟩ := bind_eq_ok.mp h
    obtain ⟨pendingTxs, hpending, h⟩ := bind_eq_ok.mp h
    obtain rfl := pure_eq_ok.mp h
    obtain ⟨g, rfl, hg⟩ := exists_map_of_mapM_eq_ok hpending
    constructor
    · split
      · apply keepsOwners_updateRuns
        simp
      · intro _ _
        rfl
    · use g
      constructor
      · split <;> rfl
      · intro row hrow
        have hrow' := hg row hrow
        split at hrow'
        · rename_i hdue
          rw [if_pos hdue]
          apply hrow'
        · rename_i hdue
          rw [if_neg hdue]
          simpa using hrow'.symm

/-- Rescheduling writes the phase when a transaction leaves the window of its expiry. -/
theorem rescheduleOverduePendingTxs_evolves {chainTipHeight minimumDelayBlocks : Nat}
    {excluded : Option Txid} {offsets : Txid → Nat}
    (hphase : ∀ row ∈ s.pendingTxs, isOverdue r chainTipHeight excluded row = true →
      ∀ row', rescheduledRow chainTipHeight minimumDelayBlocks offsets row = .ok row' →
        row'.status = .needsResign → l.rephase r)
    (h : s.rescheduleOverduePendingTxs r chainTipHeight minimumDelayBlocks excluded offsets
      = .ok s') :
  Evolves l s s'
  := by
  rw [rescheduleOverduePendingTxs] at h
  split at h
  · obtain rfl : s = s' := by simpa using h
    apply Evolves.refl
  · obtain ⟨_, -, h⟩ := bind_eq_ok.mp h
    obtain ⟨pendingTxs, hpending, h⟩ := bind_eq_ok.mp h
    obtain rfl := pure_eq_ok.mp h
    obtain ⟨g, rfl, hg⟩ := exists_map_of_mapM_eq_ok hpending
    have hrows : Evolves l s { s with pendingTxs := s.pendingTxs.map g } := by
      apply Change.evolves
      apply Change.pending g
      · rfl
      · rfl
      · intro row hrow
        have := hg row hrow
        split at this
        · apply rescheduledRow_touched this
        · have hsame : row = g row := by simpa using this
          rw [← hsame]
          apply PendingTx.Touched.refl
    split
    · rename_i hany
      apply Evolves.trans hrows
      apply evolves_writePhase
      · simp
      · simp
      · simp
      · simp
      · rw [List.any_eq_true] at hany
        obtain ⟨⟨row, row'⟩, hzip, hrow⟩ := hany
        rw [Bool.and_eq_true, decide_eq_true_eq] at hrow
        obtain ⟨hmem, rfl⟩ := mem_zip_map hzip
        have := hg row hmem
        rw [if_pos hrow.1] at this
        apply hphase row hmem hrow.1 (g row) this hrow.2
    · apply hrows

theorem updateRunAfterPendingBroadcast_evolves (hphase : l.rephase r)
    (h : s.updateRunAfterPendingBroadcast r = .ok s') :
  Evolves l s s'
  := by
  obtain ⟨planned, -, h⟩ := bind_eq_ok.mp h
  obtain rfl := pure_eq_ok.mp h
  apply evolves_writePhase
  · simp
  · simp
  · simp
  · intro run
    show s.phaseAfterPendingBroadcast r planned ≠ .complete
      ∧ s.phaseAfterPendingBroadcast r planned ≠ .noOrchardFunds
    rw [phaseAfterPendingBroadcast]
    split
    · decide
    · split <;> decide
  · apply hphase

theorem markPendingBroadcasted_evolves {txid : Txid} (hphase : l.rephase r)
    (h : s.markPendingBroadcasted r txid = .ok s') :
  Evolves l s s'
  := by
  apply Evolves.trans _ (updateRunAfterPendingBroadcast_evolves hphase h)
  apply evolves_updatePendingTxs
  intro row _ _
  apply PendingTx.touched_of_status (by decide)

/-- The scheduled transactions of `t` are scheduled transactions of `s`, up to their
broadcast heights. -/
def ScheduledFrom (s t : Store) : Prop :=
  ∀ row ∈ t.pendingTxs, row.status = .scheduled → ∃ old ∈ s.pendingTxs, old.status = .scheduled
    ∧ old.runId = row.runId ∧ old.txid = row.txid ∧ old.expiryHeight = row.expiryHeight

/-- An update of a receipt marks a transaction only when it leaves its window. -/
theorem applyScheduleUpdate_evolves {t t' : Store} {crossed crossed' : Bool}
    {update : MigrationOutboxScheduleUpdate} (hfrom : ScheduledFrom s t)
    (h : applyScheduleUpdate r (t, crossed) update = .ok (t', crossed')) :
  Evolves l t t' ∧ ScheduledFrom s t'
    ∧ (crossed' = true → crossed = true ∨ ∃ row ∈ s.pendingTxs, row.runId = r
      ∧ row.txid = update.itemId ∧ row.status = .scheduled
      ∧ zip318CanonicalMigrationExpiryHeight update.scheduledHeight ≠ .ok row.expiryHeight)
  := by
  simp only [applyScheduleUpdate, bind_eq_ok, okOr_eq_ok] at h
  obtain ⟨row, hrow, expiry, hexpiry, h⟩ := h
  split at h
  · rename_i hstatus
    rw [pure_eq_ok, Prod.mk.injEq] at h
    obtain ⟨rfl, rfl⟩ := h
    refine ⟨?_, ?_, ?_⟩
    · apply evolves_updatePendingTxs
      intro other _ hother
      simp only [Bool.and_eq_true, decide_eq_true_eq] at hother
      unfold updatedRow
      split
      · apply PendingTx.touched_of_status (by decide)
      · rename_i hcanonical
        rw [ne_eq, not_not] at hcanonical
        refine ⟨rfl, rfl, fun _ => rfl, fun _ => rfl, fun _ => .inr (.inl ?_)⟩
        use update.scheduledHeight, rfl
        rw [hexpiry, hcanonical]
    · intro new hnew hscheduled
      obtain ⟨old, hold, rfl⟩ := mem_updateWhere.mp hnew
      split at hscheduled
      · rename_i hsel
        simp only [Bool.and_eq_true, decide_eq_true_eq] at hsel
        obtain ⟨first, hfirst, hfirst'⟩ := hfrom old hold hsel.2
        use first, hfirst
        rw [if_pos (by simpa using hsel)]
        unfold updatedRow
        split
        · apply hfirst'
        · apply hfirst'
      · rename_i hsel
        rw [if_neg hsel]
        apply hfrom old hold hscheduled
    · intro hcrossed
      rw [Bool.or_eq_true, decide_eq_true_eq] at hcrossed
      rcases hcrossed with hcrossed | hcrossed
      · exact .inl hcrossed
      · right
        have hmem := List.mem_of_find?_eq_some hrow
        have hid : row.txid = update.itemId := by simpa using List.find?_some hrow
        obtain ⟨hmem, hrun⟩ := List.mem_filter.mp hmem
        rw [decide_eq_true_eq] at hrun
        obtain ⟨old, hold, hstatus', holdRun, holdTxid, holdExpiry⟩ := hfrom row hmem hstatus
        refine ⟨old, hold, holdRun.trans hrun, holdTxid.trans hid, hstatus', ?_⟩
        rw [hexpiry, holdExpiry]
        intro heq
        cases heq
        apply hcrossed rfl
  · obtain ⟨_, -, h⟩ := bind_eq_ok.mp h
    rw [pure_eq_ok, Prod.mk.injEq] at h
    obtain ⟨rfl, rfl⟩ := h
    exact ⟨Evolves.refl, hfrom, .inl⟩

/-- A receipt writes the phase when the accepted transaction was not recorded as broadcast,
or when another one leaves the window of its expiry. -/
theorem applyAcceptedMigrationOutboxReceipt_evolves {account : AccountUuid}
    {network : WalletNetwork} {txid : Txid} {remoteHeight : Nat}
    {scheduleUpdates : List MigrationOutboxScheduleUpdate}
    (haccepted : ∀ row ∈ s.pendingTxs, row.runId = r → row.txid = txid →
      row.status = .scheduled ∨ row.status = .needsResign → l.rephase r)
    (hcrossed : ∀ update ∈ scheduleUpdates, ∀ row ∈ s.pendingTxs, row.runId = r →
      row.txid = update.itemId → row.status = .scheduled →
      zip318CanonicalMigrationExpiryHeight update.scheduledHeight ≠ .ok row.expiryHeight →
        l.rephase r)
    (h : s.applyAcceptedMigrationOutboxReceipt account network r txid remoteHeight
      scheduleUpdates = .ok s') :
  Evolves l s s'
  := by
  simp only [applyAcceptedMigrationOutboxReceipt, bind_eq_ok, okOr_eq_ok] at h
  obtain ⟨run, -, accepted, haccept, supplied, -, _, -, ⟨t, crossed⟩, happlied, h⟩ := h
  have hloop : Evolves l s t ∧ ScheduledFrom s t ∧ (crossed = true → l.rephase r) := by
    apply foldlM_invariant (I := fun acc : Store × Bool => Evolves l s acc.1
      ∧ ScheduledFrom s acc.1 ∧ (acc.2 = true → l.rephase r)) _ _ happlied
    · rintro ⟨u, c⟩ ⟨u', c'⟩ update hupdate ⟨hu, hfrom, hc⟩ hstep
      obtain ⟨hstep, hfrom', hc'⟩ := applyScheduleUpdate_evolves (l := l) hfrom hstep
      refine ⟨Evolves.trans hu hstep, hfrom', fun h => ?_⟩
      rcases hc' h with h | ⟨row, hrow, hrun, htxid, hstatus, hne⟩
      · apply hc h
      · apply hcrossed update hupdate row hrow hrun htxid hstatus hne
    · refine ⟨Evolves.refl, fun row hrow hstatus => ⟨row, hrow, hstatus, rfl, rfl, rfl⟩, ?_⟩
      simp
  obtain ⟨hst, -, hphase⟩ := hloop
  set u : Store := if crossed = true then
      t.updateRuns (fun run => run.runId = r) fun run => { run with
        phase := .readyToMigrate
        lastError := some "Migration schedule crossed a ZIP 318 expiry boundary" }
    else t with hu
  have hsu : Evolves l s u := by
    rw [hu]
    split
    · rename_i hc
      apply Evolves.trans hst
      apply evolves_writePhase
      · simp
      · simp
      · simp
      · simp
      · apply hphase hc
    · apply hst
  split at h
  · rename_i hstatus
    have hmem := List.mem_of_find?_eq_some haccept
    have hid : accepted.txid = txid := by simpa using List.find?_some haccept
    obtain ⟨hmem, hrun⟩ := List.mem_filter.mp hmem
    rw [decide_eq_true_eq] at hrun
    have hrephase : l.rephase r := by
      apply haccepted accepted hmem hrun hid
      simpa using hstatus
    apply Evolves.trans hsu
    apply Evolves.trans _ (updateRunAfterPendingBroadcast_evolves hrephase h)
    apply evolves_updatePendingTxs
    intro row _ _
    apply PendingTx.touched_of_status (by decide)
  · obtain rfl := pure_eq_ok.mp h
    apply hsu

theorem retireRunForRebuild_evolves {message : String}
    (hphase : ∀ run ∈ s.runs, run.runId = r → run.phase ≠ .failedTerminal → l.rephase r) :
  Evolves l s (s.retireRunForRebuild r message)
  := by
  have hruns : Evolves l s (s.updateRuns (fun run => run.runId = r)
      fun run => { run with phase := .failedTerminal, lastError := some message }) := by
    apply evolves_updateRuns
    intro run hrun hid
    rw [decide_eq_true_eq] at hid
    refine ⟨rfl, ⟨rfl, rfl⟩, rfl, ?_⟩
    by_cases h : run.phase = .failedTerminal
    · exact .inl h.symm
    · right
      rw [hid]
      exact ⟨.inr (.inl (hphase run hrun hid h)), by simp⟩
  apply Evolves.trans hruns
  apply evolves_of_eq <;> rfl

/-- Only the phase that was read is written over. -/
theorem stopRun_evolves {phase : Phase} (hphase : phase.releasesWalletLocks = false) :
  Evolves l s (s.stopRun r phase)
  := by
  have hruns : Evolves l s (s.updateRuns (fun run => run.runId = r && run.phase = phase)
      fun run => { run with
        phase := .abandoned, lastError := some "Migration stopped by the user." }) := by
    apply evolves_updateRuns
    intro run _ hrun
    simp only [Bool.and_eq_true, decide_eq_true_eq] at hrun
    refine ⟨rfl, ⟨rfl, rfl⟩, rfl, .inr ⟨.inl ?_, by simp⟩⟩
    rw [hrun.2]
    apply hphase
  have hpending := hruns.trans (evolves_deletePendingTxs (l := l) (p := fun row =>
    row.runId = r && (row.status = .scheduled || row.status = .needsResign)))
  apply Evolves.trans hpending
  apply Evolves.trans _ (evolves_updateRuns_of_keep _ _ _ _)
  · apply evolves_of_eq <;> rfl
  all_goals simp

theorem abandonRun_evolves {account : AccountUuid} {network : WalletNetwork}
    (h : s.abandonRun account network r = .ok s') :
  Evolves l s s'
  := by
  obtain ⟨run, -, h⟩ := bind_eq_ok.mp h
  obtain ⟨_, -, h⟩ := bind_eq_ok.mp h
  split at h
  · obtain rfl := pure_eq_ok.mp h
    apply Evolves.refl
  · rename_i habandoned
    simp only [bind_eq_ok, ensure_eq_ok, pure_eq_ok] at h
    obtain ⟨_, hphase, rfl⟩ := h
    apply stopRun_evolves
    cases hp : run.phase <;> simp_all [Phase.releasesWalletLocks]

theorem discardUnsubmittedPreparationStages_evolves :
  Evolves l s (s.discardUnsubmittedPreparationStages r)
  := by
  apply evolves_of_eq <;> rfl

/-- The recovery writes the phase of a run that failed. -/
theorem recoverLatestIdempotentBroadcastFailure_evolves {account : AccountUuid}
    {network : WalletNetwork}
    (hrecover : ∀ r lastError, s.latestIdempotentBroadcastFailure account network
      = some (r, lastError) → l.recover r) :
  Evolves l s (s.recoverLatestIdempotentBroadcastFailure account network)
  := by
  unfold recoverLatestIdempotentBroadcastFailure
  split
  · apply Evolves.refl
  · rename_i r lastError hlatest
    dsimp only
    split
    · apply Evolves.refl
    · have hruns : Evolves l s (s.updateRuns
          (fun run => run.runId = r && run.phase = .failedTerminal
            && run.lastError = some lastError)
          fun run => { run with phase := .broadcastScheduled, lastError := none }) := by
        apply evolves_updateRuns
        intro run _ hrun
        simp only [Bool.and_eq_true, decide_eq_true_eq] at hrun
        refine ⟨rfl, ⟨rfl, rfl⟩, rfl, .inr ⟨.inr (.inr ⟨hrun.1.2, ?_⟩), by simp⟩⟩
        rw [hrun.1.1]
        apply hrecover r lastError hlatest
      apply Evolves.trans hruns
      apply evolves_of_eq <;> rfl

end Store

end Vizor
