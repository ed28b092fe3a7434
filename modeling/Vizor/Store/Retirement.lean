import Vizor.Store.Operation

/-!
# Retirement of a run

A run is retired when its transactions cannot be broadcast any more: the fee or the inputs of
a transaction changed, the network rejected one, the preparation expired, or the signed
transactions were never broadcast.  Retirement ends the run and releases its notes, so what
the network has accepted must be in the wallet before.  Most callers pass a gate that stores
again what could not be stored when it was accepted; the others retire the run as it is.
-/

namespace Vizor

open Table Run

/-! ### The database of the wallet -/

/-- Whether the wallet holds a transaction: its bytes, or its place in the chain. -/
def ChainView.holds (view : ChainView) (txid : Txid) : Bool :=
  view.localTransactionRaw txid || (view.localDenominationChainIdentity txid).isSome

/-- The database of the wallet, and what the network has accepted. -/
structure WalletDb where
  store : Store
  /-- What the wallet has scanned and stored. -/
  view : ChainView
  /-- The transactions that have a row in the wallet; a reorganization removes none. -/
  known : Txid → Bool
  /-- The transactions that the network has accepted, with their runs; no code reads it. -/
  accepted : List (RunId × Txid)
  known_of_holds : ∀ txid, view.holds txid = true → known txid = true

/-- What decides whether the transactions of a run still follow the policy. -/
structure RebuildPolicy where
  chainTipHeight : Nat
  /-- The canonical fee at a target height. -/
  canonicalMigrationFeeZatoshi : Nat → Except String Nat
  /-- The mined transactions that spend a note, by its output and its value. -/
  minedSpends : OutPoint → Nat → List Txid

namespace Store

/-- A transaction that is not in the chain. -/
def isUnconfirmed (row : PendingTx) : Bool :=
  row.status = .scheduled || row.status = .broadcasted || row.status = .needsResign

/-- The number of transactions of a run with another fee than the canonical one. -/
def noncanonicalUnconfirmedFeeCount (s : Store) (r : RunId) (canonicalFee : Nat) : Nat :=
  (s.pendingOf r).countP fun row => isUnconfirmed row && row.feeZatoshi ≠ canonicalFee

/-- The notes of a run that other transactions spend. -/
def scheduledInputsSpentByMinedTransactions (s : Store) (r : RunId)
    (minedSpends : OutPoint → Nat → List Txid) : List OutPoint :=
  ((s.pendingOf r).filter fun row => isUnconfirmed row
    && (minedSpends row.selectedOutpoint row.selectedNoteValue).any fun txid => txid ≠ row.txid).map
      (·.selectedOutpoint)

/-- Why a run has to be rebuilt, if it has to. -/
def pendingMigrationPolicyRebuildMessage (s : Store) (r : RunId) (policy : RebuildPolicy) :
    Except String (Option String) := do
  let targetHeight ← okOr (checkedAdd32 policy.chainTipHeight 1) "Migration target height overflow"
  let canonicalFee ← policy.canonicalMigrationFeeZatoshi targetHeight
  let staleFeeCount := s.noncanonicalUnconfirmedFeeCount r canonicalFee
  let externallySpent := s.scheduledInputsSpentByMinedTransactions r policy.minedSpends
  return if staleFeeCount > 0 then
      some s!"{staleFeeCount} migration transaction(s) use an outdated canonical fee. Review and approve a fresh schedule for the remaining Orchard balance."
    else if externallySpent ≠ [] then
      some s!"{externallySpent.length} scheduled migration input(s) were spent outside this run. Review and approve a revised schedule for the remaining Orchard balance."
    else none

/-- The transactions of a run that the network accepted and the wallet has not stored. -/
def broadcastedPendingTxsMissingLocalIdentity (view : ChainView) (s : Store) (r : RunId) :
    List Txid :=
  (((s.pendingOf r).filter fun row => row.status = .broadcasted).insertionSort fun a b =>
      a.scheduledHeight.getD 0 < b.scheduledHeight.getD 0
        ∨ a.scheduledHeight = b.scheduledHeight ∧ a.txid ≤ b.txid).filterMap fun row =>
    if view.localTransactionRaw row.txid then none else some row.txid

/-- The number of stages of a run that expired before they were confirmed. -/
def expiredDenominationStageCount (s : Store) (r : RunId) (observedHeight : Nat) : Nat :=
  (s.stagesOf r).countP fun stage =>
    (stage.state.unsubmitted || stage.state.status = .broadcasted)
      && stage.expiryHeight > 0 && stage.expiryHeight ≤ observedHeight

/-- The transactions that a recovery checks. -/
def unbroadcastMigrationRecoveryCandidates (s : Store) (account : AccountUuid)
    (network : WalletNetwork) (expected : RunId) : Except String (List PendingTx) := do
  let run ← okOr (s.activeRun account network) "No active migration run is available for recovery"
  ensure (run.runId = expected)
    s!"Migration recovery run changed: expected {expected}, got {run.runId}"
  let candidates := (s.pendingOf expected).filter fun row =>
    row.status = .scheduled || row.status = .broadcasted
  ensure (candidates ≠ []) "Migration recovery has no unconfirmed transactions"
  return candidates

/-- The number of blocks after its broadcast height at which an absent transaction is given
up. -/
def unbroadcastMigrationRecoverySafetyBlocks : Nat := 10

/-- Check that a transaction was not broadcast and that its window has passed. -/
def validateUnbroadcastMigrationRecoveryCandidate (chainTipHeight : Nat) (candidate : PendingTx) :
    Except String Unit := do
  ensure (candidate.status = .scheduled)
    s!"Migration transaction {candidate.txid} was already marked as broadcasted"
  let scheduledHeight ← okOr candidate.scheduledHeight
    "Read migration recovery candidate: Invalid column type Null"
  let safeRecoveryHeight ← okOr
    (checkedAdd32 scheduledHeight unbroadcastMigrationRecoverySafetyBlocks)
    "Migration recovery safety height overflow"
  ensure (safeRecoveryHeight ≤ chainTipHeight)
    s!"Migration recovery must wait until block {safeRecoveryHeight}"

end Store

/-- A retirement: the database in which it is applied, and the run. -/
structure Retirement where
  db : WalletDb
  run : RunId

/-- What the network answers to a transaction. -/
inductive BroadcastAnswer where
  /-- It is accepted; the wallet may fail to store it. -/
  | accepted (storeError : Option String)
  | failed (error : String)

/-- Whether an error is a rejection by the network. -/
def migrationBroadcastFailureRequiresRebuild (error : String) : Bool :=
  "Broadcast rejected:".toList.isPrefixOf error.toList

/-- What a broadcast of the due transactions reads from outside. -/
structure DueBroadcast where
  policy : RebuildPolicy
  /-- The transactions that the wallet fails to store again. -/
  storeError : Txid → Option String
  cancelled : Bool
  cancelledBeforeSend : Bool
  /-- What the wallet scans while the network has not answered; the run is reconciled after
  each. -/
  meanwhile : List ChainView
  answer : BroadcastAnswer

/-- The text of a status. -/
def PendingStatus.asStr : PendingStatus → String
  | .scheduled => "scheduled"
  | .broadcasted => "broadcasted"
  | .confirmed => "confirmed"
  | .needsResign => "needs_resign"

/-- The outcomes of a receipt of the outbox. -/
inductive ReceiptOutcome where
  /-- The transaction with the hash of the bytes that come with the receipt, if any. -/
  | accepted (acceptedTransaction : Option Txid) (storeError : Option String)
  | rejected (responseMessage : Option String)
  | expired
  | needsResign
  deriving DecidableEq, Repr

namespace WalletDb

/-! ### What the wallet stores -/

/-- The wallet scans, or stores a transaction. -/
def scan (w : WalletDb) (view : ChainView) : WalletDb :=
  { w with
    view := view
    known := fun txid => w.known txid || view.holds txid
    known_of_holds := fun txid h => by rw [h, Bool.or_true] }

/-- Store a transaction. -/
def decryptAndStoreMigrationTx (w : WalletDb) (txid : Txid) : WalletDb :=
  w.scan { w.view with
    localTransactionRaw := fun other => other = txid || w.view.localTransactionRaw other }

/-- Write the store. -/
def write (w : WalletDb) (s : Store) : WalletDb :=
  { w with store := s }

/-- The network accepts a transaction. -/
def networkAccepts (w : WalletDb) (r : RunId) (txid : Txid) : WalletDb :=
  { w with accepted := (r, txid) :: w.accepted }

/-- Commit a transaction of the store that returns a value. -/
def commit {α : Type} (w : WalletDb) (result : Except String (Store × α)) :
    WalletDb × Except String α :=
  match result with
  | .ok (s, a) => (w.write s, .ok a)
  | .error e => (w, .error e)

/-- Commit a transaction of the store. -/
def commitUnit (w : WalletDb) (result : Except String Store) : WalletDb × Except String Unit :=
  w.commit (result.map fun s => (s, ()))

/-- A commit that returned wrote the store. -/
theorem commitUnit_eq_ok {w : WalletDb} {result : Except String Store}
    (h : (w.commitUnit result).2 = .ok ()) :
  ∃ s, result = .ok s ∧ (w.commitUnit result).1 = w.write s
  := by
  cases result with
  | error e => cases h
  | ok s => exact ⟨s, rfl, rfl⟩

/-- Stamp a message on a run, which stays in its phase. -/
def stampRun (w : WalletDb) (r : RunId) (message : Option String) :
    WalletDb × Except String Unit :=
  w.commitUnit do
    let run ← w.store.readRun r "Read migration run phase"
    return w.store.markRunPhase r run.phase message

/-! ### The gate -/

/-- The message for a transaction that was accepted and not stored. -/
def migrationStorageRetryMessage (txLabel : String) (txid : Txid) (error : String) : String :=
  s!"{txLabel} {txid} was accepted by lightwalletd, but local wallet storage failed: {error}. Vizor will retry until local state is recorded."

/-- Try to store an accepted transaction, with the number of those stored and the last
failure. -/
def retryStore (storeError : Txid → Option String) (acc : WalletDb × Nat × Option String)
    (txid : Txid) : WalletDb × Nat × Option String :=
  match storeError txid with
  | none => (acc.1.decryptAndStoreMigrationTx txid, acc.2.1 + 1, acc.2.2)
  | some error =>
    (acc.1, acc.2.1, some (migrationStorageRetryMessage "Migration transaction" txid error))

/-- Store the accepted transactions that are not stored, and stamp the outcome on the run. -/
def retryStoreBroadcastedMigrationTxsMissingLocal (w : WalletDb) (r : RunId)
    (storeError : Txid → Option String) : WalletDb × Except String Nat :=
  let acc := (w.store.broadcastedPendingTxsMissingLocalIdentity w.view r).foldl
    (retryStore storeError) (w, 0, none)
  afterOk (if acc.2.1 > 0 then acc.1.stampRun r none else (acc.1, .ok ())) fun w _ =>
    match acc.2.2 with
    | none => (w, .ok acc.2.1)
    | some message => afterOk (w.stampRun r (some message)) fun w _ => (w, .ok acc.2.1)

/-- The gate: store what is accepted, reconcile, and ask the policy only when nothing is
missing. -/
def retryStoreThenPendingMigrationPolicyRebuildMessage (w : WalletDb) (r : RunId)
    (policy : RebuildPolicy) (storeError : Txid → Option String) :
    WalletDb × Except String (Option String) :=
  afterOk (w.retryStoreBroadcastedMigrationTxsMissingLocal r storeError) fun w _ =>
  afterOk (w.commitUnit (w.store.reconcileRunConfirmations w.view r)) fun w _ =>
    let stillMissing := (w.store.broadcastedPendingTxsMissingLocalIdentity w.view r).length
    if stillMissing > 0 then
      (w, .error s!"{stillMissing} accepted migration transaction(s) are still missing from local wallet storage. Vizor will retry until local state is recorded.")
    else (w, w.store.pendingMigrationPolicyRebuildMessage r policy)

/-! ### The callers -/

/-- Retire a run. -/
def retireRunForRebuild (w : WalletDb) (r : RunId) (message : String) :
    WalletDb × Except String (Option Retirement) :=
  (w.write (w.store.retireRunForRebuild r message), .ok (some ⟨w, r⟩))

/-- Retire a run whose transactions do not follow the policy, behind the gate. -/
def retireBehindGate (w : WalletDb) (r : RunId) (policy : RebuildPolicy)
    (storeError : Txid → Option String) : WalletDb × Except String (Option Retirement) :=
  afterOk (w.retryStoreThenPendingMigrationPolicyRebuildMessage r policy storeError) fun w message =>
    match message with
    | some message => w.retireRunForRebuild r message
    | none => (w, .ok none)

/-- The migration in the foreground, from the point where the preparation is ready to its
retirement. -/
def migrateOrchardToIronwood (w : WalletDb) (r : RunId) (policy : RebuildPolicy)
    (storeError : Txid → Option String) : WalletDb × Except String (Option Retirement) :=
  w.retireBehindGate r policy storeError

/-- The export to the outbox, from the point where the preparation is ready to its
retirement. -/
def prepareOrchardMigrationOutbox (w : WalletDb) (r : RunId) (policy : RebuildPolicy)
    (storeError : Txid → Option String) : WalletDb × Except String (Option Retirement) :=
  w.retireBehindGate r policy storeError

/-- Add the value and the fee of a transaction to the totals. -/
def addToTotals (totals : Nat × Nat) (row : PendingTx) : Except String (Nat × Nat) := do
  let value := totals.1 + row.valueZatoshi
  ensure (value < u64Size) "Migration pending value overflow"
  let fee := totals.2 + row.feeZatoshi
  ensure (fee < u64Size) "Migration pending fee overflow"
  return (value, fee)

/-- The checks of a broadcast after the gate, and the choice of the due transaction. -/
def selectDue (w : WalletDb) (r : RunId) (call : DueBroadcast) :
    WalletDb × Except String (Option Txid) :=
  let chainTipHeight := call.policy.chainTipHeight
  afterOk (w.commitUnit (w.store.reconcileRunConfirmations w.view r)) fun w _ =>
  let expiredCount := w.store.pendingTxs.countP
    (Store.pendingRowIsExpiredForResign w.view r chainTipHeight)
  if expiredCount > 0 then
    afterOk (w.commit (w.store.markExpiredPendingPartsForResign w.view r chainTipHeight))
      fun w _ => (w, .ok none)
  else
  afterOk (w.commit
      (w.store.markDuePartsWithNoncanonicalBroadcastHeightForResign w.view r chainTipHeight))
    fun w noncanonicalDueCount =>
  if noncanonicalDueCount > 0 then (w, .ok none)
  else afterOk (w.commit (w.store.duePendingTxs w.view r chainTipHeight)) fun w due =>
    match due with
    | [] => (w, .ok none)
    | txid :: _ => if call.cancelled then (w, .ok none) else (w, .ok (some txid))

/-- Mark the attempt before the transaction is handed over. -/
def markAttempt (w : WalletDb) (r : RunId) (call : DueBroadcast) (txid : Txid) :
    WalletDb × Except String (Option Txid) :=
  let w := w.write (w.store.markRunPhase r .broadcasting none)
  if call.cancelledBeforeSend then
    (w.write (w.store.markRunPhase r .broadcastScheduled
      (some "Background migration stopped before the next broadcast.")), .ok none)
  else afterOk (w.commitUnit (w.store.markPendingBroadcastAttempted r txid)) fun w _ =>
    (w, .ok (some txid))

/-- Choose the due transaction and mark the attempt. -/
def prepareSend (w : WalletDb) (r : RunId) (call : DueBroadcast) :
    WalletDb × Except String (Option Txid) :=
  afterOk (w.selectDue r call) fun w selected =>
    match selected with
    | none => (w, .ok none)
    | some txid => w.markAttempt r call txid

/-- What a broadcast of the due transactions comes to before it hands one to the network. -/
inductive HandOver where
  | done (retirement : Option Retirement)
  | sending (txid : Txid)

/-- A broadcast of the due transactions, up to the point where one is handed over. -/
def handOver (w : WalletDb) (r : RunId) (call : DueBroadcast) : WalletDb × Except String HandOver :=
  afterOk (w, (w.store.pendingOf r).foldlM addToTotals (0, 0)) fun w _ =>
  if w.store.pendingOf r = [] then (w, .ok (.done none))
  else
  afterOk (w.retryStoreThenPendingMigrationPolicyRebuildMessage r call.policy call.storeError)
    fun w message =>
  match message with
  | some message =>
    afterOk (w.retireRunForRebuild r message) fun w retirement => (w, .ok (.done retirement))
  | none =>
    afterOk (w.prepareSend r call) fun w sending =>
    match sending with
    | none => (w, .ok (.done none))
    | some txid => (w, .ok (.sending txid))

/-- The wallet scans, and the run is reconciled as after every scan. -/
def reconcileScanned (r : RunId) (w : WalletDb) (view : ChainView) : WalletDb :=
  let w := w.scan view
  w.write (committed w.store (w.store.reconcileRunConfirmations w.view r))

/-- The database when the answer of the network comes. -/
def awaitAnswer (w : WalletDb) (r : RunId) (call : DueBroadcast) : WalletDb :=
  call.meanwhile.foldl (reconcileScanned r) w

/-- Record that a transaction was accepted; it is stored again later when that fails. -/
def recordAcceptedScheduledMigrationTx (w : WalletDb) (r : RunId) (txid : Txid)
    (storeError : Option String) : WalletDb × Except String Unit :=
  match storeError with
  | some error =>
    afterOk (w.commitUnit (w.store.markPendingBroadcasted r txid)) fun w _ =>
      w.stampRun r (some (migrationStorageRetryMessage "Migration transaction" txid error))
  | none =>
    let w := w.decryptAndStoreMigrationTx txid
    w.commitUnit (w.store.markPendingBroadcasted r txid)

/-- What a broadcast makes of the answer of the network. -/
def answered (w : WalletDb) (r : RunId) (txid : Txid) (answer : BroadcastAnswer) :
    WalletDb × Except String (Option Retirement) :=
  match answer with
  | .accepted storeError =>
    afterOk ((w.networkAccepts r txid).recordAcceptedScheduledMigrationTx r txid storeError)
      fun w _ => (w, .ok none)
  | .failed error =>
    if migrationBroadcastFailureRequiresRebuild error then
      w.retireRunForRebuild r
        s!"Migration transaction {txid} was rejected by the network. Review and approve a fresh schedule for the remaining Orchard balance. Error: {error}"
    else
      (w.write (w.store.markRunPhase r .failedRecoverable
        (some s!"Migration broadcast failed for {txid}. Error: {error}")), .ok none)

/-- Broadcast the due transaction of a run, up to the rescheduling of the others. -/
def broadcastDueScheduledMigrationTxs (w : WalletDb) (r : RunId) (call : DueBroadcast) :
    WalletDb × Except String (Option Retirement) :=
  afterOk (w.handOver r call) fun w sending =>
    match sending with
    | .done retirement => (w, .ok retirement)
    | .sending txid => (w.awaitAnswer r call).answered r txid call.answer

/-- The row of a receipt and the phase of its run. -/
def migrationOutboxTxState (s : Store) (account : AccountUuid) (network : WalletNetwork)
    (r : RunId) (txid : Txid) : Except String (Phase × PendingTx) := do
  let run ← okOr
    (s.runs.find? fun run => run.runId = r && run.accountUuid = account && run.network = network)
    "Migration outbox receipt does not match this account and run"
  let row ← okOr ((s.pendingOf r).find? fun row => row.txid = txid)
    "Migration outbox receipt transaction was not found in this run"
  return (run.phase, row)

/-- The reason for the retirement of a run whose transaction the outbox could not send. -/
def rejectionMessage (txid : Txid) (responseMessage : Option String) : String :=
  match responseMessage.filter fun message => !message.isEmpty with
  | some message => s!"Swift outbox rejected migration transaction {txid}: {message}"
  | none => s!"Swift outbox rejected migration transaction {txid}"

/-- Apply a receipt of the outbox. -/
def reconcileOrchardMigrationOutboxReceipt (w : WalletDb) (account : AccountUuid)
    (network : WalletNetwork) (r : RunId) (txid : Txid) (outcome : ReceiptOutcome)
    (remoteHeight : Nat) (scheduleUpdates : List Store.MigrationOutboxScheduleUpdate) :
    WalletDb × Except String (Option Retirement) :=
  afterOk (w, migrationOutboxTxState w.store account network r txid) fun w state =>
  match outcome with
  | .accepted acceptedTransaction storeError =>
    if state.1 = .failedTerminal ∨ state.1 = .abandoned then
      (w, .error "Migration outbox receipt cannot accept a retired migration run")
    else match acceptedTransaction with
      | none => (w, .error "Accepted migration outbox receipt is missing its raw transaction")
      | some actual =>
        if actual ≠ txid then
          (w, .error s!"Accepted migration outbox transaction ID mismatch: expected {txid}, got {actual}")
        else match storeError with
          | some error => (w, .error error)
          | none =>
            let w := w.decryptAndStoreMigrationTx txid
            afterOk (w.commitUnit (w.store.applyAcceptedMigrationOutboxReceipt account network r
                txid remoteHeight scheduleUpdates)) fun w _ => (w, .ok none)
  | .rejected responseMessage =>
    if scheduleUpdates ≠ [] then
      (w, .error "Rejected migration outbox receipt cannot update schedules")
    else if state.1 = .failedTerminal then (w, .ok none)
    else w.retireRunForRebuild r (rejectionMessage txid responseMessage)
  | .expired =>
    if scheduleUpdates ≠ [] then
      (w, .error "Expired migration outbox receipt cannot update schedules")
    else if state.2.expiryHeight = 0 ∨ state.2.expiryHeight > remoteHeight then
      (w, .error "Migration outbox receipt expired before the transaction expiry height")
    else if state.2.status = .needsResign then (w, .ok none)
    else if ¬(state.2.status = .scheduled ∨ state.2.status = .broadcasted) then
      (w, .error s!"Migration outbox receipt cannot expire a transaction in status {state.2.status.asStr}")
    else afterOk (w.commit (w.store.markExpiredPendingPartsForResign w.view r remoteHeight))
      fun w updated =>
        if updated = 0 then
          (w, .error "Migration outbox expiry receipt did not find an expired transaction")
        else (w, .ok none)
  | .needsResign =>
    if scheduleUpdates ≠ [] then
      (w, .error "Migration outbox re-sign receipt cannot update schedules")
    else afterOk (w, zip318CanonicalMigrationExpiryHeight remoteHeight) fun w canonicalExpiry =>
    if state.2.expiryHeight = canonicalExpiry then
      (w, .error "Migration outbox re-sign receipt still has canonical expiry at the broadcast height")
    else if state.2.status = .needsResign then (w, .ok none)
    else if state.2.status ≠ .scheduled then
      (w, .error s!"Migration outbox receipt cannot re-sign a transaction in status {state.2.status.asStr}")
    else afterOk (w.commit
        (w.store.markDuePartsWithNoncanonicalBroadcastHeightForResign w.view r remoteHeight))
      fun w updated =>
        if updated = 0 then
          (w, .error "Migration outbox re-sign receipt did not find a due noncanonical transaction")
        else (w, .ok none)

/-- Retire a run with a stage that expired at a scanned height. -/
def retireExpiredDenominationRun (w : WalletDb) (r : RunId) (scannedHeight : Nat) :
    WalletDb × Except String (Option Retirement) :=
  let expiredCount := w.store.expiredDenominationStageCount r scannedHeight
  if expiredCount = 0 then (w, .ok none)
  else w.retireRunForRebuild r
    s!"{expiredCount} migration preparation transaction(s) expired before confirmation. Restart migration to rebuild the preparation schedule with fresh expiry heights."

/-- The preparation of a batch for the signer, up to its retirement. -/
def prepareOrchardMigrationBatchPczt (w : WalletDb) (account : AccountUuid)
    (network : WalletNetwork) (policy : RebuildPolicy) :
    WalletDb × Except String (Option Retirement) :=
  afterOk (w, okOr (w.store.activeRun account network) "No active migration run") fun w run =>
  afterOk (w, w.store.pendingMigrationPolicyRebuildMessage run.runId policy) fun w message =>
  match message with
  | some message => w.retireRunForRebuild run.runId message
  | none => (w, .ok none)

/-- The check that the endpoint does not have a transaction. -/
def checkAbsent (absent : Txid → Bool) (candidate : PendingTx) : Except String Unit :=
  ensure (absent candidate.txid = true)
    s!"Migration transaction {candidate.txid} is present in the mempool or chain"

/-- Retire a run whose transactions were absent after their windows. -/
def retireUnbroadcastOrchardMigration (w : WalletDb) (account : AccountUuid)
    (network : WalletNetwork) (r : RunId) (chainTipHeight : Nat) (absent : Txid → Bool) :
    WalletDb × Except String (Option Retirement) :=
  afterOk (w, w.store.unbroadcastMigrationRecoveryCandidates account network r)
    fun w candidates =>
  afterOk (w, candidates.forM
    (Store.validateUnbroadcastMigrationRecoveryCandidate chainTipHeight)) fun w _ =>
  afterOk (w, candidates.forM (checkAbsent absent)) fun w _ =>
  w.retireRunForRebuild r
    "The previous signed migration transactions were absent after their broadcast windows. Rebuilding with a new credential."

end WalletDb

/-! ### Runs of the wallet -/

/-- Whether an operation is a retirement. -/
def Op.retires : Op → Bool
  | .retireRunForRebuild _ _ => true
  | _ => false

/-- A step of the wallet: an operation of its store other than a retirement, a scan, an
acceptance by the network, or a call that may retire a run. -/
inductive WalletStep where
  | operation (op : Op)
  | scan (view : ChainView)
  | networkAccepts (r : RunId) (txid : Txid)
  | migrateOrchardToIronwood (r : RunId) (policy : RebuildPolicy)
      (storeError : Txid → Option String)
  | prepareOrchardMigrationOutbox (r : RunId) (policy : RebuildPolicy)
      (storeError : Txid → Option String)
  | broadcastDueScheduledMigrationTxs (r : RunId) (call : DueBroadcast)
  | reconcileOrchardMigrationOutboxReceipt (account : AccountUuid) (network : WalletNetwork)
      (r : RunId) (txid : Txid) (outcome : ReceiptOutcome) (remoteHeight : Nat)
      (scheduleUpdates : List Store.MigrationOutboxScheduleUpdate)
  | retireExpiredDenominationRun (r : RunId) (scannedHeight : Nat)
  | prepareOrchardMigrationBatchPczt (account : AccountUuid) (network : WalletNetwork)
      (policy : RebuildPolicy)
  | retireUnbroadcastOrchardMigration (account : AccountUuid) (network : WalletNetwork)
      (r : RunId) (chainTipHeight : Nat) (absent : Txid → Bool)

namespace WalletDb

/-- Take a step. -/
def perform (w : WalletDb) : WalletStep → WalletDb × Except String (Option Retirement)
  | .operation op => (if op.retires then w else w.write (w.store.step op), .ok none)
  | .scan view => (w.scan view, .ok none)
  | .networkAccepts r txid => (w.networkAccepts r txid, .ok none)
  | .migrateOrchardToIronwood r policy storeError =>
    w.migrateOrchardToIronwood r policy storeError
  | .prepareOrchardMigrationOutbox r policy storeError =>
    w.prepareOrchardMigrationOutbox r policy storeError
  | .broadcastDueScheduledMigrationTxs r call => w.broadcastDueScheduledMigrationTxs r call
  | .reconcileOrchardMigrationOutboxReceipt account network r txid outcome remoteHeight
      scheduleUpdates =>
    w.reconcileOrchardMigrationOutboxReceipt account network r txid outcome remoteHeight
      scheduleUpdates
  | .retireExpiredDenominationRun r scannedHeight =>
    w.retireExpiredDenominationRun r scannedHeight
  | .prepareOrchardMigrationBatchPczt account network policy =>
    w.prepareOrchardMigrationBatchPczt account network policy
  | .retireUnbroadcastOrchardMigration account network r chainTipHeight absent =>
    w.retireUnbroadcastOrchardMigration account network r chainTipHeight absent

/-- The database after a step. -/
def step (w : WalletDb) (s : WalletStep) : WalletDb :=
  (w.perform s).1

/-- The retirement that a step applies. -/
def retirement? (w : WalletDb) (s : WalletStep) : Option Retirement :=
  (w.perform s).2.toOption.join

/-- The retirements along a run. -/
def retirements (w : WalletDb) : List WalletStep → List Retirement
  | [] => []
  | s :: steps => (w.retirement? s).toList ++ (w.step s).retirements steps

end WalletDb

end Vizor
