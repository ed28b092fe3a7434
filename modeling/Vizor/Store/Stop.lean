import Vizor.Store.Retirement

/-!
# The stop of a run

A broadcast marks its attempt in the store before the transaction is handed to the network,
and records the answer after it.  The process may end at any point in between.  A stop reads
the marks, asks an endpoint for the transactions that may be on the network, and abandons the
run only when each of them is found, or absent after its expiry.
-/

namespace Vizor

open Table Run

/-- What a stop looks for. -/
inductive MigrationStopCandidateKind where
  | denominationStage
  | migrationTransaction
  deriving DecidableEq, Repr

/-- A transaction that a stop may have to look for. -/
structure MigrationStopCandidate where
  kind : MigrationStopCandidateKind
  txid : Txid
  broadcastHeight : Nat
  expiryHeight : Nat
  attemptState : MigrationBroadcastAttemptState
  deriving DecidableEq, Repr

/-- What the endpoint answers when it is asked for a transaction. -/
inductive EndpointAnswer where
  /-- The bytes of a transaction, which the wallet may fail to store. -/
  | found (actual : Txid) (storeError : Option String)
  | notFound
  | failed (status : String)
  deriving DecidableEq, Repr

/-- The endpoint that a stop asks. -/
structure StopEndpoint where
  chainTipHeight : Except String Nat
  getTransaction : Txid → EndpointAnswer

namespace Store

/-- The candidate for a pending transaction, unless it was accepted and is stored. -/
def pendingStopCandidate (view : ChainView) (row : PendingTx) :
    Except String (Option MigrationStopCandidate) := do
  let broadcastHeight ← okOr row.scheduledHeight
    "Read scheduled migration stop candidate: Invalid column type Null"
  return if row.status = .broadcasted && view.localTransactionRaw row.txid then none
    else some {
      kind := .migrationTransaction
      txid := row.txid
      broadcastHeight := broadcastHeight
      expiryHeight := row.expiryHeight
      attemptState := if row.status = .broadcasted then .attempted else row.broadcastAttempted }

/-- The candidate for a stage. -/
def stageStopCandidate (stage : DenominationStage) : MigrationStopCandidate where
  kind := .denominationStage
  txid := stage.expectedTxid
  broadcastHeight := effectiveBroadcastHeight stage
  expiryHeight := stage.expiryHeight
  attemptState := stage.broadcastAttempted

/-- The pending transactions that a stop reads, in the order of the query. -/
def pendingStopRows (s : Store) (r : RunId) : List PendingTx :=
  ((s.pendingOf r).filter fun row =>
    row.status = .scheduled || row.status = .broadcasted).insertionSort fun a b =>
      let key (row : PendingTx) := (row.partIndex.map (· + 1)).getD 0
      key a < key b ∨ key a = key b ∧ (a.scheduledHeight.getD 0 < b.scheduledHeight.getD 0
        ∨ a.scheduledHeight = b.scheduledHeight ∧ a.txid ≤ b.txid)

/-- The stages that a stop reads, in the order of the query. -/
def pendingStopStages (s : Store) (r : RunId) : List DenominationStage :=
  ((s.stagesOf r).filter fun stage => stage.state.status = .pending).insertionSort fun a b =>
    a.stageIndex ≤ b.stageIndex

/-- The transactions of a run that a stop may have to look for. -/
def scheduledMigrationStopCandidates (view : ChainView) (s : Store) (account : AccountUuid)
    (network : WalletNetwork) (r : RunId) : Except String (List MigrationStopCandidate) := do
  let run ← okOr (s.run? r) s!"Migration run {r} was not found"
  ensure (run.accountUuid = account ∧ run.network = network)
    "Migration run does not belong to this wallet account"
  if run.phase = .abandoned then return []
  else do
    ensure (run.phase ≠ .complete ∧ run.phase ≠ .failedTerminal)
      s!"Migration run is already terminal ({run.phase.asStr})"
    let pending ← (s.pendingStopRows r).mapM (pendingStopCandidate view)
    return pending.reduceOption ++ (s.pendingStopStages r).map stageStopCandidate

end Store

/-- Whether the expiry of a transaction is behind the tip; zero is no expiry. -/
def migrationStopCandidateIsExpired (expiryHeight chainTipHeight : Nat) : Bool :=
  expiryHeight > 0 && chainTipHeight ≥ expiryHeight

/-- Whether a stop has to look for a transaction. -/
def migrationStopCandidateRequiresReconciliation (candidate : MigrationStopCandidate)
    (nativeAttempted : Bool) (chainTipHeight : Nat) : Bool :=
  nativeAttempted || match candidate.attemptState with
    | .notAttempted => false
    | .attempted => true
    | .unknownLegacy => candidate.broadcastHeight ≤ chainTipHeight

namespace WalletDb

/-- Look for one transaction. -/
def reconcileStopCandidate (r : RunId) (chainTipHeight : Nat)
    (getTransaction : Txid → EndpointAnswer) (w : WalletDb) (candidate : MigrationStopCandidate) :
    WalletDb × Except String Unit :=
  match getTransaction candidate.txid with
  | .found _ (some error) => (w, .error error)
  | .found actual none =>
    let w := w.decryptAndStoreMigrationTx actual
    match candidate.kind with
    | .migrationTransaction => w.commitUnit (w.store.markPendingBroadcasted r candidate.txid)
    | .denominationStage =>
      w.commitUnit (w.store.markDenominationStageBroadcasted r candidate.txid)
  | .notFound =>
    if migrationStopCandidateIsExpired candidate.expiryHeight chainTipHeight then (w, .ok ())
    else if candidate.expiryHeight = 0 then
      (w, .error s!"Migration cannot stop until non-expiring transaction {candidate.txid} is reconciled")
    else
      (w, .error s!"Migration cannot stop until transaction {candidate.txid} is reconciled or expires at block {candidate.expiryHeight}")
  | .failed status =>
    (w, .error s!"Could not reconcile migration transaction {candidate.txid} before stopping: {status}")

/-- Look for transactions one after the other. -/
def reconcileStopCandidates (r : RunId) (chainTipHeight : Nat)
    (getTransaction : Txid → EndpointAnswer) :
    List MigrationStopCandidate → WalletDb → WalletDb × Except String Unit
  | [], w => (w, .ok ())
  | candidate :: candidates, w =>
    afterOk (w.reconcileStopCandidate r chainTipHeight getTransaction candidate) fun w _ =>
      w.reconcileStopCandidates r chainTipHeight getTransaction candidates

/-- Look for every transaction of a run that may be on the network. -/
def reconcileScheduledMigrationTxsBeforeAbandon (w : WalletDb) (account : AccountUuid)
    (network : WalletNetwork) (r : RunId) (nativeAttemptedTxids : List Txid)
    (endpoint : StopEndpoint) : WalletDb × Except String Unit :=
  afterOk (w, w.store.scheduledMigrationStopCandidates w.view account network r)
    fun w candidates =>
  let hasKnownOrLegacyAttempt := candidates.any fun candidate =>
    candidate.txid ∈ nativeAttemptedTxids || candidate.attemptState ≠ .notAttempted
  if !hasKnownOrLegacyAttempt then (w, .ok ())
  else afterOk (w, endpoint.chainTipHeight) fun w chainTipHeight =>
    w.reconcileStopCandidates r chainTipHeight endpoint.getTransaction
      (candidates.filter fun candidate => migrationStopCandidateRequiresReconciliation candidate
        (candidate.txid ∈ nativeAttemptedTxids) chainTipHeight)

/-- Stop a run.  After the run is abandoned, its locks in the wallet are released and its
requests are discarded, which may fail. -/
def abandonOrchardMigration (w : WalletDb) (account : AccountUuid) (network : WalletNetwork)
    (r : RunId) (nativeAttemptedTxids : List Txid) (endpoint : StopEndpoint)
    (locks discards : Except String Unit) : WalletDb × Except String Unit :=
  afterOk (w.reconcileScheduledMigrationTxsBeforeAbandon account network r nativeAttemptedTxids
    endpoint) fun w _ =>
  afterOk (w.commitUnit (w.store.abandonRun account network r)) fun w _ =>
  afterOk (w, locks) fun w _ =>
  (w.write (w.store.discardUnsubmittedPreparationStages r), discards)

end WalletDb

/-! ### Broadcasts before the stop -/

/-- What a call learns after it handed a transaction to the network. -/
inductive SendAnswer where
  | accepted
  | failed (error : String)
  deriving DecidableEq, Repr

/-- Whether the network refused the transaction. -/
def SendAnswer.isRejection : SendAnswer → Bool
  | .accepted => false
  | .failed error => migrationBroadcastFailureRequiresRebuild error

/-- Where the broadcast in the foreground stands. -/
inductive BroadcastPoint where
  | idle
  /-- The attempt is marked. -/
  | marked (kind : MigrationStopCandidateKind) (txid : Txid)
  /-- The network has answered. -/
  | answered (kind : MigrationStopCandidateKind) (txid : Txid) (answer : SendAnswer)
  /-- The accepted transaction is stored. -/
  | stored (kind : MigrationStopCandidateKind) (txid : Txid)
  deriving DecidableEq, Repr

/-- The database, the broadcast in the foreground, and what was handed to the network. -/
structure BroadcastWorld where
  db : WalletDb
  point : BroadcastPoint
  /-- The transactions that the outbox has attempted. -/
  native : List Txid
  /-- What was handed to the network and not refused by it; no code reads it. -/
  handed : List (MigrationStopCandidateKind × Txid)

/-- A step before the stop. -/
inductive BroadcastStep where
  /-- Mark the attempt to broadcast a transaction. -/
  | mark (kind : MigrationStopCandidateKind) (txid : Txid)
  /-- Hand the marked transaction to the network. -/
  | send (answer : SendAnswer)
  /-- Record the answer, or that the stored transaction was broadcast. -/
  | record (storeError : Option String) (overdue : Bool) (chainTipHeight : Nat)
      (delays : Nat → Nat)
  /-- The outbox attempts a transaction that was exported to it. -/
  | nativeAttempt (txid : Txid)
  /-- The process ends. -/
  | crash

namespace BroadcastWorld

/-- Mark the attempt to broadcast a transaction. -/
def mark (r : RunId) (w : BroadcastWorld) (kind : MigrationStopCandidateKind) (txid : Txid) :
    BroadcastWorld :=
  let db := match kind with
    | .migrationTransaction => w.db.write (w.db.store.markRunPhase r .broadcasting none)
    | .denominationStage => w.db
  let marked := match kind with
    | .migrationTransaction => db.store.markPendingBroadcastAttempted r txid
    | .denominationStage => db.store.markDenominationBroadcastAttempted r txid
  match db.commitUnit marked with
  | (db, .ok _) => { w with db := db, point := .marked kind txid }
  | (db, .error _) => { w with db := db, point := .idle }

/-- Record the answer to an accepted transaction: store it, or keep for later that it could not
be stored. -/
def recordAccepted (r : RunId) (w : BroadcastWorld) (kind : MigrationStopCandidateKind)
    (txid : Txid) (storeError : Option String) : BroadcastWorld :=
  match storeError with
  | none => { w with db := w.db.decryptAndStoreMigrationTx txid, point := .stored kind txid }
  | some error =>
    match kind with
    | .migrationTransaction =>
      { w with
        db := (w.db.recordAcceptedScheduledMigrationTx r txid (some error)).1, point := .idle }
    | .denominationStage => { w with point := .idle }

/-- Record that a transaction was not accepted. -/
def recordFailed (r : RunId) (w : BroadcastWorld) (kind : MigrationStopCandidateKind)
    (txid : Txid) (error : String) : BroadcastWorld :=
  let store := match kind with
    | .migrationTransaction =>
      if migrationBroadcastFailureRequiresRebuild error then
        w.db.store.retireRunForRebuild r
          s!"Migration transaction {txid} was rejected by the network. Review and approve a fresh schedule for the remaining Orchard balance. Error: {error}"
      else w.db.store.markRunPhase r .failedRecoverable
        (some s!"Migration broadcast failed for {txid}. Error: {error}")
    | .denominationStage =>
      if migrationBroadcastFailureRequiresRebuild error then
        w.db.store.clearDenominationBroadcastAttempted r txid
      else w.db.store
  { w with db := w.db.write store, point := .idle }

/-- Record that a stored transaction was broadcast. -/
def recordBroadcasted (r : RunId) (w : BroadcastWorld) (kind : MigrationStopCandidateKind)
    (txid : Txid) (overdue : Bool) (chainTipHeight : Nat) (delays : Nat → Nat) :
    BroadcastWorld :=
  let marked := match kind with
    | .migrationTransaction => w.db.store.markPendingBroadcasted r txid
    | .denominationStage =>
      w.db.store.completeDenominationBroadcast r txid overdue chainTipHeight delays
  { w with db := (w.db.commitUnit marked).1, point := .idle }

/-- A transaction that the outbox may hold. -/
def isExported (s : Store) (r : RunId) (txid : Txid) : Bool :=
  s.pendingTxs.any fun row => row.runId = r && row.txid = txid
    && (row.status = .scheduled || row.status = .broadcasted)

/-- The world after a step; a step that cannot be taken changes nothing. -/
def step (r : RunId) (w : BroadcastWorld) : BroadcastStep → BroadcastWorld
  | .mark kind txid =>
    match w.point with
    | .idle => w.mark r kind txid
    | _ => w
  | .send answer =>
    match w.point with
    | .marked kind txid =>
      { w with
        point := .answered kind txid answer
        handed := if answer.isRejection then w.handed else (kind, txid) :: w.handed }
    | _ => w
  | .record storeError overdue chainTipHeight delays =>
    match w.point with
    | .answered kind txid .accepted => w.recordAccepted r kind txid storeError
    | .answered kind txid (.failed error) => w.recordFailed r kind txid error
    | .stored kind txid => w.recordBroadcasted r kind txid overdue chainTipHeight delays
    | _ => w
  | .nativeAttempt txid =>
    if isExported w.db.store r txid then
      { w with
        native := txid :: w.native
        handed := (.migrationTransaction, txid) :: w.handed }
    else w
  | .crash => { w with point := .idle }

/-- The stop, which needs the guard that a broadcast in the foreground holds. -/
def stop (w : BroadcastWorld) (account : AccountUuid) (network : WalletNetwork) (r : RunId)
    (endpoint : StopEndpoint) (locks discards : Except String Unit) :
    WalletDb × Except String Unit :=
  match w.point with
  | .idle => w.db.abandonOrchardMigration account network r w.native endpoint locks discards
  | _ => (w.db, .error "An Ironwood migration is already running for this account")

end BroadcastWorld

end Vizor
