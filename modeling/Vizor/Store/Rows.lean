import Vizor.Lib.Table
import Vizor.Lib.Run

/-!
# The tables of the migration store

The store keeps one row for each migration run, and tables of what the run owns: its
prepared notes, its pending transactions, its signed children, and the stages of its
denomination split with their inputs and outputs.  Identifiers and transaction hashes are
only ever compared with each other, so they are natural numbers here.
-/

namespace Vizor

/-! ### Runs -/

/-- The identifier of a run. -/
abbrev RunId := Nat

/-- The identifier of a transaction. -/
abbrev Txid := Nat

/-- The name of a message of a signing request. -/
abbrev MessageId := Nat

/-- The identifier of an account. -/
abbrev AccountUuid := Nat

/-- A serialized transaction. -/
abbrev Bytes := List UInt8

/-- The networks of a wallet. -/
inductive WalletNetwork where
  | main
  | test
  | regtest
  deriving DecidableEq, Repr

/-- The timing policies of a run. -/
inductive MigrationTimingPolicy where
  | standard
  | standard90Minutes
  | standard90MinutesLatestAnchor
  | fastTestnet
  deriving DecidableEq, Repr

/-- The timing policies of the denomination split. -/
inductive PreparationTimingPolicy where
  | immediate
  | zip318Spaced
  deriving DecidableEq, Repr

/-- The phases of a run. -/
inductive Phase where
  | noOrchardFunds
  | waitingForSpendableOrchard
  | waitingForIronwoodSpendability
  | readyToPrepare
  | awaitingPreparation
  | awaitingDenominationSignature
  | waitingDenomConfirmations
  | readyToMigrate
  | broadcastScheduled
  | broadcasting
  | waitingMigrationConfirmations
  | complete
  | paused
  | failedRecoverable
  | failedTerminal
  | abandoned
  deriving DecidableEq, Repr

/-- The text of a phase. -/
def Phase.asStr : Phase → String
  | .noOrchardFunds => "no_orchard_funds"
  | .waitingForSpendableOrchard => "waiting_for_spendable_orchard"
  | .waitingForIronwoodSpendability => "waiting_for_ironwood_spendability"
  | .readyToPrepare => "ready_to_prepare"
  | .awaitingPreparation => "awaiting_preparation"
  | .awaitingDenominationSignature => "awaiting_denomination_signature"
  | .waitingDenomConfirmations => "waiting_denom_confirmations"
  | .readyToMigrate => "ready_to_migrate"
  | .broadcastScheduled => "broadcast_scheduled"
  | .broadcasting => "broadcasting"
  | .waitingMigrationConfirmations => "waiting_migration_confirmations"
  | .complete => "complete"
  | .paused => "paused"
  | .failedRecoverable => "failed_recoverable"
  | .failedTerminal => "failed_terminal"
  | .abandoned => "abandoned"

/-- The terminal phases, in which a run releases its locks in the wallet. -/
def Phase.releasesWalletLocks : Phase → Bool
  | .complete | .failedTerminal | .abandoned => true
  | _ => false

/-- The phases of a private draft. -/
def Phase.isPrivateMigrationDraft : Phase → Bool
  | .awaitingPreparation | .awaitingDenominationSignature => true
  | _ => false

/-- An entry of an approved schedule. -/
structure MigrationScheduleEntry where
  /-- The part of the plan, unless the schedule is from before parts had indexes. -/
  partIndex : Option Nat
  valueZatoshi : Nat
  /-- The number of blocks after the origin of the schedule. -/
  blockOffset : Nat
  deriving DecidableEq, Repr

/-- A row of the table of runs. -/
structure MigrationRun where
  runId : RunId
  accountUuid : AccountUuid
  network : WalletNetwork
  phase : Phase
  createdAtMs : Nat
  targetValues : List Nat
  schedule : List MigrationScheduleEntry
  timingPolicy : MigrationTimingPolicy
  preparationTimingPolicy : PreparationTimingPolicy
  proofRetryHeight : Option Nat := none
  signedScheduleOriginHeight : Option Nat := none
  initialScheduleRebasedOriginHeight : Option Nat := none
  recoveryScheduleOriginHeight : Option Nat := none
  recoveryScheduleMaxBlockOffset : Option Nat := none
  lastError : Option String := none
  deriving DecidableEq, Repr

/-! ### Notes -/

/-- An output of a transaction. -/
structure OutPoint where
  txid : Txid
  outputIndex : Nat
  deriving DecidableEq, Repr

/-- A note of the Orchard pool that a migration transaction spends. -/
structure PreparedOrchardNoteRef where
  txid : Txid
  outputIndex : Nat
  valueZatoshi : Nat
  noteVersion : Nat
  nullifier : Option Nat
  deriving DecidableEq, Repr

/-- The output that is the note. -/
def PreparedOrchardNoteRef.outpoint (note : PreparedOrchardNoteRef) : OutPoint :=
  ⟨note.txid, note.outputIndex⟩

/-- A row of the table of prepared notes. -/
structure PreparedNote where
  runId : RunId
  note : PreparedOrchardNoteRef
  /-- Whether the lock state of the row is `locked`. -/
  locked : Bool
  deriving DecidableEq, Repr

/-! ### Migration transactions -/

/-- The statuses of a pending transaction. -/
inductive PendingStatus where
  | scheduled
  | broadcasted
  | confirmed
  | needsResign
  deriving DecidableEq, Repr

/-- What is known of an attempt to broadcast. -/
inductive MigrationBroadcastAttemptState where
  | notAttempted
  | attempted
  | unknownLegacy
  deriving DecidableEq, Repr

/-- A row of the table of pending transactions. -/
structure PendingTx where
  runId : RunId
  txid : Txid
  partIndex : Option Nat
  targetHeight : Nat
  anchorBoundaryHeight : Option Nat
  expiryHeight : Nat
  valueZatoshi : Nat
  feeZatoshi : Nat
  selectedNoteTxid : Txid
  selectedNoteOutputIndex : Nat
  selectedNoteValue : Nat
  scheduleStartHeight : Option Nat
  /-- The height at which the transaction is broadcast; absent in rows of old schemas. -/
  scheduledHeight : Option Nat
  originalScheduledHeight : Option Nat
  rebuildBlockOffset : Option Nat := none
  broadcastAttempted : MigrationBroadcastAttemptState := .notAttempted
  status : PendingStatus
  deriving DecidableEq, Repr

/-- The note that the transaction spends. -/
def PendingTx.selectedOutpoint (row : PendingTx) : OutPoint :=
  ⟨row.selectedNoteTxid, row.selectedNoteOutputIndex⟩

/-- A row of the table of signed children. -/
structure SignedChild where
  runId : RunId
  messageId : MessageId
  childIndex : Nat
  targetHeight : Nat
  anchorBoundaryHeight : Option Nat
  expiryHeight : Nat
  scheduledHeight : Option Nat
  valueZatoshi : Nat
  feeZatoshi : Nat
  selectedNote : PreparedOrchardNoteRef
  deriving DecidableEq, Repr

/-! ### Stages of the denomination split -/

/-- The inclusion of a transaction in the chain. -/
structure LocalTransactionChainIdentity where
  minedHeight : Nat
  blockHash : Nat
  deriving DecidableEq, Repr

/-- The state of a stage: the columns for its status, its extracted transaction and its
inclusion, under the constraints that the table checks. -/
inductive DenominationStageState where
  /-- There is no transaction yet. -/
  | awaitingInputs
  /-- The transaction has not been broadcast. -/
  | pending (rawTx : Bytes)
  /-- The transaction has been broadcast. -/
  | broadcasted (rawTx : Bytes)
  /-- The transaction was found in the chain. -/
  | confirmed (rawTx : Option Bytes) (identity : LocalTransactionChainIdentity)
  deriving DecidableEq, Repr

/-- The statuses of a stage. -/
inductive DenominationStageStatus where
  | awaitingInputs
  | pending
  | broadcasted
  | confirmed
  deriving DecidableEq, Repr

/-- The column for the status. -/
def DenominationStageState.status : DenominationStageState → DenominationStageStatus
  | .awaitingInputs => .awaitingInputs
  | .pending _ => .pending
  | .broadcasted _ => .broadcasted
  | .confirmed _ _ => .confirmed

/-- The column for the extracted transaction. -/
def DenominationStageState.rawTx : DenominationStageState → Option Bytes
  | .awaitingInputs => none
  | .pending rawTx | .broadcasted rawTx => some rawTx
  | .confirmed rawTx _ => rawTx

/-- The columns for the inclusion. -/
def DenominationStageState.identity :
    DenominationStageState → Option LocalTransactionChainIdentity
  | .confirmed _ identity => some identity
  | _ => none

/-- The columns of a stage that the constraints of the table relate. -/
structure StageColumns (Tx : Type := Bytes) (Hash : Type := Nat) where
  status : DenominationStageStatus
  encryptedRawTx : Option Tx
  confirmedMinedHeight : Option Nat
  confirmedBlockHash : Option Hash
  deriving DecidableEq, Repr

/-- The two constraints of the table. -/
def StageColumns.Checked {Tx Hash : Type} (columns : StageColumns Tx Hash) : Prop :=
  (columns.status = .awaitingInputs ∧ columns.encryptedRawTx = none
      ∨ (columns.status = .pending ∨ columns.status = .broadcasted)
        ∧ columns.encryptedRawTx ≠ none
      ∨ columns.status = .confirmed)
    ∧ (columns.status ≠ .confirmed ∧ columns.confirmedMinedHeight = none
        ∧ columns.confirmedBlockHash = none
      ∨ columns.status = .confirmed ∧ columns.confirmedMinedHeight ≠ none
        ∧ columns.confirmedBlockHash ≠ none)

/-- Whether the stage has not been submitted. -/
def DenominationStageState.unsubmitted (state : DenominationStageState) : Bool :=
  state.status = .awaitingInputs || state.status = .pending

/-- The signature of an action of a transaction. -/
structure SpendAuthSignature where
  actionIndex : Nat
  sig : Bytes
  deriving DecidableEq, Repr

/-- A row of the table of stages. -/
structure DenominationStage where
  runId : RunId
  stageIndex : Nat
  /-- The transaction before it is proved; it is kept so that it can be proved again. -/
  basePczt : Bytes
  sigs : List SpendAuthSignature
  expectedTxid : Txid
  targetHeight : Nat
  scheduledHeight : Nat
  broadcastNotBeforeHeight : Option Nat
  broadcastAttempted : MigrationBroadcastAttemptState
  expiryHeight : Nat
  feeZatoshi : Nat
  state : DenominationStageState
  deriving DecidableEq, Repr

/-- A row of the table of inputs of stages, with its ids and hashes as numbers or texts. -/
structure StageInput (Id : Type := RunId) (Hash : Type := Txid) where
  runId : Id
  stageIndex : Nat
  inputOrder : Nat
  txid : Hash
  outputIndex : Nat
  valueZatoshi : Nat
  noteVersion : Nat
  nullifier : Option Hash
  deriving DecidableEq, Repr

/-- The output that the stage spends. -/
def StageInput.outpoint (input : StageInput) : OutPoint :=
  ⟨input.txid, input.outputIndex⟩

/-- The purposes of an output of a stage. -/
inductive DenominationStageOutputKind where
  | migration
  | change
  | continuation
  deriving DecidableEq, Repr

/-- A row of the table of outputs of stages. -/
structure StageOutput (Id : Type := RunId) where
  runId : Id
  stageIndex : Nat
  outputOrder : Nat
  outputIndex : Nat
  valueZatoshi : Nat
  noteVersion : Nat
  kind : DenominationStageOutputKind
  partIndex : Option Nat
  deriving DecidableEq, Repr

/-! ### The store -/

/-- The tables of the store. -/
structure Store where
  runs : List MigrationRun := []
  preparedNotes : List PreparedNote := []
  pendingTxs : List PendingTx := []
  signedChildren : List SignedChild := []
  stages : List DenominationStage := []
  stageInputs : List StageInput := []
  stageOutputs : List StageOutput := []
  deriving DecidableEq, Repr

/-- What the wallet has scanned of the chain. -/
structure ChainView where
  /-- The inclusion of a transaction, if it is in the chain. -/
  localDenominationChainIdentity : Txid → Option LocalTransactionChainIdentity
  /-- The number of confirmations of a height. -/
  syncedOrchardConfirmationCount : Nat → Nat
  /-- The number of confirmations that the wallet trusts. -/
  denominationConfirmationsRequired : Nat
  /-- Whether the wallet has stored the transaction. -/
  localTransactionRaw : Txid → Bool
  /-- The nullifier of a note that can be spent, and the height at which it was mined. -/
  noteSpendMetadata : PreparedOrchardNoteRef → Option (Nat × Nat)

/-- Whether a transaction is in the chain at the depth that the wallet trusts. -/
def ChainView.trusts (view : ChainView) (txid : Txid) : Bool :=
  (view.localDenominationChainIdentity txid).any fun identity =>
    view.denominationConfirmationsRequired
      ≤ view.syncedOrchardConfirmationCount identity.minedHeight

namespace Store

open Table

/-! ### Statements on the tables -/

/-- Update the runs that meet `p`. -/
def updateRuns (s : Store) (p : MigrationRun → Bool) (f : MigrationRun → MigrationRun) : Store :=
  { s with runs := updateWhere p f s.runs }

/-- Update the pending transactions that meet `p`. -/
def updatePendingTxs (s : Store) (p : PendingTx → Bool) (f : PendingTx → PendingTx) : Store :=
  { s with pendingTxs := updateWhere p f s.pendingTxs }

/-- Delete the pending transactions that meet `p`. -/
def deletePendingTxs (s : Store) (p : PendingTx → Bool) : Store :=
  { s with pendingTxs := deleteWhere p s.pendingTxs }

/-- Update the prepared notes that meet `p`. -/
def updatePreparedNotes (s : Store) (p : PreparedNote → Bool)
    (f : PreparedNote → PreparedNote) : Store :=
  { s with preparedNotes := updateWhere p f s.preparedNotes }

/-- Update the signed children that meet `p`. -/
def updateSignedChildren (s : Store) (p : SignedChild → Bool)
    (f : SignedChild → SignedChild) : Store :=
  { s with signedChildren := updateWhere p f s.signedChildren }

/-- Delete the signed children that meet `p`. -/
def deleteSignedChildren (s : Store) (p : SignedChild → Bool) : Store :=
  { s with signedChildren := deleteWhere p s.signedChildren }

/-- Update the stages that meet `p`. -/
def updateStages (s : Store) (p : DenominationStage → Bool)
    (f : DenominationStage → DenominationStage) : Store :=
  { s with stages := updateWhere p f s.stages }

/-! ### Queries -/

/-- The row of a run. -/
def run? (s : Store) (r : RunId) : Option MigrationRun :=
  s.runs.find? fun run => run.runId = r

/-- The row of a run, or the error of the query named `what`. -/
def readRun (s : Store) (r : RunId) (what : String) : Except String MigrationRun :=
  Run.okOr (s.run? r) s!"{what}: Query returned no rows"

/-- The phase of a run. -/
def phaseOf (s : Store) (r : RunId) : Option Phase :=
  (s.run? r).map (·.phase)

/-- Whether the run is in a phase that is not terminal. -/
def isLive (s : Store) (r : RunId) : Bool :=
  s.runs.any fun run => run.runId = r && !run.phase.releasesWalletLocks

/-- The pending transactions of a run. -/
def pendingOf (s : Store) (r : RunId) : List PendingTx :=
  s.pendingTxs.filter fun row => row.runId = r

/-- The signed children of a run. -/
def childrenOf (s : Store) (r : RunId) : List SignedChild :=
  s.signedChildren.filter fun child => child.runId = r

/-- The prepared notes of a run. -/
def preparedOf (s : Store) (r : RunId) : List PreparedNote :=
  s.preparedNotes.filter fun row => row.runId = r

/-- The stages of a run. -/
def stagesOf (s : Store) (r : RunId) : List DenominationStage :=
  s.stages.filter fun stage => stage.runId = r

/-- The number of pending transactions of a run with a given status. -/
def countPendingWithStatus (s : Store) (r : RunId) (status : PendingStatus) : Nat :=
  (s.pendingOf r).countP fun row => row.status = status

/-- The number of parts that a run plans. -/
def plannedPartCount (s : Store) (r : RunId) : Except String Nat := do
  let run ← s.readRun r "Read migration planned part count"
  return run.targetValues.length

/-- The notes of the pending transactions of a run. -/
def pendingMigrationNoteOutpoints (s : Store) (r : RunId) : List OutPoint :=
  (s.pendingOf r).map (·.selectedOutpoint)

/-- The notes of the signed children of a run that no pending transaction spends. -/
def unpromotedSignedChildNoteOutpoints (s : Store) (r : RunId) : List OutPoint :=
  ((s.childrenOf r).map (·.selectedNote.outpoint)).filter fun outpoint =>
    outpoint ∉ s.pendingMigrationNoteOutpoints r

/-- The number of signed children of a run without a pending transaction. -/
def unpromotedSignedChildPcztCount (s : Store) (r : RunId) : Nat :=
  (s.unpromotedSignedChildNoteOutpoints r).length

/-- Whether every planned part has a pending transaction or a signed child. -/
def migrationPartAssignmentComplete (s : Store) (r : RunId) : Except String Bool := do
  let planned ← s.plannedPartCount r
  return planned > 0
    && (s.pendingOf r).length + s.unpromotedSignedChildPcztCount r = planned

/-- The latest run of an account that is not finished. -/
def activeRun (s : Store) (account : AccountUuid) (network : WalletNetwork) :
    Option MigrationRun :=
  (s.runs.filter fun run => run.accountUuid = account && run.network = network
      && run.phase ≠ .noOrchardFunds && !run.phase.releasesWalletLocks).foldl
    (fun best run => match best with
      | none => some run
      | some other => if other.createdAtMs < run.createdAtMs then some run else some other)
    none

end Store

end Vizor
