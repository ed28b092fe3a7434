import Vizor.Store.Evolves
import Mathlib.Data.List.Infix

/-!
# Creating runs

A run is created with its prepared notes, its stages and its signed children, or as a
private draft that is finalized later.  Signed children are added in batches until every
part of the plan has one.
-/

namespace Vizor

open Table Run

/-! ### Inputs -/

/-- An input of a stage. -/
structure DenominationStageInputRef (Hash : Type := Txid) where
  txid : Hash
  outputIndex : Nat
  valueZatoshi : Nat
  noteVersion : Nat
  nullifier : Option Hash
  deriving DecidableEq, Repr

/-- An output of a stage. -/
structure DenominationStageOutputRef where
  outputIndex : Nat
  valueZatoshi : Nat
  noteVersion : Nat
  kind : DenominationStageOutputKind
  partIndex : Option Nat
  deriving DecidableEq, Repr

/-- A signed stage that is ready to be inserted. -/
structure DenominationStageInsert (Hash : Type := Txid) (Sig : Type := SpendAuthSignature) where
  stageIndex : Nat
  basePczt : Bytes
  sigs : List Sig
  rawTx : Option Bytes
  expectedTxid : Hash
  targetHeight : Nat
  scheduledHeight : Nat
  expiryHeight : Nat
  feeZatoshi : Nat
  status : DenominationStageStatus
  inputs : List (DenominationStageInputRef Hash)
  outputs : List DenominationStageOutputRef
  deriving DecidableEq, Repr

/-- A signed child that is ready to be inserted. -/
structure SignedMigrationPcztInsert where
  messageId : MessageId
  childIndex : Nat
  targetHeight : Nat
  anchorBoundaryHeight : Option Nat
  expiryHeight : Nat
  scheduledHeight : Nat
  valueZatoshi : Nat
  feeZatoshi : Nat
  selectedNote : PreparedOrchardNoteRef
  deriving DecidableEq, Repr

/-- Whether signed children are the first ones of a run or replace earlier ones. -/
inductive SignedChildInsertMode where
  | initial
  | replacement
  deriving DecidableEq, Repr

/-! ### Validation of stages -/

/-- The text of a status. -/
def DenominationStageStatus.asStr : DenominationStageStatus → String
  | .awaitingInputs => "awaiting_inputs"
  | .pending => "pending"
  | .broadcasted => "broadcasted"
  | .confirmed => "confirmed"

/-- The text of a kind of output. -/
def DenominationStageOutputKind.asStr : DenominationStageOutputKind → String
  | .migration => "migration"
  | .change => "change"
  | .continuation => "continuation"

/-- The state of a new stage: it awaits its inputs, or its transaction is pending. -/
def DenominationStageInsert.state {Hash Sig : Type} (stage : DenominationStageInsert Hash Sig) :
    Except String DenominationStageState :=
  match stage.status, stage.rawTx with
  | .awaitingInputs, none => .ok .awaitingInputs
  | .awaitingInputs, some _ =>
    .error s!"Awaiting migration denomination stage {stage.stageIndex} already has a raw transaction"
  | .pending, some [] =>
    .error s!"Migration denomination stage {stage.stageIndex} has an empty raw transaction"
  | .pending, some rawTx => .ok (.pending rawTx)
  | .pending, none =>
    .error s!"Migration denomination stage {stage.stageIndex} is {stage.status.asStr} without a raw transaction"
  | .broadcasted, _ | .confirmed, _ =>
    .error s!"Migration denomination stage {stage.stageIndex} cannot be inserted as {stage.status.asStr}"

/-- What is known of the stages of a batch that were validated so far. -/
structure StageBatch where
  stageIndices : List Nat := []
  expectedTxids : List Txid := []
  inputOutpoints : List OutPoint := []

/-- Validate an input of a stage. -/
def StageBatch.validateInput (inputOutpoints : List OutPoint)
    (input : DenominationStageInputRef) : Except String (List OutPoint) := do
  ensure (⟨input.txid, input.outputIndex⟩ ∉ inputOutpoints)
    s!"Migration denomination input {input.txid}:{input.outputIndex} is assigned more than once"
  return ⟨input.txid, input.outputIndex⟩ :: inputOutpoints

/-- Validate an output of the stage `stageIndex`. -/
def StageBatch.validateOutput (stageIndex : Nat) (outputIndices : List Nat)
    (output : DenominationStageOutputRef) : Except String (List Nat) := do
  ensure (output.kind = .migration ∨ output.partIndex = none)
    s!"Migration denomination stage {stageIndex} assigns a part index to a {output.kind.asStr} output"
  ensure (output.outputIndex ∉ outputIndices)
    s!"Migration denomination stage {stageIndex} repeats output index {output.outputIndex}"
  return output.outputIndex :: outputIndices

/-- Validate a stage against the stages before it. -/
def StageBatch.validate (batch : StageBatch) (stage : DenominationStageInsert) :
    Except String StageBatch := do
  ensure (stage.stageIndex ∉ batch.stageIndices)
    s!"Duplicate migration denomination stage index {stage.stageIndex}"
  ensure (stage.expectedTxid ∉ batch.expectedTxids)
    s!"Duplicate migration denomination expected txid {stage.expectedTxid}"
  ensure (stage.basePczt ≠ [])
    s!"Migration denomination stage {stage.stageIndex} has an empty base PCZT"
  ensure (stage.inputs ≠ [])
    s!"Migration denomination stage {stage.stageIndex} has no real inputs"
  ensure (stage.outputs ≠ [])
    s!"Migration denomination stage {stage.stageIndex} has no real outputs"
  let _ ← stage.state
  let inputOutpoints ← stage.inputs.foldlM validateInput batch.inputOutpoints
  let _ ← stage.outputs.foldlM (validateOutput stage.stageIndex) []
  return {
    stageIndices := stage.stageIndex :: batch.stageIndices
    expectedTxids := stage.expectedTxid :: batch.expectedTxids
    inputOutpoints := inputOutpoints }

/-- The stages of a batch have distinct indexes, transactions and inputs. -/
def validateStageBatch (stages : List DenominationStageInsert) : Except String Unit := do
  let _ ← stages.foldlM StageBatch.validate {}
  return ()

namespace Store

/-! ### Rows of a new run -/

/-- Add prepared notes, or write over them. -/
def insertPreparedNotes (s : Store) (r : RunId) (notes : List PreparedOrchardNoteRef)
    (locked : Bool) : Store :=
  { s with
    preparedNotes := notes.foldl
      (fun table note =>
        upsert (fun row : PreparedNote => (row.runId, row.note.outpoint)) ⟨r, note, locked⟩ table)
      s.preparedNotes }

/-- The row of a new stage. -/
def stageRow (r : RunId) (stage : DenominationStageInsert) (state : DenominationStageState) :
    DenominationStage where
  runId := r
  stageIndex := stage.stageIndex
  basePczt := stage.basePczt
  sigs := stage.sigs
  expectedTxid := stage.expectedTxid
  targetHeight := stage.targetHeight
  scheduledHeight := stage.scheduledHeight
  broadcastNotBeforeHeight := none
  broadcastAttempted := .notAttempted
  expiryHeight := stage.expiryHeight
  feeZatoshi := stage.feeZatoshi
  state := state

/-- The row of an input of a new stage. -/
def stageInputRow {Id Hash : Type} (r : Id) (stageIndex inputOrder : Nat)
    (input : DenominationStageInputRef Hash) : StageInput Id Hash where
  runId := r
  stageIndex := stageIndex
  inputOrder := inputOrder
  txid := input.txid
  outputIndex := input.outputIndex
  valueZatoshi := input.valueZatoshi
  noteVersion := input.noteVersion
  nullifier := input.nullifier

/-- The row of an output of a new stage. -/
def stageOutputRow {Id : Type} (r : Id) (stageIndex outputOrder : Nat)
    (output : DenominationStageOutputRef) : StageOutput Id where
  runId := r
  stageIndex := stageIndex
  outputOrder := outputOrder
  outputIndex := output.outputIndex
  valueZatoshi := output.valueZatoshi
  noteVersion := output.noteVersion
  kind := output.kind
  partIndex := output.partIndex

/-- The rows of the inputs of a new stage, in their order. -/
def stageInputRows {Id Hash Sig : Type} (r : Id) (stage : DenominationStageInsert Hash Sig) :
    List (StageInput Id Hash) :=
  stage.inputs.zipIdx.map fun (input, order) => stageInputRow r stage.stageIndex order input

/-- The rows of the outputs of a new stage, in their order. -/
def stageOutputRows {Id Hash Sig : Type} (r : Id) (stage : DenominationStageInsert Hash Sig) :
    List (StageOutput Id) :=
  stage.outputs.zipIdx.map fun (output, order) => stageOutputRow r stage.stageIndex order output

/-- Add a stage with its inputs and outputs, whose keys must not be used. -/
def insertStage (r : RunId) (s : Store) (stage : DenominationStageInsert) :
    Except String Store := do
  let state ← stage.state
  ensure (∀ other ∈ s.stagesOf r, other.stageIndex ≠ stage.stageIndex
      ∧ other.expectedTxid ≠ stage.expectedTxid)
    "Insert migration denomination stage: UNIQUE constraint failed"
  ensure (∀ other ∈ s.stageInputs, other.runId = r → other.stageIndex ≠ stage.stageIndex
      ∧ other.outpoint ∉ stage.inputs.map fun input => ⟨input.txid, input.outputIndex⟩)
    "Insert migration denomination stage input: UNIQUE constraint failed"
  ensure (∀ other ∈ s.stageOutputs, other.runId = r → other.stageIndex ≠ stage.stageIndex)
    "Insert migration denomination stage output: UNIQUE constraint failed"
  return { s with
    stages := s.stages ++ [stageRow r stage state]
    stageInputs := s.stageInputs ++ stageInputRows r stage
    stageOutputs := s.stageOutputs ++ stageOutputRows r stage }

/-- Add the stages of a run. -/
def insertDenominationStages (s : Store) (r : RunId) (stages : List DenominationStageInsert) :
    Except String Store := do
  validateStageBatch stages
  stages.foldlM (insertStage r) s

/-- Check a signed child, and find the origin of the schedule of the run. -/
def checkSignedChild (run : MigrationRun) (mode : SignedChildInsertMode)
    (origin : Option Nat) (child : SignedMigrationPcztInsert) : Except String (Option Nat) := do
  let canonicalExpiry ← zip318CanonicalMigrationExpiryHeight child.scheduledHeight
  ensure (child.expiryHeight = canonicalExpiry)
    s!"Signed migration child {child.messageId} expiry {child.expiryHeight} is not canonical for scheduled height {child.scheduledHeight}"
  let origin ←
    if run.schedule = [] then .ok origin
    else do
      let blockOffset ← okOr
        (scheduleBlockOffsetForPart run.schedule run.targetValues child.childIndex
          child.valueZatoshi)
        "Approved migration schedule is missing a signed child"
      match mode with
      | .replacement => .ok origin
      | .initial => do
        let childOrigin ← okOr (checkedSub32 child.scheduledHeight blockOffset)
          "Signed migration schedule starts below zero"
        match origin with
        | none => .ok (some childOrigin)
        | some other => do
          ensure (other = childOrigin)
            "Signed migration children do not share one absolute schedule origin"
          return some other
  match mode with
  | .initial => .ok origin
  | .replacement => do
    let recoveryOrigin ← okOr run.recoveryScheduleOriginHeight
      "Migration recovery schedule origin is missing"
    let _ ← okOr (checkedSub32 child.scheduledHeight recoveryOrigin)
      "Signed migration schedule starts below zero"
    return origin

/-- The row of a signed child. -/
def signedChildRow (r : RunId) (child : SignedMigrationPcztInsert) : SignedChild where
  runId := r
  messageId := child.messageId
  childIndex := child.childIndex
  targetHeight := child.targetHeight
  anchorBoundaryHeight := child.anchorBoundaryHeight
  expiryHeight := child.expiryHeight
  scheduledHeight := some child.scheduledHeight
  valueZatoshi := child.valueZatoshi
  feeZatoshi := child.feeZatoshi
  selectedNote := child.selectedNote

/-- Add signed children, or write over those with the same messages. -/
def insertSignedChildPczts (s : Store) (r : RunId) (children : List SignedMigrationPcztInsert)
    (mode : SignedChildInsertMode) : Except String Store :=
  if children = [] then .ok s
  else do
    let run ← s.readRun r "Read signed migration schedule"
    let persisted := run.signedScheduleOriginHeight
    let origin ← children.foldlM (checkSignedChild run mode)
      (match mode with | .initial => persisted | .replacement => none)
    let s := { s with
      signedChildren := children.foldl
        (fun table child => upsert (fun row : SignedChild => (row.runId, row.messageId))
          (signedChildRow r child) table)
        s.signedChildren }
    return match mode, persisted, origin with
      | .initial, none, some origin =>
        s.updateRuns (fun run => run.runId = r && run.signedScheduleOriginHeight.isNone)
          fun run => { run with signedScheduleOriginHeight := some origin }
      | _, _, _ => s

variable {l : Licence} {s s' : Store} {r : RunId}

theorem insertStage_keeps {stage : DenominationStageInsert} (h : insertStage r s stage = .ok s') :
  s'.runs = s.runs ∧ s'.pendingTxs = s.pendingTxs
  := by
  simp only [insertStage, bind_eq_ok, pure_eq_ok] at h
  obtain ⟨_, -, _, -, _, -, _, -, rfl⟩ := h
  exact ⟨rfl, rfl⟩

theorem insertDenominationStages_evolves {stages : List DenominationStageInsert}
    (h : s.insertDenominationStages r stages = .ok s') :
  Evolves l s s'
  := by
  obtain ⟨_, -, h⟩ := bind_eq_ok.mp h
  apply evolves_foldlM _ h
  intro t t' stage _ ht
  obtain ⟨hruns, hpending⟩ := insertStage_keeps ht
  apply evolves_of_eq hruns hpending

theorem insertSignedChildPczts_evolves {children : List SignedMigrationPcztInsert}
    {mode : SignedChildInsertMode} (h : s.insertSignedChildPczts r children mode = .ok s') :
  Evolves l s s'
  := by
  rw [insertSignedChildPczts] at h
  split at h
  · obtain rfl : s = s' := by simpa using h
    apply Evolves.refl
  · obtain ⟨run, -, h⟩ := bind_eq_ok.mp h
    obtain ⟨origin, -, h⟩ := bind_eq_ok.mp h
    rw [pure_eq_ok] at h
    subst h
    split
    · apply Evolves.trans (evolves_of_eq _ _) (evolves_updateRuns_of_keep _ _ _ _)
      all_goals simp
    · apply evolves_of_eq
      all_goals rfl

/-! ### Creation -/

/-- The timing policy of new runs. -/
def configuredTimingPolicy (fastTestnetEnabled : Bool) :
    WalletNetwork → MigrationTimingPolicy
  | .test => if fastTestnetEnabled then .fastTestnet else .standard90Minutes
  | .regtest => if fastTestnetEnabled then .fastTestnet else .standard
  | .main => .standard90Minutes

/-- The first phase of a run with the given stages. -/
def initialPhase (stages : List DenominationStageInsert) : Phase :=
  if stages = [] then .readyToMigrate else .waitingDenomConfirmations

/-- Add a run, whose identifier must not be used. -/
def insertRun (s : Store) (run : MigrationRun) (what : String) : Except String Store := do
  ensure (∀ other ∈ s.runs, other.runId ≠ run.runId)
    s!"{what}: UNIQUE constraint failed: vizor_migration_runs.run_id"
  return { s with runs := s.runs ++ [run] }

/-- What the caller decides of a new run, and the identifier and time that are drawn. -/
structure NewRun where
  runId : RunId
  now : Nat
  fastTestnetEnabled : Bool
  accountUuid : AccountUuid
  network : WalletNetwork
  targetValues : List Nat
  preparationTimingPolicy : PreparationTimingPolicy
  deriving DecidableEq, Repr

/-- The row of a new run. -/
def NewRun.row (new : NewRun) (phase : Phase) (schedule : List MigrationScheduleEntry) :
    MigrationRun where
  runId := new.runId
  accountUuid := new.accountUuid
  network := new.network
  phase := phase
  createdAtMs := new.now
  targetValues := new.targetValues
  schedule := schedule
  timingPolicy := configuredTimingPolicy new.fastTestnetEnabled new.network
  preparationTimingPolicy := new.preparationTimingPolicy

/-- An approved schedule must be valid for the plan. -/
def NewRun.validateApproved (new : NewRun) :
    Option (List MigrationScheduleEntry) → Except String Unit
  | some schedule => validateScheduleWithPolicy schedule new.targetValues new.network
      (configuredTimingPolicy new.fastTestnetEnabled new.network)
  | none => .ok ()

/-- Create a run with its notes, its stages and its signed children. -/
def createRunWithStagedDenominationsAndSignedChildren (s : Store) (new : NewRun)
    (preparedNotes : List PreparedOrchardNoteRef)
    (signedChildren : List SignedMigrationPcztInsert)
    (denominationStages : List DenominationStageInsert)
    (approvedSchedule : Option (List MigrationScheduleEntry)) : Except String Store := do
  ensure (denominationStages ≠ [] ∨ preparedNotes ≠ [])
    "Migration run has no prepared funding notes"
  refuse (s.activeRun new.accountUuid new.network)
    fun run => s!"Migration already active: {run.runId}"
  new.validateApproved approvedSchedule
  let s ← s.insertRun (new.row (initialPhase denominationStages) (approvedSchedule.getD []))
    "Create staged migration run"
  let s := s.insertPreparedNotes new.runId preparedNotes true
  let s ← s.insertDenominationStages new.runId denominationStages
  s.insertSignedChildPczts new.runId signedChildren .initial

/-- What is checked before the transaction of a creation begins. -/
def checkCreation (s : Store) (new : NewRun) (preparedNotes : List PreparedOrchardNoteRef)
    (denominationStages : List DenominationStageInsert)
    (approvedSchedule : Option (List MigrationScheduleEntry)) : Except String Unit := do
  ensure (denominationStages ≠ [] ∨ preparedNotes ≠ [])
    "Migration run has no prepared funding notes"
  refuse (s.activeRun new.accountUuid new.network)
    fun run => s!"Migration already active: {run.runId}"
  new.validateApproved approvedSchedule

/-- The transaction of a creation. -/
def insertCreatedRun (s : Store) (new : NewRun)
    (preparedNotes : List PreparedOrchardNoteRef)
    (signedChildren : List SignedMigrationPcztInsert)
    (denominationStages : List DenominationStageInsert)
    (approvedSchedule : Option (List MigrationScheduleEntry)) : Except String Store := do
  let s ← s.insertRun (new.row (initialPhase denominationStages) (approvedSchedule.getD []))
    "Create staged migration run"
  let s := s.insertPreparedNotes new.runId preparedNotes true
  let s ← s.insertDenominationStages new.runId denominationStages
  s.insertSignedChildPczts new.runId signedChildren .initial

/-- A creation is its checks and its transaction. -/
theorem createRun_eq {s : Store} {new : NewRun} {preparedNotes : List PreparedOrchardNoteRef}
    {signedChildren : List SignedMigrationPcztInsert}
    {denominationStages : List DenominationStageInsert}
    {approvedSchedule : Option (List MigrationScheduleEntry)} :
  s.createRunWithStagedDenominationsAndSignedChildren new preparedNotes signedChildren
      denominationStages approvedSchedule
    = (do
      s.checkCreation new preparedNotes denominationStages approvedSchedule
      s.insertCreatedRun new preparedNotes signedChildren denominationStages approvedSchedule)
  := by
  simp only [createRunWithStagedDenominationsAndSignedChildren, checkCreation, bind_assoc]
  rfl

/-- Remove the run of a creation that could not lock its notes. -/
def deleteCreatedRun (s : Store) (r : RunId) : Store :=
  { s with runs := deleteWhere (fun run => run.runId = r) s.runs }

/-- The characters of `phrase` occur in `message`. -/
def containsPhrase (message phrase : String) : Bool :=
  decide (phrase.toList <:+: message.toList)

/-- Whether a server refused a transaction because it had it already. -/
def sendRejectionIsAlreadyAccepted (message : String) : Bool :=
  ["transaction was committed to the best chain", "already in mempool",
    "already have transaction", "transaction already in block chain",
    "transaction is already in state", "transaction already exists", "txn-already-known",
    "txn-already-in-mempool", "already known"].any (containsPhrase message.toLower)

/-- The latest run of an account. -/
def latestRun (s : Store) (account : AccountUuid) (network : WalletNetwork) :
    Option MigrationRun :=
  (s.runs.filter fun run => run.accountUuid = account && run.network = network).foldl
    (fun best run => match best with
      | none => some run
      | some other => if other.createdAtMs < run.createdAtMs then some run else some other)
    none

/-- The latest run, if it failed because a transaction was already accepted. -/
def latestIdempotentBroadcastFailure (s : Store) (account : AccountUuid)
    (network : WalletNetwork) : Option (RunId × String) := do
  let run ← s.latestRun account network
  let lastError ← run.lastError
  if run.phase ≠ .failedTerminal || !sendRejectionIsAlreadyAccepted lastError then none
  else if s.countPendingWithStatus run.runId .scheduled = 0 then none
  else some (run.runId, lastError)

/-- Create a private draft, or find the draft with the same plan. -/
def createOrResumePrivateMigrationDraft (s : Store) (new : NewRun)
    (approvedSchedule : List MigrationScheduleEntry) : Except String (Store × RunId) :=
  match s.activeRun new.accountUuid new.network with
  | some run =>
    if run.phase.isPrivateMigrationDraft then do
      ensure (run.targetValues = new.targetValues)
        "Saved private migration plan no longer matches this balance"
      return (s, run.runId)
    else .error s!"Migration already active: {run.runId}"
  | none => do
    ensure ((s.latestIdempotentBroadcastFailure new.accountUuid new.network).isNone)
      "Migration recovery must complete before creating another run"
    validateScheduleWithPolicy approvedSchedule new.targetValues new.network
      (configuredTimingPolicy new.fastTestnetEnabled new.network)
    let s ← s.insertRun (new.row .awaitingPreparation approvedSchedule)
      "Create private migration draft"
    return (s, new.runId)

/-- Add the notes, stages and signed children of a private draft. -/
def finalizePrivateMigrationDraft (s : Store) (r : RunId) (account : AccountUuid)
    (network : WalletNetwork) (targetValues : List Nat)
    (preparedNotes : List PreparedOrchardNoteRef)
    (signedChildren : List SignedMigrationPcztInsert)
    (denominationStages : List DenominationStageInsert) : Except String Store := do
  ensure (denominationStages ≠ [] ∨ preparedNotes ≠ [])
    "Migration run has no prepared funding notes"
  let run ← okOr (s.activeRun account network) "Saved private migration draft was not found"
  ensure (run.runId = r ∧ run.phase.isPrivateMigrationDraft)
    "Saved private migration draft is no longer awaiting preparation"
  ensure (run.targetValues = targetValues)
    "Prepared transactions do not match the saved migration plan"
  let s := s.insertPreparedNotes r preparedNotes true
  let s ← s.insertDenominationStages r denominationStages
  let s ← s.insertSignedChildPczts r signedChildren .initial
  return s.updateRuns (fun run => run.runId = r && run.phase.isPrivateMigrationDraft)
    fun run => { run with phase := initialPhase denominationStages, lastError := none }

/-- Add signed children to a run that is ready for them. -/
def persistSignedChildPcztsForRun (s : Store) (r : RunId)
    (signedChildren : List SignedMigrationPcztInsert) : Except String Store := do
  ensure (signedChildren ≠ []) "Keystone migration returned no signed children"
  let s ← s.insertSignedChildPczts r signedChildren .initial
  ensure (s.runs.countP (fun run => run.runId = r && run.phase = .readyToMigrate) = 1)
    "Migration run is no longer ready for Keystone signatures"
  return s.updateRuns (fun run => run.runId = r && run.phase = .readyToMigrate)
    fun run => { run with lastError := none }

/-- Write the phase of a run. -/
def markRunPhase (s : Store) (r : RunId) (phase : Phase) (message : Option String) : Store :=
  s.updateRuns (fun run => run.runId = r)
    fun run => { run with phase := phase, lastError := message }

/-- Remove everything that the runs of an account own. -/
def deleteAccountMigrationRows (s : Store) (account : AccountUuid) : Store :=
  let owned (r : RunId) : Bool := s.runs.any fun run => run.accountUuid = account && run.runId = r
  { runs := deleteWhere (fun run => run.accountUuid = account) s.runs
    preparedNotes := deleteWhere (fun row => owned row.runId) s.preparedNotes
    pendingTxs := deleteWhere (fun row => owned row.runId) s.pendingTxs
    signedChildren := deleteWhere (fun row => owned row.runId) s.signedChildren
    stages := deleteWhere (fun row => owned row.runId) s.stages
    stageInputs := deleteWhere (fun row => owned row.runId) s.stageInputs
    stageOutputs := deleteWhere (fun row => owned row.runId) s.stageOutputs }

/-- Adopt the fast policy for the active run of an account, with a generated schedule. -/
def adoptTimingPolicyForActiveRun (s : Store) (account : AccountUuid) (network : WalletNetwork)
    (desiredPolicy : MigrationTimingPolicy) (generated : List MigrationScheduleEntry) : Store :=
  if network = .main ∨ desiredPolicy ≠ .fastTestnet then s
  else match s.activeRun account network with
  | none => s
  | some run =>
    if run.timingPolicy = .fastTestnet then s
    else if (s.pendingOf run.runId).length > 0 then s
    else s.updateRuns (fun other => other.runId = run.runId && other.timingPolicy ≠ .fastTestnet)
      fun other => { other with timingPolicy := .fastTestnet, schedule := generated }

/-! ### What the operations may do -/

theorem initialPhase_ne_complete {stages : List DenominationStageInsert} :
  initialPhase stages ≠ .complete
  := by
  rw [initialPhase]
  split <;> decide

theorem initialPhase_ne_noOrchardFunds {stages : List DenominationStageInsert} :
  initialPhase stages ≠ .noOrchardFunds
  := by
  rw [initialPhase]
  split <;> decide

theorem insertRun_evolves {run : MigrationRun} {what : String} (hphase : run.phase ≠ .complete)
    (hcreate : l.create run.runId) (h : s.insertRun run what = .ok s') :
  Evolves l s s'
  := by
  simp only [insertRun, bind_eq_ok, pure_eq_ok, ensure_eq_ok] at h
  obtain ⟨_, hunused, rfl⟩ := h
  apply Change.evolves
  apply Change.create run
  · rfl
  · rfl
  · apply hunused
  · apply hphase
  · apply hcreate

/-- After its row is added, a new run gets its notes, its stages and its signed children. -/
theorem insertCreatedRun_evolves_after {new : NewRun}
    {preparedNotes : List PreparedOrchardNoteRef}
    {signedChildren : List SignedMigrationPcztInsert}
    {denominationStages : List DenominationStageInsert}
    {approvedSchedule : Option (List MigrationScheduleEntry)}
    (h : s.insertCreatedRun new preparedNotes signedChildren denominationStages approvedSchedule
      = .ok s') :
  ∃ t, s.insertRun (new.row (initialPhase denominationStages) (approvedSchedule.getD []))
      "Create staged migration run" = .ok t
    ∧ Evolves l t s'
  := by
  obtain ⟨t, ht, h⟩ := bind_eq_ok.mp h
  obtain ⟨u, hu, h⟩ := bind_eq_ok.mp h
  have htu : Evolves l t u := by
    apply Evolves.trans _ (insertDenominationStages_evolves hu)
    apply evolves_of_eq <;> rfl
  exact ⟨t, ht, htu.trans (insertSignedChildPczts_evolves h)⟩

theorem insertCreatedRun_evolves {new : NewRun} {preparedNotes : List PreparedOrchardNoteRef}
    {signedChildren : List SignedMigrationPcztInsert}
    {denominationStages : List DenominationStageInsert}
    {approvedSchedule : Option (List MigrationScheduleEntry)} (hcreate : l.create new.runId)
    (h : s.insertCreatedRun new preparedNotes signedChildren denominationStages approvedSchedule
      = .ok s') :
  Evolves l s s'
  := by
  obtain ⟨t, ht, hafter⟩ := insertCreatedRun_evolves_after h
  apply Evolves.trans _ hafter
  apply insertRun_evolves initialPhase_ne_complete _ ht
  apply hcreate

theorem createRun_evolves {new : NewRun} {preparedNotes : List PreparedOrchardNoteRef}
    {signedChildren : List SignedMigrationPcztInsert}
    {denominationStages : List DenominationStageInsert}
    {approvedSchedule : Option (List MigrationScheduleEntry)} (hcreate : l.create new.runId)
    (h : s.createRunWithStagedDenominationsAndSignedChildren new preparedNotes signedChildren
      denominationStages approvedSchedule = .ok s') :
  Evolves l s s'
  := by
  rw [createRun_eq] at h
  obtain ⟨_, -, h⟩ := bind_eq_ok.mp h
  apply insertCreatedRun_evolves hcreate h

theorem deleteCreatedRun_evolves (hdrop : l.drop r) :
  Evolves l s (s.deleteCreatedRun r)
  := by
  apply Change.evolves
  apply Change.drop fun run => run.runId = r
  · rfl
  · rfl
  · intro run _ hrun
    rw [decide_eq_true_eq] at hrun
    rw [hrun]
    apply hdrop

theorem createOrResumePrivateMigrationDraft_evolves {new : NewRun}
    {approvedSchedule : List MigrationScheduleEntry} {r' : RunId} (hcreate : l.create new.runId)
    (h : s.createOrResumePrivateMigrationDraft new approvedSchedule = .ok (s', r')) :
  Evolves l s s'
  := by
  rw [createOrResumePrivateMigrationDraft] at h
  split at h
  · split at h
    · simp only [bind_eq_ok, pure_eq_ok, Prod.mk.injEq] at h
      obtain ⟨_, -, rfl, -⟩ := h
      apply Evolves.refl
    · cases h
  · obtain ⟨_, -, h⟩ := bind_eq_ok.mp h
    obtain ⟨_, -, h⟩ := bind_eq_ok.mp h
    obtain ⟨t, ht, h⟩ := bind_eq_ok.mp h
    rw [pure_eq_ok, Prod.mk.injEq] at h
    obtain ⟨rfl, -⟩ := h
    apply insertRun_evolves _ hcreate ht
    simp [NewRun.row]

theorem finalizePrivateMigrationDraft_evolves {account : AccountUuid} {network : WalletNetwork}
    {targetValues : List Nat} {preparedNotes : List PreparedOrchardNoteRef}
    {signedChildren : List SignedMigrationPcztInsert}
    {denominationStages : List DenominationStageInsert}
    (h : s.finalizePrivateMigrationDraft r account network targetValues preparedNotes
      signedChildren denominationStages = .ok s') :
  Evolves l s s'
  := by
  obtain ⟨_, -, h⟩ := bind_eq_ok.mp h
  obtain ⟨_, -, h⟩ := bind_eq_ok.mp h
  obtain ⟨_, -, h⟩ := bind_eq_ok.mp h
  obtain ⟨_, -, h⟩ := bind_eq_ok.mp h
  obtain ⟨t, ht, h⟩ := bind_eq_ok.mp h
  obtain ⟨u, hu, h⟩ := bind_eq_ok.mp h
  rw [pure_eq_ok] at h
  subst h
  have hst : Evolves l s t := by
    apply Evolves.trans _ (insertDenominationStages_evolves ht)
    apply evolves_of_eq <;> rfl
  apply Evolves.trans hst
  apply Evolves.trans (insertSignedChildPczts_evolves hu)
  apply evolves_updateRuns
  intro run _ hrun
  simp only [Bool.and_eq_true] at hrun
  refine ⟨rfl, ⟨rfl, rfl⟩, rfl, .inr ⟨.inl ?_, fun hc => absurd hc initialPhase_ne_complete,
    fun hc => absurd hc initialPhase_ne_noOrchardFunds⟩⟩
  have hdraft := hrun.2
  cases hphase : run.phase <;> simp_all [Phase.isPrivateMigrationDraft, Phase.releasesWalletLocks]

theorem persistSignedChildPcztsForRun_evolves {signedChildren : List SignedMigrationPcztInsert}
    (h : s.persistSignedChildPcztsForRun r signedChildren = .ok s') :
  Evolves l s s'
  := by
  obtain ⟨_, -, h⟩ := bind_eq_ok.mp h
  obtain ⟨t, ht, h⟩ := bind_eq_ok.mp h
  obtain ⟨_, -, h⟩ := bind_eq_ok.mp h
  rw [pure_eq_ok] at h
  subst h
  apply Evolves.trans (insertSignedChildPczts_evolves ht)
  apply evolves_updateRuns_of_keep <;> simp

/-- The phase of a run is written whatever it was. -/
theorem markRunPhase_evolves {phase : Phase} {message : Option String}
    (hphase : ∀ run ∈ s.runs, run.runId = r → run.phase ≠ phase → l.rephase r)
    (hcomplete : phase = .complete → l.complete r)
    (hunfund : phase = .noOrchardFunds → l.unfund r) :
  Evolves l s (s.markRunPhase r phase message)
  := by
  apply evolves_updateRuns
  intro run hrun hid
  rw [decide_eq_true_eq] at hid
  refine ⟨rfl, ⟨rfl, rfl⟩, rfl, ?_⟩
  by_cases h : run.phase = phase
  · left
    apply h.symm
  · right
    rw [hid]
    exact ⟨.inr (.inl (hphase run hrun hid h)), hcomplete, hunfund⟩

theorem deleteAccountMigrationRows_evolves {account : AccountUuid}
    (hdrop : ∀ run ∈ s.runs, run.accountUuid = account → l.drop run.runId) :
  Evolves l s (s.deleteAccountMigrationRows account)
  := by
  apply Evolves.trans (evolves_deletePendingTxs
    (p := fun row => s.runs.any fun run => run.accountUuid = account && run.runId = row.runId))
  apply Change.evolves
  apply Change.drop fun run => run.accountUuid = account
  · rfl
  · rfl
  · intro run hrun haccount
    apply hdrop run hrun
    simpa using haccount

theorem adoptTimingPolicyForActiveRun_evolves {account : AccountUuid} {network : WalletNetwork}
    {desiredPolicy : MigrationTimingPolicy} {generated : List MigrationScheduleEntry} :
  Evolves l s (s.adoptTimingPolicyForActiveRun account network desiredPolicy generated)
  := by
  rw [adoptTimingPolicyForActiveRun]
  split
  · apply Evolves.refl
  · split
    · apply Evolves.refl
    · split
      · apply Evolves.refl
      · split
        · apply Evolves.refl
        · apply evolves_updateRuns_of_keep <;> simp

end Store

end Vizor
