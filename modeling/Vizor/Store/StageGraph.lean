import Vizor.Keystone.CompactSigs
import Vizor.Lib.Errors
import Vizor.Lib.Savepoint
import Vizor.Store.Create

/-!
# The graph of stages

The stages of a run are written to three tables under a savepoint of the caller's transaction.
The batch is validated first; the tables then refuse every row that would break one of their
constraints, and what was written before such a row is undone.  Where the inputs of a stage
come from is not checked.  The rows are those of the store, with texts for ids and hashes.
-/

namespace Vizor

open Run Savepoint

namespace StageGraph

/-! ### Stages -/

/-- A text. -/
abbrev Text := List Char

/-- An input of a stage. -/
abbrev DenominationStageInputRef := Vizor.DenominationStageInputRef Text

/-- A signed stage that is ready to be inserted. -/
abbrev DenominationStageInsert := Vizor.DenominationStageInsert Text Keystone.SpendAuthSignature

/-! ### Tables -/

/-- A row of the table of stages. -/
structure StageRow where
  runId : Text
  stageIndex : Nat
  encryptedBasePczt : String
  encryptedCompactSigs : String
  expectedTxid : Text
  targetHeight : Nat
  scheduledHeight : Nat
  broadcastNotBeforeHeight : Option Nat
  broadcastAttempted : Nat
  expiryHeight : Nat
  feeZatoshi : Nat
  columns : StageColumns String Bytes
  deriving DecidableEq

/-- A row of the table of inputs. -/
abbrev InputRow := StageInput Text Text

/-- A row of the table of outputs. -/
abbrev OutputRow := StageOutput Text

/-- The primary key of a stage. -/
def StageRow.key (row : StageRow) : Text × Nat := (row.runId, row.stageIndex)

def StageRow.txidKey (row : StageRow) : Text × Text := (row.runId, row.expectedTxid)

/-- The stage that an input belongs to. -/
def InputRow.stage (row : InputRow) : Text × Nat := (row.runId, row.stageIndex)

/-- The primary key of an input. -/
def InputRow.key (row : InputRow) : Text × Nat × Nat := (row.runId, row.stageIndex, row.inputOrder)

def InputRow.outpointKey (row : InputRow) : Text × Text × Nat :=
  (row.runId, row.txid, row.outputIndex)

/-- The stage that an output belongs to. -/
def OutputRow.stage (row : OutputRow) : Text × Nat := (row.runId, row.stageIndex)

/-- The primary key of an output. -/
def OutputRow.key (row : OutputRow) : Text × Nat × Nat :=
  (row.runId, row.stageIndex, row.outputOrder)

def OutputRow.indexKey (row : OutputRow) : Text × Nat × Nat :=
  (row.runId, row.stageIndex, row.outputIndex)

/-- A stage has the transaction and the block of its status; the hash of a block has 32 bytes. -/
def StageRow.Check (row : StageRow) : Prop :=
  row.columns.Checked ∧ ∀ hash ∈ row.columns.confirmedBlockHash, hash.length = 32

instance (row : StageRow) : Decidable row.Check := by
  unfold StageRow.Check StageColumns.Checked
  infer_instance

/-- The tables, whose rows meet the constraints of the schema. -/
structure StageTables where
  stages : List StageRow
  inputs : List InputRow
  outputs : List OutputRow
  stageKeys : (stages.map StageRow.key).Nodup
  stageTxids : (stages.map StageRow.txidKey).Nodup
  stageChecks : ∀ row ∈ stages, row.Check
  inputKeys : (inputs.map InputRow.key).Nodup
  inputOutpoints : (inputs.map InputRow.outpointKey).Nodup
  inputStages : ∀ row ∈ inputs, row.stage ∈ stages.map StageRow.key
  outputKeys : (outputs.map OutputRow.key).Nodup
  outputIndices : (outputs.map OutputRow.indexKey).Nodup
  outputStages : ∀ row ∈ outputs, row.stage ∈ stages.map StageRow.key

theorem nodup_map_concat {α β : Type} {f : α → β} {rows : List α} {row : α}
    (hrows : (rows.map f).Nodup) (hrow : f row ∉ rows.map f) :
  ((rows ++ [row]).map f).Nodup
  := by
  rw [List.map_append, List.map_singleton]
  apply List.nodup_append.mpr ⟨hrows, List.nodup_singleton _, by simpa using hrow⟩

theorem forall_mem_concat {α : Type} {p : α → Prop} {rows : List α} {row : α}
    (hrows : ∀ other ∈ rows, p other) (hrow : p row) :
  ∀ other ∈ rows ++ [row], p other
  := by
  simpa [or_imp, forall_and] using ⟨hrows, hrow⟩

namespace StageTables

def uniqueError : String := "UNIQUE constraint failed"

/-- Insert a stage. -/
def insertStage (row : StageRow) (t : StageTables) : Except String StageTables :=
  if hcheck : row.Check then
    if hunique : row.key ∉ t.stages.map StageRow.key
        ∧ row.txidKey ∉ t.stages.map StageRow.txidKey then
      .ok { t with
        stages := t.stages ++ [row]
        stageKeys := nodup_map_concat t.stageKeys hunique.1
        stageTxids := nodup_map_concat t.stageTxids hunique.2
        stageChecks := forall_mem_concat t.stageChecks hcheck
        inputStages := fun input hinput => by
          rw [List.map_append]
          apply List.mem_append_left _ (t.inputStages input hinput)
        outputStages := fun output houtput => by
          rw [List.map_append]
          apply List.mem_append_left _ (t.outputStages output houtput) }
    else .error uniqueError
  else .error "CHECK constraint failed"

/-- Insert an input of a stage. -/
def insertInput (row : InputRow) (t : StageTables) : Except String StageTables :=
  if hunique : row.key ∉ t.inputs.map InputRow.key
      ∧ row.outpointKey ∉ t.inputs.map InputRow.outpointKey then
    if hstage : row.stage ∈ t.stages.map StageRow.key then
      .ok { t with
        inputs := t.inputs ++ [row]
        inputKeys := nodup_map_concat t.inputKeys hunique.1
        inputOutpoints := nodup_map_concat t.inputOutpoints hunique.2
        inputStages := forall_mem_concat t.inputStages hstage }
    else .error "FOREIGN KEY constraint failed"
  else .error uniqueError

/-- Insert an output of a stage. -/
def insertOutput (row : OutputRow) (t : StageTables) : Except String StageTables :=
  if hunique : row.key ∉ t.outputs.map OutputRow.key
      ∧ row.indexKey ∉ t.outputs.map OutputRow.indexKey then
    if hstage : row.stage ∈ t.stages.map StageRow.key then
      .ok { t with
        outputs := t.outputs ++ [row]
        outputKeys := nodup_map_concat t.outputKeys hunique.1
        outputIndices := nodup_map_concat t.outputIndices hunique.2
        outputStages := forall_mem_concat t.outputStages hstage }
    else .error "FOREIGN KEY constraint failed"
  else .error uniqueError

end StageTables

/-! ### Validation -/

/-- Texts are compared without the case of their letters. -/
def toAsciiLowercase (text : Text) : Text := text.map Char.toLower

/-- A digit of a hexadecimal number. -/
def isAsciiHexdigit (c : Char) : Bool :=
  ('0' ≤ c ∧ c ≤ '9') ∨ ('a' ≤ c ∧ c ≤ 'f') ∨ ('A' ≤ c ∧ c ≤ 'F')

def validateHex32 (text : Text) (label : String) : Except String Unit :=
  ensure ((text.map Char.utf8Size).sum = 64 ∧ text.all isAsciiHexdigit)
    s!"Invalid {label}: expected 32-byte hex"

def validateTxidHex (text : Text) (label : String) : Except String Unit :=
  validateHex32 text label

/-- What is known of the stages of a batch that were validated so far. -/
structure StageBatch where
  stageIndices : List Nat
  expectedTxids : List Text
  inputOutpoints : List (Text × Nat)

/-- Validate an input against the inputs before it. -/
def validateInput (inputOutpoints : List (Text × Nat)) (input : DenominationStageInputRef) :
    Except String (List (Text × Nat)) := do
  validateTxidHex input.txid "input transaction ID"
  match input.nullifier with
  | none => pure ()
  | some nullifier => validateHex32 nullifier "input nullifier"
  let outpoint := (toAsciiLowercase input.txid, input.outputIndex)
  ensure (outpoint ∉ inputOutpoints)
    s!"Migration denomination input {String.ofList input.txid}:{input.outputIndex} is assigned more than once"
  return outpoint :: inputOutpoints

/-- Validate a stage against the stages before it. -/
def StageBatch.validate (batch : StageBatch) (stage : DenominationStageInsert) :
    Except String StageBatch := do
  ensure (stage.stageIndex ∉ batch.stageIndices)
    s!"Duplicate migration denomination stage index {stage.stageIndex}"
  validateTxidHex stage.expectedTxid "expected transaction ID"
  ensure (toAsciiLowercase stage.expectedTxid ∉ batch.expectedTxids)
    s!"Duplicate migration denomination expected txid {String.ofList stage.expectedTxid}"
  ensure (stage.basePczt ≠ [])
    s!"Migration denomination stage {stage.stageIndex} has an empty base PCZT"
  ensure (stage.inputs ≠ [])
    s!"Migration denomination stage {stage.stageIndex} has no real inputs"
  ensure (stage.outputs ≠ [])
    s!"Migration denomination stage {stage.stageIndex} has no real outputs"
  let _ ← stage.state
  let inputOutpoints ← stage.inputs.foldlM validateInput batch.inputOutpoints
  let _ ← stage.outputs.foldlM (Vizor.StageBatch.validateOutput stage.stageIndex) []
  return {
    stageIndices := stage.stageIndex :: batch.stageIndices
    expectedTxids := toAsciiLowercase stage.expectedTxid :: batch.expectedTxids
    inputOutpoints := inputOutpoints }

/-- Validate the stages of a batch. -/
def validateStageBatch (runId : Text) (stages : List DenominationStageInsert) :
    Except String Unit := do
  ensure (runId ≠ []) "Migration denomination stage run ID is empty"
  let _ ← stages.foldlM StageBatch.validate ⟨[], [], []⟩
  return ()

/-! ### Insertion -/

/-- What the code around the tables does: the encryption of a payload with a salt, the decoding
of the salt, and the failures of statements for reasons of the database. -/
structure Environment where
  encryptPayload : Bytes → Bytes → Except String String
  decodeBase64 : Text → Except String Bytes
  refuses : StageTables → Option String

/-- A statement that writes a row. -/
def Environment.execute (env : Environment) (what : String)
    (write : StageTables → Except String StageTables) : Script StageTables Unit :=
  statement fun t =>
    match env.refuses t with
    | some error => .error s!"{what}: {error}"
    | none => (write t).mapError fun error => s!"{what}: {error}"

/-- A number of 64 bits as a column, whose numbers have a sign. -/
def toSql (number : Nat) : Except String Unit :=
  ensure (number < 2 ^ 63) "out of range integral type conversion attempted"

/-- The row of a new stage. -/
def Environment.stageRow (env : Environment) (salt : Bytes) (runId : Text)
    (stage : DenominationStageInsert) : Except String StageRow := do
  let encryptedBasePczt ← env.encryptPayload salt stage.basePczt
  let sigsBlob ← Keystone.encodeCompactActionSigs stage.sigs
  let encryptedCompactSigs ← env.encryptPayload salt sigsBlob
  let encryptedRawTx ← stage.rawTx.mapM (env.encryptPayload salt)
  return {
    runId := runId
    stageIndex := stage.stageIndex
    encryptedBasePczt := encryptedBasePczt
    encryptedCompactSigs := encryptedCompactSigs
    expectedTxid := toAsciiLowercase stage.expectedTxid
    targetHeight := stage.targetHeight
    scheduledHeight := stage.scheduledHeight
    broadcastNotBeforeHeight := none
    broadcastAttempted := 0
    expiryHeight := stage.expiryHeight
    feeZatoshi := stage.feeZatoshi
    columns := ⟨stage.status, encryptedRawTx, none, none⟩ }

/-- An input with the hashes that are stored. -/
def lowercased (input : DenominationStageInputRef) : DenominationStageInputRef :=
  { input with
    txid := toAsciiLowercase input.txid
    nullifier := input.nullifier.map toAsciiLowercase }

/-- Insert an input of a stage. -/
def insertInput (env : Environment) (runId : Text) (stageIndex : Nat)
    (ordered : DenominationStageInputRef × Nat) : Script StageTables Unit := do
  value (ensure (ordered.2 < u32Size) "Migration denomination input order exceeds u32")
  env.execute "Insert migration denomination stage input" fun t => do
    toSql ordered.1.valueZatoshi
    t.insertInput (Store.stageInputRow runId stageIndex ordered.2 (lowercased ordered.1))

/-- Insert an output of a stage. -/
def insertOutput (env : Environment) (runId : Text) (stageIndex : Nat)
    (ordered : DenominationStageOutputRef × Nat) : Script StageTables Unit := do
  value (ensure (ordered.2 < u32Size) "Migration denomination output order exceeds u32")
  env.execute "Insert migration denomination stage output" fun t => do
    toSql ordered.1.valueZatoshi
    t.insertOutput (Store.stageOutputRow runId stageIndex ordered.2 ordered.1)

/-- Insert a stage with its inputs and its outputs. -/
def insertStage (env : Environment) (salt : Bytes) (runId : Text)
    (stage : DenominationStageInsert) : Script StageTables Unit := do
  let row ← value (env.stageRow salt runId stage)
  env.execute "Insert migration denomination stage" fun t => do
    toSql stage.feeZatoshi
    t.insertStage row
  forEach (insertInput env runId stage.stageIndex) stage.inputs.zipIdx
  forEach (insertOutput env runId stage.stageIndex) stage.outputs.zipIdx

def insertSavepoint : String := "vizor_insert_denomination_stages"

/-- Insert the stages of a batch under a savepoint, to which a failure returns. -/
def insertDenominationStagesWithTx (env : Environment) (runId : Text)
    (stages : List DenominationStageInsert) (saltBase64 : Text) :
    Script (Session StageTables) Unit := do
  value (validateStageBatch runId stages)
  let salt ← value (env.decodeBase64 saltBase64)
  statement fun session =>
    match env.refuses session.state with
    | some error => .error s!"Begin migration denomination stage savepoint: {error}"
    | none => .ok (savepoint insertSavepoint session)
  let insertResult ← attempt (within (forEach (insertStage env salt runId) stages))
  match insertResult with
  | .ok () => statement fun session => (release insertSavepoint session).mapError fun error =>
      s!"Release migration denomination stage savepoint: {error}"
  | .error error => do
    let rollbackResult ← attempt do
      statement (rollbackTo insertSavepoint)
      statement (release insertSavepoint)
    match rollbackResult with
    | .ok () => value (.error error)
    | .error rollbackError => value (.error
      s!"{error}; rollback migration denomination stage batch: {rollbackError}")

/-! ### Atomicity -/

variable {env : Environment} {runId : Text} {stages : List DenominationStageInsert}
  {saltBase64 : Text} {session : Session StageTables}

/-- A batch is inserted as a whole, or the session is as it was. -/
theorem insertDenominationStagesWithTx_cases (env : Environment) (runId : Text)
    (stages : List DenominationStageInsert) (saltBase64 : Text) (session : Session StageTables) :
  (∃ salt tables, validateStageBatch runId stages = .ok ()
      ∧ Ends (forEach (insertStage env salt runId) stages) session.state () tables
      ∧ (insertDenominationStagesWithTx env runId stages saltBase64).run session
        = (.ok (), { session with state := tables }))
    ∨ ∃ error, (insertDenominationStagesWithTx env runId stages saltBase64).run session
      = (.error error, session)
  := by
  unfold insertDenominationStagesWithTx
  rw [run_bind, run_value]
  rcases validateStageBatch runId stages with error | _
  · exact .inr ⟨error, rfl⟩
  dsimp only
  rw [run_bind, run_value]
  rcases env.decodeBase64 saltBase64 with error | salt
  · exact .inr ⟨error, rfl⟩
  dsimp only
  rw [run_bind, run_statement]
  rcases env.refuses session.state with _ | error
  swap
  · exact .inr ⟨_, rfl⟩
  dsimp only
  rw [run_bind, run_attempt, run_within]
  rcases hinsert : (forEach (insertStage env salt runId) stages).run (savepoint insertSavepoint
    session).state with ⟨error | _, tables⟩
  · right
    refine ⟨error, ?_⟩
    dsimp only
    rw [run_bind, run_attempt, run_bind, run_statement, rollbackTo_savepoint]
    dsimp only
    rw [run_statement, release_savepoint]
    rfl
  · left
    refine ⟨salt, tables, rfl, hinsert, ?_⟩
    dsimp only
    rw [run_statement, release_savepoint]
    rfl

/-! ### What is inserted -/

variable {salt : Bytes} {stage : DenominationStageInsert} {t t' : StageTables}

/-- The rows of the inputs of a new stage, in their order. -/
def inputRows (runId : Text) (stage : DenominationStageInsert) : List InputRow :=
  Store.stageInputRows runId { stage with inputs := stage.inputs.map lowercased }

/-- A statement that wrote a row met no failure. -/
theorem ends_execute {what : String} {write : StageTables → Except String StageTables}
    (h : Ends (env.execute what write) t () t') :
  write t = .ok t'
  := by
  rw [Environment.execute, ends_statement] at h
  split at h
  · contradiction
  · apply mapError_eq_ok.mp h

theorem insertStage_eq_ok {row : StageRow} (h : t.insertStage row = .ok t') :
  t'.stages = t.stages ++ [row] ∧ t'.inputs = t.inputs ∧ t'.outputs = t.outputs
  := by
  unfold StageTables.insertStage at h
  split at h
  · split at h
    · cases h
      exact ⟨rfl, rfl, rfl⟩
    · contradiction
  · contradiction

theorem insertInput_eq_ok {row : InputRow} (h : t.insertInput row = .ok t') :
  t'.stages = t.stages ∧ t'.inputs = t.inputs ++ [row] ∧ t'.outputs = t.outputs
  := by
  unfold StageTables.insertInput at h
  split at h
  · split at h
    · cases h
      exact ⟨rfl, rfl, rfl⟩
    · contradiction
  · contradiction

theorem insertOutput_eq_ok {row : OutputRow} (h : t.insertOutput row = .ok t') :
  t'.stages = t.stages ∧ t'.inputs = t.inputs ∧ t'.outputs = t.outputs ++ [row]
  := by
  unfold StageTables.insertOutput at h
  split at h
  · split at h
    · cases h
      exact ⟨rfl, rfl, rfl⟩
    · contradiction
  · contradiction

theorem ends_insertInput {stageIndex : Nat} {ordered : DenominationStageInputRef × Nat}
    (h : Ends (insertInput env runId stageIndex ordered) t () t') :
  t'.stages = t.stages ∧ t'.inputs = t.inputs ++ [Store.stageInputRow runId stageIndex ordered.2
      (lowercased ordered.1)]
    ∧ t'.outputs = t.outputs
  := by
  simp only [insertInput, ends_bind, ends_value] at h
  obtain ⟨_, _, ⟨-, rfl⟩, h⟩ := h
  obtain ⟨_, -, hwrite⟩ := bind_eq_ok.mp (ends_execute h)
  apply insertInput_eq_ok hwrite

theorem ends_insertOutput {stageIndex : Nat} {ordered : DenominationStageOutputRef × Nat}
    (h : Ends (insertOutput env runId stageIndex ordered) t () t') :
  t'.stages = t.stages ∧ t'.inputs = t.inputs
    ∧ t'.outputs = t.outputs ++ [Store.stageOutputRow runId stageIndex ordered.2 ordered.1]
  := by
  simp only [insertOutput, ends_bind, ends_value] at h
  obtain ⟨_, _, ⟨-, rfl⟩, h⟩ := h
  obtain ⟨_, -, hwrite⟩ := bind_eq_ok.mp (ends_execute h)
  apply insertOutput_eq_ok hwrite

/-- A stage is inserted with its inputs and its outputs. -/
theorem ends_insertStage (h : Ends (insertStage env salt runId stage) t () t') :
  (∃ row, env.stageRow salt runId stage = .ok row ∧ t'.stages = t.stages ++ [row])
    ∧ t'.inputs = t.inputs ++ inputRows runId stage
    ∧ t'.outputs = t.outputs ++ Store.stageOutputRows runId stage
  := by
  simp only [insertStage, ends_bind, ends_value] at h
  obtain ⟨row, _, ⟨hrow, rfl⟩, _, t₁, hstage, _, t₂, hinputs, houtputs⟩ := h
  obtain ⟨_, -, hwrite⟩ := bind_eq_ok.mp (ends_execute hstage)
  obtain ⟨hstages₁, hinputs₁, houtputs₁⟩ := insertStage_eq_ok hwrite
  have hstages₂ : t₂.stages = t₁.stages :=
    keeps_of_ends_forEach (fun _ _ _ _ h => (ends_insertInput h).1) hinputs
  have houtputs₂ : t₂.outputs = t₁.outputs :=
    keeps_of_ends_forEach (fun _ _ _ _ h => (ends_insertInput h).2.2) hinputs
  have hstages₃ : t'.stages = t₂.stages :=
    keeps_of_ends_forEach (fun _ _ _ _ h => (ends_insertOutput h).1) houtputs
  have hinputs₃ : t'.inputs = t₂.inputs :=
    keeps_of_ends_forEach (fun _ _ _ _ h => (ends_insertOutput h).2.1) houtputs
  have hadded := appends_of_ends_forEach (fun _ _ _ _ h => (ends_insertInput h).2.1) hinputs
  have hadded' := appends_of_ends_forEach (fun _ _ _ _ h => (ends_insertOutput h).2.2) houtputs
  refine ⟨⟨row, hrow, ?_⟩, ?_, ?_⟩
  · rw [hstages₃, hstages₂, hstages₁]
  · rw [hinputs₃, hadded, hinputs₁, inputRows, Store.stageInputRows, List.zipIdx_map,
      List.map_map, List.map_eq_flatMap]
    rfl
  · rw [hadded', houtputs₂, houtputs₁, Store.stageOutputRows, List.map_eq_flatMap]

/-- The tables after a batch are the tables before it with a row for every stage, every input
and every output of the batch. -/
structure Inserted (env : Environment) (runId : Text) (batch : List DenominationStageInsert)
    (before after : StageTables) : Prop where
  stages : ∃ salt rows,
    List.Forall₂ (fun stage row => env.stageRow salt runId stage = .ok row) batch rows
      ∧ after.stages = before.stages ++ rows
  inputs : after.inputs = before.inputs ++ batch.flatMap (inputRows runId)
  outputs : after.outputs = before.outputs ++ batch.flatMap (Store.stageOutputRows runId)

theorem inserted_of_ends (h : Ends (forEach (insertStage env salt runId) stages) t () t') :
  Inserted env runId stages t t'
  where
  stages := ⟨salt, appendsRow_of_ends_forEach (fun _ _ _ _ h => (ends_insertStage h).1) h⟩
  inputs := appends_of_ends_forEach (fun _ _ _ _ h => (ends_insertStage h).2.1) h
  outputs := appends_of_ends_forEach (fun _ _ _ _ h => (ends_insertStage h).2.2) h

/-! ### The graph -/

/-- The indexes of the stages of a run. -/
def stageIndices (t : StageTables) (runId : Text) : List Nat :=
  (t.stages.filter (·.runId = runId)).map (·.stageIndex)

/-- The outpoints that the stages of a run spend. -/
def spentOutpoints (t : StageTables) (runId : Text) : List (Text × Nat) :=
  (t.inputs.filter (·.runId = runId)).map fun input => (input.txid, input.outputIndex)

/-- The transaction of the stage that an output belongs to. -/
def txidOf (t : StageTables) (output : OutputRow) : Option Text :=
  (t.stages.find? (·.key = output.stage)).map (·.expectedTxid)

/-- The outpoints that the stages of a run create. -/
def createdOutpoints (t : StageTables) (runId : Text) : List (Option Text × Nat) :=
  (t.outputs.filter (·.runId = runId)).map fun output => (txidOf t output, output.outputIndex)

/-- Stages have their own indexes, and outpoints are spent and created once. -/
structure UniqueGraph (t : StageTables) (runId : Text) : Prop where
  stageIndices : (stageIndices t runId).Nodup
  spentOutpoints : (spentOutpoints t runId).Nodup
  createdOutpoints : (createdOutpoints t runId).Nodup

/-- Every input that spends the transaction of a stage spends an output of it, and the stage
comes earlier. -/
def PriorInputsExist (t : StageTables) (runId : Text) : Prop :=
  ∀ input ∈ t.inputs, input.runId = runId →
    ∀ source ∈ t.stages, source.runId = runId → source.expectedTxid = input.txid →
      source.stageIndex < input.stageIndex
        ∧ ∃ output ∈ t.outputs, output.stage = source.key ∧ output.outputIndex = input.outputIndex

/-- What is unique together with the run is unique within a run. -/
theorem nodup_of_run {ρ κ : Type} {rows : List ρ} {run : ρ → Text} {column : ρ → κ}
    (h : (rows.map fun row => (run row, column row)).Nodup) (runId : Text) :
  ((rows.filter (run · = runId)).map column).Nodup
  := by
  have hkeys := (List.filter_sublist (p := (run · = runId)) (l := rows)).map
    (fun row => (run row, column row)) |>.nodup h
  apply List.Nodup.of_map (fun c => (runId, c))
  rw [List.map_map]
  convert hkeys using 1
  apply List.map_congr_left
  intro row hrow
  have hrun : run row = runId := by simpa using (List.mem_filter.mp hrow).2
  simp [hrun]

/-- An output of the tables has the transaction of its stage. -/
theorem txidOf_eq {output : OutputRow} (h : output ∈ t.outputs) :
  ∃ source ∈ t.stages, source.key = output.stage ∧ txidOf t output = some source.expectedTxid
  := by
  obtain ⟨other, hother, hkey⟩ := List.mem_map.mp (t.outputStages output h)
  obtain ⟨source, hsource⟩ := Option.isSome_iff_exists.mp
    (List.find?_isSome.mpr ⟨other, hother, by simpa using hkey⟩ :
      (t.stages.find? (·.key = output.stage)).isSome)
  refine ⟨source, List.mem_of_find?_eq_some hsource, ?_, ?_⟩
  · simpa using List.find?_some hsource
  · rw [txidOf, hsource]
    rfl

/-- Outputs of a run that are the same outpoint are the same output. -/
theorem output_eq_of_outpoint {output other : OutputRow} (h : output ∈ t.outputs)
    (hother : other ∈ t.outputs) (hrun : output.runId = other.runId)
    (htxid : txidOf t output = txidOf t other) (hindex : output.outputIndex = other.outputIndex) :
  output = other
  := by
  obtain ⟨source, hsource, hkey, hof⟩ := txidOf_eq h
  obtain ⟨source', hsource', hkey', hof'⟩ := txidOf_eq hother
  rw [hof, hof', Option.some.injEq] at htxid
  have hsourceRun : source.runId = output.runId := congrArg Prod.fst hkey
  have hsourceRun' : source'.runId = other.runId := congrArg Prod.fst hkey'
  have hsame : source = source' := by
    apply List.inj_on_of_nodup_map t.stageTxids hsource hsource'
    rw [StageRow.txidKey, StageRow.txidKey, hsourceRun, hsourceRun', hrun, htxid]
  apply List.inj_on_of_nodup_map t.outputIndices h hother
  have hstage : output.stage = other.stage := by
    rw [← hkey, ← hkey', hsame]
  rw [OutputRow.indexKey, OutputRow.indexKey, hrun, hindex, (Prod.mk.inj hstage).2]

/-- The constraints of the tables make the graph of every run unique. -/
theorem uniqueGraph (t : StageTables) (runId : Text) :
  UniqueGraph t runId
  where
  stageIndices := @nodup_of_run _ _ _ StageRow.runId StageRow.stageIndex t.stageKeys runId
  spentOutpoints := @nodup_of_run _ _ _ StageInput.runId
    (fun input => (input.txid, input.outputIndex)) t.inputOutpoints runId
  createdOutpoints := by
    apply List.Nodup.map_on _ ((List.Nodup.of_map _ t.outputKeys).filter _)
    intro output houtput other hother heq
    obtain ⟨houtput, hrun⟩ := List.mem_filter.mp houtput
    obtain ⟨hother, hrun'⟩ := List.mem_filter.mp hother
    obtain ⟨htxid, hindex⟩ := Prod.mk.inj heq
    have hruns : output.runId = other.runId := by simp_all
    apply output_eq_of_outpoint houtput hother hruns htxid hindex

/-- What an insertion promises: every row of a batch in tables of which `Graph` holds, or an error
and the session as it was. -/
def InsertsAll (Graph : StageTables → Text → Prop) (env : Environment) (runId : Text)
    (stages : List DenominationStageInsert) (saltBase64 : Text) (session : Session StageTables) :
    Prop :=
  match (insertDenominationStagesWithTx env runId stages saltBase64).run session with
  | (.ok (), after) => Inserted env runId stages session.state after.state
    ∧ Graph after.state runId ∧ after.savepoints = session.savepoints
  | (.error _, after) => after = session

/-- A batch is inserted as a whole into tables in which stages have their own indexes and
outpoints are spent and created once, or nothing changes. -/
theorem insertDenominationStagesWithTx_atomic (env : Environment) (runId : Text)
    (stages : List DenominationStageInsert) (saltBase64 : Text) (session : Session StageTables) :
  InsertsAll UniqueGraph env runId stages saltBase64 session
  := by
  unfold InsertsAll
  obtain ⟨salt, tables, -, hends, hrun⟩ | ⟨error, hrun⟩ :=
    insertDenominationStagesWithTx_cases env runId stages saltBase64 session
  · rw [hrun]
    exact ⟨inserted_of_ends hends, uniqueGraph tables runId, rfl⟩
  · rw [hrun]

/-- Some input spends the transaction of a stage that does not come earlier. -/
def LaterSource (t : StageTables) (runId : Text) : Prop :=
  ∃ input ∈ t.inputs, ∃ source ∈ t.stages, input.runId = runId ∧ source.runId = runId
    ∧ source.expectedTxid = input.txid ∧ ¬ source.stageIndex < input.stageIndex

instance (t : StageTables) (runId : Text) : Decidable (LaterSource t runId) := by
  unfold LaterSource
  infer_instance

/-- A batch that is inserted with a later source does not have all its prior inputs. -/
theorem not_insertsAll_of_laterSource
    (hok : ((insertDenominationStagesWithTx env runId stages saltBase64).run session).1.isOk)
    (hlater : LaterSource
      ((insertDenominationStagesWithTx env runId stages saltBase64).run session).2.state runId) :
  ¬ InsertsAll (fun t runId => UniqueGraph t runId ∧ PriorInputsExist t runId) env runId stages
    saltBase64 session
  := by
  intro h
  unfold InsertsAll at h
  obtain ⟨salt, tables, -, -, hrun⟩ | ⟨error, hrun⟩ :=
    insertDenominationStagesWithTx_cases env runId stages saltBase64 session
  · rw [hrun] at h hlater
    obtain ⟨-, ⟨-, hprior⟩, -⟩ := h
    obtain ⟨input, hinput, source, hsource, hrun, hrun', htxid, hlater⟩ := hlater
    apply hlater (hprior input hinput hrun source hsource hrun' htxid).1
  · rw [hrun] at hok
    contradiction

/-- The tables without a row. -/
def StageTables.empty : StageTables where
  stages := []
  inputs := []
  outputs := []
  stageKeys := List.nodup_nil
  stageTxids := List.nodup_nil
  stageChecks := by simp
  inputKeys := List.nodup_nil
  inputOutpoints := List.nodup_nil
  inputStages := by simp
  outputKeys := List.nodup_nil
  outputIndices := List.nodup_nil
  outputStages := by simp

/-- An environment in which nothing fails. -/
def workingEnvironment : Environment where
  encryptPayload _ _ := .ok ""
  decodeBase64 _ := .ok []
  refuses _ := none

/-- A stage that awaits one input and creates one output. -/
def awaitingStage (stageIndex : Nat) (spends creates : Char) : DenominationStageInsert where
  stageIndex := stageIndex
  basePczt := [1]
  sigs := []
  rawTx := none
  expectedTxid := List.replicate 64 creates
  targetHeight := 100
  scheduledHeight := 100
  expiryHeight := 140
  feeZatoshi := 10000
  status := .awaitingInputs
  inputs := [⟨List.replicate 64 spends, 0, 50000, 2, none⟩]
  outputs := [⟨0, 40000, 2, .continuation, none⟩]

/-- The first stage spends the output of the second one, and is inserted with it. -/
theorem insertDenominationStagesWithTx_later_source :
  ¬ InsertsAll (fun t runId => UniqueGraph t runId ∧ PriorInputsExist t runId) workingEnvironment
    ['1'] [awaitingStage 0 'b' 'a', awaitingStage 1 'c' 'b'] [] ⟨StageTables.empty, []⟩
  := not_insertsAll_of_laterSource (by decide +kernel) (by decide +kernel)

end StageGraph

end Vizor
