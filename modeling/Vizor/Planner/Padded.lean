import Vizor.Planner.Meets
import Mathlib.Logic.Function.Basic

/-!
# Padded denomination plans

The padded planner chooses canonical denominations as long as the preparation planner can
prepare their funding notes, and translates the preparation plan into a list of stages in
which every funding note carries the index of the migration part that it funds.  The
replay rebuilds a plan for denominations that were approved before, without randomness.
-/

namespace Vizor.Planner

/-! ### Plans -/

/-- The most actions of a denomination stage. -/
def denominationSplitActions : Nat := prepTxActions

/-- A note that a stage spends. -/
inductive SplitStageInput where
  | original (inputIndex valueZatoshi : Nat)
  | prior (stageIndex outputIndex valueZatoshi : Nat)
  deriving DecidableEq

/-- The value of a note that a stage spends. -/
def SplitStageInput.valueZatoshi : SplitStageInput → Nat
  | .original _ value => value
  | .prior _ _ value => value

/-- What becomes of an output of a stage. -/
inductive SplitTerminalKind where
  | migration
  | orchardChange
  | continuation
  deriving DecidableEq

/-- A note that a stage produces. -/
structure SplitStageOutput where
  valueZatoshi : Nat
  kind : SplitTerminalKind
  partIndex : Option Nat
  deriving DecidableEq

/-- A denomination stage. -/
structure SplitStagePlan where
  layerIndex : Nat
  inputs : List SplitStageInput
  outputs : List SplitStageOutput
  feeZatoshi : Nat
  requestedActions : Nat
  deriving DecidableEq

/-- A wallet note that is used directly as the funding note of a part. -/
structure DirectMigrationInput where
  inputIndex : Nat
  partIndex : Nat
  valueZatoshi : Nat
  deriving DecidableEq

/-- The denominations of a migration run. -/
structure DenominationPlan where
  migrationOutputs : List Nat
  orchardChange : Option Nat
  splitFeeZatoshi : Nat
  migrationFeeZatoshi : Nat
  totalInputZatoshi : Nat
  totalMigratableZatoshi : Nat
  deriving DecidableEq

/-- The denominations of a migration run with the stages that prepare them. -/
structure PaddedDenominationPlan where
  denominations : DenominationPlan
  stages : List SplitStagePlan
  layerCount : Nat
  directMigrationInputs : List DirectMigrationInput
  deriving DecidableEq

/-- The number of transactions of a plan. -/
def PreparationPlan.transactionCount (plan : PreparationPlan) : Nat :=
  (plan.layers.map List.length).sum

/-- What the planner knows of the selected notes: the positions of the positive ones,
their total, and their amounts. -/
structure PlanningContext where
  positiveInputIndices : List Nat
  totalInputZatoshi : Nat
  available : List Zatoshis
  prepFee : Zatoshis

/-! ### Checked arithmetic -/

/-- An addition that is checked not to overflow a 64-bit word. -/
def checkedAdd (m n : Nat) (context : String) : Outcome String Nat :=
  if m + n < u64Size then .ok (m + n) else .error (.error context)

/-- A multiplication that is checked not to overflow a 64-bit word. -/
def checkedMul (m n : Nat) (context : String) : Outcome String Nat :=
  if m * n < u64Size then .ok (m * n) else .error (.error context)

/-- A conversion to an amount, with the given error above the money supply. -/
def toZatoshis (value : Nat) (context : String) : Outcome String Zatoshis :=
  match Zatoshis.fromU64 value with
  | some v => .ok v
  | none => .error (.error context)

theorem checkedAdd_eq_ok {m n r : Nat} {context : String} :
  checkedAdd m n context = .ok r ↔ m + n < u64Size ∧ m + n = r
  := by
  unfold checkedAdd
  split <;> simp_all

theorem checkedMul_eq_ok {m n r : Nat} {context : String} :
  checkedMul m n context = .ok r ↔ m * n < u64Size ∧ m * n = r
  := by
  unfold checkedMul
  split <;> simp_all

theorem checkedSum_eq_ok {values : List Nat} {r : Nat} {context : String} :
  checkedSum values context = .ok r ↔ values.sum < u64Size ∧ values.sum = r
  := by
  unfold checkedSum
  split <;> simp_all

theorem toZatoshis_eq_ok {value : Nat} {context : String} {v : Zatoshis} :
  toZatoshis value context = .ok v ↔ v.value = value
  := by
  rw [toZatoshis, ← Zatoshis.fromU64_eq_some]
  cases Zatoshis.fromU64 value <;> simp

theorem checkedAdd_ne_outOfFuel (m n : Nat) (context : String) :
  checkedAdd m n context ≠ .error .outOfFuel
  := by
  unfold checkedAdd
  split <;> simp

theorem checkedMul_ne_outOfFuel (m n : Nat) (context : String) :
  checkedMul m n context ≠ .error .outOfFuel
  := by
  unfold checkedMul
  split <;> simp

theorem checkedSum_ne_outOfFuel (values : List Nat) (context : String) :
  checkedSum values context ≠ .error .outOfFuel
  := by
  unfold checkedSum
  split <;> simp

theorem toZatoshis_ne_outOfFuel (value : Nat) (context : String) :
  toZatoshis value context ≠ .error .outOfFuel
  := by
  unfold toZatoshis
  split <;> simp

/-! ### The planning context -/

/-- The positions of the positive values. -/
def positiveIndices (inputValues : List Nat) : List Nat :=
  inputValues.zipIdx.filterMap fun (value, index) => if 0 < value then some index else none

/-- The planning context of a list of note values, if any is positive. -/
def planningContext (inputValues : List Nat) (feePerStage minimumOutput : Nat) :
    Outcome String (Option PlanningContext) :=
  if (positiveIndices inputValues).isEmpty then .ok none
  else if feePerStage = 0 then
    .error (.error "Padded denomination stage fee must be positive")
  else if minimumOutput ≠ 1 then
    .error (.error
      "Padded denomination stages require a 1-zatoshi minimum output to preserve the exact ZIP 317 fee")
  else do
    let positiveInputValues := (positiveIndices inputValues).map fun index =>
      inputValues.getD index 0
    let totalInputZatoshi ← checkedSum positiveInputValues "Selected Orchard value overflow"
    let available ← positiveInputValues.mapM fun value =>
      toZatoshis value "Selected Orchard note exceeds the maximum money supply"
    let prepFee ← toZatoshis feePerStage "Padded denomination fee is invalid"
    pure (some {
      positiveInputIndices := positiveIndices inputValues
      totalInputZatoshi
      available
      prepFee })

/-! ### Preparation for a list of crossings -/

/-- The value committed to funding notes and preparation fees. -/
def committedValue (fundingValues : List Nat) (preparation : PreparationPlan)
    (feePerStage : Nat) : Outcome String Nat := do
  let fundingTotal ← checkedSum fundingValues "Migration funding total overflow"
  let prepFees ← checkedMul feePerStage preparation.transactionCount
    "Preparation fee total overflow"
  checkedAdd fundingTotal prepFees "Migration committed value overflow"

/-- The preparation plan as the padded planner sees it: none when funds are insufficient. -/
def preparationOutcome :
    Outcome PrepError PreparationPlan → Outcome String (Option PreparationPlan)
  | .ok candidate => .ok (some candidate)
  | .error (.error .insufficientFunds) => .ok none
  | .error (.error .balanceInvalid) => .error (.error "Migration preparation balance is invalid")
  | .error .panic => .error .panic
  | .error .outOfFuel => .error .outOfFuel

/-- The funding values of a list of crossings and their preparation, if the selected notes
can pay for them. -/
def preparationForCrossings (S : NoteSort) (context : PlanningContext)
    (crossingValues : List Nat) (feePerStage migrationFee : Nat) :
    Outcome String (Option (List Nat × PreparationPlan)) := do
  let fundingValues ← crossingValues.mapM fun crossing =>
    checkedAdd crossing migrationFee "Prepared migration note value overflow"
  let typedFunding ← fundingValues.mapM fun value =>
    toZatoshis value "Prepared migration note value is invalid"
  let preparation ←
    preparationOutcome (planPreparation S context.available typedFunding context.prepFee)
  match preparation with
  | none => pure none
  | some preparation => do
    let committed ← committedValue fundingValues preparation feePerStage
    if committed ≤ context.totalInputZatoshi then pure (some (fundingValues, preparation))
    else pure none

/-! ### Part assignment -/

/-- For each funding value the stack of the parts that it can be assigned to, the smallest
part on top. -/
abbrev AvailableParts : Type := Nat → List Nat

/-- All parts, pushed from the last to the first. -/
def availableParts (fundingValues : List Nat) : AvailableParts :=
  fundingValues.zipIdx.foldr
    (fun (value, part) parts => Function.update parts value (part :: parts value)) fun _ => []

/-- Taking the part on top of the stack of a value. -/
def takePartIndex (parts : AvailableParts) (value : Nat) :
    Outcome String (Nat × AvailableParts) :=
  match parts value with
  | [] => .error (.error s!"Preparation plan produced unexpected funding value {value}")
  | part :: rest => .ok (part, Function.update parts value rest)

/-- Assigning parts to the direct funding notes. -/
def assignDirect (positiveInputIndices : List Nat) :
    List (Nat × Zatoshis) → AvailableParts →
      Outcome String (List DirectMigrationInput × AvailableParts)
  | [], parts => .ok ([], parts)
  | (index, value) :: notes, parts =>
    match positiveInputIndices[index]? with
    | none => .error (.error "Direct funding input index is out of range")
    | some inputIndex => do
      let (partIndex, parts) ← takePartIndex parts value.value
      let (inputs, parts) ← assignDirect positiveInputIndices notes parts
      pure (⟨inputIndex, partIndex, value.value⟩ :: inputs, parts)

/-- The stage of each transaction translated so far, by its layer and its position. -/
abbrev Coordinates : Type := List ((Nat × Nat) × Nat)

/-- The stage of a transaction. -/
def stageAt (coordinates : Coordinates) (layer transaction : Nat) : Option Nat :=
  (coordinates.find? fun entry => entry.1 == (layer, transaction)).map Prod.snd

/-- An input as an input of a stage. -/
def translateInput (positiveInputIndices : List Nat) (coordinates : Coordinates) :
    PrepInput → Outcome String SplitStageInput
  | .wallet index value =>
    match positiveInputIndices[index]? with
    | none => .error (.error "Preparation wallet input index is out of range")
    | some inputIndex => .ok (.original inputIndex value.value)
  | .prior layer transaction output value =>
    match stageAt coordinates layer transaction with
    | none => .error (.error "Preparation input references an unknown prior transaction")
    | some stageIndex => .ok (.prior stageIndex output value.value)

/-- The outputs of a transaction as outputs of a stage, with parts for the funding notes. -/
def translateOutputs :
    List PrepOutput → AvailableParts → Outcome String (List SplitStageOutput × AvailableParts)
  | [], parts => .ok ([], parts)
  | .funding value :: outputs, parts => do
    let (part, parts) ← takePartIndex parts value.value
    let (rest, parts) ← translateOutputs outputs parts
    pure (⟨value.value, .migration, some part⟩ :: rest, parts)
  | .intermediate value :: outputs, parts => do
    let (rest, parts) ← translateOutputs outputs parts
    pure (⟨value.value, .continuation, none⟩ :: rest, parts)
  | .change value :: outputs, parts => do
    let (rest, parts) ← translateOutputs outputs parts
    pure (⟨value.value, .orchardChange, none⟩ :: rest, parts)

/-- The checks that a stage is within the action limit and conserves value. -/
def checkStage (inputs : List SplitStageInput) (outputs : List SplitStageOutput)
    (feePerStage : Nat) : Outcome String Unit := do
  let requestedActions := inputs.length + outputs.length
  if denominationSplitActions < requestedActions then
    .error (.error
      s!"Preparation transaction requests {requestedActions} actions instead of at most {denominationSplitActions}")
  else
    let inputTotal ← checkedSum (inputs.map SplitStageInput.valueZatoshi)
      "Preparation input total overflow"
    let outputTotal ← checkedSum (outputs.map SplitStageOutput.valueZatoshi)
      "Preparation output total overflow"
    let spent ← checkedAdd outputTotal feePerStage "Preparation transaction value overflow"
    if inputTotal ≠ spent then .error (.error "Preparation transaction does not conserve value")
    else pure ()

/-- The transactions of a plan with their layers and positions, in plan order. -/
def addressed (layers : List (List PrepTransaction)) : List ((Nat × Nat) × PrepTransaction) :=
  layers.zipIdx.flatMap fun (txs, layer) =>
    txs.zipIdx.map fun (tx, transaction) => ((layer, transaction), tx)

/-- Translating transactions into stages, one after the other. -/
def translateStages (positiveInputIndices : List Nat) (feePerStage : Nat) :
    List ((Nat × Nat) × PrepTransaction) → Coordinates → List SplitStagePlan → AvailableParts →
      Outcome String (List SplitStagePlan × AvailableParts)
  | [], _, stages, parts => .ok (stages, parts)
  | (address, tx) :: rest, coordinates, stages, parts => do
    let inputs ← tx.inputs.mapM (translateInput positiveInputIndices coordinates)
    let (outputs, parts) ← translateOutputs tx.outputs parts
    checkStage inputs outputs feePerStage
    let stage := {
      layerIndex := address.1
      inputs
      outputs
      feeZatoshi := feePerStage
      requestedActions := inputs.length + outputs.length : SplitStagePlan }
    translateStages positiveInputIndices feePerStage rest
      (coordinates ++ [(address, stages.length)]) (stages ++ [stage]) parts

/-- Translating a preparation plan into stages whose funding notes carry part indices. -/
def translatePreparationPlan (preparation : PreparationPlan) (denominations : DenominationPlan)
    (positiveInputIndices fundingValues : List Nat) (feePerStage : Nat) :
    Outcome String PaddedDenominationPlan := do
  let (direct, parts) ←
    assignDirect positiveInputIndices preparation.directFunding (availableParts fundingValues)
  let (stages, parts) ←
    translateStages positiveInputIndices feePerStage (addressed preparation.layers) [] [] parts
  if fundingValues.any fun value => !(parts value).isEmpty then
    .error (.error "Preparation plan did not assign every migration part")
  else
    pure {
      denominations
      stages
      layerCount := preparation.layers.length
      directMigrationInputs := direct.insertionSort fun a b => a.partIndex ≤ b.partIndex }

/-- Finishing a plan: ordering the crossings, accounting for fees and change, and
translating the preparation plan. -/
def finishPlan (context : PlanningContext) (crossingValues fundingValues : List Nat)
    (preparation : PreparationPlan) (feePerStage migrationFee minimumOutput : Nat) :
    Outcome String (Option PaddedDenominationPlan) :=
  if crossingValues.isEmpty then .ok none
  else if crossingValues.length ≠ fundingValues.length then
    .error (.error "Migration denomination and funding note counts differ")
  else do
    let denominationFunding :=
      (crossingValues.zip fundingValues).insertionSort fun a b => a.1 ≥ b.1
    let crossingValues := denominationFunding.map Prod.fst
    let fundingValues := denominationFunding.map Prod.snd
    let splitFeeZatoshi ← checkedMul feePerStage preparation.transactionCount
      "Preparation fee total overflow"
    let fundingTotal ← checkedSum fundingValues "Migration funding total overflow"
    if context.totalInputZatoshi < fundingTotal + splitFeeZatoshi then
      .error (.error "Migration preparation plan exceeds selected Orchard value")
    else
      let remaining := context.totalInputZatoshi - fundingTotal - splitFeeZatoshi
      let totalMigratableZatoshi ← checkedSum crossingValues
        "Migratable denomination total overflow"
      let plan ← translatePreparationPlan preparation {
          migrationOutputs := crossingValues
          orchardChange := if minimumOutput ≤ remaining then some remaining else none
          splitFeeZatoshi
          migrationFeeZatoshi := migrationFee
          totalInputZatoshi := context.totalInputZatoshi
          totalMigratableZatoshi }
        context.positiveInputIndices fundingValues feePerStage
      pure (some plan)

/-! ### The forward planner -/

/-- The first candidate that can be prepared after the crossings so far. -/
def firstAffordable (S : NoteSort) (context : PlanningContext) (crossingValues : List Nat)
    (feePerStage migrationFee : Nat) :
    List (List Nat) → Outcome String (Option (List Nat × List Nat × PreparationPlan))
  | [] => .ok none
  | candidate :: candidates => do
    let prepared ← preparationForCrossings S context (crossingValues ++ candidate) feePerStage
      migrationFee
    match prepared with
    | some (fundingValues, preparation) =>
      pure (some (crossingValues ++ candidate, fundingValues, preparation))
    | none => firstAffordable S context crossingValues feePerStage migrationFee candidates

section Forward

variable {σ : Type}

/-- Extending the crossings by the largest refined denomination that can be prepared, in
at most `fuel` trials. -/
def extendCrossings (S : NoteSort) (refine : Nat → StateM σ DenominationRefinement)
    (context : PlanningContext) (crossingValues : List Nat) (feePerStage migrationFee : Nat) :
    (fuel affordable : Nat) → σ →
      Outcome String (Option (List Nat × List Nat × PreparationPlan) × σ)
  | 0, _, _ => .error .outOfFuel
  | fuel + 1, affordable, state =>
    if affordable < zip318MaxResidualValueZatoshi then .ok (none, state)
    else
      match largestZip318DenominationAtOrBelow affordable with
      | none => .ok (none, state)
      | some greedy =>
        let (refinement, state) := refine greedy state
        if refinement.valueZatoshi ≠ greedy then
          .error (.error "Denomination refinement must preserve the selected value")
        else do
          let candidates ← refinementCandidates refinement
          let accepted ← firstAffordable S context crossingValues feePerStage migrationFee
            candidates
          match accepted with
          | some extended => pure (some extended, state)
          | none =>
            if greedy = zip318MaxResidualValueZatoshi then pure (none, state)
            else
              extendCrossings S refine context crossingValues feePerStage migrationFee fuel
                (greedy - 1) state

/-- What is affordable with a budget. -/
def affordableWithin (budget migrationFee : Nat) : Nat :=
  min (budget - migrationFee) zip318MaxMigrationDenominationZatoshi

/-- Extending the crossings as long as possible, in at most `fuel` extensions. -/
def growCrossings (S : NoteSort) (refine : Nat → StateM σ DenominationRefinement)
    (context : PlanningContext) (feePerStage migrationFee : Nat) :
    (fuel : Nat) → List Nat × List Nat × PreparationPlan → σ →
      Outcome String (List Nat × List Nat × PreparationPlan)
  | 0, _, _ => .error .outOfFuel
  | fuel + 1, (crossingValues, fundingValues, preparation), state => do
    let committed ← committedValue fundingValues preparation feePerStage
    let budget := context.totalInputZatoshi - committed
    if budget < zip318MaxResidualValueZatoshi + migrationFee then
      pure (crossingValues, fundingValues, preparation)
    else
      let affordable := affordableWithin budget migrationFee
      let (accepted, state) ← extendCrossings S refine context crossingValues feePerStage
        migrationFee (affordable + 1) affordable state
      match accepted with
      | none => pure (crossingValues, fundingValues, preparation)
      | some extended =>
        growCrossings S refine context feePerStage migrationFee fuel extended state

/-- The padded planner with a stateful refiner. -/
def planPaddedDenominationsWithRefiner (S : NoteSort) (inputValues : List Nat)
    (feePerStage migrationFee minimumOutput : Nat)
    (refine : Nat → StateM σ DenominationRefinement) (state : σ) :
    Outcome String (Option PaddedDenominationPlan) := do
  let context ← planningContext inputValues feePerStage minimumOutput
  match context with
  | none => pure none
  | some context => do
    let _ ← checkedAdd zip318MaxResidualValueZatoshi migrationFee
      "Minimum migration funding note overflow"
    let (crossingValues, fundingValues, preparation) ←
      growCrossings S refine context feePerStage migrationFee (context.totalInputZatoshi + 1)
        ([], [], ⟨[], []⟩) state
    finishPlan context crossingValues fundingValues preparation feePerStage migrationFee
      minimumOutput

/-- The padded planner with a refinement policy and a source of random words. -/
def planPaddedDenominationsWithPolicyAndRng (S : NoteSort) (inputValues : List Nat)
    (feePerStage migrationFee minimumOutput : Nat) (policy : DenominationRefinementPolicy)
    (nextU32 : StateM σ Nat) (rng : σ) : Outcome String (Option PaddedDenominationPlan) :=
  planPaddedDenominationsWithRefiner S inputValues feePerStage migrationFee minimumOutput
    (refineDenomination policy nextU32) rng

end Forward

/-! ### The replay -/

/-- Whether a further denomination can be appended, in at most `fuel` trials. -/
def canAppendFrom (S : NoteSort) (context : PlanningContext) (crossingValues : List Nat)
    (feePerStage migrationFee : Nat) : (fuel affordable : Nat) → Outcome String Bool
  | 0, _ => .error .outOfFuel
  | fuel + 1, affordable =>
    if affordable < zip318MaxResidualValueZatoshi then .ok false
    else
      match largestZip318DenominationAtOrBelow affordable with
      | none => .ok false
      | some crossing => do
        let prepared ← preparationForCrossings S context (crossingValues ++ [crossing]) feePerStage
          migrationFee
        if prepared.isSome then pure true
        else if crossing = zip318MaxResidualValueZatoshi then pure false
        else canAppendFrom S context crossingValues feePerStage migrationFee fuel (crossing - 1)

/-- Whether the selected notes can pay for a further denomination. -/
def canAppendCanonicalDenomination (S : NoteSort) (context : PlanningContext)
    (crossingValues fundingValues : List Nat) (preparation : PreparationPlan)
    (feePerStage migrationFee : Nat) : Outcome String Bool := do
  let committed ← committedValue fundingValues preparation feePerStage
  let budget := context.totalInputZatoshi - committed
  let minimumFundingNote ← checkedAdd zip318MaxResidualValueZatoshi migrationFee
    "Minimum migration funding note overflow"
  if budget < minimumFundingNote then pure false
  else
    let affordable := affordableWithin budget migrationFee
    canAppendFrom S context crossingValues feePerStage migrationFee (affordable + 1) affordable

/-- The error for an approved plan that no longer fits the notes. -/
def approvedPlanStaleError : String :=
  "Approved migration plan no longer matches the spendable Orchard balance. Review the migration plan again."

/-- The error for approved denominations out of order. -/
def approvedPlanOrderError : String :=
  "Approved migration denominations are not in canonical part order. Review the migration plan again."

/-- The replay of a plan for approved denominations. -/
def planPaddedDenominationsForTargets (S : NoteSort) (inputValues targetValues : List Nat)
    (feePerStage migrationFee minimumOutput : Nat) :
    Outcome String (Option PaddedDenominationPlan) :=
  if targetValues.isEmpty then .ok none
  else
    match targetValues.find? fun value => !isZip318CanonicalDenomination value with
    | some value =>
      .error (.error s!"Approved migration denomination {value} is not canonical")
    | none =>
      if ¬ targetValues.IsChain (· ≥ ·) then .error (.error approvedPlanOrderError)
      else do
        let context ← planningContext inputValues feePerStage minimumOutput
        match context with
        | none => .error (.error approvedPlanStaleError)
        | some context => do
          let prepared ← preparationForCrossings S context targetValues feePerStage migrationFee
          match prepared with
          | none => .error (.error approvedPlanStaleError)
          | some (fundingValues, preparation) => do
            let append ← canAppendCanonicalDenomination S context targetValues fundingValues
              preparation feePerStage migrationFee
            if append then .error (.error approvedPlanStaleError)
            else
              finishPlan context targetValues fundingValues preparation feePerStage migrationFee
                minimumOutput

end Vizor.Planner
