import Mathlib.Data.List.Sort
import Vizor.Lib.Placement
import Vizor.Store.Completion
import Vizor.Store.Dated
import Vizor.Store.Stages

/-!
# The parts of a run as they are shown

The status of a run shows one entry for each part of its plan.  A pending transaction is shown
at the part that its row stores; if there is none, at the first part with its value that is not
taken, then at the first part that is not taken, and only then after all the parts.  While the
denominations of a run are not confirmed, the outputs of its stages are shown in this way
instead of its transactions.
-/

namespace Vizor

open Run Table Placement

/-! ### Entries -/

/-- The states of a part. -/
inductive MigrationPartState where
  | preparing
  | scheduled
  | migrating
  | confirming
  | completed
  | needsInput
  deriving DecidableEq, Repr

/-- What is shown of a part. -/
structure MigrationPartStatus where
  partIndex : Nat
  scheduleOrder : Option Nat
  valueZatoshi : Nat
  state : MigrationPartState
  txid : Option Txid
  scheduleStartHeight : Option Nat
  scheduledHeight : Option Nat
  originalScheduledHeight : Option Nat
  effectiveScheduledHeight : Option Nat
  minedHeight : Option Nat
  confirmationCount : Nat
  confirmationTarget : Nat
  deriving DecidableEq, Repr

/-- A part of the plan without a transaction. -/
def plannedPart (initialState : MigrationPartState) (confirmationTarget : Nat)
    (part : Nat × Nat) : MigrationPartStatus where
  partIndex := part.2
  scheduleOrder := none
  valueZatoshi := part.1
  state := initialState
  txid := none
  scheduleStartHeight := none
  scheduledHeight := none
  originalScheduledHeight := none
  effectiveScheduledHeight := none
  minedHeight := none
  confirmationCount := 0
  confirmationTarget := confirmationTarget

/-- The parts of the plan. -/
def plannedParts (targetValues : List Nat) (initialState : MigrationPartState)
    (confirmationTarget : Nat) : List MigrationPartStatus :=
  targetValues.zipIdx.map (plannedPart initialState confirmationTarget)

/-- The parts, and the indexes of those that were assigned. -/
structure PartTable where
  parts : List MigrationPartStatus
  assigned : Finset Nat

namespace PartTable

/-- The first part that has a property and is not assigned. -/
def firstPart (t : PartTable) (p : MigrationPartStatus → Bool) : Option Nat :=
  (t.parts.find? fun part => p part && part.partIndex ∉ t.assigned).map (·.partIndex)

/-- The part at which an entry is shown. -/
def partFor (t : PartTable) (storedIndex : Option Nat) (isValue : Nat → Bool) : Nat :=
  (((storedIndex.filter fun index => index < t.parts.length && index ∉ t.assigned).orElse fun _ =>
    t.firstPart fun part => isValue part.valueZatoshi).orElse fun _ =>
    t.firstPart fun _ => true).getD t.parts.length

/-- The value of a part, or of an entry that is shown after the parts. -/
def valueOf (t : PartTable) (partIndex valueZatoshi : Nat) : Nat :=
  ((t.parts[partIndex]?).map (·.valueZatoshi)).getD valueZatoshi

/-- Show an entry at its part. -/
def put (t : PartTable) (part : MigrationPartStatus) : PartTable where
  parts := place t.parts part.partIndex part
  assigned := insert part.partIndex t.assigned

/-- The parts in the order of their indexes. -/
def sorted (t : PartTable) : List MigrationPartStatus :=
  t.parts.insertionSort fun a b => a.partIndex ≤ b.partIndex

end PartTable

/-! ### Pending transactions -/

/-- A row of the query for the transactions of a run. -/
structure PartRow where
  partIndex : Option Nat
  txid : Txid
  valueZatoshi : Nat
  feeZatoshi : Nat
  scheduleStartHeight : Nat
  scheduledHeight : Nat
  originalScheduledHeight : Option Nat
  status : PendingStatus
  deriving DecidableEq, Repr

/-- Read a row; the heights must be there. -/
def PendingTx.partRow (row : PendingTx) : Except String PartRow := do
  let scheduleStartHeight ← okOr
    (row.scheduleStartHeight.orElse fun _ => checkedSub32 row.targetHeight 1)
    "Read migration part statuses: Integer -1 out of range at index 4"
  let scheduledHeight ← okOr row.scheduledHeight
    "Read migration part statuses: Invalid column type Null at index: 5, name: scheduled_height"
  return {
    partIndex := row.partIndex
    txid := row.txid
    valueZatoshi := row.valueZatoshi
    feeZatoshi := row.feeZatoshi
    scheduleStartHeight := scheduleStartHeight
    scheduledHeight := scheduledHeight
    originalScheduledHeight := row.originalScheduledHeight
    status := row.status }

/-- The state of a part and the number of its confirmations. -/
def pendingPartState (view : ChainView) (phase : Phase) (confirmationTarget : Nat)
    (minedHeight : Option Nat) : PendingStatus → MigrationPartState × Nat
  | .scheduled => (.scheduled, 0)
  | .broadcasted => (.migrating, 0)
  | .confirmed =>
    let confirmationCount := (minedHeight.map view.syncedOrchardConfirmationCount).getD 0
    (if phase = .complete || confirmationCount ≥ confirmationTarget then .completed
      else .confirming, confirmationCount)
  | .needsResign => (.needsInput, 0)

/-- The value of the part that a transaction is for, which pays its fee. -/
def PartRow.denominationValue (row : PartRow) : Nat :=
  Store.saturatingAdd64 row.valueZatoshi row.feeZatoshi

/-- Whether a part has the value of a transaction. -/
def PartRow.isValue (row : PartRow) (value : Nat) : Bool :=
  value = row.denominationValue || value = row.valueZatoshi

/-- What is shown of a pending transaction. -/
def PartTable.pendingPart (view : ChainView) (phase : Phase) (confirmationTarget : Nat)
    (t : PartTable) (row : PartRow) : MigrationPartStatus :=
  let partIndex := t.partFor row.partIndex row.isValue
  let minedHeight := (view.localDenominationChainIdentity row.txid).map (·.minedHeight)
  let state := pendingPartState view phase confirmationTarget minedHeight row.status
  { partIndex := partIndex
    scheduleOrder := none
    valueZatoshi := t.valueOf partIndex row.denominationValue
    state := state.1
    txid := some row.txid
    scheduleStartHeight := some row.scheduleStartHeight
    scheduledHeight := some row.scheduledHeight
    originalScheduledHeight := row.originalScheduledHeight
    effectiveScheduledHeight := some row.scheduledHeight
    minedHeight := minedHeight
    confirmationCount := state.2
    confirmationTarget := confirmationTarget }

/-- Show a pending transaction. -/
def PartTable.putPending (view : ChainView) (phase : Phase) (confirmationTarget : Nat)
    (t : PartTable) (row : PartRow) : PartTable :=
  t.put (t.pendingPart view phase confirmationTarget row)

/-! ### Outputs of the stages -/

/-- The number of confirmations of the transaction of a stage. -/
def denominationStageConfirmationCount (view : ChainView) (txid : Txid) : Nat :=
  ((view.localDenominationChainIdentity txid).map fun identity =>
    view.syncedOrchardConfirmationCount identity.minedHeight).getD 0

/-- The state of the parts that a stage funds, and the number of its confirmations. -/
def denominationStagePartState (view : ChainView) (stage : Store.DenominationStageChainRecord)
    (confirmationTarget : Nat) : MigrationPartState × Nat :=
  match stage.status with
  | .awaitingInputs | .pending => (.preparing, 0)
  | .broadcasted =>
    let confirmationCount := denominationStageConfirmationCount view stage.expectedTxid
    (if confirmationCount = 0 then .migrating
      else if confirmationCount ≥ confirmationTarget then .completed
      else .confirming, confirmationCount)
  | .confirmed =>
    let confirmationCount := match stage.confirmed with
      | some identity => view.syncedOrchardConfirmationCount identity.minedHeight
      | none => denominationStageConfirmationCount view stage.expectedTxid
    (if confirmationCount ≥ confirmationTarget then .completed else .confirming,
      confirmationCount)

/-- What is shown of an output of a stage. -/
def PartTable.outputPart (view : ChainView) (confirmationTarget : Nat)
    (stage : Store.DenominationStageChainRecord) (t : PartTable) (output : StageOutput) :
    MigrationPartStatus :=
  let state := denominationStagePartState view stage confirmationTarget
  let partIndex := t.partFor output.partIndex fun value => value = output.valueZatoshi
  { partIndex := partIndex
    scheduleOrder := none
    valueZatoshi := t.valueOf partIndex output.valueZatoshi
    state := state.1
    txid := some stage.expectedTxid
    scheduleStartHeight := none
    scheduledHeight := none
    originalScheduledHeight := none
    effectiveScheduledHeight := none
    minedHeight := (stage.confirmed.orElse fun _ =>
      view.localDenominationChainIdentity stage.expectedTxid).map (·.minedHeight)
    confirmationCount := state.2
    confirmationTarget := confirmationTarget }

/-- Show an output of a stage. -/
def PartTable.putOutput (view : ChainView) (confirmationTarget : Nat)
    (stage : Store.DenominationStageChainRecord) (t : PartTable) (output : StageOutput) :
    PartTable :=
  t.put (t.outputPart view confirmationTarget stage output)

namespace Store

/-- The outputs of a stage that fund transactions, in their order. -/
def migrationOutputs (s : Store) (r : RunId) (stage : DenominationStageChainRecord) :
    List StageOutput :=
  ((s.outputsOfStage r stage.stageIndex).insertionSort fun a b =>
    a.outputOrder ≤ b.outputOrder).filter fun output => output.kind = .migration

/-- Show the outputs of a stage. -/
def putStage (view : ChainView) (s : Store) (r : RunId) (confirmationTarget : Nat)
    (t : PartTable) (stage : DenominationStageChainRecord) : PartTable :=
  (s.migrationOutputs r stage).foldl (PartTable.putOutput view confirmationTarget stage) t

/-- The parts of a run whose denominations are not confirmed, if it has stages. -/
def denominationMigrationPartsForRun (view : ChainView) (s : Store) (r : RunId)
    (targetValues : List Nat) (confirmationTarget : Nat) : List MigrationPartStatus :=
  let stages := s.denominationStageChainRecords r
  if stages = [] then []
  else (stages.foldl (putStage view s r confirmationTarget)
    ⟨plannedParts targetValues .preparing confirmationTarget, ∅⟩).sorted

/-- The transactions of a run in the order of their broadcast heights; an absent one is
first. -/
def partRows (s : Store) (r : RunId) : Except String (List PartRow) :=
  let height (row : PendingTx) : Nat := (row.scheduledHeight.map (· + 1)).getD 0
  ((s.pendingOf r).insertionSort fun a b =>
    height a < height b ∨ height a = height b ∧ a.txid ≤ b.txid).mapM PendingTx.partRow

/-- The parts of a run. -/
def migrationPartsForRun (view : ChainView) (s : Store) (r : RunId) (targetValues : List Nat)
    (phase : Phase) (confirmationTarget : Nat) : Except String (List MigrationPartStatus) :=
  let denominationParts :=
    s.denominationMigrationPartsForRun view r targetValues confirmationTarget
  if phase = .waitingDenomConfirmations ∧ denominationParts ≠ [] then .ok denominationParts
  else do
    let initialState := if phase = .complete then .completed else .preparing
    let rows ← s.partRows r
    return (rows.foldl (PartTable.putPending view phase confirmationTarget)
      ⟨plannedParts targetValues initialState confirmationTarget, ∅⟩).sorted

end Store

/-! ### What the parts show -/

/-- What is shown of a transaction. -/
structure ShownTransaction where
  txid : Txid
  scheduledHeight : Option Nat
  originalScheduledHeight : Option Nat
  deriving DecidableEq, Repr

/-- The transaction that an entry shows, with the part at which it does. -/
def MigrationPartStatus.shown (part : MigrationPartStatus) :
    Option (Option Nat × ShownTransaction) :=
  part.txid.map fun txid =>
    (some part.partIndex, ⟨txid, part.scheduledHeight, part.originalScheduledHeight⟩)

/-- What a row says of its transaction and its part. -/
def PartRow.shown (row : PartRow) : Option Nat × ShownTransaction :=
  (row.partIndex, ⟨row.txid, some row.scheduledHeight, row.originalScheduledHeight⟩)

/-- What a pending transaction says of itself and its part. -/
def PendingTx.shown (row : PendingTx) : Option Nat × ShownTransaction :=
  (row.partIndex, ⟨row.txid, row.scheduledHeight, row.originalScheduledHeight⟩)

/-- What is shown of the transaction of a stage. -/
def shownStage (stage : Store.DenominationStageChainRecord) : ShownTransaction :=
  ⟨stage.expectedTxid, none, none⟩

variable {targetValues : List Nat} {initialState : MigrationPartState} {confirmationTarget : Nat}

@[simp]
theorem length_plannedParts :
  (plannedParts targetValues initialState confirmationTarget).length = targetValues.length
  := by
  rw [plannedParts, List.length_map, List.length_zipIdx]

theorem plannedParts_indices :
  (plannedParts targetValues initialState confirmationTarget).map (·.partIndex)
    = List.range targetValues.length
  := by
  rw [plannedParts, List.map_map, List.range_eq_range', ← List.zipIdx_map_snd 0 targetValues]
  rfl

theorem plannedParts_values :
  (plannedParts targetValues initialState confirmationTarget).map (·.valueZatoshi) = targetValues
  := by
  rw [plannedParts, List.map_map]
  apply List.zipIdx_map_fst

namespace PartTable

/-- The entries are numbered in their order, the first ones have the planned values, and the
transactions `shown` are shown by one entry each. -/
structure Shows (targetValues : List Nat) (t : PartTable)
    (shown : List (Option Nat × ShownTransaction)) : Prop where
  indices : t.parts.map (·.partIndex) = List.range t.parts.length
  values : targetValues <+: t.parts.map (·.valueZatoshi)
  placed : Placed MigrationPartStatus.shown targetValues.length t.parts t.assigned shown

variable {t : PartTable} {shown : List (Option Nat × ShownTransaction)} {i : Nat}

/-- In the beginning no transaction is shown. -/
theorem shows_planned :
  Shows targetValues ⟨plannedParts targetValues initialState confirmationTarget, ∅⟩ []
  := by
  constructor
  · rw [length_plannedParts]
    apply plannedParts_indices
  · rw [plannedParts_values]
  · have hnone : ∀ part ∈ plannedParts targetValues initialState confirmationTarget,
        part.shown = none := by
      intro part hpart
      obtain ⟨planned, -, rfl⟩ := List.mem_map.mp hpart
      rfl
    have hplaced := placed_nil hnone
    rwa [length_plannedParts] at hplaced

theorem Shows.partIndex_eq (h : t.Shows targetValues shown) {part : MigrationPartStatus}
    (hpart : t.parts[i]? = some part) :
  part.partIndex = i
  := by
  have hi := congrArg (fun indices => indices[i]?) h.indices
  rw [List.getElem?_map, hpart, Option.map_some] at hi
  rw [eq_comm, List.getElem?_eq_some_iff] at hi
  obtain ⟨_, hi⟩ := hi
  rw [List.getElem_range] at hi
  apply hi.symm

/-- The first part with a property is a part that is not assigned. -/
theorem Shows.firstPart_spec (h : t.Shows targetValues shown) {p : MigrationPartStatus → Bool}
    (hi : t.firstPart p = some i) :
  i < t.parts.length ∧ i ∉ t.assigned
  := by
  obtain ⟨part, hpart, rfl⟩ := Option.map_eq_some_iff.mp hi
  have hmem := List.mem_of_find?_eq_some hpart
  have hfound := List.find?_some hpart
  rw [Bool.and_eq_true, decide_eq_true_eq] at hfound
  obtain ⟨j, hj⟩ := List.getElem?_of_mem hmem
  rw [h.partIndex_eq hj] at hfound ⊢
  exact ⟨(List.getElem?_eq_some_iff.mp hj).1, hfound.2⟩

/-- If there is no part to assign, all are assigned. -/
theorem Shows.firstPart_none (h : t.Shows targetValues shown)
    (hnone : t.firstPart (fun _ => true) = none) :
  ∀ j < t.parts.length, j ∈ t.assigned
  := by
  intro j hj
  rw [firstPart, Option.map_eq_none_iff, List.find?_eq_none] at hnone
  have hpart := hnone t.parts[j] (List.getElem_mem hj)
  rw [h.partIndex_eq (List.getElem?_eq_getElem hj)] at hpart
  simpa using hpart

/-- An entry is shown at a part that is not assigned, or after them when all are. -/
theorem Shows.partFor_next (h : t.Shows targetValues shown) (storedIndex : Option Nat)
    (isValue : Nat → Bool) :
  Next t.assigned t.parts.length (t.partFor storedIndex isValue)
  := by
  have hnext : ∀ i, i < t.parts.length ∧ i ∉ t.assigned → Next t.assigned t.parts.length i := by
    rintro i ⟨hlt, hfree⟩
    exact ⟨Nat.le_of_lt hlt, hfree, fun heq => absurd heq (Nat.ne_of_lt hlt)⟩
  unfold partFor
  cases hstored : storedIndex.filter fun index =>
      index < t.parts.length && index ∉ t.assigned with
  | some i =>
    apply hnext
    obtain ⟨-, hi⟩ := Option.filter_eq_some_iff.mp hstored
    simpa using hi
  | none =>
    cases hvalue : t.firstPart fun part => isValue part.valueZatoshi with
    | some i => exact hnext i (h.firstPart_spec hvalue)
    | none =>
      cases hfirst : t.firstPart fun _ => true with
      | some i => exact hnext i (h.firstPart_spec hfirst)
      | none =>
        have hfull := h.firstPart_none hfirst
        refine ⟨le_refl _, ?_, fun _ => hfull⟩
        intro hmem
        exact absurd (h.placed.lt_of_taken hmem) (lt_irrefl _)

/-- The part that is stored is taken, unless it was assigned before. -/
theorem partFor_stored (hlt : i < t.parts.length) (hfree : i ∉ t.assigned)
    (isValue : Nat → Bool) :
  t.partFor (some i) isValue = i
  := by
  have hstored : (some i).filter (fun index =>
      decide (index < t.parts.length) && decide (index ∉ t.assigned)) = some i := by
    rw [Option.filter_eq_some_iff]
    simp [hlt, hfree]
  rw [partFor, hstored]
  rfl

/-- One more entry that shows a transaction. -/
theorem Shows.put (h : t.Shows targetValues shown) {part : MigrationPartStatus}
    {storedIndex : Option Nat} {isValue : Nat → Bool} {value : Nat}
    (hindex : part.partIndex = t.partFor storedIndex isValue)
    (hvalue : part.valueZatoshi = t.valueOf part.partIndex value)
    {transaction : Option Nat × ShownTransaction} (hshown : part.shown = some transaction) :
  (t.put part).Shows targetValues (shown ++ [transaction])
  := by
  have hnext : Next t.assigned t.parts.length part.partIndex := by
    rw [hindex]
    apply h.partFor_next
  constructor
  · have hlength := length_place (x := part) hnext.le
    rw [PartTable.put, map_place, h.indices, place_range hnext.le, hlength]
  · rw [PartTable.put, map_place, hvalue, valueOf, ← List.getElem?_map]
    apply h.values.trans extends_place_getD
  · apply h.placed.place hnext hshown

/-- An index is assigned when a transaction is shown there. -/
theorem Shows.mem_assigned (h : t.Shows targetValues shown) (hi : i ∈ t.assigned) :
  ∃ transaction, (some i, transaction) ∈ shown
  := by
  obtain ⟨part, hpart, hshown⟩ := (h.placed.mem_taken i).mp hi
  obtain ⟨⟨index, transaction⟩, hshown⟩ := Option.isSome_iff_exists.mp hshown
  use transaction
  rw [← h.placed.perm.mem_iff, List.mem_filterMap]
  use part, List.mem_of_getElem? hpart
  have hindex : index = some part.partIndex := by
    obtain ⟨txid, -, heq⟩ := Option.map_eq_some_iff.mp hshown
    cases heq
    rfl
  rw [hshown, hindex, h.partIndex_eq hpart]

/-- The entries are in the order of their indexes. -/
theorem Shows.sorted_eq (h : t.Shows targetValues shown) :
  t.sorted = t.parts
  := by
  apply List.Pairwise.insertionSort_eq
  have hsorted : (t.parts.map (·.partIndex)).Pairwise (· ≤ ·) := by
    rw [h.indices]
    apply List.pairwise_le_range
  rwa [List.pairwise_map] at hsorted

/-! ### One entry -/

variable {view : ChainView} {phase : Phase}

/-- A pending transaction is shown once. -/
theorem Shows.putPending (h : t.Shows targetValues shown) (row : PartRow) :
  ∃ i, (t.putPending view phase confirmationTarget row).Shows targetValues
    (shown ++ [(some i, row.shown.2)])
  := by
  use t.partFor row.partIndex row.isValue
  apply h.put rfl rfl rfl

/-- A pending transaction whose part is not assigned is shown there. -/
theorem Shows.putPending_stored (h : t.Shows targetValues shown) {row : PartRow}
    (hstored : row.partIndex = some i) (hlt : i < targetValues.length)
    (hfree : ∀ transaction, (some i, transaction) ∉ shown) :
  (t.putPending view phase confirmationTarget row).Shows targetValues (shown ++ [row.shown])
  := by
  have hlength : i < t.parts.length := by
    rw [h.placed.length]
    apply lt_of_lt_of_le hlt (le_max_left _ _)
  have hassigned : i ∉ t.assigned := by
    intro hmem
    obtain ⟨transaction, htransaction⟩ := h.mem_assigned hmem
    apply hfree transaction htransaction
  have hpart : t.partFor row.partIndex row.isValue = i := by
    rw [hstored]
    apply partFor_stored hlength hassigned
  have hshown : (t.pendingPart view phase confirmationTarget row).shown = some row.shown := by
    rw [MigrationPartStatus.shown, PartRow.shown, hstored, ← hpart]
    rfl
  apply h.put rfl rfl hshown

/-- An output of a stage is shown once. -/
theorem Shows.putOutput (h : t.Shows targetValues shown)
    (stage : Store.DenominationStageChainRecord) (output : StageOutput) :
  ∃ i, (t.putOutput view confirmationTarget stage output).Shows targetValues
    (shown ++ [(some i, shownStage stage)])
  := by
  have hindex : (t.outputPart view confirmationTarget stage output).partIndex
      = t.partFor output.partIndex fun value => decide (value = output.valueZatoshi) := rfl
  exact ⟨_, h.put hindex rfl rfl⟩

/-! ### All entries -/

/-- A loop whose steps each show some transactions shows all of them. -/
theorem Shows.foldl {α : Type} {f : PartTable → α → PartTable} {g : α → List ShownTransaction}
    (hf : ∀ x t shown, t.Shows targetValues shown → ∃ more,
      (f t x).Shows targetValues (shown ++ more) ∧ more.map (·.2) = g x)
    (xs : List α) (h : t.Shows targetValues shown) :
  ∃ more, (xs.foldl f t).Shows targetValues (shown ++ more) ∧ more.map (·.2) = xs.flatMap g
  := by
  induction xs generalizing t shown with
  | nil =>
    use []
    rw [List.append_nil]
    exact ⟨h, rfl⟩
  | cons x xs ih =>
    obtain ⟨more, hmore, heq⟩ := hf x t shown h
    obtain ⟨rest, hrest, hrestEq⟩ := ih hmore
    use more ++ rest
    rw [List.foldl_cons, ← List.append_assoc, List.map_append, heq, hrestEq, List.flatMap_cons]
    exact ⟨hrest, rfl⟩

/-- All pending transactions are shown. -/
theorem Shows.foldl_putPending (rows : List PartRow) (h : t.Shows targetValues shown) :
  ∃ more, (rows.foldl (PartTable.putPending view phase confirmationTarget) t).Shows targetValues
      (shown ++ more)
    ∧ more.map (·.2) = rows.map (·.shown.2)
  := by
  rw [← List.flatMap_singleton' (rows.map (·.shown.2)), List.flatMap_map]
  apply h.foldl
  intro row t shown h
  obtain ⟨i, hi⟩ := h.putPending row
  exact ⟨_, hi, rfl⟩

/-- Pending transactions for distinct parts of the plan are shown at their parts. -/
theorem Shows.foldl_putPending_stored {rows : List PartRow} (h : t.Shows targetValues shown)
    (hstored : ∀ row ∈ rows, ∃ i < targetValues.length, row.partIndex = some i)
    (hdistinct : ((shown.map (·.1)) ++ rows.map (·.partIndex)).Nodup) :
  (rows.foldl (PartTable.putPending view phase confirmationTarget) t).Shows targetValues
    (shown ++ rows.map (·.shown))
  := by
  induction rows generalizing t shown with
  | nil =>
    rw [List.map_nil, List.append_nil]
    apply h
  | cons row rows ih =>
    obtain ⟨i, hlt, hi⟩ := hstored row List.mem_cons_self
    have hfree : ∀ transaction, (some i, transaction) ∉ shown := by
      intro transaction hmem
      have hdisjoint := (List.nodup_append.mp hdistinct).2.2
      apply hdisjoint (some i) (List.mem_map_of_mem hmem) row.partIndex
      · simp
      · apply hi.symm
    have hstep : (t.putPending view phase confirmationTarget row).Shows targetValues
        (shown ++ [row.shown]) := h.putPending_stored hi hlt hfree
    have hrest := ih hstep
      (fun other hother => hstored other (List.mem_cons_of_mem _ hother)) (by
        rw [List.map_append, List.append_assoc]
        apply hdistinct)
    rwa [List.append_assoc] at hrest

/-- All outputs of the stages are shown. -/
theorem Shows.foldl_putStage {s : Store} {r : RunId}
    (stages : List Store.DenominationStageChainRecord) (h : t.Shows targetValues shown) :
  ∃ more, (stages.foldl (Store.putStage view s r confirmationTarget) t).Shows targetValues
      (shown ++ more)
    ∧ more.map (·.2) = stages.flatMap fun stage =>
      (s.migrationOutputs r stage).map fun _ => shownStage stage
  := by
  apply h.foldl
  intro stage t shown h
  rw [← List.flatMap_singleton' ((s.migrationOutputs r stage).map fun _ => shownStage stage),
    List.flatMap_map]
  apply h.foldl
  intro output t shown h
  obtain ⟨i, hi⟩ := h.putOutput stage output
  exact ⟨_, hi, rfl⟩

end PartTable

namespace Store

variable {s : Store} {r : RunId} {view : ChainView} {phase : Phase}

/-! ### The rows -/

/-- The heights of a row can be read. -/
def Readable (row : PendingTx) : Prop :=
  row.scheduledHeight.isSome ∧ (row.scheduleStartHeight.isSome ∨ 0 < row.targetHeight)

/-- A row whose heights can be read is read. -/
theorem partRow_eq_ok {row : PendingTx} (h : Readable row) :
  ∃ partRow, row.partRow = .ok partRow
  := by
  obtain ⟨hheight, hstart⟩ := h
  obtain ⟨height, hheight⟩ := Option.isSome_iff_exists.mp hheight
  have hread : ∃ start,
      (row.scheduleStartHeight.orElse fun _ => checkedSub32 row.targetHeight 1) = some start := by
    cases hrow : row.scheduleStartHeight with
    | some start => exact ⟨start, rfl⟩
    | none =>
      rcases hstart with hstart | hpos
      · rw [hrow] at hstart
        cases hstart
      · exact ⟨row.targetHeight - 1, if_pos hpos⟩
  obtain ⟨start, hread⟩ := hread
  use ⟨row.partIndex, row.txid, row.valueZatoshi, row.feeZatoshi, start, height,
    row.originalScheduledHeight, row.status⟩
  simp only [PendingTx.partRow, hread, hheight]
  rfl

/-- A row is read as it is. -/
theorem partRow_shown {row : PendingTx} {partRow : PartRow} (h : row.partRow = .ok partRow) :
  row.shown = partRow.shown
  := by
  obtain ⟨start, -, h⟩ := bind_eq_ok.mp h
  obtain ⟨height, hheight, h⟩ := bind_eq_ok.mp h
  rw [okOr_eq_ok] at hheight
  obtain rfl := pure_eq_ok.mp h
  rw [PendingTx.shown, hheight]
  rfl

/-- Rows whose heights can be read are read, each once. -/
theorem partRows_eq_ok (h : ∀ row ∈ s.pendingOf r, Readable row) :
  ∃ rows, s.partRows r = .ok rows ∧ (rows.map (·.shown)).Perm ((s.pendingOf r).map (·.shown))
  := by
  unfold partRows
  dsimp only
  set order : PendingTx → PendingTx → Prop := fun a b =>
    (a.scheduledHeight.map (· + 1)).getD 0 < (b.scheduledHeight.map (· + 1)).getD 0
      ∨ (a.scheduledHeight.map (· + 1)).getD 0 = (b.scheduledHeight.map (· + 1)).getD 0
        ∧ a.txid ≤ b.txid
  have hperm := List.perm_insertionSort order (s.pendingOf r)
  have hread : ∀ row ∈ (s.pendingOf r).insertionSort order,
      ∃ partRow, row.partRow = .ok partRow := by
    intro row hrow
    apply partRow_eq_ok (h row (hperm.mem_iff.mp hrow))
  obtain ⟨rows, hrows⟩ := exists_mapM_eq_ok hread
  use rows, hrows
  have hsame : ((s.pendingOf r).insertionSort order).map (·.shown) = rows.map (·.shown) := by
    rw [← List.forall₂_eq_eq_eq, List.forall₂_map_left_iff, List.forall₂_map_right_iff]
    apply (forall₂_of_mapM_eq_ok hrows).imp
    intro row partRow
    apply partRow_shown
  rw [← hsame]
  apply hperm.map

/-! ### The denominations -/

/-- The transactions that the outputs of the stages are shown with. -/
def shownStages (s : Store) (r : RunId) : List ShownTransaction :=
  (s.denominationStageChainRecords r).flatMap fun stage =>
    (s.migrationOutputs r stage).map fun _ => shownStage stage

/-- The outputs of the stages are shown instead of the transactions of the run. -/
def ShowsDenominations (s : Store) (run : MigrationRun) : Prop :=
  run.phase = .waitingDenomConfirmations ∧ s.denominationStageChainRecords run.runId ≠ []
    ∧ (run.targetValues ≠ [] ∨ s.shownStages run.runId ≠ [])

instance (s : Store) (run : MigrationRun) : Decidable (s.ShowsDenominations run) :=
  inferInstanceAs (Decidable (_ ∧ _ ∧ _))

/-- The stages are shown in a table. -/
theorem denominationParts_eq (view : ChainView) (targetValues : List Nat)
    (confirmationTarget : Nat) (hstages : s.denominationStageChainRecords r ≠ []) :
  ∃ t shown, PartTable.Shows targetValues t shown ∧ shown.map (·.2) = s.shownStages r
    ∧ s.denominationMigrationPartsForRun view r targetValues confirmationTarget = t.parts
  := by
  obtain ⟨shown, hshows, hshown⟩ := PartTable.shows_planned.foldl_putStage
    (s.denominationStageChainRecords r)
  refine ⟨_, shown, hshows, hshown, ?_⟩
  rw [denominationMigrationPartsForRun, if_neg hstages]
  apply hshows.sorted_eq

/-- Whether the outputs of the stages are shown can be seen from the tables. -/
theorem showsDenominations_iff {run : MigrationRun} {confirmationTarget : Nat} :
  (run.phase = .waitingDenomConfirmations
      ∧ s.denominationMigrationPartsForRun view run.runId run.targetValues confirmationTarget ≠ [])
    ↔ s.ShowsDenominations run
  := by
  unfold ShowsDenominations
  apply and_congr_right
  intro _
  by_cases hstages : s.denominationStageChainRecords run.runId = []
  · simp [denominationMigrationPartsForRun, hstages]
  · obtain ⟨t, shown, hshows, hshown, hparts⟩ :=
      denominationParts_eq view run.targetValues confirmationTarget hstages
    have hlength := hshows.placed.length
    have hcount := congrArg List.length hshown
    rw [List.length_map] at hcount
    rw [hparts, ← List.length_pos_iff, ← List.length_pos_iff, ← List.length_pos_iff,
      ← List.length_pos_iff, hlength, lt_max_iff, ← hcount, and_iff_right]
    apply List.length_pos_iff.mpr hstages

/-! ### The parts of a run -/

theorem migrationPartsForRun_of_showsDenominations {run : MigrationRun} {confirmationTarget : Nat}
    (hgate : s.ShowsDenominations run) :
  s.migrationPartsForRun view run.runId run.targetValues run.phase confirmationTarget
    = .ok (s.denominationMigrationPartsForRun view run.runId run.targetValues confirmationTarget)
  := if_pos (showsDenominations_iff.mpr hgate)

/-- The transactions of a run, or the outputs of its stages, are shown in a table. -/
theorem migrationParts_eq {run : MigrationRun} (hread : ∀ row ∈ s.pendingOf run.runId, Readable row)
    (view : ChainView) (confirmationTarget : Nat) :
  ∃ t shown, PartTable.Shows run.targetValues t shown
    ∧ s.migrationPartsForRun view run.runId run.targetValues run.phase confirmationTarget
      = .ok t.parts
    ∧ (s.ShowsDenominations run → shown.map (·.2) = s.shownStages run.runId)
    ∧ (¬s.ShowsDenominations run →
      (shown.map (·.2)).Perm ((s.pendingOf run.runId).map (·.shown.2))
      ∧ ((∀ row ∈ s.pendingOf run.runId,
          ∃ i < run.targetValues.length, row.partIndex = some i) →
        ((s.pendingOf run.runId).map (·.partIndex)).Nodup →
        shown.Perm ((s.pendingOf run.runId).map (·.shown))))
  := by
  by_cases hgate : s.ShowsDenominations run
  · obtain ⟨t, shown, hshows, hshown, hparts⟩ :=
      denominationParts_eq view run.targetValues confirmationTarget hgate.2.1
    refine ⟨t, shown, hshows, ?_, fun _ => hshown, fun hnot => absurd hgate hnot⟩
    rw [migrationPartsForRun_of_showsDenominations hgate, hparts]
  · obtain ⟨rows, hrows, hperm⟩ := partRows_eq_ok hread
    obtain ⟨shown, hshows, hshown⟩ := PartTable.shows_planned.foldl_putPending rows
    refine ⟨_, shown, hshows, ?_, fun h => absurd h hgate, fun _ => ⟨?_, ?_⟩⟩
    · rw [migrationPartsForRun, if_neg fun h => hgate (showsDenominations_iff.mp h), hrows]
      apply congrArg Except.ok hshows.sorted_eq
    · rw [hshown]
      have hmapped := hperm.map (·.2)
      rwa [List.map_map, List.map_map] at hmapped
    · intro hstored hdistinct
      have hindexes : (rows.map (·.partIndex)).Perm
          ((s.pendingOf run.runId).map (·.partIndex)) := by
        have hmapped := hperm.map (·.1)
        rwa [List.map_map, List.map_map] at hmapped
      have hrowsStored : ∀ row ∈ rows, ∃ i < run.targetValues.length, row.partIndex = some i := by
        intro row hrow
        obtain ⟨old, hold, hsame⟩ :=
          List.mem_map.mp (hindexes.mem_iff.mp (List.mem_map_of_mem hrow))
        rw [← hsame]
        apply hstored old hold
      have hown : PartTable.Shows run.targetValues
          (rows.foldl (PartTable.putPending view run.phase confirmationTarget)
            ⟨plannedParts run.targetValues
              (if run.phase = .complete then .completed else .preparing) confirmationTarget, ∅⟩)
          ([] ++ rows.map (·.shown)) :=
        PartTable.shows_planned.foldl_putPending_stored hrowsStored
          (hindexes.nodup_iff.mpr hdistinct)
      apply hshows.placed.perm.symm.trans (hown.placed.perm.trans hperm)

/-- A state in which the status of a run is read: its rows can be read, and there are no more
of them than parts. -/
structure Presentable (s : Store) (run : MigrationRun) : Prop where
  readable : ∀ row ∈ s.pendingOf run.runId, Readable row
  within : (s.pendingOf run.runId).length ≤ run.targetValues.length

theorem dated_empty : Dated {}
  := fun _ hrow => absurd hrow List.not_mem_nil

theorem started_empty : Started {}
  := fun _ hrow => absurd hrow List.not_mem_nil

/-- The rows of every store that the operations made can be read. -/
theorem readable_after {ops : List Op} :
  ∀ row ∈ (after step {} ops).pendingOf r, Readable row
  := by
  intro row hrow
  have hmem := (List.mem_filter.mp hrow).1
  exact ⟨dated_empty.after keys_empty row hmem, .inl (started_empty.after keys_empty row hmem)⟩

/-- A run has no more transactions than parts. -/
theorem Assigned.length_le (h : s.Assigned) {run : MigrationRun} (hrun : run ∈ s.runs) :
  (s.pendingOf run.runId).length ≤ run.targetValues.length
  := by
  have hsub : (s.pendingOf run.runId).map (·.partIndex)
      ⊆ (List.range run.targetValues.length).map some := by
    intro index hindex
    obtain ⟨row, hrow, rfl⟩ := List.mem_map.mp hindex
    obtain ⟨i, hlt, hi⟩ := h.partIndex_lt hrun hrow
    rw [hi]
    apply List.mem_map_of_mem (List.mem_range.mpr hlt)
  have hlength := (h.nodup_partIndexes.subperm hsub).length_le
  simpa using hlength

/-- In every run of operations from the empty store whose callers keep their promises, the
status of a run can be read. -/
theorem presentable_after {ops : List Op} (hops : Along step Promised {} ops)
    {run : MigrationRun} (hrun : run ∈ (after step {} ops).runs) :
  (after step {} ops).Presentable run
  := by
  have hassigned := after_assigned keys_empty hops assigned_empty
  exact ⟨readable_after, hassigned.length_le hrun⟩

/-- In every state in which the status of a run is read, the entries of its parts are numbered
from zero.  Outside the phase in which the denominations are not confirmed, there is one entry
for each part, with the planned value, and each pending transaction of the run is shown by one
of them.  In that phase the parts of a run with stages are shown with their planned values too,
but with the outputs of the stages, each of them once, instead of the pending transactions. -/
theorem migrationPartsForRun_shows {run : MigrationRun}
    (hs : s.Presentable run
      ∨ ∃ ops, Along step Promised {} ops ∧ s = after step {} ops ∧ run ∈ s.runs)
    (view : ChainView) (confirmationTarget : Nat) :
  ∃ parts, s.migrationPartsForRun view run.runId run.targetValues run.phase confirmationTarget
      = .ok parts
    ∧ parts.map (·.partIndex) = List.range parts.length
    ∧ (¬s.ShowsDenominations run →
      parts.map (·.valueZatoshi) = run.targetValues
        ∧ ((parts.filterMap (·.shown)).map (·.2)).Perm
          ((s.pendingOf run.runId).map (·.shown.2)))
    ∧ (s.ShowsDenominations run →
      run.targetValues <+: parts.map (·.valueZatoshi)
        ∧ ((parts.filterMap (·.shown)).map (·.2)).Perm (s.shownStages run.runId))
  := by
  have hpresentable : s.Presentable run := by
    rcases hs with hs | ⟨ops, hops, rfl, hrun⟩
    · apply hs
    · apply presentable_after hops hrun
  obtain ⟨t, shown, hshows, hparts, hstages, hpending⟩ :=
    migrationParts_eq hpresentable.readable view confirmationTarget
  have honce := hshows.placed.perm.map (·.2)
  refine ⟨t.parts, hparts, hshows.indices, ?_, ?_⟩
  · intro hgate
    obtain ⟨hperm, -⟩ := hpending hgate
    constructor
    · apply (hshows.values.eq_of_length_le _).symm
      have hcount := hperm.length_eq
      rw [List.length_map, List.length_map] at hcount
      rw [List.length_map, hshows.placed.length, hcount, max_eq_left hpresentable.within]
    · apply honce.trans hperm
  · intro hgate
    rw [← hstages hgate]
    exact ⟨hshows.values, honce⟩

/-! ### A run whose denominations leave the chain -/

/-- A stage that funds the part `i`. -/
def samplePartStage (i : Nat) : DenominationStageInsert where
  stageIndex := i
  basePczt := [1]
  sigs := []
  rawTx := some [1]
  expectedTxid := 10 + i
  targetHeight := 34500
  scheduledHeight := 34500
  expiryHeight := 34560
  feeZatoshi := 10
  status := .pending
  inputs := [⟨i, 0, 120, 2, some 1⟩]
  outputs := [⟨0, 110, 2, .migration, some i⟩]

/-- The note that the stage of the part `i` creates. -/
def samplePartNote (i : Nat) : PreparedOrchardNoteRef where
  txid := 10 + i
  outputIndex := 0
  valueZatoshi := 110
  noteVersion := 2
  nullifier := none

/-- A chain in which the notes of the stages in `mined` can be spent. -/
def samplePartView (mined : List (Txid × LocalTransactionChainIdentity)) : ChainView :=
  { sampleView mined 10 with
    noteSpendMetadata := fun note =>
      (mined.find? fun tx => tx.1 = note.txid).map fun tx => (1, tx.2.minedHeight) }

/-- The chain with both stages. -/
def samplePartsMined : ChainView :=
  samplePartView [(10, ⟨34501, 1⟩), (11, ⟨34502, 2⟩)]

/-- A run with two parts is created, its stages are confirmed, and the second part gets its
transaction. -/
def sampleParts : List Op := [
  .createRunWithStagedDenominationsAndSignedChildren { sampleRun with targetValues := [100, 100] }
    [samplePartNote 0, samplePartNote 1] [] [samplePartStage 0, samplePartStage 1]
    (some [⟨some 0, 100, 10⟩, ⟨some 1, 100, 20⟩]),
  .completeDenominationBroadcast 1 10 false 34500 fun _ => 0,
  .completeDenominationBroadcast 1 11 false 34500 fun _ => 0,
  .reconcileDenominationStageChainState 3 samplePartsMined 1 (.ok 34520) fun _ => 0,
  .reconcileDenominationConfirmations samplePartsMined 1,
  .insertPendingTxs 1 [{ samplePending with
    partIndex := 1
    scheduledHeight := 34574
    selectedNote := samplePartNote 1 }] []]

/-- The first stage leaves the chain. -/
def samplePartsReorged : List Op := sampleParts ++ [
  .reconcileDenominationStageChainState 3 (samplePartView [(11, ⟨34502, 2⟩)]) 1 (.ok 34550)
    fun _ => 0]

theorem promised_sampleParts :
  Along step Promised {} samplePartsReorged
  := ⟨fun _ hrow => absurd hrow List.not_mem_nil, trivial, trivial, trivial, trivial, trivial,
    trivial, trivial⟩

/-- The row of the run in the samples. -/
def samplePartsRun (ops : List Op) : MigrationRun :=
  ((after step {} ops).run? 1).getD (sampleRun.row .complete [])

/-- The second part is shown with its transaction. -/
theorem migrationPartsForRun_shows_sample :
  ∃ parts, (after step {} sampleParts).migrationPartsForRun samplePartsMined
      (samplePartsRun sampleParts).runId (samplePartsRun sampleParts).targetValues
      (samplePartsRun sampleParts).phase 3 = .ok parts
    ∧ parts.map (·.valueZatoshi) = [100, 100]
    ∧ ((parts.filterMap (·.shown)).map (·.2)).Perm [⟨7, some 34574, some 34574⟩]
  := by
  have hops : Along step Promised {} sampleParts := (along_append.mp promised_sampleParts).1
  obtain ⟨parts, hparts, -, hshown, -⟩ := migrationPartsForRun_shows
    (.inr ⟨sampleParts, hops, rfl, (by decide +kernel :
      samplePartsRun sampleParts ∈ (after step {} sampleParts).runs)⟩) samplePartsMined 3
  have hgate : ¬(after step {} sampleParts).ShowsDenominations (samplePartsRun sampleParts) := by
    decide +kernel
  obtain ⟨hvalues, honce⟩ := hshown hgate
  use parts, hparts
  rw [hvalues]
  refine ⟨by decide +kernel, honce.trans ?_⟩
  have hrows : ((after step {} sampleParts).pendingOf (samplePartsRun sampleParts).runId).map
      (·.shown.2) = [⟨7, some 34574, some 34574⟩] := by
    decide +kernel
  rw [hrows]

/-- After the first stage left the chain, the transaction of the second part is not shown. -/
theorem migrationPartsForRun_hides_pending :
  Along step Promised {} samplePartsReorged
    ∧ samplePartsRun samplePartsReorged ∈ (after step {} samplePartsReorged).runs
    ∧ (∃ row ∈ (after step {} samplePartsReorged).pendingOf
        (samplePartsRun samplePartsReorged).runId, row.txid = 7)
    ∧ ∃ parts, (after step {} samplePartsReorged).migrationPartsForRun
        (samplePartView [(11, ⟨34502, 2⟩)]) (samplePartsRun samplePartsReorged).runId
        (samplePartsRun samplePartsReorged).targetValues
        (samplePartsRun samplePartsReorged).phase 3 = .ok parts
      ∧ ∀ part ∈ parts, part.txid ≠ some 7
  := by
  refine ⟨promised_sampleParts, by decide +kernel, by decide +kernel, ?_⟩
  have hgate : (after step {} samplePartsReorged).ShowsDenominations
      (samplePartsRun samplePartsReorged) := by
    decide +kernel
  refine ⟨_, migrationPartsForRun_of_showsDenominations hgate, ?_⟩
  decide +kernel

/-- In every run of operations from the empty store whose callers keep their promises, each
pending transaction is shown at the part that it was signed for. -/
theorem migrationPartsForRun_stored {ops : List Op} (hops : Along step Promised {} ops)
    {run : MigrationRun} (hrun : run ∈ (after step {} ops).runs)
    (hgate : ¬(after step {} ops).ShowsDenominations run) (view : ChainView)
    (confirmationTarget : Nat) :
  ∃ parts, (after step {} ops).migrationPartsForRun view run.runId run.targetValues run.phase
      confirmationTarget = .ok parts
    ∧ (parts.filterMap (·.shown)).Perm
      (((after step {} ops).pendingOf run.runId).map (·.shown))
  := by
  have hassigned := after_assigned keys_empty hops assigned_empty
  obtain ⟨t, shown, hshows, hparts, -, hpending⟩ :=
    migrationParts_eq (presentable_after hops hrun).readable view confirmationTarget
  use t.parts, hparts
  obtain ⟨-, hstored⟩ := hpending hgate
  apply hshows.placed.perm.trans
  apply hstored _ hassigned.nodup_partIndexes
  intro row hrow
  apply hassigned.partIndex_lt hrun hrow

end Store

end Vizor
