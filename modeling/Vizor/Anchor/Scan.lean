import Mathlib.Data.Finset.Max
import Vizor.Anchor.Retention
import Vizor.Store.Resign

/-!
# Scans and the retention of checkpoints

A proof of a migration needs a checkpoint of the note commitment tree at a boundary, or the
last one before it.  The tree keeps its newest checkpoints and those that are retained.  Before
a batch of blocks is scanned, the checkpoints that will represent its boundaries are retained;
after it, what the prepared notes need at the current anchor is retained and the rest is
released.
-/

namespace Vizor

open Run Store

/-! ### Boundaries -/

/-- The age beyond which a boundary is not used. -/
def zip318AnchorAgeCap : Nat := 4

/-- The last boundary at or before a height. -/
def zip318AnchorBoundaryAtOrBeforeWithPolicy (network : WalletNetwork)
    (timingPolicy : MigrationTimingPolicy) (height : Nat) : Option Nat :=
  let boundary := height - height % anchorBucketModulus network timingPolicy
  if 0 < boundary then some boundary else none

/-- The boundaries of some ages, up to the first that is too low. -/
def candidateBoundaries (modulus latestBoundary lowerBound : Nat) : List Nat → List Nat
  | [] => []
  | age :: ages =>
    match checkedSub32 latestBoundary (age * modulus) with
    | none => []
    | some boundary =>
      if boundary < lowerBound then []
      else boundary :: candidateBoundaries modulus latestBoundary lowerBound ages

/-- The boundaries at which a note can be proved, from the newest on. -/
def zip318AnchorCandidateBoundariesWithPolicy (network : WalletNetwork)
    (timingPolicy : MigrationTimingPolicy) (observedAnchorHeight noteMinedHeight
      nu63ActivationHeight : Nat) : List Nat :=
  match zip318AnchorBoundaryAtOrBeforeWithPolicy network timingPolicy observedAnchorHeight with
  | none => []
  | some latestBoundary =>
    let minAge := anchorBucketMinAge network timingPolicy
    candidateBoundaries (anchorBucketModulus network timingPolicy) latestBoundary
      (max noteMinedHeight (saturatingAdd32 nu63ActivationHeight 1))
      (List.range' minAge (zip318AnchorAgeCap + 1 - minAge))

/-- The last checkpoint at or before a boundary that contains a note. -/
def representativeOrchardCheckpoint (checkpointHeights : Finset Nat)
    (logicalBoundaryHeight noteMinedHeight : Nat) : Option Nat :=
  (checkpointHeights.filter fun height =>
    noteMinedHeight ≤ height ∧ height ≤ logicalBoundaryHeight).max

/-- The last boundary that contains a note. -/
def migrationAnchorRetentionBoundary (network : WalletNetwork)
    (timingPolicy : MigrationTimingPolicy) (anchorHeight noteMinedHeight : Nat) : Option Nat :=
  (zip318AnchorBoundaryAtOrBeforeWithPolicy network timingPolicy anchorHeight).filter
    fun boundary => noteMinedHeight ≤ boundary

/-- The checkpoints that a note needs at an anchor: those of the last boundary and of the first
at which it can be proved. -/
def migrationAnchorCheckpointsToRetain (network : WalletNetwork)
    (timingPolicy : MigrationTimingPolicy) (anchorHeight noteMinedHeight
      nu63ActivationHeight : Nat) (checkpointHeights : Finset Nat) : List Nat :=
  match migrationAnchorRetentionBoundary network timingPolicy anchorHeight noteMinedHeight with
  | none => []
  | some latestBoundary =>
    let firstEligibleBoundary := (zip318AnchorCandidateBoundariesWithPolicy network timingPolicy
      anchorHeight noteMinedHeight nu63ActivationHeight).head?
    (latestBoundary :: firstEligibleBoundary.toList).filterMap fun boundary =>
      representativeOrchardCheckpoint checkpointHeights boundary noteMinedHeight

/-- The first boundary of a batch. -/
def firstBoundaryOfScan (activationHeight frontierHeight boundaryModulus : Nat) : Option Nat :=
  let firstEligibleHeight := max frontierHeight (saturatingAdd32 activationHeight 1)
  let remainder := firstEligibleHeight % boundaryModulus
  if remainder = 0 then some firstEligibleHeight
  else checkedAdd32 firstEligibleHeight (boundaryModulus - remainder)

/-- The checkpoints that represent the boundaries of a batch. -/
def checkpointRepresentativesForScan (checkpointHeights : Finset Nat)
    (activationHeight frontierHeight batchEnd boundaryModulus : Nat) : List Nat :=
  if boundaryModulus = 0 ∨ batchEnd ≤ frontierHeight then []
  else
    match firstBoundaryOfScan activationHeight frontierHeight boundaryModulus with
    | none => []
    | some firstBoundary =>
      let boundaries := (List.range' firstBoundary (batchEnd - firstBoundary)).filter fun height =>
        (height - firstBoundary) % boundaryModulus = 0
      boundaries.filterMap fun boundary =>
        representativeOrchardCheckpoint checkpointHeights boundary 0

/-! ### A pass -/

namespace AnchorWorld

/-- A pass that is not interrupted. -/
def maintain (grid : AnchorGrid) (s : AnchorWorld) (desired : List (RunId × Nat)) : AnchorWorld :=
  ⟨s.ledger.desiredRows grid desired s.retained,
    (s.retained ∪ AnchorLedger.heights desired) \ (s.ledger.release grid desired).toFinset, none⟩

/-- The pass makes its changes one after the other. -/
theorem after_maintain {grid : AnchorGrid} {s : AnchorWorld} {desired : List (RunId × Nat)}
    (hpass : s.pass = none) :
  after (step grid) s (.begin desired :: List.replicate (changes grid s desired) .advance)
    = s.maintain grid desired
  := after_changes hpass

end AnchorWorld

/-! ### The wallet -/

/-- A prepared note of a run. -/
structure PreparedAnchorRetentionCandidate where
  runId : RunId
  accountUuid : AccountUuid
  note : PreparedOrchardNoteRef
  deriving DecidableEq, Repr

/-- What the wallet knows about an unspent note. -/
structure SelectedNote where
  valueZatoshi : Nat
  minedHeight : Option Nat
  deriving DecidableEq, Repr

/-- What does not change from scan to scan. -/
structure ScanContext where
  network : WalletNetwork
  grid : AnchorGrid
  nu63ActivationHeight : Nat
  /-- The policy in the row of a run. -/
  timingPolicy : RunId → MigrationTimingPolicy
  /-- The number of checkpoints that the tree keeps. -/
  pruningDepth : Nat

/-- The checkpoints of the tree and what is retained of them. -/
structure ScanWorld where
  anchors : AnchorWorld
  checkpoints : Finset Nat
  /-- The height up to which blocks were scanned. -/
  scannedEnd : Nat
  /-- The anchor of the last pass after a scan; no code reads it. -/
  anchor : Nat

/-- A batch of blocks, with what the passes before and after it read. -/
structure ScanBatch where
  candidates : List PreparedAnchorRetentionCandidate
  frontierHeight : Nat
  batchEnd : Nat
  /-- The blocks that add a checkpoint. -/
  incomingCheckpointHeights : Finset Nat
  /-- The checkpoints that the wallet retains for itself while it scans. -/
  walletRetained : Finset Nat
  candidatesAfter : List PreparedAnchorRetentionCandidate
  anchorHeight : Option Nat
  accountExists : AccountUuid → Bool
  /-- The unspent note at an anchor height, by its output. -/
  selectSpendable : AccountUuid → Nat → OutPoint → Option SelectedNote

namespace ScanWorld

/-- The checkpoints of the tree when a batch is scanned, without those that are pruned. -/
def scanCheckpoints (w : ScanWorld) (batch : ScanBatch) : Finset Nat :=
  insert batch.frontierHeight w.checkpoints ∪ batch.incomingCheckpointHeights

/-- The checkpoints that are newer than a height when a batch is scanned. -/
def newer (w : ScanWorld) (batch : ScanBatch) (height : Nat) : Finset Nat :=
  (w.scanCheckpoints batch).filter fun other => height < other

/-- What the pass before a scan wants: what the runs need already, and the checkpoints that
represent the boundaries of the batch. -/
def desiredBeforeScan (ctx : ScanContext) (w : ScanWorld) (batch : ScanBatch) :
    List (RunId × Nat) :=
  let runs := (batch.candidates.map (·.runId)).dedup
  let staged := runs.flatMap fun r =>
    (checkpointRepresentativesForScan (w.scanCheckpoints batch) ctx.nu63ActivationHeight
      batch.frontierHeight batch.batchEnd
      (anchorBucketModulus ctx.network (ctx.timingPolicy r))).map fun height => (r, height)
  (w.anchors.ledger.migrationAnchorRetentionReferences ++ staged).dedup

/-- The pass before a scan. -/
def retainMigrationAnchorCheckpointsBeforeScan (ctx : ScanContext) (w : ScanWorld)
    (batch : ScanBatch) : ScanWorld :=
  if batch.candidates = [] then w
  else { w with anchors := w.anchors.maintain ctx.grid (w.desiredBeforeScan ctx batch) }

/-- Scan a batch: the tree keeps its newest checkpoints and those that are retained. -/
def scanCachedBlocks (ctx : ScanContext) (w : ScanWorld) (batch : ScanBatch) : ScanWorld :=
  let retained := w.anchors.retained
    ∪ batch.walletRetained.filter fun height => ctx.grid.isWalletDurableAnchor height
  { w with
    anchors := { w.anchors with retained := retained }
    checkpoints := (w.scanCheckpoints batch).filter fun height =>
      height ∈ retained ∨ (w.newer batch height).card < ctx.pruningDepth
    scannedEnd := batch.batchEnd }

/-- What a note needs after a scan. -/
def candidateReferences (ctx : ScanContext) (w : ScanWorld) (batch : ScanBatch)
    (anchorHeight : Nat) (candidate : PreparedAnchorRetentionCandidate) :
    Except String (List (RunId × Nat)) := do
  ensure (batch.accountExists candidate.accountUuid) "Migration anchor retention account not found"
  match batch.selectSpendable candidate.accountUuid anchorHeight candidate.note.outpoint with
  | none => return []
  | some selected => do
    ensure (selected.valueZatoshi = candidate.note.valueZatoshi)
      "Prepared note value changed during anchor retention"
    let minedHeight ← okOr selected.minedHeight
      "Prepared migration note mined height unavailable"
    return (migrationAnchorCheckpointsToRetain ctx.network (ctx.timingPolicy candidate.runId)
      anchorHeight minedHeight ctx.nu63ActivationHeight w.checkpoints).map
        fun height => (candidate.runId, height)

/-- What the pass after a scan wants. -/
def desiredAfterScan (ctx : ScanContext) (w : ScanWorld) (batch : ScanBatch)
    (anchorHeight : Nat) : Except String (List (RunId × Nat)) := do
  let references ← batch.candidatesAfter.mapM (w.candidateReferences ctx batch anchorHeight)
  return references.flatten.dedup

/-- The pass after a scan. -/
def retainPreparedNoteAnchorCheckpointsAfterScan (ctx : ScanContext) (w : ScanWorld)
    (batch : ScanBatch) : ScanWorld × Except String Unit :=
  if batch.candidatesAfter = [] then
    ({ w with anchors := w.anchors.maintain ctx.grid [] }, .ok ())
  else
    match batch.anchorHeight with
    | none => (w, .ok ())
    | some anchorHeight =>
      match w.desiredAfterScan ctx batch anchorHeight with
      | .error e => (w, .error e)
      | .ok desired =>
        ({ w with anchors := w.anchors.maintain ctx.grid desired, anchor := anchorHeight }, .ok ())

/-- A batch, with the passes before and after it. -/
def step (ctx : ScanContext) (w : ScanWorld) (batch : ScanBatch) : ScanWorld :=
  (((w.retainMigrationAnchorCheckpointsBeforeScan ctx batch).scanCachedBlocks ctx
    batch).retainPreparedNoteAnchorCheckpointsAfterScan ctx batch).1

end ScanWorld

end Vizor
