import Vizor.Store.Create

/-!
# Pending transactions

Signed children are promoted to pending transactions with absolute broadcast heights.  The
schedule of a run is rebased once, before the first promotion.  Transactions that can no
longer be broadcast under their signature wait for new signatures, and are replaced by
transactions for the same parts.
-/

namespace Vizor

open Table Run

/-! ### Inputs -/

/-- A transaction that is ready to be inserted. -/
structure PendingMigrationTxInsert where
  partIndex : Nat
  txid : Txid
  targetHeight : Nat
  anchorBoundaryHeight : Option Nat
  expiryHeight : Nat
  scheduledHeight : Nat
  valueZatoshi : Nat
  feeZatoshi : Nat
  selectedNote : PreparedOrchardNoteRef
  deriving DecidableEq, Repr

/-- A transaction that replaces another one of the same part. -/
structure PendingMigrationTxReplacement where
  oldTxid : Txid
  replacement : PendingMigrationTxInsert
  deriving DecidableEq, Repr

/-- The row of a new transaction. -/
def PendingMigrationTxInsert.row (pending : PendingMigrationTxInsert) (r : RunId)
    (scheduleStartHeight : Nat) (originalScheduledHeight : Option Nat) : PendingTx where
  runId := r
  txid := pending.txid
  partIndex := some pending.partIndex
  targetHeight := pending.targetHeight
  anchorBoundaryHeight := pending.anchorBoundaryHeight
  expiryHeight := pending.expiryHeight
  valueZatoshi := pending.valueZatoshi
  feeZatoshi := pending.feeZatoshi
  selectedNoteTxid := pending.selectedNote.txid
  selectedNoteOutputIndex := pending.selectedNote.outputIndex
  selectedNoteValue := pending.selectedNote.valueZatoshi
  scheduleStartHeight := some scheduleStartHeight
  scheduledHeight := some pending.scheduledHeight
  originalScheduledHeight := originalScheduledHeight
  status := .scheduled

/-- Transactions from before signed children had a schedule carry their target height. -/
def PendingMigrationTxInsert.recoverLegacyScheduledHeight (pending : PendingMigrationTxInsert)
    (blockOffset : Nat) : Except String PendingMigrationTxInsert :=
  if pending.scheduledHeight = pending.targetHeight then do
    let canonicalExpiry ← zip318CanonicalMigrationExpiryHeight pending.targetHeight
    if pending.expiryHeight = canonicalExpiry then do
      let legacyScheduledHeight ← okOr (checkedAdd32 (pending.targetHeight - 1) blockOffset)
        "Legacy migration scheduled height overflow"
      let legacyExpiry ← zip318CanonicalMigrationExpiryHeight legacyScheduledHeight
      return if pending.expiryHeight = legacyExpiry then
          { pending with scheduledHeight := legacyScheduledHeight }
        else pending
    else return pending
  else return pending

namespace Store

/-! ### Insertion -/

/-- Whether a signed child has the schedule and value of a transaction. -/
def matchesRetainedReplacement (s : Store) (r : RunId) (pending : PendingMigrationTxInsert) :
    Bool :=
  (s.childrenOf r).any fun child => child.childIndex = pending.partIndex
    && child.scheduledHeight = some pending.scheduledHeight
    && child.expiryHeight = pending.expiryHeight
    && child.valueZatoshi = pending.valueZatoshi

/-- What is known of a batch of transactions that were checked so far. -/
structure PendingBatch where
  partIndexes : List Nat := []
  incomingInitialScheduleOrigin : Option Nat := none
  scheduledPending : List PendingTx := []

/-- The origin of a transaction must be the one of the run, unless a retained signed child
has its schedule; without one, the transactions of a batch must share their origin. -/
def PendingBatch.checkOrigin (batch : PendingBatch) (s : Store) (run : MigrationRun)
    (pending : PendingMigrationTxInsert) (scheduleOrigin : Nat) :
    Except String (Option Nat) :=
  match run.signedScheduleOriginHeight, batch.incomingInitialScheduleOrigin with
  | some persistedOrigin, incoming => do
    ensure (scheduleOrigin = persistedOrigin ∨ s.matchesRetainedReplacement run.runId pending)
      "Signed migration child no longer matches the immutable signed schedule origin"
    return incoming
  | none, some incomingOrigin => do
    ensure (scheduleOrigin = incomingOrigin)
      "Initial signed migration children do not share one absolute schedule origin"
    return some incomingOrigin
  | none, none => .ok (some scheduleOrigin)

/-- Check a transaction against the schedule of its run. -/
def PendingBatch.add (s : Store) (run : MigrationRun) (schedule : List MigrationScheduleEntry)
    (batch : PendingBatch) (pending : PendingMigrationTxInsert) : Except String PendingBatch := do
  ensure (pending.partIndex ∉ batch.partIndexes) "Migration pending part index is duplicated"
  let entry ← okOr
    (scheduleEntryForPart schedule run.targetValues pending.partIndex pending.valueZatoshi)
    "Approved migration schedule no longer matches prepared values"
  let pending ← pending.recoverLegacyScheduledHeight entry.blockOffset
  let scheduleOrigin ← okOr (checkedSub32 pending.scheduledHeight entry.blockOffset)
    "Migration signed schedule starts below zero"
  let incoming ← batch.checkOrigin s run pending scheduleOrigin
  let canonicalExpiry ← zip318CanonicalMigrationExpiryHeight pending.scheduledHeight
  ensure (pending.expiryHeight = canonicalExpiry)
    s!"Migration transaction {pending.txid} expiry is not canonical for scheduled height {pending.scheduledHeight}"
  return {
    partIndexes := pending.partIndex :: batch.partIndexes
    incomingInitialScheduleOrigin := incoming
    scheduledPending := batch.scheduledPending
      ++ [pending.row run.runId scheduleOrigin (some pending.scheduledHeight)] }

instance (row : PendingTx) (t : List PendingTx) : Decidable (row.Unused t) :=
  inferInstanceAs (Decidable (∀ other ∈ t, other.txid ≠ row.txid
    ∧ ¬(other.runId = row.runId ∧ other.partIndex = row.partIndex)))

/-- Add a pending transaction, whose keys must not be used. -/
def insertPendingRow (s : Store) (row : PendingTx) : Except String Store := do
  ensure (row.Unused s.pendingTxs) "Insert pending migration tx: UNIQUE constraint failed"
  return { s with pendingTxs := s.pendingTxs ++ [row] }

/-- Add pending transactions for parts of the plan; a run without an approved schedule gets
the `generated` one. -/
def insertPendingTxsWithTx (s : Store) (r : RunId) (pendingTxs : List PendingMigrationTxInsert)
    (generated : List MigrationScheduleEntry) : Except String Store := do
  let run ← s.readRun r "Read migration run policy"
  let schedule := if run.schedule = [] then generated else run.schedule
  let s := if run.schedule = [] then
      s.updateRuns (fun run => run.runId = r) fun run => { run with schedule := generated }
    else s
  validateScheduleWithPolicy schedule run.targetValues run.network run.timingPolicy
  let batch ← pendingTxs.foldlM (PendingBatch.add s run schedule) {}
  let s := match run.signedScheduleOriginHeight, batch.incomingInitialScheduleOrigin with
    | none, some origin =>
      s.updateRuns (fun run => run.runId = r && run.signedScheduleOriginHeight.isNone)
        fun run => { run with signedScheduleOriginHeight := some origin }
    | _, _ => s
  let s ← batch.scheduledPending.foldlM insertPendingRow s
  return s.updateRuns (fun run => run.runId = r)
    fun run => { run with phase := .broadcastScheduled, lastError := none }

/-- Add pending transactions. -/
def insertPendingTxs (s : Store) (r : RunId) (pendingTxs : List PendingMigrationTxInsert)
    (generated : List MigrationScheduleEntry) : Except String Store :=
  if pendingTxs = [] then .ok s else s.insertPendingTxsWithTx r pendingTxs generated

/-! ### The initial rebase -/

/-- What becomes of the schedule of the signed children of a run. -/
inductive RebaseDecision where
  /-- The schedule stays, for good. -/
  | freeze
  /-- The schedule stays for now. -/
  | leave
  /-- The children move to new heights. -/
  | shift (updates : List (MessageId × Nat))

/-- Whether the signed children can move to a new origin within their expiry windows. -/
def rebaseUpdates (run : MigrationRun) (signedScheduleOrigin newOrigin : Nat) :
    List (SignedChild × Nat) → Except String RebaseDecision
  | [] => .ok (.shift [])
  | (child, scheduledHeight) :: children =>
    match scheduleBlockOffsetForPart run.schedule run.targetValues child.childIndex
        child.valueZatoshi with
    | none => .ok .freeze
    | some blockOffset =>
      if checkedSub32 scheduledHeight blockOffset ≠ some signedScheduleOrigin then .ok .freeze
      else match checkedAdd32 newOrigin blockOffset with
      | none => .ok .freeze
      | some newScheduledHeight => do
        let newExpiry ← zip318CanonicalMigrationExpiryHeight newScheduledHeight
        if newExpiry ≠ child.expiryHeight then return .leave
        else match ← rebaseUpdates run signedScheduleOrigin newOrigin children with
          | .shift updates => return .shift ((child.messageId, newScheduledHeight) :: updates)
          | decision => return decision

/-- Record that the schedule of a run is not rebased any more. -/
def markInitialScheduleRebased (s : Store) (r : RunId) (oldOrigin : Nat) : Store :=
  s.updateRuns (fun run => run.runId = r && run.initialScheduleRebasedOriginHeight.isNone)
    fun run => { run with initialScheduleRebasedOriginHeight := some oldOrigin }

/-- Move one signed child to a new broadcast height. -/
def rebaseChild (r : RunId) (s : Store) (update : MessageId × Nat) : Except String Store := do
  ensure (s.signedChildren.countP (fun child => child.runId = r && child.messageId = update.1)
      = 1)
    "Failed to rebase exactly one signed migration child"
  return s.updateSignedChildren (fun child => child.runId = r && child.messageId = update.1)
    fun child => { child with scheduledHeight := some update.2 }

/-- The signed children of a run in the order of their parts, with their broadcast heights. -/
def childrenForInitialRebase (s : Store) (r : RunId) : Except String (List (SignedChild × Nat)) :=
  ((s.childrenOf r).insertionSort fun a b =>
      a.childIndex < b.childIndex ∨ a.childIndex = b.childIndex ∧ a.messageId ≤ b.messageId).mapM
    fun child => do
      let scheduledHeight ← okOr child.scheduledHeight
        "Read signed child for initial rebase: Invalid column type Null"
      return (child, scheduledHeight)

/-- Move the schedule of a run, once, to the height at which its proofs can be made. -/
def rebaseInitialSignedScheduleForAnchorReadiness (s : Store) (r : RunId)
    (currentScannedHeight : Nat) : Except String (Store × Bool) := do
  let run ← s.readRun r "Read migration schedule for initial rebase"
  match run.initialScheduleRebasedOriginHeight, run.proofRetryHeight,
      run.signedScheduleOriginHeight with
  | none, some proofRetryHeight, some signedScheduleOrigin =>
    if currentScannedHeight < proofRetryHeight || (s.pendingOf r).length > 0
        || run.schedule = [] then return (s, false)
    else do
      let children ← s.childrenForInitialRebase r
      let committed := children.map fun child => child.1.childIndex
      let newOrigin := max signedScheduleOrigin currentScannedHeight
      if children.isEmpty
          || !(committed.all (· < run.targetValues.length)
            && (List.range run.targetValues.length).all (· ∈ committed)) then return (s, false)
      else if newOrigin = signedScheduleOrigin then
        return (s.markInitialScheduleRebased r signedScheduleOrigin, false)
      else match ← rebaseUpdates run signedScheduleOrigin newOrigin children with
        | .freeze => return (s.markInitialScheduleRebased r signedScheduleOrigin, false)
        | .leave => return (s, false)
        | .shift updates => do
          let s ← updates.foldlM (rebaseChild r) s
          return (s.updateRuns
            (fun run => run.runId = r && run.initialScheduleRebasedOriginHeight.isNone)
            fun run => { run with
              signedScheduleOriginHeight := some newOrigin
              initialScheduleRebasedOriginHeight := some newOrigin }, true)
  | _, _, _ => return (s, false)

/-- Refresh the broadcast height of a transaction from its signed child. -/
def refreshScheduledHeight (s : Store) (r : RunId) (pending : PendingMigrationTxInsert) :
    Except String PendingMigrationTxInsert := do
  let child ← okOr ((s.childrenOf r).find? fun child => child.childIndex = pending.partIndex)
    "Read current signed migration child schedule: Query returned no rows"
  let scheduledHeight ← okOr child.scheduledHeight
    "Read current signed migration child schedule: Invalid column type Null"
  return { pending with scheduledHeight := scheduledHeight }

/-- Turn signed children into pending transactions. -/
def promoteSignedChildPcztsToPendingTxs (s : Store) (r : RunId)
    (pendingTxs : List PendingMigrationTxInsert)
    (currentScannedHeight remainingChildRetryHeight : Nat)
    (generated : List MigrationScheduleEntry) : Except String Store :=
  if pendingTxs = [] then .ok s
  else do
    let complete ← s.migrationPartAssignmentComplete r
    ensure complete "Migration signing batches are incomplete before proof promotion"
    let rebased ← s.rebaseInitialSignedScheduleForAnchorReadiness r currentScannedHeight
    let pendingTxs ← pendingTxs.mapM (rebased.1.refreshScheduledHeight r)
    let s ← rebased.1.insertPendingTxsWithTx r pendingTxs generated
    let remaining := (s.childrenOf r).any fun child =>
      (s.pendingOf r).all fun row => row.partIndex ≠ some child.childIndex
    return s.updateRuns (fun run => run.runId = r) fun run =>
      { run with proofRetryHeight := if remaining then some remainingChildRetryHeight else none }

/-! ### Replacement -/

/-- Remove an element of a vector by moving the last one to its place. -/
def swapRemove {α : Type} (xs : List α) (i : Nat) : List α :=
  match xs.getLast? with
  | some last => (xs.set i last).dropLast
  | none => []

/-- Pair the replacements with the entries of the schedule; what is left has no entry. -/
def scheduleReplacements :
    List MigrationScheduleEntry → List PendingMigrationTxReplacement →
      List PendingMigrationTxReplacement × List PendingMigrationTxReplacement
  | [], replacements => ([], replacements)
  | entry :: schedule, replacements =>
    match replacements.findIdx? fun replacement =>
        (match entry.partIndex with
          | some partIndex => replacement.replacement.partIndex = partIndex
          | none => true)
        && replacement.replacement.valueZatoshi = entry.valueZatoshi with
    | none => scheduleReplacements schedule replacements
    | some i =>
      let rest := scheduleReplacements schedule (swapRemove replacements i)
      ((replacements[i]?).toList ++ rest.1, rest.2)

/-- The origin of the schedule of a replacement: that of its recovery generation. -/
def recoveryScheduleStart (pending : PendingMigrationTxInsert) :
    Option Nat → Option Nat → Except String Nat
  | some origin, some persistedOffset => do
    let persistedScheduledHeight ← okOr (checkedAdd32 origin persistedOffset)
      "Persisted migration recovery schedule overflow"
    ensure (pending.scheduledHeight = persistedScheduledHeight)
      "Replacement migration schedule does not match its persisted recovery offset"
    return origin
  | none, none => .ok (pending.targetHeight - 1)
  | _, _ => .error "Migration recovery schedule metadata is incomplete"

/-- Replace one transaction that waits for a new signature. -/
def replacePendingRow (r : RunId) (recoveryOrigin : Option Nat) (s : Store)
    (replacement : PendingMigrationTxReplacement) : Except String Store := do
  let pending := replacement.replacement
  let original ← okOr
    (s.pendingTxs.find? fun row => row.runId = r && row.txid = replacement.oldTxid
      && row.status = .needsResign)
    "Expired migration part disappeared before replacement"
  ensure (original.valueZatoshi = pending.valueZatoshi)
    "Expired migration denomination changed during recovery"
  ensure (original.selectedOutpoint = pending.selectedNote.outpoint)
    "Expired migration funding note changed during recovery"
  let canonicalExpiry ← zip318CanonicalMigrationExpiryHeight pending.scheduledHeight
  ensure (pending.expiryHeight = canonicalExpiry)
    "Replacement migration expiry is not canonical for its scheduled height"
  let scheduleStartHeight ← recoveryScheduleStart pending recoveryOrigin
    original.rebuildBlockOffset
  let _ ← okOr (checkedSub32 pending.scheduledHeight scheduleStartHeight)
    "Replacement migration schedule starts below zero"
  let kept := deleteWhere (fun row => row.runId = r && row.txid = replacement.oldTxid) s.pendingTxs
  let row := pending.row r scheduleStartHeight original.originalScheduledHeight
  ensure (row.Unused kept) "Insert replacement migration part: UNIQUE constraint failed"
  return { s with pendingTxs := kept ++ [row] }

/-- Replace transactions that wait for new signatures. -/
def replaceResignedPendingParts (s : Store) (r : RunId)
    (replacements : List PendingMigrationTxReplacement)
    (signedChildren : List SignedMigrationPcztInsert) : Except String Store :=
  if replacements = [] then .ok s
  else do
    let run ← s.readRun r "Read replacement migration schedule"
    let scheduled := scheduleReplacements run.schedule replacements
    ensure (scheduled.2 = [])
      "Replacement migration schedule does not match its denominations"
    let s ← scheduled.1.foldlM (replacePendingRow r run.recoveryScheduleOriginHeight) s
    let s ← s.insertSignedChildPczts r signedChildren .replacement
    return s.updateRuns (fun run => run.runId = r)
      fun run => { run with phase := .broadcastScheduled, lastError := none }

/-! ### Recovery schedules -/

/-- A recovery schedule: the offsets of the transactions after a common origin. -/
structure RebuildScheduleGeneration where
  originHeight : Nat
  offsetsByTxid : List (Txid × Nat)

/-- Give a transaction that waits for a new signature the offset `assigned`. -/
def assignRebuildOffset (r : RunId) (assigned : Nat) (row : PendingTx) (s : Store) :
    Except String Store := do
  let selected (other : PendingTx) : Bool := other.runId = r && other.txid = row.txid
    && other.status = .needsResign && other.rebuildBlockOffset = row.rebuildBlockOffset
  ensure (s.pendingTxs.countP selected = 1) "Migration recovery part changed while scheduling"
  return s.updatePendingTxs selected
    fun other => { other with rebuildBlockOffset := some assigned }

/-- Give the transactions that wait for new signatures the offsets `fresh`, above those that
were given before. -/
def ensureRebuildScheduleGeneration (s : Store) (r : RunId) (originCandidateHeight : Nat)
    (fresh : Txid → Nat) : Except String (Store × Option RebuildScheduleGeneration) := do
  let rows := (s.pendingOf r).filter fun row => row.status = .needsResign
  if rows.isEmpty then return (s, none)
  else do
    let run ← s.readRun r "Read migration rebuild schedule origin"
    let originHeight := run.recoveryScheduleOriginHeight.getD originCandidateHeight
    let elapsedCursor := originCandidateHeight - originHeight
    ensure (rows.all (·.partIndex.isSome))
      "Migration part waiting for re-sign is missing its part index"
    let observedMaxOffset := rows.foldl (fun m row => max m (row.rebuildBlockOffset.getD 0)) 0
    let toAssign := rows.filter fun row =>
      row.rebuildBlockOffset.all fun offset => offset < elapsedCursor
    ensure (run.recoveryScheduleOriginHeight.isSome
        ∨ run.recoveryScheduleMaxBlockOffset.isNone ∧ rows.all (·.rebuildBlockOffset.isNone))
      "Migration recovery schedule metadata is incomplete"
    ensure (observedMaxOffset ≤ run.recoveryScheduleMaxBlockOffset.getD observedMaxOffset)
      "Migration recovery schedule maximum is below a persisted part offset"
    let baseOffset := max (run.recoveryScheduleMaxBlockOffset.getD observedMaxOffset) elapsedCursor
    ensure (toAssign.all fun row => (row.partIndex.bind fun partIndex =>
        scheduleBlockOffsetForPart run.schedule run.targetValues partIndex
          row.valueZatoshi).isSome)
      "Approved migration schedule is missing a recovery child"
    let assigned ← toAssign.mapM fun row => do
      let offset ← okOr (checkedAdd32 baseOffset (fresh row.txid))
        "Migration rebuild schedule offset overflow"
      return (row, offset)
    let s ← assigned.foldlM (fun s (row, offset) => assignRebuildOffset r offset row s) s
    let generationMaxOffset := assigned.foldl (fun m row => max m row.2) baseOffset
    let kept := rows.filterMap fun row => row.rebuildBlockOffset.bind fun offset =>
      if offset < elapsedCursor then none else some (row.txid, offset)
    ensure (s.runs.countP (fun run => run.runId = r) = 1)
      "Migration run changed while scheduling recovery"
    return (s.updateRuns (fun run => run.runId = r) fun run => { run with
        recoveryScheduleOriginHeight := some originHeight
        recoveryScheduleMaxBlockOffset := some generationMaxOffset },
      some ⟨originHeight, kept ++ assigned.map fun row => (row.1.txid, row.2)⟩)

/-! ### Small updates -/

/-- Record an attempt to broadcast a transaction. -/
def markPendingBroadcastAttempted (s : Store) (r : RunId) (txid : Txid) :
    Except String Store := do
  let selected (row : PendingTx) : Bool :=
    row.runId = r && row.txid = txid && row.status = .scheduled
  ensure (s.pendingTxs.countP selected = 1)
    s!"Migration transaction {txid} is no longer scheduled"
  return s.updatePendingTxs selected fun row => { row with broadcastAttempted := .attempted }

/-- Record the height at which proofs are tried again. -/
def setProofRetryHeight (s : Store) (r : RunId) (retryHeight : Nat) : Store :=
  s.updateRuns (fun run => run.runId = r)
    fun run => { run with proofRetryHeight := some retryHeight }

/-! ### What the operations may do -/

variable {l : Licence} {s s' : Store} {r : RunId}

/-- A refreshed legacy transaction differs in its broadcast height only. -/
theorem recoverLegacyScheduledHeight_keeps {pending pending' : PendingMigrationTxInsert}
    {blockOffset : Nat} (h : pending.recoverLegacyScheduledHeight blockOffset = .ok pending') :
  pending'.partIndex = pending.partIndex
  := by
  rw [PendingMigrationTxInsert.recoverLegacyScheduledHeight] at h
  split at h
  · obtain ⟨_, -, h⟩ := bind_eq_ok.mp h
    split at h
    · obtain ⟨_, -, h⟩ := bind_eq_ok.mp h
      obtain ⟨_, -, h⟩ := bind_eq_ok.mp h
      rw [pure_eq_ok] at h
      subst h
      split <;> rfl
    · rw [← pure_eq_ok.mp h]
  · rw [← pure_eq_ok.mp h]

/-- A checked transaction is for a part of the plan, with the expiry of its height. -/
theorem PendingBatch.add_eq_ok {batch batch' : PendingBatch} {run : MigrationRun}
    {schedule : List MigrationScheduleEntry} {pending : PendingMigrationTxInsert}
    (hvalid : validateSchedulePartIndexes schedule run.targetValues = .ok ())
    (h : PendingBatch.add s run schedule batch pending = .ok batch') :
  ∃ row, batch'.scheduledPending = batch.scheduledPending ++ [row] ∧ row.Fresh
    ∧ row.runId = run.runId ∧ ∀ i, row.partIndex = some i → i < run.targetValues.length
  := by
  simp only [PendingBatch.add, bind_eq_ok, pure_eq_ok, ensure_eq_ok, okOr_eq_ok] at h
  obtain ⟨_, -, entry, hentry, pending', hlegacy, origin, -, incoming, -, expiry, hexpiry, _,
    hcanonical, rfl⟩ := h
  use pending'.row run.runId origin (some pending'.scheduledHeight)
  refine ⟨rfl, ⟨⟨pending'.scheduledHeight, rfl, ?_⟩, rfl, rfl⟩, rfl, ?_⟩
  · rw [hexpiry, ← hcanonical]
    rfl
  · intro i hi
    obtain rfl : pending'.partIndex = i := by simpa [PendingMigrationTxInsert.row] using hi
    rw [recoverLegacyScheduledHeight_keeps hlegacy]
    apply lt_of_scheduleEntryForPart hvalid hentry

/-- The checked transactions of a batch are for parts of the plan. -/
theorem PendingBatch.foldlM_eq_ok {batch : PendingBatch} {run : MigrationRun}
    {schedule : List MigrationScheduleEntry} {pendingTxs : List PendingMigrationTxInsert}
    (hvalid : validateSchedulePartIndexes schedule run.targetValues = .ok ())
    (h : pendingTxs.foldlM (PendingBatch.add s run schedule) {} = .ok batch) :
  ∀ row ∈ batch.scheduledPending, row.Fresh ∧ row.runId = run.runId
    ∧ ∀ i, row.partIndex = some i → i < run.targetValues.length
  := by
  apply foldlM_invariant (I := fun batch : PendingBatch =>
    ∀ row ∈ batch.scheduledPending, row.Fresh ∧ row.runId = run.runId
      ∧ ∀ i, row.partIndex = some i → i < run.targetValues.length) _ _ h
  · intro batch batch' pending _ hbatch hadd row hrow
    obtain ⟨new, hnew, hfresh⟩ := PendingBatch.add_eq_ok hvalid hadd
    rw [hnew, List.mem_append, List.mem_singleton] at hrow
    rcases hrow with hrow | rfl
    · apply hbatch row hrow
    · apply hfresh
  · simp

theorem validateScheduleWithPolicy_partIndexes {schedule : List MigrationScheduleEntry}
    {targetValues : List Nat} {network : WalletNetwork} {timingPolicy : MigrationTimingPolicy}
    (h : validateScheduleWithPolicy schedule targetValues network timingPolicy = .ok ()) :
  validateSchedulePartIndexes schedule targetValues = .ok ()
  := by
  simp only [validateScheduleWithPolicy, bind_eq_ok] at h
  obtain ⟨_, -, _, -, _, h, -⟩ := h
  apply h

/-- Adding rows for parts of the plan is a sequence of insertions. -/
theorem insertPendingRows_evolves {rows : List PendingTx} {targetCount : Nat}
    (hrows : ∀ row ∈ rows, row.Fresh ∧ row.runId = r
      ∧ ∀ i, row.partIndex = some i → i < targetCount)
    (hcount : (s.run? r).map (·.targetValues.length) = some targetCount)
    (h : rows.foldlM insertPendingRow s = .ok s') :
  Evolves l s s'
  := by
  induction rows generalizing s with
  | nil =>
    obtain rfl : s = s' := by simpa using h
    apply Evolves.refl
  | cons row rows ih =>
    rw [List.foldlM_cons, bind_eq_ok] at h
    obtain ⟨t, ht, h⟩ := h
    simp only [insertPendingRow, bind_eq_ok, pure_eq_ok, ensure_eq_ok] at ht
    obtain ⟨_, hunused, rfl⟩ := ht
    obtain ⟨hfresh, hid, hpart⟩ := hrows row List.mem_cons_self
    apply Evolves.trans (Change.evolves _) (ih _ _ h)
    · apply Change.insert row
      · rfl
      · rfl
      · apply hfresh
      · apply hunused
      · obtain ⟨run, hrun, hlength⟩ := Option.map_eq_some_iff.mp hcount
        rw [hid]
        use run, hrun
        rw [hlength]
        apply hpart
    · intro other hother
      apply hrows other (List.mem_cons_of_mem _ hother)
    · apply hcount

/-- Other columns of a run do not count for its plan. -/
theorem run?_updateRuns {p : MigrationRun → Bool} {f : MigrationRun → MigrationRun}
    (hid : ∀ run, (f run).runId = run.runId) :
  (s.updateRuns p f).run? r = (s.run? r).map fun run => if p run then f run else run
  := by
  have hsame : ((fun run : MigrationRun => decide (run.runId = r))
      ∘ fun run => if p run then f run else run) = fun run => decide (run.runId = r) := by
    funext run
    by_cases hp : p run <;> simp [hp, hid]
  unfold run? updateRuns updateWhere
  rw [List.find?_map, hsame]

/-- Adding transactions writes the phase of their run. -/
theorem insertPendingTxsWithTx_evolves {pendingTxs : List PendingMigrationTxInsert}
    {generated : List MigrationScheduleEntry} (hphase : l.rephase r)
    (h : s.insertPendingTxsWithTx r pendingTxs generated = .ok s') :
  Evolves l s s'
  := by
  obtain ⟨run, hrun, h⟩ := bind_eq_ok.mp h
  obtain ⟨_, hvalid, h⟩ := bind_eq_ok.mp h
  obtain ⟨batch, hbatch, h⟩ := bind_eq_ok.mp h
  obtain ⟨t, ht, h⟩ := bind_eq_ok.mp h
  rw [pure_eq_ok] at h
  subst h
  rw [readRun, okOr_eq_ok] at hrun
  have hrunId : run.runId = r := by
    simpa using List.find?_some hrun
  have hrows := PendingBatch.foldlM_eq_ok (validateScheduleWithPolicy_partIndexes hvalid) hbatch
  rw [hrunId] at hrows
  set s₁ : Store := if run.schedule = [] then
      s.updateRuns (fun run => run.runId = r) fun run => { run with schedule := generated }
    else s with hs₁
  have h₁ : Evolves l s s₁ ∧ (s₁.run? r).map (·.targetValues) = some run.targetValues := by
    rw [hs₁]
    split
    · constructor
      · apply evolves_updateRuns_of_keep <;> simp
      · rw [run?_updateRuns (by simp), hrun]
        simp only [Option.map_some]
        split <;> rfl
    · exact ⟨Evolves.refl, by rw [hrun]; rfl⟩
  set s₂ : Store := match run.signedScheduleOriginHeight, batch.incomingInitialScheduleOrigin with
    | none, some origin =>
      s₁.updateRuns (fun run => run.runId = r && run.signedScheduleOriginHeight.isNone)
        fun run => { run with signedScheduleOriginHeight := some origin }
    | _, _ => s₁ with hs₂
  have h₂ : Evolves l s₁ s₂ ∧ (s₂.run? r).map (·.targetValues) = some run.targetValues := by
    rw [hs₂]
    split
    · constructor
      · apply evolves_updateRuns_of_keep <;> simp
      · rw [run?_updateRuns (by simp), Option.map_map, ← h₁.2]
        congr 1
        funext other
        simp only [Function.comp_apply]
        split <;> rfl
    · exact ⟨Evolves.refl, h₁.2⟩
  apply Evolves.trans h₁.1
  apply Evolves.trans h₂.1
  apply Evolves.trans (insertPendingRows_evolves hrows _ ht)
  · apply evolves_updateRuns
    intro other _ hother
    rw [decide_eq_true_eq] at hother
    refine ⟨rfl, ⟨rfl, rfl⟩, rfl, .inr ⟨.inr (.inl ?_), by simp⟩⟩
    rw [hother]
    apply hphase
  · have htargets := congrArg (Option.map List.length) h₂.2
    rw [Option.map_map] at htargets
    apply htargets

theorem insertPendingTxs_evolves {pendingTxs : List PendingMigrationTxInsert}
    {generated : List MigrationScheduleEntry} (hphase : pendingTxs ≠ [] → l.rephase r)
    (h : s.insertPendingTxs r pendingTxs generated = .ok s') :
  Evolves l s s'
  := by
  rw [insertPendingTxs] at h
  split at h
  · obtain rfl : s = s' := by simpa using h
    apply Evolves.refl
  · rename_i hne
    apply insertPendingTxsWithTx_evolves (hphase hne) h

theorem markInitialScheduleRebased_evolves {oldOrigin : Nat} :
  Evolves l s (s.markInitialScheduleRebased r oldOrigin)
  := by
  apply evolves_updateRuns_of_keep <;> simp

/-- The rebase changes signed children and other columns of the run. -/
theorem rebaseInitial_evolves {currentScannedHeight : Nat} {applied : Bool}
    (h : s.rebaseInitialSignedScheduleForAnchorReadiness r currentScannedHeight
      = .ok (s', applied)) :
  Evolves l s s'
  := by
  have hsame {t : Store} {b : Bool} (h : (pure (t, b) : Except String _) = .ok (s', applied)) :
      s' = t := by
    rw [pure_eq_ok, Prod.mk.injEq] at h
    apply h.1.symm
  obtain ⟨run, -, h⟩ := bind_eq_ok.mp h
  split at h
  · split at h
    · rw [hsame h]
      apply Evolves.refl
    · obtain ⟨children, -, h⟩ := bind_eq_ok.mp h
      dsimp only at h
      split at h
      · rw [hsame h]
        apply Evolves.refl
      · split at h
        · rw [hsame h]
          apply markInitialScheduleRebased_evolves
        · obtain ⟨decision, -, h⟩ := bind_eq_ok.mp h
          cases decision with
          | freeze =>
            rw [hsame h]
            apply markInitialScheduleRebased_evolves
          | leave =>
            rw [hsame h]
            apply Evolves.refl
          | shift updates =>
            obtain ⟨t, ht, h⟩ := bind_eq_ok.mp h
            rw [hsame h]
            apply Evolves.trans (evolves_foldlM _ ht)
            · apply evolves_updateRuns_of_keep <;> simp
            · intro u u' update _ hu
              simp only [rebaseChild, bind_eq_ok, pure_eq_ok] at hu
              obtain ⟨_, -, rfl⟩ := hu
              apply evolves_of_eq <;> rfl
  · rw [hsame h]
    apply Evolves.refl

theorem promoteSignedChildPcztsToPendingTxs_evolves
    {pendingTxs : List PendingMigrationTxInsert}
    {currentScannedHeight remainingChildRetryHeight : Nat}
    {generated : List MigrationScheduleEntry} (hphase : pendingTxs ≠ [] → l.rephase r)
    (h : s.promoteSignedChildPcztsToPendingTxs r pendingTxs currentScannedHeight
      remainingChildRetryHeight generated = .ok s') :
  Evolves l s s'
  := by
  rw [promoteSignedChildPcztsToPendingTxs] at h
  split at h
  · obtain rfl : s = s' := by simpa using h
    apply Evolves.refl
  · rename_i hne
    obtain ⟨_, -, h⟩ := bind_eq_ok.mp h
    obtain ⟨_, -, h⟩ := bind_eq_ok.mp h
    obtain ⟨⟨t, applied⟩, ht, h⟩ := bind_eq_ok.mp h
    obtain ⟨refreshed, -, h⟩ := bind_eq_ok.mp h
    obtain ⟨u, hu, h⟩ := bind_eq_ok.mp h
    rw [pure_eq_ok] at h
    subst h
    apply Evolves.trans (rebaseInitial_evolves ht)
    apply Evolves.trans (insertPendingTxsWithTx_evolves (hphase hne) hu)
    apply evolves_updateRuns_of_keep <;> simp

/-- Replacing a transaction needs the licence for the transaction that was read. -/
theorem replacePendingRow_evolves {recoveryOrigin : Option Nat}
    {replacement : PendingMigrationTxReplacement}
    (hlicence : ∀ old ∈ s.pendingTxs, old.runId = r → old.txid = replacement.oldTxid →
      old.status = .needsResign → ∀ row : PendingTx,
        row.partIndex = some replacement.replacement.partIndex → l.replace old row)
    (h : replacePendingRow r recoveryOrigin s replacement = .ok s') :
  Evolves l s s' ∧ ∀ row ∈ s'.pendingTxs, row.status = .needsResign → row ∈ s.pendingTxs
  := by
  simp only [replacePendingRow, bind_eq_ok, pure_eq_ok, okOr_eq_ok, ensure_eq_ok] at h
  obtain ⟨old, hold, _, -, _, -, expiry, hexpiry, _, hcanonical, start, -, _, -, _, hunused, rfl⟩ := h
  have hmem := List.mem_of_find?_eq_some hold
  have hfound := List.find?_some hold
  simp only [Bool.and_eq_true, decide_eq_true_eq] at hfound
  obtain ⟨⟨hrun, htxid⟩, hstatus⟩ := hfound
  constructor
  · apply Change.evolves
    apply Change.replace old _ fun row => row.runId = r && row.txid = replacement.oldTxid
    · rfl
    · rfl
    · apply hmem
    · apply hrun.symm
    · refine ⟨⟨replacement.replacement.scheduledHeight, rfl, ?_⟩, rfl, rfl⟩
      rw [hexpiry, ← hcanonical]
      rfl
    · apply hunused
    · apply hlicence old hmem hrun htxid hstatus
      rfl
  · intro row hrow hneeds
    rw [List.mem_append, List.mem_singleton] at hrow
    rcases hrow with hrow | rfl
    · apply (mem_deleteWhere.mp hrow).1
    · cases hneeds

theorem mem_of_mem_swapRemove {α : Type} {xs : List α} {i : Nat} {x : α}
    (h : x ∈ swapRemove xs i) :
  x ∈ xs
  := by
  rw [swapRemove] at h
  split at h
  · rename_i last hlast
    rcases List.mem_or_eq_of_mem_set (List.dropLast_subset _ h) with hx | rfl
    · apply hx
    · apply List.mem_of_getLast? hlast
  · cases h

/-- Every paired replacement is one of the replacements. -/
theorem mem_of_mem_scheduleReplacements {schedule : List MigrationScheduleEntry}
    {replacements : List PendingMigrationTxReplacement}
    {replacement : PendingMigrationTxReplacement}
    (h : replacement ∈ (scheduleReplacements schedule replacements).1) :
  replacement ∈ replacements
  := by
  induction schedule generalizing replacements with
  | nil => cases h
  | cons entry schedule ih =>
    rw [scheduleReplacements] at h
    split at h
    · apply ih h
    · rw [List.mem_append] at h
      rcases h with h | h
      · rw [Option.mem_toList] at h
        apply List.mem_of_getElem? h
      · apply mem_of_mem_swapRemove (ih h)

/-- Replacing transactions writes the phase of their run. -/
theorem replaceResignedPendingParts_evolves
    {replacements : List PendingMigrationTxReplacement}
    {signedChildren : List SignedMigrationPcztInsert} (hphase : replacements ≠ [] → l.rephase r)
    (hlicence : ∀ replacement ∈ replacements, ∀ old ∈ s.pendingTxs, old.runId = r →
      old.txid = replacement.oldTxid → ∀ row : PendingTx,
        row.partIndex = some replacement.replacement.partIndex → l.replace old row)
    (h : s.replaceResignedPendingParts r replacements signedChildren = .ok s') :
  Evolves l s s'
  := by
  rw [replaceResignedPendingParts] at h
  split at h
  · obtain rfl : s = s' := by simpa using h
    apply Evolves.refl
  · rename_i hne
    obtain ⟨run, -, h⟩ := bind_eq_ok.mp h
    obtain ⟨_, -, h⟩ := bind_eq_ok.mp h
    obtain ⟨t, ht, h⟩ := bind_eq_ok.mp h
    obtain ⟨u, hu, h⟩ := bind_eq_ok.mp h
    rw [pure_eq_ok] at h
    subst h
    have hst : Evolves l s t := (foldlM_invariant
      (I := fun t => Evolves l s t
        ∧ ∀ row ∈ t.pendingTxs, row.status = .needsResign → row ∈ s.pendingTxs)
      (by
        intro v v' replacement hmem ⟨hv, hrows⟩ hstep
        obtain ⟨hvv', hrows'⟩ := replacePendingRow_evolves
          (fun old hold hrun htxid hneeds row hrow => hlicence replacement
            (mem_of_mem_scheduleReplacements hmem) old (hrows old hold hneeds) hrun htxid row hrow)
          hstep
        constructor
        · apply Evolves.trans hv hvv'
        · intro row hrow hneeds
          apply hrows row (hrows' row hrow hneeds) hneeds)
      ⟨Evolves.refl, fun row hrow _ => hrow⟩ ht).1
    apply Evolves.trans hst
    apply Evolves.trans (insertSignedChildPczts_evolves hu)
    apply evolves_updateRuns
    intro other _ hother
    rw [decide_eq_true_eq] at hother
    refine ⟨rfl, ⟨rfl, rfl⟩, rfl, .inr ⟨.inr (.inl ?_), by simp⟩⟩
    rw [hother]
    apply hphase hne

theorem ensureRebuildScheduleGeneration_evolves {originCandidateHeight : Nat}
    {fresh : Txid → Nat} {generation : Option RebuildScheduleGeneration}
    (h : s.ensureRebuildScheduleGeneration r originCandidateHeight fresh
      = .ok (s', generation)) :
  Evolves l s s'
  := by
  rw [ensureRebuildScheduleGeneration] at h
  split at h
  · rw [pure_eq_ok, Prod.mk.injEq] at h
    obtain ⟨rfl, -⟩ := h
    apply Evolves.refl
  · obtain ⟨run, -, h⟩ := bind_eq_ok.mp h
    obtain ⟨_, -, h⟩ := bind_eq_ok.mp h
    obtain ⟨_, -, h⟩ := bind_eq_ok.mp h
    obtain ⟨_, -, h⟩ := bind_eq_ok.mp h
    obtain ⟨_, -, h⟩ := bind_eq_ok.mp h
    obtain ⟨assigned, -, h⟩ := bind_eq_ok.mp h
    obtain ⟨t, ht, h⟩ := bind_eq_ok.mp h
    obtain ⟨_, -, h⟩ := bind_eq_ok.mp h
    rw [pure_eq_ok, Prod.mk.injEq] at h
    obtain ⟨rfl, -⟩ := h
    apply Evolves.trans (evolves_foldlM _ ht)
    · apply evolves_updateRuns_of_keep <;> simp
    · intro u u' row _ hu
      simp only [assignRebuildOffset, bind_eq_ok, pure_eq_ok] at hu
      obtain ⟨_, -, rfl⟩ := hu
      apply evolves_updatePendingTxs
      intro row _ _
      exact ⟨rfl, rfl, fun _ => rfl, id, fun hs => .inl ⟨hs, rfl, rfl⟩⟩

theorem markPendingBroadcastAttempted_evolves {txid : Txid}
    (h : s.markPendingBroadcastAttempted r txid = .ok s') :
  Evolves l s s'
  := by
  simp only [markPendingBroadcastAttempted, bind_eq_ok, pure_eq_ok] at h
  obtain ⟨_, -, rfl⟩ := h
  apply evolves_updatePendingTxs
  intro row _ _
  exact ⟨rfl, rfl, fun _ => rfl, id, fun hs => .inl ⟨hs, rfl, rfl⟩⟩

theorem setProofRetryHeight_evolves {retryHeight : Nat} :
  Evolves l s (s.setProofRetryHeight r retryHeight)
  := by
  apply evolves_updateRuns_of_keep <;> simp

end Store

end Vizor
