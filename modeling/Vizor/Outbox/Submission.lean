import Vizor.Outbox.Operations

/-!
# Submissions of the outbox

An armed item is submitted, and its result is accepted, rejected, or unknown; an unknown
result, like a submission that was interrupted, leaves the number of its attempts.  What
expired or has to be signed again is put aside.  The acknowledgement of receipts removes the
items of the receipts, and the batches with a terminal receipt.
-/

namespace Vizor

open Run

namespace Outbox

/-- A batch that waits for the app. -/
def Batch.paused (b : Batch) (items : List Item) : Batch :=
  { b with armedAt := none, nextProofHeight := none, items := items }

/-- A batch without some items. -/
def Batch.without (b : Batch) (itemIds : List String) : Batch :=
  { b with items := b.items.filter (·.itemId ∉ itemIds) }

namespace Snapshot

/-! ### Items that are put aside -/

/-- Put the items that meet `aside` under a status with a receipt for each. -/
def putAside (s : Snapshot) (aside : Item → Bool) (status : ItemStatus)
    (outcome : ReceiptOutcome) (message : Option String) (remoteHeight : Nat)
    (endpoint : String) (date : Nat) : Snapshot :=
  { s with
    batches := s.batches.map fun b =>
      if b.lightwalletdUrl = endpoint ∧ b.items.any aside then
        b.paused (b.items.map fun i => if aside i then { i with status := status } else i)
      else b
    receipts := s.receipts ++ (s.batches.filter (·.lightwalletdUrl = endpoint)).flatMap fun b =>
      (b.items.filter aside).map fun i =>
        makeReceipt b i outcome remoteHeight none message [] date }

def expireItems (s : Snapshot) (remoteHeight : Nat) (endpoint : String) (date : Nat) :
    Snapshot :=
  s.putAside (fun i => i.status = .armed && i.expiryHeight ≤ remoteHeight)
    .expiredAwaitingReconciliation .expired none remoteHeight endpoint date

def markDueItemsNeedingResign (s : Snapshot) (remoteHeight : Nat) (endpoint : String)
    (date : Nat) : Snapshot :=
  match canonicalExpiryHeight remoteHeight with
  | none => s
  | some expiryHeight =>
    s.putAside (fun i => i.status = .armed && i.scheduledHeight ≤ remoteHeight
        && i.expiryHeight ≠ expiryHeight)
      .needsResignAwaitingReconciliation .needsResign
      (some "Broadcast height crossed a ZIP 318 expiry boundary.") remoteHeight endpoint date

/-! ### Submission -/

def beginSubmission (s : Snapshot) (itemId attemptId : String) (date : Nat) :
    Except OutboxError Snapshot := do
  let location ← s.itemLocation itemId
  ensure (location.found.status = .armed) .invalidTransition
  return s.modifyItem location fun i => { i with
    status := .submitting
    attemptId := some attemptId
    attemptStartedAt := some date }

/-- The overdue items could be scheduled again one block after the other. -/
def validateReschedulingAfterAcceptance (s : Snapshot) (itemId : String) (remoteHeight : Nat) :
    Except OutboxError Unit := do
  let location ← s.itemLocation itemId
  let expiryHeights := ((location.owner.items.filter fun i => i.itemId ≠ itemId
    && i.status = .armed && i.scheduledHeight ≤ remoteHeight).map
      (·.expiryHeight)).insertionSort (· ≤ ·)
  let _ ← expiryHeights.foldlM (fun (nextHeight : Nat) expiryHeight => do
    ensure (nextHeight + 1 ≤ u64Max ∧ nextHeight + 1 < expiryHeight) OutboxError.invalidSchedule
    return nextHeight + 1) remoteHeight
  return ()

/-! ### Results -/

def recordUncertain (s : Snapshot) (itemId error : String) (date : Nat) :
    Except OutboxError Snapshot := do
  let location ← s.itemLocation itemId
  ensure (location.found.status = .submitting) .invalidTransition
  return s.modifyItem location (·.uncertain error date)

def recordCancelledBeforeSubmission (s : Snapshot) (itemId error : String) :
    Except OutboxError Snapshot := do
  let location ← s.itemLocation itemId
  ensure (location.found.status = .submitting) .invalidTransition
  return s.modifyItem location fun i => { i with
    status := .armed
    nextAttemptAt := none
    lastError := some error
    attemptId := none
    attemptStartedAt := none }

/-- Schedule the overdue items at `indexes` one after the other. -/
def rescheduleEach (P : Platform) (draws : Draws) (maxBlocks remoteHeight : Nat) :
    List Nat → Nat → Nat → List Item → List ScheduleUpdate →
      Except OutboxError (List Item × List ScheduleUpdate)
  | [], _, _, items, updates => .ok (items, updates)
  | index :: rest, offset, elapsed, items, updates => do
    let item ← okOr items[index]? .itemNotFound
    let remainingCount := rest.length
    ensure (remainingCount + 1 < item.expiryHeight) .invalidSchedule
    let latestHeight := item.expiryHeight - remainingCount - 1
    let currentHeight := saturatingAdd remoteHeight elapsed
    ensure (currentHeight < latestHeight) .invalidSchedule
    let boundedMax := min maxBlocks (latestHeight - currentHeight)
    let elapsed := saturatingAdd elapsed (sampleDelay (draws.sampled offset) boundedMax)
    let scheduledHeight := saturatingAdd remoteHeight elapsed
    rescheduleEach P draws maxBlocks remoteHeight rest (offset + 1) elapsed
      (items.modify index fun i => i.replacingSchedule P scheduledHeight remoteHeight)
      (updates ++ [⟨item.itemId, scheduledHeight, remoteHeight⟩])

/-- Schedule the other armed items of a batch that are overdue, by their expiry heights. -/
def rescheduleOverdueItems (P : Platform) (draws : Draws) (b : Batch) (itemId : String)
    (remoteHeight : Nat) : Except OutboxError (List Item × List ScheduleUpdate) := do
  ensure (0 < b.timingMeanBlocks ∧ 0 < b.timingMaxBlocks
    ∧ b.timingMeanBlocks ≤ b.timingMaxBlocks) .invalidSchedule
  let overdue := (b.items.zipIdx.filter fun y => y.1.itemId ≠ itemId && y.1.status = .armed
    && y.1.scheduledHeight ≤ remoteHeight).map (·.2)
  let ordered := (draws.shuffled overdue).insertionSort fun j k =>
    (b.items[j]?.map (·.expiryHeight)).getD 0 ≤ (b.items[k]?.map (·.expiryHeight)).getD 0
  rescheduleEach P draws b.timingMaxBlocks remoteHeight ordered 0 0 b.items []

def recordAccepted (P : Platform) (draws : Draws) (s : Snapshot) (itemId : String)
    (equivalent : Bool) (remoteHeight : Nat) (responseCode : Int) (responseMessage : String)
    (date : Nat) : Except OutboxError Snapshot := do
  let location ← s.itemLocation itemId
  ensure (location.found.status = .submitting) .invalidTransition
  let settledItems :=
    location.owner.items.modify location.item (·.settled .acceptedAwaitingReconciliation)
  let accepted := { location.owner with items := settledItems }
  let (items, updates) ← rescheduleOverdueItems P draws accepted itemId remoteHeight
  let receipt := makeReceipt accepted location.found
    (if equivalent then .acceptedEquivalent else .accepted) remoteHeight (some responseCode)
    (some responseMessage) updates date
  let s' := s.modifyBatch location.batch fun b => { b with items := items }
  return { s' with receipts := s.receipts ++ [receipt] }

def recordRejected (s : Snapshot) (itemId : String) (remoteHeight : Nat) (responseCode : Int)
    (responseMessage : String) (date : Nat) : Except OutboxError Snapshot := do
  let location ← s.itemLocation itemId
  ensure (location.found.status = .submitting) .invalidTransition
  let receipt := makeReceipt location.owner location.found .rejected remoteHeight
    (some responseCode) (some responseMessage) [] date
  let s' := s.modifyBatch location.batch fun b =>
    b.paused (b.items.modify location.item (·.settled .rejectedAwaitingReconciliation))
  return { s' with receipts := s.receipts ++ [receipt] }

/-! ### Acknowledgement -/

/-- The outcomes after which the rest of the batch is rebuilt. -/
def isTerminal : ReceiptOutcome → Bool
  | .rejected | .expired | .needsResign => true
  | .accepted | .acceptedEquivalent => false

/-- The receipts that are acknowledged. -/
def acknowledged (s : Snapshot) (receiptIds : List String) : List Receipt :=
  s.receipts.filter (·.receiptId ∈ receiptIds)

/-- A batch has a terminal receipt that is acknowledged, and no receipt that is not. -/
def isRemovable (s : Snapshot) (receiptIds : List String) (batchId : String) : Bool :=
  (s.acknowledged receiptIds).any (fun r => isTerminal r.outcome && r.batchId = batchId)
    && !(s.receipts.any fun r => r.receiptId ∉ receiptIds && r.batchId = batchId)

def acknowledgeReceipts (s : Snapshot) (receiptIds : List String) : Snapshot :=
  let acknowledgedItemIds := (s.acknowledged receiptIds).map (·.itemId)
  let kept := s.batches.filter fun b => !s.isRemovable receiptIds b.batchId
  let pruned := kept.map (·.without acknowledgedItemIds)
  { s with
    receipts := s.receipts.filter (·.receiptId ∉ receiptIds)
    batches := pruned.filter fun b => ¬ (b.items = [] ∧ b.nextProofHeight = none
      ∧ b.broadcastCompleteNotificationPendingAt = none) }

/-- Remove a batch that has no delivery state. -/
def discardBatch (s : Snapshot) (batchId : String) : Except OutboxError (Bool × Snapshot) :=
  match s.findBatch batchId with
  | none => .ok (false, s)
  | some (batch, index) => do
    ensure ((¬ batch.items.any fun i => i.status = .submitting || 0 < i.attemptCount)
      ∧ ¬ s.receipts.any (·.batchId = batchId)) .conflictingBatch
    return (true, { s with batches := s.batches.eraseIdx index })

/-! ### Attempts -/

/-- The item may have reached the network. -/
def isAttempted (i : Item) : Bool :=
  0 < i.attemptCount || match i.status with
    | .submitting | .acceptedAwaitingReconciliation | .rejectedAwaitingReconciliation => true
    | _ => false

/-- The transactions of a run that may have reached the network. -/
def listAttemptedTxids (s : Snapshot) (network accountUuid runId : String) : List String :=
  let matching := s.batches.filter fun b =>
    b.network = network && b.accountUuid = accountUuid && b.runId = runId
  ((matching.flatMap (·.items)).filter isAttempted).map (·.txidHex)

end Snapshot

end Outbox

end Vizor
