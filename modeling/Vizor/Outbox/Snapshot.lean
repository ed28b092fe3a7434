import Vizor.Lib.Run
import Mathlib.Data.List.Sort

/-!
# The snapshot of the background outbox

Signed transactions wait in batches, one for each run, and are sent one after the other while
the app is closed.  Every result is kept as a receipt, which the app acknowledges when it has
applied it.  An operation on the snapshot that fails changes nothing: the store writes the
snapshot only after the whole operation.
-/

namespace Vizor

namespace Outbox

/-! ### The data -/

inductive OutboxError where
  | invalidBatch
  | conflictingBatch
  | batchNotFound
  | itemNotFound
  | invalidArmRequest
  | invalidTransition
  | invalidSchedule
  deriving DecidableEq, Repr

inductive ItemStatus where
  | staged
  | armed
  | submitting
  | acceptedAwaitingReconciliation
  | rejectedAwaitingReconciliation
  | expiredAwaitingReconciliation
  | needsResignAwaitingReconciliation
  deriving DecidableEq, Repr

inductive ReceiptOutcome where
  | accepted
  | acceptedEquivalent
  | rejected
  | expired
  | needsResign
  deriving DecidableEq, Repr

def ReceiptOutcome.rawValue : ReceiptOutcome → String
  | accepted => "accepted"
  | acceptedEquivalent => "acceptedEquivalent"
  | rejected => "rejected"
  | expired => "expired"
  | needsResign => "needsResign"

/-- A signed transaction as the app hands it over. -/
structure RawItem where
  itemId : String
  partIndex : Nat
  txidHex : String
  rawTransaction : List UInt8
  anchorBoundaryHeight : Nat
  scheduledHeight : Nat
  scheduleStartHeight : Nat
  expiryHeight : Nat
  deriving DecidableEq, Repr

/-- A signed transaction. -/
structure Item extends RawItem where
  payloadDigestHex : String
  status : ItemStatus := .staged
  attemptCount : Nat := 0
  attemptId : Option String := none
  attemptStartedAt : Option Nat := none
  nextAttemptAt : Option Nat := none
  lastError : Option String := none
  deriving DecidableEq, Repr

/-- The transactions of a run, and the height at which its next proof can be made. -/
structure Batch where
  batchId : String
  network : String
  accountUuid : String
  runId : String
  lightwalletdUrl : String
  timingMeanBlocks : Nat
  timingMaxBlocks : Nat
  createdAt : Nat
  armedAt : Option Nat := none
  nextProofHeight : Option Nat := none
  proofReadyNotificationPendingAt : Option Nat := none
  proofReadyNotifiedAt : Option Nat := none
  proofReadyHeightNoticePendingAt : Option Nat := none
  proofReadyHeightNoticedAt : Option Nat := none
  broadcastCompleteNotificationPendingAt : Option Nat := none
  broadcastCompleteNotifiedAt : Option Nat := none
  items : List Item
  deriving DecidableEq, Repr

/-- A batch as the app hands it over. -/
structure RawBatch where
  batchId : String
  network : String
  accountUuid : String
  runId : String
  lightwalletdUrl : String
  timingMeanBlocks : Nat
  timingMaxBlocks : Nat
  createdAt : Nat
  nextProofHeight : Option Nat
  items : List RawItem
  deriving DecidableEq, Repr

structure ScheduleUpdate where
  itemId : String
  scheduledHeight : Nat
  scheduleStartHeight : Nat
  deriving DecidableEq, Repr

/-- The result of a transaction. -/
structure Receipt where
  receiptId : String
  batchId : String
  itemId : String
  network : String
  accountUuid : String
  runId : String
  txidHex : String
  outcome : ReceiptOutcome
  remoteHeight : Nat
  responseCode : Option Int
  responseMessage : Option String
  recordedAt : Nat
  scheduleUpdates : List ScheduleUpdate
  deriving DecidableEq, Repr

structure Snapshot where
  batches : List Batch := []
  receipts : List Receipt := []
  lastAttemptedScopeKey : Option String := none
  lastInspectedEndpoint : Option String := none
  announcedBroadcastCompleteBatchIds : Option (List String) := none
  deriving DecidableEq, Repr

/-- The transaction that is to be sent next. -/
structure Selection where
  batchId : String
  accountUuid : String
  scopeKey : String
  lightwalletdUrl : String
  item : Item
  deriving DecidableEq, Repr

namespace Batch

def scopeKey (b : Batch) : String :=
  b.network ++ ":" ++ b.accountUuid

/-- The user is still owed the announcement that a proof can be made. -/
def awaitsProofReadyAnnouncement (b : Batch) : Bool :=
  b.proofReadyNotifiedAt.isNone
    && (b.proofReadyNotificationPendingAt.isSome || b.proofReadyHeightNoticedAt.isNone
      || b.proofReadyHeightNoticePendingAt.isSome)

end Batch

/-! ### Functions of the platform -/

/-- The functions on text and data that the system provides. -/
structure Platform where
  digestHex : List UInt8 → String
  lowercased : String → String
  lowercased_lowercased : ∀ text, lowercased (lowercased text) = lowercased text

/-- The random draws of a rescheduling: the order of the overdue items, and the delays. -/
structure Draws where
  shuffled : List Nat → List Nat
  shuffled_perm : ∀ indexes, (shuffled indexes).Perm indexes
  sampled : Nat → Nat

/-! ### Cadence -/

def u64Max : Nat := 18446744073709551615

def saturatingAdd (a b : Nat) : Nat :=
  min (a + b) u64Max

/-- The seconds after an attempt until the next one. -/
def retryDelay : Nat → Nat
  | 0 | 1 => 60
  | 2 => 5 * 60
  | 3 => 15 * 60
  | _ => 60 * 60

/-- A delay of at least one block and at most the maximum. -/
def sampleDelay (sampled maxBlocks : Nat) : Nat :=
  min (max 1 sampled) maxBlocks

/-- The expiry height of a transaction that is sent at `height`. -/
@[irreducible] def canonicalExpiryHeight (height : Nat) : Option Nat :=
  let expiryHeight := height - height % 34560 + 34560 * 2
  if expiryHeight ≤ u64Max then some expiryHeight else none

/-! ### Items -/

namespace Item

variable (P : Platform)

/-- A transaction as it is handed over. -/
def ofRaw (raw : RawItem) : Item :=
  { itemId := raw.itemId
    partIndex := raw.partIndex
    txidHex := P.lowercased raw.txidHex
    rawTransaction := raw.rawTransaction
    payloadDigestHex := P.digestHex raw.rawTransaction
    anchorBoundaryHeight := raw.anchorBoundaryHeight
    scheduledHeight := raw.scheduledHeight
    scheduleStartHeight := raw.scheduleStartHeight
    expiryHeight := raw.expiryHeight }

/-- The item under a new schedule. -/
def replacingSchedule (i : Item) (scheduledHeight scheduleStartHeight : Nat) : Item :=
  { ofRaw P { i with
      scheduledHeight := scheduledHeight, scheduleStartHeight := scheduleStartHeight } with
    status := i.status
    attemptCount := i.attemptCount
    nextAttemptAt := i.nextAttemptAt
    lastError := i.lastError }

/-- The outcome of the attempt that was running is unknown. -/
def uncertain (i : Item) (error : String) (date : Nat) : Item :=
  { i with
    status := .armed
    attemptCount := i.attemptCount + 1
    nextAttemptAt := some (date + retryDelay (i.attemptCount + 1))
    lastError := some error
    attemptId := none
    attemptStartedAt := none }

/-- The attempt that was running has a result. -/
def settled (i : Item) (status : ItemStatus) : Item :=
  { i with status, attemptId := none, attemptStartedAt := none, nextAttemptAt := none }

/-- The item can be sent now. -/
def isDue (i : Item) (remoteHeight date : Nat) : Bool :=
  i.status = .armed && i.scheduledHeight ≤ remoteHeight && remoteHeight < i.expiryHeight
    && i.nextAttemptAt.all (· ≤ date)

end Item

def decodeBatch (P : Platform) (raw : RawBatch) : Batch :=
  { batchId := raw.batchId
    network := raw.network
    accountUuid := raw.accountUuid
    runId := raw.runId
    lightwalletdUrl := raw.lightwalletdUrl
    timingMeanBlocks := raw.timingMeanBlocks
    timingMaxBlocks := raw.timingMaxBlocks
    createdAt := raw.createdAt
    nextProofHeight := raw.nextProofHeight
    items := raw.items.map (Item.ofRaw P) }

/-- The receipt for an item of a batch. -/
def makeReceipt (b : Batch) (i : Item) (outcome : ReceiptOutcome) (remoteHeight : Nat)
    (responseCode : Option Int) (responseMessage : Option String)
    (scheduleUpdates : List ScheduleUpdate) (date : Nat) : Receipt :=
  { receiptId := b.batchId ++ ":" ++ i.itemId ++ ":" ++ outcome.rawValue
    batchId := b.batchId
    itemId := i.itemId
    network := b.network
    accountUuid := b.accountUuid
    runId := b.runId
    txidHex := i.txidHex
    outcome, remoteHeight, responseCode, responseMessage
    recordedAt := date
    scheduleUpdates }

end Outbox

end Vizor
