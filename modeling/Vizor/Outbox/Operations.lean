import Vizor.Outbox.Snapshot

/-!
# Operations on the snapshot of the outbox

The app stages and arms the transactions of a run, recovers and discards them, and
acknowledges receipts.  The background task recovers the submission that was interrupted, puts
aside what expired or has to be signed again, selects what is due, submits it, and records the
result.
-/

namespace Vizor

open Run

namespace Outbox

/-! ### Places in the snapshot -/

/-- The place of an item. -/
structure Location where
  batch : Nat
  item : Nat
  owner : Batch
  found : Item

namespace Snapshot

/-- The first batch with an id. -/
def findBatch (s : Snapshot) (batchId : String) : Option (Batch × Nat) :=
  s.batches.zipIdx.find? fun x => x.1.batchId = batchId

/-- The first item with an id. -/
def itemLocation (s : Snapshot) (itemId : String) : Except OutboxError Location :=
  okOr (s.batches.zipIdx.findSome? fun x =>
      (x.1.items.zipIdx.find? fun y => y.1.itemId = itemId).map fun y =>
        { batch := x.2, item := y.2, owner := x.1, found := y.1 })
    .itemNotFound

/-- Change the batch at a place. -/
def modifyBatch (s : Snapshot) (index : Nat) (f : Batch → Batch) : Snapshot :=
  { s with batches := s.batches.modify index f }

/-- Change the item at a place. -/
def modifyItem (s : Snapshot) (location : Location) (f : Item → Item) : Snapshot :=
  s.modifyBatch location.batch fun b => { b with items := b.items.modify location.item f }

/-! ### Staging -/

/-- An item that is staged again has to be the same; a new one has its own transaction and
part. -/
def restageItem (existing items : List Item) (incoming : Item) :
    Except OutboxError (List Item) :=
  match existing.find? fun i => i.itemId = incoming.itemId with
  | some i => do
    ensure (i.partIndex = incoming.partIndex ∧ i.txidHex = incoming.txidHex
        ∧ i.payloadDigestHex = incoming.payloadDigestHex
        ∧ i.anchorBoundaryHeight = incoming.anchorBoundaryHeight
        ∧ i.expiryHeight = incoming.expiryHeight) .conflictingBatch
    return items
  | none => do
    ensure (¬ existing.any fun i => i.txidHex = incoming.txidHex
        || i.partIndex = incoming.partIndex) .conflictingBatch
    return items ++ [incoming]

/-- A batch that is staged again. -/
def restage (existing batch : Batch) : Except OutboxError Batch := do
  let submitting := existing.items.any (·.status = .submitting)
  ensure (existing.network = batch.network ∧ existing.accountUuid = batch.accountUuid
    ∧ existing.runId = batch.runId) .conflictingBatch
  ensure (existing.lightwalletdUrl = batch.lightwalletdUrl ∨ ¬ submitting) .conflictingBatch
  ensure (existing.timingMeanBlocks = batch.timingMeanBlocks
    ∧ existing.timingMaxBlocks = batch.timingMaxBlocks ∨ ¬ submitting) .conflictingBatch
  let items ← batch.items.foldlM (restageItem existing.items) existing.items
  let proofChanged := existing.nextProofHeight ≠ batch.nextProofHeight
  let announceAgain := existing.items.length < items.length ∨ proofChanged
  return { existing with
    lightwalletdUrl := batch.lightwalletdUrl
    timingMeanBlocks := batch.timingMeanBlocks
    timingMaxBlocks := batch.timingMaxBlocks
    nextProofHeight := batch.nextProofHeight
    proofReadyNotificationPendingAt :=
      if proofChanged then none else existing.proofReadyNotificationPendingAt
    proofReadyNotifiedAt := if proofChanged then none else existing.proofReadyNotifiedAt
    proofReadyHeightNoticePendingAt :=
      if proofChanged then none else existing.proofReadyHeightNoticePendingAt
    proofReadyHeightNoticedAt :=
      if proofChanged then none else existing.proofReadyHeightNoticedAt
    broadcastCompleteNotificationPendingAt :=
      if announceAgain then none else existing.broadcastCompleteNotificationPendingAt
    broadcastCompleteNotifiedAt :=
      if announceAgain then none else existing.broadcastCompleteNotifiedAt
    items := items }

/-- A batch that can be staged. -/
def WellFormed (P : Platform) (b : Batch) : Prop :=
  b.batchId ≠ "" ∧ b.network ≠ "" ∧ b.accountUuid ≠ "" ∧ b.runId ≠ "" ∧ b.lightwalletdUrl ≠ ""
    ∧ 0 < b.timingMeanBlocks ∧ 0 < b.timingMaxBlocks ∧ b.timingMeanBlocks ≤ b.timingMaxBlocks
    ∧ (b.items ≠ [] ∨ b.nextProofHeight ≠ none)
    ∧ b.proofReadyNotificationPendingAt = none ∧ b.proofReadyNotifiedAt = none
    ∧ b.proofReadyHeightNoticePendingAt = none ∧ b.proofReadyHeightNoticedAt = none
    ∧ b.broadcastCompleteNotificationPendingAt = none ∧ b.broadcastCompleteNotifiedAt = none
    ∧ (b.items.map (·.itemId)).Nodup ∧ (b.items.map (·.txidHex)).Nodup
    ∧ ∀ i ∈ b.items, i.itemId ≠ "" ∧ i.txidHex ≠ "" ∧ i.rawTransaction ≠ []
      ∧ i.payloadDigestHex = P.digestHex i.rawTransaction ∧ i.scheduledHeight < i.expiryHeight
      ∧ i.status = .staged

instance {P : Platform} {b : Batch} : Decidable (WellFormed P b) := by
  unfold WellFormed
  infer_instance

def stage (P : Platform) (s : Snapshot) (batch : Batch) : Except OutboxError Snapshot := do
  ensure (WellFormed P batch) .invalidBatch
  match s.findBatch batch.batchId with
  | some (existing, index) => do
    let restaged ← restage existing batch
    return s.modifyBatch index fun _ => restaged
  | none => return { s with batches := s.batches ++ [batch] }

/-! ### Arming and recovery -/

def armBatch (s : Snapshot) (batchId : String) (expectedDigests : List (String × String))
    (date : Nat) : Except OutboxError Snapshot := do
  let (batch, index) ← okOr (s.findBatch batchId) .batchNotFound
  ensure ((expectedDigests ≠ [] ∨ batch.nextProofHeight ≠ none)
    ∧ ∀ entry ∈ expectedDigests, ∃ i ∈ batch.items,
      i.itemId = entry.1 ∧ i.payloadDigestHex = entry.2) .invalidArmRequest
  return s.modifyBatch index fun b => { b with
    armedAt := b.armedAt.or (some date)
    items := b.items.map fun i =>
      if i.itemId ∈ expectedDigests.map (·.1) ∧ i.status = .staged then
        { i with status := .armed }
      else i }

/-- A submission that was interrupted has an unknown outcome. -/
def interrupted (date : Nat) (i : Item) : Item :=
  if i.status = .submitting then i.uncertain "The previous submission outcome is unknown." date
  else i

/-- What the recovery of a batch makes of an item. -/
def recovered (date : Nat) (i : Item) : Item :=
  if i.status = .staged then { i with status := .armed } else interrupted date i

def recoverBatch (P : Platform) (s : Snapshot) (batchId network accountUuid runId : String)
    (expectedTxids : List String) (lightwalletdUrl : String) (date : Nat) :
    Except OutboxError (Bool × Snapshot) := do
  ensure (expectedTxids ≠ [] ∧ lightwalletdUrl ≠ "") .invalidArmRequest
  match s.findBatch batchId with
  | none => return (false, s)
  | some (batch, index) => do
    ensure (batch.network = network ∧ batch.accountUuid = accountUuid ∧ batch.runId = runId
      ∧ batch.items ≠ []
      ∧ ∀ i ∈ batch.items, i.txidHex ∈ expectedTxids.map P.lowercased) .conflictingBatch
    return (true, s.modifyBatch index fun b =>
      let items := b.items.map (recovered date)
      { b with
        lightwalletdUrl := lightwalletdUrl
        armedAt :=
          if items.any (·.status = .armed) then b.armedAt.or (some date) else b.armedAt
        items := items })

def recoverInterruptedSubmissions (s : Snapshot) (date : Nat) : Snapshot :=
  { s with batches :=
      s.batches.map fun b => { b with items := b.items.map (interrupted date) } }

/-! ### Turns -/

/-- The text after the last one, in turns. -/
def nextInTurn (last : Option String) (ordered : List String) : Option String :=
  match last.bind ordered.idxOf? with
  | some index => ordered[(index + 1) % ordered.length]?
  | none => ordered.head?

/-- The texts of a list once each, in order. -/
def sortedSet (texts : List String) : List String :=
  texts.dedup.insertionSort (· ≤ ·)

def nextEndpointForInspection (s : Snapshot) : Option String × Snapshot :=
  let endpoints := sortedSet ((s.batches.filter fun b => b.armedAt.isSome
    && (b.items.any (·.status = .armed)
      || b.nextProofHeight.isSome && b.awaitsProofReadyAnnouncement)).map (·.lightwalletdUrl))
  match nextInTurn s.lastInspectedEndpoint endpoints with
  | none => (none, s)
  | some selected => (some selected, { s with lastInspectedEndpoint := some selected })

def selectDue (s : Snapshot) (remoteHeight : Nat) (endpoint : Option String) (date : Nat) :
    Option Selection × Snapshot :=
  let candidates := s.batches.filter fun b => endpoint.all (· = b.lightwalletdUrl)
    && b.armedAt.isSome && b.items.any (·.isDue remoteHeight date)
  let selection := do
    let selectedScope ←
      nextInTurn s.lastAttemptedScopeKey (sortedSet (candidates.map (·.scopeKey)))
    let batch ← candidates.find? (·.scopeKey = selectedScope)
    let item ← ((batch.items.filter (·.isDue remoteHeight date)).insertionSort fun i j =>
      i.scheduledHeight < j.scheduledHeight
        ∨ i.scheduledHeight = j.scheduledHeight ∧ i.txidHex ≤ j.txidHex).head?
    return Selection.mk batch.batchId batch.accountUuid batch.scopeKey batch.lightwalletdUrl item
  match selection with
  | none => (none, s)
  | some selected =>
    (some selected, { s with lastAttemptedScopeKey := some selected.scopeKey })

end Snapshot

end Outbox

end Vizor
