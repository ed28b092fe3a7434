import Vizor.Outbox.Operations

/-!
# Announcements of the outbox

The user is told once that a proof can be made, with a weaker notice where the readiness
cannot be verified, and once that every transaction of a batch was sent.  An announcement
stays pending until its delivery is acknowledged.
-/

namespace Vizor

open Run

namespace Outbox

/-- What is to be announced of a batch. -/
structure ProofReadyMetadata where
  batchId : String
  observedHeight : Nat
  verified : Bool := true
  deriving DecidableEq, Repr

namespace Snapshot

/-- The order of announcements. -/
def proofOrder (a b : Batch) : Prop :=
  a.nextProofHeight.getD 0 < b.nextProofHeight.getD 0
    ∨ a.nextProofHeight.getD 0 = b.nextProofHeight.getD 0 ∧ a.batchId ≤ b.batchId

instance : DecidableRel proofOrder := fun a b => by
  unfold proofOrder
  infer_instance

/-! ### Proofs that can be made -/

def proofReadinessCandidate (s : Snapshot) (remoteHeight : Nat) (endpoint : String) :
    Option ProofReadyMetadata :=
  (((s.batches.filter fun b => b.nextProofHeight.any (· ≤ remoteHeight)
      && b.lightwalletdUrl = endpoint && b.armedAt.isSome
      && b.awaitsProofReadyAnnouncement).insertionSort proofOrder).head?).map fun b =>
    { batchId := b.batchId, observedHeight := remoteHeight }

def markProofReadyIfNeeded (s : Snapshot) (remoteHeight : Nat) (endpoint : String)
    (date : Nat) : Option ProofReadyMetadata × Snapshot :=
  match s.proofReadinessCandidate remoteHeight endpoint with
  | none => (none, s)
  | some candidate =>
    match s.findBatch candidate.batchId with
    | none => (none, s)
    | some (_, index) => (some candidate, s.modifyBatch index fun b => { b with
        proofReadyNotificationPendingAt := b.proofReadyNotificationPendingAt.or (some date) })

def recordVerifiedProofReadiness (s : Snapshot) (network accountUuid runId : String)
    (date : Nat) : Bool × Snapshot :=
  let candidates := s.batches.zipIdx.filter fun x => x.1.network = network
    && x.1.accountUuid = accountUuid && x.1.runId = runId && x.1.armedAt.isSome
    && x.1.nextProofHeight.isSome
  match (candidates.insertionSort fun x y => proofOrder x.1 y.1).head? with
  | none => (false, s)
  | some (_, index) => (true, s.modifyBatch index fun b => { b with
      proofReadyNotificationPendingAt :=
        if b.proofReadyNotifiedAt.isNone && b.proofReadyNotificationPendingAt.isNone then
          some date
        else b.proofReadyNotificationPendingAt })

def acknowledgeProofReadyNotification (s : Snapshot) (batchId : String) (date : Nat) :
    Except OutboxError Snapshot := do
  let (batch, index) ← okOr (s.findBatch batchId) .batchNotFound
  ensure (batch.proofReadyNotificationPendingAt ≠ none) .invalidTransition
  return s.modifyBatch index fun b => { b with
    proofReadyNotificationPendingAt := none
    proofReadyNotifiedAt := some date }

/-! ### Notices that are not verified -/

def markUnverifiedProofReadyNoticeIfNeeded (s : Snapshot) (batchId : String) (date : Nat) :
    Option ProofReadyMetadata × Snapshot :=
  match s.findBatch batchId with
  | none => (none, s)
  | some (batch, index) =>
    match batch.nextProofHeight with
    | none => (none, s)
    | some nextProofHeight =>
      if batch.armedAt.isSome ∧ batch.proofReadyNotifiedAt = none
          ∧ batch.proofReadyNotificationPendingAt = none
          ∧ batch.proofReadyHeightNoticePendingAt = none
          ∧ batch.proofReadyHeightNoticedAt = none then
        (some { batchId := batchId, observedHeight := nextProofHeight, verified := false },
          s.modifyBatch index fun b => { b with proofReadyHeightNoticePendingAt := some date })
      else (none, s)

def acknowledgeUnverifiedProofReadyNotice (s : Snapshot) (batchId : String) (date : Nat) :
    Except OutboxError Snapshot := do
  let (batch, index) ← okOr (s.findBatch batchId) .batchNotFound
  ensure (batch.proofReadyHeightNoticePendingAt ≠ none) .invalidTransition
  return s.modifyBatch index fun b => { b with
    proofReadyHeightNoticePendingAt := none
    proofReadyHeightNoticedAt := some date }

/-! ### Batches that were sent -/

def markBroadcastCompleteIfNeeded (s : Snapshot) (batchId : String) (date : Nat) :
    Option String × Snapshot :=
  match s.findBatch batchId with
  | none => (none, s)
  | some (batch, index) =>
    if batch.nextProofHeight = none ∧ batch.broadcastCompleteNotifiedAt = none
        ∧ batchId ∉ s.announcedBroadcastCompleteBatchIds.getD [] ∧ batch.items ≠ []
        ∧ ∀ i ∈ batch.items, i.status = .acceptedAwaitingReconciliation then
      (some batchId, s.modifyBatch index fun b => { b with
        broadcastCompleteNotificationPendingAt :=
          b.broadcastCompleteNotificationPendingAt.or (some date) })
    else (none, s)

def acknowledgeBroadcastCompleteNotification (s : Snapshot) (batchId : String) (date : Nat) :
    Except OutboxError Snapshot := do
  let (batch, index) ← okOr (s.findBatch batchId) .batchNotFound
  ensure (batch.broadcastCompleteNotificationPendingAt ≠ none) .invalidTransition
  let announced := s.announcedBroadcastCompleteBatchIds.getD []
  let announcedIds :=
    if batchId ∈ announced then s.announcedBroadcastCompleteBatchIds
    else some (announced ++ [batchId])
  let s' := { s with announcedBroadcastCompleteBatchIds := announcedIds }
  if batch.items = [] ∧ batch.nextProofHeight = none then
    return { s' with batches := s'.batches.eraseIdx index }
  else
    return s'.modifyBatch index fun b => { b with
      broadcastCompleteNotificationPendingAt := none
      broadcastCompleteNotifiedAt := some date }

end Snapshot

end Outbox

end Vizor
