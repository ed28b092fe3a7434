import Vizor.Swap.Quotes

/-!
# Evidence of a deposit

A swap waits for a deposit up to a deadline.  Whether there is evidence of a deposit is read off
the fields of the swap each time it is asked: the status that the provider gave last, the hash on
the chain of origin, the deposited amount, and the hash of the deposit together with how its
broadcast went.  The deadline turns a swap that still waits without evidence into an expired one,
and a swap with evidence is counted as pending, so that its account cannot be removed.
-/

namespace Vizor

open AddressBook (Text text trim isWhitespace lowerAscii)

namespace Swap

/-! ### Status -/

inductive SwapIntentStatus where
  | awaitingDeposit
  | awaitingExternalDeposit
  | depositObserved
  | processing
  | providerStatusUnknown
  | incompleteDeposit
  | complete
  | refunded
  | expired
  | failed
  deriving DecidableEq, Repr

namespace SwapIntentStatus

def isTerminal : SwapIntentStatus → Bool
  | complete | refunded | expired | failed => true
  | _ => false

def isAwaitingDeposit (status : SwapIntentStatus) : Bool :=
  status = awaitingDeposit || status = awaitingExternalDeposit

end SwapIntentStatus

/-! ### Swaps and snapshots -/

structure SwapProviderRefundInfo where
  minimumDepositText : Option Text
  refundFeeText : Option Text
  depositedAmountText : Option Text
  refundedAmountText : Option Text
  refundReason : Option Text
  deriving DecidableEq, Repr

namespace SwapProviderRefundInfo

def hasAny (info : SwapProviderRefundInfo) : Bool :=
  info.minimumDepositText.isSome || info.refundFeeText.isSome || info.depositedAmountText.isSome
    || info.refundedAmountText.isSome || info.refundReason.isSome

/-- The texts of `other`, and those of `info` that it lacks. -/
def merge (info : SwapProviderRefundInfo) : Option SwapProviderRefundInfo → SwapProviderRefundInfo
  | none => info
  | some other => {
    minimumDepositText := other.minimumDepositText.or info.minimumDepositText
    refundFeeText := other.refundFeeText.or info.refundFeeText
    depositedAmountText := other.depositedAmountText.or info.depositedAmountText
    refundedAmountText := other.refundedAmountText.or info.refundedAmountText
    refundReason := other.refundReason.or info.refundReason }

end SwapProviderRefundInfo

/-- A swap, which is the same as its record.  Times are in microseconds. -/
structure SwapIntent where
  id : Text
  provider : Text
  pair : Text
  sellAmount : Text
  receiveEstimate : Text
  status : SwapIntentStatus
  nextAction : Text
  depositAddress : Option Text
  depositMemo : Option Text
  depositTxHash : Option Text
  providerStatusRaw : Option Text
  nearIntentHash : Option Text
  originChainTxHash : Option Text
  destinationChainTxHash : Option Text
  providerRefundInfo : Option SwapProviderRefundInfo
  lastStatusCheckedAt : Option Int
  statusError : Option Text
  broadcastNotice : Option Text
  broadcastStatus : Option Text
  depositDeadline : Option Int
  updatedAt : Option Int
  completedAt : Option Int
  depositClaimedAt : Option Int
  deriving DecidableEq, Repr

structure SwapDepositInstruction where
  address : Text
  memo : Option Text
  deadline : Option Int
  deriving DecidableEq, Repr

/-- What the provider says of a swap. -/
structure SwapIntentSnapshot where
  providerLabel : Text
  pairText : Text
  sellAmountText : Text
  receiveEstimateText : Text
  status : SwapIntentStatus
  nextAction : Text
  depositInstruction : SwapDepositInstruction
  providerStatusRaw : Option Text
  nearIntentHash : Option Text
  originChainTxHash : Option Text
  destinationChainTxHash : Option Text
  providerRefundInfo : Option SwapProviderRefundInfo
  deriving DecidableEq, Repr

/-! ### Evidence -/

def hasText : Option Text → Bool
  | none => false
  | some value => trim value ≠ []

/-- Whether `double.tryParse` gives a finite number above zero, after rounding. -/
def isPositiveDouble (t : Text) : Bool :=
  let (negative, number) := splitSign (trim t)
  let value := (Shape.ofText (number.map lowerAscii)).value
  parsesAsDouble t && number ≠ text "NaN" && number ≠ text "Infinity" && !negative
    && 1 / 2 ^ 1075 < value && value < 2 ^ 1024 - 2 ^ 970

def isPositiveSwapAmountText : Option Text → Bool
  | none => false
  | some amountText =>
    let normalized := trim amountText
    let numericText := (normalized.takeWhile fun c => !isRegExpSpace c).filter (· ≠ 44)
    normalized ≠ [] && isPositiveDouble numericText

def pendingBroadcast : Text :=
  text "pending_broadcast"

def swapHasConfirmedDepositEvidence
    (originChainTxHash depositTxHash broadcastStatus : Option Text) : Bool :=
  let notOnNetwork := broadcastStatus = some pendingBroadcast
  hasText originChainTxHash || hasText depositTxHash && !notOnNetwork

def swapHasProviderObservedDepositEvidence (status : SwapIntentStatus)
    (originChainTxHash depositedAmountText : Option Text) : Bool :=
  if hasText originChainTxHash then true
  else if isPositiveSwapAmountText depositedAmountText then true
  else match status with
    | .depositObserved | .processing | .incompleteDeposit | .complete | .refunded => true
    | _ => false

namespace SwapIntent

def depositedAmountText (s : SwapIntent) : Option Text :=
  s.providerRefundInfo.bind (·.depositedAmountText)

def hasConfirmedDepositEvidence (s : SwapIntent) : Bool :=
  swapHasConfirmedDepositEvidence s.originChainTxHash s.depositTxHash s.broadcastStatus

def hasProviderObservedDepositEvidence (s : SwapIntent) : Bool :=
  swapHasProviderObservedDepositEvidence s.status s.originChainTxHash s.depositedAmountText

end SwapIntent

def recordHasDepositEvidence (record : SwapIntent) : Bool :=
  record.hasProviderObservedDepositEvidence || record.hasConfirmedDepositEvidence

/-! ### The deadline -/

def resolveDepositDeadlineStatus (providerStatus : SwapIntentStatus) (deadline : Option Int)
    (hasDepositEvidence : Bool) (now : Int) : SwapIntentStatus :=
  match deadline with
  | none => providerStatus
  | some deadline =>
    if !providerStatus.isAwaitingDeposit || hasDepositEvidence || now < deadline then providerStatus
    else .expired

def startFreshQuote : Text :=
  text "Start a fresh quote"

/-- The next action after the status `given` was resolved to `status`. -/
def nextActionFor (status given : SwapIntentStatus) (nextAction : Text) : Text :=
  if status = .expired ∧ given ≠ .expired then startFreshQuote else nextAction

/-- A record, resolved at a time. -/
def swapIntentFromRecord (record : SwapIntent) (now : Int) : SwapIntent :=
  let status := resolveDepositDeadlineStatus record.status record.depositDeadline
    (recordHasDepositEvidence record) now
  { record with
    status := status
    nextAction := nextActionFor status record.status record.nextAction
    completedAt := record.completedAt.or
      (if status.isTerminal ∧ record.status ≠ status then some now else none) }

/-! ### Changes of a swap -/

/-- The change after a new text of the broadcast: `updatedAt` is a given time or that of the
clock, and `now` is read off the clock when the record is resolved. -/
def swapIntentWithBroadcastNotice (intent : SwapIntent) (notice : Text)
    (broadcastStatus : Option Text) (updatedAt now : Int) : SwapIntent :=
  swapIntentFromRecord { intent with
    statusError := some notice
    broadcastNotice := some notice
    broadcastStatus := broadcastStatus.or intent.broadcastStatus
    updatedAt := some updatedAt } now

/-- The change after the transaction of the deposit was made. -/
def swapIntentWithDepositCheckpoint (intent : SwapIntent) (txHash : Text)
    (statusError broadcastNotice broadcastStatus : Option Text)
    (clearStatusError clearBroadcastNotice : Bool) (updatedAt now : Int) : SwapIntent :=
  swapIntentFromRecord { intent with
    depositTxHash := some txHash
    statusError :=
      if clearStatusError then none else (statusError.or broadcastNotice).or intent.statusError
    broadcastNotice :=
      if clearBroadcastNotice then none else broadcastNotice.or intent.broadcastNotice
    broadcastStatus :=
      if broadcastStatus = none ∧ broadcastNotice = none then none
      else broadcastStatus.or intent.broadcastStatus
    updatedAt := some updatedAt } now

/-- The information on refunds after a snapshot. -/
def mergedRefundInfo (intent : SwapIntent) (snapshot : SwapIntentSnapshot) :
    Option SwapProviderRefundInfo :=
  (intent.providerRefundInfo.map (·.merge snapshot.providerRefundInfo)).or
    snapshot.providerRefundInfo

/-- The hash on the chain of origin by which the deadline is resolved. -/
def knownOriginChainTxHash (intent : SwapIntent) (snapshot : SwapIntentSnapshot) : Option Text :=
  if hasText intent.originChainTxHash then intent.originChainTxHash else snapshot.originChainTxHash

/-- Whether a snapshot, with what the swap had before, is evidence of a deposit. -/
def snapshotHasDepositEvidence (intent : SwapIntent) (snapshot : SwapIntentSnapshot) : Bool :=
  swapHasProviderObservedDepositEvidence snapshot.status (knownOriginChainTxHash intent snapshot)
      ((mergedRefundInfo intent snapshot).bind (·.depositedAmountText))
    || swapHasConfirmedDepositEvidence (knownOriginChainTxHash intent snapshot)
      intent.depositTxHash intent.broadcastStatus

def updateSwapIntentFromSnapshot (intent : SwapIntent) (snapshot : SwapIntentSnapshot)
    (updatedAt : Int) (lastStatusCheckedAt : Option Int) (now : Int) : SwapIntent :=
  let depositDeadline := snapshot.depositInstruction.deadline.or intent.depositDeadline
  let status := resolveDepositDeadlineStatus snapshot.status depositDeadline
    (snapshotHasDepositEvidence intent snapshot) updatedAt
  swapIntentFromRecord { intent with
    provider := snapshot.providerLabel
    pair := snapshot.pairText
    sellAmount := snapshot.sellAmountText
    receiveEstimate := snapshot.receiveEstimateText
    status := status
    nextAction := nextActionFor status snapshot.status snapshot.nextAction
    providerStatusRaw := snapshot.providerStatusRaw.or intent.providerStatusRaw
    nearIntentHash := snapshot.nearIntentHash.or intent.nearIntentHash
    originChainTxHash := snapshot.originChainTxHash.or intent.originChainTxHash
    destinationChainTxHash := snapshot.destinationChainTxHash.or intent.destinationChainTxHash
    providerRefundInfo := (mergedRefundInfo intent snapshot).or intent.providerRefundInfo
    lastStatusCheckedAt := lastStatusCheckedAt.or intent.lastStatusCheckedAt
    depositAddress := intent.depositAddress.or (some snapshot.depositInstruction.address)
    depositMemo := (intent.depositMemo.or snapshot.depositInstruction.memo).or intent.depositMemo
    depositDeadline := depositDeadline.or intent.depositDeadline
    updatedAt := some updatedAt
    completedAt := (intent.completedAt.or (if status.isTerminal then some updatedAt else none)).or
      intent.completedAt } now

/-- A snapshot that the provider gave in return for the hash of the deposit.  The clock is read
once when the snapshot is resolved, and once more with the hash. -/
def swapIntentWithDepositSnapshot (intent : SwapIntent) (snapshot : SwapIntentSnapshot)
    (txHash : Text) (broadcastNotice : Option Text) (updatedAt snapshotNow now : Int) :
    SwapIntent :=
  let effectiveBroadcastNotice := broadcastNotice.or intent.broadcastNotice
  let updated := updateSwapIntentFromSnapshot intent snapshot updatedAt none snapshotNow
  let clear := effectiveBroadcastNotice = none
  swapIntentFromRecord { updated with
    depositTxHash := some txHash
    statusError := if clear then none else effectiveBroadcastNotice.or updated.statusError
    broadcastNotice := if clear then none else effectiveBroadcastNotice.or updated.broadcastNotice
    updatedAt := some updatedAt } now

/-! ### The store -/

/-- The texts without which a record is not read back. -/
def SwapIntent.requiredTexts (record : SwapIntent) : List Text :=
  [record.id, record.provider, record.pair, record.sellAmount, record.receiveEstimate]

/-- What is read back of a record that was written. -/
def reloadedRecord (record : SwapIntent) : Option SwapIntent :=
  if ∃ t ∈ record.requiredTexts, trim t = [] then none
  else some { record with providerRefundInfo := record.providerRefundInfo.filter (·.hasAny) }

/-- The records of an account after they were saved and loaded. -/
def loadRecords (records : List SwapIntent) : List SwapIntent :=
  records.filterMap reloadedRecord

def swapIntentsFromRecords (records : List SwapIntent) (now : Int) : List SwapIntent :=
  records.map (swapIntentFromRecord · now)

/-- Whether a swap keeps its account from being removed. -/
def SwapIntent.isPending (s : SwapIntent) : Bool :=
  !s.status.isTerminal
    && (s.hasProviderObservedDepositEvidence || s.hasConfirmedDepositEvidence
      || s.depositClaimedAt.isSome)

/-- The number of pending swaps among the records of an account. -/
def swapPendingIntentCount (records : List SwapIntent) (now : Int) : Nat :=
  ((swapIntentsFromRecords (loadRecords records) now).filter (·.isPending)).length

end Swap

end Vizor
