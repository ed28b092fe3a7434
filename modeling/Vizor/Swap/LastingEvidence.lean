import Vizor.Swap.DepositEvidence

/-!
# Evidence that lasts

A swap is watched from any state on.  Once it has shown evidence of a deposit, the deadline should
not turn it into an expired one, and while it is not terminal it should be counted as pending
whenever the count is made.  Both are so along a run exactly when every step leaves evidence in
the fields that it writes, or a claim of the user that no deadline ends, or a terminal status.
-/

namespace Vizor

open AddressBook (Text text trim)

namespace Swap

/-! ### Steps -/

/-- What may happen to a swap, with the times that are read off the clock. -/
inductive SwapStep where
  | snapshot (snapshot : SwapIntentSnapshot) (updatedAt : Int) (lastStatusCheckedAt : Option Int)
      (now : Int)
  | depositSnapshot (snapshot : SwapIntentSnapshot) (txHash : Text)
      (broadcastNotice : Option Text) (updatedAt snapshotNow now : Int)
  | depositCheckpoint (txHash : Text) (statusError broadcastNotice broadcastStatus : Option Text)
      (clearStatusError clearBroadcastNotice : Bool) (updatedAt now : Int)
  | broadcastNotice (notice : Text) (broadcastStatus : Option Text) (updatedAt now : Int)
  | restore (now : Int)

namespace SwapStep

/-- The swap after a step, unless its record is not read back. -/
def apply (s : SwapIntent) : SwapStep → Option SwapIntent
  | snapshot σ updatedAt lastStatusCheckedAt now =>
    some (updateSwapIntentFromSnapshot s σ updatedAt lastStatusCheckedAt now)
  | depositSnapshot σ txHash notice updatedAt snapshotNow now =>
    some (swapIntentWithDepositSnapshot s σ txHash notice updatedAt snapshotNow now)
  | depositCheckpoint txHash statusError notice broadcastStatus clearStatusError
      clearBroadcastNotice updatedAt now =>
    some (swapIntentWithDepositCheckpoint s txHash statusError notice broadcastStatus
      clearStatusError clearBroadcastNotice updatedAt now)
  | broadcastNotice notice broadcastStatus updatedAt now =>
    some (swapIntentWithBroadcastNotice s notice broadcastStatus updatedAt now)
  | restore now => (reloadedRecord s).map (swapIntentFromRecord · now)

/-- The status that a swap has before the deadline is looked at. -/
def reported (s : SwapIntent) : SwapStep → SwapIntentStatus
  | snapshot σ .. | depositSnapshot σ .. => σ.status
  | _ => s.status

/-- The deadline turns the swap into an expired one. -/
def Expires (step : SwapStep) (s : SwapIntent) : Prop :=
  step.reported s ≠ .expired ∧ ∃ s' ∈ step.apply s, s'.status = .expired

end SwapStep

/-! ### Watching a swap -/

/-- A swap with the note whether it has shown evidence of a deposit. -/
structure WatchedSwap where
  intent : Option SwapIntent
  shown : Bool

/-- The swap adds one to the count of its account, whatever other swaps there are. -/
def SwapIntent.Counts (s : SwapIntent) : Prop :=
  ∀ (now : Int) (before after : List SwapIntent),
    swapPendingIntentCount (before ++ s :: after) now
      = swapPendingIntentCount (before ++ after) now + 1

namespace WatchedSwap

def start (s : SwapIntent) : WatchedSwap :=
  ⟨some s, recordHasDepositEvidence s⟩

def next (w : WatchedSwap) (step : SwapStep) : WatchedSwap :=
  let intent := w.intent.bind step.apply
  ⟨intent, w.shown || intent.any recordHasDepositEvidence⟩

/-- A swap that has shown evidence counts while it is not terminal. -/
def Counts (w : WatchedSwap) : Prop :=
  w.shown → ∀ s ∈ w.intent, ¬ s.status.isTerminal → s.Counts

/-- The deadline does not turn a swap that has shown evidence into an expired one, and it counts
after the step while it is not terminal. -/
def Lasts (w : WatchedSwap) (step : SwapStep) : Prop :=
  (w.shown → ∀ s ∈ w.intent, ¬ step.Expires s) ∧ (w.next step).Counts

end WatchedSwap

/-- The evidence of a deposit lasts along a run from `s`. -/
def EvidenceLasts (s : SwapIntent) (steps : List SwapStep) : Prop :=
  (WatchedSwap.start s).Counts ∧ Run.Along WatchedSwap.next WatchedSwap.Lasts (.start s) steps

/-! ### What a step leaves -/

/-- The fields by which a swap is judged. -/
structure DepositFacts where
  requiredTexts : List Text
  status : SwapIntentStatus
  originChainTxHash : Option Text
  depositedAmountText : Option Text
  depositTxHash : Option Text
  broadcastStatus : Option Text
  depositDeadline : Option Int
  depositClaimedAt : Option Int

def SwapIntent.facts (s : SwapIntent) : DepositFacts where
  requiredTexts := s.requiredTexts
  status := s.status
  originChainTxHash := s.originChainTxHash
  depositedAmountText := s.depositedAmountText
  depositTxHash := s.depositTxHash
  broadcastStatus := s.broadcastStatus
  depositDeadline := s.depositDeadline
  depositClaimedAt := s.depositClaimedAt

/-- A snapshot brings the status and the texts, and what else it has goes before what the swap
had. -/
def SwapIntentSnapshot.facts (s : SwapIntent) (σ : SwapIntentSnapshot) : DepositFacts where
  requiredTexts := [s.id, σ.providerLabel, σ.pairText, σ.sellAmountText, σ.receiveEstimateText]
  status := σ.status
  originChainTxHash := σ.originChainTxHash.or s.originChainTxHash
  depositedAmountText :=
    (σ.providerRefundInfo.bind (·.depositedAmountText)).or s.depositedAmountText
  depositTxHash := s.depositTxHash
  broadcastStatus := s.broadcastStatus
  depositDeadline := σ.depositInstruction.deadline.or s.depositDeadline
  depositClaimedAt := s.depositClaimedAt

namespace SwapStep

/-- The fields as a step writes them, with the status that is reported. -/
def facts (s : SwapIntent) : SwapStep → DepositFacts
  | snapshot σ .. => σ.facts s
  | depositSnapshot σ txHash .. => { σ.facts s with depositTxHash := some txHash }
  | depositCheckpoint txHash _ notice broadcastStatus .. =>
    { s.facts with
      depositTxHash := some txHash
      broadcastStatus :=
        if broadcastStatus = none ∧ notice = none then none
        else broadcastStatus.or s.broadcastStatus }
  | broadcastNotice _ broadcastStatus .. =>
    { s.facts with broadcastStatus := broadcastStatus.or s.broadcastStatus }
  | restore _ => s.facts

end SwapStep

namespace DepositFacts

variable (f : DepositFacts)

def hasEvidence : Bool :=
  swapHasProviderObservedDepositEvidence f.status f.originChainTxHash f.depositedAmountText
    || swapHasConfirmedDepositEvidence f.originChainTxHash f.depositTxHash f.broadcastStatus

/-- The status is terminal, or the record can be read back and has evidence, or a claim of the
user that no deadline ends. -/
def Stay : Prop :=
  f.status.isTerminal
    ∨ (∀ t ∈ f.requiredTexts, trim t ≠ [])
      ∧ (f.hasEvidence
        ∨ f.depositClaimedAt.isSome ∧ (f.status.isAwaitingDeposit → f.depositDeadline = none))

/-- A deadline may turn the status into expired. -/
def MayExpire : Prop :=
  f.status.isAwaitingDeposit ∧ f.depositDeadline.isSome ∧ f.hasEvidence = false

end DepositFacts

/-- A snapshot that is resolved at two times is past the deadline without evidence. -/
def SwapIntentSnapshot.Late (s : SwapIntent) (σ : SwapIntentSnapshot) (updatedAt now : Int) :
    Prop :=
  σ.status.isAwaitingDeposit
    ∧ ∃ deadline ∈ (σ.facts s).depositDeadline,
      snapshotHasDepositEvidence s σ = false ∧ deadline ≤ updatedAt
        ∨ (σ.facts s).hasEvidence = false ∧ deadline ≤ now

/-- A snapshot that came in return for the hash of the deposit is late before the hash is put
in. -/
def SwapStep.Late (s : SwapIntent) : SwapStep → Prop
  | depositSnapshot σ _ _ updatedAt snapshotNow _ => σ.Late s updatedAt snapshotNow
  | _ => False

/-- A step of a swap that has shown evidence, or shows it now, leaves fields by which the evidence
stays, and is not late. -/
def WatchedSwap.Keeps (w : WatchedSwap) (step : SwapStep) : Prop :=
  ∀ s ∈ w.intent,
    (step.Late s → ¬ w.shown)
      ∧ (¬ step.Late s → w.shown ∨ (step.facts s).hasEvidence → (step.facts s).Stay)

/-! ### The deadline -/

theorem resolveDepositDeadlineStatus_eq_self {status : SwapIntentStatus} {deadline : Option Int}
    {evidence : Bool} {now : Int}
    (h : status.isAwaitingDeposit → ∀ d ∈ deadline, evidence ∨ now < d) :
  resolveDepositDeadlineStatus status deadline evidence now = status
  := by
  cases deadline with
  | none => rfl
  | some d =>
    apply if_pos
    cases hstatus : status.isAwaitingDeposit with
    | false => rfl
    | true => simpa using h hstatus d rfl

theorem resolveDepositDeadlineStatus_eq_expired {status : SwapIntentStatus} {d : Int} {now : Int}
    (hstatus : status.isAwaitingDeposit) (hnow : d ≤ now) :
  resolveDepositDeadlineStatus status (some d) false now = .expired
  := by
  apply if_neg
  simp [hstatus, hnow]

/-- The fields after the deadline was looked at. -/
inductive Resolved (f : DepositFacts) : DepositFacts → Prop
  | same : Resolved f f
  | expired (h : f.MayExpire) : Resolved f { f with status := .expired }

theorem Resolved.trans {f g h : DepositFacts} (hfg : Resolved f g) (hgh : Resolved g h) :
  Resolved f h
  := by
  cases hfg with
  | same => exact hgh
  | expired hf =>
    cases hgh with
    | same => exact .expired hf
    | expired hg => exact absurd hg.1 Bool.false_ne_true

theorem Resolved.eq_or_status {f g : DepositFacts} (h : Resolved f g) :
  g = f ∨ f.MayExpire ∧ g.status = .expired
  := by
  cases h with
  | same => exact .inl rfl
  | expired hf => exact .inr ⟨hf, rfl⟩

theorem resolved_status (f : DepositFacts) {evidence : Bool} {now : Int}
    (h : f.hasEvidence → evidence) :
  Resolved f
    { f with status := resolveDepositDeadlineStatus f.status f.depositDeadline evidence now }
  := by
  by_cases hf : f.MayExpire
  · obtain ⟨hstatus, hdeadline, hevidence⟩ := hf
    obtain ⟨d, hd⟩ := Option.isSome_iff_exists.mp hdeadline
    by_cases hnow : evidence ∨ now < d
    · rw [resolveDepositDeadlineStatus_eq_self]
      · exact .same
      · intro _ d' hd'
        rw [hd, Option.mem_some] at hd'
        rwa [← hd']
    · rw [not_or, Bool.not_eq_true, not_lt] at hnow
      obtain ⟨rfl, hnow⟩ := hnow
      rw [hd, resolveDepositDeadlineStatus_eq_expired hstatus hnow, ← hd]
      exact .expired ⟨hstatus, hdeadline, hevidence⟩
  · rw [resolveDepositDeadlineStatus_eq_self]
    · exact .same
    · intro hstatus d hd
      left
      apply h
      by_contra hevidence
      apply hf ⟨hstatus, _, by simpa using hevidence⟩
      rw [Option.isSome_iff_exists]
      exact ⟨d, hd⟩

/-- Looking at the deadline changes the status alone. -/
theorem facts_swapIntentFromRecord (record : SwapIntent) (now : Int) :
  (swapIntentFromRecord record now).facts
    = { record.facts with
        status := resolveDepositDeadlineStatus record.status record.depositDeadline
          (recordHasDepositEvidence record) now }
  := rfl

theorem resolved_swapIntentFromRecord (record : SwapIntent) (now : Int) :
  Resolved record.facts (swapIntentFromRecord record now).facts
  := resolved_status record.facts id

theorem status_swapIntentFromRecord_of_expired {record : SwapIntent}
    (h : record.status = .expired) (now : Int) :
  (swapIntentFromRecord record now).status = .expired
  := by
  obtain hsame | ⟨-, hexpired⟩ := (resolved_swapIntentFromRecord record now).eq_or_status
  · apply (congrArg DepositFacts.status hsame).trans h
  · apply hexpired

/-! ### Snapshots -/

variable {s : SwapIntent} {σ : SwapIntentSnapshot}

theorem depositedAmountText_mergedRefundInfo (s : SwapIntent) (σ : SwapIntentSnapshot) :
  (mergedRefundInfo s σ).bind (·.depositedAmountText) = (σ.facts s).depositedAmountText
  := by
  unfold mergedRefundInfo SwapIntentSnapshot.facts SwapIntent.depositedAmountText
  cases s.providerRefundInfo with
  | none => simp
  | some info => cases σ.providerRefundInfo <;> simp [SwapProviderRefundInfo.merge]

theorem mergedRefundInfo_or (s : SwapIntent) (σ : SwapIntentSnapshot) :
  (mergedRefundInfo s σ).or s.providerRefundInfo = mergedRefundInfo s σ
  := by
  unfold mergedRefundInfo
  cases s.providerRefundInfo with
  | none => simp
  | some info => simp

/-- The hash by which the deadline is resolved has a text if the one that is kept does. -/
theorem hasText_knownOriginChainTxHash (h : hasText (σ.facts s).originChainTxHash) :
  hasText (knownOriginChainTxHash s σ)
  := by
  unfold knownOriginChainTxHash
  split_ifs with hs
  · apply hs
  · cases hσ : σ.originChainTxHash with
    | none =>
      rw [SwapIntentSnapshot.facts, hσ, Option.none_or] at h
      exact absurd h hs
    | some hash => simpa [SwapIntentSnapshot.facts, hσ] using h

/-- A hash on the chain of origin only adds to the evidence. -/
theorem evidence_of_origin {status : SwapIntentStatus}
    {origin origin' amount tx broadcast : Option Text}
    (horigin : hasText origin → hasText origin')
    (h : swapHasProviderObservedDepositEvidence status origin amount
      || swapHasConfirmedDepositEvidence origin tx broadcast) :
  swapHasProviderObservedDepositEvidence status origin' amount
    || swapHasConfirmedDepositEvidence origin' tx broadcast
  := by
  by_cases horigin' : hasText origin'
  · simp [swapHasConfirmedDepositEvidence, horigin']
  · have hnone : hasText origin = false := by
      rw [← Bool.not_eq_true]
      apply mt horigin horigin'
    rw [Bool.not_eq_true] at horigin'
    simpa [swapHasProviderObservedDepositEvidence, swapHasConfirmedDepositEvidence, hnone,
      horigin'] using h

/-- Evidence that a snapshot leaves was evidence when the deadline was resolved. -/
theorem snapshotHasDepositEvidence_of_hasEvidence (h : (σ.facts s).hasEvidence) :
  snapshotHasDepositEvidence s σ
  := by
  unfold snapshotHasDepositEvidence
  rw [depositedAmountText_mergedRefundInfo]
  apply evidence_of_origin hasText_knownOriginChainTxHash h

theorem facts_updateSwapIntentFromSnapshot (s : SwapIntent) (σ : SwapIntentSnapshot)
    (updatedAt : Int) (lastStatusCheckedAt : Option Int) (now : Int) :
  ∃ record : SwapIntent,
    record.facts = { σ.facts s with
        status := resolveDepositDeadlineStatus σ.status (σ.facts s).depositDeadline
          (snapshotHasDepositEvidence s σ) updatedAt }
      ∧ updateSwapIntentFromSnapshot s σ updatedAt lastStatusCheckedAt now
        = swapIntentFromRecord record now
  := by
  refine ⟨_, ?_, rfl⟩
  have hor : (σ.depositInstruction.deadline.or s.depositDeadline).or s.depositDeadline
      = σ.depositInstruction.deadline.or s.depositDeadline := by
    cases σ.depositInstruction.deadline <;> cases s.depositDeadline <;> rfl
  simp only [SwapIntent.facts, SwapIntent.depositedAmountText, mergedRefundInfo_or,
    depositedAmountText_mergedRefundInfo, hor, SwapIntent.requiredTexts, SwapIntentSnapshot.facts]

theorem resolved_updateSwapIntentFromSnapshot (s : SwapIntent) (σ : SwapIntentSnapshot)
    (updatedAt : Int) (lastStatusCheckedAt : Option Int) (now : Int) :
  Resolved (σ.facts s) (updateSwapIntentFromSnapshot s σ updatedAt lastStatusCheckedAt now).facts
  := by
  obtain ⟨record, hrecord, h⟩ :=
    facts_updateSwapIntentFromSnapshot s σ updatedAt lastStatusCheckedAt now
  have hresolved : Resolved (σ.facts s) record.facts := by
    rw [hrecord]
    apply resolved_status _ snapshotHasDepositEvidence_of_hasEvidence
  rw [h]
  apply hresolved.trans
  apply resolved_swapIntentFromRecord

/-- A snapshot that is late is turned into an expired one. -/
theorem status_updateSwapIntentFromSnapshot_of_late {updatedAt now : Int}
    (h : σ.Late s updatedAt now) (lastStatusCheckedAt : Option Int) :
  (updateSwapIntentFromSnapshot s σ updatedAt lastStatusCheckedAt now).status = .expired
  := by
  obtain ⟨hstatus, deadline, hdeadline, h⟩ := h
  obtain ⟨record, hrecord, hupdate⟩ :=
    facts_updateSwapIntentFromSnapshot s σ updatedAt lastStatusCheckedAt now
  have hresolved : Resolved (σ.facts s) record.facts := by
    rw [hrecord]
    apply resolved_status _ snapshotHasDepositEvidence_of_hasEvidence
  rw [Option.mem_def] at hdeadline
  rw [hupdate]
  obtain ⟨hevidence, hle⟩ | ⟨hevidence, hle⟩ := h
  · apply status_swapIntentFromRecord_of_expired
    calc record.status
      _ = resolveDepositDeadlineStatus σ.status (σ.facts s).depositDeadline
          (snapshotHasDepositEvidence s σ) updatedAt := congrArg DepositFacts.status hrecord
      _ = .expired := by
        rw [hdeadline, hevidence, resolveDepositDeadlineStatus_eq_expired hstatus hle]
  · obtain hsame | ⟨-, hexpired⟩ := hresolved.eq_or_status
    · calc (swapIntentFromRecord record now).status
        _ = resolveDepositDeadlineStatus record.facts.status record.facts.depositDeadline
            record.facts.hasEvidence now := rfl
        _ = .expired := by
          rw [hsame, hdeadline, hevidence]
          apply resolveDepositDeadlineStatus_eq_expired hstatus hle
    · apply status_swapIntentFromRecord_of_expired hexpired

/-- A snapshot that is not late leaves the fields as it writes them. -/
theorem facts_updateSwapIntentFromSnapshot_of_not_late {updatedAt now : Int}
    (h : ¬ σ.Late s updatedAt now) (lastStatusCheckedAt : Option Int) :
  (updateSwapIntentFromSnapshot s σ updatedAt lastStatusCheckedAt now).facts = σ.facts s
  := by
  obtain ⟨record, hrecord, hupdate⟩ :=
    facts_updateSwapIntentFromSnapshot s σ updatedAt lastStatusCheckedAt now
  have hsame : record.facts = σ.facts s := by
    rw [hrecord, resolveDepositDeadlineStatus_eq_self]
    · rfl
    · intro hstatus deadline hdeadline
      by_contra hor
      rw [not_or, Bool.not_eq_true, not_lt] at hor
      apply h ⟨hstatus, deadline, hdeadline, .inl hor⟩
  have hstatus : record.facts.status = σ.status := by
    rw [hsame]
    rfl
  calc (updateSwapIntentFromSnapshot s σ updatedAt lastStatusCheckedAt now).facts
    _ = { record.facts with
          status := resolveDepositDeadlineStatus record.facts.status record.facts.depositDeadline
            record.facts.hasEvidence now } := by
      rw [hupdate]
      rfl
    _ = σ.facts s := by
      rw [hsame, resolveDepositDeadlineStatus_eq_self]
      intro hstatus deadline hdeadline
      by_contra hor
      rw [not_or, Bool.not_eq_true, not_lt] at hor
      apply h ⟨hstatus, deadline, hdeadline, .inr hor⟩

/-! ### One step -/

variable {step : SwapStep}

theorem status_facts (step : SwapStep) (s : SwapIntent) :
  (step.facts s).status = step.reported s
  := by
  cases step <;> rfl

theorem facts_reloadedRecord {s' : SwapIntent} (h : reloadedRecord s = some s') :
  s'.facts = s.facts
  := by
  unfold reloadedRecord at h
  split_ifs at h
  rw [← Option.some_inj.mp h]
  have hamount :
      (s.providerRefundInfo.filter (·.hasAny)).bind (·.depositedAmountText)
        = s.depositedAmountText := by
    unfold SwapIntent.depositedAmountText
    cases s.providerRefundInfo with
    | none => rfl
    | some info =>
      cases hany : info.hasAny with
      | true => simp [Option.filter, hany]
      | false =>
        simp only [SwapProviderRefundInfo.hasAny, Bool.or_eq_false_iff, Option.isSome_eq_false_iff,
          Option.isNone_iff_eq_none] at hany
        simp [Option.filter, SwapProviderRefundInfo.hasAny, hany]
  simp only [SwapIntent.facts, SwapIntent.depositedAmountText, SwapIntent.requiredTexts]
    at hamount ⊢
  rw [hamount]

/-- A step that is late ends in an expired swap. -/
theorem expires_of_late (h : step.Late s) :
  step.Expires s
  := by
  cases step with
  | depositSnapshot σ txHash notice updatedAt snapshotNow now =>
    constructor
    · intro hexpired
      have hstatus := h.1
      rw [SwapStep.reported] at hexpired
      rw [hexpired] at hstatus
      cases hstatus
    · refine ⟨_, rfl, ?_⟩
      apply status_swapIntentFromRecord_of_expired
      apply status_updateSwapIntentFromSnapshot_of_late h
  | _ => exact h.elim

theorem resolved_of_record {record s' : SwapIntent} {f : DepositFacts} {now : Int}
    (h : s' = swapIntentFromRecord record now) (hf : record.facts = f) :
  Resolved f s'.facts
  := by
  rw [h, ← hf]
  apply resolved_swapIntentFromRecord

/-- A step that is not late leaves the fields as it writes them, but for the deadline. -/
theorem resolved_apply (h : ¬ step.Late s) {s' : SwapIntent} (h' : step.apply s = some s') :
  Resolved (step.facts s) s'.facts
  := by
  cases step with
  | snapshot σ updatedAt lastStatusCheckedAt now =>
    rw [← Option.some_inj.mp h']
    apply resolved_updateSwapIntentFromSnapshot
  | depositSnapshot σ txHash notice updatedAt snapshotNow now =>
    have hsame := facts_updateSwapIntentFromSnapshot_of_not_late h none
    apply resolved_of_record (Option.some_inj.mp h').symm
    rw [SwapStep.facts, ← hsame]
    rfl
  | depositCheckpoint =>
    apply resolved_of_record (Option.some_inj.mp h').symm
    rfl
  | broadcastNotice =>
    apply resolved_of_record (Option.some_inj.mp h').symm
    rfl
  | restore now =>
    obtain ⟨record, hrecord, rfl⟩ := Option.map_eq_some_iff.mp h'
    apply resolved_of_record rfl
    apply facts_reloadedRecord hrecord

/-! ### Counting -/

theorem isPending_iff :
  s.isPending ↔ ¬ s.facts.status.isTerminal
    ∧ (s.facts.hasEvidence ∨ s.facts.depositClaimedAt.isSome)
  := by
  have hpending : s.isPending = (!s.facts.status.isTerminal
      && (s.facts.hasEvidence || s.facts.depositClaimedAt.isSome)) := rfl
  simp [hpending]

theorem exists_reloadedRecord :
  (∃ record, reloadedRecord s = some record) ↔ ∀ t ∈ s.facts.requiredTexts, trim t ≠ []
  := by
  have hmissing : (¬ ∃ t ∈ s.requiredTexts, trim t = [])
      ↔ ∀ t ∈ s.facts.requiredTexts, trim t ≠ [] := by
    push Not
    rfl
  rw [← hmissing]
  unfold reloadedRecord
  split_ifs with h <;> simp [h]

theorem swapPendingIntentCount_append (records records' : List SwapIntent) (now : Int) :
  swapPendingIntentCount (records ++ records') now
    = swapPendingIntentCount records now + swapPendingIntentCount records' now
  := by
  simp [swapPendingIntentCount, swapIntentsFromRecords, loadRecords]

theorem swapPendingIntentCount_singleton {now : Int} :
  swapPendingIntentCount [s] now = 1
    ↔ ∃ record, reloadedRecord s = some record ∧ (swapIntentFromRecord record now).isPending
  := by
  cases hrecord : reloadedRecord s with
  | none => simp [swapPendingIntentCount, swapIntentsFromRecords, loadRecords, hrecord]
  | some record =>
    cases hpending : (swapIntentFromRecord record now).isPending <;>
      simp [swapPendingIntentCount, swapIntentsFromRecords, loadRecords, hrecord, hpending]

theorem counts_iff_singleton :
  s.Counts ↔ ∀ now, swapPendingIntentCount [s] now = 1
  := by
  constructor
  · intro h now
    apply h now [] []
  · intro h now before after
    have hcons : before ++ s :: after = before ++ ([s] ++ after) := rfl
    rw [hcons, swapPendingIntentCount_append, swapPendingIntentCount_append,
      swapPendingIntentCount_append, h now]
    omega

theorem not_isAwaitingDeposit_of_isTerminal {status : SwapIntentStatus} (h : status.isTerminal) :
  ¬ status.isAwaitingDeposit
  := by
  cases status <;> simp_all [SwapIntentStatus.isTerminal, SwapIntentStatus.isAwaitingDeposit]

theorem DepositFacts.Stay.not_mayExpire {f : DepositFacts} (h : f.Stay) :
  ¬ f.MayExpire
  := by
  rintro ⟨hstatus, hdeadline, hevidence⟩
  obtain hterminal | ⟨-, hsome | ⟨-, hnone⟩⟩ := h
  · apply not_isAwaitingDeposit_of_isTerminal hterminal hstatus
  · rw [hevidence] at hsome
    cases hsome
  · rw [hnone hstatus] at hdeadline
    cases hdeadline

/-- A swap that is not terminal counts, at any time, exactly when its fields make it stay. -/
theorem counts_iff_stay (hterminal : ¬ s.status.isTerminal) :
  s.Counts ↔ s.facts.Stay
  := by
  rw [counts_iff_singleton]
  constructor
  · intro h
    have hnot : ¬ s.facts.MayExpire := by
      rintro ⟨hstatus, hdeadline, hevidence⟩
      obtain ⟨deadline, hdeadline⟩ := Option.isSome_iff_exists.mp hdeadline
      obtain ⟨record, hrecord, hpending⟩ := swapPendingIntentCount_singleton.mp (h deadline)
      have hexpired : (swapIntentFromRecord record deadline).facts.status = .expired := by
        rw [facts_swapIntentFromRecord]
        calc resolveDepositDeadlineStatus record.facts.status record.facts.depositDeadline
              record.facts.hasEvidence deadline
          _ = resolveDepositDeadlineStatus s.status (some deadline) false deadline := by
            rw [facts_reloadedRecord hrecord, hdeadline, hevidence]
            rfl
          _ = .expired := resolveDepositDeadlineStatus_eq_expired hstatus le_rfl
      apply (isPending_iff.mp hpending).1
      rw [hexpired]
      rfl
    right
    obtain ⟨record, hrecord, hpending⟩ := swapPendingIntentCount_singleton.mp (h 0)
    have hresolved := resolved_swapIntentFromRecord record 0
    rw [facts_reloadedRecord hrecord] at hresolved
    obtain hsame | ⟨hexpires, -⟩ := hresolved.eq_or_status
    · have hfacts := (isPending_iff.mp hpending).2
      rw [hsame] at hfacts
      refine ⟨exists_reloadedRecord.mp ⟨record, hrecord⟩, ?_⟩
      cases hevidence : s.facts.hasEvidence with
      | true => exact .inl rfl
      | false =>
        right
        refine ⟨hfacts.resolve_left (by simp [hevidence]), ?_⟩
        intro hstatus
        by_contra hdeadline
        apply hnot ⟨hstatus, Option.isSome_iff_ne_none.mpr hdeadline, hevidence⟩
    · exact absurd hexpires hnot
  · intro h now
    obtain hterminal' | ⟨htexts, hevidence⟩ := id h
    · exact absurd hterminal' hterminal
    · obtain ⟨record, hrecord⟩ := exists_reloadedRecord.mpr htexts
      have hresolved := resolved_swapIntentFromRecord record now
      rw [facts_reloadedRecord hrecord] at hresolved
      obtain hsame | ⟨hexpires, -⟩ := hresolved.eq_or_status
      · apply swapPendingIntentCount_singleton.mpr ⟨record, hrecord, isPending_iff.mpr _⟩
        rw [hsame]
        exact ⟨hterminal, hevidence.imp_right And.left⟩
      · exact absurd hexpires h.not_mayExpire

/-! ### Runs -/

theorem facts_of_apply_eq_none (h : step.apply s = none) :
  step.facts s = s.facts
  := by
  cases step with
  | restore now => rfl
  | _ => cases h

theorem SwapStep.Expires.status {s' : SwapIntent} (h : step.Expires s)
    (h' : step.apply s = some s') :
  s'.status = .expired
  := by
  obtain ⟨-, s'', hs'', hstatus⟩ := h
  rw [h', Option.mem_some] at hs''
  rwa [hs'']

theorem lasts_iff (shown : Bool) :
  WatchedSwap.Lasts ⟨some s, shown⟩ step
    ↔ (shown → ¬ step.Expires s)
      ∧ ∀ s', step.apply s = some s' → shown ∨ s'.facts.hasEvidence → ¬ s'.status.isTerminal
        → s'.Counts
  := by
  have hany {s' : SwapIntent} (h : step.apply s = some s') :
      (shown || (step.apply s).any recordHasDepositEvidence) = true
        ↔ shown ∨ s'.facts.hasEvidence := by
    rw [h, Option.any_some, Bool.or_eq_true]
    rfl
  simp only [WatchedSwap.Lasts, WatchedSwap.Counts, WatchedSwap.next, Option.mem_def,
    Option.some_inj, forall_eq', Option.bind_some]
  apply and_congr_right'
  constructor
  · intro h s' hs' hshown
    apply h ((hany hs').mpr hshown) s' hs'
  · intro h hshown s' hs'
    apply h s' hs' ((hany hs').mp hshown)

theorem keeps_iff (shown : Bool) :
  WatchedSwap.Keeps ⟨some s, shown⟩ step
    ↔ (step.Late s → ¬ shown)
      ∧ (¬ step.Late s → shown ∨ (step.facts s).hasEvidence → (step.facts s).Stay)
  := by
  simp [WatchedSwap.Keeps]

/-- A step that is not late, from a swap whose record it reads back. -/
theorem lasts_iff_stay {shown : Bool} {s' : SwapIntent} (hlate : ¬ step.Late s)
    (hs' : step.apply s = some s') :
  WatchedSwap.Lasts ⟨some s, shown⟩ step
    ↔ (shown ∨ (step.facts s).hasEvidence → (step.facts s).Stay)
  := by
  rw [lasts_iff]
  obtain hsame | ⟨hexpires, hstatus⟩ := (resolved_apply hlate hs').eq_or_status
  · have hnot : ¬ step.Expires s := by
      intro hexpires
      apply hexpires.1
      rw [← status_facts, ← hsame]
      apply hexpires.status hs'
    constructor
    · rintro ⟨-, hcounts⟩ hshown
      by_cases hterminal : s'.status.isTerminal
      · rw [← hsame]
        exact .inl hterminal
      · rw [← hsame] at hshown ⊢
        apply (counts_iff_stay hterminal).mp (hcounts s' hs' hshown hterminal)
    · intro hstay
      refine ⟨fun _ => hnot, ?_⟩
      intro s'' hs'' hshown hterminal
      obtain rfl : s' = s'' := Option.some_inj.mp (hs'.symm.trans hs'')
      apply (counts_iff_stay hterminal).mpr
      rw [hsame] at hshown ⊢
      apply hstay hshown
  · have hexpired : step.Expires s := by
      refine ⟨?_, s', hs', hstatus⟩
      rw [← status_facts]
      intro hreported
      have hawaiting := hexpires.1
      rw [hreported] at hawaiting
      cases hawaiting
    constructor
    · rintro ⟨hnot, -⟩ (hshown | hevidence)
      · exact absurd hexpired (hnot hshown)
      · rw [hexpires.2.2] at hevidence
        cases hevidence
    · intro hstay
      constructor
      · intro hshown
        exact absurd hexpires (hstay (.inl hshown)).not_mayExpire
      · intro s'' hs'' _ hterminal
        rw [hexpired.status hs''] at hterminal
        exact absurd rfl hterminal

/-- What holds of a swap that is watched: it counts, and evidence it has was noted. -/
structure WatchedSwap.Noted (w : WatchedSwap) : Prop where
  counts : w.Counts
  shown : ∀ s ∈ w.intent, recordHasDepositEvidence s → w.shown

/-- A step lasts exactly when it keeps evidence in the fields that it writes. -/
theorem lasts_iff_keeps {w : WatchedSwap} (h : w.Noted) :
  w.Lasts step ↔ w.Keeps step
  := by
  obtain ⟨intent, shown⟩ := w
  cases intent with
  | none => simp [WatchedSwap.Lasts, WatchedSwap.Keeps, WatchedSwap.Counts, WatchedSwap.next]
  | some s =>
    rw [keeps_iff]
    by_cases hlate : step.Late s
    · have hexpires := expires_of_late hlate
      rw [lasts_iff]
      constructor
      · rintro ⟨hnot, -⟩
        exact ⟨fun _ hshown => hnot hshown hexpires, fun h => absurd hlate h⟩
      · rintro ⟨hnot, -⟩
        refine ⟨fun hshown => absurd hshown (hnot hlate), ?_⟩
        intro s' hs' _ hterminal
        rw [hexpires.status hs'] at hterminal
        exact absurd rfl hterminal
    · have hkeeps : (step.Late s → ¬ shown)
          ∧ (¬ step.Late s → shown ∨ (step.facts s).hasEvidence → (step.facts s).Stay)
            ↔ (shown ∨ (step.facts s).hasEvidence → (step.facts s).Stay) := by
        simp [hlate]
      rw [hkeeps]
      cases hs' : step.apply s with
      | some s' => exact lasts_iff_stay hlate hs'
      | none =>
        have hlasts : WatchedSwap.Lasts ⟨some s, shown⟩ step := by
          simp [lasts_iff, SwapStep.Expires, hs']
        apply iff_of_true hlasts
        rw [facts_of_apply_eq_none hs']
        intro hshown
        have hshown : shown := hshown.elim id (h.shown s rfl)
        by_cases hterminal : s.status.isTerminal
        · exact .inl hterminal
        · apply (counts_iff_stay hterminal).mp (h.counts hshown s rfl hterminal)

theorem noted_next {w : WatchedSwap} (h : w.Lasts step) :
  (w.next step).Noted
  := by
  refine ⟨h.2, ?_⟩
  intro s hs hevidence
  rw [WatchedSwap.next, Bool.or_eq_true]
  right
  rw [Option.any_eq_true]
  exact ⟨s, hs, hevidence⟩

/-- A swap counts at the start when it shows evidence and its record can be read back. -/
theorem counts_start :
  (WatchedSwap.start s).Counts
    ↔ (recordHasDepositEvidence s → s.status.isTerminal ∨ ∀ t ∈ s.requiredTexts, trim t ≠ [])
  := by
  simp only [WatchedSwap.Counts, WatchedSwap.start, Option.mem_def, Option.some_inj, forall_eq']
  apply imp_congr_right
  intro hevidence
  have hstay : s.facts.Stay
      ↔ (s.status.isTerminal ∨ ∀ t ∈ s.requiredTexts, trim t ≠ []) := by
    apply or_congr_right
    apply and_iff_left (.inl hevidence)
  rw [← hstay]
  constructor
  · intro h
    by_cases hterminal : s.status.isTerminal
    · exact .inl hterminal
    · apply (counts_iff_stay hterminal).mp (h hterminal)
  · intro h hterminal
    apply (counts_iff_stay hterminal).mpr h

/-- The evidence of a deposit lasts along a run exactly when its steps keep it. -/
theorem evidenceLasts_iff (s : SwapIntent) (steps : List SwapStep) :
  EvidenceLasts s steps
    ↔ (recordHasDepositEvidence s → s.status.isTerminal ∨ ∀ t ∈ s.requiredTexts, trim t ≠ [])
      ∧ Run.Along WatchedSwap.next WatchedSwap.Keeps (.start s) steps
  := by
  rw [← counts_start]
  apply and_congr_right
  intro hcounts
  apply Run.along_congr (I := WatchedSwap.Noted)
  · intro w step hw
    apply lasts_iff_keeps hw
  · intro w step _ hlasts
    apply noted_next hlasts
  · refine ⟨hcounts, ?_⟩
    intro s' hs' hevidence
    rw [WatchedSwap.start, Option.mem_some] at hs'
    rwa [hs']

/-! ### A provider that goes back -/

/-- A swap that the provider works on, without any hash. -/
def processingSwap : SwapIntent where
  id := text "swap-1"
  provider := text "NEAR Intents"
  pair := text "USDC -> ZEC"
  sellAmount := text "25 USDC"
  receiveEstimate := text "0.5 ZEC"
  status := .processing
  nextAction := text "Swap is processing"
  depositAddress := some (text "0xdeposit")
  depositMemo := none
  depositTxHash := none
  providerStatusRaw := some (text "PROCESSING")
  nearIntentHash := none
  originChainTxHash := none
  destinationChainTxHash := none
  providerRefundInfo := none
  lastStatusCheckedAt := none
  statusError := none
  broadcastNotice := none
  broadcastStatus := none
  depositDeadline := some 100
  updatedAt := some 50
  completedAt := none
  depositClaimedAt := none

/-- A snapshot of the same swap with a status alone. -/
def statusSnapshot (status : SwapIntentStatus) (raw : String) : SwapIntentSnapshot where
  providerLabel := text "NEAR Intents"
  pairText := text "USDC -> ZEC"
  sellAmountText := text "25 USDC"
  receiveEstimateText := text "0.5 ZEC"
  status := status
  nextAction := []
  depositInstruction := ⟨text "0xdeposit", none, some 100⟩
  providerStatusRaw := some (text raw)
  nearIntentHash := none
  originChainTxHash := none
  destinationChainTxHash := none
  providerRefundInfo := none

/-- The evidence is lost when the provider waits again after the deadline, and when it gives a
status that is not known. -/
theorem not_evidenceLasts_goesBack :
  (WatchedSwap.start processingSwap).shown
    ∧ ¬ EvidenceLasts processingSwap
      [.snapshot (statusSnapshot .awaitingExternalDeposit "PENDING_DEPOSIT") 200 none 200]
    ∧ ¬ EvidenceLasts processingSwap
      [.snapshot (statusSnapshot .providerStatusUnknown "SETTLING") 60 none 60]
  := by
  have hshown : (WatchedSwap.start processingSwap).shown := by decide +kernel
  refine ⟨hshown, ?_, ?_⟩
  · rintro ⟨-, hlasts, -⟩
    apply hlasts.1 hshown processingSwap rfl
    refine ⟨by decide, _, rfl, ?_⟩
    decide +kernel
  · rintro ⟨-, hlasts, -⟩
    have hcounts := hlasts.2 (by rw [WatchedSwap.next, hshown]; rfl) _ rfl (by decide +kernel)
    have hcount := counts_iff_singleton.mp hcounts 60
    revert hcount
    decide +kernel

end Swap

end Vizor
