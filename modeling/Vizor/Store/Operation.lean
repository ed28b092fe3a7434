import Vizor.Store.Backfill

/-!
# Operations of the store

The operations of the store with the inputs that they read from the wallet and from the
chain, and with what they draw at random.  An operation that fails leaves the store as it
was, except for those that commit several transactions.  Each operation is a sequence of
statements under a licence that follows from its inputs and the state it starts in.
-/

namespace Vizor

open Run

/-- An operation on the store. -/
inductive Op where
  | createRunWithStagedDenominationsAndSignedChildren (new : Store.NewRun)
      (preparedNotes : List PreparedOrchardNoteRef)
      (signedChildren : List SignedMigrationPcztInsert)
      (denominationStages : List DenominationStageInsert)
      (approvedSchedule : Option (List MigrationScheduleEntry))
  | deleteCreatedRun (r : RunId)
  | createOrResumePrivateMigrationDraft (new : Store.NewRun)
      (approvedSchedule : List MigrationScheduleEntry)
  | finalizePrivateMigrationDraft (r : RunId) (account : AccountUuid) (network : WalletNetwork)
      (targetValues : List Nat) (preparedNotes : List PreparedOrchardNoteRef)
      (signedChildren : List SignedMigrationPcztInsert)
      (denominationStages : List DenominationStageInsert)
  | persistSignedChildPcztsForRun (r : RunId) (signedChildren : List SignedMigrationPcztInsert)
  | markRunPhase (r : RunId) (phase : Phase) (message : Option String)
  | deleteAccountMigrationRows (account : AccountUuid)
  | adoptTimingPolicyForActiveRun (account : AccountUuid) (network : WalletNetwork)
      (desiredPolicy : MigrationTimingPolicy) (generated : List MigrationScheduleEntry)
  | insertPendingTxs (r : RunId) (pendingTxs : List PendingMigrationTxInsert)
      (generated : List MigrationScheduleEntry)
  | promoteSignedChildPcztsToPendingTxs (r : RunId) (pendingTxs : List PendingMigrationTxInsert)
      (currentScannedHeight remainingChildRetryHeight : Nat)
      (generated : List MigrationScheduleEntry)
  | replaceResignedPendingParts (r : RunId) (replacements : List PendingMigrationTxReplacement)
      (signedChildren : List SignedMigrationPcztInsert)
  | ensureRebuildScheduleGeneration (r : RunId) (originCandidateHeight : Nat)
      (fresh : Txid → Nat)
  | markPendingBroadcastAttempted (r : RunId) (txid : Txid)
  | setProofRetryHeight (r : RunId) (retryHeight : Nat)
  | reconcileRunConfirmations (view : ChainView) (r : RunId)
  | markDuePartsWithNoncanonicalBroadcastHeightForResign (view : ChainView) (r : RunId)
      (chainTipHeight : Nat)
  | markExpiredPendingPartsForResign (view : ChainView) (r : RunId) (chainTipHeight : Nat)
  | reconcileDenominationConfirmations (view : ChainView) (r : RunId)
  | backfillReadyMigrationProofRetryHeight (view : ChainView) (r : RunId)
  | rescheduleOverduePendingTxs (r : RunId) (chainTipHeight minimumDelayBlocks : Nat)
      (excluded : Option Txid) (offsets : Txid → Nat)
  | markPendingBroadcasted (r : RunId) (txid : Txid)
  | applyAcceptedMigrationOutboxReceipt (account : AccountUuid) (network : WalletNetwork)
      (r : RunId) (txid : Txid) (remoteHeight : Nat)
      (scheduleUpdates : List Store.MigrationOutboxScheduleUpdate)
  | retireRunForRebuild (r : RunId) (message : String)
  | abandonRun (account : AccountUuid) (network : WalletNetwork) (r : RunId)
  | discardUnsubmittedPreparationStages (r : RunId)
  | recoverLatestIdempotentBroadcastFailure (account : AccountUuid) (network : WalletNetwork)
  | reconcileDenominationStageChainState (stop : Nat) (view : ChainView) (r : RunId)
      (chainTipHeight : Except String Nat) (delays : Nat → Nat)
  | promoteAwaitingDenominationStage (r : RunId) (stageIndex : Nat) (txid : Txid) (rawTx : Bytes)
  | replaceDenominationStageConfirmationIdentity (r : RunId) (txid : Txid)
      (identity : LocalTransactionChainIdentity)
  | completeDenominationBroadcast (r : RunId) (txid : Txid) (overdue : Bool)
      (chainTipHeight : Nat) (delays : Nat → Nat)
  | markDenominationBroadcastAttempted (r : RunId) (txid : Txid)
  | clearDenominationBroadcastAttempted (r : RunId) (txid : Txid)
  | ensureSchema

namespace Store

/-- Run an operation. -/
def apply (s : Store) : Op → Except String Store
  | .createRunWithStagedDenominationsAndSignedChildren new preparedNotes signedChildren
      denominationStages approvedSchedule =>
    s.createRunWithStagedDenominationsAndSignedChildren new preparedNotes signedChildren
      denominationStages approvedSchedule
  | .deleteCreatedRun r => .ok (s.deleteCreatedRun r)
  | .createOrResumePrivateMigrationDraft new approvedSchedule =>
    (s.createOrResumePrivateMigrationDraft new approvedSchedule).map (·.1)
  | .finalizePrivateMigrationDraft r account network targetValues preparedNotes signedChildren
      denominationStages =>
    s.finalizePrivateMigrationDraft r account network targetValues preparedNotes signedChildren
      denominationStages
  | .persistSignedChildPcztsForRun r signedChildren =>
    s.persistSignedChildPcztsForRun r signedChildren
  | .markRunPhase r phase message => .ok (s.markRunPhase r phase message)
  | .deleteAccountMigrationRows account => .ok (s.deleteAccountMigrationRows account)
  | .adoptTimingPolicyForActiveRun account network desiredPolicy generated =>
    .ok (s.adoptTimingPolicyForActiveRun account network desiredPolicy generated)
  | .insertPendingTxs r pendingTxs generated => s.insertPendingTxs r pendingTxs generated
  | .promoteSignedChildPcztsToPendingTxs r pendingTxs currentScannedHeight
      remainingChildRetryHeight generated =>
    s.promoteSignedChildPcztsToPendingTxs r pendingTxs currentScannedHeight
      remainingChildRetryHeight generated
  | .replaceResignedPendingParts r replacements signedChildren =>
    s.replaceResignedPendingParts r replacements signedChildren
  | .ensureRebuildScheduleGeneration r originCandidateHeight fresh =>
    (s.ensureRebuildScheduleGeneration r originCandidateHeight fresh).map (·.1)
  | .markPendingBroadcastAttempted r txid => s.markPendingBroadcastAttempted r txid
  | .setProofRetryHeight r retryHeight => .ok (s.setProofRetryHeight r retryHeight)
  | .reconcileRunConfirmations view r => s.reconcileRunConfirmations view r
  | .markDuePartsWithNoncanonicalBroadcastHeightForResign view r chainTipHeight =>
    (s.markDuePartsWithNoncanonicalBroadcastHeightForResign view r chainTipHeight).map (·.1)
  | .markExpiredPendingPartsForResign view r chainTipHeight =>
    (s.markExpiredPendingPartsForResign view r chainTipHeight).map (·.1)
  | .reconcileDenominationConfirmations view r =>
    .ok (s.reconcileDenominationConfirmations view r)
  | .backfillReadyMigrationProofRetryHeight view r =>
    s.backfillReadyMigrationProofRetryHeight view r
  | .rescheduleOverduePendingTxs r chainTipHeight minimumDelayBlocks excluded offsets =>
    s.rescheduleOverduePendingTxs r chainTipHeight minimumDelayBlocks excluded offsets
  | .markPendingBroadcasted r txid => s.markPendingBroadcasted r txid
  | .applyAcceptedMigrationOutboxReceipt account network r txid remoteHeight scheduleUpdates =>
    s.applyAcceptedMigrationOutboxReceipt account network r txid remoteHeight scheduleUpdates
  | .retireRunForRebuild r message => .ok (s.retireRunForRebuild r message)
  | .abandonRun account network r => s.abandonRun account network r
  | .discardUnsubmittedPreparationStages r => .ok (s.discardUnsubmittedPreparationStages r)
  | .recoverLatestIdempotentBroadcastFailure account network =>
    .ok (s.recoverLatestIdempotentBroadcastFailure account network)
  | .reconcileDenominationStageChainState stop view r chainTipHeight delays =>
    .ok (s.reconcileDenominationStageChainStateUpTo stop view r chainTipHeight delays).1
  | .promoteAwaitingDenominationStage r stageIndex txid rawTx =>
    s.promoteAwaitingDenominationStage r stageIndex txid rawTx
  | .replaceDenominationStageConfirmationIdentity r txid identity =>
    replaceDenominationStageConfirmationIdentity r s txid identity
  | .completeDenominationBroadcast r txid overdue chainTipHeight delays =>
    s.completeDenominationBroadcast r txid overdue chainTipHeight delays
  | .markDenominationBroadcastAttempted r txid => s.markDenominationBroadcastAttempted r txid
  | .clearDenominationBroadcastAttempted r txid =>
    .ok (s.clearDenominationBroadcastAttempted r txid)
  | .ensureSchema => .ok s.ensureRows.1

/-- The store after an operation; one that fails changes nothing. -/
def step (s : Store) (op : Op) : Store :=
  committed s (s.apply op)

/-! ### Licences of the operations -/

/-- The confirmed transactions of a live run that left the chain. -/
def Demotes (s : Store) (view : ChainView) (r : RunId) (row : PendingTx) : Prop :=
  row ∈ s.pendingTxs ∧ row.runId = r ∧ row.status = .confirmed
    ∧ view.localDenominationChainIdentity row.txid = none ∧ s.isLive r = true

/-- The licence of a reconciliation of `r`. -/
def reconcileLicence (s : Store) (view : ChainView) (r : RunId) (rephase : Prop) : Licence :=
  { Licence.none with
    demote := s.Demotes view r
    rephase := fun r' => r' = r ∧ rephase
    complete := fun r' => r' = r }

/-- The licence to write the phase of `r` if `rephase` holds. -/
def rephaseLicence (r : RunId) (rephase : Prop) : Licence :=
  { Licence.none with rephase := fun r' => r' = r ∧ rephase }

/-- An accepted receipt writes the phase: its transaction was not recorded as broadcast, or
it moves another one out of the window of its expiry. -/
def ReceiptRephases (s : Store) (r : RunId) (txid : Txid)
    (scheduleUpdates : List MigrationOutboxScheduleUpdate) : Prop :=
  (∃ row ∈ s.pendingTxs, row.runId = r ∧ row.txid = txid
      ∧ (row.status = .scheduled ∨ row.status = .needsResign))
    ∨ ∃ update ∈ scheduleUpdates, ∃ row ∈ s.pendingTxs, row.runId = r
      ∧ row.txid = update.itemId ∧ row.status = .scheduled
      ∧ zip318CanonicalMigrationExpiryHeight update.scheduledHeight ≠ .ok row.expiryHeight

/-- An overdue transaction leaves the window of its expiry. -/
def RescheduleRephases (s : Store) (r : RunId) (chainTipHeight minimumDelayBlocks : Nat)
    (excluded : Option Txid) (offsets : Txid → Nat) : Prop :=
  ∃ row ∈ s.pendingTxs, isOverdue r chainTipHeight excluded row = true
    ∧ ∃ row', rescheduledRow chainTipHeight minimumDelayBlocks offsets row = .ok row'
      ∧ row'.status = .needsResign

/-- A signed child or a pending transaction of the run has no broadcast height. -/
def BackfillRephases (s : Store) (r : RunId) : Prop :=
  (∃ run ∈ s.runs, run.runId = r ∧ run.schedule ≠ [] ∧ s.legacyChildren run ≠ [])
    ∨ ∃ row ∈ s.pendingTxs, row.runId = r ∧ s.isLegacyPending row = true

/-- What an operation may do, from its inputs and the state it starts in. -/
def licence (s : Store) : Op → Licence
  | .createRunWithStagedDenominationsAndSignedChildren new _ _ _ _
  | .createOrResumePrivateMigrationDraft new _ =>
    { Licence.none with create := fun r' => r' = new.runId }
  | .deleteCreatedRun r => { Licence.none with drop := fun r' => r' = r }
  | .deleteAccountMigrationRows account =>
    { Licence.none with
      drop := fun r' => ∃ run ∈ s.runs, run.runId = r' ∧ run.accountUuid = account }
  | .markRunPhase r phase _ =>
    { Licence.none with
      rephase := fun r' => r' = r ∧ ∃ run ∈ s.runs, run.runId = r ∧ run.phase ≠ phase
      complete := fun r' => r' = r ∧ phase = .complete
      unfund := fun r' => r' = r ∧ phase = .noOrchardFunds }
  | .insertPendingTxs r pendingTxs _ | .promoteSignedChildPcztsToPendingTxs r pendingTxs _ _ _ =>
    rephaseLicence r (pendingTxs ≠ [])
  | .replaceResignedPendingParts r replacements _ =>
    { rephaseLicence r (replacements ≠ []) with
      replace := fun old row => ∃ replacement ∈ replacements, old ∈ s.pendingTxs
        ∧ old.runId = r ∧ old.txid = replacement.oldTxid
        ∧ row.partIndex = some replacement.replacement.partIndex }
  | .reconcileRunConfirmations view r => s.reconcileLicence view r False
  | .markDuePartsWithNoncanonicalBroadcastHeightForResign view r chainTipHeight =>
    s.reconcileLicence view r (∃ canonicalExpiry,
      zip318CanonicalMigrationExpiryHeight chainTipHeight = .ok canonicalExpiry
        ∧ ∃ row ∈ s.pendingTxs,
          dueWithNoncanonicalBroadcastHeight r chainTipHeight canonicalExpiry row = true)
  | .markExpiredPendingPartsForResign view r chainTipHeight =>
    s.reconcileLicence view r
      (∃ row ∈ s.pendingTxs, pendingRowIsExpiredForResign view r chainTipHeight row = true)
  | .rescheduleOverduePendingTxs r chainTipHeight minimumDelayBlocks excluded offsets =>
    rephaseLicence r
      (s.RescheduleRephases r chainTipHeight minimumDelayBlocks excluded offsets)
  | .markPendingBroadcasted r _ => rephaseLicence r True
  | .applyAcceptedMigrationOutboxReceipt _ _ r txid _ scheduleUpdates =>
    rephaseLicence r (s.ReceiptRephases r txid scheduleUpdates)
  | .retireRunForRebuild r _ =>
    rephaseLicence r (∃ run ∈ s.runs, run.runId = r ∧ run.phase ≠ .failedTerminal)
  | .recoverLatestIdempotentBroadcastFailure account network =>
    { Licence.none with
      recover := fun r' => ∃ lastError,
        s.latestIdempotentBroadcastFailure account network = some (r', lastError) }
  | .ensureSchema => { Licence.none with rephase := s.BackfillRephases }
  | _ => Licence.none

theorem map_fst_eq_ok {α : Type} {x : Except String (Store × α)} {s : Store}
    (h : x.map (·.1) = .ok s) :
  ∃ a, x = .ok (s, a)
  := by
  cases x with
  | error e => cases h
  | ok p =>
    cases h
    exact ⟨p.2, rfl⟩

/-- An operation that succeeds is a sequence of statements under its licence. -/
theorem apply_evolves {s s' : Store} {op : Op} (hruns : s.RunsUnique) (htxids : s.TxidsUnique)
    (h : s.apply op = .ok s') :
  Evolves (s.licence op) s s'
  := by
  cases op with
  | createRunWithStagedDenominationsAndSignedChildren new _ _ _ _ =>
    apply createRun_evolves _ h
    rfl
  | deleteCreatedRun r =>
    cases h
    apply deleteCreatedRun_evolves
    rfl
  | createOrResumePrivateMigrationDraft new _ =>
    obtain ⟨_, h⟩ := map_fst_eq_ok h
    apply createOrResumePrivateMigrationDraft_evolves _ h
    rfl
  | finalizePrivateMigrationDraft _ _ _ _ _ _ _ =>
    apply finalizePrivateMigrationDraft_evolves h
  | persistSignedChildPcztsForRun _ _ => apply persistSignedChildPcztsForRun_evolves h
  | markRunPhase r phase message =>
    cases h
    apply markRunPhase_evolves
    · intro run hrun hid hphase
      exact ⟨rfl, run, hrun, hid, hphase⟩
    · intro hphase
      exact ⟨rfl, hphase⟩
    · intro hphase
      exact ⟨rfl, hphase⟩
  | deleteAccountMigrationRows account =>
    cases h
    apply deleteAccountMigrationRows_evolves
    intro run hrun haccount
    exact ⟨run, hrun, rfl, haccount⟩
  | adoptTimingPolicyForActiveRun _ _ _ _ =>
    cases h
    apply adoptTimingPolicyForActiveRun_evolves
  | insertPendingTxs r pendingTxs _ =>
    apply insertPendingTxs_evolves _ h
    intro hne
    exact ⟨rfl, hne⟩
  | promoteSignedChildPcztsToPendingTxs r pendingTxs _ _ _ =>
    apply promoteSignedChildPcztsToPendingTxs_evolves _ h
    intro hne
    exact ⟨rfl, hne⟩
  | replaceResignedPendingParts r replacements _ =>
    apply replaceResignedPendingParts_evolves _ _ h
    · intro hne
      exact ⟨rfl, hne⟩
    · intro replacement hreplacement old hold hrun htxid row hrow
      exact ⟨replacement, hreplacement, hold, hrun, htxid, hrow⟩
  | ensureRebuildScheduleGeneration _ _ _ =>
    obtain ⟨_, h⟩ := map_fst_eq_ok h
    apply ensureRebuildScheduleGeneration_evolves h
  | markPendingBroadcastAttempted _ _ => apply markPendingBroadcastAttempted_evolves h
  | setProofRetryHeight _ _ =>
    cases h
    apply setProofRetryHeight_evolves
  | reconcileRunConfirmations view r =>
    apply reconcileRunConfirmations_evolves _ _ h
    · intro row hrow hid hstatus hidentity hlive
      exact ⟨hrow, hid, hstatus, hidentity, hlive⟩
    · rfl
  | markDuePartsWithNoncanonicalBroadcastHeightForResign view r chainTipHeight =>
    obtain ⟨_, h⟩ := map_fst_eq_ok
      (x := s.markDuePartsWithNoncanonicalBroadcastHeightForResign view r chainTipHeight) h
    obtain ⟨canonicalExpiry, hexpiry, h⟩ := bind_eq_ok.mp h
    apply reconcileAndMarkForResign_evolves hruns _ _ _ _ h
    · intro row hrow hid hstatus hidentity hlive
      exact ⟨hrow, hid, hstatus, hidentity, hlive⟩
    · rfl
    · intro row hrow
      simp only [dueWithNoncanonicalBroadcastHeight, Bool.and_eq_true, decide_eq_true_eq] at hrow
      simp [hrow.1.1.1, hrow.1.1.2]
    · intro hselected
      exact ⟨rfl, canonicalExpiry, hexpiry, hselected⟩
  | markExpiredPendingPartsForResign view r chainTipHeight =>
    obtain ⟨_, h⟩ := map_fst_eq_ok h
    apply reconcileAndMarkForResign_evolves hruns _ _ _ _ h
    · intro row hrow hid hstatus hidentity hlive
      exact ⟨hrow, hid, hstatus, hidentity, hlive⟩
    · rfl
    · intro row hrow
      simp only [pendingRowIsExpiredForResign, Bool.and_eq_true, Bool.or_eq_true,
        decide_eq_true_eq] at hrow
      refine ⟨hrow.1.1.1, ?_⟩
      rcases hrow.2 with h | h
      · simp [h]
      · simp [h.1]
    · intro hselected
      exact ⟨rfl, hselected⟩
  | reconcileDenominationConfirmations _ _ =>
    cases h
    apply reconcileDenominationConfirmations_evolves
  | backfillReadyMigrationProofRetryHeight _ _ =>
    apply backfillReadyMigrationProofRetryHeight_evolves h
  | rescheduleOverduePendingTxs r _ _ _ _ =>
    apply rescheduleOverduePendingTxs_evolves _ h
    intro row hrow hoverdue row' hrow' hstatus
    exact ⟨rfl, row, hrow, hoverdue, row', hrow', hstatus⟩
  | markPendingBroadcasted r _ =>
    apply markPendingBroadcasted_evolves _ h
    exact ⟨rfl, trivial⟩
  | applyAcceptedMigrationOutboxReceipt _ _ r txid _ scheduleUpdates =>
    apply applyAcceptedMigrationOutboxReceipt_evolves _ _ h
    · intro row hrow hid htxid hstatus
      exact ⟨rfl, .inl ⟨row, hrow, hid, htxid, hstatus⟩⟩
    · intro update hupdate row hrow hid htxid hstatus hexpiry
      exact ⟨rfl, .inr ⟨update, hupdate, row, hrow, hid, htxid, hstatus, hexpiry⟩⟩
  | retireRunForRebuild r _ =>
    cases h
    apply retireRunForRebuild_evolves
    intro run hrun hid hphase
    exact ⟨rfl, run, hrun, hid, hphase⟩
  | abandonRun _ _ _ => apply abandonRun_evolves h
  | discardUnsubmittedPreparationStages _ =>
    cases h
    apply discardUnsubmittedPreparationStages_evolves
  | recoverLatestIdempotentBroadcastFailure account network =>
    cases h
    apply recoverLatestIdempotentBroadcastFailure_evolves
    intro r lastError hlatest
    exact ⟨lastError, hlatest⟩
  | reconcileDenominationStageChainState _ _ _ _ _ =>
    cases h
    apply reconcileDenominationStageChainStateUpTo_evolves
  | promoteAwaitingDenominationStage _ _ _ _ => apply promoteAwaitingDenominationStage_evolves h
  | replaceDenominationStageConfirmationIdentity _ _ _ =>
    apply (replaceDenominationStageConfirmationIdentity_sameRows h).evolves
  | completeDenominationBroadcast _ _ _ _ _ => apply completeDenominationBroadcast_evolves h
  | markDenominationBroadcastAttempted _ _ => apply markDenominationBroadcastAttempted_evolves h
  | clearDenominationBroadcastAttempted _ _ =>
    cases h
    apply clearDenominationBroadcastAttempted_evolves
  | ensureSchema =>
    cases h
    apply ensureRows_evolves hruns htxids
    · intro run hrun hschedule hlegacy
      exact .inl ⟨run, hrun, rfl, hschedule, hlegacy⟩
    · intro row hrow hlegacy
      exact .inr ⟨row, hrow, rfl, hlegacy⟩

/-- Every operation is a sequence of statements under its licence. -/
theorem step_evolves {s : Store} {op : Op} (hruns : s.RunsUnique) (htxids : s.TxidsUnique) :
  Evolves (s.licence op) s (s.step op)
  := by
  unfold step committed
  split
  · apply apply_evolves hruns htxids ‹_›
  · apply Evolves.refl

/-! ### Runs of the store -/

/-- The keys of the tables. -/
structure Keys (s : Store) : Prop where
  runs : s.RunsUnique
  txids : s.TxidsUnique

/-- The empty store has keys. -/
theorem keys_empty : Keys {}
  := ⟨List.nodup_nil, List.nodup_nil⟩

theorem Keys.step {s : Store} {op : Op} (h : s.Keys) :
  (s.step op).Keys
  := by
  have hevolves : Evolves (s.licence op) s (s.step op) := step_evolves h.runs h.txids
  exact ⟨hevolves.runsUnique h.runs, hevolves.txidsUnique h.txids⟩

theorem Keys.after {s : Store} {ops : List Op} (h : s.Keys) :
  (Run.after Store.step s ops).Keys
  := by
  induction ops generalizing s with
  | nil => exact h
  | cons op ops ih => exact ih h.step

/-- What the statements of every operation preserve under a condition holds after every run
along which the condition holds. -/
theorem run_invariant {I : Store → Prop} {C : Store → Op → Prop}
    (hI : ∀ s op, s.Keys → C s op → ∀ t t', t.RunsUnique → t.Change (s.licence op) t' → I t → I t')
    {s : Store} {ops : List Op} (hkeys : s.Keys) (hs : I s) (hops : Along step C s ops) :
  I (after step s ops)
  := by
  have hstep : ∀ s op, s.Keys ∧ I s → C s op → (s.step op).Keys ∧ I (s.step op) := by
    rintro s op ⟨hkeys, hs⟩ hop
    have hevolves : Evolves (s.licence op) s (s.step op) := step_evolves hkeys.runs hkeys.txids
    have hends := hevolves.invariant (I := fun t => t.RunsUnique ∧ I t) (fun t t' hchange ht =>
      ⟨hchange.runsUnique ht.1, hI s op hkeys hop t t' ht.1 hchange ht.2⟩) ⟨hkeys.runs, hs⟩
    exact ⟨hkeys.step, hends.2⟩
  apply (Run.invariant hstep ⟨hkeys, hs⟩ hops).2

end Store

end Vizor
