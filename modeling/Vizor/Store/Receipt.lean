import Vizor.Store.Expiry

/-!
# Receipts that come twice

An accepted receipt of the outbox is applied as a whole or not at all.  The outbox delivers
a receipt again when it does not learn that it was applied.  The second application changes
nothing, unless the first one took a transaction out of the window of its expiry: then the
second one is refused.
-/

namespace Vizor

open Table Run

namespace Store

variable {s s' : Store} {r : RunId} {txid : Txid}

/-! ### Rows -/

/-- What an update of a receipt does to a row. -/
def scheduleUpdatedRow (r : RunId) (row : PendingTx) (update : MigrationOutboxScheduleUpdate) :
    PendingTx :=
  if row.runId = r && row.txid = update.itemId && row.status = .scheduled then
    match zip318CanonicalMigrationExpiryHeight update.scheduledHeight with
    | .ok canonicalExpiry => updatedRow update canonicalExpiry row
    | .error _ => row
  else row

/-- What the acceptance of `txid` does to a row. -/
def acceptedRow (r : RunId) (txid : Txid) (row : PendingTx) : PendingTx :=
  if row.runId = r && row.txid = txid && (row.status = .scheduled || row.status = .needsResign)
  then { row with status := .broadcasted }
  else row

/-- What a receipt does to a row. -/
def receiptRow (r : RunId) (txid : Txid) (scheduleUpdates : List MigrationOutboxScheduleUpdate)
    (row : PendingTx) : PendingTx :=
  acceptedRow r txid (scheduleUpdates.foldl (scheduleUpdatedRow r) row)

/-- An update takes the row out of the window of its expiry. -/
def LeavesWindow (r : RunId) (update : MigrationOutboxScheduleUpdate) (row : PendingTx) : Prop :=
  row.runId = r ∧ row.txid = update.itemId ∧ row.status = .scheduled
    ∧ zip318CanonicalMigrationExpiryHeight update.scheduledHeight ≠ .ok row.expiryHeight

/-- The row is at the heights of the update. -/
def AtUpdate (update : MigrationOutboxScheduleUpdate) (row : PendingTx) : Prop :=
  row.scheduledHeight = some update.scheduledHeight
    ∧ row.scheduleStartHeight = some update.scheduleStartHeight

variable {update : MigrationOutboxScheduleUpdate} {row : PendingTx}

@[simp]
theorem updatedRow_runId {canonicalExpiry : Nat} :
  (updatedRow update canonicalExpiry row).runId = row.runId
  := by
  unfold updatedRow
  split <;> rfl

@[simp]
theorem updatedRow_txid {canonicalExpiry : Nat} :
  (updatedRow update canonicalExpiry row).txid = row.txid
  := by
  unfold updatedRow
  split <;> rfl

@[simp]
theorem scheduleUpdatedRow_runId :
  (scheduleUpdatedRow r row update).runId = row.runId
  := by
  unfold scheduleUpdatedRow
  split
  · split
    · apply updatedRow_runId
    · rfl
  · rfl

@[simp]
theorem scheduleUpdatedRow_txid :
  (scheduleUpdatedRow r row update).txid = row.txid
  := by
  unfold scheduleUpdatedRow
  split
  · split
    · apply updatedRow_txid
    · rfl
  · rfl

theorem foldl_scheduleUpdatedRow_keeps {updates : List MigrationOutboxScheduleUpdate} :
  (updates.foldl (scheduleUpdatedRow r) row).runId = row.runId
    ∧ (updates.foldl (scheduleUpdatedRow r) row).txid = row.txid
  := by
  induction updates generalizing row with
  | nil => exact ⟨rfl, rfl⟩
  | cons update updates ih =>
    rw [List.foldl_cons, ih.1, ih.2]
    exact ⟨scheduleUpdatedRow_runId, scheduleUpdatedRow_txid⟩

/-- A row that is not scheduled, or of another transaction, is not updated. -/
theorem scheduleUpdatedRow_eq_self
    (h : row.runId = r → row.txid = update.itemId → row.status ≠ .scheduled) :
  scheduleUpdatedRow r row update = row
  := by
  unfold scheduleUpdatedRow
  rw [if_neg]
  simp only [Bool.and_eq_true, decide_eq_true_eq]
  rintro ⟨⟨hrun, htxid⟩, hstatus⟩
  apply h hrun htxid hstatus

theorem foldl_scheduleUpdatedRow_eq_self {updates : List MigrationOutboxScheduleUpdate}
    (h : ∀ update ∈ updates, row.runId = r → row.txid = update.itemId →
      row.status ≠ .scheduled) :
  updates.foldl (scheduleUpdatedRow r) row = row
  := by
  induction updates with
  | nil => rfl
  | cons update updates ih =>
    rw [List.foldl_cons, scheduleUpdatedRow_eq_self (h update List.mem_cons_self)]
    apply ih
    intro other hother
    apply h other (List.mem_cons_of_mem _ hother)

/-- A row is updated by the update of its transaction only. -/
theorem foldl_scheduleUpdatedRow_of_mem {updates : List MigrationOutboxScheduleUpdate}
    (hunique : (updates.map (·.itemId)).Nodup) (hmem : update ∈ updates)
    (htxid : row.txid = update.itemId) :
  updates.foldl (scheduleUpdatedRow r) row = scheduleUpdatedRow r row update
  := by
  induction updates generalizing row with
  | nil => cases hmem
  | cons first updates ih =>
    rw [List.map_cons, List.nodup_cons] at hunique
    rw [List.foldl_cons]
    rcases List.mem_cons.mp hmem with rfl | hmem
    · apply foldl_scheduleUpdatedRow_eq_self
      intro other hother _ hother'
      rw [scheduleUpdatedRow_txid, htxid] at hother'
      exfalso
      apply hunique.1
      rw [hother']
      apply List.mem_map_of_mem hother
    · have hne : first.itemId ≠ row.txid := by
        intro heq
        apply hunique.1
        rw [heq, htxid]
        apply List.mem_map_of_mem hmem
      have hfirst : scheduleUpdatedRow r row first = row := by
        apply scheduleUpdatedRow_eq_self
        intro _ heq
        exact absurd heq.symm hne
      rw [hfirst]
      apply ih hunique.2 hmem htxid

/-! ### The updates of a receipt -/

/-- The store after the updates of a receipt. -/
def withScheduleUpdates (s : Store) (r : RunId)
    (scheduleUpdates : List MigrationOutboxScheduleUpdate) : Store :=
  { s with pendingTxs := s.pendingTxs.map (scheduleUpdates.foldl (scheduleUpdatedRow r)) }

theorem withScheduleUpdates_nil :
  s.withScheduleUpdates r [] = s
  := by
  simp [withScheduleUpdates]

theorem withScheduleUpdates_cons {updates : List MigrationOutboxScheduleUpdate} :
  (s.withScheduleUpdates r [update]).withScheduleUpdates r updates
    = s.withScheduleUpdates r (update :: updates)
  := by
  unfold withScheduleUpdates
  dsimp only
  rw [List.map_map]
  rfl

theorem TxidsUnique.withScheduleUpdates {updates : List MigrationOutboxScheduleUpdate}
    (h : s.TxidsUnique) :
  (s.withScheduleUpdates r updates).TxidsUnique
  := by
  unfold TxidsUnique Store.withScheduleUpdates
  dsimp only
  rw [List.map_map]
  have hsame : (fun row : PendingTx => row.txid) ∘ updates.foldl (scheduleUpdatedRow r)
      = fun row => row.txid := by
    funext row
    apply foldl_scheduleUpdatedRow_keeps.2
  rw [hsame]
  apply h

/-- An update that is applied. -/
theorem applyScheduleUpdate_eq (htxids : s.TxidsUnique) {crossed crossed' : Bool}
    (h : applyScheduleUpdate r (s, crossed) update = .ok (s', crossed')) :
  s' = s.withScheduleUpdates r [update]
    ∧ (∃ expiry, zip318CanonicalMigrationExpiryHeight update.scheduledHeight = .ok expiry)
    ∧ (∃ row ∈ s.pendingTxs, row.runId = r ∧ row.txid = update.itemId
      ∧ (row.status = .scheduled ∨ AtUpdate update row))
    ∧ (crossed' = true ↔ crossed = true ∨ ∃ row ∈ s.pendingTxs, LeavesWindow r update row)
  := by
  simp only [applyScheduleUpdate, bind_eq_ok, okOr_eq_ok] at h
  obtain ⟨row, hrow, expiry, hexpiry, h⟩ := h
  have hid : row.txid = update.itemId := by simpa using List.find?_some hrow
  obtain ⟨hmem, hrun⟩ := List.mem_filter.mp (List.mem_of_find?_eq_some hrow)
  rw [decide_eq_true_eq] at hrun
  have hleaves : (∃ other ∈ s.pendingTxs, LeavesWindow r update other)
      ↔ row.status = .scheduled ∧ expiry ≠ row.expiryHeight := by
    constructor
    · rintro ⟨other, hother, -, htxid, hstatus, hne⟩
      obtain rfl := htxids.eq hother hmem (htxid.trans hid.symm)
      refine ⟨hstatus, fun heq => hne ?_⟩
      rw [hexpiry, heq]
    · rintro ⟨hstatus, hne⟩
      refine ⟨row, hmem, hrun, hid, hstatus, fun heq => hne ?_⟩
      rw [hexpiry] at heq
      cases heq
      rfl
  rw [hleaves]
  split at h
  · rename_i hstatus
    rw [pure_eq_ok, Prod.mk.injEq] at h
    obtain ⟨rfl, rfl⟩ := h
    refine ⟨?_, ⟨expiry, hexpiry⟩, ⟨row, hmem, hrun, hid, .inl hstatus⟩, ?_⟩
    · have hrows : updateWhere (fun row => row.runId = r && row.txid = update.itemId
            && row.status = .scheduled) (updatedRow update expiry) s.pendingTxs
          = s.pendingTxs.map ([update].foldl (scheduleUpdatedRow r)) := by
        apply List.map_congr_left
        intro other _
        rw [List.foldl_cons, List.foldl_nil, scheduleUpdatedRow, hexpiry]
      unfold updatePendingTxs withScheduleUpdates
      rw [hrows]
    · simp [hstatus]
  · rename_i hstatus
    simp only [bind_eq_ok, ensure_eq_ok] at h
    obtain ⟨_, hheights, h⟩ := h
    rw [pure_eq_ok, Prod.mk.injEq] at h
    obtain ⟨rfl, rfl⟩ := h
    refine ⟨?_, ⟨expiry, hexpiry⟩, ⟨row, hmem, hrun, hid, .inr hheights⟩, ?_⟩
    · unfold withScheduleUpdates
      have hsame : s.pendingTxs.map ([update].foldl (scheduleUpdatedRow r)) = s.pendingTxs := by
        rw [List.map_congr_left (g := id), List.map_id]
        intro other hother
        rw [List.foldl_cons, List.foldl_nil]
        apply scheduleUpdatedRow_eq_self
        intro _ htxid
        rw [htxids.eq hother hmem (htxid.trans hid.symm)]
        apply hstatus
      rw [hsame]
    · simp [hstatus]

/-- An update changes no row of another transaction. -/
theorem mem_withScheduleUpdates_of_ne {other : MigrationOutboxScheduleUpdate}
    (hne : other.itemId ≠ update.itemId) {row : PendingTx} (htxid : row.txid = other.itemId) :
  row ∈ (s.withScheduleUpdates r [update]).pendingTxs ↔ row ∈ s.pendingTxs
  := by
  unfold withScheduleUpdates
  rw [List.mem_map]
  constructor
  · rintro ⟨old, hold, hnew⟩
    rw [List.foldl_cons, List.foldl_nil] at hnew
    have holdTxid : old.txid = other.itemId := by
      rw [← htxid, ← hnew, scheduleUpdatedRow_txid]
    rw [scheduleUpdatedRow_eq_self] at hnew
    · rwa [← hnew]
    · intro _ heq
      exact absurd (holdTxid.symm.trans heq) hne
  · intro hrow
    refine ⟨row, hrow, ?_⟩
    rw [List.foldl_cons, List.foldl_nil]
    apply scheduleUpdatedRow_eq_self
    intro _ heq
    exact absurd (htxid.symm.trans heq) hne

/-- The updates of a receipt that are applied. -/
theorem foldlM_applyScheduleUpdate_eq {updates : List MigrationOutboxScheduleUpdate}
    (htxids : s.TxidsUnique) (hunique : (updates.map (·.itemId)).Nodup) {crossed crossed' : Bool}
    (h : updates.foldlM (applyScheduleUpdate r) (s, crossed) = .ok (s', crossed')) :
  s' = s.withScheduleUpdates r updates
    ∧ (∀ update ∈ updates,
      ∃ expiry, zip318CanonicalMigrationExpiryHeight update.scheduledHeight = .ok expiry)
    ∧ (∀ update ∈ updates, ∃ row ∈ s.pendingTxs, row.runId = r ∧ row.txid = update.itemId
      ∧ (row.status = .scheduled ∨ AtUpdate update row))
    ∧ (crossed' = true ↔ crossed = true
      ∨ ∃ update ∈ updates, ∃ row ∈ s.pendingTxs, LeavesWindow r update row)
  := by
  induction updates generalizing s crossed with
  | nil =>
    rw [List.foldlM_nil, pure_eq_ok, Prod.mk.injEq] at h
    obtain ⟨rfl, rfl⟩ := h
    simp [withScheduleUpdates_nil]
  | cons update updates ih =>
    rw [List.map_cons, List.nodup_cons] at hunique
    rw [List.foldlM_cons, bind_eq_ok] at h
    obtain ⟨⟨t, crossed₁⟩, hstep, h⟩ := h
    obtain ⟨rfl, hexpiry, htarget, hcrossed⟩ := applyScheduleUpdate_eq htxids hstep
    obtain ⟨hs', hexpiries, htargets, hcrossed'⟩ := ih htxids.withScheduleUpdates hunique.2 h
    have hne : ∀ other ∈ updates, other.itemId ≠ update.itemId := by
      intro other hother heq
      apply hunique.1
      rw [← heq]
      apply List.mem_map_of_mem hother
    refine ⟨?_, ?_, ?_, ?_⟩
    · rw [hs', withScheduleUpdates_cons]
    · intro other hother
      rcases List.mem_cons.mp hother with rfl | hother
      · apply hexpiry
      · apply hexpiries other hother
    · intro other hother
      rcases List.mem_cons.mp hother with rfl | hother
      · apply htarget
      · obtain ⟨row, hrow, hrun, htxid, hrest⟩ := htargets other hother
        rw [mem_withScheduleUpdates_of_ne (hne other hother) htxid] at hrow
        exact ⟨row, hrow, hrun, htxid, hrest⟩
    · have hlater : (∃ other ∈ updates, ∃ row ∈ (s.withScheduleUpdates r [update]).pendingTxs,
          LeavesWindow r other row)
          ↔ ∃ other ∈ updates, ∃ row ∈ s.pendingTxs, LeavesWindow r other row := by
        constructor
        · rintro ⟨other, hother, row, hrow, hleaves⟩
          rw [mem_withScheduleUpdates_of_ne (hne other hother) hleaves.2.1] at hrow
          exact ⟨other, hother, row, hrow, hleaves⟩
        · rintro ⟨other, hother, row, hrow, hleaves⟩
          rw [← mem_withScheduleUpdates_of_ne (hne other hother) hleaves.2.1] at hrow
          exact ⟨other, hother, row, hrow, hleaves⟩
      rw [hcrossed', hcrossed, hlater, or_assoc]
      simp only [List.mem_cons, exists_eq_or_imp]

/-- The updates that pass the checks are of different transactions, none of which is the
accepted one. -/
theorem foldlM_checkScheduleUpdate {updates : List MigrationOutboxScheduleUpdate}
    {remoteHeight timingMaxBlocks : Nat} {checked supplied : List Txid × Nat}
    (h : updates.foldlM (checkScheduleUpdate txid remoteHeight timingMaxBlocks) checked
      = .ok supplied) :
  (updates.map (·.itemId)).Nodup
    ∧ ∀ update ∈ updates, update.itemId ≠ txid ∧ update.itemId ∉ checked.1
  := by
  induction updates generalizing checked with
  | nil => simp
  | cons update updates ih =>
    rw [List.foldlM_cons, bind_eq_ok] at h
    obtain ⟨next, hstep, h⟩ := h
    simp only [checkScheduleUpdate, bind_eq_ok, ensure_eq_ok, pure_eq_ok] at hstep
    obtain ⟨_, hself, _, hnew, _, -, _, -, _, -, rfl⟩ := hstep
    obtain ⟨hunique, hrest⟩ := ih h
    dsimp only at hrest
    constructor
    · rw [List.map_cons, List.nodup_cons]
      refine ⟨fun hmem => ?_, hunique⟩
      obtain ⟨other, hother, heq⟩ := List.mem_map.mp hmem
      apply (hrest other hother).2
      rw [heq]
      apply List.mem_cons_self
    · intro other hother
      rcases List.mem_cons.mp hother with rfl | hother
      · exact ⟨hself, hnew⟩
      · obtain ⟨hne, hnot⟩ := hrest other hother
        exact ⟨hne, fun hmem => hnot (List.mem_cons_of_mem _ hmem)⟩

/-! ### A receipt -/

/-- The accepted transaction was not recorded as broadcast. -/
def AwaitsBroadcast (s : Store) (r : RunId) (txid : Txid) : Prop :=
  ∃ row ∈ s.pendingTxs, row.runId = r ∧ row.txid = txid
    ∧ (row.status = .scheduled ∨ row.status = .needsResign)

/-- Every effect of an accepted receipt. -/
structure ReceiptApplied (s s' : Store) (r : RunId) (txid : Txid)
    (scheduleUpdates : List MigrationOutboxScheduleUpdate) : Prop where
  /-- The accepted transaction is marked, the others are moved, and nothing else changes but
  the run. -/
  rows : s' = { s with
    pendingTxs := s.pendingTxs.map (receiptRow r txid scheduleUpdates), runs := s'.runs }
  accepted : ∃ row ∈ s.pendingTxs, row.runId = r ∧ row.txid = txid
  targets : ∀ update ∈ scheduleUpdates, ∃ row ∈ s.pendingTxs, row.runId = r
    ∧ row.txid = update.itemId ∧ (row.status = .scheduled ∨ AtUpdate update row)
  /-- Only the phase and the last error of the run are written. -/
  runs : ∃ f : MigrationRun → MigrationRun, s'.runs = s.runs.map f
    ∧ ∀ run, (run.runId ≠ r → f run = run)
      ∧ f run = { run with phase := (f run).phase, lastError := (f run).lastError }
  /-- The run moves on after the broadcast. -/
  broadcast : s.AwaitsBroadcast r txid → ∃ run, s.run? r = some run
    ∧ s'.phaseOf r = some (s'.phaseAfterPendingBroadcast r run.targetValues.length)
  /-- A transaction that leaves its window needs a new signature. -/
  resign : ¬s.AwaitsBroadcast r txid →
    (∃ update ∈ scheduleUpdates, ∃ row ∈ s.pendingTxs, LeavesWindow r update row) →
      s'.phaseOf r = some .readyToMigrate
  keep : ¬s.AwaitsBroadcast r txid →
    (¬∃ update ∈ scheduleUpdates, ∃ row ∈ s.pendingTxs, LeavesWindow r update row) →
      s'.runs = s.runs

/-- The acceptance of a transaction that does not await its broadcast marks nothing. -/
theorem acceptedRow_eq_self (h : ¬s.AwaitsBroadcast r txid) {row : PendingTx}
    (hrow : row ∈ s.pendingTxs) :
  acceptedRow r txid row = row
  := by
  unfold acceptedRow
  rw [if_neg]
  simp only [Bool.and_eq_true, Bool.or_eq_true, decide_eq_true_eq]
  rintro ⟨⟨hrun, htxid⟩, hstatus⟩
  apply h ⟨row, hrow, hrun, htxid, hstatus⟩

/-- The runs after the updates of a receipt. -/
def markCrossed (s : Store) (r : RunId) (crossed : Bool) : Store :=
  if crossed then
    s.updateRuns (fun run => run.runId = r) fun run => { run with
      phase := .readyToMigrate
      lastError := some "Migration schedule crossed a ZIP 318 expiry boundary" }
  else s

/-- The store after the acceptance of a transaction. -/
def withAccepted (s : Store) (r : RunId) (txid : Txid) : Store :=
  s.updatePendingTxs (fun row => row.runId = r && row.txid = txid
      && (row.status = .scheduled || row.status = .needsResign))
    fun row => { row with status := .broadcasted }

variable {account : AccountUuid} {network : WalletNetwork} {remoteHeight : Nat}
  {scheduleUpdates : List MigrationOutboxScheduleUpdate}

/-- The steps of the application of a receipt. -/
theorem applyAcceptedMigrationOutboxReceipt_steps (htxids : s.TxidsUnique)
    (h : s.applyAcceptedMigrationOutboxReceipt account network r txid remoteHeight scheduleUpdates
      = .ok s') :
  ∃ run accepted supplied crossed,
    s.runs.find? (fun run =>
        run.runId = r && run.accountUuid = account && run.network = network) = some run
      ∧ accepted ∈ s.pendingTxs ∧ accepted.runId = r ∧ accepted.txid = txid
      ∧ scheduleUpdates.foldlM (checkScheduleUpdate txid remoteHeight
          (scheduleParametersWithPolicy network run.timingPolicy).2) ([], remoteHeight)
        = .ok supplied
      ∧ scheduleUpdates.foldlM (applyScheduleUpdate r) (s, false)
        = .ok (s.withScheduleUpdates r scheduleUpdates, crossed)
      ∧ (s.AwaitsBroadcast r txid
        → updateRunAfterPendingBroadcast (((s.withScheduleUpdates r scheduleUpdates).markCrossed r
            crossed).withAccepted r txid) r = .ok s')
      ∧ (¬s.AwaitsBroadcast r txid
        → s' = (s.withScheduleUpdates r scheduleUpdates).markCrossed r crossed)
  := by
  simp only [applyAcceptedMigrationOutboxReceipt, bind_eq_ok, okOr_eq_ok] at h
  obtain ⟨run, hrun, accepted, haccepted, supplied, hsupplied, _, -, ⟨t, crossed⟩, happlied, h⟩ :=
    h
  have hid : accepted.txid = txid := by simpa using List.find?_some haccepted
  obtain ⟨hmem, hrunId⟩ := List.mem_filter.mp (List.mem_of_find?_eq_some haccepted)
  rw [decide_eq_true_eq] at hrunId
  have hchecks := foldlM_checkScheduleUpdate hsupplied
  obtain ⟨rfl, -, -, -⟩ := foldlM_applyScheduleUpdate_eq htxids hchecks.1 happlied
  have hawaits : s.AwaitsBroadcast r txid
      ↔ (accepted.status = .scheduled ∨ accepted.status = .needsResign) := by
    constructor
    · rintro ⟨row, hrow, -, htxid, hstatus⟩
      rwa [← htxids.eq hrow hmem (htxid.trans hid.symm)]
    · exact fun hstatus => ⟨accepted, hmem, hrunId, hid, hstatus⟩
  refine ⟨run, accepted, supplied, crossed, hrun, hmem, hrunId, hid, hsupplied, happlied, ?_, ?_⟩
  · intro hbroadcast
    rw [if_pos (by simpa using hawaits.mp hbroadcast)] at h
    apply h
  · intro hbroadcast
    rw [if_neg (by simpa using fun hstatus => hbroadcast (hawaits.mpr hstatus))] at h
    apply (pure_eq_ok.mp h).symm

/-- The acceptance marks the rows. -/
theorem withAccepted_pendingTxs {crossed : Bool} :
  (((s.withScheduleUpdates r scheduleUpdates).markCrossed r crossed).withAccepted r txid).pendingTxs
    = s.pendingTxs.map (receiptRow r txid scheduleUpdates)
  := by
  have hrows : ((s.withScheduleUpdates r scheduleUpdates).markCrossed r crossed).pendingTxs
      = s.pendingTxs.map (scheduleUpdates.foldl (scheduleUpdatedRow r)) := by
    unfold markCrossed
    split <;> rfl
  unfold withAccepted updatePendingTxs updateWhere
  dsimp only
  rw [hrows, List.map_map]
  rfl

/-- The runs change in their phase and their last error, and only the run of the receipt. -/
def OnlyPhase (r : RunId) (f : MigrationRun → MigrationRun) : Prop :=
  ∀ run, (run.runId ≠ r → f run = run)
    ∧ f run = { run with phase := (f run).phase, lastError := (f run).lastError }

theorem onlyPhase_id :
  OnlyPhase r id
  := fun _ => ⟨fun _ => rfl, rfl⟩

/-- An update of the phase and the last error of a run. -/
theorem onlyPhase_update (phase : Phase) (lastError : MigrationRun → Option String) :
  OnlyPhase r fun run => if decide (run.runId = r) = true then
    { run with phase := phase, lastError := lastError run } else run
  := by
  intro run
  by_cases hid : run.runId = r
  · exact ⟨fun hne => absurd hid hne, by simp [hid]⟩
  · exact ⟨fun _ => by simp [hid], by simp [hid]⟩

theorem OnlyPhase.comp {f g : MigrationRun → MigrationRun} (hg : OnlyPhase r g)
    (hf : OnlyPhase r f) :
  OnlyPhase r (g ∘ f)
  := by
  intro run
  constructor
  · intro hne
    rw [Function.comp_apply, (hf run).1 hne, (hg run).1 hne]
  · rw [Function.comp_apply, (hg (f run)).2]
    dsimp only
    rw [(hf run).2]

theorem markCrossed_runs (s : Store) (r : RunId) (crossed : Bool) :
  ∃ f, (s.markCrossed r crossed).runs = s.runs.map f ∧ OnlyPhase r f
  := by
  unfold markCrossed
  split
  · exact ⟨_, rfl, onlyPhase_update _ _⟩
  · exact ⟨id, by simp, onlyPhase_id⟩

theorem OnlyPhase.run? {f : MigrationRun → MigrationRun} (h : OnlyPhase r f)
    (hruns : s'.runs = s.runs.map f) {r' : RunId} :
  s'.run? r' = (s.run? r').map f
  := by
  unfold Store.run?
  rw [hruns, List.find?_map]
  congr 2
  funext run
  rw [Function.comp_apply, (h run).2]

/-- The updates do not touch the accepted transaction. -/
theorem receiptRow_of_not_awaits (hawaits : ¬s.AwaitsBroadcast r txid)
    (hself : ∀ update ∈ scheduleUpdates, update.itemId ≠ txid) {row : PendingTx}
    (hrow : row ∈ s.pendingTxs) :
  receiptRow r txid scheduleUpdates row = scheduleUpdates.foldl (scheduleUpdatedRow r) row
  := by
  unfold receiptRow
  by_cases htxid : row.txid = txid
  · rw [foldl_scheduleUpdatedRow_eq_self]
    · apply acceptedRow_eq_self hawaits hrow
    · intro update hupdate _ heq
      exact absurd (heq.symm.trans htxid) (hself update hupdate)
  · unfold acceptedRow
    rw [if_neg]
    simp only [Bool.and_eq_true, decide_eq_true_eq]
    rintro ⟨⟨-, heq⟩, -⟩
    rw [foldl_scheduleUpdatedRow_keeps.2] at heq
    apply htxid heq

/-- A receipt that is not refused has all its effects. -/
theorem receiptApplied_of_eq_ok (htxids : s.TxidsUnique)
    (h : s.applyAcceptedMigrationOutboxReceipt account network r txid remoteHeight scheduleUpdates
      = .ok s') :
  s.ReceiptApplied s' r txid scheduleUpdates
  := by
  obtain ⟨run, accepted, supplied, crossed, hrun, hmem, hrunId, hid, hsupplied, happlied,
    hbroadcast, hkeep⟩ := applyAcceptedMigrationOutboxReceipt_steps htxids h
  have hchecks := foldlM_checkScheduleUpdate hsupplied
  obtain ⟨-, -, htargets, hcrossed⟩ := foldlM_applyScheduleUpdate_eq htxids hchecks.1 happlied
  obtain ⟨f, hf, honly⟩ := markCrossed_runs (s.withScheduleUpdates r scheduleUpdates) r crossed
  by_cases hawaits : s.AwaitsBroadcast r txid
  · have hs' := hbroadcast hawaits
    simp only [updateRunAfterPendingBroadcast, plannedPartCount, readRun, bind_eq_ok,
      okOr_eq_ok, pure_eq_ok] at hs'
    obtain ⟨_, ⟨row, hrow, rfl⟩, rfl⟩ := hs'
    set W := ((s.withScheduleUpdates r scheduleUpdates).markCrossed r crossed).withAccepted r txid
      with hWdef
    have hW : W.runs = s.runs.map f := hf
    refine ⟨?_, ⟨accepted, hmem, hrunId, hid⟩, htargets, ?_, ?_, ?_, ?_⟩
    · have hrows : W.pendingTxs = s.pendingTxs.map (receiptRow r txid scheduleUpdates) :=
        withAccepted_pendingTxs
      rw [← hrows, hWdef]
      cases crossed <;> rfl
    · refine ⟨_, ?_, (onlyPhase_update (W.phaseAfterPendingBroadcast r row.targetValues.length)
        fun run => if W.countPendingWithStatus r .needsResign > 0 then run.lastError
          else none).comp honly⟩
      rw [← List.map_map, ← hW]
      rfl
    · intro _
      rw [honly.run? hW, Option.map_eq_some_iff] at hrow
      obtain ⟨old, hold, rfl⟩ := hrow
      refine ⟨old, hold, ?_⟩
      have hid' : (f old).runId = r := by
        rw [(honly old).2]
        simpa using List.find?_some hold
      have htargets' : (f old).targetValues = old.targetValues := by
        rw [(honly old).2]
      unfold phaseOf
      rw [run?_updateRuns (by simp), honly.run? hW, hold, Option.map_some, Option.map_some,
        ← htargets']
      simp only [hid', decide_true, if_true]
      rfl
    · exact fun hnot => absurd hawaits hnot
    · exact fun hnot => absurd hawaits hnot
  · obtain rfl := hkeep hawaits
    refine ⟨?_, ⟨accepted, hmem, hrunId, hid⟩, htargets, ⟨f, hf, honly⟩, ?_, ?_, ?_⟩
    · have hrows : s.pendingTxs.map (receiptRow r txid scheduleUpdates)
          = s.pendingTxs.map (scheduleUpdates.foldl (scheduleUpdatedRow r)) := by
        apply List.map_congr_left
        intro row hrow
        apply receiptRow_of_not_awaits hawaits _ hrow
        exact fun update hupdate => (hchecks.2 update hupdate).1
      rw [hrows]
      cases crossed <;> rfl
    · exact fun h => absurd h hawaits
    · intro _ hleaves
      have htrue : crossed = true := hcrossed.mpr (.inr hleaves)
      have hsome : (s.run? r).isSome := by
        have hfound := List.find?_some hrun
        simp only [Bool.and_eq_true, decide_eq_true_eq] at hfound
        rw [Store.run?, List.find?_isSome]
        exact ⟨run, List.mem_of_find?_eq_some hrun, by simpa using hfound.1.1⟩
      obtain ⟨old, hold⟩ := Option.isSome_iff_exists.mp hsome
      have hid' : old.runId = r := by simpa using List.find?_some hold
      have hold' : (s.withScheduleUpdates r scheduleUpdates).run? r = some old := hold
      unfold phaseOf markCrossed
      rw [if_pos htrue, run?_updateRuns (by simp), hold', Option.map_some, Option.map_some]
      simp [hid']
    · intro _ hstays
      have hfalse : crossed = false := by
        rw [Bool.eq_false_iff]
        intro htrue
        rcases hcrossed.mp htrue with h | h
        · cases h
        · apply hstays h
      rw [hfalse]
      rfl

/-! ### The receipt again -/

/-- A transaction that an update takes out of its window is at the heights of the update. -/
def ReplaySafe (s : Store) (r : RunId) (scheduleUpdates : List MigrationOutboxScheduleUpdate) :
    Prop :=
  ∀ update ∈ scheduleUpdates, ∀ row ∈ s.pendingTxs, LeavesWindow r update row →
    AtUpdate update row

@[simp]
theorem acceptedRow_runId {row : PendingTx} :
  (acceptedRow r txid row).runId = row.runId
  := by
  unfold acceptedRow
  split <;> rfl

@[simp]
theorem acceptedRow_txid {row : PendingTx} :
  (acceptedRow r txid row).txid = row.txid
  := by
  unfold acceptedRow
  split <;> rfl

@[simp]
theorem receiptRow_runId {row : PendingTx} :
  (receiptRow r txid scheduleUpdates row).runId = row.runId
  := acceptedRow_runId.trans foldl_scheduleUpdatedRow_keeps.1

@[simp]
theorem receiptRow_txid {row : PendingTx} :
  (receiptRow r txid scheduleUpdates row).txid = row.txid
  := acceptedRow_txid.trans foldl_scheduleUpdatedRow_keeps.2

/-- The row of an update after the receipt. -/
theorem receiptRow_of_mem (hunique : (scheduleUpdates.map (·.itemId)).Nodup)
    (hmem : update ∈ scheduleUpdates) (hne : update.itemId ≠ txid) {row : PendingTx}
    (htxid : row.txid = update.itemId) :
  receiptRow r txid scheduleUpdates row = scheduleUpdatedRow r row update
  := by
  unfold receiptRow
  rw [foldl_scheduleUpdatedRow_of_mem hunique hmem htxid]
  unfold acceptedRow
  rw [if_neg]
  simp only [Bool.and_eq_true, decide_eq_true_eq, scheduleUpdatedRow_txid]
  rintro ⟨⟨-, heq⟩, -⟩
  apply hne (htxid.symm.trans heq)

/-- The row of the accepted transaction after the receipt. -/
theorem receiptRow_accepted (hself : ∀ update ∈ scheduleUpdates, update.itemId ≠ txid)
    {row : PendingTx} (hrun : row.runId = r) (htxid : row.txid = txid) :
  (receiptRow r txid scheduleUpdates row).status ≠ .scheduled
    ∧ (receiptRow r txid scheduleUpdates row).status ≠ .needsResign
  := by
  unfold receiptRow
  rw [foldl_scheduleUpdatedRow_eq_self]
  · unfold acceptedRow
    split
    · simp
    · rename_i hstatus
      simpa [hrun, htxid] using hstatus
  · intro update hupdate _ heq
    exact absurd (heq.symm.trans htxid) (hself update hupdate)

/-- The pending transaction of a run with a given hash. -/
theorem find?_pendingOf (htxids : s.TxidsUnique) {row : PendingTx} (hrow : row ∈ s.pendingTxs)
    (hrun : row.runId = r) :
  (s.pendingOf r).find? (fun other => other.txid = row.txid) = some row
  := by
  have hsome : ((s.pendingOf r).find? fun other => other.txid = row.txid).isSome := by
    rw [List.find?_isSome]
    exact ⟨row, List.mem_filter.mpr ⟨hrow, by simpa using hrun⟩, by simp⟩
  obtain ⟨other, hother⟩ := Option.isSome_iff_exists.mp hsome
  have htxid : other.txid = row.txid := by simpa using List.find?_some hother
  have hmem := (List.mem_filter.mp (List.mem_of_find?_eq_some hother)).1
  rw [hother, htxids.eq hmem hrow htxid]

/-- An update whose row is as the update makes it changes nothing. -/
theorem applyScheduleUpdate_eq_self (htxids : s.TxidsUnique) {row : PendingTx}
    (hrow : row ∈ s.pendingTxs) (hrun : row.runId = r) (htxid : row.txid = update.itemId)
    {expiry : Nat}
    (hexpiry : zip318CanonicalMigrationExpiryHeight update.scheduledHeight = .ok expiry)
    (hat : AtUpdate update row) (hstatus : row.status = .scheduled → expiry = row.expiryHeight)
    {crossed : Bool} :
  applyScheduleUpdate r (s, crossed) update = .ok (s, crossed)
  := by
  have hfind := find?_pendingOf htxids hrow hrun
  rw [htxid] at hfind
  unfold applyScheduleUpdate
  apply bind_eq_ok.mpr
  refine ⟨row, okOr_eq_ok.mpr hfind, ?_⟩
  apply bind_eq_ok.mpr
  refine ⟨expiry, hexpiry, ?_⟩
  by_cases hscheduled : row.status = .scheduled
  · rw [if_pos hscheduled]
    have hsame : s.updatePendingTxs
        (fun row => row.runId = r && row.txid = update.itemId && row.status = .scheduled)
        (updatedRow update expiry) = s := by
      unfold updatePendingTxs
      rw [updateWhere_eq_self]
      intro other hother hsel
      simp only [Bool.and_eq_true, decide_eq_true_eq] at hsel
      obtain rfl := htxids.eq hother hrow (hsel.1.2.trans htxid.symm)
      unfold updatedRow
      rw [if_neg (by simpa using hstatus hscheduled), ← hat.1, ← hat.2]
    apply pure_eq_ok.mpr
    rw [hsame, hstatus hscheduled]
    simp
  · rw [if_neg hscheduled]
    apply bind_eq_ok.mpr
    exact ⟨(), ensure_eq_ok.mpr hat, pure_eq_ok.mpr rfl⟩

theorem ReceiptApplied.pendingTxs (h : s.ReceiptApplied s' r txid scheduleUpdates) :
  s'.pendingTxs = s.pendingTxs.map (receiptRow r txid scheduleUpdates)
  := by
  rw [h.rows]

theorem ReceiptApplied.txids (h : s.ReceiptApplied s' r txid scheduleUpdates)
    (htxids : s.TxidsUnique) :
  s'.TxidsUnique
  := by
  unfold TxidsUnique
  rw [h.pendingTxs, List.map_map]
  have hsame : (fun row : PendingTx => row.txid) ∘ receiptRow r txid scheduleUpdates
      = fun row => row.txid := by
    funext row
    apply receiptRow_txid
  rw [hsame]
  apply htxids

/-- The first application of a receipt, for the second one. -/
theorem replay_of_safe (htxids : s.TxidsUnique)
    (h : s.applyAcceptedMigrationOutboxReceipt account network r txid remoteHeight scheduleUpdates
      = .ok s')
    (hsafe : s.ReplaySafe r scheduleUpdates) :
  s'.applyAcceptedMigrationOutboxReceipt account network r txid remoteHeight scheduleUpdates
    = .ok s'
  := by
  have happlied' := receiptApplied_of_eq_ok htxids h
  obtain ⟨run, accepted, supplied, crossed, hrun, hmem, hrunId, hid, hsupplied, happlied, -, -⟩ :=
    applyAcceptedMigrationOutboxReceipt_steps htxids h
  have hchecks := foldlM_checkScheduleUpdate hsupplied
  obtain ⟨-, hexpiries, htargets, -⟩ := foldlM_applyScheduleUpdate_eq htxids hchecks.1 happlied
  obtain ⟨f, hf, honly⟩ := happlied'.runs
  have hrows := happlied'.pendingTxs
  have htxids' := happlied'.txids htxids
  have hrun' : s'.runs.find? (fun run =>
      run.runId = r && run.accountUuid = account && run.network = network) = some (f run) := by
    rw [hf, List.find?_map]
    have hsel : ((fun run : MigrationRun => decide (run.runId = r)
          && decide (run.accountUuid = account) && decide (run.network = network)) ∘ f)
        = fun run => decide (run.runId = r) && decide (run.accountUuid = account)
          && decide (run.network = network) := by
      funext run
      rw [Function.comp_apply, (honly run).2]
    rw [hsel, hrun]
    rfl
  have hpolicy : (f run).timingPolicy = run.timingPolicy := by
    rw [(honly run).2]
  set accepted' := receiptRow r txid scheduleUpdates accepted with haccepted'
  have hstatus := receiptRow_accepted (fun update hupdate => (hchecks.2 update hupdate).1)
    hrunId hid
  rw [← haccepted'] at hstatus
  have hfind : (s'.pendingOf r).find? (fun row => row.txid = txid) = some accepted' := by
    have hid' : accepted'.txid = txid := by
      rw [haccepted', receiptRow_txid, hid]
    rw [← hid']
    apply find?_pendingOf htxids'
    · rw [hrows]
      apply List.mem_map_of_mem hmem
    · rw [haccepted', receiptRow_runId, hrunId]
  have hloop : scheduleUpdates.foldlM (applyScheduleUpdate r) (s', false) = .ok (s', false) := by
    apply foldlM_eq_self
    intro update hupdate
    obtain ⟨expiry, hexpiry⟩ := hexpiries update hupdate
    obtain ⟨row, hrow, hrowRun, hrowTxid, htarget⟩ := htargets update hupdate
    have hrow' := receiptRow_of_mem (r := r) hchecks.1 hupdate (hchecks.2 update hupdate).1 hrowTxid
    have hmem' : receiptRow r txid scheduleUpdates row ∈ s'.pendingTxs := by
      rw [hrows]
      apply List.mem_map_of_mem hrow
    apply applyScheduleUpdate_eq_self htxids' hmem' _ _ hexpiry
    · rw [hrow', scheduleUpdatedRow, hexpiry]
      split
      · rename_i hsel
        simp only [Bool.and_eq_true, decide_eq_true_eq] at hsel
        dsimp only
        unfold updatedRow
        split
        · rename_i hne
          apply hsafe update hupdate row hrow
          refine ⟨hrowRun, hrowTxid, hsel.2, ?_⟩
          rw [hexpiry]
          intro heq
          cases heq
          apply hne rfl
        · exact ⟨rfl, rfl⟩
      · rename_i hsel
        rcases htarget with hscheduled | hat
        · exact absurd (by simpa using ⟨⟨hrowRun, hrowTxid⟩, hscheduled⟩) hsel
        · apply hat
    · rw [hrow', scheduleUpdatedRow, hexpiry]
      split
      · dsimp only
        unfold updatedRow
        split
        · intro hscheduled
          cases hscheduled
        · rename_i heq
          intro _
          simpa using heq
      · rename_i hsel
        intro hscheduled
        exact absurd (by simpa using ⟨⟨hrowRun, hrowTxid⟩, hscheduled⟩) hsel
    · rw [receiptRow_runId, hrowRun]
    · rw [receiptRow_txid, hrowTxid]
  unfold applyAcceptedMigrationOutboxReceipt
  simp only [hrun', hfind, hpolicy, okOr, bind, Except.bind, hsupplied, hloop, hstatus.1, hstatus.2,
    ensure, Bool.false_eq_true, if_false, decide_false, Bool.or_self, pure, Except.pure,
    false_implies, if_true]

/-- A receipt that is applied again has taken no transaction out of its window. -/
theorem safe_of_replay (htxids : s.TxidsUnique)
    (h : s.applyAcceptedMigrationOutboxReceipt account network r txid remoteHeight scheduleUpdates
      = .ok s')
    (hagain : s'.applyAcceptedMigrationOutboxReceipt account network r txid remoteHeight
      scheduleUpdates = .ok s') :
  s.ReplaySafe r scheduleUpdates
  := by
  have hfirst := receiptApplied_of_eq_ok htxids h
  have htxids' := hfirst.txids htxids
  obtain ⟨run, accepted, supplied, crossed, -, -, -, -, hsupplied, -, -, -⟩ :=
    applyAcceptedMigrationOutboxReceipt_steps htxids h
  have hchecks := foldlM_checkScheduleUpdate hsupplied
  intro update hupdate row hrow hleaves
  have hrow' := receiptRow_of_mem (r := r) hchecks.1 hupdate (hchecks.2 update hupdate).1
    hleaves.2.1
  have hmem' : receiptRow r txid scheduleUpdates row ∈ s'.pendingTxs := by
    rw [hfirst.pendingTxs]
    apply List.mem_map_of_mem hrow
  obtain ⟨other, hother, -, htxid, htarget⟩ :=
    (receiptApplied_of_eq_ok htxids' hagain).targets update hupdate
  have hsame : other = scheduleUpdatedRow r row update := by
    rw [← hrow']
    apply htxids'.eq hother hmem'
    rw [receiptRow_txid, htxid, hleaves.2.1]
  obtain ⟨hrun, hid, hstatus, hne⟩ := hleaves
  rw [hsame, scheduleUpdatedRow, if_pos (by simp [hrun, hid, hstatus])] at htarget
  split at htarget
  · rename_i expiry hexpiry
    have hcrossed : expiry ≠ row.expiryHeight := by
      intro heq
      rw [heq] at hexpiry
      apply hne hexpiry
    rw [updatedRow, if_pos hcrossed] at htarget
    rcases htarget with hscheduled | hat
    · cases hscheduled
    · apply hat
  · rename_i e hexpiry
    obtain ⟨u, crossed, hu⟩ :
        ∃ u crossed, scheduleUpdates.foldlM (applyScheduleUpdate r) (s, false) = .ok (u, crossed) := by
      obtain ⟨_, _, _, _, -, -, -, -, -, happlied, -⟩ :=
        applyAcceptedMigrationOutboxReceipt_steps htxids h
      exact ⟨_, _, happlied⟩
    obtain ⟨-, hexpiries, -, -⟩ := foldlM_applyScheduleUpdate_eq htxids hchecks.1 hu
    obtain ⟨expiry, hok⟩ := hexpiries update hupdate
    rw [hexpiry] at hok
    cases hok

/-- **Receipts.**  A receipt that is refused changes nothing, and one that is not refused has
all its effects.  Applied again, it succeeds and changes nothing, exactly when no update takes
a transaction out of the window of its expiry, unless the transaction is at the heights of
the update already. -/
theorem acceptedReceipt_atomic_idempotent (hkeys : s.Keys) (account : AccountUuid)
    (network : WalletNetwork) (r : RunId) (txid : Txid) (remoteHeight : Nat)
    (scheduleUpdates : List MigrationOutboxScheduleUpdate) :
  (∀ e, s.applyAcceptedMigrationOutboxReceipt account network r txid remoteHeight scheduleUpdates
        = .error e →
      s.step (.applyAcceptedMigrationOutboxReceipt account network r txid remoteHeight
        scheduleUpdates) = s)
    ∧ ∀ s', s.applyAcceptedMigrationOutboxReceipt account network r txid remoteHeight
          scheduleUpdates = .ok s' →
        s.ReceiptApplied s' r txid scheduleUpdates
          ∧ (s'.applyAcceptedMigrationOutboxReceipt account network r txid remoteHeight
              scheduleUpdates = .ok s'
            ↔ s.ReplaySafe r scheduleUpdates)
  := by
  constructor
  · intro e he
    have hstep : s.step (.applyAcceptedMigrationOutboxReceipt account network r txid remoteHeight
        scheduleUpdates) = committed s (s.applyAcceptedMigrationOutboxReceipt account network r
          txid remoteHeight scheduleUpdates) := rfl
    rw [hstep, he]
    rfl
  · intro s' h
    refine ⟨receiptApplied_of_eq_ok hkeys.txids h, fun hagain => ?_, fun hsafe => ?_⟩
    · apply safe_of_replay hkeys.txids h hagain
    · apply replay_of_safe hkeys.txids h hsafe

/-! ### A receipt that takes a transaction out of its window -/

/-- Create a run with two parts, and add its transactions, 1 and 9 blocks after
`targetHeight`. -/
def samplePair (targetHeight : Nat) : List Op := [
  .createRunWithStagedDenominationsAndSignedChildren { sampleRun with targetValues := [100, 100] }
    [sampleNote, { sampleNote with outputIndex := 1 }] [] []
    (some [⟨some 0, 100, 1⟩, ⟨some 1, 100, 9⟩]),
  .insertPendingTxs 1 [
    { samplePending with
      targetHeight := targetHeight, expiryHeight := 69120, scheduledHeight := targetHeight + 1 },
    { samplePending with
      partIndex := 1, txid := 8, targetHeight := targetHeight, expiryHeight := 69120
      scheduledHeight := targetHeight + 9, selectedNote := { sampleNote with outputIndex := 1 } }]
    []]

/-- The first transaction is accepted when the second one is overdue, and the second one is
moved by one block. -/
def sampleReceipt (s : Store) (remoteHeight : Nat) : Except String Store :=
  s.applyAcceptedMigrationOutboxReceipt 1 .main 1 7 remoteHeight
    [⟨8, remoteHeight + 1, remoteHeight⟩]

/-- A receipt that keeps the second transaction in its window is applied twice. -/
theorem acceptedReceipt_atomic_idempotent_sample :
  ∃ s', sampleReceipt (after step {} (samplePair 34540)) 34549 = .ok s'
    ∧ sampleReceipt s' 34549 = .ok s'
  := by
  have hsome : (sampleReceipt (after step {} (samplePair 34540)) 34549).toOption.isSome := by
    decide +kernel
  cases hok : sampleReceipt (after step {} (samplePair 34540)) 34549 with
  | error e =>
    rw [hok] at hsome
    cases hsome
  | ok s' =>
    refine ⟨s', rfl, ?_⟩
    apply (((acceptedReceipt_atomic_idempotent (s := after step {} (samplePair 34540))
      keys_empty.after 1 .main 1 7 34549 [⟨8, 34550, 34549⟩]).2 s' hok).2).mpr
    have hwindow : ∀ row ∈ (after step {} (samplePair 34540)).pendingTxs,
        zip318CanonicalMigrationExpiryHeight 34550 = .ok row.expiryHeight := by
      have hexpiry : ∀ row ∈ (after step {} (samplePair 34540)).pendingTxs,
          row.expiryHeight = 69120 := by
        decide +kernel
      intro row hrow
      rw [hexpiry row hrow]
      rfl
    intro update hupdate row hrow hleaves
    obtain rfl := List.mem_singleton.mp hupdate
    exact absurd (hwindow row hrow) hleaves.2.2.2

/-- A receipt that takes the second transaction out of its window is refused the second
time. -/
theorem sampleReceipt_refused :
  (sampleReceipt (after step {} (samplePair 34550)) 34559).toOption.isSome = true
    ∧ ((sampleReceipt (after step {} (samplePair 34550)) 34559).bind
      fun s' => sampleReceipt s' 34559).toOption = none
  := by
  decide +kernel

end Store

end Vizor
