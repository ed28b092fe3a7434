import Vizor.Store.Pending

/-!
# Reconciliation with the chain

The statuses of the pending transactions follow what the wallet has scanned of the chain:
a transaction in the chain is confirmed, and one that left it is scheduled again.  A run is
complete when all its parts are confirmed at the depth that the wallet trusts.  Due and
expired transactions are marked for new signatures after a reconciliation.
-/

namespace Vizor

open Table Run

namespace Store

/-! ### Runs of a store -/

/-- The identifiers of the runs are a key. -/
def RunsUnique (s : Store) : Prop :=
  (s.runs.map (·.runId)).Nodup

variable {l : Licence} {s s' : Store} {r : RunId} {view : ChainView}

theorem RunsUnique.eq (h : s.RunsUnique) {run other : MigrationRun} (hrun : run ∈ s.runs)
    (hother : other ∈ s.runs) (hid : run.runId = other.runId) :
  run = other
  := List.inj_on_of_nodup_map h hrun hother hid

theorem RunsUnique.run?_eq_some (h : s.RunsUnique) {run : MigrationRun} :
  s.run? r = some run ↔ run ∈ s.runs ∧ run.runId = r
  := by
  constructor
  · intro hrun
    exact ⟨List.mem_of_find?_eq_some hrun, by simpa using List.find?_some hrun⟩
  · rintro ⟨hmem, hid⟩
    have hsome : (s.run? r).isSome := by
      rw [run?, List.find?_isSome]
      exact ⟨run, hmem, by simpa using hid⟩
    obtain ⟨other, hother⟩ := Option.isSome_iff_exists.mp hsome
    have hmem' := List.mem_of_find?_eq_some hother
    have hid' : other.runId = r := by simpa using List.find?_some hother
    rw [hother, h.eq hmem hmem' (hid.trans hid'.symm)]

theorem isLive_iff :
  s.isLive r = true ↔ ∃ run ∈ s.runs, run.runId = r ∧ run.phase.releasesWalletLocks = false
  := by
  simp [isLive]

/-- The phase of a live run is not terminal. -/
theorem RunsUnique.live_phase (h : s.RunsUnique) (hlive : s.isLive r = true)
    {run : MigrationRun} (hrun : run ∈ s.runs) (hid : run.runId = r) :
  run.phase.releasesWalletLocks = false
  := by
  obtain ⟨other, hother, hotherId, hphase⟩ := isLive_iff.mp hlive
  rw [h.eq hrun hother (hid.trans hotherId.symm)]
  apply hphase

/-- Every statement keeps the identifiers of the runs a key. -/
theorem Change.runsUnique (hchange : Change l s s') (h : s.RunsUnique) :
  s'.RunsUnique
  := by
  unfold RunsUnique at *
  cases hchange with
  | runs f hruns _ hf =>
    rw [hruns, List.map_map, List.map_congr_left (g := (·.runId))]
    · apply h
    · intro run hrun
      apply (hf run hrun).runId
  | pending f hruns _ _ => rwa [hruns]
  | discard p hruns _ => rwa [hruns]
  | insert row hruns _ _ _ _ => rwa [hruns]
  | replace old row p hruns _ _ _ _ _ _ => rwa [hruns]
  | create run hruns _ hunused _ _ =>
    rw [hruns, List.map_append, List.nodup_append]
    refine ⟨h, by simp, ?_⟩
    intro id hid other hother
    obtain ⟨old, hold, rfl⟩ := List.mem_map.mp hid
    simp only [List.map_cons, List.map_nil, List.mem_singleton] at hother
    rw [hother]
    apply hunused old hold
  | drop p hruns _ _ =>
    rw [hruns]
    apply h.sublist map_deleteWhere_sublist

theorem Evolves.runsUnique (hevolves : Evolves l s s') (h : s.RunsUnique) :
  s'.RunsUnique
  := hevolves.invariant (I := RunsUnique) (fun _ _ => Change.runsUnique) h

/-- The hashes of the pending transactions are a key. -/
def TxidsUnique (s : Store) : Prop :=
  (s.pendingTxs.map (·.txid)).Nodup

/-- Every statement keeps the hashes of the pending transactions a key. -/
theorem Change.txidsUnique (hchange : Change l s s') (h : s.TxidsUnique) :
  s'.TxidsUnique
  := by
  have happend : ∀ (t : List PendingTx) (row : PendingTx), (t.map (·.txid)).Nodup →
      row.Unused t → ((t ++ [row]).map (·.txid)).Nodup := by
    intro t row ht hunused
    rw [List.map_append, List.nodup_append]
    refine ⟨ht, by simp, ?_⟩
    intro txid htxid other hother
    obtain ⟨old, hold, rfl⟩ := List.mem_map.mp htxid
    simp only [List.map_cons, List.map_nil, List.mem_singleton] at hother
    rw [hother]
    apply (hunused old hold).1
  unfold TxidsUnique at *
  cases hchange with
  | runs f _ hpending _ => rwa [hpending]
  | pending f _ hpending hf =>
    rw [hpending, List.map_map, List.map_congr_left (g := (·.txid))]
    · apply h
    · intro row hrow
      apply (hf row hrow).txid
  | discard p _ hpending =>
    rw [hpending]
    apply h.sublist map_deleteWhere_sublist
  | insert row _ hpending _ hunused _ =>
    rw [hpending]
    apply happend _ _ h hunused
  | replace old row p _ hpending _ _ _ hunused _ =>
    rw [hpending]
    apply happend _ _ _ hunused
    apply h.sublist map_deleteWhere_sublist
  | create run _ hpending _ _ _ => rwa [hpending]
  | drop p _ hpending _ => rwa [hpending]

theorem Evolves.txidsUnique (hevolves : Evolves l s s') (h : s.TxidsUnique) :
  s'.TxidsUnique
  := hevolves.invariant (I := TxidsUnique) (fun _ _ => Change.txidsUnique) h

theorem TxidsUnique.eq (h : s.TxidsUnique) {row other : PendingTx} (hrow : row ∈ s.pendingTxs)
    (hother : other ∈ s.pendingTxs) (htxid : row.txid = other.txid) :
  row = other
  := List.inj_on_of_nodup_map h hrow hother htxid

/-! ### Confirmations -/

/-- What the chain says of a pending transaction. -/
def reconcilePendingRow (view : ChainView) (row : PendingTx) : PendingTx :=
  match view.localDenominationChainIdentity row.txid, row.status with
  | some _, .scheduled | some _, .broadcasted => { row with status := .confirmed }
  | none, .confirmed =>
    { row with
      status := .scheduled
      scheduleStartHeight := some row.targetHeight
      scheduledHeight := some row.targetHeight }
  | _, _ => row

/-- Update the pending transactions of a run that is not finished. -/
def reconcilePendingRows (view : ChainView) (s : Store) (r : RunId) : Store :=
  s.updatePendingTxs (fun row => row.runId = r && s.isLive r) (reconcilePendingRow view)

/-- Let a run in one of the given phases broadcast. -/
def resumeBroadcast (s : Store) (r : RunId) (phases : Phase → Bool) : Store :=
  s.updateRuns (fun run => run.runId = r && phases run.phase)
    fun run => { run with phase := .broadcastScheduled, lastError := none }

/-- Complete a run: release its notes and remove its signed children. -/
def completeRun (s : Store) (r : RunId) : Store :=
  ((s.updateRuns (fun run => run.runId = r && !run.phase.releasesWalletLocks)
      fun run => { run with phase := .complete, lastError := none }).updatePreparedNotes
    (fun row => row.runId = r) fun row => { row with locked := false }).deleteSignedChildren
    fun child => child.runId = r

/-- Let the statuses of the pending transactions follow the chain. -/
def settlePendingTxs (view : ChainView) (s : Store) (r : RunId) : Store :=
  let rescheduled := (s.pendingOf r).any fun row =>
    row.status = .confirmed && (view.localDenominationChainIdentity row.txid).isNone
  let s := s.reconcilePendingRows view r
  if rescheduled then s.resumeBroadcast r fun phase => !phase.releasesWalletLocks else s

/-- Reconcile the pending transactions of a run with the chain. -/
def reconcileRunConfirmations (view : ChainView) (s : Store) (r : RunId) :
    Except String Store := do
  let s := s.settlePendingTxs view r
  let run ← s.readRun r "Read migration phase during confirmation reconciliation"
  let unpromotedCount := s.unpromotedSignedChildPcztCount r
  let s := if run.phase = .waitingMigrationConfirmations && unpromotedCount > 0 then
      s.resumeBroadcast r fun phase => phase = .waitingMigrationConfirmations
    else s
  let totalCount := (s.pendingOf r).length
  let confirmedCount := s.countPendingWithStatus r .confirmed
  if totalCount > 0 && confirmedCount ≥ totalCount then do
    let plannedCount ← s.plannedPartCount r
    if plannedCount = 0 || totalCount ≠ plannedCount || unpromotedCount > 0 then
      return if run.phase = .waitingMigrationConfirmations then
          s.resumeBroadcast r fun phase => phase = .waitingMigrationConfirmations
        else s
    else if !(s.pendingOf r).all fun row => view.trusts row.txid then return s
    else if s.runs.countP (fun run => run.runId = r && !run.phase.releasesWalletLocks) ≠ 1 then
      return s
    else return s.completeRun r
  else return s

/-! ### What a reconciliation may do -/

/-- Transactions that are counted as confirmed are confirmed. -/
theorem all_confirmed_of_count
    (h : s.countPendingWithStatus r .confirmed ≥ (s.pendingOf r).length) :
  ∀ row ∈ s.pendingOf r, row.status = .confirmed
  := by
  have hcount : (s.pendingOf r).countP (fun row => row.status = .confirmed)
      = (s.pendingOf r).length := by
    apply Nat.le_antisymm List.countP_le_length h
  intro row hrow
  simpa using List.countP_eq_length.mp hcount row hrow

/-- The phase in which a run waits for its confirmations. -/
def isWaiting (phase : Phase) : Bool :=
  phase = .waitingMigrationConfirmations

/-- After the rows are settled, a reconciliation may let a run that waits broadcast again, and
then does so once more, completes the run when all its transactions are confirmed, or is
done. -/
theorem reconcileRunConfirmations_cases (h : s.reconcileRunConfirmations view r = .ok s') :
  ∃ u, (u = s.settlePendingTxs view r
        ∨ u = (s.settlePendingTxs view r).resumeBroadcast r isWaiting)
    ∧ (s' = u ∨ s' = u.resumeBroadcast r isWaiting
        ∨ s' = u.completeRun r ∧ ∀ row ∈ u.pendingOf r, row.status = .confirmed)
  := by
  obtain ⟨run, -, h⟩ := bind_eq_ok.mp h
  set t := s.settlePendingTxs view r
  dsimp only at h
  set u : Store := if run.phase = .waitingMigrationConfirmations
      && t.unpromotedSignedChildPcztCount r > 0 then
      t.resumeBroadcast r fun phase => phase = .waitingMigrationConfirmations
    else t with hu
  use u
  constructor
  · rw [hu]
    split
    · exact .inr rfl
    · exact .inl rfl
  split at h
  · rename_i hcounts
    obtain ⟨planned, -, h⟩ := bind_eq_ok.mp h
    split at h
    · obtain rfl := pure_eq_ok.mp h
      split
      · exact .inr (.inl rfl)
      · exact .inl rfl
    · split at h
      · obtain rfl := pure_eq_ok.mp h
        exact .inl rfl
      · split at h
        · obtain rfl := pure_eq_ok.mp h
          exact .inl rfl
        · obtain rfl := pure_eq_ok.mp h
          simp only [Bool.and_eq_true, decide_eq_true_eq] at hcounts
          exact .inr (.inr ⟨rfl, all_confirmed_of_count hcounts.2⟩)
  · obtain rfl := pure_eq_ok.mp h
    exact .inl rfl

/-- A confirmed transaction that left the chain is demoted. -/
theorem reconcilePendingRow_touched {row : PendingTx}
    (hdemote : row.status = .confirmed → view.localDenominationChainIdentity row.txid = none →
      l.demote row) :
  row.Touched l (reconcilePendingRow view row)
  := by
  unfold reconcilePendingRow
  split
  · apply PendingTx.touched_of_status (by decide)
  · apply PendingTx.touched_of_status (by decide)
  · rename_i hidentity hstatus
    refine ⟨rfl, rfl, fun _ => rfl, fun _ => rfl, fun _ => .inr (.inr ?_)⟩
    exact ⟨hdemote hstatus hidentity, rfl, rfl⟩
  · apply PendingTx.Touched.refl

theorem resumeBroadcast_evolves {phases : Phase → Bool}
    (hphases : ∀ phase, phases phase = true → phase.releasesWalletLocks = false) :
  Evolves l s (s.resumeBroadcast r phases)
  := by
  apply evolves_updateRuns
  intro run _ hrun
  rw [Bool.and_eq_true] at hrun
  refine ⟨rfl, ⟨rfl, rfl⟩, rfl, .inr ⟨.inl (hphases _ hrun.2), by simp⟩⟩

/-- An update that keeps whether a phase is terminal keeps the live runs. -/
theorem isLive_updateRuns {p : MigrationRun → Bool} {f : MigrationRun → MigrationRun}
    (hid : ∀ run, (f run).runId = run.runId)
    (hphase : ∀ run, p run = true →
      (f run).phase.releasesWalletLocks = run.phase.releasesWalletLocks) {r' : RunId} :
  (s.updateRuns p f).isLive r' = s.isLive r'
  := by
  unfold isLive updateRuns updateWhere
  rw [List.any_map]
  congr 1
  funext run
  rw [Function.comp_apply]
  split
  · rename_i hp
    rw [hid, hphase run hp]
  · rfl

/-- A run that resumes its broadcasts stays live. -/
theorem isLive_resumeBroadcast {phases : Phase → Bool}
    (hphases : ∀ phase, phases phase = true → phase.releasesWalletLocks = false) {r' : RunId} :
  (s.resumeBroadcast r phases).isLive r' = s.isLive r'
  := by
  apply isLive_updateRuns
  · simp
  · intro run hrun
    rw [Bool.and_eq_true] at hrun
    rw [hphases _ hrun.2]
    rfl

theorem releasesWalletLocks_of_not {phase : Phase} (h : (!phase.releasesWalletLocks) = true) :
  phase.releasesWalletLocks = false
  := by
  simpa using h

theorem releasesWalletLocks_of_waiting {phase : Phase}
    (h : decide (phase = .waitingMigrationConfirmations) = true) :
  phase.releasesWalletLocks = false
  := by
  rw [decide_eq_true_eq] at h
  rw [h]
  rfl

theorem settlePendingTxs_evolves
    (hdemote : ∀ row ∈ s.pendingTxs, row.runId = r → row.status = .confirmed →
      view.localDenominationChainIdentity row.txid = none → s.isLive r = true → l.demote row) :
  Evolves l s (s.settlePendingTxs view r)
  := by
  have hrows : Evolves l s (s.reconcilePendingRows view r) := by
    apply evolves_updatePendingTxs
    intro row hrow hp
    rw [Bool.and_eq_true, decide_eq_true_eq] at hp
    apply reconcilePendingRow_touched
    intro hstatus hidentity
    apply hdemote row hrow hp.1 hstatus hidentity hp.2
  unfold settlePendingTxs
  dsimp only
  split
  · apply Evolves.trans hrows (resumeBroadcast_evolves fun _ => releasesWalletLocks_of_not)
  · apply hrows

theorem completeRun_evolves (hcomplete : l.complete r) :
  Evolves l s (s.completeRun r)
  := by
  have hruns : Evolves l s (s.updateRuns
      (fun run => run.runId = r && !run.phase.releasesWalletLocks)
      fun run => { run with phase := .complete, lastError := none }) := by
    apply evolves_updateRuns
    intro run _ hrun
    simp only [Bool.and_eq_true, decide_eq_true_eq] at hrun
    refine ⟨rfl, ⟨rfl, rfl⟩, rfl,
      .inr ⟨.inl (releasesWalletLocks_of_not hrun.2), fun _ => ?_, by simp⟩⟩
    rw [hrun.1]
    apply hcomplete
  apply Evolves.trans hruns
  apply evolves_of_eq <;> rfl

/-- A reconciliation demotes the confirmed transactions that left the chain, and may
complete the run. -/
theorem reconcileRunConfirmations_evolves
    (hdemote : ∀ row ∈ s.pendingTxs, row.runId = r → row.status = .confirmed →
      view.localDenominationChainIdentity row.txid = none → s.isLive r = true → l.demote row)
    (hcomplete : l.complete r) (h : s.reconcileRunConfirmations view r = .ok s') :
  Evolves l s s'
  := by
  obtain ⟨u, hu, hs'⟩ := reconcileRunConfirmations_cases h
  have hsettle : Evolves l s (s.settlePendingTxs view r) := settlePendingTxs_evolves hdemote
  have hresume : ∀ t : Store, Evolves l t (t.resumeBroadcast r isWaiting) :=
    fun t => resumeBroadcast_evolves fun _ => releasesWalletLocks_of_waiting
  have hsu : Evolves l s u := by
    rcases hu with rfl | rfl
    · apply hsettle
    · apply Evolves.trans hsettle (hresume _)
  rcases hs' with rfl | rfl | ⟨rfl, -⟩
  · apply hsu
  · apply Evolves.trans hsu (hresume _)
  · apply Evolves.trans hsu (completeRun_evolves hcomplete)

/-- An update that meets no run changes nothing. -/
theorem updateRuns_eq_self {p : MigrationRun → Bool} {f : MigrationRun → MigrationRun}
    (h : ∀ run ∈ s.runs, p run = false) :
  s.updateRuns p f = s
  := by
  unfold updateRuns
  rw [updateWhere_eq_self]
  intro run hrun hp
  rw [h run hrun] at hp
  cases hp

theorem updatePendingTxs_eq_self {p : PendingTx → Bool} {f : PendingTx → PendingTx}
    (h : ∀ row ∈ s.pendingTxs, p row = false) :
  s.updatePendingTxs p f = s
  := by
  unfold updatePendingTxs
  rw [updateWhere_eq_self]
  intro row hrow hp
  rw [h row hrow] at hp
  cases hp

/-- A run that is not live does not resume its broadcasts. -/
theorem resumeBroadcast_of_not_live {phases : Phase → Bool}
    (hphases : ∀ phase, phases phase = true → phase.releasesWalletLocks = false)
    (hlive : s.isLive r = false) :
  s.resumeBroadcast r phases = s
  := by
  apply updateRuns_eq_self
  intro run hrun
  rw [Bool.and_eq_false_iff, decide_eq_false_iff_not]
  by_cases hid : run.runId = r
  · right
    by_contra hp
    rw [Bool.not_eq_false] at hp
    have := isLive_iff.mpr ⟨run, hrun, hid, hphases _ hp⟩
    rw [hlive] at this
    cases this
  · exact .inl hid

theorem settlePendingTxs_of_not_live (hlive : s.isLive r = false) :
  s.settlePendingTxs view r = s
  := by
  have hrows : s.reconcilePendingRows view r = s := by
    apply updatePendingTxs_eq_self
    simp [hlive]
  unfold settlePendingTxs
  rw [hrows]
  dsimp only
  split
  · apply resumeBroadcast_of_not_live (fun _ => releasesWalletLocks_of_not) hlive
  · rfl

/-- A reconciliation of a run that is not live changes nothing. -/
theorem reconcileRunConfirmations_of_not_live (hlive : s.isLive r = false)
    (h : s.reconcileRunConfirmations view r = .ok s') :
  s' = s
  := by
  have hwaiting : s.resumeBroadcast r (fun phase => phase = .waitingMigrationConfirmations) = s :=
    resumeBroadcast_of_not_live (fun _ => releasesWalletLocks_of_waiting) hlive
  have hcount : s.runs.countP (fun run => run.runId = r && !run.phase.releasesWalletLocks) = 0 := by
    rw [List.countP_eq_zero]
    intro run hrun hp
    have := List.any_eq_false.mp hlive run hrun
    apply this hp
  unfold reconcileRunConfirmations at h
  rw [settlePendingTxs_of_not_live hlive] at h
  obtain ⟨run, -, h⟩ := bind_eq_ok.mp h
  simp only [hwaiting, ite_self, hcount] at h
  split at h
  · obtain ⟨planned, -, h⟩ := bind_eq_ok.mp h
    split at h
    · apply (pure_eq_ok.mp h).symm
    · split at h
      · apply (pure_eq_ok.mp h).symm
      · apply (pure_eq_ok.mp h).symm
  · apply (pure_eq_ok.mp h).symm

/-- The notes of the pending transactions stay when their rows are updated. -/
theorem unpromoted_updatePendingTxs {p : PendingTx → Bool} {f : PendingTx → PendingTx}
    (hid : ∀ row, (f row).runId = row.runId)
    (hnote : ∀ row, (f row).selectedOutpoint = row.selectedOutpoint) :
  (s.updatePendingTxs p f).unpromotedSignedChildNoteOutpoints r
    = s.unpromotedSignedChildNoteOutpoints r
  := by
  have hnotes : (s.updatePendingTxs p f).pendingMigrationNoteOutpoints r
      = s.pendingMigrationNoteOutpoints r := by
    unfold pendingMigrationNoteOutpoints pendingOf updatePendingTxs
    rw [filter_updateWhere, map_updateWhere]
    · intro row _ _
      apply hnote
    · intro row _ _
      rw [hid]
  unfold unpromotedSignedChildNoteOutpoints
  rw [hnotes]
  rfl

theorem unpromoted_settlePendingTxs :
  (s.settlePendingTxs view r).unpromotedSignedChildNoteOutpoints r
    = s.unpromotedSignedChildNoteOutpoints r
  := by
  have hrows : (s.reconcilePendingRows view r).unpromotedSignedChildNoteOutpoints r
      = s.unpromotedSignedChildNoteOutpoints r := by
    apply unpromoted_updatePendingTxs
    · intro row
      unfold reconcilePendingRow
      split <;> rfl
    · intro row
      unfold reconcilePendingRow
      split <;> rfl
  unfold settlePendingTxs
  dsimp only
  split <;> exact hrows

theorem isLive_settlePendingTxs {r' : RunId} :
  (s.settlePendingTxs view r).isLive r' = s.isLive r'
  := by
  unfold settlePendingTxs
  dsimp only
  split
  · rw [isLive_resumeBroadcast fun _ => releasesWalletLocks_of_not]
    rfl
  · rfl

/-- What holds when a reconciliation completes a run. -/
structure Completed (view : ChainView) (s s' : Store) (r : RunId) : Prop where
  /-- Every planned part has a transaction, and there are no others. -/
  planned : ∃ run ∈ s'.runs, run.runId = r ∧ run.targetValues ≠ []
    ∧ (s'.pendingOf r).length = run.targetValues.length
  confirmed : ∀ row ∈ s'.pendingOf r, row.status = .confirmed
  trusted : ∀ row ∈ s'.pendingOf r, view.trusts row.txid = true
  promoted : s.unpromotedSignedChildNoteOutpoints r = []
  unlocked : ∀ row ∈ s'.preparedOf r, row.locked = false
  removed : s'.childrenOf r = []

/-- Completing a run whose parts are all trusted. -/
theorem completeRun_completed {u : Store} {run : MigrationRun} (hrun : u.run? r = some run)
    (hne : run.targetValues ≠ []) (htotal : (u.pendingOf r).length = run.targetValues.length)
    (hconfirmed : ∀ row ∈ u.pendingOf r, row.status = .confirmed)
    (htrusted : ∀ row ∈ u.pendingOf r, view.trusts row.txid = true)
    (hpromoted : s.unpromotedSignedChildNoteOutpoints r = []) :
  Completed view s (u.completeRun r) r
  := by
  constructor
  · have hmem := List.mem_of_find?_eq_some hrun
    have hid : run.runId = r := by simpa using List.find?_some hrun
    use if run.runId = r && !run.phase.releasesWalletLocks then
        { run with phase := .complete, lastError := none }
      else run
    refine ⟨mem_updateWhere.mpr ⟨run, hmem, rfl⟩, ?_⟩
    split
    · exact ⟨hid, hne, htotal⟩
    · exact ⟨hid, hne, htotal⟩
  · apply hconfirmed
  · apply htrusted
  · apply hpromoted
  · intro row hrow
    obtain ⟨hrow, hid⟩ := List.mem_filter.mp hrow
    obtain ⟨old, hold, rfl⟩ := mem_updateWhere.mp hrow
    split
    · rfl
    · rename_i hold'
      split at hid
      · contradiction
      · exact absurd hid hold'
  · unfold childrenOf completeRun deleteSignedChildren
    rw [List.filter_eq_nil_iff]
    intro child hchild
    simpa using (mem_deleteWhere.mp hchild).2

/-- A reconciliation of a live run keeps it live or completes it. -/
theorem reconcileRunConfirmations_completed (hlive : s.isLive r = true)
    (h : s.reconcileRunConfirmations view r = .ok s') :
  s'.isLive r = true ∨ Completed view s s' r
  := by
  obtain ⟨run, -, h⟩ := bind_eq_ok.mp h
  set t := s.settlePendingTxs view r with ht
  dsimp only at h
  set u : Store := if run.phase = .waitingMigrationConfirmations
      && t.unpromotedSignedChildPcztCount r > 0 then
      t.resumeBroadcast r fun phase => phase = .waitingMigrationConfirmations
    else t with hu
  have htlive : t.isLive r = true := by
    rw [ht, isLive_settlePendingTxs]
    apply hlive
  have hulive : u.isLive r = true := by
    rw [hu]
    split
    · rw [isLive_resumeBroadcast fun _ => releasesWalletLocks_of_waiting]
      apply htlive
    · apply htlive
  split at h
  · rename_i hcounts
    obtain ⟨planned, hplanned, h⟩ := bind_eq_ok.mp h
    split at h
    · left
      rw [← pure_eq_ok.mp h]
      split
      · rw [isLive_resumeBroadcast fun _ => releasesWalletLocks_of_waiting]
        apply hulive
      · apply hulive
    · rename_i hall
      split at h
      · left
        rw [← pure_eq_ok.mp h]
        apply hulive
      · rename_i htrusted
        split at h
        · left
          rw [← pure_eq_ok.mp h]
          apply hulive
        · right
          rw [← pure_eq_ok.mp h]
          simp only [Bool.or_eq_true, decide_eq_true_eq, not_or, gt_iff_lt, Nat.not_lt,
            Nat.le_zero, ne_eq, not_not] at hall
          obtain ⟨⟨hne, htotal⟩, hpromoted⟩ := hall
          simp only [plannedPartCount, readRun, bind_eq_ok, okOr_eq_ok, pure_eq_ok] at hplanned
          obtain ⟨row, hrow, rfl⟩ := hplanned
          apply completeRun_completed hrow _ htotal _ _ _
          · intro hnil
            rw [hnil] at hne
            apply hne rfl
          · simp only [Bool.and_eq_true, decide_eq_true_eq] at hcounts
            apply all_confirmed_of_count hcounts.2
          · simpa using htrusted
          · have hsame : t.unpromotedSignedChildNoteOutpoints r
                = s.unpromotedSignedChildNoteOutpoints r := by
              rw [ht]
              apply unpromoted_settlePendingTxs
            rw [← hsame]
            apply List.eq_nil_of_length_eq_zero hpromoted
  · left
    rw [← pure_eq_ok.mp h]
    apply hulive

end Store

end Vizor
