import Vizor.Store.OnOpen
import Vizor.Store.Retirement

/-!
# What is accepted is stored before a retirement

Behind the gate, everything that the network has accepted and that is on record as accepted
is in the wallet when the run is retired, and the run is not finished.  The receipts of the
outbox, the expiry of the preparation and the preparation of a batch for the signer retire a
run without the gate: what could not be stored when it was accepted is lost from sight, and
a late receipt retires a run that was complete or abandoned.
-/

namespace Vizor

open Table Run

namespace Store

variable {s s' : Store} {r : RunId} {view : ChainView}

/-! ### Reconciliation -/

/-- A reconciliation changes the rows as the chain says. -/
theorem reconcileRunConfirmations_pendingTxs (h : s.reconcileRunConfirmations view r = .ok s') :
  s'.pendingTxs = (s.reconcilePendingRows view r).pendingTxs
  := by
  obtain ⟨u, hu, hs'⟩ := reconcileRunConfirmations_cases h
  have hsettle : (s.settlePendingTxs view r).pendingTxs
      = (s.reconcilePendingRows view r).pendingTxs := by
    unfold settlePendingTxs
    dsimp only
    split <;> rfl
  have hrows : u.pendingTxs = (s.reconcilePendingRows view r).pendingTxs := by
    rcases hu with rfl | rfl
    · apply hsettle
    · apply hsettle
  rcases hs' with rfl | rfl | ⟨rfl, -⟩
  · apply hrows
  · apply hrows
  · apply hrows

/-- A transaction that was broadcast is so after a reconciliation, or in the chain. -/
theorem reconcileRunConfirmations_broadcasted
    (h : s.reconcileRunConfirmations view r = .ok s') {row : PendingTx}
    (hrow : row ∈ s.pendingTxs) (hstatus : row.status = .broadcasted) :
  row ∈ s'.pendingTxs ∨ (view.localDenominationChainIdentity row.txid).isSome = true
  := by
  rw [reconcileRunConfirmations_pendingTxs h]
  by_cases hidentity : (view.localDenominationChainIdentity row.txid).isSome = true
  · exact .inr hidentity
  · left
    rw [Bool.not_eq_true, Option.isSome_eq_false_iff, Option.isNone_iff_eq_none] at hidentity
    apply mem_updateWhere.mpr
    refine ⟨row, hrow, ?_⟩
    split
    · unfold reconcilePendingRow
      rw [hidentity, hstatus]
    · rfl

/-- The run is neither complete nor abandoned. -/
def Unfinished (s : Store) (r : RunId) : Prop :=
  ∀ run ∈ s.runs, run.runId = r → run.phase ≠ .complete ∧ run.phase ≠ .abandoned

/-- Writing a phase that is not final leaves a run unfinished. -/
theorem Unfinished.updateRuns {p : MigrationRun → Bool} {f : MigrationRun → MigrationRun}
    (h : s.Unfinished r) (hid : ∀ run, (f run).runId = run.runId)
    (hf : ∀ run ∈ s.runs, run.runId = r → p run = true →
      (f run).phase ≠ .complete ∧ (f run).phase ≠ .abandoned) :
  (s.updateRuns p f).Unfinished r
  := by
  intro run' hrun' hid'
  obtain ⟨run, hrun, rfl⟩ := mem_updateWhere.mp hrun'
  split at hid'
  · rename_i hp
    rw [if_pos hp]
    rw [hid] at hid'
    apply hf run hrun hid' hp
  · rename_i hp
    rw [if_neg hp]
    apply h run hrun hid'

theorem Unfinished.resumeBroadcast {phases : Phase → Bool} (h : s.Unfinished r) :
  (s.resumeBroadcast r phases).Unfinished r
  := by
  apply h.updateRuns
  · intro run
    rfl
  · intro run _ _ _
    exact ⟨by simp, by simp⟩

theorem Unfinished.settlePendingTxs (h : s.Unfinished r) :
  (s.settlePendingTxs view r).Unfinished r
  := by
  unfold Store.settlePendingTxs
  dsimp only
  split
  · apply Unfinished.resumeBroadcast
    apply h
  · apply h

/-- A reconciliation that leaves a transaction of the run out of the chain does not finish
it. -/
theorem Unfinished.reconcileRunConfirmations (h : s.Unfinished r)
    (hok : s.reconcileRunConfirmations view r = .ok s')
    (hrow : ∃ row ∈ s'.pendingOf r, row.status ≠ .confirmed) :
  s'.Unfinished r
  := by
  obtain ⟨u, hu, hs'⟩ := reconcileRunConfirmations_cases hok
  have hu' : u.Unfinished r := by
    rcases hu with rfl | rfl
    · apply h.settlePendingTxs
    · apply h.settlePendingTxs.resumeBroadcast
  rcases hs' with rfl | rfl | ⟨rfl, hconfirmed⟩
  · apply hu'
  · apply hu'.resumeBroadcast
  · obtain ⟨row, hmem, hstatus⟩ := hrow
    exact absurd (hconfirmed row hmem) hstatus

/-- The latest of `best` and the runs is one of them. -/
theorem mem_of_foldl_latest {runs : List MigrationRun} {best : Option MigrationRun}
    {run : MigrationRun}
    (h : runs.foldl (fun best run => match best with
      | none => some run
      | some other => if other.createdAtMs < run.createdAtMs then some run else some other) best
        = some run) :
  run ∈ runs ∨ best = some run
  := by
  induction runs generalizing best with
  | nil => exact .inr h
  | cons first runs ih =>
    rw [List.foldl_cons] at h
    rcases ih h with hmem | hsome
    · exact .inl (List.mem_cons_of_mem _ hmem)
    · split at hsome
      · cases hsome
        exact .inl List.mem_cons_self
      · split at hsome
        · cases hsome
          exact .inl List.mem_cons_self
        · exact .inr hsome

/-- An active run is not finished. -/
theorem unfinished_of_activeRun {account : AccountUuid} {network : WalletNetwork}
    {run : MigrationRun} (hruns : s.RunsUnique) (h : s.activeRun account network = some run) :
  s.Unfinished run.runId
  := by
  rcases mem_of_foldl_latest h with hmem | hnone
  · obtain ⟨hrun, hactive⟩ := List.mem_filter.mp hmem
    simp only [Bool.and_eq_true, decide_eq_true_eq, Bool.not_eq_true'] at hactive
    intro other hother hid
    rw [hruns.eq hother hrun hid]
    constructor
    · intro hphase
      rw [hphase] at hactive
      exact absurd hactive.2 (by decide)
    · intro hphase
      rw [hphase] at hactive
      exact absurd hactive.2 (by decide)
  · cases hnone

/-! ### The policy -/

theorem isUnconfirmed_ne_confirmed {row : PendingTx} (h : isUnconfirmed row = true) :
  row.status ≠ .confirmed
  := by
  intro hstatus
  simp [isUnconfirmed, hstatus] at h

/-- The policy only asks for a rebuild when a transaction is not in the chain. -/
theorem exists_of_pendingMigrationPolicyRebuildMessage {policy : RebuildPolicy}
    {message : String}
    (h : s.pendingMigrationPolicyRebuildMessage r policy = .ok (some message)) :
  ∃ row ∈ s.pendingOf r, row.status ≠ .confirmed
  := by
  obtain ⟨targetHeight, -, h⟩ := bind_eq_ok.mp h
  obtain ⟨canonicalFee, -, h⟩ := bind_eq_ok.mp h
  have h := pure_eq_ok.mp h
  split at h
  · rename_i hstale
    obtain ⟨row, hrow, hselected⟩ := List.countP_pos_iff.mp hstale
    rw [Bool.and_eq_true] at hselected
    exact ⟨row, hrow, isUnconfirmed_ne_confirmed hselected.1⟩
  · split at h
    · rename_i hspent
      obtain ⟨_, hmem⟩ := List.exists_mem_of_ne_nil _ hspent
      obtain ⟨row, hrow, -⟩ := List.mem_map.mp hmem
      obtain ⟨hrow, hselected⟩ := List.mem_filter.mp hrow
      rw [Bool.and_eq_true] at hselected
      exact ⟨row, hrow, isUnconfirmed_ne_confirmed hselected.1⟩
    · cases h

/-- What is broadcast and not missing is in the wallet. -/
theorem localTransactionRaw_of_not_missing
    (h : s.broadcastedPendingTxsMissingLocalIdentity view r = []) {row : PendingTx}
    (hrow : row ∈ s.pendingTxs) (hid : row.runId = r) (hstatus : row.status = .broadcasted) :
  view.localTransactionRaw row.txid = true
  := by
  rw [broadcastedPendingTxsMissingLocalIdentity, List.filterMap_eq_nil_iff] at h
  have hmem : row ∈ ((s.pendingOf r).filter fun row => row.status = .broadcasted) := by
    simp [pendingOf, hrow, hid, hstatus]
  have hnone := h row (List.mem_insertionSort _ |>.mpr hmem)
  by_contra hraw
  rw [if_neg hraw] at hnone
  cases hnone

end Store

namespace WalletDb

variable {w w' w'' : WalletDb} {r : RunId}

/-! ### What the code does to the database -/

/-- The wallet forgets nothing and the network accepts nothing; the store has its keys. -/
structure Advances (w w' : WalletDb) : Prop where
  accepted : w'.accepted = w.accepted
  known : ∀ txid, w.known txid = true → w'.known txid = true
  keys : w.store.Keys → w'.store.Keys

theorem Advances.refl :
  Advances w w
  := ⟨rfl, fun _ h => h, id⟩

theorem Advances.trans (h : Advances w w') (h' : Advances w' w'') :
  Advances w w''
  := ⟨h'.accepted.trans h.accepted, fun txid hknown => h'.known txid (h.known txid hknown),
    fun hkeys => h'.keys (h.keys hkeys)⟩

/-- Everything of a run that the network has accepted is in the wallet. -/
def AllStored (w : WalletDb) (r : RunId) : Prop :=
  ∀ txid, (r, txid) ∈ w.accepted → w.known txid = true

theorem AllStored.advances (h : w.AllStored r) (hadvances : Advances w w') :
  w'.AllStored r
  := by
  intro txid htxid
  rw [hadvances.accepted] at htxid
  apply hadvances.known txid (h txid htxid)

theorem advances_write {s : Store} (hkeys : w.store.Keys → s.Keys) :
  Advances w (w.write s)
  := ⟨rfl, fun _ h => h, hkeys⟩

/-- An operation of the store. -/
theorem advances_write_step (op : Op) :
  Advances w (w.write (w.store.step op))
  := advances_write Store.Keys.step

theorem advances_scan {view : ChainView} :
  Advances w (w.scan view)
  := ⟨rfl, fun _ h => by simp [scan, h], id⟩

theorem advances_decryptAndStoreMigrationTx {txid : Txid} :
  Advances w (w.decryptAndStoreMigrationTx txid)
  := advances_scan

/-- A transaction of the store that commits an operation. -/
theorem advances_commit {α : Type} {result : Except String (Store × α)} (op : Op)
    (h : ∀ s a, result = .ok (s, a) → w.store.apply op = .ok s) :
  Advances w (w.commit result).1
  := by
  unfold commit
  split
  · rename_i s a
    apply advances_write
    intro hkeys
    have hstep : (w.store.step op).Keys := hkeys.step
    unfold Store.step committed at hstep
    rw [h s a rfl] at hstep
    apply hstep
  · apply Advances.refl

theorem advances_commitUnit {result : Except String Store} (op : Op)
    (h : ∀ s, result = .ok s → w.store.apply op = .ok s) :
  Advances w (w.commitUnit result).1
  := by
  apply advances_commit op
  intro s a hresult
  cases result with
  | error e => cases hresult
  | ok s' =>
    cases hresult
    apply h
    rfl

theorem advances_reconcile :
  Advances w (w.commitUnit (w.store.reconcileRunConfirmations w.view r)).1
  := by
  apply advances_commitUnit (.reconcileRunConfirmations w.view r)
  intro s h
  apply h

/-! ### Storing again -/

/-- What a retry does besides. -/
structure Retried (r : RunId) (w w' : WalletDb) : Prop extends Advances w w' where
  pendingTxs : w'.store.pendingTxs = w.store.pendingTxs
  unfinished : w.store.Unfinished r → w'.store.Unfinished r

theorem Retried.refl :
  Retried r w w
  := ⟨Advances.refl, rfl, id⟩

theorem Retried.trans (h : Retried r w w') (h' : Retried r w' w'') :
  Retried r w w''
  := ⟨h.toAdvances.trans h'.toAdvances, h'.pendingTxs.trans h.pendingTxs,
    fun hunfinished => h'.unfinished (h.unfinished hunfinished)⟩

/-- Stamping a message keeps the phase. -/
theorem stampRun_retried {message : Option String} :
  Retried r w (w.stampRun r message).1
  := by
  unfold stampRun
  cases hrun : w.store.readRun r "Read migration run phase" with
  | error e => exact Retried.refl
  | ok run =>
    refine ⟨advances_write_step (.markRunPhase r run.phase message), rfl, ?_⟩
    intro h
    apply h.updateRuns
    · intro other
      rfl
    · intro other _ _ _
      have hfound := okOr_eq_ok.mp hrun
      apply h run (List.mem_of_find?_eq_some hfound) (by simpa using List.find?_some hfound)

theorem foldl_retryStore_retried {storeError : Txid → Option String} (txids : List Txid)
    (acc : WalletDb × Nat × Option String) :
  Retried r acc.1 (txids.foldl (retryStore storeError) acc).1
  := by
  induction txids generalizing acc with
  | nil => exact Retried.refl
  | cons txid txids ih =>
    rw [List.foldl_cons]
    apply Retried.trans _ (ih _)
    unfold retryStore
    split
    · exact ⟨advances_decryptAndStoreMigrationTx, rfl, id⟩
    · apply Retried.refl

theorem retryStoreBroadcastedMigrationTxsMissingLocal_retried {storeError : Txid → Option String} :
  Retried r w (w.retryStoreBroadcastedMigrationTxsMissingLocal r storeError).1
  := by
  unfold retryStoreBroadcastedMigrationTxsMissingLocal
  have hfold : Retried r w ((w.store.broadcastedPendingTxsMissingLocalIdentity w.view r).foldl
      (retryStore storeError) (w, 0, none)).1 := foldl_retryStore_retried _ (w, 0, none)
  dsimp only
  generalize List.foldl _ _ _ = acc at hfold ⊢
  obtain ⟨t, stored, lastFailure⟩ := acc
  apply afterOk_rel (R := Retried r) Retried.trans
  · split
    · apply hfold.trans stampRun_retried
    · apply hfold
  · intro _ _
    cases lastFailure with
    | none => exact Retried.refl
    | some message =>
      apply afterOk_rel (R := Retried r) Retried.trans stampRun_retried
      intro _ _
      apply Retried.refl

/-! ### The gate -/

/-- What the network has accepted of a run is on record: the wallet holds it, or its row says
that it was accepted. -/
def Recorded (w : WalletDb) (r : RunId) : Prop :=
  ∀ txid, (r, txid) ∈ w.accepted → w.known txid = true
    ∨ ∃ row ∈ w.store.pendingTxs, row.runId = r ∧ row.txid = txid ∧ row.status = .broadcasted

/-- Nothing that the network is known to have accepted is missing in the wallet. -/
def NothingMissing (w : WalletDb) (r : RunId) : Prop :=
  w.store.broadcastedPendingTxsMissingLocalIdentity w.view r = []

theorem known_of_localTransactionRaw {txid : Txid}
    (h : w.view.localTransactionRaw txid = true) :
  w.known txid = true
  := by
  apply w.known_of_holds
  simp [ChainView.holds, h]

theorem known_of_identity {txid : Txid}
    (h : (w.view.localDenominationChainIdentity txid).isSome = true) :
  w.known txid = true
  := by
  apply w.known_of_holds
  simp [ChainView.holds, h]

/-- When nothing is missing, what is on record is in the wallet. -/
theorem Recorded.allStored (h : w.Recorded r) (hmissing : w.NothingMissing r) :
  w.AllStored r
  := by
  intro txid htxid
  rcases h txid htxid with hknown | ⟨row, hrow, hid, rfl, hstatus⟩
  · apply hknown
  · apply known_of_localTransactionRaw
    apply Store.localTransactionRaw_of_not_missing hmissing hrow hid hstatus

variable {policy : RebuildPolicy} {storeError : Txid → Option String}

theorem gate_advances :
  Advances w (w.retryStoreThenPendingMigrationPolicyRebuildMessage r policy storeError).1
  := by
  unfold retryStoreThenPendingMigrationPolicyRebuildMessage
  apply afterOk_rel (R := Advances) Advances.trans
  · apply retryStoreBroadcastedMigrationTxsMissingLocal_retried.toAdvances
  · intro _ _
    apply afterOk_rel (R := Advances) Advances.trans advances_reconcile
    intro _ _
    dsimp only
    split <;> exact Advances.refl

/-- What it takes to pass the gate. -/
theorem gate_passed {message : Option String}
    (h : (w.retryStoreThenPendingMigrationPolicyRebuildMessage r policy storeError).2
      = .ok message) :
  ∃ t s, Retried r w t ∧ t.store.reconcileRunConfirmations t.view r = .ok s
    ∧ (w.retryStoreThenPendingMigrationPolicyRebuildMessage r policy storeError).1 = t.write s
    ∧ (t.write s).NothingMissing r
    ∧ s.pendingMigrationPolicyRebuildMessage r policy = .ok message
  := by
  unfold retryStoreThenPendingMigrationPolicyRebuildMessage at h ⊢
  obtain ⟨stored, hstored, h⟩ := afterOk_eq_ok.mp h
  rw [afterOk_of_ok hstored]
  obtain ⟨_, hcommit, h⟩ := afterOk_eq_ok.mp h
  rw [afterOk_of_ok hcommit]
  obtain ⟨s, hs, hwrite⟩ := commitUnit_eq_ok hcommit
  rw [hwrite] at h ⊢
  refine ⟨_, s, retryStoreBroadcastedMigrationTxsMissingLocal_retried, hs, ?_⟩
  dsimp only at h ⊢
  split at h
  · cases h
  · rename_i hmissing
    rw [if_neg hmissing]
    refine ⟨rfl, ?_, h⟩
    apply List.eq_nil_of_length_eq_zero
    omega

/-- Behind the gate, everything on record is in the wallet. -/
theorem gate_allStored {message : Option String} (hrecorded : w.Recorded r)
    (h : (w.retryStoreThenPendingMigrationPolicyRebuildMessage r policy storeError).2
      = .ok message) :
  (w.retryStoreThenPendingMigrationPolicyRebuildMessage r policy storeError).1.AllStored r
  := by
  obtain ⟨t, s, hretried, hs, hwrite, hmissing, -⟩ := gate_passed h
  rw [hwrite]
  intro txid htxid
  have haccepted : (r, txid) ∈ w.accepted := by
    rw [← hretried.accepted]
    apply htxid
  rcases hrecorded txid haccepted with hknown | ⟨row, hrow, hid, rfl, hstatus⟩
  · apply hretried.known txid hknown
  · rw [← hretried.pendingTxs] at hrow
    rcases Store.reconcileRunConfirmations_broadcasted hs hrow hstatus with hrow' | hidentity
    · apply known_of_localTransactionRaw (w := t.write s)
      apply Store.localTransactionRaw_of_not_missing hmissing hrow' hid hstatus
    · apply known_of_identity (w := t.write s) hidentity

/-- The gate asks for the retirement of a run that is not finished. -/
theorem gate_unfinished {message : String} (hunfinished : w.store.Unfinished r)
    (h : (w.retryStoreThenPendingMigrationPolicyRebuildMessage r policy storeError).2
      = .ok (some message)) :
  (w.retryStoreThenPendingMigrationPolicyRebuildMessage r policy storeError).1.store.Unfinished r
  := by
  obtain ⟨t, s, hretried, hs, hwrite, -, hpolicy⟩ := gate_passed h
  rw [hwrite]
  apply (hretried.unfinished hunfinished).reconcileRunConfirmations hs
  apply Store.exists_of_pendingMigrationPolicyRebuildMessage hpolicy

end WalletDb

/-! ### Retirements -/

/-- Everything of the run that the network has accepted is in the wallet, and the run is
neither complete nor abandoned. -/
structure Retirement.StoredFirst (t : Retirement) : Prop where
  stored : t.db.AllStored t.run
  unfinished : t.db.store.Unfinished t.run

namespace WalletDb

variable {w w' w'' : WalletDb} {r : RunId} {policy : RebuildPolicy}
  {storeError : Txid → Option String} {t : Retirement}

theorem retireRunForRebuild_storedFirst {message : String} (hstored : w.AllStored r)
    (hunfinished : w.store.Unfinished r)
    (h : (w.retireRunForRebuild r message).2 = .ok (some t)) :
  t.StoredFirst
  := by
  cases h
  exact ⟨hstored, hunfinished⟩

/-- A retirement behind the gate. -/
theorem retireBehindGate_storedFirst (hrecorded : w.Recorded r)
    (hunfinished : w.store.Unfinished r)
    (h : (w.retireBehindGate r policy storeError).2 = .ok (some t)) :
  t.StoredFirst
  := by
  obtain ⟨message, hgate, h⟩ := afterOk_eq_ok.mp h
  cases message with
  | none => cases h
  | some message =>
    apply retireRunForRebuild_storedFirst (gate_allStored hrecorded hgate) _ h
    apply gate_unfinished hunfinished hgate

/-! ### The broadcast -/

theorem selectDue_advances {call : DueBroadcast} :
  Advances w (w.selectDue r call).1
  := by
  unfold selectDue
  dsimp only
  apply afterOk_rel (R := Advances) Advances.trans advances_reconcile
  intro _ _
  split
  · apply afterOk_rel (R := Advances) Advances.trans
    · apply advances_commit (.markExpiredPendingPartsForResign _ r _)
      intro s a h
      rw [Store.apply, h]
      rfl
    · intro _ _
      apply Advances.refl
  · apply afterOk_rel (R := Advances) Advances.trans
    · apply advances_commit (.markDuePartsWithNoncanonicalBroadcastHeightForResign _ r _)
      intro s a h
      rw [Store.apply, h]
      rfl
    · intro _ _
      split
      · apply Advances.refl
      · apply afterOk_rel (R := Advances) Advances.trans
        · apply advances_commit (.reconcileRunConfirmations _ r)
          intro s a h
          obtain ⟨s', hs', h⟩ := bind_eq_ok.mp h
          obtain ⟨due, -, h⟩ := bind_eq_ok.mp h
          cases h
          apply hs'
        · intro _ _
          split
          · apply Advances.refl
          · split <;> exact Advances.refl

theorem markAttempt_advances {call : DueBroadcast} {txid : Txid} :
  Advances w (w.markAttempt r call txid).1
  := by
  unfold markAttempt
  dsimp only
  have hphase : Advances w (w.write (w.store.markRunPhase r .broadcasting none)) :=
    advances_write_step (.markRunPhase r .broadcasting none)
  split
  · apply hphase.trans
    apply advances_write_step (.markRunPhase r .broadcastScheduled _)
  · apply hphase.trans
    apply afterOk_rel (R := Advances) Advances.trans
    · apply advances_commitUnit (.markPendingBroadcastAttempted r txid)
      intro s h
      apply h
    · intro _ _
      apply Advances.refl

theorem prepareSend_advances (r : RunId) (call : DueBroadcast) :
  Advances w (w.prepareSend r call).1
  := by
  unfold prepareSend
  apply afterOk_rel (R := Advances) Advances.trans selectDue_advances
  intro _ _
  split
  · apply Advances.refl
  · apply markAttempt_advances

theorem reconcileScanned_advances {view : ChainView} :
  Advances w (reconcileScanned r w view)
  := by
  unfold reconcileScanned
  apply advances_scan.trans
  apply advances_write_step (.reconcileRunConfirmations _ r)

theorem awaitAnswer_advances {call : DueBroadcast} :
  Advances w (w.awaitAnswer r call)
  := by
  unfold awaitAnswer
  generalize call.meanwhile = views
  induction views generalizing w with
  | nil => exact Advances.refl
  | cons view views ih => exact reconcileScanned_advances.trans ih

/-- A transaction is handed over when everything on record is in the wallet, and a broadcast
that ends before retires a run behind the gate. -/
theorem handOver_cases {call : DueBroadcast} {outcome : HandOver} (hrecorded : w.Recorded r)
    (h : (w.handOver r call).2 = .ok outcome) :
  (w.handOver r call).1.AllStored r
    ∧ ∀ t, outcome = .done (some t) → w.store.Unfinished r → t.StoredFirst
  := by
  unfold handOver at h ⊢
  obtain ⟨totals, htotals, h⟩ := afterOk_eq_ok.mp h
  rw [afterOk_of_ok htotals]
  dsimp only at h ⊢
  by_cases hempty : w.store.pendingOf r = []
  · rw [if_pos hempty] at h ⊢
    obtain rfl : .done none = outcome := by simpa using h
    refine ⟨?_, fun _ h => by cases h⟩
    intro txid htxid
    rcases hrecorded txid htxid with hknown | ⟨row, hrow, hid, -, -⟩
    · apply hknown
    · have hmem : row ∈ w.store.pendingOf r := by simp [Store.pendingOf, hrow, hid]
      rw [hempty] at hmem
      cases hmem
  · rw [if_neg hempty] at h ⊢
    obtain ⟨message, hgate, h⟩ := afterOk_eq_ok.mp h
    rw [afterOk_of_ok hgate]
    have hstored := gate_allStored hrecorded hgate
    cases message with
    | some message =>
      obtain ⟨retirement, hretire, h⟩ := afterOk_eq_ok.mp h
      dsimp only
      rw [afterOk_of_ok hretire]
      obtain rfl : .done retirement = outcome := by simpa using h
      dsimp only
      constructor
      · apply hstored.advances
        apply advances_write_step (.retireRunForRebuild r message)
      · intro t ht hunfinished
        cases ht
        apply retireRunForRebuild_storedFirst hstored _ hretire
        apply gate_unfinished hunfinished hgate
    | none =>
      obtain ⟨sending, hsending, h⟩ := afterOk_eq_ok.mp h
      dsimp only
      rw [afterOk_of_ok hsending]
      have hstored' := hstored.advances (prepareSend_advances r call)
      cases sending with
      | none =>
        obtain rfl : .done none = outcome := by simpa using h
        dsimp only
        exact ⟨hstored', fun _ h => by cases h⟩
      | some txid =>
        obtain rfl : .sending txid = outcome := by simpa using h
        dsimp only
        exact ⟨hstored', fun _ h => by cases h⟩

/-- What a broadcast makes of the answer of the network. -/
theorem answered_storedFirst {txid : Txid} {answer : BroadcastAnswer} (hstored : w.AllStored r)
    (hunfinished : w.store.Unfinished r) (h : (w.answered r txid answer).2 = .ok (some t)) :
  t.StoredFirst
  := by
  cases answer with
  | accepted storeError =>
    obtain ⟨_, -, h⟩ := afterOk_eq_ok.mp h
    cases h
  | failed error =>
    unfold answered at h
    dsimp only at h
    split at h
    · apply retireRunForRebuild_storedFirst hstored hunfinished h
    · cases h

theorem answered_keys {txid : Txid} {answer : BroadcastAnswer} (hkeys : w.store.Keys) :
  (w.answered r txid answer).1.store.Keys
  := by
  cases answer with
  | accepted storeError =>
    have hrecord : Advances (w.networkAccepts r txid) ((w.networkAccepts r
        txid).recordAcceptedScheduledMigrationTx r txid storeError).1 := by
      generalize w.networkAccepts r txid = v
      have hmark : ∀ {v : WalletDb},
          Advances v (v.commitUnit (v.store.markPendingBroadcasted r txid)).1 := by
        intro v
        apply advances_commitUnit (.markPendingBroadcasted r txid)
        intro s h
        apply h
      cases storeError with
      | some error =>
        apply afterOk_rel (R := Advances) Advances.trans hmark
        intro _ _
        apply stampRun_retried.toAdvances
      | none => apply advances_decryptAndStoreMigrationTx.trans hmark
    have hcall : Advances (w.networkAccepts r txid) (w.answered r txid (.accepted storeError)).1 := by
      apply afterOk_rel (R := Advances) Advances.trans hrecord
      intro _ _
      apply Advances.refl
    apply hcall.keys hkeys
  | failed error =>
    unfold answered
    dsimp only
    split
    · apply (advances_write_step (.retireRunForRebuild r _)).keys hkeys
    · apply (advances_write_step (.markRunPhase r .failedRecoverable _)).keys hkeys

theorem retireBehindGate_advances :
  Advances w (w.retireBehindGate r policy storeError).1
  := by
  apply afterOk_rel (R := Advances) Advances.trans gate_advances
  intro _ message
  cases message with
  | none => exact Advances.refl
  | some message => exact advances_write_step (.retireRunForRebuild r message)

theorem handOver_advances (r : RunId) (call : DueBroadcast) :
  Advances w (w.handOver r call).1
  := by
  unfold handOver
  apply afterOk_rel (R := Advances) (s := w) Advances.trans Advances.refl
  intro _ _
  split
  · apply Advances.refl
  · apply afterOk_rel (R := Advances) Advances.trans gate_advances
    intro _ message
    cases message with
    | none =>
      apply afterOk_rel (R := Advances) Advances.trans (prepareSend_advances r call)
      intro _ _
      split <;> exact Advances.refl
    | some message =>
      apply afterOk_rel (R := Advances) Advances.trans
      · apply advances_write_step (.retireRunForRebuild r message)
      · intro _ _
        apply Advances.refl

theorem broadcastDueScheduledMigrationTxs_keys {call : DueBroadcast} (hkeys : w.store.Keys) :
  (w.broadcastDueScheduledMigrationTxs r call).1.store.Keys
  := by
  have hsend := (handOver_advances r call).keys hkeys
  unfold broadcastDueScheduledMigrationTxs afterOk
  split
  · rename_i v outcome hresult
    rw [hresult] at hsend
    cases outcome with
    | done retirement => exact hsend
    | sending txid =>
      apply answered_keys
      apply awaitAnswer_advances.keys hsend
  · rename_i v error hresult
    rw [hresult] at hsend
    apply hsend

/-! ### The other callers -/

theorem receipt_advances {account : AccountUuid} {network : WalletNetwork} {txid : Txid}
    {outcome : ReceiptOutcome} {remoteHeight : Nat}
    {scheduleUpdates : List Store.MigrationOutboxScheduleUpdate} :
  Advances w (w.reconcileOrchardMigrationOutboxReceipt account network r txid outcome remoteHeight
    scheduleUpdates).1
  := by
  have hmark : ∀ (v : WalletDb) (result : Except String (Store × Nat)) (op : Op)
      (error : String), (∀ s n, result = .ok (s, n) → v.store.apply op = .ok s) →
      Advances v (afterOk (v.commit result) fun w updated =>
        if updated = 0 then (w, .error error) else (w, .ok (none : Option Retirement))).1 := by
    intro v result op error h
    apply afterOk_rel (R := Advances) Advances.trans (advances_commit op h)
    intro _ _
    split <;> exact Advances.refl
  unfold reconcileOrchardMigrationOutboxReceipt
  apply afterOk_rel (R := Advances) (s := w) Advances.trans Advances.refl
  intro v state
  cases outcome with
  | accepted acceptedTransaction storeError =>
    dsimp only
    split
    · apply Advances.refl
    · split
      · apply Advances.refl
      · split
        · apply Advances.refl
        · split
          · apply Advances.refl
          · apply afterOk_rel (R := Advances) Advances.trans
            · apply advances_decryptAndStoreMigrationTx.trans
              apply advances_commitUnit (.applyAcceptedMigrationOutboxReceipt account
                network r txid remoteHeight scheduleUpdates)
              intro s h
              apply h
            · intro _ _
              apply Advances.refl
  | rejected responseMessage =>
    dsimp only
    split
    · apply Advances.refl
    · split
      · apply Advances.refl
      · apply advances_write_step (.retireRunForRebuild r _)
  | expired =>
    dsimp only
    split
    · apply Advances.refl
    · split
      · apply Advances.refl
      · split
        · apply Advances.refl
        · split
          · apply Advances.refl
          · apply hmark v _ (.markExpiredPendingPartsForResign v.view r remoteHeight)
            intro s n h
            rw [Store.apply, h]
            rfl
  | needsResign =>
    dsimp only
    split
    · apply Advances.refl
    · apply afterOk_rel (R := Advances) (s := v) Advances.trans Advances.refl
      intro v canonicalExpiry
      split
      · apply Advances.refl
      · split
        · apply Advances.refl
        · split
          · apply Advances.refl
          · apply hmark v _
              (.markDuePartsWithNoncanonicalBroadcastHeightForResign v.view r remoteHeight)
            intro s n h
            rw [Store.apply, h]
            rfl

/-- Only a rejection retires the run of a receipt. -/
theorem receipt_retires {account : AccountUuid} {network : WalletNetwork} {txid : Txid}
    {outcome : ReceiptOutcome} {remoteHeight : Nat}
    {scheduleUpdates : List Store.MigrationOutboxScheduleUpdate}
    (h : (w.reconcileOrchardMigrationOutboxReceipt account network r txid outcome remoteHeight
      scheduleUpdates).2 = .ok (some t)) :
  (∃ responseMessage, outcome = .rejected responseMessage) ∧ t = ⟨w, r⟩
  := by
  obtain ⟨state, -, h⟩ := afterOk_eq_ok.mp h
  cases outcome with
  | accepted acceptedTransaction storeError =>
    exfalso
    dsimp only at h
    split at h
    · cases h
    · split at h
      · cases h
      · split at h
        · cases h
        · split at h
          · cases h
          · obtain ⟨_, -, h⟩ := afterOk_eq_ok.mp h
            cases h
  | rejected responseMessage =>
    dsimp only at h
    split at h
    · cases h
    · split at h
      · cases h
      · cases h
        exact ⟨⟨responseMessage, rfl⟩, rfl⟩
  | expired =>
    exfalso
    dsimp only at h
    split at h
    · cases h
    · split at h
      · cases h
      · split at h
        · cases h
        · split at h
          · cases h
          · obtain ⟨_, -, h⟩ := afterOk_eq_ok.mp h
            split at h <;> cases h
  | needsResign =>
    exfalso
    dsimp only at h
    split at h
    · cases h
    · obtain ⟨_, -, h⟩ := afterOk_eq_ok.mp h
      split at h
      · cases h
      · split at h
        · cases h
        · split at h
          · cases h
          · obtain ⟨_, -, h⟩ := afterOk_eq_ok.mp h
            split at h <;> cases h

/-- The candidates of a recovery that passes the checks were not broadcast. -/
theorem retireUnbroadcast_retires {account : AccountUuid} {network : WalletNetwork}
    {chainTipHeight : Nat} {absent : Txid → Bool} (hruns : w.store.RunsUnique)
    (h : (w.retireUnbroadcastOrchardMigration account network r chainTipHeight absent).2
      = .ok (some t)) :
  t = ⟨w, r⟩ ∧ w.store.Unfinished r
    ∧ ∀ row ∈ w.store.pendingTxs, row.runId = r → row.status ≠ .broadcasted
  := by
  obtain ⟨candidates, hcandidates, h⟩ := afterOk_eq_ok.mp h
  obtain ⟨_, hvalid, h⟩ := afterOk_eq_ok.mp h
  obtain ⟨_, -, h⟩ := afterOk_eq_ok.mp h
  cases h
  simp only [Store.unbroadcastMigrationRecoveryCandidates, bind_eq_ok, okOr_eq_ok, ensure_eq_ok,
    pure_eq_ok] at hcandidates
  obtain ⟨run, hrun, _, rfl, _, -, rfl⟩ := hcandidates
  refine ⟨rfl, Store.unfinished_of_activeRun hruns hrun, ?_⟩
  intro row hrow hid hstatus
  have hmem : row ∈ (w.store.pendingOf run.runId).filter fun row =>
      row.status = .scheduled || row.status = .broadcasted := by
    simp [Store.pendingOf, hrow, hid, hstatus]
  obtain ⟨_, hscheduled, -⟩ := bind_eq_ok.mp (forM_eq_ok hvalid row hmem)
  rw [ensure_eq_ok, hstatus] at hscheduled
  cases hscheduled

/-! ### Runs of the wallet -/

/-- What a call has to find so that it may retire a run. -/
def MayRetire (w : WalletDb) : WalletStep → Prop
  | .migrateOrchardToIronwood r _ _ | .prepareOrchardMigrationOutbox r _ _ =>
    w.Recorded r ∧ w.store.Unfinished r
  | .broadcastDueScheduledMigrationTxs r call =>
    w.Recorded r ∧ w.store.Unfinished r
      ∧ ((w.handOver r call).1.awaitAnswer r call).store.Unfinished r
  | .reconcileOrchardMigrationOutboxReceipt _ _ r _ (.rejected _) _ _
  | .retireExpiredDenominationRun r _ =>
    w.Recorded r ∧ w.NothingMissing r ∧ w.store.Unfinished r
  | .prepareOrchardMigrationBatchPczt account network _ =>
    ∀ run, w.store.activeRun account network = some run →
      w.Recorded run.runId ∧ w.NothingMissing run.runId
  | .retireUnbroadcastOrchardMigration _ _ r _ _ => w.Recorded r
  | _ => True

theorem retirement?_eq_some {s : WalletStep} :
  w.retirement? s = some t ↔ (w.perform s).2 = .ok (some t)
  := by
  unfold retirement?
  cases (w.perform s).2 with
  | error e => simp [Except.toOption]
  | ok retirement => simp [Except.toOption]

theorem step_keys {s : WalletStep} (hkeys : w.store.Keys) :
  (w.step s).store.Keys
  := by
  cases s with
  | operation op =>
    unfold step perform
    dsimp only
    split
    · apply hkeys
    · apply hkeys.step
  | scan view => exact hkeys
  | networkAccepts r txid => exact hkeys
  | migrateOrchardToIronwood r policy storeError => exact retireBehindGate_advances.keys hkeys
  | prepareOrchardMigrationOutbox r policy storeError =>
    apply retireBehindGate_advances.keys hkeys
  | broadcastDueScheduledMigrationTxs r call =>
    apply broadcastDueScheduledMigrationTxs_keys hkeys
  | reconcileOrchardMigrationOutboxReceipt account network r txid outcome remoteHeight updates =>
    apply receipt_advances.keys hkeys
  | retireExpiredDenominationRun r scannedHeight =>
    have hcall : Advances w (w.retireExpiredDenominationRun r scannedHeight).1 := by
      unfold retireExpiredDenominationRun
      dsimp only
      split
      · apply Advances.refl
      · apply advances_write_step (.retireRunForRebuild r _)
    apply hcall.keys hkeys
  | prepareOrchardMigrationBatchPczt account network policy =>
    have hcall : Advances w (w.prepareOrchardMigrationBatchPczt account network policy).1 := by
      apply afterOk_rel (R := Advances) (s := w) Advances.trans Advances.refl
      intro v run
      apply afterOk_rel (R := Advances) (s := v) Advances.trans Advances.refl
      intro v message
      cases message with
      | none => exact Advances.refl
      | some message => exact advances_write_step (.retireRunForRebuild _ message)
    apply hcall.keys hkeys
  | retireUnbroadcastOrchardMigration account network r chainTipHeight absent =>
    have hcall : Advances w (w.retireUnbroadcastOrchardMigration account network r chainTipHeight
        absent).1 := by
      apply afterOk_rel (R := Advances) (s := w) Advances.trans Advances.refl
      intro v candidates
      apply afterOk_rel (R := Advances) (s := v) Advances.trans Advances.refl
      intro v _
      apply afterOk_rel (R := Advances) (s := v) Advances.trans Advances.refl
      intro v _
      apply advances_write_step (.retireRunForRebuild r _)
    apply hcall.keys hkeys

/-- A call that may retire a run has stored everything first. -/
theorem retirement?_storedFirst {s : WalletStep} (hkeys : w.store.Keys) (hs : w.MayRetire s)
    (h : w.retirement? s = some t) :
  t.StoredFirst
  := by
  rw [retirement?_eq_some] at h
  cases s with
  | operation op => cases h
  | scan view => cases h
  | networkAccepts r txid => cases h
  | migrateOrchardToIronwood r policy storeError => exact retireBehindGate_storedFirst hs.1 hs.2 h
  | prepareOrchardMigrationOutbox r policy storeError =>
    apply retireBehindGate_storedFirst hs.1 hs.2 h
  | broadcastDueScheduledMigrationTxs r call =>
    obtain ⟨hrecorded, hunfinished, hawait⟩ := hs
    obtain ⟨outcome, hsend, h⟩ := afterOk_eq_ok.mp h
    obtain ⟨hstored, hdone⟩ := handOver_cases hrecorded hsend
    cases outcome with
    | done retirement =>
      cases h
      apply hdone t rfl hunfinished
    | sending txid => exact answered_storedFirst (hstored.advances awaitAnswer_advances) hawait h
  | reconcileOrchardMigrationOutboxReceipt account network r txid outcome remoteHeight updates =>
    obtain ⟨⟨responseMessage, rfl⟩, rfl⟩ := receipt_retires h
    exact ⟨hs.1.allStored hs.2.1, hs.2.2⟩
  | retireExpiredDenominationRun r scannedHeight =>
    simp only [perform, retireExpiredDenominationRun] at h
    split at h
    · cases h
    · apply retireRunForRebuild_storedFirst (hs.1.allStored hs.2.1) hs.2.2 h
  | prepareOrchardMigrationBatchPczt account network policy =>
    obtain ⟨run, hrun, h⟩ := afterOk_eq_ok.mp h
    obtain ⟨message, -, h⟩ := afterOk_eq_ok.mp h
    have hactive := okOr_eq_ok.mp hrun
    obtain ⟨hrecorded, hmissing⟩ := hs run hactive
    cases message with
    | none => cases h
    | some message =>
      apply retireRunForRebuild_storedFirst (hrecorded.allStored hmissing) _ h
      apply Store.unfinished_of_activeRun hkeys.runs hactive
  | retireUnbroadcastOrchardMigration account network r chainTipHeight absent =>
    obtain ⟨rfl, hunfinished, hnone⟩ := retireUnbroadcast_retires hkeys.runs h
    refine ⟨?_, hunfinished⟩
    intro txid htxid
    rcases hs txid htxid with hknown | ⟨row, hrow, hid, -, hstatus⟩
    · apply hknown
    · exact absurd hstatus (hnone row hrow hid)

/-- Along every run whose calls find what they have to, every retirement comes after
everything that the network has accepted is in the wallet, and retires a run that is neither
complete nor abandoned. -/
theorem retirements_storedFirst {steps : List WalletStep} (hkeys : w.store.Keys)
    (hsteps : Along step MayRetire w steps) :
  ∀ t ∈ w.retirements steps, t.StoredFirst
  := by
  induction steps generalizing w with
  | nil => nofun
  | cons s steps ih =>
    intro t ht
    rcases List.mem_append.mp ht with hfirst | hrest
    · apply retirement?_storedFirst hkeys hsteps.1 (Option.mem_toList.mp hfirst)
    · apply ih (step_keys hkeys) hsteps.2 t hrest

/-! ### A late rejection -/

/-- A view in which the wallet holds nothing. -/
def sampleUnseen : ChainView :=
  { Store.sampleView [] 1 with localTransactionRaw := fun _ => false }

/-- A wallet that was just opened. -/
def sampleOpened : WalletDb where
  store := {}
  view := sampleUnseen
  known _ := false
  accepted := []
  known_of_holds _ h := by cases h

/-- Create a run with two transactions. -/
def sampleSigned : List WalletStep := [
  .operation (.createRunWithStagedDenominationsAndSignedChildren Store.sampleOverdueRun
    [Store.sampleNote, { Store.sampleNote with outputIndex := 1 }] [] []
    (some [⟨some 0, 100, 10⟩, ⟨some 1, 200, 16⟩])),
  .operation (.insertPendingTxs 1 Store.sampleOverduePending [])]

/-- The policy at a tip where only the first transaction is due. -/
def samplePolicy (canonicalFee : Nat) : RebuildPolicy where
  chainTipHeight := 34565
  canonicalMigrationFeeZatoshi _ := .ok canonicalFee
  minedSpends _ _ := []

/-- The network accepts the first transaction, and the wallet fails to store it. -/
def sampleUnstored : List WalletStep := sampleSigned ++ [
  .broadcastDueScheduledMigrationTxs 1 {
    policy := samplePolicy 10
    storeError := fun _ => none
    cancelled := false
    cancelledBeforeSend := false
    meanwhile := []
    answer := .accepted (some "database is locked") }]

/-- The fee changes, and the foreground stores the transaction before it retires the run. -/
theorem retirements_storedFirst_foreground :
  ((sampleOpened.retirements (sampleUnstored ++ [.migrateOrchardToIronwood 1 (samplePolicy 20)
        fun _ => none])).map fun t => (t.run, t.db.accepted, t.db.known 7)) = [(1, [(1, 7)], true)]
    ∧ ∀ t ∈ sampleOpened.retirements (sampleUnstored ++ [.migrateOrchardToIronwood 1
        (samplePolicy 20) fun _ => none]), t.StoredFirst
  := by
  refine ⟨by decide +kernel, retirements_storedFirst Store.keys_empty ?_⟩
  refine ⟨trivial, trivial, ⟨nofun, ?_, ?_⟩, ⟨?_, ?_⟩, trivial⟩
  · unfold Store.Unfinished
    decide +kernel
  · unfold Store.Unfinished
    decide +kernel
  · intro txid htxid
    have haccepted : (after step sampleOpened sampleUnstored).accepted = [(1, 7)] := by
      decide +kernel
    obtain rfl : txid = 7 := by
      change (1, txid) ∈ (after step sampleOpened sampleUnstored).accepted at htxid
      simpa [haccepted] using htxid
    right
    decide +kernel
  · unfold Store.Unfinished
    decide +kernel

/-- The outbox reports that the network rejected the second transaction. -/
def sampleLateRejection : WalletStep :=
  .reconcileOrchardMigrationOutboxReceipt 1 .main 1 8 (.rejected none) 34570 []

/-- A chain in which both transactions are trusted. -/
def sampleMined : ChainView := Store.sampleView [(7, ⟨34566, 1⟩), (8, ⟨34571, 2⟩)] 10

/-- The rejection retires the run while the accepted transaction is not stored, and it retires
a run that is complete. -/
theorem sampleLateRejection_not_storedFirst :
  (∃ t ∈ sampleOpened.retirements (sampleUnstored ++ [sampleLateRejection]),
      ¬t.db.AllStored t.run ∧ ¬t.StoredFirst)
    ∧ ∃ t ∈ sampleOpened.retirements (sampleSigned ++ [.scan sampleMined,
        .operation (.reconcileRunConfirmations sampleMined 1), sampleLateRejection]),
      t.db.store.phaseOf t.run = some .complete ∧ ¬t.StoredFirst
  := by
  constructor
  · have hretired : (sampleOpened.retirements (sampleUnstored ++ [sampleLateRejection])).map
        (fun t => (t.run, t.db.accepted, t.db.known 7)) = [(1, [(1, 7)], false)] := by
      decide +kernel
    obtain ⟨t, hretirements, ht⟩ := List.map_eq_singleton_iff.mp hretired
    simp only [Prod.mk.injEq] at ht
    obtain ⟨hrun, haccepted, hknown⟩ := ht
    have hnot : ¬t.db.AllStored t.run := by
      intro h
      have hstored := h 7 (by simp [hrun, haccepted])
      rw [hknown] at hstored
      cases hstored
    exact ⟨t, by simp [hretirements], hnot, fun h => hnot h.stored⟩
  · have hretired : (sampleOpened.retirements (sampleSigned ++ [.scan sampleMined,
        .operation (.reconcileRunConfirmations sampleMined 1), sampleLateRejection])).map
        (fun t => (t.run, t.db.store.runs.map fun run => (run.runId, run.phase)))
          = [(1, [(1, .complete)])] := by
      decide +kernel
    obtain ⟨t, hretirements, ht⟩ := List.map_eq_singleton_iff.mp hretired
    simp only [Prod.mk.injEq] at ht
    obtain ⟨hrun, hruns⟩ := ht
    obtain ⟨run, hruns, hphase⟩ := List.map_eq_singleton_iff.mp hruns
    simp only [Prod.mk.injEq] at hphase
    refine ⟨t, by simp [hretirements], ?_, ?_⟩
    · simp [Store.phaseOf, Store.run?, hruns, hrun, hphase.1, hphase.2]
    · intro h
      have hopen := h.unfinished run (by simp [hruns]) (by rw [hphase.1, hrun])
      apply hopen.1 hphase.2

end WalletDb

end Vizor
