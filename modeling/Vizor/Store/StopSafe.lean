import Vizor.Store.Reconciliation
import Vizor.Store.StopSettles

/-!
# A stop is safe

Whatever was handed to the network is on record: its row says that it was broadcast, or that
an attempt was made, or the outbox reports it.  A stop that succeeds has therefore settled it.
The mark of a stage is cleared when the network rejects it, also when it was handed over before
without an answer: then the stop does not look for it.
-/

namespace Vizor

open Table Run

/-! ### Before the stop -/

namespace Store

variable {s s' : Store} {r : RunId} {txid : Txid} {kind : MigrationStopCandidateKind}
  {native : List Txid}

/-- A transaction whose attempt was marked is on record. -/
theorem markPendingBroadcastAttempted_attempted
    (h : s.markPendingBroadcastAttempted r txid = .ok s') :
  s'.Attempted r native txid .migrationTransaction
  := by
  obtain ⟨hpending, -, -, row, hrow, hid, htxid, hstatus⟩ := markPendingBroadcastAttempted_rows h
  refine ⟨{ row with broadcastAttempted := .attempted }, ?_, hid, htxid, hstatus, .inl nofun⟩
  rw [hpending]
  apply mem_updateWhere.mpr
  refine ⟨row, hrow, if_pos ?_⟩
  simp [hid, htxid, hstatus]

theorem markDenominationBroadcastAttempted_attempted
    (h : s.markDenominationBroadcastAttempted r txid = .ok s') :
  s'.Attempted r native txid .denominationStage
  := by
  obtain ⟨hstages, -, -, stage, hstage, hid, htxid, hstatus⟩ :=
    markDenominationBroadcastAttempted_rows h
  refine ⟨{ stage with broadcastAttempted := .attempted }, ?_, hid, htxid, hstatus, nofun⟩
  rw [hstages]
  apply mem_updateWhere.mpr
  refine ⟨stage, hstage, if_pos ?_⟩
  simp [isStage, hid, htxid, hstatus]

end Store

namespace WalletDb

variable {w w' w'' : WalletDb} {r : RunId} {txid txid' : Txid}
  {kind kind' : MigrationStopCandidateKind} {native native' : List Txid}

/-- What is on record stays on record when the rows and the stages stay. -/
theorem Tracked.of_eq (h : w.Tracked r native txid kind)
    (hpending : w'.store.pendingTxs = w.store.pendingTxs)
    (hstages : w'.store.stages = w.store.stages)
    (hknown : w.known txid = true → w'.known txid = true) (hnative : native ⊆ native') :
  w'.Tracked r native' txid kind
  := by
  rcases h with hattempted | ⟨hsubmitted, hstored⟩
  · exact .inl (hattempted.of_eq hpending hstages hnative)
  · exact .inr ⟨hsubmitted.of_eq hpending hstages, fun hkind => hknown (hstored hkind)⟩

theorem Tracked.markPendingBroadcastAttempted {s : Store} (h : w.Tracked r native txid kind)
    (hs : w.store.markPendingBroadcastAttempted r txid' = .ok s) :
  (w.write s).Tracked r native txid kind
  := by
  obtain ⟨hpending, hstages, -⟩ := Store.markPendingBroadcastAttempted_rows hs
  cases kind with
  | migrationTransaction =>
    refine h.imp ?_ (And.imp_left ?_)
    · intro hattempted
      apply Store.HasPending.update hattempted hpending
      intro row _ hrow
      split
      · exact ⟨rfl, rfl, hrow.1, .inl nofun⟩
      · apply hrow
    · intro hsubmitted
      apply Store.HasPending.update hsubmitted hpending
      intro row _ hrow
      split
      · exact ⟨rfl, rfl, hrow⟩
      · apply hrow
  | denominationStage =>
    refine h.imp ?_ (And.imp_left ?_)
    · intro hattempted
      apply Store.HasStage.of_eq hattempted hstages fun _ _ hstage => hstage
    · intro hsubmitted
      apply Store.HasStage.of_eq hsubmitted hstages fun _ _ hstage => hstage

/-- Stages whose marks change. -/
theorem Tracked.updateMarks {s : Store} {p : DenominationStage → Bool}
    {attempt : MigrationBroadcastAttemptState} (h : w.Tracked r native txid kind)
    (hstages : s.stages
      = Table.updateWhere p (fun stage => { stage with broadcastAttempted := attempt })
        w.store.stages)
    (hpending : s.pendingTxs = w.store.pendingTxs)
    (hmark : kind = .denominationStage → ∀ stage : DenominationStage,
      stage.expectedTxid = txid → p stage = true → attempt ≠ .notAttempted) :
  (w.write s).Tracked r native txid kind
  := by
  cases kind with
  | migrationTransaction =>
    refine h.imp ?_ (And.imp_left ?_)
    · intro hattempted
      apply Store.HasPending.of_eq hattempted hpending fun _ hrow => hrow
    · intro hsubmitted
      apply Store.HasPending.of_eq hsubmitted hpending fun _ hrow => hrow
  | denominationStage =>
    refine h.imp ?_ (And.imp_left ?_)
    · intro hattempted
      apply Store.HasStage.update hattempted hstages
      intro stage _ htxid hstage
      split
      · rename_i hsel
        exact ⟨rfl, rfl, hstage.1, hmark rfl stage htxid hsel⟩
      · apply hstage
    · intro hsubmitted
      apply Store.HasStage.update hsubmitted hstages
      intro stage _ _ hstage
      split
      · exact ⟨rfl, rfl, hstage⟩
      · apply hstage

theorem Tracked.markDenominationBroadcastAttempted {s : Store} (h : w.Tracked r native txid kind)
    (hs : w.store.markDenominationBroadcastAttempted r txid' = .ok s) :
  (w.write s).Tracked r native txid kind
  := by
  obtain ⟨hstages, hpending, -⟩ := Store.markDenominationBroadcastAttempted_rows hs
  apply h.updateMarks hstages hpending
  intros
  nofun

/-- Clearing a mark loses nothing but what it is about. -/
theorem Tracked.clearDenominationBroadcastAttempted (h : w.Tracked r native txid kind)
    (hother : (kind, txid) ≠ (.denominationStage, txid')) :
  (w.write (w.store.clearDenominationBroadcastAttempted r txid')).Tracked r native txid kind
  := by
  apply h.updateMarks (s := w.store.clearDenominationBroadcastAttempted r txid') rfl rfl
  rintro rfl stage rfl hsel
  simp only [Store.isStage, Bool.and_eq_true, decide_eq_true_eq] at hsel
  rw [hsel.1.2] at hother
  exact absurd rfl hother

theorem Tracked.markPendingBroadcasted {s : Store} (h : w.Tracked r native txid kind)
    (hs : w.store.markPendingBroadcasted r txid' = .ok s) :
  (w.write s).Tracked r native txid kind
  := by
  obtain ⟨hpending, hstages⟩ := Store.markPendingBroadcasted_rows hs
  cases kind with
  | migrationTransaction =>
    rcases h with hattempted | ⟨hsubmitted, -⟩
    · by_cases hsame : txid = txid'
      · subst hsame
        refine .inr ⟨Store.markPendingBroadcasted_submitted hs ?_, nofun⟩
        apply Store.HasPending.of_eq hattempted rfl fun _ _ => trivial
      · left
        apply Store.HasPending.update hattempted hpending
        intro row htxid hrow
        rw [if_neg (by simp [htxid, hsame])]
        apply hrow
    · exact .inr ⟨(Store.markPendingBroadcasted_keeps hs).submitted _ _ hsubmitted, nofun⟩
  | denominationStage =>
    refine h.imp ?_ (And.imp_left ?_)
    · intro hattempted
      apply Store.HasStage.of_eq hattempted hstages fun _ _ hstage => hstage
    · intro hsubmitted
      apply Store.HasStage.of_eq hsubmitted hstages fun _ _ hstage => hstage

/-- The broadcast of a stage that is stored is recorded. -/
theorem Tracked.completeDenominationBroadcast {s : Store} {overdue : Bool} {chainTipHeight : Nat}
    {delays : Nat → Nat} (h : w.Tracked r native txid kind) (hknown : w.known txid' = true)
    (hs : w.store.completeDenominationBroadcast r txid' overdue chainTipHeight delays = .ok s) :
  (w.write s).Tracked r native txid kind
  := by
  obtain ⟨t, g, ht, hstages, hpending, -, hdelayed⟩ := Store.completeDenominationBroadcast_rows hs
  obtain ⟨hmarked, hpending', -⟩ := Store.markDenominationStageBroadcasted_rows ht
  rw [hpending'] at hpending
  cases kind with
  | migrationTransaction =>
    refine h.imp ?_ (And.imp_left ?_)
    · intro hattempted
      apply Store.HasPending.of_eq hattempted hpending fun _ hrow => hrow
    · intro hsubmitted
      apply Store.HasPending.of_eq hsubmitted hpending fun _ hrow => hrow
  | denominationStage =>
    have hkept : (w.write t).Tracked r native txid .denominationStage := by
      rcases h with hattempted | ⟨hsubmitted, hstored⟩
      · rcases hmarked with hmarked | hmarked
        · by_cases hsame : txid = txid'
          · subst hsame
            refine .inr ⟨?_, fun _ => hknown⟩
            apply (Store.markDenominationStageBroadcasted_rows ht).2.2
          · left
            apply Store.HasStage.update hattempted hmarked
            intro stage _ htxid hstage
            rw [if_neg (by simp [Store.isStage, htxid, hsame])]
            apply hstage
        · exact .inl (Store.HasStage.of_eq hattempted hmarked fun _ _ hstage => hstage)
      · refine .inr ⟨?_, hstored⟩
        apply (Store.markDenominationStageBroadcasted_keeps ht).submitted _ _ hsubmitted
    refine hkept.imp ?_ (And.imp_left ?_)
    · intro hattempted
      apply Store.HasStage.map hattempted hstages
      intro stage _ _ hstage
      rw [(hdelayed stage).1]
      exact ⟨rfl, rfl, hstage⟩
    · intro hsubmitted
      apply Store.HasStage.map hsubmitted hstages
      intro stage _ _ hstage
      rw [(hdelayed stage).1]
      exact ⟨rfl, rfl, hstage⟩

end WalletDb

/-! ### A step before the stop -/

namespace BroadcastWorld

variable {w w' : BroadcastWorld} {r : RunId} {kind : MigrationStopCandidateKind} {txid : Txid}

/-- The broadcast in the foreground has marked what it may hand over, has stored what it will
record as broadcast, and clears no mark of what was handed over. -/
def PointTracked (w : BroadcastWorld) (r : RunId) : Prop :=
  match w.point with
  | .marked kind txid => w.db.Tracked r w.native txid kind
  | .answered kind txid answer => kind = .denominationStage → answer.isRejection = true →
    (kind, txid) ∉ w.handed
  | .stored _ txid => w.db.known txid = true
  | _ => True

/-- The run was not stopped, and what may be on the network is on record. -/
structure Ready (r : RunId) (w : BroadcastWorld) : Prop where
  running : w.db.store.Running r
  handed : ∀ kind txid, (kind, txid) ∈ w.handed → w.db.Tracked r w.native txid kind
  point : w.PointTracked r

/-- The network does not reject a stage that was handed to it before and got no answer. -/
def KeepsMarks (w : BroadcastWorld) : BroadcastStep → Prop
  | .send answer => ∀ txid, w.point = .marked .denominationStage txid →
    answer.isRejection = true → (.denominationStage, txid) ∉ w.handed
  | _ => True

/-- The database moves on. -/
theorem Ready.of_db {db : WalletDb} {point : BroadcastPoint} (h : Ready r w)
    (hrunning : db.store.Running r)
    (htracked : ∀ kind txid, (kind, txid) ∈ w.handed → w.db.Tracked r w.native txid kind →
      db.Tracked r w.native txid kind)
    (hpoint : PointTracked { w with db := db, point := point } r) :
  Ready r { w with db := db, point := point }
  where
  running := hrunning
  handed kind txid hkey := htracked kind txid hkey (h.handed kind txid hkey)
  point := hpoint

/-- The phases that a broadcast writes. -/
theorem running_markRunPhase {s : Store} {phase : Phase} {message : Option String}
    (hphase : phase ≠ .abandoned) (h : s.Running r) :
  (s.markRunPhase r phase message).Running r
  := (Store.markRunPhase_keeps hphase).running h

theorem running_retireRunForRebuild {s : Store} {message : String} (h : s.Running r) :
  (s.retireRunForRebuild r message).Running r
  := by
  have hretired : (s.updateRuns (fun run => run.runId = r) fun run =>
      { run with phase := .failedTerminal, lastError := some message }).Running r := by
    apply Store.Running.updateRuns h
    intro run
    change Phase.failedTerminal ≠ .abandoned
    nofun
  apply hretired.of_runs rfl

/-- An attempt is marked. -/
theorem Ready.mark (h : Ready r w) :
  Ready r (w.mark r kind txid)
  := by
  cases kind with
  | migrationTransaction =>
    set db := w.db.write (w.db.store.markRunPhase r .broadcasting none) with hdb
    have hrunning : db.store.Running r := running_markRunPhase nofun h.running
    have htracked : ∀ kind txid, w.db.Tracked r w.native txid kind →
        db.Tracked r w.native txid kind := by
      intro kind txid hkey
      apply hkey.of_eq rfl rfl id (List.Subset.refl _)
    cases hs : db.store.markPendingBroadcastAttempted r txid with
    | error e =>
      have hmark : w.mark r .migrationTransaction txid = { w with db := db, point := .idle } := by
        unfold BroadcastWorld.mark
        dsimp only
        rw [← hdb, hs]
        rfl
      rw [hmark]
      exact h.of_db hrunning (fun kind txid _ => htracked kind txid) trivial
    | ok s =>
      have hmark : w.mark r .migrationTransaction txid
          = { w with db := db.write s, point := .marked .migrationTransaction txid } := by
        unfold BroadcastWorld.mark
        dsimp only
        rw [← hdb, hs]
        rfl
      rw [hmark]
      apply h.of_db
      · apply hrunning.of_runs (Store.markPendingBroadcastAttempted_rows hs).2.2.1
      · intro kind txid _ hkey
        apply (htracked kind txid hkey).markPendingBroadcastAttempted hs
      · exact .inl (Store.markPendingBroadcastAttempted_attempted hs)
  | denominationStage =>
    cases hs : w.db.store.markDenominationBroadcastAttempted r txid with
    | error e =>
      have hmark : w.mark r .denominationStage txid = { w with point := .idle } := by
        unfold BroadcastWorld.mark
        dsimp only
        rw [hs]
        rfl
      rw [hmark]
      exact h.of_db h.running (fun _ _ _ hkey => hkey) trivial
    | ok s =>
      have hmark : w.mark r .denominationStage txid
          = { w with db := w.db.write s, point := .marked .denominationStage txid } := by
        unfold BroadcastWorld.mark
        dsimp only
        rw [hs]
        rfl
      rw [hmark]
      apply h.of_db
      · apply h.running.of_runs (Store.markDenominationBroadcastAttempted_rows hs).2.2.1
      · intro kind txid _ hkey
        apply hkey.markDenominationBroadcastAttempted hs
      · exact .inl (Store.markDenominationBroadcastAttempted_attempted hs)

/-- The message of a run changes. -/
theorem stampRun_ready {db : WalletDb} (message : Option String) (hrunning : db.store.Running r) :
  (db.stampRun r message).1.store.Running r
    ∧ ∀ native kind txid, db.Tracked r native txid kind →
      (db.stampRun r message).1.Tracked r native txid kind
  := by
  unfold WalletDb.stampRun
  cases hs : db.store.readRun r "Read migration run phase" with
  | error e => exact ⟨hrunning, fun _ _ _ hkey => hkey⟩
  | ok run =>
    rw [Store.readRun, okOr_eq_ok] at hs
    have hphase : run.phase ≠ .abandoned := by
      apply hrunning run (List.mem_of_find?_eq_some hs)
      simpa using List.find?_some hs
    refine ⟨running_markRunPhase hphase hrunning, ?_⟩
    intro native kind txid hkey
    apply hkey.of_eq rfl rfl id (List.Subset.refl _)

/-- An accepted transaction is recorded that could not be stored. -/
theorem recordAcceptedScheduledMigrationTx_ready {db : WalletDb} (txid : Txid) (error : String)
    (hrunning : db.store.Running r) :
  (db.recordAcceptedScheduledMigrationTx r txid (some error)).1.store.Running r
    ∧ ∀ native kind txid', db.Tracked r native txid' kind →
      (db.recordAcceptedScheduledMigrationTx r txid (some error)).1.Tracked r native txid' kind
  := by
  unfold WalletDb.recordAcceptedScheduledMigrationTx
  cases hs : db.store.markPendingBroadcasted r txid with
  | error e => exact ⟨hrunning, fun _ _ _ hkey => hkey⟩
  | ok s =>
    have hwritten : (db.write s).store.Running r :=
      (Store.markPendingBroadcasted_keeps hs).running hrunning
    obtain ⟨hstamped, hkept⟩ := stampRun_ready
      (some (WalletDb.migrationStorageRetryMessage "Migration transaction" txid error)) hwritten
    refine ⟨hstamped, ?_⟩
    intro native kind txid' hkey
    apply hkept native kind txid' (hkey.markPendingBroadcasted hs)

/-- An accepted transaction is stored. -/
theorem Ready.recordAccepted {storeError : Option String} (h : Ready r w) :
  Ready r (w.recordAccepted r kind txid storeError)
  := by
  cases storeError with
  | none =>
    have hrunning : (w.db.decryptAndStoreMigrationTx txid).store.Running r := h.running
    apply h.of_db hrunning
    · intro kind txid' _ hkey
      refine hkey.of_eq rfl rfl ?_ (List.Subset.refl _)
      apply (WalletDb.keeps_decryptAndStoreMigrationTx (r := r)).known txid'
    · apply WalletDb.known_decryptAndStoreMigrationTx
  | some error =>
    cases kind with
    | migrationTransaction =>
      obtain ⟨hrunning, hkept⟩ :=
        recordAcceptedScheduledMigrationTx_ready txid error h.running
      exact h.of_db hrunning (fun kind txid _ => hkept w.native kind txid) trivial
    | denominationStage => exact h.of_db h.running (fun _ _ _ hkey => hkey) trivial

/-- The phase of the run changes. -/
theorem Ready.write {s : Store} (h : Ready r w) (hrunning : s.Running r)
    (hpending : s.pendingTxs = w.db.store.pendingTxs) (hstages : s.stages = w.db.store.stages) :
  Ready r { w with db := w.db.write s, point := .idle }
  := by
  have hwritten : (w.db.write s).store.Running r := hrunning
  refine h.of_db hwritten ?_ trivial
  intro kind txid _ hkey
  exact hkey.of_eq hpending hstages id (List.Subset.refl _)

/-- A transaction was not accepted. -/
theorem Ready.recordFailed {error : String} (h : Ready r w)
    (hclears : kind = .denominationStage → migrationBroadcastFailureRequiresRebuild error = true →
      (kind, txid) ∉ w.handed) :
  Ready r (w.recordFailed r kind txid error)
  := by
  unfold BroadcastWorld.recordFailed
  cases kind with
  | migrationTransaction =>
    dsimp only
    split
    · apply h.write (running_retireRunForRebuild h.running) rfl rfl
    · exact h.write (running_markRunPhase nofun h.running) rfl rfl
  | denominationStage =>
    dsimp only
    split
    · rename_i hrejected
      have hrunning : (w.db.write
          (w.db.store.clearDenominationBroadcastAttempted r txid)).store.Running r := h.running
      refine h.of_db hrunning ?_ trivial
      · intro kind txid' hkey htracked
        apply htracked.clearDenominationBroadcastAttempted
        intro hsame
        rw [hsame] at hkey
        apply hclears rfl hrejected hkey
    · exact h.of_db h.running (fun _ _ _ hkey => hkey) trivial

/-- The broadcast of a stored transaction is recorded. -/
theorem Ready.recordBroadcasted {overdue : Bool} {chainTipHeight : Nat} {delays : Nat → Nat}
    (h : Ready r w) (hknown : w.db.known txid = true) :
  Ready r (w.recordBroadcasted r kind txid overdue chainTipHeight delays)
  := by
  unfold BroadcastWorld.recordBroadcasted
  cases kind with
  | migrationTransaction =>
    dsimp only
    cases hs : w.db.store.markPendingBroadcasted r txid with
    | error e => exact h.of_db h.running (fun _ _ _ hkey => hkey) trivial
    | ok s =>
      have hrunning : (w.db.write s).store.Running r :=
        (Store.markPendingBroadcasted_keeps hs).running h.running
      exact h.of_db hrunning (fun _ _ _ hkey => hkey.markPendingBroadcasted hs) trivial
  | denominationStage =>
    dsimp only
    cases hs : w.db.store.completeDenominationBroadcast r txid overdue chainTipHeight delays with
    | error e => exact h.of_db h.running (fun _ _ _ hkey => hkey) trivial
    | ok s =>
      obtain ⟨t, -, ht, -, -, hruns, -⟩ := Store.completeDenominationBroadcast_rows hs
      have hrunning : (w.db.write s).store.Running r := by
        apply Store.Running.of_runs _ hruns
        apply (Store.markDenominationStageBroadcasted_keeps ht).running h.running
      exact h.of_db hrunning (fun _ _ _ hkey => hkey.completeDenominationBroadcast hknown hs)
        trivial

/-- The outbox holds transactions that are on record. -/
theorem isExported_iff {s : Store} :
  isExported s r txid = true ↔ s.HasPending r txid fun row =>
    row.status = .scheduled ∨ row.status = .broadcasted
  := by
  simp [isExported, Store.HasPending, and_assoc]

/-- The outbox attempts a transaction. -/
theorem Ready.nativeAttempt (h : Ready r w) (hexported : isExported w.db.store r txid = true) :
  Ready r { w with
    native := txid :: w.native
    handed := (.migrationTransaction, txid) :: w.handed }
  where
  running := h.running
  handed := by
    intro kind txid' hkey
    rcases List.mem_cons.mp hkey with hkey | hkey
    · cases hkey
      obtain ⟨row, hrow, hid, htxid, hstatus⟩ := isExported_iff.mp hexported
      rcases hstatus with hstatus | hstatus
      · exact .inl ⟨row, hrow, hid, htxid, hstatus, .inr List.mem_cons_self⟩
      · exact .inr ⟨⟨row, hrow, hid, htxid, hstatus⟩, nofun⟩
    · apply (h.handed kind txid' hkey).of_eq rfl rfl id (List.subset_cons_self _ _)
  point := by
    have hpoint := h.point
    unfold PointTracked at hpoint ⊢
    dsimp only
    split
    · rename_i hmarked
      rw [hmarked] at hpoint
      apply WalletDb.Tracked.of_eq hpoint rfl rfl id (List.subset_cons_self _ _)
    · rename_i hanswered
      rw [hanswered] at hpoint
      rintro rfl hrejected hkey
      rcases List.mem_cons.mp hkey with hkey | hkey
      · cases hkey
      · apply hpoint rfl hrejected hkey
    · rename_i hstored
      rw [hstored] at hpoint
      apply hpoint
    · trivial

/-- A step keeps what may be on the network on record, unless it rejects a stage that was
handed over before. -/
theorem Ready.step {op : BroadcastStep} (h : Ready r w) (hop : w.KeepsMarks op) :
  Ready r (w.step r op)
  := by
  have hpoint := h.point
  unfold PointTracked at hpoint
  cases op with
  | mark kind txid =>
    unfold BroadcastWorld.step
    dsimp only
    split
    · apply h.mark
    · apply h
  | send answer =>
    unfold BroadcastWorld.step
    dsimp only
    split
    · rename_i kind txid hmarked
      rw [hmarked] at hpoint
      refine ⟨h.running, ?_, ?_⟩
      · intro kind' txid' hkey
        dsimp only at hkey ⊢
        split at hkey
        · apply h.handed kind' txid' hkey
        · rcases List.mem_cons.mp hkey with hkey | hkey
          · cases hkey
            apply hpoint
          · apply h.handed kind' txid' hkey
      · rintro rfl hrejected
        dsimp only
        rw [if_pos hrejected]
        apply hop txid hmarked hrejected
    · apply h
  | record storeError overdue chainTipHeight delays =>
    unfold BroadcastWorld.step
    dsimp only
    split
    · apply h.recordAccepted
    · rename_i kind txid error hanswered
      rw [hanswered] at hpoint
      apply h.recordFailed hpoint
    · rename_i kind txid hstored
      rw [hstored] at hpoint
      apply h.recordBroadcasted hpoint
    · apply h
  | nativeAttempt txid =>
    unfold BroadcastWorld.step
    dsimp only
    split
    · rename_i hexported
      apply h.nativeAttempt hexported
    · apply h
  | crash => exact ⟨h.running, h.handed, trivial⟩

/-! ### The stop -/

variable {account : AccountUuid} {network : WalletNetwork} {endpoint : StopEndpoint}
  {locks discards : Except String Unit}

/-- A stop that returns was not refused. -/
theorem stop_eq_ok (h : (w.stop account network r endpoint locks discards).2 = .ok ()) :
  w.point = .idle ∧ w.stop account network r endpoint locks discards
    = w.db.abandonOrchardMigration account network r w.native endpoint locks discards
  := by
  unfold stop at h ⊢
  split at h
  · rename_i hidle
    exact ⟨hidle, rfl⟩
  · cases h

/-- Everything that was handed over has landed when the stop returns, or is gone. -/
theorem Ready.stop (h : Ready r w) (hanswers : w.db.Answers r w.handed endpoint)
    (hstop : (w.stop account network r endpoint locks discards).2 = .ok ()) :
  ∀ kind txid, (kind, txid) ∈ w.handed →
    (w.stop account network r endpoint locks discards).1.Landed r txid kind
      ∨ w.db.Expired r endpoint txid kind
  := by
  intro kind txid hkey
  obtain ⟨-, hresult⟩ := stop_eq_ok hstop
  rw [hresult] at hstop ⊢
  apply WalletDb.abandonOrchardMigration_settles h.running hanswers hstop hkey
    (h.handed kind txid hkey)

/-! ### After the stop -/

/-- There is nothing that could be handed over. -/
structure Closed (r : RunId) (w : BroadcastWorld) : Prop where
  idle : w.point = .idle
  rows : ∀ row ∈ w.db.store.pendingTxs, row.runId = r → row.status ≠ .scheduled
  stages : ∀ stage ∈ w.db.store.stages, stage.runId = r → stage.state.status ≠ .pending

/-- The stop leaves no transaction to send. -/
theorem abandonRun_rows {s s' : Store} (hrunning : s.Running r)
    (h : s.abandonRun account network r = .ok s') :
  ∀ row ∈ s'.pendingTxs, row.runId = r → row.status ≠ .scheduled
  := by
  obtain ⟨run, hrun, h⟩ := bind_eq_ok.mp h
  obtain ⟨_, -, h⟩ := bind_eq_ok.mp h
  rw [okOr_eq_ok] at hrun
  have hphase : run.phase ≠ .abandoned := by
    apply hrunning run (List.mem_of_find?_eq_some hrun)
    simpa using List.find?_some hrun
  rw [if_neg hphase] at h
  obtain ⟨_, -, h⟩ := bind_eq_ok.mp h
  obtain rfl := pure_eq_ok.mp h
  intro row hrow hid hstatus
  have hkept := (mem_deleteWhere.mp hrow).2
  simp [hid, hstatus] at hkept

theorem discardUnsubmittedPreparationStages_stages {s : Store} :
  ∀ stage ∈ (s.discardUnsubmittedPreparationStages r).stages, stage.runId = r →
    stage.state.status ≠ .pending
  := by
  intro stage hstage hid hstatus
  have hkept := (mem_deleteWhere.mp hstage).2
  simp [hid, DenominationStageState.unsubmitted, hstatus] at hkept

theorem closed_stop (h : Ready r w) (hanswers : w.db.Answers r w.handed endpoint)
    (hstop : (w.stop account network r endpoint locks discards).2 = .ok ()) :
  Closed r { w with db := (w.stop account network r endpoint locks discards).1 }
  := by
  obtain ⟨hidle, hresult⟩ := stop_eq_ok hstop
  rw [hresult] at hstop ⊢
  unfold WalletDb.abandonOrchardMigration at hstop ⊢
  obtain ⟨_, hreconcile, hstop⟩ := afterOk_eq_ok.mp hstop
  rw [afterOk_of_ok hreconcile]
  obtain ⟨_, habandon, hstop⟩ := afterOk_eq_ok.mp hstop
  rw [afterOk_of_ok habandon]
  obtain ⟨_, hlocks, hstop⟩ := afterOk_eq_ok.mp hstop
  rw [afterOk_of_ok hlocks]
  have hkeeps := (WalletDb.reconcileBeforeAbandon_settles h.running hanswers.own hreconcile).1
  obtain ⟨s, hs, hw⟩ := WalletDb.commitUnit_eq_ok habandon
  rw [hw]
  have hrows := abandonRun_rows (hkeeps.store.running h.running) hs
  exact ⟨hidle, hrows, discardUnsubmittedPreparationStages_stages⟩

end BroadcastWorld

/-- A step that the wallet takes itself. -/
def BroadcastStep.IsForeground : BroadcastStep → Prop
  | .nativeAttempt _ => False
  | _ => True

namespace BroadcastWorld

variable {w w' : BroadcastWorld} {r : RunId} {kind : MigrationStopCandidateKind} {txid : Txid}
  {account : AccountUuid} {network : WalletNetwork} {endpoint : StopEndpoint}
  {locks discards : Except String Unit}

/-- Nothing is handed over after the stop, and what has landed stays. -/
theorem closed_step {op : BroadcastStep} (h : Closed r w) (hop : op.IsForeground) :
  Closed r (w.step r op) ∧ (w.step r op).handed = w.handed
    ∧ ∀ kind txid, w.db.Landed r txid kind → (w.step r op).db.Landed r txid kind
  := by
  obtain ⟨hidle, hrows, hstages⟩ := h
  cases op with
  | mark kind txid =>
    have hmark : w.step r (.mark kind txid) = w.mark r kind txid := by
      rw [BroadcastWorld.step, hidle]
    rw [hmark]
    cases kind with
    | migrationTransaction =>
      cases hs : (w.db.store.markRunPhase r .broadcasting none).markPendingBroadcastAttempted r txid
        with
      | ok s =>
        obtain ⟨-, -, -, row, hrow, hid, -, hstatus⟩ :=
          Store.markPendingBroadcastAttempted_rows hs
        exact absurd hstatus (hrows row hrow hid)
      | error e =>
        have hw : w.mark r .migrationTransaction txid = { w with
            db := w.db.write (w.db.store.markRunPhase r .broadcasting none), point := .idle } := by
          unfold BroadcastWorld.mark
          dsimp only [WalletDb.write]
          rw [hs]
          rfl
        rw [hw]
        refine ⟨⟨rfl, hrows, hstages⟩, rfl, ?_⟩
        intro kind txid hlanded
        exact ⟨hlanded.1, hlanded.2.of_eq rfl rfl⟩
    | denominationStage =>
      cases hs : w.db.store.markDenominationBroadcastAttempted r txid with
      | ok s =>
        obtain ⟨-, -, -, stage, hstage, hid, -, hstatus⟩ :=
          Store.markDenominationBroadcastAttempted_rows hs
        exact absurd hstatus (hstages stage hstage hid)
      | error e =>
        have hw : w.mark r .denominationStage txid = { w with point := .idle } := by
          unfold BroadcastWorld.mark
          dsimp only
          rw [hs]
          rfl
        rw [hw]
        exact ⟨⟨rfl, hrows, hstages⟩, rfl, fun _ _ hlanded => hlanded⟩
  | send answer =>
    have hw : w.step r (.send answer) = w := by
      rw [BroadcastWorld.step, hidle]
    rw [hw]
    exact ⟨⟨hidle, hrows, hstages⟩, rfl, fun _ _ hlanded => hlanded⟩
  | record storeError overdue chainTipHeight delays =>
    have hw : w.step r (.record storeError overdue chainTipHeight delays) = w := by
      rw [BroadcastWorld.step, hidle]
    rw [hw]
    exact ⟨⟨hidle, hrows, hstages⟩, rfl, fun _ _ hlanded => hlanded⟩
  | nativeAttempt txid => exact absurd hop id
  | crash => exact ⟨⟨rfl, hrows, hstages⟩, rfl, fun _ _ hlanded => hlanded⟩

theorem closed_after {steps : List BroadcastStep} (h : Closed r w)
    (hsteps : ∀ op ∈ steps, op.IsForeground) :
  (after (step r) w steps).handed = w.handed
    ∧ ∀ kind txid, w.db.Landed r txid kind → (after (step r) w steps).db.Landed r txid kind
  := by
  induction steps generalizing w with
  | nil => exact ⟨rfl, fun _ _ hlanded => hlanded⟩
  | cons op steps ih =>
    obtain ⟨hclosed, hhanded, hlanded⟩ := closed_step h (hsteps op List.mem_cons_self)
    obtain ⟨hhanded', hlanded'⟩ := ih hclosed fun op' hop' =>
      hsteps op' (List.mem_cons_of_mem _ hop')
    rw [after_cons]
    exact ⟨hhanded'.trans hhanded, fun kind txid h => hlanded' kind txid (hlanded kind txid h)⟩

/-- In every run of broadcasts and crashes, in which no stage is rejected that was handed over
before without an answer, and for every endpoint that returns what it is asked for: after a
stop that returns, everything that was ever handed to the network has landed, or is gone. -/
theorem stop_safe {steps steps' : List BroadcastStep} (hready : Ready r w)
    (hsteps : Along (step r) KeepsMarks w steps)
    (hanswers : (after (step r) w steps).db.Answers r (after (step r) w steps).handed endpoint)
    (hstop : ((after (step r) w steps).stop account network r endpoint locks discards).2 = .ok ())
    (hsteps' : ∀ op ∈ steps', op.IsForeground) :
  ∀ kind txid,
    (kind, txid) ∈ (after (step r) { after (step r) w steps with
      db := ((after (step r) w steps).stop account network r endpoint locks discards).1 }
        steps').handed →
    (after (step r) { after (step r) w steps with
      db := ((after (step r) w steps).stop account network r endpoint locks discards).1 }
        steps').db.Landed r txid kind
      ∨ (after (step r) w steps).db.Expired r endpoint txid kind
  := by
  have hbefore : Ready r (after (step r) w steps) := by
    apply invariant _ hready hsteps
    intro w op hw hop
    apply hw.step hop
  obtain ⟨hhanded, hlanded⟩ := closed_after (closed_stop hbefore hanswers hstop) hsteps'
  intro kind txid hkey
  rw [hhanded] at hkey
  apply (hbefore.stop hanswers hstop kind txid hkey).imp_left (hlanded kind txid)

/-! ### A transaction that is sent twice -/

/-- A run whose only stage waits to be broadcast. -/
def sampleWaiting : BroadcastWorld where
  db := {
    store := { Store.sampleStages .waitingDenomConfirmations with
      stages := [Store.sampleStage 0 10 (.pending [1])]
      stageInputs := [Store.sampleStageInput 0 9] }
    view := { Store.sampleView [] 1 with localTransactionRaw := fun _ => false }
    known _ := false
    accepted := []
    known_of_holds _ h := by cases h }
  point := .idle
  native := []
  handed := []

/-- An endpoint that has every transaction. -/
def sampleStopEndpoint : StopEndpoint where
  chainTipHeight := .ok 110
  getTransaction txid := .found txid none

/-- Send the transaction of the stage, and record the answer. -/
def sampleAttempt (answer : SendAnswer) : List BroadcastStep :=
  [.mark .denominationStage 10, .send answer, .record none false 105 fun _ => 0]

theorem ready_sampleWaiting :
  Ready 1 sampleWaiting
  := by
  refine ⟨?_, nofun, trivial⟩
  intro run hrun _
  obtain rfl := List.mem_singleton.mp hrun
  nofun

/-- The endpoint has no old rows to look for. -/
theorem answers_sampleStopEndpoint {w : BroadcastWorld} (hrows : w.db.store.pendingTxs = [])
    (hstages : ∀ stage ∈ w.db.store.stages, stage.broadcastAttempted ≠ .unknownLegacy) :
  w.db.Answers 1 w.handed sampleStopEndpoint
  where
  own txid actual error h := by
    cases h
    rfl
  rowTip tip _ row hrow := by
    rw [hrows] at hrow
    cases hrow
  stageTip tip _ stage hstage _ hlegacy := absurd hlegacy (hstages stage hstage)

/-- The answer to the first attempt is lost; the stop finds the transaction. -/
theorem stop_safe_unanswered :
  let w := after (step 1) sampleWaiting (sampleAttempt (.failed "Broadcast failed: timeout"))
  let stopped := w.stop 1 .main 1 sampleStopEndpoint (.ok ()) (.ok ())
  stopped.2 = .ok () ∧ w.handed = [(.denominationStage, 10)]
    ∧ ∀ kind txid, (kind, txid) ∈ (after (step 1) { w with db := stopped.1 } [.crash]).handed →
      (after (step 1) { w with db := stopped.1 } [.crash]).db.Landed 1 txid kind
        ∨ w.db.Expired 1 sampleStopEndpoint txid kind
  := by
  refine ⟨by decide +kernel, by decide +kernel, ?_⟩
  apply stop_safe ready_sampleWaiting
  · refine ⟨trivial, ?_, trivial, trivial⟩
    nofun
  · apply answers_sampleStopEndpoint
    · decide +kernel
    · decide +kernel
  · decide +kernel
  · intro op hop
    obtain rfl := List.mem_singleton.mp hop
    trivial

/-- The answer to the first attempt is lost and the second attempt is rejected, which clears
the mark.  The stop returns without looking for the transaction, which the endpoint has. -/
theorem sampleRejected_not_safe :
  let w := after (step 1) sampleWaiting (sampleAttempt (.failed "Broadcast failed: timeout")
    ++ sampleAttempt (.failed "Broadcast rejected: mempool is full"))
  let stopped := w.stop 1 .main 1 sampleStopEndpoint (.ok ()) (.ok ())
  Ready 1 sampleWaiting ∧ w.db.Answers 1 w.handed sampleStopEndpoint ∧ stopped.2 = .ok ()
    ∧ (.denominationStage, 10) ∈ w.handed
    ∧ ¬(stopped.1.Landed 1 10 .denominationStage
      ∨ w.db.Expired 1 sampleStopEndpoint 10 .denominationStage)
  := by
  intro w stopped
  refine ⟨ready_sampleWaiting, ?_, by decide +kernel, by decide +kernel, ?_⟩
  · apply answers_sampleStopEndpoint
    · decide +kernel
    · decide +kernel
  · rintro (⟨hknown, -⟩ | ⟨hnone, -⟩)
    · have hunknown : stopped.1.known 10 = false := by decide +kernel
      rw [hunknown] at hknown
      cases hknown
    · cases hnone

end BroadcastWorld

end Vizor
