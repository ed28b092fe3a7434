import Vizor.Store.Signing

/-!
# Operations that sign

The other operations add signed children, or pending transactions for the parts of their
inputs, at heights that follow from the schedule of the run; the first promotion of a run
may move the schedule of all its signed children.
-/

namespace Vizor

open Table Run

namespace Store

variable {s s' : Store} {r : RunId}

/-! ### New runs -/

theorem insertRun_spec {run : MigrationRun} {what : String}
    (h : s.insertRun run what = .ok s') :
  (∀ other ∈ s.runs, other.runId ≠ run.runId) ∧ s' = { s with runs := s.runs ++ [run] }
  := by
  simp only [insertRun, bind_eq_ok, pure_eq_ok, ensure_eq_ok] at h
  obtain ⟨_, hunused, rfl⟩ := h
  exact ⟨hunused, rfl⟩

/-- The steps of a creation that succeeds, and what was checked of its input and of its name. -/
theorem createRun_eq_ok {new : NewRun} {preparedNotes : List PreparedOrchardNoteRef}
    {signedChildren : List SignedMigrationPcztInsert}
    {denominationStages : List DenominationStageInsert}
    {approvedSchedule : Option (List MigrationScheduleEntry)}
    (h : s.createRunWithStagedDenominationsAndSignedChildren new preparedNotes signedChildren
      denominationStages approvedSchedule = .ok s') :
  (denominationStages ≠ [] ∨ preparedNotes ≠ [])
    ∧ (∀ run ∈ s.runs, run.runId ≠ new.runId)
    ∧ ∃ u, (insertPreparedNotes
        { s with
          runs := s.runs ++ [new.row (initialPhase denominationStages)
            (approvedSchedule.getD [])] }
        new.runId preparedNotes true).insertDenominationStages new.runId denominationStages = .ok u
      ∧ u.insertSignedChildPczts new.runId signedChildren .initial = .ok s'
  := by
  rw [createRun_eq] at h
  obtain ⟨_, hchecks, h⟩ := bind_eq_ok.mp h
  obtain ⟨_, hsome, -⟩ := bind_eq_ok.mp hchecks
  obtain ⟨t, ht, h⟩ := bind_eq_ok.mp h
  obtain ⟨hunused, rfl⟩ := insertRun_spec ht
  obtain ⟨u, hu, h⟩ := bind_eq_ok.mp h
  exact ⟨ensure_eq_ok.mp hsome, hunused, u, hu, h⟩

/-! ### New signed children -/

/-- Adding stages leaves the runs, the transactions and the signed children. -/
theorem insertDenominationStages_keeps {stages : List DenominationStageInsert}
    (h : s.insertDenominationStages r stages = .ok s') :
  s'.runs = s.runs ∧ s'.pendingTxs = s.pendingTxs ∧ s'.signedChildren = s.signedChildren
  := by
  obtain ⟨_, -, h⟩ := bind_eq_ok.mp h
  apply foldlM_invariant (I := fun t : Store => t.runs = s.runs ∧ t.pendingTxs = s.pendingTxs
    ∧ t.signedChildren = s.signedChildren) _ ⟨rfl, rfl, rfl⟩ h
  intro t t' stage _ ht hstep
  simp only [insertStage, bind_eq_ok, pure_eq_ok] at hstep
  obtain ⟨_, -, _, -, _, -, _, -, rfl⟩ := hstep
  apply ht

/-- The signed children after others were written over them. -/
theorem mem_foldl_upsert {children : List SignedMigrationPcztInsert} {table : List SignedChild}
    {child : SignedChild}
    (h : child ∈ children.foldl (fun table child =>
      upsert (fun row : SignedChild => (row.runId, row.messageId)) (signedChildRow r child) table)
      table) :
  child ∈ table ∨ ∃ new ∈ children, child = signedChildRow r new
  := by
  induction children generalizing table with
  | nil => exact .inl h
  | cons new children ih =>
    rw [List.foldl_cons] at h
    rcases ih h with h | ⟨other, hother, rfl⟩
    · rcases mem_upsert.mp h with h | rfl
      · exact .inl h.1
      · exact .inr ⟨new, List.mem_cons_self, rfl⟩
    · exact .inr ⟨other, List.mem_cons_of_mem _ hother, rfl⟩

/-- Adding signed children adds those of the input. -/
theorem insertSignedChildPczts_children {children : List SignedMigrationPcztInsert}
    {mode : SignedChildInsertMode} (h : s.insertSignedChildPczts r children mode = .ok s') :
  s'.pendingTxs = s.pendingTxs ∧ ∀ child ∈ s'.signedChildren, child ∈ s.signedChildren
    ∨ ∃ new ∈ children, child = signedChildRow r new
  := by
  rw [insertSignedChildPczts] at h
  split at h
  · obtain rfl : s = s' := by simpa using h
    exact ⟨rfl, fun _ => .inl⟩
  · obtain ⟨run, -, h⟩ := bind_eq_ok.mp h
    obtain ⟨origin, -, h⟩ := bind_eq_ok.mp h
    obtain rfl := pure_eq_ok.mp h
    constructor
    · split <;> rfl
    · intro child hchild
      apply mem_foldl_upsert
      split at hchild <;> exact hchild

theorem checkedSub32_eq_some {a b c : Nat} (h : checkedSub32 a b = some c) :
  a = c + b
  := by
  rw [checkedSub32] at h
  split at h
  · cases h
    omega
  · cases h

/-- A first signed child starts its run at an origin, or has the one of the run. -/
theorem checkSignedChild_spec {run : MigrationRun} {origin origin' : Option Nat}
    {child : SignedMigrationPcztInsert}
    (h : checkSignedChild run .initial origin child = .ok origin') :
  (∀ o, origin = some o → origin' = some o)
    ∧ (run.schedule ≠ [] → ∃ o offset, origin' = some o
      ∧ scheduleBlockOffsetForPart run.schedule run.targetValues child.childIndex
        child.valueZatoshi = some offset ∧ child.scheduledHeight = o + offset)
  := by
  obtain ⟨_, -, h⟩ := bind_eq_ok.mp h
  obtain ⟨_, -, h⟩ := bind_eq_ok.mp h
  dsimp only at h
  split at h
  · rename_i hnil
    cases h
    exact ⟨fun _ => id, fun hne => absurd hnil hne⟩
  · obtain ⟨offset, hoffset, h⟩ := bind_eq_ok.mp h
    obtain ⟨childOrigin, hchild, h⟩ := bind_eq_ok.mp h
    rw [okOr_eq_ok] at hoffset hchild
    have hheight := checkedSub32_eq_some hchild
    split at h
    · cases h
      exact ⟨by simp, fun _ => ⟨childOrigin, offset, rfl, hoffset, hheight⟩⟩
    · simp only [bind_eq_ok, ensure_eq_ok, pure_eq_ok] at h
      obtain ⟨_, rfl, h⟩ := h
      cases h
      exact ⟨fun _ => id, fun _ => ⟨_, offset, rfl, hoffset, hheight⟩⟩

/-- The first signed children of a run share their origin. -/
theorem checkSignedChildren_spec {run : MigrationRun} {origin origin' : Option Nat}
    {children : List SignedMigrationPcztInsert}
    (h : children.foldlM (checkSignedChild run .initial) origin = .ok origin') :
  (∀ o, origin = some o → origin' = some o)
    ∧ (run.schedule ≠ [] → ∀ child ∈ children, ∃ o offset, origin' = some o
      ∧ scheduleBlockOffsetForPart run.schedule run.targetValues child.childIndex
        child.valueZatoshi = some offset ∧ child.scheduledHeight = o + offset)
  := by
  induction children generalizing origin with
  | nil =>
    obtain rfl : origin = origin' := by simpa using h
    exact ⟨fun _ => id, by simp⟩
  | cons child children ih =>
    rw [List.foldlM_cons, bind_eq_ok] at h
    obtain ⟨next, hnext, h⟩ := h
    obtain ⟨hkeep, hchild⟩ := checkSignedChild_spec hnext
    obtain ⟨hkeep', hchildren⟩ := ih h
    refine ⟨fun o ho => hkeep' o (hkeep o ho), fun hne other hother => ?_⟩
    rcases List.mem_cons.mp hother with rfl | hother
    · obtain ⟨o, offset, ho, hoffset, hheight⟩ := hchild hne
      exact ⟨o, offset, hkeep' o ho, hoffset, hheight⟩
    · apply hchildren hne other hother

/-- The first signed children of a run are placed after its origin. -/
theorem insertSignedChildPczts_initial {children : List SignedMigrationPcztInsert}
    (hunique : s.RunsUnique) (hchildren : children ≠ [])
    (h : s.insertSignedChildPczts r children .initial = .ok s') :
  ∃ run origin', run ∈ s.runs ∧ run.runId = r
    ∧ (∀ o, run.signedScheduleOriginHeight = some o → origin' = some o)
    ∧ (∀ run' ∈ s'.runs, run'.schedulePlan = (r, run.schedule, run.targetValues, origin')
      ∨ run'.runId ≠ r ∧ run' ∈ s.runs)
    ∧ (run.schedule ≠ [] → ∀ child ∈ children, ∃ o offset, origin' = some o
      ∧ scheduleBlockOffsetForPart run.schedule run.targetValues child.childIndex
        child.valueZatoshi = some offset ∧ child.scheduledHeight = o + offset)
  := by
  rw [insertSignedChildPczts, if_neg hchildren] at h
  obtain ⟨run, hrun, h⟩ := bind_eq_ok.mp h
  obtain ⟨origin, horigin, h⟩ := bind_eq_ok.mp h
  obtain rfl := pure_eq_ok.mp h
  rw [readRun, okOr_eq_ok] at hrun
  obtain ⟨hmem, rfl⟩ := hunique.run?_eq_some.mp hrun
  obtain ⟨hkeep, hplaced⟩ := checkSignedChildren_spec horigin
  refine ⟨run, origin, hmem, rfl, hkeep, ?_, hplaced⟩
  intro run' hrun'
  have hkept : run' ∈ s.runs → origin = run.signedScheduleOriginHeight →
      run'.schedulePlan = (run.runId, run.schedule, run.targetValues, origin)
        ∨ run'.runId ≠ run.runId ∧ run' ∈ s.runs := by
    intro hrun' horigin'
    by_cases hid : run'.runId = run.runId
    · left
      obtain rfl := hunique.eq hrun' hmem hid
      rw [horigin', MigrationRun.schedulePlan]
    · exact .inr ⟨hid, hrun'⟩
  cases hpersisted : run.signedScheduleOriginHeight with
  | some o =>
    rw [hpersisted] at hrun'
    apply hkept hrun'
    rw [hpersisted]
    apply hkeep o hpersisted
  | none =>
    cases horigin' : origin with
    | none =>
      rw [hpersisted, horigin'] at hrun'
      rw [← horigin']
      apply hkept hrun'
      rw [horigin', hpersisted]
    | some o =>
      rw [hpersisted, horigin'] at hrun'
      obtain ⟨old, hold, rfl⟩ := mem_updateWhere.mp hrun'
      by_cases hid : old.runId = run.runId
      · left
        obtain rfl := hunique.eq hold hmem hid
        simp [MigrationRun.schedulePlan, hpersisted]
      · right
        rw [if_neg (by simp [hid])]
        exact ⟨hid, hold⟩

/-! ### New pending transactions -/

/-- A row for the input `pending`, at the height that the schedule gives its part after
`origin`. -/
structure Places (run : MigrationRun) (schedule : List MigrationScheduleEntry)
    (pending : PendingMigrationTxInsert) (origin : Nat) (row : PendingTx) : Prop where
  runId : row.runId = run.runId
  partIndex : row.partIndex = some pending.partIndex
  outpoint : row.selectedOutpoint = pending.selectedNote.outpoint
  value : row.valueZatoshi = pending.valueZatoshi
  height : ∃ offset, scheduleBlockOffsetForPart schedule run.targetValues pending.partIndex
      pending.valueZatoshi = some offset
    ∧ row.originalScheduledHeight = some (origin + offset)
  scheduled : row.scheduledHeight = row.originalScheduledHeight

/-- A signed child has the height and the value of a row for the same part. -/
def Retains (s : Store) (pending : PendingMigrationTxInsert) (row : PendingTx) : Prop :=
  ∃ child ∈ s.childrenOf row.runId, child.childIndex = pending.partIndex
    ∧ child.scheduledHeight = row.originalScheduledHeight
    ∧ child.valueZatoshi = pending.valueZatoshi

theorem recoverLegacyScheduledHeight_eq {pending pending' : PendingMigrationTxInsert}
    {blockOffset : Nat} (h : pending.recoverLegacyScheduledHeight blockOffset = .ok pending') :
  ∃ height, pending' = { pending with scheduledHeight := height }
  := by
  rw [PendingMigrationTxInsert.recoverLegacyScheduledHeight] at h
  split at h
  · obtain ⟨_, -, h⟩ := bind_eq_ok.mp h
    split at h
    · obtain ⟨_, -, h⟩ := bind_eq_ok.mp h
      obtain ⟨_, -, h⟩ := bind_eq_ok.mp h
      obtain rfl := pure_eq_ok.mp h
      split
      · exact ⟨_, rfl⟩
      · exact ⟨pending.scheduledHeight, rfl⟩
    · obtain rfl := pure_eq_ok.mp h
      exact ⟨pending.scheduledHeight, rfl⟩
  · obtain rfl := pure_eq_ok.mp h
    exact ⟨pending.scheduledHeight, rfl⟩

/-- What the check of a transaction adds to a batch: a row at its height, whose origin is
the one of the run unless a signed child has its height. -/
theorem PendingBatch.add_spec {batch batch' : PendingBatch} {run : MigrationRun}
    {schedule : List MigrationScheduleEntry} {pending : PendingMigrationTxInsert}
    (h : PendingBatch.add s run schedule batch pending = .ok batch') :
  ∃ row origin, batch'.scheduledPending = batch.scheduledPending ++ [row]
    ∧ Places run schedule pending origin row
    ∧ (∀ persisted, run.signedScheduleOriginHeight = some persisted →
      origin = persisted ∨ s.Retains pending row)
    ∧ (run.signedScheduleOriginHeight = none →
      (batch.incomingInitialScheduleOrigin = none
          ∨ batch.incomingInitialScheduleOrigin = some origin)
        ∧ batch'.incomingInitialScheduleOrigin = some origin)
  := by
  simp only [PendingBatch.add, bind_eq_ok, pure_eq_ok, ensure_eq_ok, okOr_eq_ok] at h
  obtain ⟨_, -, entry, hentry, pending', hlegacy, origin, horigin, incoming, hincoming, expiry, -,
    _, -, rfl⟩ := h
  obtain ⟨height, rfl⟩ := recoverLegacyScheduledHeight_eq hlegacy
  have hheight := checkedSub32_eq_some horigin
  dsimp only at hheight hincoming
  use PendingMigrationTxInsert.row { pending with scheduledHeight := height } run.runId origin
    (some height), origin
  refine ⟨rfl, ⟨rfl, rfl, rfl, rfl, ⟨entry.blockOffset, ?_, ?_⟩, rfl⟩, ?_, ?_⟩
  · rw [scheduleBlockOffsetForPart, hentry]
    rfl
  · rw [← hheight]
    rfl
  · intro persisted hpersisted
    rw [PendingBatch.checkOrigin, hpersisted] at hincoming
    simp only [bind_eq_ok, ensure_eq_ok] at hincoming
    obtain ⟨_, hshared, -⟩ := hincoming
    rcases hshared with hshared | hshared
    · exact .inl hshared
    · right
      rw [matchesRetainedReplacement, List.any_eq_true] at hshared
      obtain ⟨child, hchild, hmatch⟩ := hshared
      simp only [Bool.and_eq_true, decide_eq_true_eq] at hmatch
      exact ⟨child, hchild, hmatch.1.1.1, hmatch.1.1.2, hmatch.2⟩
  · intro hpersisted
    rw [PendingBatch.checkOrigin, hpersisted] at hincoming
    split at hincoming
    · rename_i hsome
      cases hsome
    · rename_i other _ hother
      simp only [bind_eq_ok, ensure_eq_ok, pure_eq_ok] at hincoming
      obtain ⟨_, hshared, rfl⟩ := hincoming
      rw [hother, hshared]
      exact ⟨.inr rfl, rfl⟩
    · rename_i hother
      cases hincoming
      exact ⟨.inl hother, rfl⟩

/-- The rows of a checked batch. -/
theorem PendingBatch.foldlM_spec {batch : PendingBatch} {run : MigrationRun}
    {schedule : List MigrationScheduleEntry} {pendingTxs : List PendingMigrationTxInsert}
    (h : pendingTxs.foldlM (PendingBatch.add s run schedule) {} = .ok batch) :
  ∀ row ∈ batch.scheduledPending, ∃ pending ∈ pendingTxs, ∃ origin,
    Places run schedule pending origin row
    ∧ (∀ persisted, run.signedScheduleOriginHeight = some persisted →
      origin = persisted ∨ s.Retains pending row)
    ∧ (run.signedScheduleOriginHeight = none → batch.incomingInitialScheduleOrigin = some origin)
  := by
  apply foldlM_invariant (I := fun batch : PendingBatch => ∀ row ∈ batch.scheduledPending,
    ∃ pending ∈ pendingTxs, ∃ origin, Places run schedule pending origin row
    ∧ (∀ persisted, run.signedScheduleOriginHeight = some persisted →
      origin = persisted ∨ s.Retains pending row)
    ∧ (run.signedScheduleOriginHeight = none →
      batch.incomingInitialScheduleOrigin = some origin)) _ _ h
  · intro batch batch' pending hpending hbatch hadd row hrow
    obtain ⟨new, origin, hnew, hplaces, hpersisted, hincoming⟩ := PendingBatch.add_spec hadd
    rw [hnew, List.mem_append, List.mem_singleton] at hrow
    rcases hrow with hrow | rfl
    · obtain ⟨old, hold, oldOrigin, holdPlaces, holdPersisted, holdIncoming⟩ := hbatch row hrow
      refine ⟨old, hold, oldOrigin, holdPlaces, holdPersisted, fun hnone => ?_⟩
      obtain ⟨hsame, hafter⟩ := hincoming hnone
      rw [holdIncoming hnone] at hsame
      rcases hsame with hsame | hsame
      · cases hsame
      · rw [hafter, ← hsame]
    · exact ⟨pending, hpending, origin, hplaces, hpersisted, fun hnone => (hincoming hnone).2⟩
  · simp

/-- Adding rows one after the other appends them. -/
theorem insertPendingRows_eq {rows : List PendingTx} (h : rows.foldlM insertPendingRow s = .ok s') :
  s' = { s with pendingTxs := s.pendingTxs ++ rows }
  := by
  induction rows generalizing s with
  | nil =>
    obtain rfl : s = s' := by simpa using h
    simp
  | cons row rows ih =>
    rw [List.foldlM_cons, bind_eq_ok] at h
    obtain ⟨t, ht, h⟩ := h
    simp only [insertPendingRow, bind_eq_ok, pure_eq_ok] at ht
    obtain ⟨_, -, rfl⟩ := ht
    rw [ih h]
    simp

/-- Adding pending transactions places them on the schedule of their run, which gets a
schedule and an origin if it has none. -/
theorem insertPendingTxsWithTx_spec {pendingTxs : List PendingMigrationTxInsert}
    {generated : List MigrationScheduleEntry} (hunique : s.RunsUnique)
    (h : s.insertPendingTxsWithTx r pendingTxs generated = .ok s') :
  ∃ run schedule origin', s.run? r = some run
    ∧ (run.schedule ≠ [] → schedule = run.schedule)
    ∧ (∀ origin, run.signedScheduleOriginHeight = some origin → origin' = some origin)
    ∧ s'.signedChildren = s.signedChildren
    ∧ (∀ run' ∈ s'.runs, run'.schedulePlan = (r, schedule, run.targetValues, origin')
      ∨ run'.runId ≠ r ∧ ∃ old ∈ s.runs, old.schedulePlan = run'.schedulePlan)
    ∧ ∀ row ∈ s'.pendingTxs, row ∈ s.pendingTxs
      ∨ ∃ pending ∈ pendingTxs, ∃ origin, Places run schedule pending origin row
        ∧ (origin' = some origin ∨ s.Retains pending row)
  := by
  obtain ⟨run, hrun, h⟩ := bind_eq_ok.mp h
  obtain ⟨_, -, h⟩ := bind_eq_ok.mp h
  obtain ⟨batch, hbatch, h⟩ := bind_eq_ok.mp h
  obtain ⟨t, ht, h⟩ := bind_eq_ok.mp h
  obtain rfl := pure_eq_ok.mp h
  rw [readRun, okOr_eq_ok] at hrun
  obtain ⟨hmem, rfl⟩ := hunique.run?_eq_some.mp hrun
  have hrows := PendingBatch.foldlM_spec hbatch
  set schedule := if run.schedule = [] then generated else run.schedule with hschedule
  set s₁ : Store := if run.schedule = [] then
      s.updateRuns (fun other => other.runId = run.runId)
        fun other => { other with schedule := generated }
    else s with hs₁
  have h₁ : ∀ run' ∈ s₁.runs, run'.schedulePlan
        = (run.runId, schedule, run.targetValues, run.signedScheduleOriginHeight)
      ∨ run'.runId ≠ run.runId ∧ ∃ old ∈ s.runs, old.schedulePlan = run'.schedulePlan := by
    intro run' hrun'
    rw [hs₁] at hrun'
    split at hrun'
    · rename_i hnil
      obtain ⟨old, hold, rfl⟩ := mem_updateWhere.mp hrun'
      by_cases hid : old.runId = run.runId
      · left
        obtain rfl := hunique.eq hold hmem hid
        simp [MigrationRun.schedulePlan, hschedule, hnil]
      · right
        rw [if_neg (by simpa using hid)]
        exact ⟨hid, old, hold, rfl⟩
    · rename_i hne
      by_cases hid : run'.runId = run.runId
      · left
        obtain rfl := hunique.eq hrun' hmem hid
        rw [hschedule, if_neg hne]
        rfl
      · exact .inr ⟨hid, run', hrun', rfl⟩
  have hsame₁ : s₁.signedChildren = s.signedChildren ∧ s₁.pendingTxs = s.pendingTxs := by
    rw [hs₁]
    split <;> exact ⟨rfl, rfl⟩
  obtain ⟨s₂, hs₂, ht⟩ : ∃ s₂, _ = s₂
      ∧ batch.scheduledPending.foldlM insertPendingRow s₂ = .ok t := ⟨_, rfl, ht⟩
  obtain rfl := insertPendingRows_eq ht
  have hsame₂ : s₂.signedChildren = s.signedChildren ∧ s₂.pendingTxs = s.pendingTxs := by
    rw [← hs₂, ← hsame₁.1, ← hsame₁.2]
    split <;> exact ⟨rfl, rfl⟩
  obtain ⟨origin', hpersisted, hincoming, h₂⟩ : ∃ origin',
      (∀ origin, run.signedScheduleOriginHeight = some origin → origin' = some origin)
      ∧ (run.signedScheduleOriginHeight = none → origin' = batch.incomingInitialScheduleOrigin)
      ∧ ∀ run' ∈ s₂.runs, run'.schedulePlan = (run.runId, schedule, run.targetValues, origin')
        ∨ run'.runId ≠ run.runId ∧ ∃ old ∈ s.runs, old.schedulePlan = run'.schedulePlan := by
    rw [← hs₂]
    split
    · rename_i origin hnone hsome
      rw [hnone] at h₁
      refine ⟨some origin, by simp [hnone], fun _ => hsome.symm, fun run' hrun' => ?_⟩
      obtain ⟨old, hold, rfl⟩ := mem_updateWhere.mp hrun'
      rcases h₁ old hold with hplan | ⟨hid, hplan⟩
      · left
        simp only [MigrationRun.schedulePlan, Prod.mk.injEq] at hplan
        obtain ⟨hid, hschedule, htargets, horigin⟩ := hplan
        simp [MigrationRun.schedulePlan, hid, hschedule, htargets, horigin]
      · right
        rw [if_neg (by simp [hid])]
        exact ⟨hid, hplan⟩
    · rename_i hother
      refine ⟨run.signedScheduleOriginHeight, fun _ => id, fun hnone => ?_, h₁⟩
      cases hsome : batch.incomingInitialScheduleOrigin with
      | none => exact hnone
      | some origin => exact absurd hsome (hother origin hnone)
  refine ⟨run, schedule, origin', hrun, fun hne => if_neg hne, hpersisted, hsame₂.1, ?_, ?_⟩
  · intro run' hrun'
    obtain ⟨old, hold, rfl⟩ := mem_updateWhere.mp hrun'
    have hplan : (if decide (old.runId = run.runId) = true then
        { old with phase := Phase.broadcastScheduled, lastError := none } else old).schedulePlan
        = old.schedulePlan := by
      split <;> rfl
    have hid : (if decide (old.runId = run.runId) = true then
        { old with phase := Phase.broadcastScheduled, lastError := none } else old).runId
        = old.runId := by
      split <;> rfl
    rw [hplan, hid]
    apply h₂ old hold
  · intro row hrow
    rcases List.mem_append.mp hrow with hrow | hrow
    · have hold : row ∈ s₂.pendingTxs := hrow
      rw [hsame₂.2] at hold
      exact .inl hold
    · right
      obtain ⟨pending, hpending, origin, hplaces, hshared, hnone⟩ := hrows row hrow
      refine ⟨pending, hpending, origin, hplaces, ?_⟩
      cases horigin : run.signedScheduleOriginHeight with
      | none =>
        left
        rw [hincoming horigin, hnone horigin]
      | some persisted =>
        rcases hshared persisted horigin with rfl | hretains
        · exact .inl (hpersisted _ horigin)
        · right
          unfold Retains childrenOf at hretains ⊢
          rwa [hsame₁.1] at hretains

/-! ### The initial rebase -/

/-- Moving children one after the other gives every child with an update one of its heights. -/
theorem rebaseChildren_spec {updates : List (MessageId × Nat)}
    (h : updates.foldlM (rebaseChild r) s = .ok s') :
  (∀ update ∈ updates, s.signedChildren.countP
      (fun child => child.runId = r && child.messageId = update.1) = 1)
    ∧ ∃ g : SignedChild → SignedChild,
      s' = { s with signedChildren := s.signedChildren.map g }
      ∧ ∀ child, (child.runId = r → child.messageId ∉ updates.map (·.1)) ∧ g child = child
        ∨ child.runId = r ∧ ∃ height, (child.messageId, height) ∈ updates
          ∧ g child = { child with scheduledHeight := some height }
  := by
  induction updates generalizing s with
  | nil =>
    obtain rfl : s = s' := by simpa using h
    exact ⟨by simp, id, by simp, by simp⟩
  | cons update updates ih =>
    rw [List.foldlM_cons, bind_eq_ok] at h
    obtain ⟨t, ht, h⟩ := h
    simp only [rebaseChild, bind_eq_ok, pure_eq_ok, ensure_eq_ok] at ht
    obtain ⟨_, hcount, rfl⟩ := ht
    obtain ⟨hcounts, g, hg, hchild⟩ := ih h
    set f : SignedChild → SignedChild := fun child =>
      if (decide (child.runId = r) && decide (child.messageId = update.1)) = true then
        { child with scheduledHeight := some update.2 } else child with hf
    have hkeep : ∀ child, (f child).runId = child.runId ∧ (f child).messageId = child.messageId := by
      intro child
      rw [hf]
      dsimp only
      split <;> exact ⟨rfl, rfl⟩
    refine ⟨?_, fun child => g (f child), ?_, ?_⟩
    · intro other hother
      rcases List.mem_cons.mp hother with rfl | hother
      · apply hcount
      · rw [← hcounts other hother]
        symm
        apply countP_updateWhere
        intro child
        rfl
    · rw [hg]
      unfold updateSignedChildren updateWhere
      rw [List.map_map]
      rfl
    · intro child
      dsimp only
      obtain ⟨hrun, hmessage⟩ := hkeep child
      rcases hchild (f child) with ⟨hnot, hsame⟩ | ⟨hmine, height, hupdate, hmoved⟩
      · rw [hrun, hmessage] at hnot
        rw [hsame]
        by_cases hselected : child.runId = r ∧ child.messageId = update.1
        · right
          refine ⟨hselected.1, update.2, ?_, ?_⟩
          · rw [hselected.2]
            apply List.mem_cons_self
          · rw [hf]
            simp [hselected]
        · left
          constructor
          · intro hid
            rw [List.map_cons, List.mem_cons, not_or]
            exact ⟨fun hm => hselected ⟨hid, hm⟩, hnot hid⟩
          · rw [hf]
            simp only [Bool.and_eq_true, decide_eq_true_eq]
            rw [if_neg hselected]
      · right
        rw [hrun] at hmine
        rw [hmessage] at hupdate
        refine ⟨hmine, height, List.mem_cons_of_mem _ hupdate, ?_⟩
        rw [hmoved, hf]
        dsimp only
        split <;> rfl

theorem checkedAdd32_eq_some {a b c : Nat} (h : checkedAdd32 a b = some c) :
  c = a + b
  := by
  rw [checkedAdd32] at h
  split at h
  · cases h
    rfl
  · cases h

/-- The updates of a rebase move every child from its height after the old origin to its
height after the new one, in the expiry window of its signature. -/
theorem rebaseUpdates_spec {run : MigrationRun} {oldOrigin newOrigin : Nat}
    {children : List (SignedChild × Nat)} {updates : List (MessageId × Nat)}
    (h : rebaseUpdates run oldOrigin newOrigin children = .ok (.shift updates)) :
  (∀ child ∈ children, child.1.messageId ∈ updates.map (·.1))
    ∧ ∀ update ∈ updates, ∃ child ∈ children, child.1.messageId = update.1
      ∧ ∃ offset, scheduleBlockOffsetForPart run.schedule run.targetValues child.1.childIndex
          child.1.valueZatoshi = some offset
        ∧ child.2 = oldOrigin + offset ∧ update.2 = newOrigin + offset
        ∧ zip318CanonicalMigrationExpiryHeight update.2 = .ok child.1.expiryHeight
  := by
  induction children generalizing updates with
  | nil =>
    cases h
    simp
  | cons first children ih =>
    obtain ⟨child, scheduledHeight⟩ := first
    rw [rebaseUpdates] at h
    split at h
    · cases h
    · rename_i offset hoffset
      split at h
      · cases h
      · rename_i hold
        split at h
        · cases h
        · rename_i newHeight hheight
          obtain ⟨expiry, hexpiry, h⟩ := bind_eq_ok.mp h
          split at h
          · cases h
          · rename_i hsigned
            obtain ⟨decision, hdecision, h⟩ := bind_eq_ok.mp h
            cases decision with
            | freeze => cases h
            | leave => cases h
            | shift rest =>
              cases h
              obtain ⟨hall, hfrom⟩ := ih hdecision
              rw [not_not] at hold hsigned
              constructor
              · intro other hother
                rcases List.mem_cons.mp hother with rfl | hother
                · apply List.mem_cons_self
                · apply List.mem_cons_of_mem _ (hall other hother)
              · intro update hupdate
                rcases List.mem_cons.mp hupdate with rfl | hupdate
                · refine ⟨_, List.mem_cons_self, rfl, offset, hoffset, ?_, ?_, ?_⟩
                  · apply checkedSub32_eq_some hold
                  · apply checkedAdd32_eq_some hheight
                  · rw [← hsigned]
                    apply hexpiry
                · obtain ⟨other, hother, hrest⟩ := hfrom update hupdate
                  exact ⟨other, List.mem_cons_of_mem _ hother, hrest⟩

/-- The children of a rebase are the signed children of the run, with their heights. -/
theorem childrenForInitialRebase_spec {children : List (SignedChild × Nat)}
    (h : s.childrenForInitialRebase r = .ok children) :
  (∀ child ∈ children, child.1 ∈ s.childrenOf r ∧ child.1.scheduledHeight = some child.2)
    ∧ ∀ child ∈ s.childrenOf r, ∃ scheduledHeight, (child, scheduledHeight) ∈ children
  := by
  rw [childrenForInitialRebase] at h
  have hperm : ∀ child, child ∈ (s.childrenOf r).insertionSort (fun a b =>
      a.childIndex < b.childIndex ∨ a.childIndex = b.childIndex ∧ a.messageId ≤ b.messageId)
      ↔ child ∈ s.childrenOf r := fun child => List.mem_insertionSort _
  generalize (s.childrenOf r).insertionSort (fun a b =>
    a.childIndex < b.childIndex ∨ a.childIndex = b.childIndex ∧ a.messageId ≤ b.messageId)
    = sorted at h hperm
  have hsorted : (∀ child ∈ children, child.1 ∈ sorted
        ∧ child.1.scheduledHeight = some child.2)
      ∧ ∀ child ∈ sorted, ∃ scheduledHeight, (child, scheduledHeight) ∈ children := by
    clear hperm
    induction sorted generalizing children with
    | nil =>
      obtain rfl : [] = children := by simpa using h
      simp
    | cons child sorted ih =>
      rw [List.mapM_cons, bind_eq_ok] at h
      obtain ⟨first, hfirst, h⟩ := h
      rw [bind_eq_ok] at h
      obtain ⟨rest, hrest, h⟩ := h
      obtain rfl := pure_eq_ok.mp h
      simp only [bind_eq_ok, okOr_eq_ok, pure_eq_ok] at hfirst
      obtain ⟨scheduledHeight, hheight, rfl⟩ := hfirst
      obtain ⟨hfrom, hall⟩ := ih hrest
      constructor
      · intro other hother
        rcases List.mem_cons.mp hother with rfl | hother
        · exact ⟨List.mem_cons_self, hheight⟩
        · exact ⟨List.mem_cons_of_mem _ (hfrom other hother).1, (hfrom other hother).2⟩
      · intro other hother
        rcases List.mem_cons.mp hother with rfl | hother
        · exact ⟨scheduledHeight, List.mem_cons_self⟩
        · obtain ⟨height, hheight⟩ := hall other hother
          exact ⟨height, List.mem_cons_of_mem _ hheight⟩
  constructor
  · intro child hchild
    rw [← hperm]
    apply hsorted.1 child hchild
  · intro child hchild
    rw [← hperm] at hchild
    apply hsorted.2 child hchild

/-- A row with the only occurrence of its key. -/
theorem eq_of_countP_eq_one {p : SignedChild → Bool} {t : List SignedChild} (h : t.countP p = 1)
    {a b : SignedChild} (ha : a ∈ t) (hb : b ∈ t) (hpa : p a = true) (hpb : p b = true) :
  a = b
  := by
  rw [List.countP_eq_length_filter, List.length_eq_one_iff] at h
  obtain ⟨c, hc⟩ := h
  have hfa : a ∈ t.filter p := List.mem_filter.mpr ⟨ha, hpa⟩
  have hfb : b ∈ t.filter p := List.mem_filter.mpr ⟨hb, hpb⟩
  rw [hc, List.mem_singleton] at hfa hfb
  rw [hfa, hfb]

/-- The store after the schedule of the run `r` moved by `delta` blocks: the heights of its
signed children and its origin moved, and the new origin is recorded as final. -/
def shiftSchedule (s : Store) (r : RunId) (delta : Nat) : Store :=
  (s.updateSignedChildren (fun child => child.runId = r) fun child =>
      { child with scheduledHeight := child.scheduledHeight.map (· + delta) }).updateRuns
    (fun run => run.runId = r) fun run =>
      { run with
        signedScheduleOriginHeight := run.signedScheduleOriginHeight.map (· + delta)
        initialScheduleRebasedOriginHeight := run.signedScheduleOriginHeight.map (· + delta) }

/-- The schedule of `run` can move by `delta` blocks from its `origin`: it did not move
before, the run has no pending transaction, every part of its plan has a signed child and no
other part has one, and every child is at its height after the origin and expires, as it was
signed, at the canonical height for its new height. -/
structure Shiftable (s : Store) (run : MigrationRun) (origin delta : Nat) : Prop where
  unmarked : run.initialScheduleRebasedOriginHeight = none
  unstarted : s.pendingOf run.runId = []
  origin_eq : run.signedScheduleOriginHeight = some origin
  complete : ∀ i, i < run.targetValues.length
    ↔ ∃ child ∈ s.childrenOf run.runId, child.childIndex = i
  children : ∀ child ∈ s.childrenOf run.runId, ∃ offset,
    scheduleBlockOffsetForPart run.schedule run.targetValues child.childIndex child.valueZatoshi
        = some offset
      ∧ child.scheduledHeight = some (origin + offset)
      ∧ zip318CanonicalMigrationExpiryHeight (origin + offset + delta) = .ok child.expiryHeight

/-- Moving the children of a run to their heights after a new origin shifts its schedule. -/
theorem shiftSchedule_of_updates {run : MigrationRun} {origin delta : Nat}
    {children : List (SignedChild × Nat)} {updates : List (MessageId × Nat)} {t : Store}
    (hunique : s.RunsUnique) (hmem : run ∈ s.runs)
    (hunmarked : run.initialScheduleRebasedOriginHeight = none)
    (horigin : run.signedScheduleOriginHeight = some origin)
    (hchildren : s.childrenForInitialRebase run.runId = .ok children)
    (hdecision : rebaseUpdates run origin (origin + delta) children = .ok (.shift updates))
    (ht : updates.foldlM (rebaseChild run.runId) s = .ok t) :
  (∀ child ∈ s.childrenOf run.runId, ∃ offset,
      scheduleBlockOffsetForPart run.schedule run.targetValues child.childIndex child.valueZatoshi
          = some offset
        ∧ child.scheduledHeight = some (origin + offset)
        ∧ zip318CanonicalMigrationExpiryHeight (origin + offset + delta) = .ok child.expiryHeight)
    ∧ t.updateRuns
        (fun other => other.runId = run.runId && other.initialScheduleRebasedOriginHeight.isNone)
        (fun other => { other with
          signedScheduleOriginHeight := some (origin + delta)
          initialScheduleRebasedOriginHeight := some (origin + delta) })
      = s.shiftSchedule run.runId delta
  := by
  obtain ⟨hfrom, hall⟩ := childrenForInitialRebase_spec hchildren
  obtain ⟨hcovered, hupdates⟩ := rebaseUpdates_spec hdecision
  obtain ⟨hcounts, g, rfl, hmoved⟩ := rebaseChildren_spec ht
  have hupdated : ∀ child ∈ s.childrenOf run.runId, ∀ height,
      (child.messageId, height) ∈ updates → ∃ offset,
        scheduleBlockOffsetForPart run.schedule run.targetValues child.childIndex
            child.valueZatoshi = some offset
          ∧ child.scheduledHeight = some (origin + offset)
          ∧ height = origin + offset + delta
          ∧ zip318CanonicalMigrationExpiryHeight height = .ok child.expiryHeight := by
    intro child hchild height hupdate
    obtain ⟨other, hother, hmessage, offset, hoffset, hold, hnew, hexpiry⟩ := hupdates _ hupdate
    obtain ⟨hotherMem, hotherHeight⟩ := hfrom other hother
    have hsame : child = other.1 := by
      obtain ⟨hchildMem, hchildId⟩ := List.mem_filter.mp hchild
      obtain ⟨hotherMem, hotherId⟩ := List.mem_filter.mp hotherMem
      rw [decide_eq_true_eq] at hchildId hotherId
      apply eq_of_countP_eq_one (hcounts _ hupdate) hchildMem hotherMem
      · simp [hchildId]
      · simp [hotherId, hmessage]
    rw [hsame]
    refine ⟨offset, hoffset, ?_, ?_, hexpiry⟩
    · rw [hotherHeight, hold]
    · rw [show height = origin + delta + offset from hnew]
      omega
  constructor
  · intro child hchild
    obtain ⟨scheduledHeight, hpair⟩ := hall child hchild
    obtain ⟨⟨message, height⟩, hupdate, rfl⟩ := List.mem_map.mp (hcovered _ hpair)
    obtain ⟨offset, hoffset, hheight, hnew, hexpiry⟩ := hupdated child hchild height hupdate
    rw [hnew] at hexpiry
    exact ⟨offset, hoffset, hheight, hexpiry⟩
  · have hruns : updateWhere
        (fun other => other.runId = run.runId && other.initialScheduleRebasedOriginHeight.isNone)
        (fun other : MigrationRun => { other with
          signedScheduleOriginHeight := some (origin + delta)
          initialScheduleRebasedOriginHeight := some (origin + delta) }) s.runs
        = updateWhere (fun other => other.runId = run.runId) (fun other : MigrationRun =>
          { other with
            signedScheduleOriginHeight := other.signedScheduleOriginHeight.map (· + delta)
            initialScheduleRebasedOriginHeight :=
              other.signedScheduleOriginHeight.map (· + delta) }) s.runs := by
      apply List.map_congr_left
      intro other hother
      by_cases hid : other.runId = run.runId
      · obtain rfl := hunique.eq hother hmem hid
        simp [hunmarked, horigin]
      · simp [hid]
    have hmap : s.signedChildren.map g = updateWhere (fun child => child.runId = run.runId)
        (fun child : SignedChild =>
          { child with scheduledHeight := child.scheduledHeight.map (· + delta) })
        s.signedChildren := by
      apply List.map_congr_left
      intro child hchild
      rcases hmoved child with ⟨hnot, hkept⟩ | ⟨hmine, height, hupdate, hg⟩
      · have hother : child.runId ≠ run.runId := by
          intro hmine
          obtain ⟨scheduledHeight, hpair⟩ := hall child
            (List.mem_filter.mpr ⟨hchild, by simpa using hmine⟩)
          apply hnot hmine (hcovered _ hpair)
        rw [hkept, if_neg (by simpa using hother)]
      · obtain ⟨offset, -, hheight, hnew, -⟩ := hupdated child
          (List.mem_filter.mpr ⟨hchild, by simpa using hmine⟩) height hupdate
        rw [hg, if_pos (by simpa using hmine)]
        dsimp only
        rw [hheight, hnew]
        rfl
    unfold shiftSchedule updateRuns updateSignedChildren
    dsimp only
    rw [hruns, hmap]

/-- A rebase moves the whole schedule of a run by one delta, which brings its origin to the
scanned height, or changes at most the marker of the run. -/
theorem rebaseInitial_cases {currentScannedHeight : Nat} {applied : Bool}
    (hunique : s.RunsUnique)
    (h : s.rebaseInitialSignedScheduleForAnchorReadiness r currentScannedHeight
      = .ok (s', applied)) :
  applied = true ∧ (∃ run ∈ s.runs, run.runId = r ∧ ∃ origin delta, 0 < delta
      ∧ origin + delta = currentScannedHeight ∧ s.Shiftable run origin delta
      ∧ s' = s.shiftSchedule r delta)
    ∨ applied = false
      ∧ (s' = s ∨ ∃ origin, s' = s.markInitialScheduleRebased r origin)
  := by
  have hstays {t : Store} (h : (pure (t, false) : Except String _) = .ok (s', applied)) :
      applied = false ∧ s' = t := by
    rw [pure_eq_ok, Prod.mk.injEq] at h
    exact ⟨h.2.symm, h.1.symm⟩
  obtain ⟨run, hrun, h⟩ := bind_eq_ok.mp h
  rw [readRun, okOr_eq_ok] at hrun
  obtain ⟨hmem, rfl⟩ := hunique.run?_eq_some.mp hrun
  split at h
  · rename_i proofRetryHeight origin hunmarked hretry horigin
    split at h
    · right
      exact ⟨(hstays h).1, .inl (hstays h).2⟩
    · rename_i hready
      simp only [Bool.or_eq_true, decide_eq_true_eq, not_or] at hready
      have hunstarted : s.pendingOf run.runId = [] := by
        rw [← List.length_eq_zero_iff]
        omega
      obtain ⟨children, hchildren, h⟩ := bind_eq_ok.mp h
      dsimp only at h
      split at h
      · right
        exact ⟨(hstays h).1, .inl (hstays h).2⟩
      · rename_i hcomplete
        split at h
        · right
          exact ⟨(hstays h).1, .inr ⟨_, (hstays h).2⟩⟩
        · rename_i hlater
          obtain ⟨decision, hdecision, h⟩ := bind_eq_ok.mp h
          cases decision with
          | freeze =>
            right
            exact ⟨(hstays h).1, .inr ⟨_, (hstays h).2⟩⟩
          | leave =>
            right
            exact ⟨(hstays h).1, .inl (hstays h).2⟩
          | shift updates =>
            left
            obtain ⟨t, ht, h⟩ := bind_eq_ok.mp h
            rw [pure_eq_ok, Prod.mk.injEq] at h
            obtain ⟨delta, hdelta⟩ : ∃ delta, max origin currentScannedHeight = origin + delta :=
              Nat.exists_eq_add_of_le (Nat.le_max_left _ _)
            rw [hdelta] at hdecision h hlater
            obtain ⟨hplaced, hshift⟩ :=
              shiftSchedule_of_updates hunique hmem hunmarked horigin hchildren hdecision ht
            refine ⟨h.2.symm, run, hmem, rfl, origin, delta, by omega, by omega, ?_, ?_⟩
            · refine ⟨hunmarked, hunstarted, horigin, ?_, hplaced⟩
              obtain ⟨hfrom, hall⟩ := childrenForInitialRebase_spec hchildren
              simp only [Bool.or_eq_true, not_or, Bool.not_eq_true', Bool.not_eq_false,
                Bool.and_eq_true, List.all_eq_true, List.mem_map, decide_eq_true_eq,
                List.mem_range] at hcomplete
              intro i
              constructor
              · intro hi
                obtain ⟨child, hchild, rfl⟩ := hcomplete.2.2 i hi
                exact ⟨child.1, (hfrom child hchild).1, rfl⟩
              · rintro ⟨child, hchild, rfl⟩
                obtain ⟨scheduledHeight, hpair⟩ := hall child hchild
                apply hcomplete.2.1 child.childIndex
                exact ⟨_, hpair, rfl⟩
            · rw [← h.1]
              apply hshift
  · right
    exact ⟨(hstays h).1, .inl (hstays h).2⟩

/-- What a rebase that moves the schedule of `r` does: the run has no pending transactions,
and all its signed children move to their heights after the new origin. -/
structure Rebased (r : RunId) (s s' : Store) : Prop where
  unstarted : s.pendingOf r = []
  moved : ∃ run newOrigin, run ∈ s.runs ∧ run.runId = r
    ∧ (∀ run' ∈ s'.runs,
      run'.schedulePlan = (r, run.schedule, run.targetValues, some newOrigin)
        ∨ run'.runId ≠ r ∧ run' ∈ s.runs)
    ∧ ∃ g : SignedChild → SignedChild, s'.signedChildren = s.signedChildren.map g
      ∧ ∀ child ∈ s.signedChildren, child.runId ≠ r ∧ g child = child
        ∨ child.runId = r ∧ ∃ offset, scheduleBlockOffsetForPart run.schedule run.targetValues
            child.childIndex child.valueZatoshi = some offset
          ∧ g child = { child with scheduledHeight := some (newOrigin + offset) }

/-- A shift of the schedule rebases the run. -/
theorem Shiftable.rebased {run : MigrationRun} {origin delta : Nat}
    (h : s.Shiftable run origin delta) (hunique : s.RunsUnique) (hmem : run ∈ s.runs) :
  Rebased run.runId s (s.shiftSchedule run.runId delta)
  := by
  refine ⟨h.unstarted, run, origin + delta, hmem, rfl, ?_, _, rfl, ?_⟩
  · intro run' hrun'
    obtain ⟨old, hold, rfl⟩ := mem_updateWhere.mp hrun'
    by_cases hid : old.runId = run.runId
    · left
      obtain rfl := hunique.eq hold hmem hid
      simp [MigrationRun.schedulePlan, h.origin_eq]
    · right
      rw [if_neg (by simpa using hid)]
      exact ⟨hid, hold⟩
  · intro child hchild
    by_cases hid : child.runId = run.runId
    · right
      obtain ⟨offset, hoffset, hheight, -⟩ := h.children child
        (List.mem_filter.mpr ⟨hchild, by simpa using hid⟩)
      refine ⟨hid, offset, hoffset, ?_⟩
      rw [if_pos (by simpa using hid)]
      dsimp only
      rw [hheight, Option.map_some, Nat.add_right_comm]
    · left
      refine ⟨hid, ?_⟩
      rw [if_neg (by simpa using hid)]

/-- A rebase moves the schedule of the run or signs nothing. -/
theorem rebaseInitial_spec {currentScannedHeight : Nat} {applied : Bool} (hunique : s.RunsUnique)
    (h : s.rebaseInitialSignedScheduleForAnchorReadiness r currentScannedHeight
      = .ok (s', applied)) :
  s'.pendingTxs = s.pendingTxs ∧ (SignedFrom s s' ∨ Rebased r s s')
  := by
  rcases rebaseInitial_cases hunique h with
    ⟨-, run, hmem, rfl, origin, delta, -, -, hshiftable, rfl⟩ | ⟨-, rfl | ⟨origin, rfl⟩⟩
  · exact ⟨rfl, .inr (hshiftable.rebased hunique hmem)⟩
  · exact ⟨rfl, .inl SignedFrom.refl⟩
  · refine ⟨rfl, .inl ?_⟩
    apply signedFrom_updateRuns
    intro run
    rfl

/-! ### Replacements -/

/-- Replacing transactions puts a row for its part and its note in the place of each, and
writes the new signed children. -/
theorem replaceResignedPendingParts_spec {replacements : List PendingMigrationTxReplacement}
    {signedChildren : List SignedMigrationPcztInsert}
    (h : s.replaceResignedPendingParts r replacements signedChildren = .ok s') :
  s'.runs.map (·.schedulePlan) = s.runs.map (·.schedulePlan)
    ∧ (∀ child ∈ s'.signedChildren, child ∈ s.signedChildren
      ∨ ∃ new ∈ signedChildren, child = signedChildRow r new)
    ∧ ∀ row ∈ s'.pendingTxs, row ∈ s.pendingTxs
      ∨ ∃ replacement ∈ replacements, ∃ old ∈ s.pendingTxs, old.runId = r
        ∧ old.txid = replacement.oldTxid ∧ row.runId = r
        ∧ row.partIndex = some replacement.replacement.partIndex
        ∧ row.selectedOutpoint = old.selectedOutpoint
        ∧ row.originalScheduledHeight = old.originalScheduledHeight
  := by
  rw [replaceResignedPendingParts] at h
  split at h
  · obtain rfl : s = s' := by simpa using h
    exact ⟨rfl, fun _ => .inl, fun _ => .inl⟩
  · obtain ⟨run, -, h⟩ := bind_eq_ok.mp h
    obtain ⟨_, -, h⟩ := bind_eq_ok.mp h
    obtain ⟨t, ht, h⟩ := bind_eq_ok.mp h
    obtain ⟨u, hu, h⟩ := bind_eq_ok.mp h
    obtain rfl := pure_eq_ok.mp h
    have hloop := foldlM_invariant (I := fun t : Store => t.runs = s.runs
        ∧ t.signedChildren = s.signedChildren
        ∧ ∀ row ∈ t.pendingTxs, row ∈ s.pendingTxs
          ∨ row.status = .scheduled ∧ ∃ replacement ∈ replacements, ∃ old ∈ s.pendingTxs,
            old.runId = r ∧ old.txid = replacement.oldTxid ∧ row.runId = r
            ∧ row.partIndex = some replacement.replacement.partIndex
            ∧ row.selectedOutpoint = old.selectedOutpoint
            ∧ row.originalScheduledHeight = old.originalScheduledHeight) (by
      rintro v v' replacement hmem ⟨hruns, hchildren, hrows⟩ hstep
      simp only [replacePendingRow, bind_eq_ok, pure_eq_ok, okOr_eq_ok, ensure_eq_ok] at hstep
      obtain ⟨old, hold, _, -, _, hnote, _, -, _, -, _, -, _, -, _, -, rfl⟩ := hstep
      have holdMem := List.mem_of_find?_eq_some hold
      have holdFound := List.find?_some hold
      simp only [Bool.and_eq_true, decide_eq_true_eq] at holdFound
      refine ⟨hruns, hchildren, fun row hrow => ?_⟩
      rcases List.mem_append.mp hrow with hrow | hrow
      · apply hrows row (mem_deleteWhere.mp hrow).1
      · rw [List.mem_singleton] at hrow
        subst hrow
        rcases hrows old holdMem with holdMem | ⟨hscheduled, -⟩
        · exact .inr ⟨rfl, replacement, mem_of_mem_scheduleReplacements hmem, old, holdMem,
            holdFound.1.1, holdFound.1.2, rfl, rfl, hnote.symm, rfl⟩
        · rw [holdFound.2] at hscheduled
          cases hscheduled) ⟨rfl, rfl, fun _ => .inl⟩ ht
    obtain ⟨hruns, hchildren, hrows⟩ := hloop
    obtain ⟨hpending, hnew⟩ := insertSignedChildPczts_children hu
    refine ⟨?_, ?_, ?_⟩
    · have hsame : (u.updateRuns (fun run => run.runId = r) fun run =>
          { run with phase := .broadcastScheduled, lastError := none }).runs.map (·.schedulePlan)
          = u.runs.map (·.schedulePlan) := map_updateWhere fun _ _ _ => rfl
      rw [hsame, ← hruns]
      rw [insertSignedChildPczts] at hu
      split at hu
      · obtain rfl : t = u := by simpa using hu
        rfl
      · obtain ⟨_, -, hu⟩ := bind_eq_ok.mp hu
        obtain ⟨_, -, hu⟩ := bind_eq_ok.mp hu
        obtain rfl := pure_eq_ok.mp hu
        rfl
    · intro child hchild
      rw [← hchildren]
      apply hnew child hchild
    · intro row hrow
      have hrow' : row ∈ u.pendingTxs := hrow
      rw [hpending] at hrow'
      rcases hrows row hrow' with hrow' | ⟨-, hreplaced⟩
      · exact .inl hrow'
      · exact .inr hreplaced

end Store

end Vizor
