import Vizor.Store.SharedOrigin

/-!
# The initial rebase

The schedule of a run is signed before the notes that it spends exist.  When their proofs can
be made, the whole schedule may move once: every signed child and the origin of the run by one
delta, within the expiry windows of the signatures.  A marker on the run records that this was
decided, and no operation clears it.
-/

namespace Vizor

open Table Run

namespace Store

variable {s s' : Store} {r : RunId}

/-! ### Markers -/

/-- The runs with the markers of their rebase. -/
def markers (s : Store) : List (RunId × Option Nat) :=
  s.runs.map fun run => (run.runId, run.initialScheduleRebasedOriginHeight)

/-- The rebase of the run `r` is decided. -/
def Marked (s : Store) (r : RunId) : Prop :=
  (r, none) ∉ s.markers

theorem Marked.of_subset (h : s.Marked r) (hmarkers : s'.markers ⊆ s.markers) :
  s'.Marked r
  := fun hmem => h (hmarkers hmem)

theorem Marked.of_eq (h : s.Marked r) (hmarkers : s'.markers = s.markers) :
  s'.Marked r
  := by
  apply h.of_subset
  rw [hmarkers]
  apply List.Subset.refl

theorem Marked.marker_ne_none (h : s.Marked r) {run : MigrationRun} (hrun : run ∈ s.runs)
    (hid : run.runId = r) :
  run.initialScheduleRebasedOriginHeight ≠ none
  := by
  intro hnone
  apply h
  apply List.mem_map.mpr
  exact ⟨run, hrun, by rw [hid, hnone]⟩

/-- An update of the runs that keeps the identifiers and clears no marker. -/
theorem Marked.updateRuns (h : s.Marked r) {p : MigrationRun → Bool}
    {f : MigrationRun → MigrationRun} (hid : ∀ run, (f run).runId = run.runId)
    (hf : ∀ run ∈ s.runs, (f run).initialScheduleRebasedOriginHeight = none →
      run.initialScheduleRebasedOriginHeight = none) :
  (s.updateRuns p f).Marked r
  := by
  intro hmem
  obtain ⟨run', hrun', hkey⟩ := List.mem_map.mp hmem
  obtain ⟨run, hrun, rfl⟩ := mem_updateWhere.mp hrun'
  rw [Prod.mk.injEq] at hkey
  obtain ⟨hkey, hnone⟩ := hkey
  split at hkey
  · rename_i hp
    rw [if_pos hp] at hnone
    rw [hid] at hkey
    apply h.marker_ne_none hrun hkey
    apply hf run hrun hnone
  · rename_i hp
    rw [if_neg hp] at hnone
    apply h.marker_ne_none hrun hkey hnone

/-- An update of other columns of the runs. -/
theorem markers_updateRuns {p : MigrationRun → Bool} {f : MigrationRun → MigrationRun}
    (hf : ∀ run, (f run).runId = run.runId
      ∧ (f run).initialScheduleRebasedOriginHeight = run.initialScheduleRebasedOriginHeight) :
  (s.updateRuns p f).markers = s.markers
  := by
  apply map_updateWhere
  intro run _ _
  rw [(hf run).1, (hf run).2]

theorem markers_of_runs (hruns : s'.runs = s.runs) :
  s'.markers = s.markers
  := by
  rw [markers, hruns, markers]

/-- What signs nothing keeps the markers. -/
theorem Inherits.markers (h : Inherits s s') :
  s'.markers ⊆ s.markers
  := by
  intro entry hentry
  obtain ⟨run', hrun', rfl⟩ := List.mem_map.mp hentry
  obtain ⟨run, hrun, hplan⟩ := h.exists_run hrun'
  simp only [MigrationRun.signedPlan, MigrationRun.schedulePlan, Prod.mk.injEq] at hplan
  obtain ⟨⟨hid, -⟩, hmarker⟩ := hplan
  rw [← hid, ← hmarker]
  apply List.mem_map_of_mem hrun

/-! ### Operations that sign -/

theorem insertSignedChildPczts_markers {children : List SignedMigrationPcztInsert}
    {mode : SignedChildInsertMode} (h : s.insertSignedChildPczts r children mode = .ok s') :
  s'.markers = s.markers
  := by
  rw [insertSignedChildPczts] at h
  split at h
  · obtain rfl : s = s' := by simpa using h
    rfl
  · obtain ⟨run, -, h⟩ := bind_eq_ok.mp h
    obtain ⟨origin, -, h⟩ := bind_eq_ok.mp h
    obtain rfl := pure_eq_ok.mp h
    split
    · apply markers_updateRuns
      intro run
      exact ⟨rfl, rfl⟩
    · rfl

theorem insertPendingTxsWithTx_markers {pendingTxs : List PendingMigrationTxInsert}
    {generated : List MigrationScheduleEntry}
    (h : s.insertPendingTxsWithTx r pendingTxs generated = .ok s') :
  s'.markers = s.markers
  := by
  obtain ⟨run, -, h⟩ := bind_eq_ok.mp h
  obtain ⟨_, -, h⟩ := bind_eq_ok.mp h
  obtain ⟨batch, -, h⟩ := bind_eq_ok.mp h
  obtain ⟨t, ht, h⟩ := bind_eq_ok.mp h
  obtain rfl := pure_eq_ok.mp h
  set s₁ : Store := if run.schedule = [] then
      s.updateRuns (fun run => run.runId = r) fun run => { run with schedule := generated }
    else s with hs₁
  have h₁ : s₁.markers = s.markers := by
    rw [hs₁]
    split
    · apply markers_updateRuns
      intro run
      exact ⟨rfl, rfl⟩
    · rfl
  obtain ⟨s₂, hs₂, ht⟩ : ∃ s₂, _ = s₂
      ∧ batch.scheduledPending.foldlM insertPendingRow s₂ = .ok t := ⟨_, rfl, ht⟩
  obtain rfl := insertPendingRows_eq ht
  have h₂ : s₂.markers = s.markers := by
    rw [← hs₂, ← h₁]
    split
    · apply markers_updateRuns
      intro run
      exact ⟨rfl, rfl⟩
    · rfl
  apply Eq.trans _ h₂
  apply Eq.trans (markers_updateRuns _)
  · rfl
  · intro run
    exact ⟨rfl, rfl⟩

theorem replaceResignedPendingParts_markers {replacements : List PendingMigrationTxReplacement}
    {signedChildren : List SignedMigrationPcztInsert}
    (h : s.replaceResignedPendingParts r replacements signedChildren = .ok s') :
  s'.markers = s.markers
  := by
  rw [replaceResignedPendingParts] at h
  split at h
  · obtain rfl : s = s' := by simpa using h
    rfl
  · obtain ⟨run, -, h⟩ := bind_eq_ok.mp h
    obtain ⟨_, -, h⟩ := bind_eq_ok.mp h
    obtain ⟨t, ht, h⟩ := bind_eq_ok.mp h
    obtain ⟨u, hu, h⟩ := bind_eq_ok.mp h
    obtain rfl := pure_eq_ok.mp h
    have hruns : t.runs = s.runs := by
      apply foldlM_invariant (I := fun t : Store => t.runs = s.runs) _ rfl ht
      intro v v' replacement _ hv hstep
      simp only [replacePendingRow, bind_eq_ok, pure_eq_ok] at hstep
      obtain ⟨_, -, _, -, _, -, _, -, _, -, _, -, _, -, _, -, rfl⟩ := hstep
      apply hv
    have hmarkers : u.markers = s.markers := by
      rw [insertSignedChildPczts_markers hu]
      apply markers_of_runs hruns
    apply Eq.trans _ hmarkers
    apply markers_updateRuns
    intro run
    exact ⟨rfl, rfl⟩

theorem adoptTimingPolicyForActiveRun_markers {account : AccountUuid} {network : WalletNetwork}
    {desiredPolicy : MigrationTimingPolicy} {generated : List MigrationScheduleEntry} :
  (s.adoptTimingPolicyForActiveRun account network desiredPolicy generated).markers = s.markers
  := by
  unfold adoptTimingPolicyForActiveRun
  split
  · rfl
  · split
    · rfl
    · split
      · rfl
      · split
        · rfl
        · apply markers_updateRuns
          intro run
          exact ⟨rfl, rfl⟩

/-! ### The backfills -/

theorem markers_recoverScheduleOrigin {origin : Nat} :
  (s.recoverScheduleOrigin r origin).markers = s.markers
  := by
  apply markers_updateRuns
  intro run
  exact ⟨rfl, rfl⟩

theorem markers_requestSignatures {message : String} :
  (s.requestSignatures r message).markers = s.markers
  := by
  apply markers_updateRuns
  intro run
  exact ⟨rfl, rfl⟩

theorem discardInvalidChild_markers {child : MessageId × Nat} :
  (discardInvalidChild r s child).markers = s.markers
  := by
  unfold discardInvalidChild
  split <;> rfl

theorem backfillSignedRun_markers {run : MigrationRun} :
  (s.backfillSignedRun run).1.markers = s.markers
  := by
  apply backfillSignedRun_invariant (I := fun t => t.markers = s.markers) _ _ rfl
  · intro child acc acc' hacc hstep
    obtain ⟨height, -, hstep⟩ := bind_eq_ok.mp hstep
    split at hstep
    · obtain rfl := pure_eq_ok.mp hstep
      apply hacc
    · obtain rfl := pure_eq_ok.mp hstep
      apply hacc
  · intro acc hacc
    apply finishSignedBackfill_invariant (I := fun t => t.markers = s.markers) _ _ _ hacc
    · intro t origin ht
      rw [markers_recoverScheduleOrigin, ht]
    · intro t child ht
      rw [discardInvalidChild_markers, ht]
    · intro t message ht
      rw [markers_requestSignatures, ht]

theorem backfillPendingRow_markers {row : PendingTx} (h : backfillPendingRow row s = .ok s') :
  s'.markers = s.markers
  := by
  rw [backfillPendingRow] at h
  split at h
  · cases h
    rfl
  · split at h
    · cases h
      rfl
    · obtain ⟨recovered, -, h⟩ := bind_eq_ok.mp h
      split at h
      · obtain rfl := pure_eq_ok.mp h
        apply markers_recoverScheduleOrigin
      · obtain rfl := pure_eq_ok.mp h
        apply markers_requestSignatures

/-- The backfills keep the markers. -/
theorem ensureRows_markers :
  s.ensureRows.1.markers = s.markers
  := by
  have htrans {a b c : Store} (h : b.markers = a.markers) (h' : c.markers = b.markers) :
      c.markers = a.markers := h'.trans h
  have hparts : s.backfillPendingPartIndices.markers = s.markers :=
    markers_of_runs backfillPendingPartIndices_keeps.1
  have hsigned (t : Store) : t.backfillLegacySignedScheduleMetadata.1.markers = t.markers := by
    unfold backfillLegacySignedScheduleMetadata
    suffices hloop : ∀ (runs : List MigrationRun) (p : Store × Option String),
        p.1.markers = t.markers →
        (runs.foldl (fun p run => andThen p fun s => s.backfillSignedRun run) p).1.markers
          = t.markers from hloop t.runs (t, none) rfl
    intro runs
    induction runs with
    | nil => exact fun _ h => h
    | cons run runs ih =>
      intro p hp
      apply ih
      apply andThen_rel (R := fun a b : Store => b.markers = a.markers) htrans hp
        backfillSignedRun_markers
  have hpending (t : Store) : t.backfillLegacyPendingScheduleMetadata.1.markers = t.markers := by
    apply commitAll_rel (R := fun a b : Store => b.markers = a.markers) (fun _ => rfl) htrans
    intro f hf t t' hstep
    obtain ⟨row, -, rfl⟩ := List.mem_map.mp hf
    apply backfillPendingRow_markers hstep
  apply htrans hparts
  unfold ensureRows
  apply andThen_rel (R := fun a b : Store => b.markers = a.markers) htrans
  · apply andThen_rel (R := fun a b : Store => b.markers = a.markers) htrans
    · apply hsigned
    · apply hpending _
  · dsimp only
    split <;> rfl

/-! ### Calls -/

/-- A call that works on the schedules of the runs: the rebase alone, or an operation of the
store, which may contain one. -/
inductive ScheduleCall where
  | rebaseInitialSignedScheduleForAnchorReadiness (r : RunId) (currentScannedHeight : Nat)
  | op (op : Op)

/-- The store after a call; one that fails changes nothing. -/
def scheduleStep (s : Store) : ScheduleCall → Store
  | .rebaseInitialSignedScheduleForAnchorReadiness r currentScannedHeight =>
    committed s ((s.rebaseInitialSignedScheduleForAnchorReadiness r currentScannedHeight).map
      (·.1))
  | .op op => s.step op

/-- The rebase of the run `r` in a call moves its schedule. -/
def Shifts (s : Store) (r : RunId) : ScheduleCall → Prop
  | .rebaseInitialSignedScheduleForAnchorReadiness r' currentScannedHeight =>
    r' = r ∧ ∃ s', s.rebaseInitialSignedScheduleForAnchorReadiness r currentScannedHeight
      = .ok (s', true)
  | .op (.promoteSignedChildPcztsToPendingTxs r' pendingTxs currentScannedHeight
      remainingChildRetryHeight generated) =>
    r' = r ∧ pendingTxs ≠ []
      ∧ (∃ s', s.rebaseInitialSignedScheduleForAnchorReadiness r currentScannedHeight
        = .ok (s', true))
      ∧ ∃ s', s.promoteSignedChildPcztsToPendingTxs r pendingTxs currentScannedHeight
        remainingChildRetryHeight generated = .ok s'
  | .op _ => False

/-- A shift of the schedule of a run decides its rebase. -/
theorem Shiftable.marked {run : MigrationRun} {origin delta : Nat}
    (h : s.Shiftable run origin delta) (hunique : s.RunsUnique) (hmem : run ∈ s.runs) :
  (s.shiftSchedule run.runId delta).Marked run.runId
  := by
  intro hentry
  obtain ⟨run', hrun', hkey⟩ := List.mem_map.mp hentry
  obtain ⟨old, hold, rfl⟩ := mem_updateWhere.mp hrun'
  rw [Prod.mk.injEq] at hkey
  by_cases hid : old.runId = run.runId
  · obtain rfl := hunique.eq hold hmem hid
    simp [h.origin_eq] at hkey
  · rw [if_neg (by simpa using hid)] at hkey
    apply hid hkey.1

theorem Marked.shiftSchedule (h : s.Marked r) {r' : RunId} {delta : Nat}
    (hshift : ∃ run ∈ s.runs, run.runId = r' ∧ run.initialScheduleRebasedOriginHeight = none)
    (hunique : s.RunsUnique) :
  (s.shiftSchedule r' delta).Marked r
  := by
  obtain ⟨run, hmem, rfl, hnone⟩ := hshift
  intro hentry
  obtain ⟨run', hrun', hkey⟩ := List.mem_map.mp hentry
  obtain ⟨old, hold, rfl⟩ := mem_updateWhere.mp hrun'
  rw [Prod.mk.injEq] at hkey
  by_cases hid : old.runId = run.runId
  · obtain rfl := hunique.eq hold hmem hid
    rw [if_pos (by simp)] at hkey
    apply h.marker_ne_none hold hkey.1 hnone
  · rw [if_neg (by simpa using hid)] at hkey
    apply h.marker_ne_none hold hkey.1 hkey.2

/-- A rebase clears no marker. -/
theorem rebaseInitial_marked {currentScannedHeight : Nat} {r' : RunId} {applied : Bool}
    (hunique : s.RunsUnique) (h : s.Marked r)
    (hrebase : s.rebaseInitialSignedScheduleForAnchorReadiness r' currentScannedHeight
      = .ok (s', applied)) :
  s'.Marked r
  := by
  rcases rebaseInitial_cases hunique hrebase with
    ⟨-, run, hmem, rfl, origin, delta, -, -, hshiftable, rfl⟩ | ⟨-, rfl | ⟨origin, rfl⟩⟩
  · apply h.shiftSchedule ⟨run, hmem, rfl, hshiftable.unmarked⟩ hunique
  · apply h
  · apply h.updateRuns
    · intro run
      rfl
    · intro run _ hnone
      cases hnone

/-- A run with a decided rebase is not shifted. -/
theorem Marked.not_shifts (h : s.Marked r) (hunique : s.RunsUnique) {call : ScheduleCall} :
  ¬s.Shifts r call
  := by
  have hrebase {currentScannedHeight : Nat} {s' : Store} :
      s.rebaseInitialSignedScheduleForAnchorReadiness r currentScannedHeight ≠ .ok (s', true) := by
    intro hshift
    rcases rebaseInitial_cases hunique hshift with
      ⟨-, run, hmem, hid, origin, delta, -, -, hshiftable, -⟩ | ⟨hfalse, -⟩
    · apply h.marker_ne_none hmem hid hshiftable.unmarked
    · cases hfalse
  intro hshifts
  unfold Shifts at hshifts
  split at hshifts
  · obtain ⟨-, s', hshift⟩ := hshifts
    apply hrebase hshift
  · obtain ⟨-, -, ⟨s', hshift⟩, -⟩ := hshifts
    apply hrebase hshift
  · apply hshifts

/-! ### Runs of calls -/

/-- A new run with another identifier. -/
theorem Marked.newRun (h : s.Marked r) {run : MigrationRun} (hid : run.runId ≠ r) :
  Marked { s with runs := s.runs ++ [run] } r
  := by
  intro hentry
  obtain ⟨other, hother, hkey⟩ := List.mem_map.mp hentry
  rw [Prod.mk.injEq] at hkey
  rcases List.mem_append.mp hother with hother | hother
  · apply h.marker_ne_none hother hkey.1 hkey.2
  · rw [List.mem_singleton.mp hother] at hkey
    apply hid hkey.1

/-- No operation clears the marker of a run that is there. -/
theorem apply_marked {op : Op} (hkeys : s.Keys) (hpresent : ∃ run ∈ s.runs, run.runId = r)
    (h : s.Marked r) (happly : s.apply op = .ok s') :
  s'.Marked r
  := by
  by_cases hsigns : op.signs = false
  · apply h.of_subset (apply_inherits hsigns happly).markers
  · obtain ⟨present, hpresent, hpresentId⟩ := hpresent
    cases op with
    | createRunWithStagedDenominationsAndSignedChildren new notes children stages schedule =>
      replace happly : s.createRunWithStagedDenominationsAndSignedChildren new notes children
        stages schedule = .ok s' := happly
      obtain ⟨-, hunused, u, hu, happly⟩ := createRun_eq_ok happly
      have hnew : new.runId ≠ r := by
        rw [← hpresentId]
        apply (hunused present hpresent).symm
      apply Marked.of_eq _ (insertSignedChildPczts_markers happly)
      apply Marked.of_eq _ (markers_of_runs (insertDenominationStages_keeps hu).1)
      have hcreated : Marked { s with
          runs := s.runs ++ [new.row (initialPhase stages) (schedule.getD [])] } r := by
        apply h.newRun hnew
      apply hcreated.of_eq
      rfl
    | createOrResumePrivateMigrationDraft new schedule =>
      obtain ⟨_, hdraft⟩ := map_fst_eq_ok happly
      rw [createOrResumePrivateMigrationDraft] at hdraft
      split at hdraft
      · split at hdraft
        · simp only [bind_eq_ok, pure_eq_ok, Prod.mk.injEq] at hdraft
          obtain ⟨_, -, rfl, -⟩ := hdraft
          apply h
        · cases hdraft
      · obtain ⟨_, -, hdraft⟩ := bind_eq_ok.mp hdraft
        obtain ⟨_, -, hdraft⟩ := bind_eq_ok.mp hdraft
        obtain ⟨t, ht, hdraft⟩ := bind_eq_ok.mp hdraft
        rw [pure_eq_ok, Prod.mk.injEq] at hdraft
        obtain ⟨rfl, -⟩ := hdraft
        obtain ⟨hunused, rfl⟩ := insertRun_spec ht
        apply h.newRun
        rw [← hpresentId]
        apply (hunused present hpresent).symm
    | finalizePrivateMigrationDraft r' account network targets notes children stages =>
      obtain ⟨_, -, happly⟩ := bind_eq_ok.mp happly
      obtain ⟨_, -, happly⟩ := bind_eq_ok.mp happly
      obtain ⟨_, -, happly⟩ := bind_eq_ok.mp happly
      obtain ⟨_, -, happly⟩ := bind_eq_ok.mp happly
      obtain ⟨u, hu, happly⟩ := bind_eq_ok.mp happly
      obtain ⟨v, hv, happly⟩ := bind_eq_ok.mp happly
      obtain rfl := pure_eq_ok.mp happly
      have hmarkers : v.markers = s.markers := by
        rw [insertSignedChildPczts_markers hv]
        apply markers_of_runs (insertDenominationStages_keeps hu).1
      apply (h.of_eq hmarkers).of_eq
      apply markers_updateRuns
      intro run
      exact ⟨rfl, rfl⟩
    | persistSignedChildPcztsForRun r' children =>
      obtain ⟨_, -, happly⟩ := bind_eq_ok.mp happly
      obtain ⟨v, hv, happly⟩ := bind_eq_ok.mp happly
      obtain ⟨_, -, happly⟩ := bind_eq_ok.mp happly
      obtain rfl := pure_eq_ok.mp happly
      apply (h.of_eq (insertSignedChildPczts_markers hv)).of_eq
      apply markers_updateRuns
      intro run
      exact ⟨rfl, rfl⟩
    | adoptTimingPolicyForActiveRun account network policy generated =>
      cases happly
      apply h.of_eq adoptTimingPolicyForActiveRun_markers
    | insertPendingTxs r' pendingTxs generated =>
      replace happly : s.insertPendingTxs r' pendingTxs generated = .ok s' := happly
      rw [insertPendingTxs] at happly
      split at happly
      · cases happly
        apply h
      · apply h.of_eq (insertPendingTxsWithTx_markers happly)
    | promoteSignedChildPcztsToPendingTxs r' pendingTxs scanned retry generated =>
      replace happly : s.promoteSignedChildPcztsToPendingTxs r' pendingTxs scanned retry generated
        = .ok s' := happly
      rw [promoteSignedChildPcztsToPendingTxs] at happly
      split at happly
      · cases happly
        apply h
      · obtain ⟨_, -, happly⟩ := bind_eq_ok.mp happly
        obtain ⟨_, -, happly⟩ := bind_eq_ok.mp happly
        obtain ⟨⟨t, applied⟩, ht, happly⟩ := bind_eq_ok.mp happly
        obtain ⟨_, -, happly⟩ := bind_eq_ok.mp happly
        obtain ⟨u, hu, happly⟩ := bind_eq_ok.mp happly
        obtain rfl := pure_eq_ok.mp happly
        have hmarked : u.Marked r :=
          (rebaseInitial_marked hkeys.runs h ht).of_eq (insertPendingTxsWithTx_markers hu)
        apply hmarked.of_eq
        apply markers_updateRuns
        intro run
        exact ⟨rfl, rfl⟩
    | replaceResignedPendingParts r' replacements children =>
      apply h.of_eq (replaceResignedPendingParts_markers happly)
    | ensureSchema =>
      cases happly
      apply h.of_eq ensureRows_markers
    | _ => exact absurd rfl hsigns

theorem Keys.scheduleStep {call : ScheduleCall} (h : s.Keys) :
  (s.scheduleStep call).Keys
  := by
  cases call with
  | op op => exact h.step
  | rebaseInitialSignedScheduleForAnchorReadiness r currentScannedHeight =>
    rw [Store.scheduleStep]
    unfold committed
    split
    · obtain ⟨applied, hrebase⟩ := map_fst_eq_ok ‹_›
      have hevolves := rebaseInitial_evolves (l := Licence.none) hrebase
      exact ⟨hevolves.runsUnique h.runs, hevolves.txidsUnique h.txids⟩
    · apply h

/-- No call clears the marker of a run that is there. -/
theorem scheduleStep_marked {call : ScheduleCall} (hkeys : s.Keys)
    (hpresent : ∃ run ∈ s.runs, run.runId = r) (h : s.Marked r) :
  (s.scheduleStep call).Marked r
  := by
  cases call with
  | op op =>
    rw [scheduleStep, step]
    unfold committed
    split
    · apply apply_marked hkeys hpresent h ‹_›
    · apply h
  | rebaseInitialSignedScheduleForAnchorReadiness r' currentScannedHeight =>
    rw [scheduleStep]
    unfold committed
    split
    · obtain ⟨applied, hrebase⟩ := map_fst_eq_ok ‹_›
      apply rebaseInitial_marked hkeys.runs h hrebase
    · apply h

/-- As long as a run is there, its rebase stays decided. -/
theorem after_marked {calls : List ScheduleCall} (hkeys : s.Keys) (h : s.Marked r)
    (hpresent : ∀ before, before <+: calls →
      ∃ run ∈ (after scheduleStep s before).runs, run.runId = r) :
  (after scheduleStep s calls).Keys ∧ (after scheduleStep s calls).Marked r
  := by
  induction calls generalizing s with
  | nil => exact ⟨hkeys, h⟩
  | cons call calls ih =>
    apply ih hkeys.scheduleStep
    · apply scheduleStep_marked hkeys _ h
      apply hpresent [] List.nil_prefix
    · intro before hbefore
      apply hpresent (call :: before)
      rw [List.cons_prefix_cons]
      exact ⟨rfl, hbefore⟩

/-- A call that shifts the schedule of a run decides its rebase. -/
theorem Shifts.marked {call : ScheduleCall} (hkeys : s.Keys) (h : s.Shifts r call) :
  (s.scheduleStep call).Marked r
  := by
  have hshift {currentScannedHeight : Nat} {t : Store}
      (h : s.rebaseInitialSignedScheduleForAnchorReadiness r currentScannedHeight
        = .ok (t, true)) : t.Marked r := by
    rcases rebaseInitial_cases hkeys.runs h with
      ⟨-, run, hmem, rfl, origin, delta, -, -, hshiftable, rfl⟩ | ⟨hfalse, -⟩
    · apply hshiftable.marked hkeys.runs hmem
    · cases hfalse
  unfold Shifts at h
  split at h
  · rename_i r' currentScannedHeight
    obtain ⟨rfl, t, ht⟩ := h
    have hstep : s.scheduleStep
        (.rebaseInitialSignedScheduleForAnchorReadiness r' currentScannedHeight) = t := by
      rw [scheduleStep, ht]
      rfl
    rw [hstep]
    apply hshift ht
  · rename_i r' pendingTxs currentScannedHeight remainingChildRetryHeight generated
    obtain ⟨rfl, hne, ⟨t, ht⟩, s', hs'⟩ := h
    have hstep : s.scheduleStep (.op (.promoteSignedChildPcztsToPendingTxs r' pendingTxs
        currentScannedHeight remainingChildRetryHeight generated)) = s' := by
      rw [scheduleStep, step, apply, hs']
      rfl
    rw [hstep]
    rw [promoteSignedChildPcztsToPendingTxs, if_neg hne] at hs'
    obtain ⟨_, -, hs'⟩ := bind_eq_ok.mp hs'
    obtain ⟨_, -, hs'⟩ := bind_eq_ok.mp hs'
    obtain ⟨⟨u, applied⟩, hu, hs'⟩ := bind_eq_ok.mp hs'
    obtain ⟨_, -, hs'⟩ := bind_eq_ok.mp hs'
    obtain ⟨v, hv, hs'⟩ := bind_eq_ok.mp hs'
    obtain rfl := pure_eq_ok.mp hs'
    obtain rfl : u = t := by
      rw [hu] at ht
      cases ht
      rfl
    apply ((hshift ht).of_eq (insertPendingTxsWithTx_markers hv)).of_eq
    apply markers_updateRuns
    intro run
    exact ⟨rfl, rfl⟩
  · apply h.elim

/-- A rebase shifts the whole schedule of a run, which has no pending transactions yet, by one
delta, and every signed child stays in the expiry window of its signature; or it changes at
most the marker of the run.  Between two calls that shift the schedule of one identifier, its
run was removed. -/
theorem rebaseInitialSignedSchedule_exact (hkeys : s.Keys) :
  (∀ r currentScannedHeight s' applied,
    s.rebaseInitialSignedScheduleForAnchorReadiness r currentScannedHeight = .ok (s', applied) →
      applied = true ∧ (∃ run ∈ s.runs, run.runId = r ∧ ∃ origin delta, 0 < delta
          ∧ origin + delta = currentScannedHeight ∧ s.Shiftable run origin delta
          ∧ s' = s.shiftSchedule r delta)
        ∨ applied = false
          ∧ (s' = s ∨ ∃ origin, s' = s.markInitialScheduleRebased r origin))
    ∧ ∀ r call calls call', s.Shifts r call →
      (after scheduleStep s (call :: calls)).Shifts r call' →
      ∃ before, before <+: calls
        ∧ ∀ run ∈ (after scheduleStep s (call :: before)).runs, run.runId ≠ r
  := by
  constructor
  · intro r currentScannedHeight s' applied h
    apply rebaseInitial_cases hkeys.runs h
  · intro r call calls call' hfirst hsecond
    by_contra hremoved
    push Not at hremoved
    obtain ⟨hends, hmarked⟩ := after_marked hkeys.scheduleStep (hfirst.marked hkeys) hremoved
    apply hmarked.not_shifts hends.runs hsecond

/-- Create a run with a signed child whose schedule starts at 34554, and whose proofs can be
made from 34550 on. -/
def sampleReady : List Op := [
  .createRunWithStagedDenominationsAndSignedChildren sampleRun [sampleNote] [sampleChild] []
    (some [⟨some 0, 100, 10⟩]),
  .setProofRetryHeight 1 34550]

/-- At 34560 the schedule of the run moves by six blocks, and after that it does not move
again. -/
theorem rebaseInitialSignedSchedule_exact_ready :
  (after step {} sampleReady).rebaseInitialSignedScheduleForAnchorReadiness 1 34560
      = .ok ((after step {} sampleReady).shiftSchedule 1 6, true)
    ∧ ∀ currentScannedHeight,
      ¬((after step {} sampleReady).shiftSchedule 1 6).Shifts 1
        (.rebaseInitialSignedScheduleForAnchorReadiness 1 currentScannedHeight)
  := by
  have hkeys : (after step {} sampleReady).Keys := keys_empty.after
  have hshift : (after step {} sampleReady).rebaseInitialSignedScheduleForAnchorReadiness 1 34560
      = .ok ((after step {} sampleReady).shiftSchedule 1 6, true) := by
    decide +kernel
  refine ⟨hshift, fun currentScannedHeight hsecond => ?_⟩
  obtain ⟨before, hbefore, hremoved⟩ := (rebaseInitialSignedSchedule_exact hkeys).2 1
    (.rebaseInitialSignedScheduleForAnchorReadiness 1 34560) []
    (.rebaseInitialSignedScheduleForAnchorReadiness 1 currentScannedHeight)
    ⟨rfl, _, hshift⟩ (by
      rw [after_cons, after_nil, scheduleStep, hshift]
      apply hsecond)
  rw [List.prefix_nil] at hbefore
  subst hbefore
  rw [after_cons, after_nil, scheduleStep, hshift] at hremoved
  revert hremoved
  decide +kernel

/-- A rebase at the origin of the schedule moves nothing, but writes the marker of the run. -/
theorem rebaseInitialSignedSchedule_marks :
  ∃ s', (after step {} sampleReady).rebaseInitialSignedScheduleForAnchorReadiness 1 34554
      = .ok (s', false)
    ∧ s'.signedChildren = (after step {} sampleReady).signedChildren
    ∧ s'.pendingTxs = (after step {} sampleReady).pendingTxs
    ∧ s' ≠ after step {} sampleReady
  := by
  refine ⟨(after step {} sampleReady).markInitialScheduleRebased 1 34554, ?_, ?_, ?_, ?_⟩
  · decide +kernel
  · rfl
  · rfl
  · decide +kernel

end Store

end Vizor
