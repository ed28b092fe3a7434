import Vizor.Store.Pending
import Vizor.Lib.Errors

/-!
# Generations of recovery schedules

Parts that wait for new signatures are scheduled after a common origin.  The offsets of a
generation are given above the largest one so far, and a part whose height has passed gets a
new offset.  Between two calls more parts may wait, and parts may come and go; the origin, the
maximum and the offsets stay what the calls made them.
-/

namespace Vizor

open Table Run

/-- The origin and the maximum of the generation of a run. -/
def MigrationRun.recoveryGeneration (run : MigrationRun) : Option Nat × Option Nat :=
  (run.recoveryScheduleOriginHeight, run.recoveryScheduleMaxBlockOffset)

theorem MigrationRun.recoveryGeneration_eq {run : MigrationRun} {origin maximum : Option Nat} :
  run.recoveryGeneration = (origin, maximum) ↔ run.recoveryScheduleOriginHeight = origin
    ∧ run.recoveryScheduleMaxBlockOffset = maximum
  := by
  rw [recoveryGeneration, Prod.mk.injEq]

/-- What happens to the store. -/
inductive RebuildEvent where
  /-- The parts of the run that wait are scheduled, at a height of the chain. -/
  | ensureRebuildScheduleGeneration (originCandidateHeight : Nat) (fresh : Txid → Nat)
  /-- Other statements make it the store `t`. -/
  | others (t : Store)

namespace Store

variable {s s' : Store} {r : RunId} {originCandidateHeight : Nat} {fresh : Txid → Nat}
  {generation : Option RebuildScheduleGeneration}

/-! ### What a call does -/

/-- The height that has passed, after the origin of the generation of a run. -/
def elapsedCursor (run : MigrationRun) (originCandidateHeight : Nat) : Nat :=
  originCandidateHeight - run.recoveryScheduleOriginHeight.getD originCandidateHeight

/-- Whether a part waits for a new signature. -/
def Waits (r : RunId) (row : PendingTx) : Prop :=
  row.runId = r ∧ row.status = .needsResign

instance (r : RunId) (row : PendingTx) : Decidable (Waits r row) :=
  inferInstanceAs (Decidable (_ ∧ _))

/-- Whether a part that waits gets a new offset. -/
def IsAssigned (r : RunId) (cursor : Nat) (row : PendingTx) : Prop :=
  Waits r row ∧ row.rebuildBlockOffset.all (· < cursor) = true

instance (r : RunId) (cursor : Nat) (row : PendingTx) : Decidable (IsAssigned r cursor row) :=
  inferInstanceAs (Decidable (_ ∧ _))

/-- A part with its new offset, if it gets one. -/
def reassigned (r : RunId) (cursor base : Nat) (fresh : Txid → Nat) (row : PendingTx) :
    PendingTx :=
  if IsAssigned r cursor row then { row with rebuildBlockOffset := some (base + fresh row.txid) }
  else row

theorem foldl_max_le_iff {α : Type} {f : α → Nat} {xs : List α} {a b : Nat} :
  xs.foldl (fun m x => max m (f x)) a ≤ b ↔ a ≤ b ∧ ∀ x ∈ xs, f x ≤ b
  := by
  induction xs generalizing a with
  | nil => simp
  | cons x xs ih =>
    rw [List.foldl_cons, ih, List.forall_mem_cons, Nat.max_le, and_assoc]

/-- Offsets are written to the rows that they are for: a row that is not changed was not one of
them. -/
theorem foldlM_assignRebuildOffset {assigned : List (PendingTx × Nat)}
    (h : assigned.foldlM (fun s (row, offset) => assignRebuildOffset r offset row s) s = .ok s') :
  ∃ g : PendingTx → PendingTx, s' = { s with pendingTxs := s.pendingTxs.map g }
    ∧ ∀ row, g row = row ∧ (Waits r row → ∀ p ∈ assigned, p.1.txid = row.txid →
        p.1.rebuildBlockOffset ≠ row.rebuildBlockOffset)
      ∨ Waits r row ∧ ∃ p ∈ assigned, ∃ q ∈ assigned, p.1.txid = row.txid
        ∧ p.1.rebuildBlockOffset = row.rebuildBlockOffset ∧ q.1.txid = row.txid
        ∧ g row = { row with rebuildBlockOffset := some q.2 }
  := by
  induction assigned generalizing s with
  | nil =>
    cases h
    exact ⟨id, by simp, fun row => .inl ⟨rfl, by simp⟩⟩
  | cons first assigned ih =>
    rw [List.foldlM_cons, bind_eq_ok] at h
    obtain ⟨t, ht, hrest⟩ := h
    simp only [assignRebuildOffset, bind_eq_ok, pure_eq_ok] at ht
    obtain ⟨_, -, rfl⟩ := ht
    obtain ⟨g, rfl, hg⟩ := ih hrest
    let selected (row : PendingTx) : Bool := row.runId = r && row.txid = first.1.txid
      && row.status = .needsResign && row.rebuildBlockOffset = first.1.rebuildBlockOffset
    refine ⟨fun row => g (if selected row then { row with rebuildBlockOffset := some first.2 }
      else row), ?_, ?_⟩
    · unfold updatePendingTxs updateWhere
      dsimp only
      rw [List.map_map]
      rfl
    · intro row
      dsimp only
      by_cases hsel : selected row = true
      · rw [if_pos hsel]
        simp only [selected, Bool.and_eq_true, decide_eq_true_eq] at hsel
        obtain ⟨⟨⟨hrun, htxid⟩, hstatus⟩, hoffset⟩ := hsel
        right
        refine ⟨⟨hrun, hstatus⟩, first, List.mem_cons_self, ?_⟩
        rcases hg { row with rebuildBlockOffset := some first.2 } with
          ⟨hkept, -⟩ | ⟨-, -, -, q, hq, -, -, hqtxid, hmoved⟩
        · exact ⟨first, List.mem_cons_self, htxid.symm, hoffset.symm, htxid.symm, hkept⟩
        · exact ⟨q, List.mem_cons_of_mem _ hq, htxid.symm, hoffset.symm, hqtxid, hmoved⟩
      · rw [if_neg hsel]
        simp only [selected, Bool.and_eq_true, decide_eq_true_eq] at hsel
        rcases hg row with ⟨hkept, hnone⟩ | ⟨hwaits, p, hp, q, hq, hrow⟩
        · left
          refine ⟨hkept, ?_⟩
          intro hwaits p hp htxid hoffset
          rcases List.mem_cons.mp hp with rfl | hp
          · apply hsel ⟨⟨⟨hwaits.1, htxid.symm⟩, hwaits.2⟩, hoffset.symm⟩
          · apply hnone hwaits p hp htxid hoffset
        · exact .inr ⟨hwaits, p, List.mem_cons_of_mem _ hp, q, List.mem_cons_of_mem _ hq, hrow⟩

/-- The only row of a run. -/
theorem eq_of_countP_run {run : MigrationRun} (hrun : s.run? r = some run)
    (hcount : s.runs.countP (fun run => run.runId = r) = 1) {other : MigrationRun}
    (hother : other ∈ s.runs) (hid : other.runId = r) :
  other = run
  := by
  rw [List.countP_eq_length_filter, List.length_eq_one_iff] at hcount
  obtain ⟨only, honly⟩ := hcount
  have hrunMem : run ∈ s.runs.filter fun run => run.runId = r := by
    rw [List.mem_filter]
    have hfound := List.find?_some hrun
    exact ⟨List.mem_of_find?_eq_some hrun, hfound⟩
  have hotherMem : other ∈ s.runs.filter fun run => run.runId = r := by
    rw [List.mem_filter]
    exact ⟨hother, by simpa using hid⟩
  rw [honly, List.mem_singleton] at hrunMem hotherMem
  rw [hrunMem, hotherMem]

/-- What a call does to a run that has parts that wait: its origin stays, or becomes the
candidate; the maximum, and every new offset, is at least the base, which is above all that
came before. -/
structure Generated (r : RunId) (originCandidateHeight : Nat) (fresh : Txid → Nat)
    (run : MigrationRun) (base maximum : Nat) (s s' : Store) : Prop where
  read : s.run? r = some run
  single : s.runs.countP (fun run => run.runId = r) = 1
  parts : ∀ row ∈ s.pendingTxs, Waits r row → row.partIndex.isSome
  cursor : elapsedCursor run originCandidateHeight ≤ base
  persisted : run.recoveryScheduleMaxBlockOffset.getD 0 ≤ base
  observed : ∀ row ∈ s.pendingTxs, Waits r row → row.rebuildBlockOffset.getD 0 ≤ base
  above : base ≤ maximum
  assigned : ∀ row ∈ s.pendingTxs, IsAssigned r (elapsedCursor run originCandidateHeight) row →
    base + fresh row.txid ≤ maximum
  result : s' = { s with
    runs := updateWhere (fun run => run.runId = r) (fun other => { other with
      recoveryScheduleOriginHeight :=
        some (run.recoveryScheduleOriginHeight.getD originCandidateHeight)
      recoveryScheduleMaxBlockOffset := some maximum }) s.runs
    pendingTxs := s.pendingTxs.map
      (reassigned r (elapsedCursor run originCandidateHeight) base fresh) }

theorem mem_waiting {row : PendingTx} :
  row ∈ (s.pendingOf r).filter (fun row => row.status = .needsResign)
    ↔ row ∈ s.pendingTxs ∧ Waits r row
  := by
  rw [List.mem_filter, pendingOf, List.mem_filter, decide_eq_true_eq, decide_eq_true_eq, and_assoc,
    Waits]

theorem ensureRebuildScheduleGeneration_spec
    (h : s.ensureRebuildScheduleGeneration r originCandidateHeight fresh
      = .ok (s', generation)) :
  (∀ row ∈ s.pendingTxs, ¬ Waits r row) ∧ s' = s
    ∨ ∃ run base maximum, Generated r originCandidateHeight fresh run base maximum s s'
  := by
  rw [ensureRebuildScheduleGeneration] at h
  split at h
  · rename_i hempty
    left
    rw [pure_eq_ok, Prod.mk.injEq] at h
    refine ⟨?_, h.1.symm⟩
    intro row hrow hwaits
    have hmem := mem_waiting.mpr ⟨hrow, hwaits⟩
    rw [List.isEmpty_iff.mp hempty] at hmem
    apply List.not_mem_nil hmem
  · right
    obtain ⟨run, hrun, h⟩ := bind_eq_ok.mp h
    rw [readRun, okOr_eq_ok] at hrun
    obtain ⟨_, hparts, h⟩ := bind_eq_ok.mp h
    obtain ⟨_, -, h⟩ := bind_eq_ok.mp h
    obtain ⟨_, hbelow, h⟩ := bind_eq_ok.mp h
    obtain ⟨_, -, h⟩ := bind_eq_ok.mp h
    obtain ⟨assigned, hassigned, h⟩ := bind_eq_ok.mp h
    obtain ⟨t, ht, h⟩ := bind_eq_ok.mp h
    obtain ⟨_, hcount, h⟩ := bind_eq_ok.mp h
    rw [pure_eq_ok, Prod.mk.injEq] at h
    obtain ⟨rfl, -⟩ := h
    rw [ensure_eq_ok] at hparts hbelow hcount
    rw [foldl_max_le_iff] at hbelow
    set cursor := originCandidateHeight
      - run.recoveryScheduleOriginHeight.getD originCandidateHeight with hcursor
    set observed := ((s.pendingOf r).filter fun row => row.status = .needsResign).foldl
      (fun m row => max m (row.rebuildBlockOffset.getD 0)) 0 with hobserved
    set base := max (run.recoveryScheduleMaxBlockOffset.getD observed) cursor with hbase
    have hmaximum := (@foldl_max_le_iff _ (fun row : PendingTx × Nat => row.2) assigned base _).mp
      le_rfl
    have htoAssign : ∀ row, row ∈ s.pendingTxs ∧ IsAssigned r cursor row ↔
        row ∈ ((s.pendingOf r).filter fun row => row.status = .needsResign).filter fun row =>
          row.rebuildBlockOffset.all fun offset => offset < cursor := by
      intro row
      rw [List.mem_filter, mem_waiting, IsAssigned, and_assoc]
    have hvalue : ∀ p ∈ assigned, p.1 ∈ s.pendingTxs ∧ IsAssigned r cursor p.1
        ∧ p.2 = base + fresh p.1.txid := by
      intro p hp
      obtain ⟨row, hrow, hstep⟩ := exists_of_mem_mapM_eq_ok hassigned p hp
      simp only [bind_eq_ok, okOr_eq_ok, pure_eq_ok, checkedAdd32] at hstep
      obtain ⟨offset, hoffset, rfl⟩ := hstep
      split at hoffset
      · cases hoffset
        rw [← htoAssign] at hrow
        exact ⟨hrow.1, hrow.2, rfl⟩
      · cases hoffset
    have hcovered : ∀ row ∈ s.pendingTxs, IsAssigned r cursor row →
        (row, base + fresh row.txid) ∈ assigned := by
      intro row hrow hneeds
      obtain ⟨p, hp, hstep⟩ := mem_of_mapM_eq_ok hassigned row ((htoAssign row).mp ⟨hrow, hneeds⟩)
      simp only [bind_eq_ok, okOr_eq_ok, pure_eq_ok] at hstep
      obtain ⟨offset, -, rfl⟩ := hstep
      rw [← (hvalue _ hp).2.2]
      apply hp
    obtain ⟨g, rfl, hg⟩ := foldlM_assignRebuildOffset ht
    refine ⟨run, base, _, hrun, hcount, ?_, le_max_right _ _, ?_, ?_, hmaximum.1, ?_, ?_⟩
    · intro row hrow hwaits
      apply List.all_eq_true.mp hparts row (mem_waiting.mpr ⟨hrow, hwaits⟩)
    · rw [hbase]
      cases hmax : run.recoveryScheduleMaxBlockOffset <;> simp
    · intro row hrow hwaits
      rw [hbase]
      apply (hbelow.2 row (mem_waiting.mpr ⟨hrow, hwaits⟩)).trans (le_max_left _ _)
    · intro row hrow hneeds
      apply hmaximum.2 _ (hcovered row hrow hneeds)
    · have hmap : s.pendingTxs.map g = s.pendingTxs.map (reassigned r cursor base fresh) := by
        apply List.map_congr_left
        intro row hrow
        rw [reassigned]
        rcases hg row with ⟨hkept, hnone⟩ | ⟨hwaits, p, hp, q, hq, htxid, hoffset, hqtxid, hmoved⟩
        · rw [if_neg, hkept]
          intro hneeds
          apply hnone hneeds.1 _ (hcovered row hrow hneeds) rfl rfl
        · rw [if_pos, hmoved, (hvalue q hq).2.2, hqtxid]
          refine ⟨hwaits, ?_⟩
          rw [← hoffset]
          apply (hvalue p hp).2.1.2
      unfold updateRuns
      rw [hmap]
      rfl

/-! ### Calls and other statements -/

/-- The store after an event; a call that fails changes nothing. -/
def rebuildStep (r : RunId) (s : Store) : RebuildEvent → Store
  | .ensureRebuildScheduleGeneration originCandidateHeight fresh =>
    committed s ((s.ensureRebuildScheduleGeneration r originCandidateHeight fresh).map (·.1))
  | .others t => t

/-- The parts of a run have no offsets. -/
def Unscheduled (r : RunId) (s : Store) : Prop :=
  ∀ row ∈ s.pendingTxs, row.runId = r → row.rebuildBlockOffset = none

/-- Parts come and go, but only calls give them offsets; and a run keeps the generation that the
calls made.  It has none when it starts.  Where it stops, its generation is cleared, while the
parts that were broadcast stay: that is such an event where none of these has an offset.  All
other statements of the store are such events. -/
def KeepsGeneration (r : RunId) (s : Store) : RebuildEvent → Prop
  | .ensureRebuildScheduleGeneration _ _ => True
  | .others t =>
    (∀ row' ∈ t.pendingTxs, row'.runId = r → row'.rebuildBlockOffset = none
      ∨ ∃ row ∈ s.pendingTxs, row.runId = r ∧ row.rebuildBlockOffset = row'.rebuildBlockOffset)
    ∧ ∀ run' ∈ t.runs, run'.runId = r →
      (∃ run ∈ s.runs, run.runId = r ∧ run'.recoveryGeneration = run.recoveryGeneration)
      ∨ run'.recoveryGeneration = (none, none) ∧ t.Unscheduled r

/-- A run without a generation has no offsets; the maximum of a generation is at least every
offset of its parts. -/
def Consistent (r : RunId) (s : Store) : Prop :=
  ∀ run ∈ s.runs, run.runId = r →
    run.recoveryGeneration = (none, none) ∧ s.Unscheduled r
    ∨ ∃ origin maximum, run.recoveryGeneration = (some origin, some maximum)
      ∧ ∀ row ∈ s.pendingTxs, row.runId = r → row.rebuildBlockOffset.getD 0 ≤ maximum

theorem consistent_empty :
  Consistent r {}
  := by
  intro run hrun
  cases hrun

theorem Consistent.others {t : Store} (h : s.Consistent r) (ht : KeepsGeneration r s (.others t)) :
  t.Consistent r
  := by
  obtain ⟨hrows, hruns⟩ := ht
  intro run' hrun' hid
  rcases hruns run' hrun' hid with ⟨run, hrun, hrunId, hsame⟩ | hnew
  · rw [hsame]
    rcases h run hrun hrunId with ⟨hnone, hunscheduled⟩ | ⟨origin, maximum, hsome, hbound⟩
    · left
      refine ⟨hnone, ?_⟩
      intro row' hrow' hrowId
      rcases hrows row' hrow' hrowId with hoffset | ⟨row, hrow, hrowId', hoffset⟩
      · apply hoffset
      · rw [← hoffset]
        apply hunscheduled row hrow hrowId'
    · right
      refine ⟨origin, maximum, hsome, ?_⟩
      intro row' hrow' hrowId
      rcases hrows row' hrow' hrowId with hoffset | ⟨row, hrow, hrowId', hoffset⟩
      · rw [hoffset]
        apply Nat.zero_le _
      · rw [← hoffset]
        apply hbound row hrow hrowId'
  · exact .inl hnew

theorem reassigned_runId {cursor base : Nat} {row : PendingTx} :
  (reassigned r cursor base fresh row).runId = row.runId
  := by
  rw [reassigned]
  split <;> rfl

theorem reassigned_partIndex {cursor base : Nat} {row : PendingTx} :
  (reassigned r cursor base fresh row).partIndex = row.partIndex
  := by
  rw [reassigned]
  split <;> rfl

theorem waits_reassigned {cursor base : Nat} {row : PendingTx} :
  Waits r (reassigned r cursor base fresh row) ↔ Waits r row
  := by
  rw [reassigned]
  split <;> rfl

/-- The offsets after a call are at most the new maximum, if they were at most the base. -/
theorem Generated.offset_le {run : MigrationRun} {base maximum : Nat}
    (h : Generated r originCandidateHeight fresh run base maximum s s')
    (hbound : ∀ row ∈ s.pendingTxs, row.runId = r → row.rebuildBlockOffset.getD 0 ≤ base) :
  ∀ row' ∈ s'.pendingTxs, row'.runId = r → row'.rebuildBlockOffset.getD 0 ≤ maximum
  := by
  intro row' hrow' hid
  rw [h.result] at hrow'
  obtain ⟨row, hrow, rfl⟩ := List.mem_map.mp hrow'
  rw [reassigned_runId] at hid
  rw [reassigned]
  split
  · rename_i hneeds
    apply h.assigned row hrow hneeds
  · apply (hbound row hrow hid).trans h.above

/-- The offsets of a consistent run are at most the base of a call. -/
theorem Generated.bounded {run : MigrationRun} {base maximum : Nat}
    (h : Generated r originCandidateHeight fresh run base maximum s s')
    (hconsistent : s.Consistent r) :
  ∀ row ∈ s.pendingTxs, row.runId = r → row.rebuildBlockOffset.getD 0 ≤ base
  := by
  have hfound := List.find?_some h.read
  have hid : run.runId = r := by simpa using hfound
  intro row hrow hrowId
  rcases hconsistent run (List.mem_of_find?_eq_some h.read) hid with
    ⟨-, hunscheduled⟩ | ⟨origin, persisted, hgeneration, hbound⟩
  · rw [hunscheduled row hrow hrowId]
    apply Nat.zero_le _
  · have hpersisted := h.persisted
    rw [(MigrationRun.recoveryGeneration_eq.mp hgeneration).2] at hpersisted
    apply (hbound row hrow hrowId).trans hpersisted

/-- The generation of the run after a call. -/
theorem Generated.generation_eq {run : MigrationRun} {base maximum : Nat}
    (h : Generated r originCandidateHeight fresh run base maximum s s') :
  ∀ run' ∈ s'.runs, run'.runId = r → run'.recoveryGeneration
    = (some (run.recoveryScheduleOriginHeight.getD originCandidateHeight), some maximum)
  := by
  intro run' hrun' hid
  rw [h.result] at hrun'
  obtain ⟨other, -, rfl⟩ := mem_updateWhere.mp hrun'
  split
  · rfl
  · rename_i hne
    rw [if_neg hne] at hid
    exact absurd (by simpa using hid) hne

theorem Consistent.ensure (hconsistent : s.Consistent r)
    (h : s.ensureRebuildScheduleGeneration r originCandidateHeight fresh
      = .ok (s', generation)) :
  s'.Consistent r
  := by
  rcases ensureRebuildScheduleGeneration_spec h with ⟨-, rfl⟩ | ⟨run, base, maximum, hgenerated⟩
  · apply hconsistent
  · intro run' hrun' hid
    right
    refine ⟨_, maximum, hgenerated.generation_eq run' hrun' hid, ?_⟩
    apply hgenerated.offset_le (hgenerated.bounded hconsistent)

theorem consistent_after {events : List RebuildEvent}
    (hevents : Along (rebuildStep r) (KeepsGeneration r) s events) (h : s.Consistent r) :
  (after (rebuildStep r) s events).Consistent r
  := by
  apply invariant _ h hevents
  intro t event ht hevent
  cases event with
  | others u => apply ht.others hevent
  | ensureRebuildScheduleGeneration originCandidateHeight fresh =>
    rw [rebuildStep]
    cases hcall : t.ensureRebuildScheduleGeneration r originCandidateHeight fresh with
    | error e => exact ht
    | ok result => apply ht.ensure hcall

/-! ### Errors -/

/-- The errors of a call: the metadata of the generation is not among them. -/
def CallError (e : String) : Prop :=
  e = "Read migration rebuild schedule origin: Query returned no rows"
    ∨ e = "Migration part waiting for re-sign is missing its part index"
    ∨ e = "Approved migration schedule is missing a recovery child"
    ∨ e = "Migration rebuild schedule offset overflow"
    ∨ e = "Migration recovery part changed while scheduling"
    ∨ e = "Migration run changed while scheduling recovery"

theorem Consistent.failsWith (hconsistent : s.Consistent r) :
  FailsWith CallError (s.ensureRebuildScheduleGeneration r originCandidateHeight fresh)
  := by
  rw [ensureRebuildScheduleGeneration]
  split
  · apply failsWith_pure
  · apply FailsWith.bind
    · apply failsWith_okOr
      exact .inl rfl
    · intro run hrun
      rw [readRun, okOr_eq_ok] at hrun
      have hfound := List.find?_some hrun
      have hid : run.runId = r := by simpa using hfound
      have hgeneration := hconsistent run (List.mem_of_find?_eq_some hrun) hid
      apply FailsWith.bind
      · apply failsWith_ensure
        intro _
        exact .inr (.inl rfl)
      · intro _ _
        apply FailsWith.bind
        · apply failsWith_ensure
          intro hincomplete
          exfalso
          apply hincomplete
          rcases hgeneration with ⟨hnone, hunscheduled⟩ | ⟨origin, maximum, hsome, -⟩
          · right
            refine ⟨by simp [(MigrationRun.recoveryGeneration_eq.mp hnone).2], ?_⟩
            rw [List.all_eq_true]
            intro row hrow
            obtain ⟨hmem, hwaits⟩ := mem_waiting.mp hrow
            rw [hunscheduled row hmem hwaits.1]
            rfl
          · left
            rw [(MigrationRun.recoveryGeneration_eq.mp hsome).1]
            rfl
        · intro _ _
          apply FailsWith.bind
          · apply failsWith_ensure
            intro hbelow
            exfalso
            apply hbelow
            rcases hgeneration with ⟨hnone, -⟩ | ⟨origin, maximum, hsome, hbound⟩
            · rw [(MigrationRun.recoveryGeneration_eq.mp hnone).2]
              exact le_rfl
            · rw [(MigrationRun.recoveryGeneration_eq.mp hsome).2, foldl_max_le_iff]
              refine ⟨Nat.zero_le _, ?_⟩
              intro row hrow
              obtain ⟨hmem, hwaits⟩ := mem_waiting.mp hrow
              apply hbound row hmem hwaits.1
          · intro _ _
            apply FailsWith.bind
            · apply failsWith_ensure
              intro _
              exact .inr (.inr (.inl rfl))
            · intro _ _
              apply FailsWith.bind
              · apply FailsWith.mapM
                intro row _
                apply FailsWith.bind
                · apply failsWith_okOr
                  exact .inr (.inr (.inr (.inl rfl)))
                · intro _ _
                  apply failsWith_pure
              · intro assigned _
                apply FailsWith.bind
                · apply FailsWith.foldlM
                  intro t p _
                  apply FailsWith.bind
                  · apply failsWith_ensure
                    intro _
                    exact .inr (.inr (.inr (.inr (.inl rfl))))
                  · intro _ _
                    apply failsWith_pure
                · intro t _
                  apply FailsWith.bind
                  · apply failsWith_ensure
                    intro _
                    exact .inr (.inr (.inr (.inr (.inr rfl))))
                  · intro _ _
                    apply failsWith_pure

/-! ### A second call -/

/-- A call changes nothing when no part gets an offset, and the run has its generation. -/
theorem ensureRebuildScheduleGeneration_of_settled {run : MigrationRun} {origin maximum : Nat}
    (hread : s.run? r = some run) (hsingle : s.runs.countP (fun run => run.runId = r) = 1)
    (hparts : ∀ row ∈ s.pendingTxs, Waits r row → row.partIndex.isSome)
    (hgeneration : run.recoveryGeneration = (some origin, some maximum))
    (hcursor : originCandidateHeight - origin ≤ maximum)
    (hoffsets : ∀ row ∈ s.pendingTxs, Waits r row → ∃ offset, row.rebuildBlockOffset = some offset
      ∧ originCandidateHeight - origin ≤ offset ∧ offset ≤ maximum) :
  ∃ result, s.ensureRebuildScheduleGeneration r originCandidateHeight fresh = .ok result
    ∧ result.1 = s
  := by
  obtain ⟨horigin, hmaximum⟩ := MigrationRun.recoveryGeneration_eq.mp hgeneration
  rw [ensureRebuildScheduleGeneration]
  split
  · exact ⟨_, rfl, rfl⟩
  · have hnil : ((s.pendingOf r).filter fun row => row.status = .needsResign).filter (fun row =>
        row.rebuildBlockOffset.all fun offset => offset < originCandidateHeight - origin) = [] := by
      rw [List.filter_eq_nil_iff]
      intro row hrow
      obtain ⟨hmem, hwaits⟩ := mem_waiting.mp hrow
      obtain ⟨offset, hoffset, hlow, -⟩ := hoffsets row hmem hwaits
      simp [hoffset, hlow]
    have hall : ((s.pendingOf r).filter fun row => row.status = .needsResign).all
        (·.partIndex.isSome) = true := by
      rw [List.all_eq_true]
      intro row hrow
      obtain ⟨hmem, hwaits⟩ := mem_waiting.mp hrow
      apply hparts row hmem hwaits
    have hbelow : ((s.pendingOf r).filter fun row => row.status = .needsResign).foldl
        (fun m row => max m (row.rebuildBlockOffset.getD 0)) 0 ≤ maximum := by
      rw [foldl_max_le_iff]
      refine ⟨Nat.zero_le _, ?_⟩
      intro row hrow
      obtain ⟨hmem, hwaits⟩ := mem_waiting.mp hrow
      obtain ⟨offset, hoffset, -, hhigh⟩ := hoffsets row hmem hwaits
      rw [hoffset]
      apply hhigh
    have hruns : updateWhere (fun run : MigrationRun => run.runId = r) (fun run => { run with
        recoveryScheduleOriginHeight := some origin
        recoveryScheduleMaxBlockOffset := some maximum }) s.runs = s.runs := by
      apply updateWhere_eq_self
      intro other hother hid
      obtain rfl := eq_of_countP_run hread hsingle hother (by simpa using hid)
      rw [← horigin, ← hmaximum]
    apply exists_bind_eq_ok (okOr_eq_ok.mpr hread)
    dsimp only
    rw [horigin, hmaximum]
    simp only [Option.getD_some, hnil]
    apply exists_bind_eq_ok (a := ()) (ensure_eq_ok.mpr hall)
    apply exists_bind_eq_ok (a := ()) (ensure_eq_ok.mpr (.inl rfl))
    apply exists_bind_eq_ok (a := ()) (ensure_eq_ok.mpr hbelow)
    apply exists_bind_eq_ok (a := ()) (ensure_eq_ok.mpr rfl)
    apply exists_bind_eq_ok (a := []) rfl
    apply exists_bind_eq_ok (a := s) rfl
    apply exists_bind_eq_ok (a := ()) (ensure_eq_ok.mpr hsingle)
    refine ⟨_, rfl, ?_⟩
    rw [List.foldl_nil, Nat.max_eq_left hcursor, updateRuns, hruns]

/-! ### Every run -/

/-- What a call guarantees: it changes the offsets of parts that wait and have none, or one that
has elapsed; all parts that wait have offsets from the elapsed height on; the maximum does not
decrease, and is at least every offset; and a second call changes nothing. -/
structure Rescheduled (r : RunId) (originCandidateHeight : Nat) (s s' : Store) : Prop where
  rows : ∃ g : PendingTx → PendingTx, s'.pendingTxs = s.pendingTxs.map g
    ∧ ∀ row ∈ s.pendingTxs,
      (g row = row ∨ Waits r row ∧ ∃ offset, g row = { row with rebuildBlockOffset := some offset })
      ∧ ∀ run, s.run? r = some run → Waits r row →
        (g row ≠ row → row.rebuildBlockOffset.all (· < elapsedCursor run originCandidateHeight))
        ∧ ∃ offset, (g row).rebuildBlockOffset = some offset
          ∧ elapsedCursor run originCandidateHeight ≤ offset
  maximum : ∀ run' ∈ s'.runs, run'.runId = r →
    (∃ run ∈ s.runs, run.runId = r
      ∧ run.recoveryScheduleMaxBlockOffset.getD 0 ≤ run'.recoveryScheduleMaxBlockOffset.getD 0)
    ∧ ∀ row' ∈ s'.pendingTxs, row'.runId = r →
      row'.rebuildBlockOffset.getD 0 ≤ run'.recoveryScheduleMaxBlockOffset.getD 0
  again : ∀ fresh, ∃ result, s'.ensureRebuildScheduleGeneration r originCandidateHeight fresh
    = .ok result ∧ result.1 = s'

/-- The offsets of the parts that wait, after a call. -/
theorem Generated.waiting_offset {run : MigrationRun} {base maximum : Nat}
    (h : Generated r originCandidateHeight fresh run base maximum s s') {row : PendingTx}
    (hrow : row ∈ s.pendingTxs) (hwaits : Waits r row) :
  ∃ offset, (reassigned r (elapsedCursor run originCandidateHeight) base fresh row).rebuildBlockOffset
      = some offset
    ∧ elapsedCursor run originCandidateHeight ≤ offset ∧ offset ≤ maximum
  := by
  rw [reassigned]
  split
  · rename_i hneeds
    refine ⟨_, rfl, ?_, h.assigned row hrow hneeds⟩
    apply h.cursor.trans (Nat.le_add_right _ _)
  · rename_i hkept
    have hobserved := (h.observed row hrow hwaits).trans h.above
    cases hoffset : row.rebuildBlockOffset with
    | none =>
      exfalso
      apply hkept
      exact ⟨hwaits, by simp [hoffset]⟩
    | some offset =>
      rw [hoffset] at hobserved
      refine ⟨offset, rfl, ?_, hobserved⟩
      by_contra hlt
      apply hkept
      refine ⟨hwaits, ?_⟩
      rw [hoffset]
      simpa using hlt

/-- A second call finds nothing to do. -/
theorem Generated.again {run : MigrationRun} {base maximum : Nat}
    (h : Generated r originCandidateHeight fresh run base maximum s s') (fresh' : Txid → Nat) :
  ∃ result, s'.ensureRebuildScheduleGeneration r originCandidateHeight fresh' = .ok result
    ∧ result.1 = s'
  := by
  have hsingle : s'.runs.countP (fun run => run.runId = r) = 1 := by
    rw [h.result, ← h.single]
    apply countP_updateWhere
    intro other
    rfl
  obtain ⟨run', hread⟩ : ∃ run', s'.run? r = some run' := by
    apply Option.isSome_iff_exists.mp
    rw [run?, List.find?_isSome, ← List.countP_pos_iff, hsingle]
    apply Nat.one_pos
  have hfound := List.find?_some hread
  have hid : run'.runId = r := by simpa using hfound
  have hgeneration := h.generation_eq run' (List.mem_of_find?_eq_some hread) hid
  apply ensureRebuildScheduleGeneration_of_settled hread hsingle _ hgeneration
  · apply h.cursor.trans h.above
  · intro row' hrow' hwaits
    rw [h.result] at hrow'
    obtain ⟨row, hrow, rfl⟩ := List.mem_map.mp hrow'
    apply h.waiting_offset hrow (waits_reassigned.mp hwaits)
  · intro row' hrow' hwaits
    rw [h.result] at hrow'
    obtain ⟨row, hrow, rfl⟩ := List.mem_map.mp hrow'
    rw [reassigned_partIndex]
    apply h.parts row hrow (waits_reassigned.mp hwaits)

theorem Generated.rescheduled {run : MigrationRun} {base maximum : Nat}
    (h : Generated r originCandidateHeight fresh run base maximum s s')
    (hconsistent : s.Consistent r) :
  Rescheduled r originCandidateHeight s s'
  := by
  have hfound := List.find?_some h.read
  have hid : run.runId = r := by simpa using hfound
  refine ⟨⟨_, by rw [h.result], ?_⟩, ?_, h.again⟩
  · intro row hrow
    constructor
    · rw [reassigned]
      split
      · rename_i hneeds
        exact .inr ⟨hneeds.1, _, rfl⟩
      · exact .inl rfl
    · intro other hother hwaits
      obtain rfl : run = other := Option.some.inj (h.read.symm.trans hother)
      obtain ⟨offset, hoffset, hlow, -⟩ := h.waiting_offset hrow hwaits
      refine ⟨?_, offset, hoffset, hlow⟩
      intro hne
      rw [reassigned] at hne
      split at hne
      · rename_i hneeds
        apply hneeds.2
      · exact absurd rfl hne
  · intro run' hrun' hid'
    have hmaximum := (MigrationRun.recoveryGeneration_eq.mp
      (h.generation_eq run' hrun' hid')).2
    rw [hmaximum]
    refine ⟨⟨run, List.mem_of_find?_eq_some h.read, hid, ?_⟩, ?_⟩
    · apply h.persisted.trans h.above
    · apply h.offset_le (h.bounded hconsistent)

theorem rescheduled_of_not_waits (hconsistent : s.Consistent r)
    (hnone : ∀ row ∈ s.pendingTxs, ¬ Waits r row) :
  Rescheduled r originCandidateHeight s s
  := by
  refine ⟨⟨id, by simp, ?_⟩, ?_, ?_⟩
  · intro row hrow
    exact ⟨.inl rfl, fun _ _ hwaits => absurd hwaits (hnone row hrow)⟩
  · intro run hrun hid
    refine ⟨⟨run, hrun, hid, le_rfl⟩, ?_⟩
    intro row hrow hrowId
    rcases hconsistent run hrun hid with ⟨-, hunscheduled⟩ | ⟨origin, maximum, hsome, hbound⟩
    · rw [hunscheduled row hrow hrowId]
      apply Nat.zero_le _
    · rw [(MigrationRun.recoveryGeneration_eq.mp hsome).2]
      apply hbound row hrow hrowId
  · intro fresh
    rw [ensureRebuildScheduleGeneration, if_pos]
    · exact ⟨_, rfl, rfl⟩
    · rw [List.isEmpty_iff, List.eq_nil_iff_forall_not_mem]
      intro row hrow
      obtain ⟨hmem, hwaits⟩ := mem_waiting.mp hrow
      apply hnone row hmem hwaits

instance {r : RunId} {s : Store} {event : RebuildEvent} : Decidable (KeepsGeneration r s event) :=
  match event with
  | .ensureRebuildScheduleGeneration _ _ => isTrue trivial
  | .others t =>
    have : Decidable (t.Unscheduled r) := inferInstanceAs (Decidable (∀ row ∈ t.pendingTxs, _ → _))
    inferInstanceAs (Decidable (_ ∧ ∀ run' ∈ t.runs, _ → _))

/-- After every sequence of calls and of other statements, a call does not find its metadata
inconsistent; and if it succeeds, offsets that have not elapsed stay, new ones are not below
the elapsed height, the maximum covers all of them, and a second call changes nothing. -/
theorem rebuild_generation_kept (r : RunId) (events : List RebuildEvent)
    (hevents : Along (rebuildStep r) (KeepsGeneration r) {} events) (originCandidateHeight : Nat)
    (fresh : Txid → Nat) :
  (∀ e, (after (rebuildStep r) {} events).ensureRebuildScheduleGeneration r originCandidateHeight
        fresh = .error e →
      e ≠ "Migration recovery schedule metadata is incomplete"
      ∧ e ≠ "Migration recovery schedule maximum is below a persisted part offset")
  ∧ ∀ s' generation, (after (rebuildStep r) {} events).ensureRebuildScheduleGeneration r
        originCandidateHeight fresh = .ok (s', generation) →
      Rescheduled r originCandidateHeight (after (rebuildStep r) {} events) s'
  := by
  have hconsistent := consistent_after hevents consistent_empty
  constructor
  · intro e he
    have herror := hconsistent.failsWith e he
    constructor
    · rintro rfl
      exact absurd herror (by unfold CallError; decide)
    · rintro rfl
      exact absurd herror (by unfold CallError; decide)
  · intro s' generation h
    rcases ensureRebuildScheduleGeneration_spec h with
      ⟨hnone, rfl⟩ | ⟨run, base, maximum, hgenerated⟩
    · apply rescheduled_of_not_waits hconsistent hnone
    · apply hgenerated.rescheduled hconsistent

/-! ### A part that waits later -/

/-- A run of two parts. -/
def waitingRun (origin maximum : Option Nat) : MigrationRun where
  runId := 1
  accountUuid := 1
  network := .main
  phase := .broadcastScheduled
  createdAtMs := 0
  targetValues := [100, 200]
  schedule := [⟨some 0, 100, 10⟩, ⟨some 1, 200, 20⟩]
  timingPolicy := .standard
  preparationTimingPolicy := .immediate
  recoveryScheduleOriginHeight := origin
  recoveryScheduleMaxBlockOffset := maximum

/-- A part that waits for a new signature. -/
def waitingPart (partIndex valueZatoshi : Nat) (offset : Option Nat) : PendingTx where
  runId := 1
  txid := partIndex
  partIndex := some partIndex
  targetHeight := 50
  anchorBoundaryHeight := none
  expiryHeight := 69120
  valueZatoshi := valueZatoshi
  feeZatoshi := 10
  selectedNoteTxid := 5
  selectedNoteOutputIndex := partIndex
  selectedNoteValue := valueZatoshi + 10
  scheduleStartHeight := some 49
  scheduledHeight := some 60
  originalScheduledHeight := some 60
  rebuildBlockOffset := offset
  status := .needsResign

/-- The first part waits and is scheduled, and then the second part waits. -/
def waitingLater : List RebuildEvent := [
  .others { runs := [waitingRun none none], pendingTxs := [waitingPart 0 100 none] },
  .ensureRebuildScheduleGeneration 100 fun _ => 5,
  .others { runs := [waitingRun (some 100) (some 5)],
            pendingTxs := [waitingPart 0 100 (some 5), waitingPart 1 200 none] }]

/-- The second part gets an offset after the first one, which keeps its own. -/
theorem rebuild_generation_kept_later :
  ∃ s', Rescheduled 1 103 (after (rebuildStep 1) {} waitingLater) s'
    ∧ s'.pendingTxs.map (·.rebuildBlockOffset) = [some 5, some 9]
  := ⟨_, (rebuild_generation_kept 1 waitingLater (by decide) 103 fun _ => 4).2 _ _ rfl, rfl⟩

end Store

end Vizor
