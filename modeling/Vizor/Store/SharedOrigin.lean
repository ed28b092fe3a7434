import Vizor.Store.OnOpen
import Vizor.Store.Unpromoted

/-!
# The shared origin of a schedule

The parts of a run are first signed for heights after one origin, which the run keeps.  The
signed children and the heights that the pending transactions were first scheduled at stay
on that schedule through promotion, rebase, rescheduling and reorganizations, until a part
is signed again.  The record of the parts that were signed again, and of the transactions
that were moved, is kept next to the store.
-/

namespace Vizor

open Table Run

/-- The height of a part of a run after the origin of its schedule. -/
def MigrationRun.plannedHeight (run : MigrationRun) (partIndex valueZatoshi : Nat) : Option Nat :=
  run.signedScheduleOriginHeight.bind fun origin =>
    (scheduleBlockOffsetForPart run.schedule run.targetValues partIndex valueZatoshi).map
      (origin + ·)

theorem MigrationRun.plannedHeight_eq_some {run : MigrationRun} {i v h : Nat} :
  run.plannedHeight i v = some h ↔ ∃ origin offset, run.signedScheduleOriginHeight = some origin
    ∧ scheduleBlockOffsetForPart run.schedule run.targetValues i v = some offset
    ∧ h = origin + offset
  := by
  simp only [MigrationRun.plannedHeight, Option.bind_eq_some_iff, Option.map_eq_some_iff]
  constructor
  · rintro ⟨origin, horigin, offset, hoffset, rfl⟩
    exact ⟨origin, offset, horigin, hoffset, rfl⟩
  · rintro ⟨origin, offset, horigin, hoffset, rfl⟩
    exact ⟨origin, horigin, offset, hoffset, rfl⟩

/-- Runs without an approved schedule plan no heights. -/
theorem MigrationRun.schedule_ne_nil {run : MigrationRun} {i v h : Nat}
    (hplanned : run.plannedHeight i v = some h) :
  run.schedule ≠ []
  := by
  intro hnil
  obtain ⟨origin, offset, -, hoffset, -⟩ := MigrationRun.plannedHeight_eq_some.mp hplanned
  rw [hnil] at hoffset
  simp [scheduleBlockOffsetForPart, scheduleEntryForPart] at hoffset

/-- The heights of the parts are derived from the plan. -/
theorem MigrationRun.plannedHeight_congr {run run' : MigrationRun}
    (h : run.schedulePlan = run'.schedulePlan) {i v : Nat} :
  run.plannedHeight i v = run'.plannedHeight i v
  := by
  simp only [MigrationRun.schedulePlan, Prod.mk.injEq] at h
  unfold MigrationRun.plannedHeight
  rw [h.2.1, h.2.2.1, h.2.2.2]

namespace Store

/-! ### The record -/

/-- The parts that an operation signs again. -/
def resignedBy (s : Store) : Op → List (RunId × Nat)
  | .replaceResignedPendingParts r replacements signedChildren =>
    match s.replaceResignedPendingParts r replacements signedChildren with
    | .ok _ => replacements.map (fun replacement => (r, replacement.replacement.partIndex))
        ++ signedChildren.map fun child => (r, child.childIndex)
    | .error _ => []
  | _ => []

/-- The parts that were signed again along a run. -/
def resignedParts : Store → List Op → List (RunId × Nat)
  | _, [] => []
  | s, op :: ops => resignedParts (s.step op) ops ++ s.resignedBy op

/-- The pending transactions whose broadcast heights differ. -/
def movedBetween (s s' : Store) : List Txid :=
  (s'.pendingTxs.filter fun row' => s.pendingTxs.any fun row =>
    row.txid = row'.txid && row.scheduledHeight ≠ row'.scheduledHeight).map (·.txid)

/-- The pending transactions whose broadcast heights were changed along a run. -/
def movedTxids : Store → List Op → List Txid
  | _, [] => []
  | s, op :: ops => movedTxids (s.step op) ops ++ s.movedBetween (s.step op)

variable {s s' : Store} {r : RunId} {resigned resigned' : List (RunId × Nat)} {moved : List Txid}

/-- A transaction that was not moved had its height before. -/
theorem scheduledHeight_of_not_moved {row row' : PendingTx} (hrow : row ∈ s.pendingTxs)
    (hrow' : row' ∈ s'.pendingTxs) (htxid : row.txid = row'.txid)
    (hmoved : row'.txid ∉ s.movedBetween s') :
  row.scheduledHeight = row'.scheduledHeight
  := by
  by_contra hne
  apply hmoved
  apply List.mem_map_of_mem
  rw [List.mem_filter, List.any_eq_true]
  exact ⟨hrow', row, hrow, by simp [htxid, hne]⟩

/-! ### The invariant -/

/-- The messages of a run have one signed child each. -/
def MessagesUnique (s : Store) : Prop :=
  ∀ a ∈ s.signedChildren, ∀ b ∈ s.signedChildren, a.runId = b.runId →
    a.messageId = b.messageId → a = b

/-- The child is at the height that the schedule of the run gives its part. -/
def OnSchedule (run : MigrationRun) (child : SignedChild) : Prop :=
  ∃ height, run.plannedHeight child.childIndex child.valueZatoshi = some height
    ∧ child.scheduledHeight = some height

/-- The transaction was first scheduled at the height that the schedule of the run gives the
part `i`. -/
def FirstOnSchedule (run : MigrationRun) (i : Nat) (row : PendingTx) : Prop :=
  ∃ height, run.plannedHeight i row.valueZatoshi = some height
    ∧ row.originalScheduledHeight = some height

/-- The parts that were not signed again are on the schedules of their runs. -/
structure OnOrigin (resigned : List (RunId × Nat)) (moved : List Txid) (s : Store) : Prop where
  messages : s.MessagesUnique
  children : ∀ child ∈ s.signedChildren, (child.runId, child.childIndex) ∉ resigned →
    ∀ run ∈ s.runs, run.runId = child.runId → OnSchedule run child
  assigned : ∀ row ∈ s.pendingTxs, row.originalScheduledHeight.isSome ∧ row.partIndex.isSome
  rows : ∀ row ∈ s.pendingTxs, ∀ i, row.partIndex = some i → (row.runId, i) ∉ resigned →
    (row.txid ∉ moved → row.scheduledHeight = row.originalScheduledHeight)
      ∧ ∀ run ∈ s.runs, run.runId = row.runId → FirstOnSchedule run i row

/-- The runs of `s'` keep the heights that the runs of `s` plan; a new run has nothing
signed. -/
def KeepsPlans (s s' : Store) : Prop :=
  ∀ run' ∈ s'.runs,
    (∃ run ∈ s.runs, run.runId = run'.runId ∧ ∀ i v h, run.plannedHeight i v = some h →
      run'.plannedHeight i v = some h)
    ∨ (∀ child ∈ s.signedChildren, child.runId ≠ run'.runId)
      ∧ ∀ row ∈ s.pendingTxs, row.runId ≠ run'.runId

/-- What an operation has to keep: old children and transactions stay, and new ones are on
the schedule or signed again. -/
theorem OnOrigin.of_step (h : OnOrigin resigned moved s) (hplans : KeepsPlans s s')
    (hresigned : resigned ⊆ resigned') (hmessages : s'.MessagesUnique)
    (hchildren : ∀ child' ∈ s'.signedChildren, child' ∈ s.signedChildren
      ∨ (child'.runId, child'.childIndex) ∈ resigned'
      ∨ ∀ run' ∈ s'.runs, run'.runId = child'.runId → OnSchedule run' child')
    (hrows : ∀ row' ∈ s'.pendingTxs,
      (∃ row ∈ s.pendingTxs, row.signedPart = row'.signedPart)
      ∨ row'.originalScheduledHeight.isSome ∧ ∃ i, row'.partIndex = some i
        ∧ ((row'.runId, i) ∈ resigned'
          ∨ row'.scheduledHeight = row'.originalScheduledHeight
            ∧ ∀ run' ∈ s'.runs, run'.runId = row'.runId → FirstOnSchedule run' i row')) :
  OnOrigin resigned' (s.movedBetween s' ++ moved) s'
  := by
  constructor
  · apply hmessages
  · intro child' hchild' hkey run' hrun' hid
    rcases hchildren child' hchild' with hchild | hsigned | hnew
    · have hkey' := fun hmem => hkey (hresigned hmem)
      rcases hplans run' hrun' with ⟨run, hrun, hrunId, hkeep⟩ | hfresh
      · obtain ⟨height, hplanned, hheight⟩ := h.children child' hchild hkey' run hrun
          (hrunId.trans hid)
        exact ⟨height, hkeep _ _ _ hplanned, hheight⟩
      · exact absurd hid.symm (hfresh.1 child' hchild)
    · exact absurd hsigned hkey
    · apply hnew run' hrun' hid
  · intro row' hrow'
    rcases hrows row' hrow' with ⟨row, hrow, hsame⟩ | ⟨horiginal, i, hpart, -⟩
    · simp only [PendingTx.signedPart, Prod.mk.injEq] at hsame
      rw [← hsame.2.1, ← hsame.2.2.2.2.1]
      apply h.assigned row hrow
    · refine ⟨horiginal, ?_⟩
      rw [hpart]
      rfl
  · intro row' hrow' i hpart hkey
    rcases hrows row' hrow' with ⟨row, hrow, hsame⟩ | ⟨-, j, hpart', hnew⟩
    · simp only [PendingTx.signedPart, Prod.mk.injEq] at hsame
      obtain ⟨hrunId, hpartIndex, -, hvalue, horiginal, htxid⟩ := hsame
      rw [← hpartIndex] at hpart
      have hkey' : (row.runId, i) ∉ resigned := by
        rw [hrunId]
        exact fun hmem => hkey (hresigned hmem)
      obtain ⟨hscheduled, hfirst⟩ := h.rows row hrow i hpart hkey'
      constructor
      · intro hmoved
        rw [List.mem_append, not_or] at hmoved
        rw [← scheduledHeight_of_not_moved hrow hrow' htxid hmoved.1, ← horiginal]
        apply hscheduled
        rw [htxid]
        apply hmoved.2
      · intro run' hrun' hid
        rcases hplans run' hrun' with ⟨run, hrun, hrunSame, hkeep⟩ | hfresh
        · obtain ⟨height, hplanned, hheight⟩ := hfirst run hrun
            (hrunSame.trans (hid.trans hrunId.symm))
          rw [hvalue] at hplanned
          exact ⟨height, hkeep _ _ _ hplanned, horiginal ▸ hheight⟩
        · exact absurd (hrunId.trans hid.symm) (hfresh.2 row hrow)
    · rw [hpart'] at hpart
      cases hpart
      rcases hnew with hsigned | ⟨hscheduled, hfirst⟩
      · exact absurd hsigned hkey
      · exact ⟨fun _ => hscheduled, hfirst⟩

theorem MessagesUnique.of_subset (h : s.MessagesUnique)
    (hchildren : s'.signedChildren ⊆ s.signedChildren) :
  s'.MessagesUnique
  := fun a ha b hb => h a (hchildren ha) b (hchildren hb)

/-- Changes of signed children that keep their messages keep them unique. -/
theorem MessagesUnique.of_map (h : s.MessagesUnique) {g : SignedChild → SignedChild}
    (hchildren : s'.signedChildren = s.signedChildren.map g)
    (hg : ∀ child ∈ s.signedChildren, (g child).runId = child.runId
      ∧ (g child).messageId = child.messageId) :
  s'.MessagesUnique
  := by
  intro a' ha' b' hb' hrun hmessage
  rw [hchildren] at ha' hb'
  obtain ⟨a, ha, rfl⟩ := List.mem_map.mp ha'
  obtain ⟨b, hb, rfl⟩ := List.mem_map.mp hb'
  rw [(hg a ha).1, (hg b hb).1] at hrun
  rw [(hg a ha).2, (hg b hb).2] at hmessage
  rw [h a ha b hb hrun hmessage]

/-- Operations that do not sign keep the plans. -/
theorem SignedFrom.keepsPlans (h : SignedFrom s s') :
  KeepsPlans s s'
  := by
  intro run' hrun'
  left
  obtain ⟨run, hrun, hsame⟩ := h.exists_run hrun'
  have hid : run.runId = run'.runId := congrArg Prod.fst hsame
  refine ⟨run, hrun, hid, fun i v height hplanned => ?_⟩
  rw [← MigrationRun.plannedHeight_congr hsame]
  apply hplanned

/-- Operations that do not sign keep the parts on their schedules. -/
theorem OnOrigin.of_signedFrom (h : OnOrigin resigned moved s) (hfrom : SignedFrom s s') :
  OnOrigin resigned (s.movedBetween s' ++ moved) s'
  := by
  apply h.of_step hfrom.keepsPlans (List.Subset.refl _) (h.messages.of_subset hfrom.children)
  · intro child hchild
    exact .inl (hfrom.children hchild)
  · intro row hrow
    exact .inl (hfrom.exists_row hrow)

/-! ### Signing for the first time -/

theorem KeepsPlans.of_plans {t : Store} (h : KeepsPlans s t)
    (hplans : s'.runs.map (·.schedulePlan) ⊆ t.runs.map (·.schedulePlan)) :
  KeepsPlans s s'
  := by
  intro run'' hrun''
  obtain ⟨run', hrun', hsame⟩ := List.mem_map.mp (hplans (List.mem_map_of_mem hrun''))
  have hid : run'.runId = run''.runId := congrArg Prod.fst hsame
  rcases h run' hrun' with ⟨run, hrun, hrunId, hkeep⟩ | hfresh
  · left
    refine ⟨run, hrun, hrunId.trans hid, fun i v height hplanned => ?_⟩
    rw [← MigrationRun.plannedHeight_congr hsame]
    apply hkeep i v height hplanned
  · right
    rwa [hid] at hfresh

/-- A run that gets a schedule or an origin keeps the heights that it planned. -/
theorem plannedHeight_of_plan {run run' : MigrationRun} {schedule : List MigrationScheduleEntry}
    {origin' : Option Nat}
    (hplan : run'.schedulePlan = (run.runId, schedule, run.targetValues, origin'))
    (hschedule : run.schedule ≠ [] → schedule = run.schedule)
    (horigin : ∀ o, run.signedScheduleOriginHeight = some o → origin' = some o) {i v h : Nat}
    (hplanned : run.plannedHeight i v = some h) :
  run'.plannedHeight i v = some h
  := by
  obtain ⟨o, offset, ho, hoffset, rfl⟩ := MigrationRun.plannedHeight_eq_some.mp hplanned
  simp only [MigrationRun.schedulePlan, Prod.mk.injEq] at hplan
  apply MigrationRun.plannedHeight_eq_some.mpr
  refine ⟨o, offset, ?_, ?_, rfl⟩
  · rw [hplan.2.2.2, horigin o ho]
  · rw [hplan.2.1, hplan.2.2.1, hschedule (MigrationRun.schedule_ne_nil hplanned)]
    apply hoffset

/-- Writing signed children over those with the same messages keeps the messages unique. -/
theorem messagesUnique_foldl_upsert (children : List SignedMigrationPcztInsert)
    {table : List SignedChild}
    (h : ∀ a ∈ table, ∀ b ∈ table, a.runId = b.runId → a.messageId = b.messageId → a = b) :
  ∀ a ∈ children.foldl (fun table child =>
      upsert (fun row : SignedChild => (row.runId, row.messageId)) (signedChildRow r child) table)
      table,
    ∀ b ∈ children.foldl (fun table child =>
      upsert (fun row : SignedChild => (row.runId, row.messageId)) (signedChildRow r child) table)
      table, a.runId = b.runId → a.messageId = b.messageId → a = b
  := by
  induction children generalizing table with
  | nil => exact h
  | cons new children ih =>
    rw [List.foldl_cons]
    apply ih
    intro a ha b hb hrun hmessage
    rcases mem_upsert.mp ha with ⟨ha, hneA⟩ | rfl
    · rcases mem_upsert.mp hb with ⟨hb, -⟩ | rfl
      · apply h a ha b hb hrun hmessage
      · exact absurd (Prod.ext hrun hmessage) hneA
    · rcases mem_upsert.mp hb with ⟨-, hneB⟩ | rfl
      · exact absurd (Prod.ext hrun.symm hmessage.symm) hneB
      · rfl

theorem insertSignedChildPczts_messagesUnique {children : List SignedMigrationPcztInsert}
    {mode : SignedChildInsertMode} (h : s.MessagesUnique)
    (hinsert : s.insertSignedChildPczts r children mode = .ok s') :
  s'.MessagesUnique
  := by
  rw [insertSignedChildPczts] at hinsert
  split at hinsert
  · obtain rfl : s = s' := by simpa using hinsert
    apply h
  · obtain ⟨run, -, hinsert⟩ := bind_eq_ok.mp hinsert
    obtain ⟨origin, -, hinsert⟩ := bind_eq_ok.mp hinsert
    obtain rfl := pure_eq_ok.mp hinsert
    have hrows := messagesUnique_foldl_upsert (r := r) children h
    split <;> exact hrows

/-- An operation that adds first signed children to a run with an approved schedule puts
them on the schedule; `u` and `v` are the stores before and after they are added. -/
theorem OnOrigin.of_signing {u v : Store} (children : List SignedMigrationPcztInsert)
    (h : OnOrigin resigned moved s) (hunique : u.RunsUnique) (hplansU : KeepsPlans s u)
    (hchildrenU : u.signedChildren = s.signedChildren) (hrowsU : u.pendingTxs = s.pendingTxs)
    (happroved : children ≠ [] → ∀ run ∈ u.runs, run.runId = r → run.schedule ≠ [])
    (hinsert : u.insertSignedChildPczts r children .initial = .ok v)
    (hplans : s'.runs.map (·.schedulePlan) ⊆ v.runs.map (·.schedulePlan))
    (hchildren : s'.signedChildren = v.signedChildren) (hrows : s'.pendingTxs = v.pendingTxs) :
  OnOrigin resigned (s.movedBetween s' ++ moved) s'
  := by
  have hmessagesU : u.MessagesUnique := h.messages.of_subset (by rw [hchildrenU]; simp)
  obtain ⟨hpending, hnew⟩ := insertSignedChildPczts_children hinsert
  have hrow : ∀ row' ∈ s'.pendingTxs, ∃ row ∈ s.pendingTxs, row.signedPart = row'.signedPart := by
    intro row' hrow'
    rw [hrows, hpending, hrowsU] at hrow'
    exact ⟨row', hrow', rfl⟩
  have hmessages : s'.MessagesUnique := by
    apply (insertSignedChildPczts_messagesUnique hmessagesU hinsert).of_subset
    rw [hchildren]
    apply List.Subset.refl
  by_cases hnil : children = []
  · rw [insertSignedChildPczts, if_pos hnil] at hinsert
    cases hinsert
    apply h.of_step (hplansU.of_plans hplans) (List.Subset.refl _) hmessages
    · intro child hchild
      rw [hchildren, hchildrenU] at hchild
      exact .inl hchild
    · intro row' hrow'
      exact .inl (hrow row' hrow')
  · obtain ⟨run, origin', hrun, hid, horigin, hrunsV, hplaced⟩ :=
      insertSignedChildPczts_initial hunique hnil hinsert
    have hschedule := happroved hnil run hrun hid
    have hplansV : KeepsPlans s v := by
      intro run' hrun'
      rcases hrunsV run' hrun' with hplan | ⟨-, hold⟩
      · have hidSame : run'.runId = r := congrArg Prod.fst hplan
        rcases hplansU run hrun with ⟨first, hfirst, hfirstId, hkeep⟩ | hfresh
        · left
          refine ⟨first, hfirst, hfirstId.trans (hid.trans hidSame.symm), fun i v h hplanned => ?_⟩
          rw [← hid] at hplan
          apply plannedHeight_of_plan hplan (fun _ => rfl) horigin (hkeep i v h hplanned)
        · right
          rwa [hid, ← hidSame] at hfresh
      · apply hplansU run' hold
    apply h.of_step (hplansV.of_plans hplans) (List.Subset.refl _) hmessages
    · intro child hchild
      rw [hchildren] at hchild
      rcases hnew child hchild with hchild | ⟨new, hmem, rfl⟩
      · rw [hchildrenU] at hchild
        exact .inl hchild
      · right
        right
        intro run'' hrun'' hidNew
        obtain ⟨run', hrun', hsame⟩ := List.mem_map.mp (hplans (List.mem_map_of_mem hrun''))
        have hidSame : run'.runId = r := (congrArg Prod.fst hsame).trans hidNew
        rcases hrunsV run' hrun' with hplan | ⟨hne, -⟩
        · obtain ⟨o, offset, ho, hoffset, hheight⟩ := hplaced hschedule new hmem
          rw [hsame] at hplan
          simp only [MigrationRun.schedulePlan, Prod.mk.injEq] at hplan
          refine ⟨o + offset, ?_, ?_⟩
          · apply MigrationRun.plannedHeight_eq_some.mpr
            refine ⟨o, offset, ?_, ?_, rfl⟩
            · rw [hplan.2.2.2, ho]
            · rw [hplan.2.1, hplan.2.2.1]
              apply hoffset
          · rw [← hheight]
            rfl
        · exact absurd hidSame hne
    · intro row' hrow'
      exact .inl (hrow row' hrow')

/-! ### Promotion -/

/-- Where no transaction changed, none was moved. -/
theorem movedBetween_eq_nil (hpending : s'.pendingTxs = s.pendingTxs) (htxids : s.TxidsUnique) :
  s.movedBetween s' = []
  := by
  rw [movedBetween, hpending, List.map_eq_nil_iff, List.filter_eq_nil_iff]
  intro row hrow hmoved
  obtain ⟨other, hother, hne⟩ := List.any_eq_true.mp hmoved
  simp only [Bool.and_eq_true, decide_eq_true_eq] at hne
  rw [htxids.eq hother hrow hne.1] at hne
  apply hne.2 rfl

/-- A rebase moves the signed children of the run and its origin together. -/
theorem OnOrigin.of_rebased (h : OnOrigin resigned moved s) (hrebased : Rebased r s s')
    (hpending : s'.pendingTxs = s.pendingTxs) :
  OnOrigin resigned moved s'
  := by
  obtain ⟨hunstarted, run, newOrigin, hrun, hid, hruns, g, hg, hmoved⟩ := hrebased
  constructor
  · apply h.messages.of_map hg
    intro child hchild
    rcases hmoved child hchild with ⟨-, hsame⟩ | ⟨-, offset, -, hsame⟩
    · rw [hsame]
      exact ⟨rfl, rfl⟩
    · rw [hsame]
      exact ⟨rfl, rfl⟩
  · intro child' hchild' hkey run' hrun' hrunId
    rw [hg] at hchild'
    obtain ⟨child, hchild, rfl⟩ := List.mem_map.mp hchild'
    rcases hmoved child hchild with ⟨hother, hsame⟩ | ⟨hmine, offset, hoffset, hsame⟩
    · rw [hsame] at hkey hrunId ⊢
      rcases hruns run' hrun' with hplan | ⟨-, hold⟩
      · exact absurd (hrunId.symm.trans (congrArg Prod.fst hplan)) hother
      · apply h.children child hchild hkey run' hold hrunId
    · rw [hsame] at hrunId ⊢
      rcases hruns run' hrun' with hplan | ⟨hne, -⟩
      · simp only [MigrationRun.schedulePlan, Prod.mk.injEq] at hplan
        refine ⟨newOrigin + offset, ?_, rfl⟩
        apply MigrationRun.plannedHeight_eq_some.mpr
        refine ⟨newOrigin, offset, hplan.2.2.2, ?_, rfl⟩
        rw [hplan.2.1, hplan.2.2.1]
        apply hoffset
      · exact absurd (hrunId.trans hmine) hne
  · rw [hpending]
    apply h.assigned
  · intro row hrow i hpart hkey
    rw [hpending] at hrow
    obtain ⟨hscheduled, hfirst⟩ := h.rows row hrow i hpart hkey
    refine ⟨hscheduled, fun run' hrun' hrunId => ?_⟩
    rcases hruns run' hrun' with hplan | ⟨-, hold⟩
    · have hmine : row ∈ s.pendingOf r := by
        apply List.mem_filter.mpr
        refine ⟨hrow, ?_⟩
        rw [decide_eq_true_eq, ← hrunId]
        apply congrArg Prod.fst hplan
      rw [hunstarted] at hmine
      cases hmine
    · apply hfirst run' hold hrunId

/-- New transactions are placed on the schedule of their run. -/
theorem OnOrigin.of_insertPendingTxs {t : Store} {pendingTxs : List PendingMigrationTxInsert}
    {generated : List MigrationScheduleEntry} (h : OnOrigin resigned moved s)
    (hunique : s.RunsUnique) (hinsert : s.insertPendingTxsWithTx r pendingTxs generated = .ok t)
    (hplans : s'.runs.map (·.schedulePlan) ⊆ t.runs.map (·.schedulePlan))
    (hchildren : s'.signedChildren = t.signedChildren) (hrows : s'.pendingTxs = t.pendingTxs) :
  OnOrigin resigned (s.movedBetween s' ++ moved) s'
  := by
  obtain ⟨run, schedule, origin', hrun, hschedule, horigin, hchildrenT, hrunsT, hrowsT⟩ :=
    insertPendingTxsWithTx_spec hunique hinsert
  obtain ⟨hmem, hid⟩ := hunique.run?_eq_some.mp hrun
  have hplansT : KeepsPlans s t := by
    intro run' hrun'
    left
    rcases hrunsT run' hrun' with hplan | ⟨-, old, hold, hsame⟩
    · refine ⟨run, hmem, hid.trans (congrArg Prod.fst hplan).symm, fun i v h hplanned => ?_⟩
      rw [← hid] at hplan
      apply plannedHeight_of_plan hplan hschedule horigin hplanned
    · refine ⟨old, hold, congrArg Prod.fst hsame, fun i v h hplanned => ?_⟩
      rw [← MigrationRun.plannedHeight_congr hsame]
      apply hplanned
  apply h.of_step (hplansT.of_plans hplans) (List.Subset.refl _)
  · apply h.messages.of_subset
    rw [hchildren, hchildrenT]
    apply List.Subset.refl
  · intro child hchild
    rw [hchildren, hchildrenT] at hchild
    exact .inl hchild
  · intro row hrow
    rw [hrows] at hrow
    rcases hrowsT row hrow with hrow | ⟨pending, -, origin, hplaces, hshared⟩
    · exact .inl ⟨row, hrow, rfl⟩
    · right
      obtain ⟨offset, hoffset, hheight⟩ := hplaces.height
      refine ⟨by rw [hheight]; rfl, pending.partIndex, hplaces.partIndex, ?_⟩
      by_cases hkey : (row.runId, pending.partIndex) ∈ resigned
      · exact .inl hkey
      · right
        refine ⟨hplaces.scheduled, fun run'' hrun'' hrunId => ?_⟩
        obtain ⟨run', hrun', hsame⟩ := List.mem_map.mp (hplans (List.mem_map_of_mem hrun''))
        have hmine : run'.runId = r :=
          (congrArg Prod.fst hsame).trans (hrunId.trans (hplaces.runId.trans hid))
        rcases hrunsT run' hrun' with hplan | ⟨hne, -⟩
        · rw [hsame] at hplan
          rcases hshared with horigin' | ⟨child, hchild, hindex, hchildHeight, hvalue⟩
          · simp only [MigrationRun.schedulePlan, Prod.mk.injEq] at hplan
            refine ⟨origin + offset, ?_, hheight⟩
            apply MigrationRun.plannedHeight_eq_some.mpr
            refine ⟨origin, offset, ?_, ?_, rfl⟩
            · rw [hplan.2.2.2, horigin']
            · rw [hplan.2.1, hplan.2.2.1, hplaces.value]
              apply hoffset
          · obtain ⟨hchildMem, hchildId⟩ := List.mem_filter.mp hchild
            rw [decide_eq_true_eq] at hchildId
            have hchildKey : (child.runId, child.childIndex) ∉ resigned := by
              rw [hchildId, hindex]
              apply hkey
            obtain ⟨height, hplanned, hscheduled⟩ := h.children child hchildMem hchildKey run hmem
              (hchildId.trans hplaces.runId).symm
            refine ⟨height, ?_, ?_⟩
            · rw [hplaces.value, ← hindex, ← hvalue]
              rw [← hid] at hplan
              apply plannedHeight_of_plan hplan hschedule horigin hplanned
            · rw [← hchildHeight, hscheduled]
        · exact absurd hmine hne

/-! ### Opening the store -/

/-- The progress of the backfills of `s`: children that are on the schedule of their run are
left, and the runs keep their plans. -/
structure Refilled (s t : Store) : Prop where
  runs : ∀ run' ∈ t.runs, ∃ run ∈ s.runs, run.runId = run'.runId
    ∧ ∀ i v h, run.plannedHeight i v = some h → run'.plannedHeight i v = some h
  messages : t.MessagesUnique
  children : ∀ child' ∈ t.signedChildren, ∃ child ∈ s.signedChildren,
    child.runId = child'.runId ∧ child.messageId = child'.messageId
    ∧ child.childIndex = child'.childIndex
    ∧ ((∃ run ∈ s.runs, run.runId = child.runId ∧ OnSchedule run child) → child' = child)
  rows : t.pendingTxs.map (·.signedPart) ⊆ s.pendingTxs.map (·.signedPart)

theorem Refilled.refl (h : s.MessagesUnique) : Refilled s s
  := ⟨fun run hrun => ⟨run, hrun, rfl, fun _ _ _ => id⟩, h,
    fun child hchild => ⟨child, hchild, rfl, rfl, rfl, fun _ => rfl⟩, List.Subset.refl _⟩

/-- Runs may get an origin that they have not, and other columns. -/
theorem Refilled.updateRuns {t : Store} (h : Refilled s t) {p : MigrationRun → Bool}
    {f : MigrationRun → MigrationRun} (hid : ∀ run, (f run).runId = run.runId)
    (hplans : ∀ run i v h, run.plannedHeight i v = some h → (f run).plannedHeight i v = some h) :
  Refilled s (t.updateRuns p f)
  := by
  refine ⟨?_, h.messages, h.children, h.rows⟩
  intro run' hrun'
  obtain ⟨old, hold, rfl⟩ := mem_updateWhere.mp hrun'
  obtain ⟨run, hrun, hrunId, hkeep⟩ := h.runs old hold
  refine ⟨run, hrun, ?_, fun i v h hplanned => ?_⟩
  · split
    · rw [hrunId, hid]
    · apply hrunId
  · split
    · apply hplans
      apply hkeep i v h hplanned
    · apply hkeep i v h hplanned

theorem Refilled.recoverScheduleOrigin {t : Store} (h : Refilled s t) {origin : Nat} :
  Refilled s (t.recoverScheduleOrigin r origin)
  := by
  apply h.updateRuns
  · intro run
    rfl
  · intro run i v height hplanned
    obtain ⟨o, offset, ho, hoffset, rfl⟩ := MigrationRun.plannedHeight_eq_some.mp hplanned
    apply MigrationRun.plannedHeight_eq_some.mpr
    exact ⟨o, offset, by simp [ho], hoffset, rfl⟩

theorem Refilled.requestSignatures {t : Store} (h : Refilled s t) {message : String} :
  Refilled s (t.requestSignatures r message)
  := by
  apply h.updateRuns
  · intro run
    rfl
  · intro run i v height hplanned
    apply hplanned

theorem Refilled.updatePendingTxs {t : Store} (h : Refilled s t) {p : PendingTx → Bool}
    {f : PendingTx → PendingTx} (hf : ∀ row, (f row).signedPart = row.signedPart) :
  Refilled s (t.updatePendingTxs p f)
  := by
  refine ⟨h.runs, h.messages, h.children, ?_⟩
  have hsame : (t.updatePendingTxs p f).pendingTxs.map (·.signedPart)
      = t.pendingTxs.map (·.signedPart) := map_updateWhere fun row _ _ => hf row
  rw [hsame]
  apply h.rows

theorem Refilled.deleteSignedChildren {t : Store} (h : Refilled s t) {p : SignedChild → Bool} :
  Refilled s (t.deleteSignedChildren p)
  := by
  refine ⟨h.runs, h.messages.of_subset (List.filter_subset_self _), ?_, h.rows⟩
  intro child hchild
  apply h.children child (List.filter_subset_self _ hchild)

/-- The backfill of a signed child leaves the children that are on the schedule. -/
theorem Refilled.backfillSignedChild {t : Store} {run : MigrationRun} {child : SignedChild}
    {acc acc' : SignedBackfill} (hunique : s.RunsUnique) (hmessages : s.MessagesUnique)
    (hrun : run ∈ s.runs) (ht : Refilled s t) (hchild : child ∈ t.legacyChildren run)
    (h : Refilled s acc.store)
    (horigin : ∀ o, run.signedScheduleOriginHeight = some o → acc.recoveredOrigin = some o)
    (hstep : backfillSignedChild run child acc = .ok acc') :
  Refilled s acc'.store
    ∧ ∀ o, run.signedScheduleOriginHeight = some o → acc'.recoveredOrigin = some o
  := by
  obtain ⟨recovered, hrecovered, hstep⟩ := bind_eq_ok.mp hstep
  split at hstep
  · obtain rfl := pure_eq_ok.mp hstep
    exact ⟨h, horigin⟩
  · rename_i height
    obtain rfl := pure_eq_ok.mp hstep
    rw [recoveredChildHeight] at hrecovered
    split at hrecovered
    · cases hrecovered
    · rename_i scheduledHeight hscheduled
      split at hrecovered
      · cases hrecovered
      · rename_i hsameOrigin
        simp only [bind_eq_ok, pure_eq_ok] at hrecovered
        obtain ⟨_, -, hrecovered⟩ := hrecovered
        split at hrecovered
        · cases hrecovered
        · cases hrecovered
          have hchildOrigin : ∀ o, run.signedScheduleOriginHeight = some o →
              child.targetHeight - 1 = o := by
            intro o ho
            rw [horigin o ho] at hsameOrigin
            simpa using (by simpa using hsameOrigin : o = child.targetHeight - 1).symm
          have hchildMem : child ∈ t.signedChildren ∧ child.runId = run.runId := by
            rw [legacyChildren, List.mem_filter, List.mem_insertionSort, List.mem_filter,
              isLegacyChild] at hchild
            simp only [Bool.and_eq_true, decide_eq_true_eq] at hchild
            exact ⟨hchild.1.1, hchild.1.2.1⟩
          constructor
          · refine ⟨h.runs, ?_, ?_, h.rows⟩
            · apply h.messages.of_map (g := fun other =>
                if (isLegacyChild run.runId other && other.messageId = child.messageId) = true then
                  { other with scheduledHeight := some height } else other) rfl
              intro other _
              split <;> exact ⟨rfl, rfl⟩
            · intro other' hother'
              obtain ⟨other, hother, rfl⟩ := mem_updateWhere.mp hother'
              obtain ⟨first, hfirst, hfirstRun, hfirstMessage, hfirstIndex, hkeep⟩ :=
                h.children other hother
              split
              · rename_i hselected
                refine ⟨first, hfirst, hfirstRun, hfirstMessage, hfirstIndex, ?_⟩
                rintro ⟨owner, howner, hownerId, hscheduleFirst⟩
                obtain rfl := hkeep ⟨owner, howner, hownerId, hscheduleFirst⟩
                simp only [isLegacyChild, Bool.and_eq_true, decide_eq_true_eq] at hselected
                obtain ⟨⟨hselectedRun, -⟩, hselectedMessage⟩ := hselected
                obtain rfl := hunique.eq howner hrun (hownerId.trans hselectedRun)
                obtain ⟨origin, horiginMem, horiginRun, horiginMessage, -, horiginKeep⟩ :=
                  ht.children child hchildMem.1
                obtain rfl := hmessages other hfirst origin horiginMem
                  (hownerId.symm.trans (hchildMem.2.symm.trans horiginRun.symm))
                  (hselectedMessage.trans horiginMessage.symm)
                obtain rfl := horiginKeep ⟨owner, howner, hownerId, hscheduleFirst⟩
                obtain ⟨planned, hplanned, hplannedHeight⟩ := hscheduleFirst
                obtain ⟨o, offset, ho, hoffset, rfl⟩ :=
                  MigrationRun.plannedHeight_eq_some.mp hplanned
                rw [hoffset, Option.bind_some, checkedAdd32, hchildOrigin o ho] at hscheduled
                split at hscheduled
                · cases hscheduled
                  rw [← hplannedHeight]
                · cases hscheduled
              · exact ⟨first, hfirst, hfirstRun, hfirstMessage, hfirstIndex, hkeep⟩
          · intro o ho
            rw [hchildOrigin o ho]

theorem Refilled.backfillSignedRun {t : Store} {run : MigrationRun} (hunique : s.RunsUnique)
    (hmessages : s.MessagesUnique) (hrun : run ∈ s.runs) (h : Refilled s t) :
  Refilled s (t.backfillSignedRun run).1
  := by
  unfold Store.backfillSignedRun
  split
  · apply h
  · have hchild : ∀ f ∈ (t.legacyChildren run).map (Store.backfillSignedChild run),
        ∀ acc acc' : SignedBackfill, (Refilled s acc.store
          ∧ ∀ o, run.signedScheduleOriginHeight = some o → acc.recoveredOrigin = some o) →
        f acc = .ok acc' → Refilled s acc'.store
          ∧ ∀ o, run.signedScheduleOriginHeight = some o → acc'.recoveredOrigin = some o := by
      intro f hf acc acc' hacc hstep
      obtain ⟨child, hchild, rfl⟩ := List.mem_map.mp hf
      apply Refilled.backfillSignedChild hunique hmessages hrun h hchild hacc.1 hacc.2 hstep
    have hloop := commitAll_invariant hchild
      (s := { store := t, recoveredOrigin := run.signedScheduleOriginHeight }) ⟨h, fun _ => id⟩
    split
    · rename_i acc hacc
      rw [hacc] at hloop
      apply finishSignedBackfill_invariant _ _ _ hloop.1
      · intro u origin hu
        apply hu.recoverScheduleOrigin
      · intro u child hu
        unfold discardInvalidChild
        split
        · apply hu
        · apply hu.deleteSignedChildren
      · intro u message hu
        apply hu.requestSignatures
    · rename_i acc e hacc
      rw [hacc] at hloop
      apply hloop.1

/-- The backfills leave the parts that are on their schedules. -/
theorem ensureRows_refilled (hunique : s.RunsUnique) (h : OnOrigin resigned moved s) :
  Refilled s s.ensureRows.1
  := by
  have hnone : s.pendingTxs.filter (·.partIndex.isNone) = [] := by
    rw [List.filter_eq_nil_iff]
    intro row hrow
    rw [Bool.not_eq_true, Option.isNone_eq_false_iff]
    apply (h.assigned row hrow).2
  have hparts : s.backfillPendingPartIndices = s := by
    rw [backfillPendingPartIndices, hnone]
    rfl
  have hsigned : Refilled s s.backfillLegacySignedScheduleMetadata.1 := by
    have hloop : ∀ (runs : List MigrationRun) (p : Store × Option String), runs ⊆ s.runs →
        Refilled s p.1 →
        Refilled s (runs.foldl (fun p run => andThen p fun s => s.backfillSignedRun run) p).1 := by
      intro runs
      induction runs with
      | nil => exact fun _ _ h => h
      | cons run runs ih =>
        intro p hruns hp
        rw [List.foldl_cons]
        obtain ⟨hrun, hrest⟩ := List.cons_subset.mp hruns
        apply ih _ hrest
        obtain ⟨t, e⟩ := p
        cases e with
        | some e => exact hp
        | none => exact hp.backfillSignedRun hunique h.messages hrun
    apply hloop s.runs (s, none) (List.Subset.refl _) (Refilled.refl h.messages)
  have hpending : ∀ t, Refilled s t → Refilled s t.backfillLegacyPendingScheduleMetadata.1 := by
    intro t ht
    apply commitAll_invariant _ ht
    intro f hf u u' hu hstep
    obtain ⟨row, -, rfl⟩ := List.mem_map.mp hf
    rw [backfillPendingRow] at hstep
    split at hstep
    · cases hstep
      apply hu
    · split at hstep
      · cases hstep
        apply hu
      · obtain ⟨recovered, -, hstep⟩ := bind_eq_ok.mp hstep
        split at hstep
        · obtain rfl := pure_eq_ok.mp hstep
          apply Refilled.recoverScheduleOrigin
          apply hu.updatePendingTxs
          intro row
          rfl
        · obtain rfl := pure_eq_ok.mp hstep
          apply Refilled.requestSignatures
          apply hu.updatePendingTxs
          intro row
          rfl
  have horiginal : ∀ t, Refilled s t → t.backfillOriginalPendingScheduleHeights = t := by
    intro t ht
    have hrows : t.pendingTxs.map (·.signedPart) ⊆ s.pendingTxs.map (·.signedPart) := ht.rows
    have hsame : updateWhere (·.originalScheduledHeight.isNone)
        (fun row : PendingTx =>
          { row with originalScheduledHeight := t.originalPendingScheduleHeight row })
        t.pendingTxs = t.pendingTxs := by
      apply updateWhere_eq_self
      intro row' hrow' hmissing
      obtain ⟨row, hrow, hpart⟩ := List.mem_map.mp (hrows (List.mem_map_of_mem hrow'))
      simp only [PendingTx.signedPart, Prod.mk.injEq] at hpart
      have hknown := (h.assigned row hrow).1
      rw [hpart.2.2.2.2.1, Option.isSome_iff_ne_none] at hknown
      exact absurd (Option.isNone_iff_eq_none.mp hmissing) hknown
    rw [backfillOriginalPendingScheduleHeights, Store.updatePendingTxs, hsame]
  unfold ensureRows
  rw [hparts]
  dsimp only
  have hboth : Refilled s (andThen s.backfillLegacySignedScheduleMetadata
      backfillLegacyPendingScheduleMetadata).1 := by
    cases hfirst : s.backfillLegacySignedScheduleMetadata with
    | mk t e =>
      rw [hfirst] at hsigned
      cases e with
      | some e => exact hsigned
      | none => exact hpending t hsigned
  generalize andThen s.backfillLegacySignedScheduleMetadata
    backfillLegacyPendingScheduleMetadata = p at hboth
  obtain ⟨t, e⟩ := p
  cases e with
  | some e => exact hboth
  | none =>
    have hstart : Refilled s t.backfillScheduleStartHeights := by
      apply hboth.updatePendingTxs
      intro row
      rfl
    unfold andThen
    dsimp only
    rw [horiginal t hboth]
    split
    · apply hstart
    · apply hboth

/-- Opening the store keeps the parts on their schedules. -/
theorem OnOrigin.of_refilled (h : OnOrigin resigned moved s) (hrefilled : Refilled s s') :
  OnOrigin resigned (s.movedBetween s' ++ moved) s'
  := by
  have hplans : KeepsPlans s s' := fun run' hrun' => .inl (hrefilled.runs run' hrun')
  apply h.of_step hplans (List.Subset.refl _) hrefilled.messages
  · intro child' hchild'
    right
    obtain ⟨child, hchild, hrunId, -, hindex, hkeep⟩ := hrefilled.children child' hchild'
    by_cases hkey : (child'.runId, child'.childIndex) ∈ resigned
    · exact .inl hkey
    · right
      intro run' hrun' hid
      obtain ⟨run, hrun, hsameId, hplanned⟩ := hrefilled.runs run' hrun'
      have hrunChild := hsameId.trans (hid.trans hrunId.symm)
      have hon : OnSchedule run child := by
        apply h.children child hchild _ run hrun hrunChild
        rw [hrunId, hindex]
        apply hkey
      rw [hkeep ⟨run, hrun, hrunChild, hon⟩]
      obtain ⟨height, hheight, hscheduled⟩ := hon
      exact ⟨height, hplanned _ _ _ hheight, hscheduled⟩
  · intro row' hrow'
    left
    apply List.mem_map.mp (hrefilled.rows (List.mem_map_of_mem hrow'))

/-! ### The operations -/

/-- Nothing is signed for the run `r`. -/
def Unsigned (s : Store) (r : RunId) : Prop :=
  (∀ child ∈ s.signedChildren, child.runId ≠ r) ∧ ∀ row ∈ s.pendingTxs, row.runId ≠ r

instance : Decidable (s.Unsigned r) :=
  inferInstanceAs (Decidable (_ ∧ _))

/-- What the callers of the operations promise: a run identifier is drawn for a run without
signed parts, parts are signed for runs with an approved schedule, and the policy of a run is
adopted before its parts are signed. -/
def KeepsSchedules (s : Store) : Op → Prop
  | .createRunWithStagedDenominationsAndSignedChildren new _ signedChildren _ approvedSchedule =>
    s.Unsigned new.runId ∧ (signedChildren ≠ [] → approvedSchedule.getD [] ≠ [])
  | .createOrResumePrivateMigrationDraft new _ => s.Unsigned new.runId
  | .finalizePrivateMigrationDraft r _ _ _ _ signedChildren _ =>
    signedChildren ≠ [] → ∀ run ∈ s.runs, run.runId = r → run.schedule ≠ []
  | .persistSignedChildPcztsForRun r _ => ∀ run ∈ s.runs, run.runId = r → run.schedule ≠ []
  | .adoptTimingPolicyForActiveRun account network desiredPolicy generated =>
    s.adoptTimingPolicyForActiveRun account network desiredPolicy generated = s
      ∨ ∀ run, s.activeRun account network = some run → s.childrenOf run.runId = []
  | _ => True

theorem OnOrigin.mono (h : OnOrigin resigned moved s) (hresigned : resigned ⊆ resigned') :
  OnOrigin resigned' moved s
  := by
  refine ⟨h.messages, ?_, h.assigned, ?_⟩
  · intro child hchild hkey
    apply h.children child hchild fun hmem => hkey (hresigned hmem)
  · intro row hrow i hpart hkey
    apply h.rows row hrow i hpart fun hmem => hkey (hresigned hmem)

/-- A new run plans heights of its own. -/
theorem keepsPlans_of_newRun {run : MigrationRun} (hruns : s'.runs = s.runs ++ [run])
    (hunsigned : s.Unsigned run.runId) :
  KeepsPlans s s'
  := by
  intro run' hrun'
  rw [hruns, List.mem_append, List.mem_singleton] at hrun'
  rcases hrun' with hrun' | rfl
  · exact .inl ⟨run', hrun', rfl, fun _ _ _ => id⟩
  · exact .inr hunsigned

theorem runsUnique_of_newRun {run : MigrationRun} (hunique : s.RunsUnique)
    (hunused : ∀ other ∈ s.runs, other.runId ≠ run.runId) (hruns : s'.runs = s.runs ++ [run]) :
  s'.RunsUnique
  := by
  unfold RunsUnique
  rw [hruns, List.map_append, List.map_singleton, List.nodup_append]
  refine ⟨hunique, List.nodup_singleton _, ?_⟩
  intro id hid other hother
  obtain ⟨old, hold, rfl⟩ := List.mem_map.mp hid
  rw [List.mem_singleton.mp hother]
  apply hunused old hold

theorem OnOrigin.createRun {new : NewRun} {preparedNotes : List PreparedOrchardNoteRef}
    {signedChildren : List SignedMigrationPcztInsert}
    {denominationStages : List DenominationStageInsert}
    {approvedSchedule : Option (List MigrationScheduleEntry)} (h : OnOrigin resigned moved s)
    (hunique : s.RunsUnique) (hunsigned : s.Unsigned new.runId)
    (happroved : signedChildren ≠ [] → approvedSchedule.getD [] ≠ [])
    (hcreate : s.createRunWithStagedDenominationsAndSignedChildren new preparedNotes signedChildren
      denominationStages approvedSchedule = .ok s') :
  OnOrigin resigned (s.movedBetween s' ++ moved) s'
  := by
  obtain ⟨-, hunused, u, hu, hcreate⟩ := createRun_eq_ok hcreate
  obtain ⟨hruns, hpending, hchildren⟩ := insertDenominationStages_keeps hu
  apply h.of_signing (u := u) (v := s') (r := new.runId) signedChildren
  · apply runsUnique_of_newRun hunique hunused hruns
  · apply keepsPlans_of_newRun hruns hunsigned
  · apply hchildren
  · apply hpending
  · intro hsigned run hrun hid
    rw [hruns] at hrun
    rcases List.mem_append.mp hrun with hrun | hrun
    · exact absurd hid (hunused run hrun)
    · rw [List.mem_singleton.mp hrun]
      apply happroved hsigned
  · apply hcreate
  · apply List.Subset.refl
  · rfl
  · rfl

theorem OnOrigin.createDraft {new : NewRun} {approvedSchedule : List MigrationScheduleEntry}
    {drawn : RunId} (h : OnOrigin resigned moved s) (hunsigned : s.Unsigned new.runId)
    (hdraft : s.createOrResumePrivateMigrationDraft new approvedSchedule = .ok (s', drawn)) :
  OnOrigin resigned (s.movedBetween s' ++ moved) s'
  := by
  rw [createOrResumePrivateMigrationDraft] at hdraft
  split at hdraft
  · split at hdraft
    · simp only [bind_eq_ok, pure_eq_ok, Prod.mk.injEq] at hdraft
      obtain ⟨_, -, rfl, -⟩ := hdraft
      apply h.of_signedFrom SignedFrom.refl
    · cases hdraft
  · obtain ⟨_, -, hdraft⟩ := bind_eq_ok.mp hdraft
    obtain ⟨_, -, hdraft⟩ := bind_eq_ok.mp hdraft
    obtain ⟨t, ht, hdraft⟩ := bind_eq_ok.mp hdraft
    rw [pure_eq_ok, Prod.mk.injEq] at hdraft
    obtain ⟨rfl, -⟩ := hdraft
    obtain ⟨-, hinsert⟩ := insertRun_spec ht
    have hruns : t.runs = s.runs ++ [new.row .awaitingPreparation approvedSchedule] := by
      rw [hinsert]
    have hchildren : t.signedChildren = s.signedChildren := by rw [hinsert]
    have hrows : t.pendingTxs = s.pendingTxs := by rw [hinsert]
    apply h.of_step (keepsPlans_of_newRun hruns hunsigned) (List.Subset.refl _)
    · apply h.messages.of_subset
      rw [hchildren]
      apply List.Subset.refl
    · intro child hchild
      rw [hchildren] at hchild
      exact .inl hchild
    · intro row hrow
      rw [hrows] at hrow
      exact .inl ⟨row, hrow, rfl⟩

theorem OnOrigin.finalizeDraft {account : AccountUuid} {network : WalletNetwork}
    {targetValues : List Nat} {preparedNotes : List PreparedOrchardNoteRef}
    {signedChildren : List SignedMigrationPcztInsert}
    {denominationStages : List DenominationStageInsert} (h : OnOrigin resigned moved s)
    (hunique : s.RunsUnique)
    (happroved : signedChildren ≠ [] → ∀ run ∈ s.runs, run.runId = r → run.schedule ≠ [])
    (hfinalize : s.finalizePrivateMigrationDraft r account network targetValues preparedNotes
      signedChildren denominationStages = .ok s') :
  OnOrigin resigned (s.movedBetween s' ++ moved) s'
  := by
  obtain ⟨_, -, hfinalize⟩ := bind_eq_ok.mp hfinalize
  obtain ⟨_, -, hfinalize⟩ := bind_eq_ok.mp hfinalize
  obtain ⟨_, -, hfinalize⟩ := bind_eq_ok.mp hfinalize
  obtain ⟨_, -, hfinalize⟩ := bind_eq_ok.mp hfinalize
  obtain ⟨u, hu, hfinalize⟩ := bind_eq_ok.mp hfinalize
  obtain ⟨v, hv, hfinalize⟩ := bind_eq_ok.mp hfinalize
  obtain rfl := pure_eq_ok.mp hfinalize
  obtain ⟨hruns, hpending, hchildren⟩ := insertDenominationStages_keeps hu
  replace hruns : u.runs = s.runs := hruns
  apply h.of_signing (u := u) (v := v) (r := r) signedChildren
  · unfold RunsUnique
    rw [hruns]
    apply hunique
  · intro run' hrun'
    rw [hruns] at hrun'
    exact .inl ⟨run', hrun', rfl, fun _ _ _ => id⟩
  · apply hchildren
  · apply hpending
  · rw [hruns]
    apply happroved
  · apply hv
  · have hsame := (signedFrom_updateRuns (s := v)
      (p := fun run => run.runId = r && run.phase.isPrivateMigrationDraft)
      (f := fun run => { run with phase := initialPhase denominationStages, lastError := none })
      fun _ => rfl).runs
    apply hsame
  · rfl
  · rfl

theorem OnOrigin.persistSignedChildren {signedChildren : List SignedMigrationPcztInsert}
    (h : OnOrigin resigned moved s) (hunique : s.RunsUnique)
    (happroved : ∀ run ∈ s.runs, run.runId = r → run.schedule ≠ [])
    (hpersist : s.persistSignedChildPcztsForRun r signedChildren = .ok s') :
  OnOrigin resigned (s.movedBetween s' ++ moved) s'
  := by
  obtain ⟨_, -, hpersist⟩ := bind_eq_ok.mp hpersist
  obtain ⟨v, hv, hpersist⟩ := bind_eq_ok.mp hpersist
  obtain ⟨_, -, hpersist⟩ := bind_eq_ok.mp hpersist
  obtain rfl := pure_eq_ok.mp hpersist
  apply h.of_signing (u := s) (v := v) (r := r) signedChildren hunique
    SignedFrom.refl.keepsPlans rfl rfl (fun _ => happroved) hv
  · have hsame := (signedFrom_updateRuns (s := v)
      (p := fun run => run.runId = r && run.phase = .readyToMigrate)
      (f := fun run => { run with lastError := none }) fun _ => rfl).runs
    apply hsame
  · rfl
  · rfl

/-- Before parts are signed, the timing policy of a run may change. -/
theorem OnOrigin.adoptTimingPolicy {account : AccountUuid} {network : WalletNetwork}
    {desiredPolicy : MigrationTimingPolicy} {generated : List MigrationScheduleEntry}
    (h : OnOrigin resigned moved s)
    (hunsigned : ∀ run, s.activeRun account network = some run → s.childrenOf run.runId = [])
    (hadopt : s.adoptTimingPolicyForActiveRun account network desiredPolicy generated = s') :
  OnOrigin resigned (s.movedBetween s' ++ moved) s'
  := by
  rw [adoptTimingPolicyForActiveRun] at hadopt
  have hsame (hs : s = s') : OnOrigin resigned (s.movedBetween s' ++ moved) s' := by
    subst hs
    apply h.of_signedFrom SignedFrom.refl
  split at hadopt
  · apply hsame hadopt
  · split at hadopt
    · apply hsame hadopt
    · rename_i run hactive
      split at hadopt
      · apply hsame hadopt
      · split at hadopt
        · apply hsame hadopt
        · rename_i hpending
          subst hadopt
          have hplans : KeepsPlans s (s.updateRuns
              (fun other => other.runId = run.runId && other.timingPolicy ≠ .fastTestnet)
              fun other => { other with timingPolicy := .fastTestnet, schedule := generated }) := by
            intro run' hrun'
            obtain ⟨old, hold, rfl⟩ := mem_updateWhere.mp hrun'
            split
            · rename_i hselected
              simp only [Bool.and_eq_true, decide_eq_true_eq] at hselected
              right
              constructor
              · intro child hchild hid
                have hmem : child ∈ s.childrenOf run.runId := List.mem_filter.mpr
                  ⟨hchild, by simpa using hid.trans hselected.1⟩
                rw [hunsigned run hactive] at hmem
                cases hmem
              · intro row hrow hid
                have hmem : row ∈ s.pendingOf run.runId := List.mem_filter.mpr
                  ⟨hrow, by simpa using hid.trans hselected.1⟩
                have hpos := List.length_pos_of_mem hmem
                omega
            · exact .inl ⟨old, hold, rfl, fun _ _ _ => id⟩
          apply h.of_step hplans (List.Subset.refl _) h.messages
          · intro child hchild
            exact .inl hchild
          · intro row hrow
            exact .inl ⟨row, hrow, rfl⟩

theorem OnOrigin.promote {pendingTxs : List PendingMigrationTxInsert}
    {currentScannedHeight remainingChildRetryHeight : Nat}
    {generated : List MigrationScheduleEntry} (h : OnOrigin resigned moved s) (hkeys : s.Keys)
    (hpromote : s.promoteSignedChildPcztsToPendingTxs r pendingTxs currentScannedHeight
      remainingChildRetryHeight generated = .ok s') :
  OnOrigin resigned (s.movedBetween s' ++ moved) s'
  := by
  rw [promoteSignedChildPcztsToPendingTxs] at hpromote
  split at hpromote
  · cases hpromote
    apply h.of_signedFrom SignedFrom.refl
  · obtain ⟨_, -, hpromote⟩ := bind_eq_ok.mp hpromote
    obtain ⟨_, -, hpromote⟩ := bind_eq_ok.mp hpromote
    obtain ⟨⟨t, applied⟩, ht, hpromote⟩ := bind_eq_ok.mp hpromote
    obtain ⟨refreshed, -, hpromote⟩ := bind_eq_ok.mp hpromote
    obtain ⟨u, hu, hpromote⟩ := bind_eq_ok.mp hpromote
    obtain rfl := pure_eq_ok.mp hpromote
    obtain ⟨hpending, hrebase⟩ := rebaseInitial_spec hkeys.runs ht
    have hrebased : OnOrigin resigned moved t := by
      rcases hrebase with hfrom | hmoved
      · have hstays := h.of_signedFrom hfrom
        rw [movedBetween_eq_nil hpending hkeys.txids] at hstays
        apply hstays
      · apply h.of_rebased hmoved hpending
    have hunique : t.RunsUnique :=
      (rebaseInitial_evolves (l := Licence.none) ht).runsUnique hkeys.runs
    set w := u.updateRuns (fun run => run.runId = r) fun run =>
      { run with proofRetryHeight := if ((u.childrenOf r).any fun child =>
          (u.pendingOf r).all fun row => row.partIndex ≠ some child.childIndex) = true
        then some remainingChildRetryHeight else none } with hw
    have hbetween : s.movedBetween w = t.movedBetween w := by
      unfold movedBetween
      rw [hpending]
    rw [hbetween]
    refine hrebased.of_insertPendingTxs hunique hu ?_ rfl rfl
    apply (signedFrom_updateRuns _).runs
    intro run
    rfl

theorem OnOrigin.replaceResigned {replacements : List PendingMigrationTxReplacement}
    {signedChildren : List SignedMigrationPcztInsert} (h : OnOrigin resigned moved s)
    (hreplace : s.replaceResignedPendingParts r replacements signedChildren = .ok s') :
  OnOrigin (s.resignedBy (.replaceResignedPendingParts r replacements signedChildren) ++ resigned)
    (s.movedBetween s' ++ moved) s'
  := by
  have hby : s.resignedBy (.replaceResignedPendingParts r replacements signedChildren)
      = replacements.map (fun replacement => (r, replacement.replacement.partIndex))
        ++ signedChildren.map fun child => (r, child.childIndex) := by
    rw [resignedBy, hreplace]
  rw [hby]
  obtain ⟨hruns, hchildren, hrows⟩ := replaceResignedPendingParts_spec hreplace
  have hplans : KeepsPlans s s' := by
    apply SignedFrom.refl.keepsPlans.of_plans
    rw [hruns]
    apply List.Subset.refl
  apply h.of_step hplans (List.subset_append_right _ _)
  · rw [replaceResignedPendingParts] at hreplace
    split at hreplace
    · cases hreplace
      apply h.messages
    · obtain ⟨_, -, hreplace⟩ := bind_eq_ok.mp hreplace
      obtain ⟨_, -, hreplace⟩ := bind_eq_ok.mp hreplace
      obtain ⟨t, ht, hreplace⟩ := bind_eq_ok.mp hreplace
      obtain ⟨u, hu, hreplace⟩ := bind_eq_ok.mp hreplace
      obtain rfl := pure_eq_ok.mp hreplace
      have hsame : t.signedChildren = s.signedChildren := by
        apply foldlM_invariant (I := fun t : Store => t.signedChildren = s.signedChildren) _ rfl ht
        intro w w' replacement _ hw hstep
        simp only [replacePendingRow, bind_eq_ok, pure_eq_ok] at hstep
        obtain ⟨_, -, _, -, _, -, _, -, _, -, _, -, _, -, _, -, rfl⟩ := hstep
        apply hw
      have hmessages : u.MessagesUnique := by
        apply insertSignedChildPczts_messagesUnique _ hu
        unfold MessagesUnique
        rw [hsame]
        apply h.messages
      apply hmessages
  · intro child hchild
    rcases hchildren child hchild with hchild | ⟨new, hnew, rfl⟩
    · exact .inl hchild
    · right
      left
      apply List.mem_append_left
      apply List.mem_append_right
      apply List.mem_map_of_mem hnew
  · intro row hrow
    rcases hrows row hrow with hrow | ⟨replacement, hreplacement, old, hold, -, -, hrun, hpart, -,
      horiginal⟩
    · exact .inl ⟨row, hrow, rfl⟩
    · right
      rw [horiginal]
      refine ⟨(h.assigned old hold).1, replacement.replacement.partIndex, hpart, .inl ?_⟩
      rw [hrun]
      apply List.mem_append_left
      apply List.mem_append_left
      apply List.mem_map_of_mem hreplacement

/-- An operation that succeeds keeps the parts that were not signed again on the schedules. -/
theorem apply_onOrigin {op : Op} (hkeys : s.Keys) (h : OnOrigin resigned moved s)
    (hop : s.KeepsSchedules op) (happly : s.apply op = .ok s') :
  OnOrigin (s.resignedBy op ++ resigned) (s.movedBetween s' ++ moved) s'
  := by
  by_cases hsigns : op.signs = false
  · apply (h.of_signedFrom (apply_signedFrom hsigns happly)).mono
    apply List.subset_append_right
  · cases op with
    | createRunWithStagedDenominationsAndSignedChildren new notes children stages schedule =>
      apply h.createRun hkeys.runs hop.1 hop.2 happly
    | createOrResumePrivateMigrationDraft new schedule =>
      obtain ⟨_, hdraft⟩ := map_fst_eq_ok happly
      apply h.createDraft hop hdraft
    | finalizePrivateMigrationDraft r account network targets notes children stages =>
      apply h.finalizeDraft hkeys.runs hop happly
    | persistSignedChildPcztsForRun r children =>
      apply h.persistSignedChildren hkeys.runs hop happly
    | adoptTimingPolicyForActiveRun account network policy generated =>
      cases happly
      rcases hop with hsame | hunsigned
      · rw [hsame]
        apply h.of_signedFrom SignedFrom.refl
      · apply h.adoptTimingPolicy hunsigned rfl
    | insertPendingTxs r pendingTxs generated =>
      replace happly : s.insertPendingTxs r pendingTxs generated = .ok s' := happly
      rw [insertPendingTxs] at happly
      split at happly
      · cases happly
        apply h.of_signedFrom SignedFrom.refl
      · apply h.of_insertPendingTxs hkeys.runs happly (List.Subset.refl _) rfl rfl
    | promoteSignedChildPcztsToPendingTxs r pendingTxs scanned retry generated =>
      apply h.promote hkeys happly
    | replaceResignedPendingParts r replacements children =>
      apply h.replaceResigned happly
    | ensureSchema =>
      cases happly
      apply h.of_refilled (ensureRows_refilled hkeys.runs h)
    | _ => exact absurd rfl hsigns

/-! ### Runs of the store -/

theorem step_onOrigin {op : Op} (hkeys : s.Keys) (h : OnOrigin resigned moved s)
    (hop : s.KeepsSchedules op) :
  OnOrigin (s.resignedBy op ++ resigned) (s.movedBetween (s.step op) ++ moved) (s.step op)
  := by
  unfold step committed
  split
  · apply apply_onOrigin hkeys h hop ‹_›
  · apply (h.of_signedFrom SignedFrom.refl).mono
    apply List.subset_append_right

theorem after_onOrigin {ops : List Op} (hkeys : s.Keys) (h : OnOrigin resigned moved s)
    (hops : Along step KeepsSchedules s ops) :
  OnOrigin (resignedParts s ops ++ resigned) (movedTxids s ops ++ moved) (after step s ops)
  := by
  induction ops generalizing s resigned moved with
  | nil => exact h
  | cons op ops ih =>
    have hends := ih hkeys.step (step_onOrigin hkeys h hops.1) hops.2
    rw [← List.append_assoc, ← List.append_assoc] at hends
    apply hends

theorem onOrigin_empty : OnOrigin [] [] {}
  := by
  constructor <;> simp [MessagesUnique]

/-- A transaction at the height of its signed child has the origin of its run. -/
theorem checkOrigin_of_onSchedule {run : MigrationRun} {child : SignedChild}
    (h : OnSchedule run child) {pending : PendingMigrationTxInsert}
    {entry : MigrationScheduleEntry}
    (hentry : scheduleEntryForPart run.schedule run.targetValues child.childIndex
      child.valueZatoshi = some entry)
    (hheight : child.scheduledHeight = some pending.scheduledHeight) (batch : PendingBatch) :
  ∃ origin, checkedSub32 pending.scheduledHeight entry.blockOffset = some origin
    ∧ run.signedScheduleOriginHeight = some origin
    ∧ batch.checkOrigin s run pending origin = .ok batch.incomingInitialScheduleOrigin
  := by
  obtain ⟨height, hplanned, hscheduled⟩ := h
  obtain ⟨origin, offset, horigin, hoffset, rfl⟩ := MigrationRun.plannedHeight_eq_some.mp hplanned
  rw [scheduleBlockOffsetForPart, hentry, Option.map_some, Option.some_inj] at hoffset
  rw [hheight, Option.some_inj] at hscheduled
  refine ⟨origin, ?_, horigin, ?_⟩
  · rw [hscheduled, hoffset, checkedSub32, if_pos (Nat.le_add_left _ _), Nat.add_sub_cancel]
  · rw [PendingBatch.checkOrigin, horigin]
    simp [ensure]

/-- After every run whose callers keep their promises, the signed children of the parts that
were not signed again are at the heights of the schedule after the origin of their run.
Their transactions were first scheduled there, and are still there if they were not moved.
When the transaction of such a child is inserted, and the rewrite of legacy heights leaves its
height as it is, the origin that is derived is the one of the run, and is accepted. -/
theorem signed_on_shared_origin {ops : List Op} (hops : Along step KeepsSchedules {} ops) :
  ∀ run ∈ (after step {} ops).runs,
    (∀ child ∈ (after step {} ops).childrenOf run.runId,
      (run.runId, child.childIndex) ∉ resignedParts {} ops →
        OnSchedule run child
          ∧ ∀ (pending pending' : PendingMigrationTxInsert) (entry : MigrationScheduleEntry),
            scheduleEntryForPart run.schedule run.targetValues child.childIndex
              child.valueZatoshi = some entry →
            child.scheduledHeight = some pending.scheduledHeight →
            pending.recoverLegacyScheduledHeight entry.blockOffset = .ok pending' →
            pending'.scheduledHeight = pending.scheduledHeight →
            ∀ batch : PendingBatch, ∃ origin,
              checkedSub32 pending'.scheduledHeight entry.blockOffset = some origin
                ∧ run.signedScheduleOriginHeight = some origin
                ∧ batch.checkOrigin (after step {} ops) run pending' origin
                  = .ok batch.incomingInitialScheduleOrigin)
    ∧ ∀ row ∈ (after step {} ops).pendingOf run.runId, ∃ i, row.partIndex = some i
      ∧ ((run.runId, i) ∉ resignedParts {} ops → FirstOnSchedule run i row
        ∧ (row.txid ∉ movedTxids {} ops → row.scheduledHeight = row.originalScheduledHeight))
  := by
  have hends := after_onOrigin keys_empty onOrigin_empty hops
  rw [List.append_nil, List.append_nil] at hends
  intro run hrun
  constructor
  · intro child hchild hkey
    obtain ⟨hmem, hid⟩ := List.mem_filter.mp hchild
    rw [decide_eq_true_eq] at hid
    rw [← hid] at hkey
    have hon := hends.children child hmem hkey run hrun hid.symm
    refine ⟨hon, fun pending pending' entry hentry hheight _ hkept batch => ?_⟩
    rw [← hkept] at hheight
    apply checkOrigin_of_onSchedule hon hentry hheight
  · intro row hrow
    obtain ⟨hmem, hid⟩ := List.mem_filter.mp hrow
    rw [decide_eq_true_eq] at hid
    obtain ⟨i, hpart⟩ := Option.isSome_iff_exists.mp (hends.assigned row hmem).2
    refine ⟨i, hpart, fun hkey => ?_⟩
    rw [← hid] at hkey
    obtain ⟨hscheduled, hfirst⟩ := hends.rows row hmem i hpart hkey
    exact ⟨hfirst run hrun hid.symm, hscheduled⟩

/-- The signed child of the part of a run. -/
def sampleChild : SignedMigrationPcztInsert where
  messageId := 3
  childIndex := 0
  targetHeight := 34555
  anchorBoundaryHeight := some 34416
  expiryHeight := 103680
  scheduledHeight := 34564
  valueZatoshi := 100
  feeZatoshi := 10
  selectedNote := sampleNote

/-- Create a run with a signed child, and promote it. -/
def samplePromotion : List Op := [
  .createRunWithStagedDenominationsAndSignedChildren sampleRun [sampleNote] [sampleChild] []
    (some [⟨some 0, 100, 10⟩]),
  .promoteSignedChildPcztsToPendingTxs 1 [samplePending] 34560 34570 []]

/-- The signed child and its transaction are on the schedule of the run, and the origin that was
derived for the transaction is the one of the run. -/
theorem signed_on_shared_origin_promotion :
  ∃ run ∈ (after step {} samplePromotion).runs,
    (∃ child ∈ (after step {} samplePromotion).childrenOf run.runId, OnSchedule run child)
      ∧ (∃ row ∈ (after step {} samplePromotion).pendingOf run.runId, FirstOnSchedule run 0 row)
      ∧ ∃ origin, checkedSub32 samplePending.scheduledHeight 10 = some origin
        ∧ run.signedScheduleOriginHeight = some origin
        ∧ PendingBatch.checkOrigin {} (after step {} samplePromotion) run samplePending origin
          = .ok none
  := by
  have hops : Along step KeepsSchedules {} samplePromotion :=
    ⟨⟨by decide, fun _ => by decide⟩, trivial, trivial⟩
  obtain ⟨run, hrun, child, hchild, row, hrow, hchildKey, hpart, hentry, hheight⟩ :
      ∃ run ∈ (after step {} samplePromotion).runs,
        ∃ child ∈ (after step {} samplePromotion).childrenOf run.runId,
          ∃ row ∈ (after step {} samplePromotion).pendingOf run.runId,
            (run.runId, child.childIndex) ∉ resignedParts {} samplePromotion
              ∧ (row.partIndex = some 0 ∧ (run.runId, 0) ∉ resignedParts {} samplePromotion)
              ∧ scheduleEntryForPart run.schedule run.targetValues child.childIndex
                child.valueZatoshi = some ⟨some 0, 100, 10⟩
              ∧ child.scheduledHeight = some samplePending.scheduledHeight := by
    decide +kernel
  obtain ⟨hchildren, hrows⟩ := signed_on_shared_origin hops run hrun
  obtain ⟨hon, haccepted⟩ := hchildren child hchild hchildKey
  refine ⟨run, hrun, ⟨child, hchild, hon⟩, ⟨row, hrow, ?_⟩, ?_⟩
  · obtain ⟨i, hi, hfirst⟩ := hrows row hrow
    rw [hpart.1, Option.some_inj] at hi
    subst hi
    apply (hfirst hpart.2).1
  · apply haccepted samplePending samplePending _ hentry hheight (by decide) rfl {}

/-- The transaction of the run is overdue, and is moved. -/
def sampleRescheduled : List Op := sampleInsertion ++ [
  .rescheduleOverduePendingTxs 1 34600 1 none sampleOffsets]

/-- The part was never signed again, but its transaction is no longer on the schedule of the
run. -/
theorem sampleRescheduled_off_origin :
  ∃ run ∈ (after step {} sampleRescheduled).runs,
    ∃ row ∈ (after step {} sampleRescheduled).pendingOf run.runId,
      resignedParts {} sampleRescheduled = [] ∧ row.partIndex = some 0
        ∧ row.originalScheduledHeight = run.plannedHeight 0 row.valueZatoshi
        ∧ (run.plannedHeight 0 row.valueZatoshi).isSome
        ∧ row.scheduledHeight ≠ run.plannedHeight 0 row.valueZatoshi
  := by
  decide +kernel

end Store

end Vizor
