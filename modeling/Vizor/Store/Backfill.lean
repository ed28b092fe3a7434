import Vizor.Amount
import Vizor.Store.Reorg

/-!
# Backfills

A database may come from an earlier version of the schema.  Whenever it is opened, the rows
that lack data in its columns are completed: the parts of the pending transactions, the
broadcast heights of the signed children and of the pending transactions, and the heights of
the approved schedule.  The statements are not in one transaction, so those before a failure
stay.
-/

namespace Vizor

open Table Run

namespace Store

/-! ### Parts of pending transactions -/

/-- The sum of two amounts, or the largest one. -/
def saturatingAdd64 (a b : Nat) : Nat :=
  min (a + b) (u64Size - 1)

/-- The parts that are assigned to pending transactions of a run. -/
def usedPartIndexes (s : Store) (r : RunId) : List Nat :=
  (s.pendingOf r).filterMap (·.partIndex)

/-- The part of the first signed child that spends the note of a transaction. -/
def partIndexOfChild (s : Store) (row : PendingTx) (used : List Nat) : Option Nat :=
  ((((s.childrenOf row.runId).insertionSort fun a b => a.childIndex ≤ b.childIndex).filter
    fun child => child.selectedNote.outpoint = row.selectedOutpoint
      && child.childIndex ∉ used).head?).map (·.childIndex)

/-- The first part of the plan that has the value of a transaction. -/
def partIndexOfValue (s : Store) (row : PendingTx) (used : List Nat) : Option Nat := do
  let run ← s.run? row.runId
  let part ← run.targetValues.zipIdx.find? fun (value, index) =>
    (value = saturatingAdd64 row.valueZatoshi row.feeZatoshi || value = row.valueZatoshi)
      && index ∉ used
  return part.2

/-- The first number that is not used. -/
def firstUnused (used : List Nat) : Nat :=
  ((List.range (used.length + 1)).find? (· ∉ used)).getD used.length

/-- The part that is assigned to a transaction. -/
def recoveredPartIndex (s : Store) (row : PendingTx) : Nat :=
  let used := s.usedPartIndexes row.runId
  ((s.partIndexOfChild row used).orElse fun _ => s.partIndexOfValue row used).getD
    (firstUnused used)

/-- Assign a part to a transaction without one. -/
def backfillPartIndex (s : Store) (row : PendingTx) : Store :=
  let partIndex := s.recoveredPartIndex row
  s.updatePendingTxs
    (fun other => other.runId = row.runId && other.txid = row.txid && other.partIndex.isNone)
    fun other => { other with partIndex := some partIndex }

/-- The order of the transactions in a backfill of their parts; an absent height is first. -/
def partBackfillOrder (a b : PendingTx) : Prop :=
  let height (row : PendingTx) : Nat := (row.scheduledHeight.map (· + 1)).getD 0
  a.runId < b.runId ∨ a.runId = b.runId
    ∧ (height a < height b ∨ height a = height b ∧ a.txid ≤ b.txid)

instance : DecidableRel partBackfillOrder := fun a b => by
  unfold partBackfillOrder
  infer_instance

/-- Assign parts to all transactions without one. -/
def backfillPendingPartIndices (s : Store) : Store :=
  ((s.pendingTxs.filter (·.partIndex.isNone)).insertionSort partBackfillOrder).foldl
    backfillPartIndex s

/-! ### Signed children without a schedule -/

/-- Whether a signed child has no broadcast height of its own. -/
def isLegacyChild (r : RunId) (child : SignedChild) : Bool :=
  child.runId = r && (child.scheduledHeight = none || child.scheduledHeight = some 0
    || child.scheduledHeight = some child.targetHeight)

/-- The signed children of a run that are completed, in the order of their parts. -/
def legacyChildren (s : Store) (run : MigrationRun) : List SignedChild :=
  (((s.signedChildren.filter (isLegacyChild run.runId)).insertionSort fun a b =>
      a.childIndex < b.childIndex ∨ a.childIndex = b.childIndex ∧ a.messageId ≤ b.messageId)).filter
    fun child => !(run.signedScheduleOriginHeight.isSome
      && child.scheduledHeight.any fun height => height ≠ 0)

/-- The broadcast height of a signed child under the approved schedule, unless its signature
does not cover it or its origin is not the one of the run. -/
def recoveredChildHeight (run : MigrationRun) (recoveredOrigin : Option Nat)
    (child : SignedChild) : Except String (Option Nat) :=
  match (scheduleBlockOffsetForPart run.schedule run.targetValues child.childIndex
      child.valueZatoshi).bind (checkedAdd32 (child.targetHeight - 1)) with
  | none => .ok none
  | some scheduledHeight =>
    if recoveredOrigin.any fun existing => existing ≠ child.targetHeight - 1 then .ok none
    else do
      let canonicalExpiry ← zip318CanonicalMigrationExpiryHeight scheduledHeight
      return if canonicalExpiry ≠ child.expiryHeight then none else some scheduledHeight

/-- The progress of a backfill of the signed children of a run. -/
structure SignedBackfill where
  store : Store
  recoveredOrigin : Option Nat
  invalidChildren : List (MessageId × Nat) := []

/-- Complete a signed child, or note that it is not valid. -/
def backfillSignedChild (run : MigrationRun) (child : SignedChild) (acc : SignedBackfill) :
    Except String SignedBackfill := do
  match ← recoveredChildHeight run acc.recoveredOrigin child with
  | none => return { acc with
      invalidChildren := acc.invalidChildren ++ [(child.messageId, child.childIndex)] }
  | some scheduledHeight => return { acc with
      store := acc.store.updateSignedChildren
        (fun other => isLegacyChild run.runId other && other.messageId = child.messageId)
        fun other => { other with scheduledHeight := some scheduledHeight }
      recoveredOrigin := some (child.targetHeight - 1) }

/-- Write the origin of the schedule of a run, unless it is known. -/
def recoverScheduleOrigin (s : Store) (r : RunId) (origin : Nat) : Store :=
  s.updateRuns (fun run => run.runId = r) fun run =>
    { run with signedScheduleOriginHeight := some (run.signedScheduleOriginHeight.getD origin) }

/-- Remove a signed child that is not valid, unless its part has a pending transaction. -/
def discardInvalidChild (r : RunId) (s : Store) (child : MessageId × Nat) : Store :=
  if s.pendingTxs.any fun row => row.runId = r && row.partIndex = some child.2 then s
  else s.deleteSignedChildren fun other => other.runId = r && other.messageId = child.1

/-- Ask for new signatures. -/
def requestSignatures (s : Store) (r : RunId) (message : String) : Store :=
  s.updateRuns (fun run => run.runId = r) fun run =>
    { run with phase := .readyToMigrate, lastError := some message }

/-- Finish the backfill of the signed children of a run. -/
def finishSignedBackfill (r : RunId) (acc : SignedBackfill) : Store :=
  let s := match acc.recoveredOrigin with
    | some origin => acc.store.recoverScheduleOrigin r origin
    | none => acc.store
  if acc.invalidChildren = [] then s
  else (acc.invalidChildren.foldl (discardInvalidChild r) s).requestSignatures r
    "Legacy migration signatures crossed a ZIP 318 expiry boundary and must be recreated"

/-- Complete the signed children of a run with an approved schedule. -/
def backfillSignedRun (s : Store) (run : MigrationRun) : Store × Option String :=
  if run.schedule = [] then (s, none)
  else match commitAll ((s.legacyChildren run).map (backfillSignedChild run))
      { store := s, recoveredOrigin := run.signedScheduleOriginHeight } with
    | (acc, none) => (finishSignedBackfill run.runId acc, none)
    | (acc, some e) => (acc.store, some e)

/-- Complete the signed children of all runs. -/
def backfillLegacySignedScheduleMetadata (s : Store) : Store × Option String :=
  s.runs.foldl (fun p run => andThen p fun s => s.backfillSignedRun run) (s, none)

/-! ### Pending transactions without a schedule -/

/-- Whether a pending transaction of a run has no broadcast height of its own. -/
def isLegacyPending (s : Store) (row : PendingTx) : Bool :=
  (s.run? row.runId).any fun run => row.scheduledHeight = none || row.scheduledHeight = some 0
    || row.scheduledHeight = some row.targetHeight && run.signedScheduleOriginHeight = none
      && row.status ≠ .needsResign

/-- The broadcast height of a pending transaction under the approved schedule, unless its
signature does not cover it or its origin is not the one of the run. -/
def recoveredPendingHeight (run : MigrationRun) (row : PendingTx) :
    Except String (Option Nat) :=
  if run.signedScheduleOriginHeight.any fun existing => existing ≠ row.targetHeight - 1 then
    .ok none
  else match (row.partIndex.bind fun partIndex => scheduleBlockOffsetForPart run.schedule
      run.targetValues partIndex row.valueZatoshi).bind (checkedAdd32 (row.targetHeight - 1)) with
  | none => .ok none
  | some scheduledHeight => do
    let canonicalExpiry ← zip318CanonicalMigrationExpiryHeight scheduledHeight
    return if canonicalExpiry ≠ row.expiryHeight then none else some scheduledHeight

/-- Complete a pending transaction, or mark it for a new signature. -/
def backfillPendingRow (row : PendingTx) (s : Store) : Except String Store :=
  match s.run? row.runId with
  | none => .ok s
  | some run =>
    if run.schedule = [] then .ok s
    else do
      match ← recoveredPendingHeight run row with
      | some scheduledHeight =>
        return (s.updatePendingTxs (fun other => other.runId = row.runId && other.txid = row.txid)
          fun other => { other with
            scheduledHeight := some scheduledHeight
            scheduleStartHeight :=
              some (other.scheduleStartHeight.getD (row.targetHeight - 1)) }).recoverScheduleOrigin
          row.runId (row.targetHeight - 1)
      | none =>
        return (s.updatePendingTxs (fun other => other.runId = row.runId && other.txid = row.txid)
          fun other => { other with
            scheduledHeight := some other.targetHeight
            status := .needsResign }).requestSignatures row.runId
          "Legacy migration schedule crossed a ZIP 318 expiry boundary and must be recreated"

/-- The pending transactions that are completed, in the order of their parts. -/
def legacyPendingTxs (s : Store) : List PendingTx :=
  (s.pendingTxs.filter s.isLegacyPending).insertionSort fun a b =>
    let part (row : PendingTx) : Nat := (row.partIndex.map (· + 1)).getD 0
    a.runId < b.runId ∨ a.runId = b.runId
      ∧ (part a < part b ∨ part a = part b ∧ a.txid ≤ b.txid)

/-- Complete the pending transactions of all runs. -/
def backfillLegacyPendingScheduleMetadata (s : Store) : Store × Option String :=
  commitAll (s.legacyPendingTxs.map backfillPendingRow) s

/-- The broadcast height of a transaction in the approved schedule. -/
def originalPendingScheduleHeight (s : Store) (row : PendingTx) : Option Nat := do
  let run ← s.run? row.runId
  let partIndex ← row.partIndex
  let origin ← run.signedScheduleOriginHeight
  let offset (value : Nat) : Option Nat :=
    scheduleBlockOffsetForPart run.schedule run.targetValues partIndex value
  let blockOffset ← (offset row.valueZatoshi).orElse fun _ =>
    offset (saturatingAdd64 row.valueZatoshi row.feeZatoshi)
  checkedAdd32 origin blockOffset

/-- Complete the broadcast heights of the approved schedule. -/
def backfillOriginalPendingScheduleHeights (s : Store) : Store :=
  s.updatePendingTxs (·.originalScheduledHeight.isNone)
    fun row => { row with originalScheduledHeight := s.originalPendingScheduleHeight row }

/-- Complete the heights at which the schedules of the transactions start. -/
def backfillScheduleStartHeights (s : Store) : Store :=
  s.updatePendingTxs (·.scheduleStartHeight.isNone)
    fun row => { row with scheduleStartHeight := some (row.targetHeight - 1) }

/-! ### The schema -/

/-- The parts of a run are a key of its pending transactions. -/
def PartsUnique (s : Store) : Prop :=
  s.pendingTxs.Pairwise fun a b =>
    ¬(a.partIndex.isSome ∧ a.runId = b.runId ∧ a.partIndex = b.partIndex)

instance (s : Store) : Decidable s.PartsUnique :=
  inferInstanceAs (Decidable (List.Pairwise _ _))

/-- Stages from before the column for attempts to broadcast may have been broadcast. -/
def backfillStageBroadcastAttempts (s : Store) : Store :=
  s.updateStages (fun stage => stage.state.status = .pending)
    fun stage => { stage with broadcastAttempted := .unknownLegacy }

/-- The backfills that come after the new columns. -/
def ensureRows (s : Store) : Store × Option String :=
  let p := andThen (s.backfillPendingPartIndices.backfillLegacySignedScheduleMetadata)
    backfillLegacyPendingScheduleMetadata
  andThen p fun s =>
    let s := s.backfillOriginalPendingScheduleHeights
    if s.PartsUnique then (s.backfillScheduleStartHeights, none)
    else (s, some "Create migration pending part index: UNIQUE constraint failed")

/-! ### What the backfills may do -/

variable {l : Licence} {s s' : Store} {r : RunId}

theorem requestSignatures_evolves {message : String} (hphase : l.rephase r) :
  Evolves l s (s.requestSignatures r message)
  := by
  apply evolves_writePhase
  · simp
  · simp
  · simp
  · simp
  · apply hphase

theorem backfillPendingPartIndices_evolves :
  Evolves l s s.backfillPendingPartIndices
  := by
  unfold backfillPendingPartIndices
  generalize (s.pendingTxs.filter (·.partIndex.isNone)).insertionSort partBackfillOrder = rows
  induction rows generalizing s with
  | nil => apply Evolves.refl
  | cons row rows ih =>
    rw [List.foldl_cons]
    have hrow : Evolves l s (s.backfillPartIndex row) := by
      apply evolves_updatePendingTxs
      intro other _ hother
      simp only [Bool.and_eq_true, Option.isNone_iff_eq_none] at hother
      refine ⟨rfl, rfl, fun h => ?_, id, fun h => .inl ⟨h, rfl, rfl⟩⟩
      simp [hother.2] at h
    apply hrow.trans ih

/-- The backfill of a run leaves the other tables and the signed children of the other runs
as they are. -/
structure ChildrenOf (r : RunId) (s s' : Store) : Prop where
  runs : s'.runs = s.runs
  pendingTxs : s'.pendingTxs = s.pendingTxs
  others : ∀ r', r' ≠ r → s'.childrenOf r' = s.childrenOf r'

theorem ChildrenOf.refl : ChildrenOf r s s
  := ⟨rfl, rfl, fun _ _ => rfl⟩

theorem ChildrenOf.trans {s s' s'' : Store} (h : ChildrenOf r s s') (h' : ChildrenOf r s' s'') :
  ChildrenOf r s s''
  := ⟨h'.runs.trans h.runs, h'.pendingTxs.trans h.pendingTxs,
    fun r' hr' => (h'.others r' hr').trans (h.others r' hr')⟩

theorem childrenOf_updateSignedChildren {p : SignedChild → Bool}
    {f : SignedChild → SignedChild} (hp : ∀ child, p child = true → child.runId = r)
    (hf : ∀ child, (f child).runId = child.runId) :
  ChildrenOf r s (s.updateSignedChildren p f)
  := by
  refine ⟨rfl, rfl, fun r' hr' => ?_⟩
  unfold childrenOf updateSignedChildren
  rw [filter_updateWhere, updateWhere_eq_self]
  · intro child hchild hsel
    have hid := (List.mem_filter.mp hchild).2
    rw [decide_eq_true_eq] at hid
    exact absurd (hid.symm.trans (hp child hsel)) hr'
  · intro child _ _
    rw [hf]

theorem childrenOf_deleteSignedChildren {p : SignedChild → Bool}
    (hp : ∀ child, p child = true → child.runId = r) :
  ChildrenOf r s (s.deleteSignedChildren p)
  := by
  refine ⟨rfl, rfl, fun r' hr' => ?_⟩
  unfold childrenOf deleteSignedChildren deleteWhere
  rw [List.filter_filter]
  apply List.filter_congr
  intro child _
  by_cases hid : child.runId = r'
  · have : p child = false := by
      by_contra hsel
      rw [Bool.not_eq_false] at hsel
      apply hr' (hid.symm.trans (hp child hsel))
    simp [hid, this]
  · simp [hid]

theorem backfillSignedChild_childrenOf {run : MigrationRun} {child : SignedChild}
    {acc acc' : SignedBackfill} (h : backfillSignedChild run child acc = .ok acc') :
  ChildrenOf run.runId acc.store acc'.store
  := by
  obtain ⟨height, -, h⟩ := bind_eq_ok.mp h
  split at h
  · obtain rfl := pure_eq_ok.mp h
    apply ChildrenOf.refl
  · obtain rfl := pure_eq_ok.mp h
    apply childrenOf_updateSignedChildren
    · intro other hother
      simp only [isLegacyChild, Bool.and_eq_true, decide_eq_true_eq] at hother
      apply hother.1.1
    · simp

theorem discardInvalidChild_childrenOf {child : MessageId × Nat} :
  ChildrenOf r s (discardInvalidChild r s child)
  := by
  unfold discardInvalidChild
  split
  · apply ChildrenOf.refl
  · apply childrenOf_deleteSignedChildren
    intro other hother
    simp only [Bool.and_eq_true, decide_eq_true_eq] at hother
    apply hother.1

theorem discardInvalidChildren_childrenOf (children : List (MessageId × Nat)) :
  ChildrenOf r s (children.foldl (discardInvalidChild r) s)
  := by
  induction children generalizing s with
  | nil => exact ChildrenOf.refl
  | cons child children ih =>
    rw [List.foldl_cons]
    apply discardInvalidChild_childrenOf.trans ih

/-- What the steps of the end of a backfill keep, the end of the backfill keeps. -/
theorem finishSignedBackfill_invariant {I : Store → Prop} {acc : SignedBackfill}
    (horigin : ∀ t origin, I t → I (t.recoverScheduleOrigin r origin))
    (hdiscard : ∀ t child, I t → I (discardInvalidChild r t child))
    (hrequest : ∀ t message, I t → I (t.requestSignatures r message)) (h : I acc.store) :
  I (finishSignedBackfill r acc)
  := by
  have hdiscards : ∀ t, I t → I (acc.invalidChildren.foldl (discardInvalidChild r) t) := by
    intro t ht
    apply List.foldlRecOn _ _ ht
    intro t ht child _
    apply hdiscard t child ht
  unfold finishSignedBackfill
  dsimp only
  split
  · split
    · apply horigin _ _ h
    · apply h
  · apply hrequest
    apply hdiscards
    split
    · apply horigin _ _ h
    · apply h

/-- What the backfill of a child and the end of a backfill keep, a backfill keeps. -/
theorem backfillSignedRun_invariant {I : Store → Prop} {run : MigrationRun}
    (hchild : ∀ child acc acc', I acc.store → backfillSignedChild run child acc = .ok acc' →
      I acc'.store)
    (hfinish : ∀ acc : SignedBackfill, I acc.store → I (finishSignedBackfill run.runId acc))
    (h : I s) :
  I (s.backfillSignedRun run).1
  := by
  have hstep : ∀ f ∈ (s.legacyChildren run).map (backfillSignedChild run),
      ∀ acc acc' : SignedBackfill, I acc.store → f acc = .ok acc' → I acc'.store := by
    intro f hf acc acc' hacc hstep
    obtain ⟨child, -, rfl⟩ := List.mem_map.mp hf
    apply hchild child acc acc' hacc hstep
  unfold backfillSignedRun
  split
  · apply h
  · have hloop := commitAll_invariant hstep
      (s := { store := s, recoveredOrigin := run.signedScheduleOriginHeight }) h
    split
    · rename_i acc hacc
      rw [hacc] at hloop
      apply hfinish acc hloop
    · rename_i acc e hacc
      rw [hacc] at hloop
      apply hloop

/-- The backfill of the signed children of a run writes its phase only when some of them
have no broadcast height of their own. -/
theorem backfillSignedRun_evolves {run : MigrationRun}
    (hphase : run.schedule ≠ [] → s.legacyChildren run ≠ [] → l.rephase run.runId) :
  Evolves l s (s.backfillSignedRun run).1
    ∧ ∀ r', r' ≠ run.runId → (s.backfillSignedRun run).1.childrenOf r' = s.childrenOf r'
  := by
  unfold backfillSignedRun
  split
  · exact ⟨Evolves.refl, fun _ _ => rfl⟩
  · rename_i hschedule
    have hchildren : ChildrenOf run.runId s
        (commitAll ((s.legacyChildren run).map (backfillSignedChild run))
          { store := s, recoveredOrigin := run.signedScheduleOriginHeight }).1.store := by
      apply commitAll_rel (R := fun a b : SignedBackfill => ChildrenOf run.runId a.store b.store)
        (fun _ => ChildrenOf.refl) ChildrenOf.trans
        (s := { store := s, recoveredOrigin := run.signedScheduleOriginHeight })
      intro f hf acc acc' hstep
      obtain ⟨child, -, rfl⟩ := List.mem_map.mp hf
      apply backfillSignedChild_childrenOf hstep
    have hnil : s.legacyChildren run = [] →
        (commitAll ((s.legacyChildren run).map (backfillSignedChild run))
          { store := s, recoveredOrigin := run.signedScheduleOriginHeight }).1.invalidChildren
          = [] := by
      intro hnil
      rw [hnil]
      rfl
    split
    · rename_i acc hacc
      rw [hacc] at hchildren hnil
      dsimp only at hchildren hnil ⊢
      have hsame : Evolves l s acc.store := evolves_of_eq hchildren.runs hchildren.pendingTxs
      have horigin : ∀ origin, Evolves l s (acc.store.recoverScheduleOrigin run.runId origin) := by
        intro origin
        apply hsame.trans
        apply evolves_updateRuns_of_keep <;> simp
      constructor
      · unfold finishSignedBackfill
        dsimp only
        set t : Store := match acc.recoveredOrigin with
          | some origin => acc.store.recoverScheduleOrigin run.runId origin
          | none => acc.store with ht
        have hst : Evolves l s t := by
          rw [ht]
          split
          · apply horigin
          · apply hsame
        split
        · apply hst
        · rename_i hinvalid
          have hdiscard := discardInvalidChildren_childrenOf (r := run.runId) (s := t)
            acc.invalidChildren
          apply hst.trans
          apply (evolves_of_eq hdiscard.runs hdiscard.pendingTxs).trans
          apply requestSignatures_evolves
          apply hphase hschedule
          exact fun h => hinvalid (hnil h)
      · intro r' hr'
        unfold finishSignedBackfill
        dsimp only
        set t : Store := match acc.recoveredOrigin with
          | some origin => acc.store.recoverScheduleOrigin run.runId origin
          | none => acc.store with ht
        have hst : t.childrenOf r' = s.childrenOf r' := by
          rw [← hchildren.others r' hr', ht]
          split <;> rfl
        split
        · apply hst
        · rw [← hst, ← (discardInvalidChildren_childrenOf (r := run.runId) (s := t)
            acc.invalidChildren).others r' hr']
          rfl
    · rename_i acc e hacc
      rw [hacc] at hchildren
      exact ⟨evolves_of_eq hchildren.runs hchildren.pendingTxs, hchildren.others⟩

theorem legacyChildren_congr {run : MigrationRun}
    (h : s'.childrenOf run.runId = s.childrenOf run.runId) :
  s'.legacyChildren run = s.legacyChildren run
  := by
  have hfilter : ∀ s : Store, s.signedChildren.filter (isLegacyChild run.runId)
      = (s.childrenOf run.runId).filter (isLegacyChild run.runId) := by
    intro s
    unfold childrenOf
    rw [List.filter_filter]
    apply List.filter_congr
    intro child _
    unfold isLegacyChild
    by_cases hid : child.runId = run.runId <;> simp [hid]
  unfold legacyChildren
  rw [hfilter, hfilter, h]

theorem backfillLegacySignedScheduleMetadata_evolves (hunique : s.RunsUnique)
    (hphase : ∀ run ∈ s.runs, run.schedule ≠ [] → s.legacyChildren run ≠ [] →
      l.rephase run.runId) :
  Evolves l s s.backfillLegacySignedScheduleMetadata.1
  := by
  unfold backfillLegacySignedScheduleMetadata
  suffices hloop : ∀ runs : List MigrationRun, (runs.map (·.runId)).Nodup →
      (∀ run ∈ runs, run.schedule ≠ [] → s.legacyChildren run ≠ [] → l.rephase run.runId) →
      ∀ p : Store × Option String, Evolves l s p.1 →
      (∀ run ∈ runs, p.1.childrenOf run.runId = s.childrenOf run.runId) →
      Evolves l s
        (runs.foldl (fun p run => andThen p fun s => s.backfillSignedRun run) p).1 from
    hloop s.runs hunique hphase (s, none) Evolves.refl fun _ _ => rfl
  intro runs
  induction runs with
  | nil => exact fun _ _ _ h _ => h
  | cons run runs ih =>
    intro hnodup hphase p hp hchildren
    rw [List.map_cons, List.nodup_cons] at hnodup
    obtain ⟨t, e⟩ := p
    rw [List.foldl_cons]
    apply ih hnodup.2 (fun other hother => hphase other (List.mem_cons_of_mem _ hother))
    · cases e with
      | some e => exact hp
      | none =>
        apply hp.trans
        refine (backfillSignedRun_evolves fun hschedule hlegacy => ?_).1
        apply hphase run List.mem_cons_self hschedule
        rwa [legacyChildren_congr (hchildren run List.mem_cons_self)] at hlegacy
    · intro other hother
      rw [← hchildren other (List.mem_cons_of_mem _ hother)]
      cases e with
      | some e => rfl
      | none =>
        refine (backfillSignedRun_evolves (l := l) fun hschedule hlegacy => ?_).2 _ ?_
        · apply hphase run List.mem_cons_self hschedule
          rwa [legacyChildren_congr (hchildren run List.mem_cons_self)] at hlegacy
        · intro heq
          apply hnodup.1
          rw [← heq]
          apply List.mem_map_of_mem hother

/-- What a backfill keeps of the rows that the next one selects. -/
structure Completes (s s' : Store) : Prop where
  rows : ∃ g : PendingTx → PendingTx, s'.pendingTxs = s.pendingTxs.map g
    ∧ ∀ row, (g row).runId = row.runId ∧ (g row).scheduledHeight = row.scheduledHeight
      ∧ (g row).targetHeight = row.targetHeight ∧ (g row).status = row.status
  origin : ∀ r run', s'.run? r = some run' → ∃ run, s.run? r = some run
    ∧ (run'.signedScheduleOriginHeight = none → run.signedScheduleOriginHeight = none)

theorem Completes.refl : s.Completes s
  := ⟨⟨id, by simp, fun _ => ⟨rfl, rfl, rfl, rfl⟩⟩, fun _ run h => ⟨run, h, id⟩⟩

theorem Completes.trans {s s' s'' : Store} (h : s.Completes s') (h' : s'.Completes s'') :
  s.Completes s''
  := by
  obtain ⟨g, hg, hkeep⟩ := h.rows
  obtain ⟨g', hg', hkeep'⟩ := h'.rows
  constructor
  · use g' ∘ g
    constructor
    · rw [hg', hg, List.map_map]
    · intro row
      obtain ⟨h₁, h₂, h₃, h₄⟩ := hkeep row
      obtain ⟨h₁', h₂', h₃', h₄'⟩ := hkeep' (g row)
      exact ⟨h₁'.trans h₁, h₂'.trans h₂, h₃'.trans h₃, h₄'.trans h₄⟩
  · intro r run'' hrun''
    obtain ⟨run', hrun', horigin'⟩ := h'.origin r run'' hrun''
    obtain ⟨run, hrun, horigin⟩ := h.origin r run' hrun'
    exact ⟨run, hrun, horigin ∘ horigin'⟩

theorem completes_of_eq (hruns : s'.runs = s.runs) (hpending : s'.pendingTxs = s.pendingTxs) :
  s.Completes s'
  := by
  constructor
  · exact ⟨id, by rw [hpending, List.map_id], fun _ => ⟨rfl, rfl, rfl, rfl⟩⟩
  · intro r run hrun
    rw [run?, hruns] at hrun
    exact ⟨run, hrun, id⟩

theorem completes_updateRuns {p : MigrationRun → Bool} {f : MigrationRun → MigrationRun}
    (hid : ∀ run, (f run).runId = run.runId)
    (horigin : ∀ run, (f run).signedScheduleOriginHeight = none →
      run.signedScheduleOriginHeight = none) :
  s.Completes (s.updateRuns p f)
  := by
  constructor
  · exact ⟨id, (List.map_id _).symm, fun _ => ⟨rfl, rfl, rfl, rfl⟩⟩
  · intro r run' hrun'
    rw [run?_updateRuns hid] at hrun'
    obtain ⟨run, hrun, rfl⟩ := Option.map_eq_some_iff.mp hrun'
    use run, hrun
    split
    · apply horigin
    · apply id

theorem completes_backfillPendingPartIndices :
  s.Completes s.backfillPendingPartIndices
  := by
  unfold backfillPendingPartIndices
  generalize (s.pendingTxs.filter (·.partIndex.isNone)).insertionSort partBackfillOrder = rows
  induction rows generalizing s with
  | nil => exact Completes.refl
  | cons row rows ih =>
    rw [List.foldl_cons]
    have hrow : s.Completes (s.backfillPartIndex row) := by
      constructor
      · refine ⟨_, rfl, fun other => ?_⟩
        split <;> exact ⟨rfl, rfl, rfl, rfl⟩
      · exact fun _ run h => ⟨run, h, id⟩
    apply hrow.trans ih

/-- Parts are only assigned to pending transactions. -/
theorem backfillPendingPartIndices_keeps :
  s.backfillPendingPartIndices.runs = s.runs
    ∧ s.backfillPendingPartIndices.signedChildren = s.signedChildren
  := by
  unfold backfillPendingPartIndices
  generalize (s.pendingTxs.filter (·.partIndex.isNone)).insertionSort partBackfillOrder = rows
  induction rows generalizing s with
  | nil => exact ⟨rfl, rfl⟩
  | cons row rows ih =>
    rw [List.foldl_cons, ih.1, ih.2]
    exact ⟨rfl, rfl⟩

theorem completes_finishSignedBackfill {acc : SignedBackfill} (h : s.Completes acc.store) :
  s.Completes (finishSignedBackfill r acc)
  := by
  apply finishSignedBackfill_invariant _ _ _ h
  · intro t origin ht
    apply ht.trans
    apply completes_updateRuns <;> simp
  · intro t child ht
    have hdiscard : ChildrenOf r t (discardInvalidChild r t child) := discardInvalidChild_childrenOf
    apply ht.trans (completes_of_eq hdiscard.runs hdiscard.pendingTxs)
  · intro t message ht
    apply ht.trans
    apply completes_updateRuns <;> simp

theorem completes_backfillSignedRun {run : MigrationRun} :
  s.Completes (s.backfillSignedRun run).1
  := by
  apply backfillSignedRun_invariant _ _ Completes.refl
  · intro child acc acc' hacc hstep
    have hchild := backfillSignedChild_childrenOf hstep
    apply hacc.trans (completes_of_eq hchild.runs hchild.pendingTxs)
  · intro acc hacc
    apply completes_finishSignedBackfill hacc

theorem completes_backfillLegacySignedScheduleMetadata :
  s.Completes s.backfillLegacySignedScheduleMetadata.1
  := by
  unfold backfillLegacySignedScheduleMetadata
  suffices hloop : ∀ (runs : List MigrationRun) (p : Store × Option String), s.Completes p.1 →
      s.Completes (runs.foldl (fun p run => andThen p fun s => s.backfillSignedRun run) p).1 from
    hloop s.runs (s, none) Completes.refl
  intro runs
  induction runs with
  | nil => exact fun _ h => h
  | cons run runs ih =>
    intro p hp
    apply ih
    apply andThen_rel (R := Completes) Completes.trans hp completes_backfillSignedRun

/-- A row without a broadcast height had none before. -/
theorem Completes.isLegacyPending (h : s.Completes s') {row : PendingTx}
    (hrow : row ∈ s'.pendingTxs) (hlegacy : s'.isLegacyPending row = true) :
  ∃ old ∈ s.pendingTxs, old.runId = row.runId ∧ s.isLegacyPending old = true
  := by
  obtain ⟨g, hg, hkeep⟩ := h.rows
  rw [hg] at hrow
  obtain ⟨old, hold, rfl⟩ := List.mem_map.mp hrow
  obtain ⟨hrun, hscheduled, htarget, hstatus⟩ := hkeep old
  use old, hold, hrun.symm
  rw [Store.isLegacyPending, hrun] at hlegacy
  obtain ⟨run', hrun', hcond⟩ := (Option.any_eq_true _ _).mp hlegacy
  obtain ⟨run, hrun₀, horigin⟩ := h.origin _ run' hrun'
  rw [Store.isLegacyPending, hrun₀, Option.any_some]
  simp only [hscheduled, htarget, hstatus, Bool.or_eq_true, Bool.and_eq_true,
    decide_eq_true_eq] at hcond ⊢
  rcases hcond with h | h
  · exact .inl h
  · exact .inr ⟨⟨h.1.1, horigin h.1.2⟩, h.2⟩

/-- The rows of `s'` come from rows of `s` with the same hash and expiry. -/
def KeepsExpiry (s s' : Store) : Prop :=
  ∀ row ∈ s'.pendingTxs, ∃ old ∈ s.pendingTxs, old.txid = row.txid
    ∧ old.expiryHeight = row.expiryHeight

theorem keepsExpiry_updatePendingTxs {t : Store} {p : PendingTx → Bool} {f : PendingTx → PendingTx}
    (h : KeepsExpiry s t) (hf : ∀ row, (f row).txid = row.txid
      ∧ (f row).expiryHeight = row.expiryHeight) :
  KeepsExpiry s (t.updatePendingTxs p f)
  := by
  intro row hrow
  obtain ⟨old, hold, rfl⟩ := mem_updateWhere.mp hrow
  obtain ⟨first, hfirst, htxid, hexpiry⟩ := h old hold
  use first, hfirst
  split
  · rw [(hf old).1, (hf old).2]
    exact ⟨htxid, hexpiry⟩
  · exact ⟨htxid, hexpiry⟩

/-- The backfill of a pending transaction writes the phase of its run when the signature
does not cover the recovered broadcast height. -/
theorem backfillPendingRow_evolves {t t' : Store} {row : PendingTx} (hunique : s.TxidsUnique)
    (hrow : row ∈ s.pendingTxs) (hkeeps : KeepsExpiry s t) (hphase : l.rephase row.runId)
    (h : backfillPendingRow row t = .ok t') :
  Evolves l t t' ∧ KeepsExpiry s t'
  := by
  rw [backfillPendingRow] at h
  split at h
  · cases h
    exact ⟨Evolves.refl, hkeeps⟩
  · rename_i run hrun
    split at h
    · cases h
      exact ⟨Evolves.refl, hkeeps⟩
    · obtain ⟨recovered, hrecovered, h⟩ := bind_eq_ok.mp h
      split at h
      · rename_i scheduledHeight
        obtain rfl := pure_eq_ok.mp h
        constructor
        · refine Evolves.trans (evolves_updatePendingTxs ?_) (evolves_updateRuns_of_keep
            ?_ ?_ ?_ ?_)
          · intro other hother hsel
            simp only [Bool.and_eq_true, decide_eq_true_eq] at hsel
            refine ⟨rfl, rfl, fun _ => rfl, fun _ => rfl, fun _ => .inr (.inl ?_)⟩
            use scheduledHeight, rfl
            obtain ⟨old, hold, htxid, hexpiry⟩ := hkeeps other hother
            rw [hunique.eq hold hrow (htxid.trans hsel.2)] at hexpiry
            dsimp only
            rw [← hexpiry]
            rw [recoveredPendingHeight] at hrecovered
            split at hrecovered
            · cases hrecovered
            · split at hrecovered
              · cases hrecovered
              · obtain ⟨expiry, hcanonical, hrecovered⟩ := bind_eq_ok.mp hrecovered
                rw [pure_eq_ok] at hrecovered
                split at hrecovered
                · cases hrecovered
                · rename_i hsame
                  rw [ne_eq, not_not] at hsame
                  cases hrecovered
                  rw [hcanonical, hsame]
          all_goals simp
        · apply keepsExpiry_updatePendingTxs hkeeps
          simp
      · obtain rfl := pure_eq_ok.mp h
        constructor
        · apply Evolves.trans _ (requestSignatures_evolves hphase)
          apply evolves_updatePendingTxs
          intro other _ _
          refine ⟨rfl, rfl, fun _ => rfl, id, fun h => ?_⟩
          cases h
        · apply keepsExpiry_updatePendingTxs hkeeps
          simp

theorem backfillLegacyPendingScheduleMetadata_evolves (hunique : s.TxidsUnique)
    (hphase : ∀ row ∈ s.pendingTxs, s.isLegacyPending row = true → l.rephase row.runId) :
  Evolves l s s.backfillLegacyPendingScheduleMetadata.1
  := by
  have hkeeps : KeepsExpiry s s := fun row hrow => ⟨row, hrow, rfl, rfl⟩
  have hstep : ∀ f ∈ s.legacyPendingTxs.map backfillPendingRow, ∀ t t', f t = .ok t' →
      KeepsExpiry s t → Evolves l t t' ∧ KeepsExpiry s t' := by
    intro f hf t t' hstep hkeeps
    obtain ⟨row, hrow, rfl⟩ := List.mem_map.mp hf
    rw [legacyPendingTxs, List.mem_insertionSort, List.mem_filter] at hrow
    apply backfillPendingRow_evolves hunique hrow.1 hkeeps (hphase row hrow.1 hrow.2) hstep
  have hloop := commitAll_rel (s := s)
    (R := fun t t' => KeepsExpiry s t → Evolves l t t' ∧ KeepsExpiry s t')
    (fun _ h => ⟨Evolves.refl, h⟩)
    (fun h h' hkeeps => ⟨(h hkeeps).1.trans (h' (h hkeeps).2).1, (h' (h hkeeps).2).2⟩) hstep
  apply (hloop hkeeps).1

theorem backfillOriginalPendingScheduleHeights_evolves :
  Evolves l s s.backfillOriginalPendingScheduleHeights
  := by
  apply evolves_updatePendingTxs
  intro row _ _
  exact ⟨rfl, rfl, fun _ => rfl, id, fun h => .inl ⟨h, rfl, rfl⟩⟩

theorem backfillScheduleStartHeights_evolves :
  Evolves l s s.backfillScheduleStartHeights
  := by
  apply evolves_updatePendingTxs
  intro row _ _
  exact ⟨rfl, rfl, fun _ => rfl, fun _ => rfl, fun h => .inl ⟨h, rfl, rfl⟩⟩

/-- The backfills write the phases of runs with rows that have no broadcast height. -/
theorem ensureRows_evolves (hruns : s.RunsUnique) (htxids : s.TxidsUnique)
    (hchildren : ∀ run ∈ s.runs, run.schedule ≠ [] → s.legacyChildren run ≠ [] →
      l.rephase run.runId)
    (hpending : ∀ row ∈ s.pendingTxs, s.isLegacyPending row = true → l.rephase row.runId) :
  Evolves l s s.ensureRows.1
  := by
  have hparts : Evolves l s s.backfillPendingPartIndices := backfillPendingPartIndices_evolves
  have hsame : ∀ run, s.backfillPendingPartIndices.legacyChildren run = s.legacyChildren run := by
    intro run
    apply legacyChildren_congr
    rw [childrenOf, childrenOf, backfillPendingPartIndices_keeps.2]
  have hsigned : Evolves l s
      s.backfillPendingPartIndices.backfillLegacySignedScheduleMetadata.1 := by
    apply hparts.trans
    apply backfillLegacySignedScheduleMetadata_evolves (hparts.runsUnique hruns)
    intro run hrun hschedule hlegacy
    rw [backfillPendingPartIndices_keeps.1] at hrun
    rw [hsame] at hlegacy
    apply hchildren run hrun hschedule hlegacy
  have hcompletes : s.Completes
      s.backfillPendingPartIndices.backfillLegacySignedScheduleMetadata.1 :=
    completes_backfillPendingPartIndices.trans completes_backfillLegacySignedScheduleMetadata
  have hschedules : Evolves l
      s.backfillPendingPartIndices.backfillLegacySignedScheduleMetadata.1
      s.backfillPendingPartIndices.backfillLegacySignedScheduleMetadata.1.backfillLegacyPendingScheduleMetadata.1
      := by
    apply backfillLegacyPendingScheduleMetadata_evolves (hsigned.txidsUnique htxids)
    intro row hrow hlegacy
    obtain ⟨old, hold, hrun, hlegacy⟩ := hcompletes.isLegacyPending hrow hlegacy
    rw [← hrun]
    apply hpending old hold hlegacy
  unfold ensureRows
  apply andThen_rel (R := Evolves l) Evolves.trans
  · apply andThen_rel (R := Evolves l) Evolves.trans hsigned hschedules
  · dsimp only
    split
    · apply backfillOriginalPendingScheduleHeights_evolves.trans
      apply backfillScheduleStartHeights_evolves
    · apply backfillOriginalPendingScheduleHeights_evolves

end Store

end Vizor
