import Vizor.Store.Placing

/-!
# Signed children that are not promoted

A signed child is promoted to a pending transaction that spends its note, for its part.  The
parts of a run are counted by the notes, and the proofs are made by the parts, so the two
must agree.  They do as long as every part keeps its note, which the backfill of the parts
of old transactions does not see to when it falls back to their values.
-/

namespace Vizor

open Table Run

/-- The transaction is for the part of the child exactly when it spends its note. -/
def SamePart (child : SignedChild) (row : PendingTx) : Prop :=
  row.partIndex = some child.childIndex ↔ row.selectedOutpoint = child.selectedNote.outpoint

instance (child : SignedChild) (row : PendingTx) : Decidable (SamePart child row) :=
  inferInstanceAs (Decidable (_ ↔ _))

namespace Store

/-! ### The two definitions -/

/-- Whether no pending transaction of its run spends the note of a signed child. -/
def isUnpromotedByOutpoint (s : Store) (child : SignedChild) : Bool :=
  child.selectedNote.outpoint ∉ s.pendingMigrationNoteOutpoints child.runId

/-- Whether no pending transaction of its run is for the part of a signed child. -/
def isUnpromotedByPart (s : Store) (child : SignedChild) : Bool :=
  (s.pendingOf child.runId).all fun row => row.partIndex ≠ some child.childIndex

/-- The signed children of a run without a pending transaction for their part, in the order
of their parts. -/
def unpromotedSignedChildren (s : Store) (r : RunId) : List SignedChild :=
  ((s.childrenOf r).filter s.isUnpromotedByPart).insertionSort fun a b =>
    a.childIndex < b.childIndex ∨ a.childIndex = b.childIndex ∧ a.messageId ≤ b.messageId

/-- Check a signed child before it is proved. -/
def loadSignedChild (child : SignedChild) : Except String (SignedChild × Nat) := do
  let scheduledHeight ← okOr child.scheduledHeight
    s!"Signed migration child {child.messageId} requires fresh signatures"
  let canonicalExpiry ← zip318CanonicalMigrationExpiryHeight scheduledHeight
  ensure (child.expiryHeight = canonicalExpiry)
    s!"Signed migration child {child.messageId} expiry is not canonical for scheduled height {scheduledHeight}"
  return (child, scheduledHeight)

/-- The signed children of a run that are to be proved, with their broadcast heights. -/
def signedChildPcztsForRun (s : Store) (r : RunId) : Except String (List (SignedChild × Nat)) :=
  (s.unpromotedSignedChildren r).mapM loadSignedChild

/-- The notes and anchors of the signed children of a run that are to be proved. -/
def signedChildProofCandidatesForRun (s : Store) (r : RunId) :
    List (PreparedOrchardNoteRef × Option Nat) :=
  (s.unpromotedSignedChildren r).map fun child => (child.selectedNote, child.anchorBoundaryHeight)

variable {s s' : Store} {r : RunId}

/-! ### The invariant -/

/-- The pending transactions with a part agree with the signed children of their runs. -/
def PartsMatched (s : Store) : Prop :=
  ∀ child ∈ s.signedChildren, ∀ row ∈ s.pendingTxs, row.runId = child.runId →
    row.partIndex.isSome → SamePart child row

instance (s : Store) : Decidable s.PartsMatched :=
  inferInstanceAs (Decidable (∀ child ∈ s.signedChildren, ∀ row ∈ s.pendingTxs, _ → _ → _))

/-- Every pending transaction has a part, and agrees with the signed children of its run. -/
structure Matched (s : Store) : Prop where
  assigned : ∀ row ∈ s.pendingTxs, row.partIndex.isSome
  samePart : ∀ child ∈ s.signedChildren, ∀ row ∈ s.pendingTxs, row.runId = child.runId →
    SamePart child row

theorem Matched.partsMatched (h : s.Matched) :
  s.PartsMatched
  := fun child hchild row hrow hid _ => h.samePart child hchild row hrow hid

/-- Where the transactions agree with the children, the two definitions do. -/
theorem Matched.isUnpromoted_eq (h : s.Matched) {child : SignedChild}
    (hchild : child ∈ s.signedChildren) :
  s.isUnpromotedByOutpoint child = s.isUnpromotedByPart child
  := by
  have hiff : (∃ row ∈ s.pendingOf child.runId, row.selectedOutpoint = child.selectedNote.outpoint)
      ↔ ∃ row ∈ s.pendingOf child.runId, row.partIndex = some child.childIndex := by
    apply exists_congr
    intro row
    apply and_congr_right
    intro hrow
    obtain ⟨hmem, hid⟩ := List.mem_filter.mp hrow
    rw [decide_eq_true_eq] at hid
    apply (h.samePart child hchild row hmem hid).symm
  rw [Bool.eq_iff_iff]
  simp only [isUnpromotedByOutpoint, isUnpromotedByPart, pendingMigrationNoteOutpoints,
    decide_eq_true_eq, List.mem_map, List.all_eq_true]
  rw [hiff]
  simp

/-! ### Operations that keep the parts -/

/-- The columns of a signed child that say which part of which run spends which note. -/
def partOfChild (child : SignedChild) : RunId × Nat × OutPoint :=
  (child.runId, child.childIndex, child.selectedNote.outpoint)

/-- The columns of a pending transaction that say which part of which run spends which
note. -/
def partOfRow (row : PendingTx) : RunId × Option Nat × OutPoint :=
  (row.runId, row.partIndex, row.selectedOutpoint)

/-- The parts of `s'` and their notes are parts of `s`. -/
structure PartsFrom (s s' : Store) : Prop where
  children : s'.signedChildren.map partOfChild ⊆ s.signedChildren.map partOfChild
  rows : s'.pendingTxs.map partOfRow ⊆ s.pendingTxs.map partOfRow

theorem PartsFrom.refl : PartsFrom s s
  := ⟨List.Subset.refl _, List.Subset.refl _⟩

theorem PartsFrom.trans {s s' s'' : Store} (h : PartsFrom s s') (h' : PartsFrom s' s'') :
  PartsFrom s s''
  := ⟨List.Subset.trans h'.children h.children, List.Subset.trans h'.rows h.rows⟩

theorem partsFrom_of_eq (hchildren : s'.signedChildren = s.signedChildren)
    (hpending : s'.pendingTxs = s.pendingTxs) :
  PartsFrom s s'
  := by
  constructor
  · rw [hchildren]
    apply List.Subset.refl
  · rw [hpending]
    apply List.Subset.refl

theorem PartsFrom.updateRuns (h : PartsFrom s s') {p : MigrationRun → Bool}
    {f : MigrationRun → MigrationRun} :
  PartsFrom s (s'.updateRuns p f)
  := h.trans (partsFrom_of_eq rfl rfl)

theorem partsFrom_updatePendingTxs {p : PendingTx → Bool} {f : PendingTx → PendingTx}
    (hf : ∀ row, partOfRow (f row) = partOfRow row) :
  PartsFrom s (s.updatePendingTxs p f)
  := by
  constructor
  · apply List.Subset.refl
  · have hsame : (s.updatePendingTxs p f).pendingTxs.map partOfRow
        = s.pendingTxs.map partOfRow := map_updateWhere fun row _ _ => hf row
    rw [hsame]
    apply List.Subset.refl

theorem partsFrom_updateSignedChildren {p : SignedChild → Bool} {f : SignedChild → SignedChild}
    (hf : ∀ child, partOfChild (f child) = partOfChild child) :
  PartsFrom s (s.updateSignedChildren p f)
  := by
  constructor
  · have hsame : (s.updateSignedChildren p f).signedChildren.map partOfChild
        = s.signedChildren.map partOfChild := map_updateWhere fun child _ _ => hf child
    rw [hsame]
    apply List.Subset.refl
  · apply List.Subset.refl

theorem partsFrom_deleteSignedChildren {p : SignedChild → Bool} :
  PartsFrom s (s.deleteSignedChildren p)
  := by
  constructor
  · apply map_deleteWhere_sublist.subset
  · apply List.Subset.refl

theorem SignedFrom.partsFrom (h : SignedFrom s s') :
  PartsFrom s s'
  := by
  constructor
  · apply List.map_subset _ h.children
  · intro part hpart
    obtain ⟨row', hrow', rfl⟩ := List.mem_map.mp hpart
    obtain ⟨row, hrow, hsame⟩ := h.exists_row hrow'
    simp only [PendingTx.signedPart, Prod.mk.injEq] at hsame
    apply List.mem_map.mpr
    use row, hrow
    rw [partOfRow, partOfRow, hsame.1, hsame.2.1, hsame.2.2.1]

theorem Rebased.partsFrom (h : Rebased r s s') (hpending : s'.pendingTxs = s.pendingTxs) :
  PartsFrom s s'
  := by
  obtain ⟨-, run, newOrigin, -, -, -, g, hg, hmoved⟩ := h
  constructor
  · rw [hg, List.map_map, List.map_congr_left (g := partOfChild)]
    · apply List.Subset.refl
    · intro child hchild
      rw [Function.comp_apply]
      rcases hmoved child hchild with ⟨-, hsame⟩ | ⟨-, offset, -, hsame⟩
      · rw [hsame]
      · rw [hsame]
        rfl
  · rw [hpending]
    apply List.Subset.refl

/-- Parts that were there before still agree. -/
theorem Matched.of_partsFrom (h : s.Matched) (hfrom : PartsFrom s s') :
  s'.Matched
  := by
  have hrowFrom : ∀ row' ∈ s'.pendingTxs, ∃ row ∈ s.pendingTxs, partOfRow row = partOfRow row' :=
    fun row' hrow' => List.mem_map.mp (hfrom.rows (List.mem_map_of_mem hrow'))
  constructor
  · intro row' hrow'
    obtain ⟨row, hrow, hsame⟩ := hrowFrom row' hrow'
    simp only [partOfRow, Prod.mk.injEq] at hsame
    rw [← hsame.2.1]
    apply h.assigned row hrow
  · intro child' hchild' row' hrow' hid
    obtain ⟨row, hrow, hrowSame⟩ := hrowFrom row' hrow'
    obtain ⟨child, hchild, hchildSame⟩ :=
      List.mem_map.mp (hfrom.children (List.mem_map_of_mem hchild'))
    simp only [partOfRow, Prod.mk.injEq] at hrowSame
    simp only [partOfChild, Prod.mk.injEq] at hchildSame
    have hold : SamePart child row := by
      apply h.samePart child hchild row hrow
      rw [hrowSame.1, hchildSame.1, hid]
    unfold SamePart at hold ⊢
    rwa [← hrowSame.2.1, ← hrowSame.2.2, ← hchildSame.2.1, ← hchildSame.2.2]

/-! ### Backfills -/

/-- Every transaction without a part, in a run with signed children, spends the note of one
of them, which no other transaction of the run spends; and the signed children of the run
are for distinct parts and notes. -/
def PartsRecoverable (s : Store) : Prop :=
  ∀ row ∈ s.pendingTxs, row.partIndex = none → s.childrenOf row.runId ≠ [] →
    (∃ child ∈ s.childrenOf row.runId, child.selectedNote.outpoint = row.selectedOutpoint)
    ∧ (∀ other ∈ s.pendingOf row.runId, other.selectedOutpoint = row.selectedOutpoint →
      other.txid = row.txid)
    ∧ ∀ a ∈ s.childrenOf row.runId, ∀ b ∈ s.childrenOf row.runId,
      a.childIndex = b.childIndex ↔ a.selectedNote.outpoint = b.selectedNote.outpoint

instance (s : Store) : Decidable s.PartsRecoverable :=
  inferInstanceAs (Decidable (∀ row ∈ s.pendingTxs, _ → _ → _))

/-- The progress of the backfill of the parts of `s`, with the transactions that are left. -/
structure PartsBackfilled (s : Store) (left : List PendingTx) (t : Store) : Prop where
  children : t.signedChildren = s.signedChildren
  txids : t.TxidsUnique
  rows : ∀ row' ∈ t.pendingTxs, ∃ row ∈ s.pendingTxs, row.runId = row'.runId
    ∧ row.txid = row'.txid ∧ row.selectedOutpoint = row'.selectedOutpoint
  matched : t.PartsMatched
  unassigned : ∀ row' ∈ t.pendingTxs, row'.partIndex = none →
    ∃ row ∈ left, row.runId = row'.runId ∧ row.txid = row'.txid

/-- A transaction gets the part of the child whose note it spends. -/
theorem PartsBackfilled.recoveredPartIndex {row : PendingTx} {left : List PendingTx} {t : Store}
    (h : PartsBackfilled s left t) (hrow : row ∈ s.pendingTxs)
    (hnone : row.partIndex = none) (hrecoverable : s.PartsRecoverable) {row' : PendingTx}
    (hrow' : row' ∈ t.pendingTxs) (hnone' : row'.partIndex = none) (htxid : row'.txid = row.txid)
    {child : SignedChild} (hchild : child ∈ s.childrenOf row.runId) :
  t.recoveredPartIndex row = child.childIndex
    ↔ row.selectedOutpoint = child.selectedNote.outpoint
  := by
  obtain ⟨⟨mine, hmine, hnote⟩, hspent, hdistinct⟩ := hrecoverable row hrow hnone
    (List.ne_nil_of_mem hchild)
  have hsame : t.childrenOf row.runId = s.childrenOf row.runId := by
    unfold childrenOf
    rw [h.children]
  have hunused : mine.childIndex ∉ t.usedPartIndexes row.runId := by
    intro hused
    obtain ⟨holder, hholder, hpart⟩ := List.mem_filterMap.mp hused
    obtain ⟨hholderMem, hholderId⟩ := List.mem_filter.mp hholder
    rw [decide_eq_true_eq] at hholderId
    rw [← hsame] at hmine
    obtain ⟨hmineMem, hmineId⟩ := List.mem_filter.mp hmine
    rw [decide_eq_true_eq] at hmineId
    have hagree : SamePart mine holder := by
      apply h.matched mine hmineMem holder hholderMem (hholderId.trans hmineId.symm)
      rw [hpart]
      rfl
    have hholderNote := hagree.mp hpart
    obtain ⟨old, hold, holdRun, holdTxid, holdNote⟩ := h.rows holder hholderMem
    have hsameTxid : old.txid = row.txid := by
      apply hspent old
      · apply List.mem_filter.mpr
        exact ⟨hold, by simpa using holdRun.trans hholderId⟩
      · rw [holdNote, hholderNote, hnote]
    have hholderRow : holder = row' := by
      apply h.txids.eq hholderMem hrow'
      rw [← holdTxid, hsameTxid, htxid]
    rw [hholderRow, hnone'] at hpart
    cases hpart
  have hfound : ∃ found ∈ s.childrenOf row.runId,
      found.selectedNote.outpoint = row.selectedOutpoint
        ∧ t.recoveredPartIndex row = found.childIndex := by
    have hmem : mine ∈ ((t.childrenOf row.runId).insertionSort
        fun a b => a.childIndex ≤ b.childIndex).filter fun child =>
          child.selectedNote.outpoint = row.selectedOutpoint
            && child.childIndex ∉ t.usedPartIndexes row.runId := by
      rw [List.mem_filter, List.mem_insertionSort, hsame]
      exact ⟨hmine, by simp [hnote, hunused]⟩
    obtain ⟨found, hfound⟩ := Option.isSome_iff_exists.mp
      (List.isSome_head?.mpr (List.ne_nil_of_mem hmem))
    have hfoundMem := List.mem_of_head? hfound
    rw [List.mem_filter, List.mem_insertionSort, hsame] at hfoundMem
    simp only [Bool.and_eq_true, decide_eq_true_eq] at hfoundMem
    refine ⟨found, hfoundMem.1, hfoundMem.2.1, ?_⟩
    rw [Store.recoveredPartIndex, partIndexOfChild, hfound]
    rfl
  obtain ⟨found, hfoundMem, hfoundNote, hindex⟩ := hfound
  rw [hindex, ← hfoundNote]
  apply hdistinct found hfoundMem child hchild

/-- One step of the backfill of the parts. -/
theorem PartsBackfilled.step {row : PendingTx} {left : List PendingTx} {t : Store}
    (h : PartsBackfilled s (row :: left) t) (htxids : s.TxidsUnique)
    (hrow : row ∈ s.pendingTxs) (hnone : row.partIndex = none)
    (hrecoverable : s.PartsRecoverable) :
  PartsBackfilled s left (t.backfillPartIndex row)
  := by
  set f : PendingTx → PendingTx := fun other =>
    if (decide (other.runId = row.runId) && decide (other.txid = row.txid)
        && other.partIndex.isNone) = true then
      { other with partIndex := some (t.recoveredPartIndex row) } else other with hf
  have hpending : (t.backfillPartIndex row).pendingTxs = t.pendingTxs.map f := rfl
  have hkeep : ∀ other, (f other).runId = other.runId ∧ (f other).txid = other.txid
      ∧ (f other).selectedOutpoint = other.selectedOutpoint := by
    intro other
    rw [hf]
    dsimp only
    split <;> exact ⟨rfl, rfl, rfl⟩
  constructor
  · apply h.children
  · unfold TxidsUnique
    rw [hpending, List.map_map, List.map_congr_left (g := (·.txid))]
    · apply h.txids
    · intro other _
      apply (hkeep other).2.1
  · intro row' hrow'
    rw [hpending] at hrow'
    obtain ⟨other, hother, rfl⟩ := List.mem_map.mp hrow'
    obtain ⟨hrun, htxid, hnote⟩ := hkeep other
    rw [hrun, htxid, hnote]
    apply h.rows other hother
  · intro child hchild row' hrow' hid hassigned
    rw [hpending] at hrow'
    obtain ⟨other, hother, rfl⟩ := List.mem_map.mp hrow'
    by_cases hselected : (decide (other.runId = row.runId) && decide (other.txid = row.txid)
        && other.partIndex.isNone) = true
    · have hmoved : f other = { other with partIndex := some (t.recoveredPartIndex row) } := by
        rw [hf]
        dsimp only
        rw [if_pos hselected]
      simp only [Bool.and_eq_true, decide_eq_true_eq, Option.isNone_iff_eq_none] at hselected
      have hchildMem : child ∈ s.childrenOf row.runId := by
        rw [(hkeep other).1] at hid
        have hmem : child ∈ s.signedChildren := by
          rw [← h.children]
          apply hchild
        apply List.mem_filter.mpr ⟨hmem, by simpa using hid.symm.trans hselected.1.1⟩
      obtain ⟨old, hold, -, holdTxid, holdNote⟩ := h.rows other hother
      have hrecovered := h.recoveredPartIndex hrow hnone hrecoverable hother hselected.2
        hselected.1.2 hchildMem
      have hnote : other.selectedOutpoint = row.selectedOutpoint := by
        rw [← holdNote, htxids.eq hold hrow (holdTxid.trans hselected.1.2)]
      unfold SamePart
      rw [(hkeep other).2.2, hnote, ← hrecovered, hmoved]
      apply Option.some_inj
    · have hsame : f other = other := by
        rw [hf]
        dsimp only
        rw [if_neg hselected]
      rw [hsame] at hid hassigned ⊢
      apply h.matched child hchild other hother hid hassigned
  · intro row' hrow' hnone'
    rw [hpending] at hrow'
    obtain ⟨other, hother, rfl⟩ := List.mem_map.mp hrow'
    by_cases hselected : (decide (other.runId = row.runId) && decide (other.txid = row.txid)
        && other.partIndex.isNone) = true
    · rw [hf] at hnone'
      dsimp only at hnone'
      rw [if_pos hselected] at hnone'
      cases hnone'
    · have hsame : f other = other := by
        rw [hf]
        dsimp only
        rw [if_neg hselected]
      rw [hsame] at hnone' ⊢
      obtain ⟨first, hfirst, hrun, htxid⟩ := h.unassigned other hother hnone'
      rcases List.mem_cons.mp hfirst with rfl | hfirst
      · exfalso
        apply hselected
        simp [hrun, htxid, hnone']
      · exact ⟨first, hfirst, hrun, htxid⟩

/-- After the backfill of the parts the transactions agree with the signed children. -/
theorem backfillPendingPartIndices_matched (htxids : s.TxidsUnique) (h : s.PartsMatched)
    (hrecoverable : s.PartsRecoverable) :
  s.backfillPendingPartIndices.Matched
  := by
  have hloop : ∀ (rows : List PendingTx) (t : Store), (∀ row ∈ rows, row ∈ s.pendingTxs
      ∧ row.partIndex = none) → PartsBackfilled s rows t →
      PartsBackfilled s [] (rows.foldl backfillPartIndex t) := by
    intro rows
    induction rows with
    | nil => exact fun _ _ h => h
    | cons row rows ih =>
      intro t hrows ht
      rw [List.foldl_cons]
      obtain ⟨hrow, hnone⟩ := hrows row List.mem_cons_self
      apply ih
      · intro other hother
        apply hrows other (List.mem_cons_of_mem _ hother)
      · apply ht.step htxids hrow hnone hrecoverable
  have hends : PartsBackfilled s [] s.backfillPendingPartIndices := by
    apply hloop
    · intro row hrow
      rw [List.mem_insertionSort, List.mem_filter, Option.isNone_iff_eq_none] at hrow
      apply hrow
    · refine ⟨rfl, htxids, fun row hrow => ⟨row, hrow, rfl, rfl, rfl⟩, h, fun row hrow hnone => ?_⟩
      refine ⟨row, ?_, rfl, rfl⟩
      rw [List.mem_insertionSort, List.mem_filter, Option.isNone_iff_eq_none]
      exact ⟨hrow, hnone⟩
  have hassigned : ∀ row ∈ s.backfillPendingPartIndices.pendingTxs, row.partIndex.isSome := by
    intro row hrow
    rw [← Option.ne_none_iff_isSome]
    intro hnone
    obtain ⟨_, hmem, -⟩ := hends.unassigned row hrow hnone
    cases hmem
  constructor
  · apply hassigned
  · intro child hchild row hrow hid
    apply hends.matched child hchild row hrow hid (hassigned row hrow)

theorem backfillSignedRun_partsFrom {run : MigrationRun} :
  PartsFrom s (s.backfillSignedRun run).1
  := by
  apply backfillSignedRun_invariant _ _ PartsFrom.refl
  · intro child acc acc' hacc hstep
    obtain ⟨height, -, hstep⟩ := bind_eq_ok.mp hstep
    split at hstep
    · obtain rfl := pure_eq_ok.mp hstep
      apply hacc
    · obtain rfl := pure_eq_ok.mp hstep
      apply hacc.trans
      apply partsFrom_updateSignedChildren
      intro child
      rfl
  · intro acc hacc
    apply finishSignedBackfill_invariant _ _ _ hacc
    · intro t origin ht
      apply ht.trans
      exact partsFrom_of_eq rfl rfl
    · intro t child ht
      apply ht.trans
      unfold discardInvalidChild
      split
      · apply PartsFrom.refl
      · apply partsFrom_deleteSignedChildren
    · intro t message ht
      apply ht.trans
      exact partsFrom_of_eq rfl rfl

theorem backfillLegacySignedScheduleMetadata_partsFrom :
  PartsFrom s s.backfillLegacySignedScheduleMetadata.1
  := by
  unfold backfillLegacySignedScheduleMetadata
  suffices hloop : ∀ (runs : List MigrationRun) (p : Store × Option String), PartsFrom s p.1 →
      PartsFrom s (runs.foldl (fun p run => andThen p fun s => s.backfillSignedRun run) p).1 from
    hloop s.runs (s, none) PartsFrom.refl
  intro runs
  induction runs with
  | nil => exact fun _ h => h
  | cons run runs ih =>
    intro p hp
    apply ih
    apply andThen_rel (R := PartsFrom) PartsFrom.trans hp backfillSignedRun_partsFrom

theorem backfillLegacyPendingScheduleMetadata_partsFrom :
  PartsFrom s s.backfillLegacyPendingScheduleMetadata.1
  := by
  apply commitAll_rel (R := PartsFrom) (fun _ => PartsFrom.refl) PartsFrom.trans
  intro f hf t t' hstep
  obtain ⟨row, -, rfl⟩ := List.mem_map.mp hf
  rw [backfillPendingRow] at hstep
  split at hstep
  · cases hstep
    apply PartsFrom.refl
  · split at hstep
    · cases hstep
      apply PartsFrom.refl
    · obtain ⟨recovered, -, hstep⟩ := bind_eq_ok.mp hstep
      split at hstep
      · obtain rfl := pure_eq_ok.mp hstep
        apply PartsFrom.updateRuns
        apply partsFrom_updatePendingTxs
        intro other
        rfl
      · obtain rfl := pure_eq_ok.mp hstep
        apply PartsFrom.updateRuns
        apply partsFrom_updatePendingTxs
        intro other
        rfl

/-- The backfills keep the parts once they are assigned. -/
theorem ensureRows_matched (htxids : s.TxidsUnique) (h : s.PartsMatched)
    (hrecoverable : s.PartsRecoverable) :
  s.ensureRows.1.Matched
  := by
  apply (backfillPendingPartIndices_matched htxids h hrecoverable).of_partsFrom
  unfold ensureRows
  apply andThen_rel (R := PartsFrom) PartsFrom.trans
  · apply andThen_rel (R := PartsFrom) PartsFrom.trans
    · apply backfillLegacySignedScheduleMetadata_partsFrom
    · apply backfillLegacyPendingScheduleMetadata_partsFrom
  · have horiginal : ∀ t : Store, PartsFrom t t.backfillOriginalPendingScheduleHeights := by
      intro t
      apply partsFrom_updatePendingTxs
      intro row
      rfl
    dsimp only
    split
    · apply (horiginal _).trans
      apply partsFrom_updatePendingTxs
      intro row
      rfl
    · apply horiginal

/-! ### Operations that sign -/

/-- What keeps the notes of the parts: new signed children and new transactions have the
notes that their parts have in the run already, a replacement is for the same part, the
identifier of a new run is fresh, and the parts of old transactions are recoverable when the
store is opened. -/
def Identifies (s : Store) : Op → Prop
  | .createRunWithStagedDenominationsAndSignedChildren new _ _ _ _ =>
    ∀ row ∈ s.pendingTxs, row.runId ≠ new.runId
  | .finalizePrivateMigrationDraft r _ _ _ _ signedChildren _
  | .persistSignedChildPcztsForRun r signedChildren =>
    ∀ child ∈ signedChildren, ∀ row ∈ s.pendingOf r, SamePart (signedChildRow r child) row
  | .insertPendingTxs r pendingTxs _ | .promoteSignedChildPcztsToPendingTxs r pendingTxs _ _ _ =>
    ∀ pending ∈ pendingTxs, ∀ child ∈ s.childrenOf r, pending.partIndex = child.childIndex
      ↔ pending.selectedNote.outpoint = child.selectedNote.outpoint
  | .replaceResignedPendingParts r replacements signedChildren =>
    (∀ replacement ∈ replacements, ∀ old ∈ s.pendingTxs, old.runId = r →
      old.txid = replacement.oldTxid → old.partIndex = some replacement.replacement.partIndex)
    ∧ ∀ child ∈ signedChildren, ∀ row ∈ s.pendingOf r, SamePart (signedChildRow r child) row
  | .ensureSchema => s.PartsRecoverable
  | _ => True

instance (s : Store) (op : Op) : Decidable (s.Identifies op) := by
  cases op <;> unfold Identifies <;> infer_instance

/-- New signed children agree with the transactions when those of the input do. -/
theorem Matched.of_children (children : List SignedMigrationPcztInsert) (h : s.Matched)
    (hpending : s'.pendingTxs = s.pendingTxs)
    (hchildren : ∀ child ∈ s'.signedChildren, child ∈ s.signedChildren
      ∨ ∃ new ∈ children, child = signedChildRow r new)
    (hnew : ∀ new ∈ children, ∀ row ∈ s.pendingOf r, SamePart (signedChildRow r new) row) :
  s'.Matched
  := by
  constructor
  · rw [hpending]
    apply h.assigned
  · intro child hchild row hrow hid
    rw [hpending] at hrow
    rcases hchildren child hchild with hchild | ⟨new, hmem, rfl⟩
    · apply h.samePart child hchild row hrow hid
    · apply hnew new hmem row
      apply List.mem_filter.mpr
      refine ⟨hrow, ?_⟩
      rw [decide_eq_true_eq]
      apply hid

/-- New transactions agree with the signed children when those of the input do. -/
theorem Matched.insertPendingTxsWithTx {pendingTxs : List PendingMigrationTxInsert}
    {generated : List MigrationScheduleEntry} (h : s.Matched) (hunique : s.RunsUnique)
    (hnew : ∀ pending ∈ pendingTxs, ∀ child ∈ s.childrenOf r, pending.partIndex = child.childIndex
      ↔ pending.selectedNote.outpoint = child.selectedNote.outpoint)
    (hinsert : s.insertPendingTxsWithTx r pendingTxs generated = .ok s') :
  s'.Matched
  := by
  obtain ⟨run, schedule, origin', hrun, -, -, hchildren, -, hrows⟩ :=
    insertPendingTxsWithTx_spec hunique hinsert
  obtain ⟨-, hrunId⟩ := hunique.run?_eq_some.mp hrun
  constructor
  · intro row hrow
    rcases hrows row hrow with hrow | ⟨pending, -, origin, hplaces, -⟩
    · apply h.assigned row hrow
    · rw [hplaces.partIndex]
      rfl
  · intro child hchild row hrow hid
    rw [hchildren] at hchild
    rcases hrows row hrow with hrow | ⟨pending, hpending, origin, hplaces, -⟩
    · apply h.samePart child hchild row hrow hid
    · have hsame := hnew pending hpending child (List.mem_filter.mpr
        ⟨hchild, by simpa using (hid.symm.trans (hplaces.runId.trans hrunId))⟩)
      unfold SamePart
      rw [hplaces.partIndex, hplaces.outpoint, Option.some_inj]
      apply hsame

/-- An operation that keeps the notes of the parts keeps the agreement. -/
theorem apply_matched {op : Op} (hkeys : s.Keys) (h : s.Matched) (hop : s.Identifies op)
    (happly : s.apply op = .ok s') :
  s'.Matched
  := by
  by_cases hsigns : op.signs = false
  · apply h.of_partsFrom (apply_signedFrom hsigns happly).partsFrom
  · cases op with
    | createRunWithStagedDenominationsAndSignedChildren new notes children stages schedule =>
      replace happly : s.createRunWithStagedDenominationsAndSignedChildren new notes children
        stages schedule = .ok s' := happly
      obtain ⟨-, -, u, hu, happly⟩ := createRun_eq_ok happly
      obtain ⟨-, hpending, hchildren⟩ := insertDenominationStages_keeps hu
      obtain ⟨hpending', hnew⟩ := insertSignedChildPczts_children happly
      apply h.of_children (r := new.runId) children
      · rw [hpending', hpending]
        rfl
      · rw [hchildren] at hnew
        apply hnew
      · intro child _ row hrow
        obtain ⟨hmem, hid⟩ := List.mem_filter.mp hrow
        exact absurd (of_decide_eq_true hid) (hop row hmem)
    | createOrResumePrivateMigrationDraft new schedule =>
      obtain ⟨_, hdraft⟩ := map_fst_eq_ok happly
      rw [createOrResumePrivateMigrationDraft] at hdraft
      apply h.of_partsFrom
      split at hdraft
      · split at hdraft
        · simp only [bind_eq_ok, pure_eq_ok, Prod.mk.injEq] at hdraft
          obtain ⟨_, -, rfl, -⟩ := hdraft
          apply PartsFrom.refl
        · cases hdraft
      · simp only [insertRun, bind_eq_ok, pure_eq_ok, Prod.mk.injEq] at hdraft
        obtain ⟨_, -, _, -, t, ⟨_, -, rfl⟩, rfl, -⟩ := hdraft
        exact partsFrom_of_eq rfl rfl
    | finalizePrivateMigrationDraft r account network targets notes children stages =>
      obtain ⟨_, -, happly⟩ := bind_eq_ok.mp (show s.finalizePrivateMigrationDraft r account
        network targets notes children stages = .ok s' from happly)
      obtain ⟨_, -, happly⟩ := bind_eq_ok.mp happly
      obtain ⟨_, -, happly⟩ := bind_eq_ok.mp happly
      obtain ⟨_, -, happly⟩ := bind_eq_ok.mp happly
      obtain ⟨t, ht, happly⟩ := bind_eq_ok.mp happly
      obtain ⟨u, hu, happly⟩ := bind_eq_ok.mp happly
      obtain rfl := pure_eq_ok.mp happly
      obtain ⟨-, hpending, hchildren⟩ := insertDenominationStages_keeps ht
      obtain ⟨hpending', hnew⟩ := insertSignedChildPczts_children hu
      apply h.of_children (r := r) children _ _ hop
      · apply hpending'.trans hpending
      · rw [hchildren] at hnew
        apply hnew
    | persistSignedChildPcztsForRun r children =>
      obtain ⟨_, -, happly⟩ := bind_eq_ok.mp
        (show s.persistSignedChildPcztsForRun r children = .ok s' from happly)
      obtain ⟨t, ht, happly⟩ := bind_eq_ok.mp happly
      obtain ⟨_, -, happly⟩ := bind_eq_ok.mp happly
      obtain rfl := pure_eq_ok.mp happly
      obtain ⟨hpending, hnew⟩ := insertSignedChildPczts_children ht
      exact h.of_children children hpending hnew hop
    | adoptTimingPolicyForActiveRun account network policy generated =>
      cases happly
      apply h.of_partsFrom
      rw [adoptTimingPolicyForActiveRun]
      split
      · apply PartsFrom.refl
      · split
        · apply PartsFrom.refl
        · split
          · apply PartsFrom.refl
          · split
            · apply PartsFrom.refl
            · exact partsFrom_of_eq rfl rfl
    | insertPendingTxs r pendingTxs generated =>
      replace happly : s.insertPendingTxs r pendingTxs generated = .ok s' := happly
      rw [insertPendingTxs] at happly
      split at happly
      · cases happly
        apply h
      · apply h.insertPendingTxsWithTx hkeys.runs hop happly
    | promoteSignedChildPcztsToPendingTxs r pendingTxs scanned retry generated =>
      replace happly : s.promoteSignedChildPcztsToPendingTxs r pendingTxs scanned retry generated
        = .ok s' := happly
      rw [promoteSignedChildPcztsToPendingTxs] at happly
      split at happly
      · cases happly
        apply h
      · obtain ⟨_, -, happly⟩ := bind_eq_ok.mp happly
        obtain ⟨_, -, happly⟩ := bind_eq_ok.mp happly
        obtain ⟨⟨t, applied⟩, ht, happly⟩ := bind_eq_ok.mp happly
        obtain ⟨refreshed, hrefreshed, happly⟩ := bind_eq_ok.mp happly
        obtain ⟨u, hu, happly⟩ := bind_eq_ok.mp happly
        obtain rfl := pure_eq_ok.mp happly
        obtain ⟨hpending, hrebase⟩ := rebaseInitial_spec hkeys.runs ht
        have hfrom : PartsFrom s t := by
          rcases hrebase with hrebase | hrebase
          · apply hrebase.partsFrom
          · apply hrebase.partsFrom hpending
        have huMatched : u.Matched := by
          have hkeysT : t.RunsUnique :=
            (rebaseInitial_evolves (l := Licence.none) ht).runsUnique hkeys.runs
          apply (h.of_partsFrom hfrom).insertPendingTxsWithTx hkeysT _ hu
          obtain ⟨g, rfl, hg⟩ := exists_map_of_mapM_eq_ok hrefreshed
          intro pending hpendingMem child' hchild'
          obtain ⟨old, hold, rfl⟩ := List.mem_map.mp hpendingMem
          obtain ⟨hchildMem, hchildId⟩ := List.mem_filter.mp hchild'
          obtain ⟨child, hchild, hsame⟩ :=
            List.mem_map.mp (hfrom.children (List.mem_map_of_mem hchildMem))
          simp only [partOfChild, Prod.mk.injEq] at hsame
          have hkeep : (g old).partIndex = old.partIndex
              ∧ (g old).selectedNote = old.selectedNote := by
            have hrefresh := hg old hold
            simp only [refreshScheduledHeight, bind_eq_ok, pure_eq_ok] at hrefresh
            obtain ⟨_, -, _, -, hrefresh⟩ := hrefresh
            rw [← hrefresh]
            exact ⟨rfl, rfl⟩
          rw [hkeep.1, hkeep.2, ← hsame.2.1, ← hsame.2.2]
          apply hop old hold child
          apply List.mem_filter.mpr
          refine ⟨hchild, ?_⟩
          rw [hsame.1]
          apply hchildId
        exact huMatched.of_partsFrom (partsFrom_of_eq rfl rfl)
    | replaceResignedPendingParts r replacements children =>
      obtain ⟨hsame, hnew⟩ := hop
      obtain ⟨-, hchildren, hrows⟩ := replaceResignedPendingParts_spec happly
      have hfrom : ∀ row' ∈ s'.pendingTxs, ∃ row ∈ s.pendingTxs,
          partOfRow row = partOfRow row' := by
        intro row' hrow'
        rcases hrows row' hrow' with hrow | ⟨replacement, hreplacement, old, hold, hid, htxid,
          hrun, hpart, hnote, -⟩
        · exact ⟨row', hrow, rfl⟩
        · refine ⟨old, hold, ?_⟩
          rw [partOfRow, partOfRow, hid, hrun, hpart, hnote,
            hsame replacement hreplacement old hold hid htxid]
      constructor
      · intro row' hrow'
        obtain ⟨row, hrow, hpart⟩ := hfrom row' hrow'
        simp only [partOfRow, Prod.mk.injEq] at hpart
        rw [← hpart.2.1]
        apply h.assigned row hrow
      · intro child hchild row' hrow' hid
        obtain ⟨row, hrow, hpart⟩ := hfrom row' hrow'
        simp only [partOfRow, Prod.mk.injEq] at hpart
        have hold : SamePart child row := by
          rcases hchildren child hchild with hchild | ⟨new, hmem, rfl⟩
          · apply h.samePart child hchild row hrow
            rw [hpart.1, hid]
          · apply hnew new hmem row
            apply List.mem_filter.mpr
            refine ⟨hrow, ?_⟩
            rw [hpart.1, hid]
            simp [signedChildRow]
        unfold SamePart at hold ⊢
        rwa [← hpart.2.1, ← hpart.2.2]
    | ensureSchema =>
      cases happly
      apply ensureRows_matched hkeys.txids h.partsMatched hop
    | _ => exact absurd rfl hsigns

/-! ### Runs of the store -/

theorem step_matched {op : Op} (hkeys : s.Keys) (h : s.Matched) (hop : s.Identifies op) :
  (s.step op).Matched
  := by
  unfold step committed
  split
  · apply apply_matched hkeys h hop ‹_›
  · apply h

/-- From any store that is opened, along every run whose operations keep the notes of the
parts, a signed child has no pending transaction that spends its note exactly when it has
none for its part. -/
theorem isUnpromoted_agree {s : Store} {ops : List Op} (hkeys : s.Keys) (hparts : s.PartsMatched)
    (hops : Along step Identifies s (.ensureSchema :: ops)) :
  ∀ child ∈ (after step s (.ensureSchema :: ops)).signedChildren,
    (after step s (.ensureSchema :: ops)).isUnpromotedByOutpoint child
      = (after step s (.ensureSchema :: ops)).isUnpromotedByPart child
  := by
  obtain ⟨hopen, hrest⟩ := hops
  have hopened : (s.step .ensureSchema).Matched := ensureRows_matched hkeys.txids hparts hopen
  have hends := Run.invariant (I := fun t : Store => t.Keys ∧ t.Matched)
    (fun t op ht hop => ⟨ht.1.step, step_matched ht.1 ht.2 hop⟩) ⟨hkeys.step, hopened⟩ hrest
  intro child hchild
  apply hends.2.isUnpromoted_eq hchild

/-- A run of two parts of equal value, from before parts had indexes. -/
def sampleEqualParts : MigrationRun where
  runId := 1
  accountUuid := 1
  network := .test
  phase := .broadcastScheduled
  createdAtMs := 1
  targetValues := [100, 100]
  schedule := []
  timingPolicy := .standard
  preparationTimingPolicy := .immediate

/-- The signed child of a part of the run. -/
def sampleEqualChild (childIndex : Nat) (note : Txid) : SignedChild where
  runId := 1
  messageId := childIndex
  childIndex := childIndex
  targetHeight := 1
  anchorBoundaryHeight := none
  expiryHeight := 69120
  scheduledHeight := none
  valueZatoshi := 100
  feeZatoshi := 1
  selectedNote := ⟨note, 0, 101, 2, none⟩

/-- The transaction of a part of the run, which was stored without the part. -/
def sampleEqualPending (txid note : Txid) : PendingTx where
  runId := 1
  txid := txid
  partIndex := none
  targetHeight := 1
  anchorBoundaryHeight := none
  expiryHeight := 69120
  valueZatoshi := 100
  feeZatoshi := 1
  selectedNoteTxid := note
  selectedNoteOutputIndex := 0
  selectedNoteValue := 101
  scheduleStartHeight := none
  scheduledHeight := some 20
  originalScheduledHeight := none
  status := .scheduled

/-- Both children are kept, and the second part has a transaction. -/
def sampleKeptChildren : Store where
  runs := [sampleEqualParts]
  signedChildren := [sampleEqualChild 0 11, sampleEqualChild 1 22]
  pendingTxs := [sampleEqualPending 51 22]

/-- The child of the second part, which has a transaction, was removed. -/
def sampleRemovedChild : Store where
  runs := [sampleEqualParts]
  signedChildren := [sampleEqualChild 0 11]
  pendingTxs := [sampleEqualPending 51 22]

/-- The transaction of the second part gets it back from its child. -/
theorem isUnpromoted_agree_kept :
  (after step sampleKeptChildren [.ensureSchema,
      .markPendingBroadcasted 1 51]).signedChildren ≠ []
    ∧ ∀ child ∈ (after step sampleKeptChildren [.ensureSchema,
        .markPendingBroadcasted 1 51]).signedChildren,
      (after step sampleKeptChildren [.ensureSchema,
          .markPendingBroadcasted 1 51]).isUnpromotedByOutpoint child
        = (after step sampleKeptChildren [.ensureSchema,
          .markPendingBroadcasted 1 51]).isUnpromotedByPart child
  := ⟨by decide +kernel, @isUnpromoted_agree sampleKeptChildren [.markPendingBroadcasted 1 51]
    ⟨by unfold RunsUnique; decide +kernel, by unfold TxidsUnique; decide +kernel⟩
    (by decide +kernel) (by decide +kernel)⟩

/-- The transaction of the second part gets the first one: the first child counts as not
promoted, but it is never proved. -/
theorem isUnpromoted_disagree :
  ∃ child ∈ (after step sampleRemovedChild [.ensureSchema]).signedChildren,
    (after step sampleRemovedChild [.ensureSchema]).isUnpromotedByOutpoint child = true
      ∧ (after step sampleRemovedChild [.ensureSchema]).isUnpromotedByPart child = false
  := by
  use sampleEqualChild 0 11
  decide +kernel

end Store

end Vizor
