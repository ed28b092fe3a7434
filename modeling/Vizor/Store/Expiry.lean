import Vizor.Store.Operation

/-!
# Expiry heights

Every operation pairs the broadcast height of a transaction with the expiry height that its
signature covers, but for the demotion of a confirmed transaction that left the chain, which
writes a broadcast height alone.  Along the runs whose demotions stay in the window of the
expiry height, the checks of the query for due transactions and of the outbox succeed.
-/

namespace Vizor

open Run Table

namespace Store

theorem toOption_eq_some {x : Except String Nat} {n : Nat} :
  x.toOption = some n ↔ x = .ok n
  := by
  cases x <;> simp [Except.toOption]

theorem canonical_iff {row : PendingTx} :
  row.Canonical ↔ row.scheduledHeight.any (fun height =>
    (zip318CanonicalMigrationExpiryHeight height).toOption = some row.expiryHeight) = true
  := by
  rw [Option.any_eq_true]
  unfold PendingTx.Canonical
  simp only [toOption_eq_some, decide_eq_true_eq]

instance (row : PendingTx) : Decidable row.Canonical :=
  decidable_of_iff _ canonical_iff.symm

/-- Every pending transaction has a part and a start of its schedule, and the scheduled ones
expire at the canonical height. -/
structure Timed (row : PendingTx) : Prop where
  partIndex : row.partIndex.isSome
  scheduleStartHeight : row.scheduleStartHeight.isSome
  canonical : row.status = .scheduled → row.Canonical

/-- The transactions that an operation demotes stay in the window of their expiry. -/
def DemotesInWindow (s : Store) (op : Op) : Prop :=
  ∀ row, (s.licence op).demote row →
    zip318CanonicalMigrationExpiryHeight row.targetHeight = .ok row.expiryHeight

variable {l : Licence} {s s' : Store}

/-- An update keeps the pairing of the heights. -/
theorem Timed.touched {row row' : PendingTx} (h : Timed row) (htouched : row.Touched l row')
    (hdemote : l.demote row →
      zip318CanonicalMigrationExpiryHeight row.targetHeight = .ok row.expiryHeight) :
  Timed row'
  := by
  constructor
  · rw [htouched.partIndex h.partIndex]
    apply h.partIndex
  · apply htouched.scheduleStartHeight h.scheduleStartHeight
  · intro hstatus
    rcases htouched.scheduled hstatus with ⟨hold, hheight, hexpiry⟩ | hcanonical | hdemoted
    · obtain ⟨height, hscheduled, hcanonical⟩ := h.canonical hold
      use height
      rw [hheight, hexpiry]
      exact ⟨hscheduled, hcanonical⟩
    · apply hcanonical
    · obtain ⟨hlicence, hheight, hexpiry⟩ := hdemoted
      use row.targetHeight
      rw [hexpiry]
      exact ⟨hheight, hdemote hlicence⟩

theorem Timed.fresh {row : PendingTx} (h : row.Fresh) : Timed row
  := ⟨h.partIndex, h.scheduleStartHeight, fun _ => h.canonical⟩

/-- Every statement keeps the pairing of the heights. -/
theorem Change.timed (hchange : Change l s s')
    (hdemote : ∀ row, l.demote row →
      zip318CanonicalMigrationExpiryHeight row.targetHeight = .ok row.expiryHeight)
    (h : ∀ row ∈ s.pendingTxs, Timed row) :
  ∀ row ∈ s'.pendingTxs, Timed row
  := by
  cases hchange with
  | runs f _ hpending _ => rwa [hpending]
  | pending f _ hpending hf =>
    intro row hrow
    rw [hpending] at hrow
    obtain ⟨old, hold, rfl⟩ := List.mem_map.mp hrow
    apply (h old hold).touched (hf old hold) (hdemote old)
  | discard p _ hpending =>
    intro row hrow
    rw [hpending] at hrow
    apply h row (mem_deleteWhere.mp hrow).1
  | insert new _ hpending hfresh _ _ =>
    intro row hrow
    rw [hpending, List.mem_append, List.mem_singleton] at hrow
    rcases hrow with hrow | rfl
    · apply h row hrow
    · apply Timed.fresh hfresh
  | replace old new p _ hpending _ _ hfresh _ _ =>
    intro row hrow
    rw [hpending, List.mem_append, List.mem_singleton] at hrow
    rcases hrow with hrow | rfl
    · apply h row (mem_deleteWhere.mp hrow).1
    · apply Timed.fresh hfresh
  | create run _ hpending _ _ _ => rwa [hpending]
  | drop p _ hpending _ => rwa [hpending]

/-- Along runs whose demotions stay in the window, the heights stay paired. -/
theorem timed_of_demotesInWindow {ops : List Op} (hops : Along step DemotesInWindow {} ops) :
  ∀ row ∈ (after step {} ops).pendingTxs, Timed row
  := by
  apply run_invariant (I := fun s => ∀ row ∈ s.pendingTxs, Timed row) _ keys_empty _ hops
  · intro s op _ hop t t' _ hchange ht
    apply hchange.timed hop ht
  · simp

/-! ### The checks -/

variable {r : RunId} {view : ChainView}

/-- The query for due transactions accepts transactions with paired heights. -/
theorem firstDue_eq_ok {rows : List PendingTx} (h : ∀ row ∈ rows, row.Canonical) :
  ∃ due, firstDue view rows = .ok due
  := by
  induction rows with
  | nil => exact ⟨[], rfl⟩
  | cons row rows ih =>
    rw [firstDue]
    split
    · apply ih
      intro other hother
      apply h other (List.mem_cons_of_mem _ hother)
    · obtain ⟨height, hscheduled, hcanonical⟩ := h row List.mem_cons_self
      use [row.txid]
      simp only [bind_eq_ok, okOr_eq_ok, ensure_eq_ok, pure_eq_ok, and_true]
      exact ⟨height, hscheduled, row.expiryHeight, hcanonical, (), rfl⟩

theorem firstDue_dueRows_eq_ok (h : ∀ row ∈ s.pendingTxs, Timed row) (view : ChainView)
    (r : RunId) (chainTipHeight : Nat) :
  ∃ due, firstDue view (s.dueRows r chainTipHeight) = .ok due
  := by
  apply firstDue_eq_ok
  intro row hrow
  simp only [dueRows, List.mem_insertionSort, pendingOf, List.mem_filter, Bool.and_eq_true,
    decide_eq_true_eq] at hrow
  apply (h row hrow.1.1).canonical hrow.2.1

/-- The outbox accepts a scheduled transaction with paired heights and an anchor. -/
theorem exportItem_eq_ok {row : PendingTx} (h : Timed row) (hstatus : row.status = .scheduled)
    (hanchor : row.anchorBoundaryHeight.isSome) :
  ∃ item, exportItem row = .ok item
  := by
  obtain ⟨height, hscheduled, hcanonical⟩ := h.canonical hstatus
  obtain ⟨partIndex, hpart⟩ := Option.isSome_iff_exists.mp h.partIndex
  obtain ⟨anchor, hanchor⟩ := Option.isSome_iff_exists.mp hanchor
  obtain ⟨start, hstart⟩ := Option.isSome_iff_exists.mp h.scheduleStartHeight
  use ⟨partIndex, row.txid, anchor, height, start, row.expiryHeight⟩
  simp only [exportItem, bind_eq_ok, okOr_eq_ok, ensure_eq_ok, pure_eq_ok]
  exact ⟨height, hscheduled, partIndex, hpart, anchor, hanchor, start, hstart, (),
    lt_of_canonicalExpiry hcanonical, row.expiryHeight, hcanonical, (), rfl, rfl⟩

theorem exportItems_eq_ok (h : ∀ row ∈ s.pendingTxs, Timed row)
    (hanchor : ∀ row ∈ s.pendingOf r, row.status = .scheduled →
      row.anchorBoundaryHeight.isSome) :
  ∃ items, s.exportItems r = .ok items
  := by
  apply exists_mapM_eq_ok
  intro row hrow
  rw [List.mem_insertionSort, List.mem_filter, decide_eq_true_eq] at hrow
  have hmem := (List.mem_filter.mp hrow.1).1
  apply exportItem_eq_ok (h row hmem) hrow.2 (hanchor row hrow.1 hrow.2)

/-- In every run from the empty store whose demotions stay in the window of the expiry
height, every scheduled transaction expires at the canonical height of its broadcast height,
the query for due transactions accepts every due row after its reconciliation, and the
outbox exports the transactions that have an anchor. -/
theorem scheduled_canonical {ops : List Op} (hops : Along step DemotesInWindow {} ops) :
  (∀ row ∈ (after step {} ops).pendingTxs, row.status = .scheduled → row.Canonical)
    ∧ (∀ view r chainTipHeight s',
      (after step {} ops).reconcileRunConfirmations view r = .ok s' →
      (after step {} ops).DemotesInWindow (.reconcileRunConfirmations view r) →
      ∃ due, (after step {} ops).duePendingTxs view r chainTipHeight = .ok (s', due))
    ∧ ∀ r, (∀ row ∈ (after step {} ops).pendingOf r, row.status = .scheduled →
        row.anchorBoundaryHeight.isSome) →
      ∃ items, (after step {} ops).exportItems r = .ok items
  := by
  have htimed := timed_of_demotesInWindow hops
  refine ⟨fun row hrow => (htimed row hrow).canonical, ?_, fun r => exportItems_eq_ok htimed⟩
  intro view r chainTipHeight s' hs' hdemote
  have hstep : (after step {} ops).step (.reconcileRunConfirmations view r) = s' := by
    rw [step, apply, hs']
    rfl
  have hops' : Along step DemotesInWindow {} (ops ++ [.reconcileRunConfirmations view r]) := by
    rw [along_append]
    exact ⟨hops, hdemote, trivial⟩
  have htimed' := timed_of_demotesInWindow hops'
  rw [after_append, after_cons, after_nil, hstep] at htimed'
  obtain ⟨due, hdue⟩ := firstDue_dueRows_eq_ok htimed' view r chainTipHeight
  use due
  rw [duePendingTxs, bind_eq_ok]
  use s', hs'
  rw [bind_eq_ok]
  exact ⟨due, hdue, rfl⟩

/-! ### A demotion out of the window -/

/-- A chain of which `mined` was scanned, at heights with `confirmations` confirmations. -/
def sampleView (mined : List (Txid × LocalTransactionChainIdentity)) (confirmations : Nat) :
    ChainView where
  localDenominationChainIdentity txid := (mined.find? fun tx => tx.1 = txid).map (·.2)
  syncedOrchardConfirmationCount _ := confirmations
  denominationConfirmationsRequired := 10
  localTransactionRaw _ := true
  noteSpendMetadata _ := none

/-- A prepared note. -/
def sampleNote : PreparedOrchardNoteRef where
  txid := 5
  outputIndex := 0
  valueZatoshi := 110
  noteVersion := 2
  nullifier := none

/-- A run with one part, scheduled 10 blocks after the origin. -/
def sampleRun : NewRun where
  runId := 1
  now := 0
  fastTestnetEnabled := false
  accountUuid := 1
  network := .main
  targetValues := [100]
  preparationTimingPolicy := .immediate

/-- The transaction of the part, with origin 34554: its target height and its broadcast
height are in different expiry windows. -/
def samplePending : PendingMigrationTxInsert where
  partIndex := 0
  txid := 7
  targetHeight := 34555
  anchorBoundaryHeight := some 34416
  expiryHeight := 103680
  scheduledHeight := 34564
  valueZatoshi := 100
  feeZatoshi := 10
  selectedNote := sampleNote

/-- Create the run and add its transaction. -/
def sampleInsertion : List Op := [
  .createRunWithStagedDenominationsAndSignedChildren sampleRun [sampleNote] [] []
    (some [⟨some 0, 100, 10⟩]),
  .insertPendingTxs 1 [samplePending] []]

/-- The transaction has a target height in the window of its expiry; it is broadcast and mined,
and leaves the chain. -/
def sampleReturned : List Op := [
  .createRunWithStagedDenominationsAndSignedChildren sampleRun [sampleNote] [] []
    (some [⟨some 0, 100, 10⟩]),
  .insertPendingTxs 1 [{ samplePending with targetHeight := 34561 }] [],
  .markPendingBroadcasted 1 7,
  .reconcileRunConfirmations (sampleView [(7, ⟨34566, 1⟩)] 1) 1,
  .reconcileRunConfirmations (sampleView [] 1) 1]

/-- The demoted transaction is scheduled at its target height, and expires at the canonical
height. -/
theorem scheduled_canonical_returned :
  (∃ row ∈ (after step {} sampleReturned).pendingTxs, row.status = .scheduled
      ∧ row.scheduledHeight = some row.targetHeight)
    ∧ ∀ row ∈ (after step {} sampleReturned).pendingTxs, row.status = .scheduled → row.Canonical
  := by
  have hmined : ∀ row ∈ (after step {} (sampleReturned.take 3)).pendingTxs,
      zip318CanonicalMigrationExpiryHeight row.targetHeight = .ok row.expiryHeight := by
    decide +kernel
  have hleft : ∀ row ∈ (after step {} (sampleReturned.take 4)).pendingTxs,
      zip318CanonicalMigrationExpiryHeight row.targetHeight = .ok row.expiryHeight := by
    decide +kernel
  have hops : Along step DemotesInWindow {} sampleReturned :=
    ⟨fun _ h => False.elim h, fun _ h => False.elim h, fun _ h => False.elim h,
      fun row h => hmined row h.1, fun row h => hleft row h.1, trivial⟩
  exact ⟨by decide +kernel, (scheduled_canonical hops).1⟩

/-- Create the run, add its transaction and broadcast it. -/
def sampleBroadcast : List Op := sampleInsertion ++ [.markPendingBroadcasted 1 7]

/-- The transaction is mined, and then leaves the chain. -/
def sampleDemotion : List Op := sampleBroadcast ++ [
  .reconcileRunConfirmations (sampleView [(7, ⟨34566, 1⟩)] 1) 1,
  .reconcileRunConfirmations (sampleView [] 1) 1]

/-- The demoted transaction does not expire at the canonical height of its new broadcast
height, and both checks reject it. -/
theorem sampleDemotion_rejected :
  (∃ row ∈ (after step {} sampleDemotion).pendingTxs, row.status = .scheduled
      ∧ ¬row.Canonical)
    ∧ (∀ due, firstDue (sampleView [] 1) ((after step {} sampleDemotion).dueRows 1 34600)
      ≠ .ok due)
    ∧ ∀ items, (after step {} sampleDemotion).exportItems 1 ≠ .ok items
  := by
  refine ⟨by decide +kernel, fun due hdue => ?_, fun items hitems => ?_⟩
  · have hrejected : (firstDue (sampleView [] 1)
        ((after step {} sampleDemotion).dueRows 1 34600)).toOption = none := by decide +kernel
    rw [hdue] at hrejected
    cases hrejected
  · have hrejected : ((after step {} sampleDemotion).exportItems 1).toOption = none := by
      decide +kernel
    rw [hitems] at hrejected
    cases hrejected

end Store

end Vizor
