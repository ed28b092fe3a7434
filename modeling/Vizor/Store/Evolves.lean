import Vizor.Store.Schedule

/-!
# What an operation may do

Every operation of the store is a sequence of statements, and what matters of a statement
to the invariants of the store is what it does to the table of runs and to the table of
pending transactions.  Most changes may be made by every operation; the others need a
licence, which an operation grants itself from its inputs and the state it starts in.
-/

namespace Vizor

open Table

/-! ### Licences -/

/-- The changes that an operation may make besides those that every operation may make. -/
structure Licence where
  /-- Put a confirmed transaction back to scheduled, at its target height. -/
  demote : PendingTx → Prop
  /-- Replace a transaction by another one. -/
  replace : PendingTx → PendingTx → Prop
  /-- Write the phase of a run in a terminal phase. -/
  rephase : RunId → Prop
  /-- Write the phase of a run that failed. -/
  recover : RunId → Prop
  /-- Write the phase of completion. -/
  complete : RunId → Prop
  /-- Write the phase of an account without funds. -/
  unfund : RunId → Prop
  /-- Add a run. -/
  create : RunId → Prop
  /-- Remove a run. -/
  drop : RunId → Prop

/-- The licence that allows nothing. -/
def Licence.none : Licence where
  demote _ := False
  replace _ _ := False
  rephase _ := False
  recover _ := False
  complete _ := False
  unfund _ := False
  create _ := False
  drop _ := False

/-! ### Statements -/

/-- The signature of a transaction covers the canonical expiry of its broadcast height. -/
def PendingTx.Canonical (row : PendingTx) : Prop :=
  ∃ h, row.scheduledHeight = some h
    ∧ zip318CanonicalMigrationExpiryHeight h = .ok row.expiryHeight

/-- What an update may do to a pending transaction. -/
structure PendingTx.Touched (l : Licence) (row row' : PendingTx) : Prop where
  runId : row'.runId = row.runId
  txid : row'.txid = row.txid
  partIndex : row.partIndex.isSome → row'.partIndex = row.partIndex
  scheduleStartHeight : row.scheduleStartHeight.isSome → row'.scheduleStartHeight.isSome
  /-- A scheduled transaction was scheduled in the same way, or its broadcast height is in
  the window of its expiry, or it was demoted. -/
  scheduled : row'.status = .scheduled →
    row.status = .scheduled ∧ row'.scheduledHeight = row.scheduledHeight
        ∧ row'.expiryHeight = row.expiryHeight
      ∨ row'.Canonical
      ∨ l.demote row ∧ row'.scheduledHeight = some row.targetHeight
        ∧ row'.expiryHeight = row.expiryHeight

/-- What an update may do to a run. -/
structure MigrationRun.Touched (l : Licence) (run run' : MigrationRun) : Prop where
  runId : run'.runId = run.runId
  owner : run'.accountUuid = run.accountUuid ∧ run'.network = run.network
  targetValues : run'.targetValues = run.targetValues
  phase : run'.phase = run.phase
    ∨ (run.phase.releasesWalletLocks = false ∨ l.rephase run.runId
        ∨ run.phase = .failedTerminal ∧ l.recover run.runId)
      ∧ (run'.phase = .complete → l.complete run.runId)
      ∧ (run'.phase = .noOrchardFunds → l.unfund run.runId)

/-- What a new pending transaction looks like. -/
structure PendingTx.Fresh (row : PendingTx) : Prop where
  canonical : row.Canonical
  partIndex : row.partIndex.isSome
  scheduleStartHeight : row.scheduleStartHeight.isSome

/-- The keys of `row` are not used by the rows of `t`. -/
def PendingTx.Unused (row : PendingTx) (t : List PendingTx) : Prop :=
  ∀ other ∈ t, other.txid ≠ row.txid
    ∧ ¬(other.runId = row.runId ∧ other.partIndex = row.partIndex)

theorem MigrationRun.Touched.refl {l : Licence} {run : MigrationRun} :
  run.Touched l run
  := ⟨rfl, ⟨rfl, rfl⟩, rfl, .inl rfl⟩

theorem PendingTx.Touched.refl {l : Licence} {row : PendingTx} :
  row.Touched l row
  := ⟨rfl, rfl, fun _ => rfl, id, fun h => .inl ⟨h, rfl, rfl⟩⟩

/-- A status other than scheduled may always be written. -/
theorem PendingTx.touched_of_status {l : Licence} {row : PendingTx} {status : PendingStatus}
    (h : status ≠ .scheduled) :
  row.Touched l { row with status := status }
  := ⟨rfl, rfl, fun _ => rfl, id, fun hs => absurd hs h⟩

namespace Store

/-- One statement, under a licence. -/
inductive Change (l : Licence) : Store → Store → Prop where
  /-- Update the runs. -/
  | runs {s s' : Store} (f : MigrationRun → MigrationRun)
      (hruns : s'.runs = s.runs.map f) (hpending : s'.pendingTxs = s.pendingTxs)
      (hf : ∀ run ∈ s.runs, run.Touched l (f run)) : Change l s s'
  /-- Update the pending transactions. -/
  | pending {s s' : Store} (f : PendingTx → PendingTx)
      (hruns : s'.runs = s.runs) (hpending : s'.pendingTxs = s.pendingTxs.map f)
      (hf : ∀ row ∈ s.pendingTxs, row.Touched l (f row)) : Change l s s'
  /-- Delete pending transactions. -/
  | discard {s s' : Store} (p : PendingTx → Bool)
      (hruns : s'.runs = s.runs) (hpending : s'.pendingTxs = deleteWhere p s.pendingTxs) :
      Change l s s'
  /-- Add a pending transaction for a planned part. -/
  | insert {s s' : Store} (row : PendingTx)
      (hruns : s'.runs = s.runs) (hpending : s'.pendingTxs = s.pendingTxs ++ [row])
      (hfresh : row.Fresh) (hunused : row.Unused s.pendingTxs)
      (hplanned : ∃ run, s.run? row.runId = some run
        ∧ ∀ i, row.partIndex = some i → i < run.targetValues.length) : Change l s s'
  /-- Replace a pending transaction. -/
  | replace {s s' : Store} (old row : PendingTx) (p : PendingTx → Bool)
      (hruns : s'.runs = s.runs)
      (hpending : s'.pendingTxs = deleteWhere p s.pendingTxs ++ [row])
      (hold : old ∈ s.pendingTxs) (hrun : row.runId = old.runId)
      (hfresh : row.Fresh) (hunused : row.Unused (deleteWhere p s.pendingTxs))
      (hlicence : l.replace old row) : Change l s s'
  /-- Add a run. -/
  | create {s s' : Store} (run : MigrationRun)
      (hruns : s'.runs = s.runs ++ [run]) (hpending : s'.pendingTxs = s.pendingTxs)
      (hunused : ∀ other ∈ s.runs, other.runId ≠ run.runId)
      (hphase : run.phase ≠ .complete) (hlicence : l.create run.runId) : Change l s s'
  /-- Remove runs. -/
  | drop {s s' : Store} (p : MigrationRun → Bool)
      (hruns : s'.runs = deleteWhere p s.runs) (hpending : s'.pendingTxs = s.pendingTxs)
      (hlicence : ∀ run ∈ s.runs, p run = true → l.drop run.runId) : Change l s s'

/-- A sequence of statements, under a licence. -/
def Evolves (l : Licence) : Store → Store → Prop :=
  Relation.ReflTransGen (Change l)

variable {l : Licence} {s s' s'' : Store}

/-! ### Sequences of statements -/

theorem Evolves.refl :
  Evolves l s s
  := Relation.ReflTransGen.refl

theorem Evolves.trans (h : Evolves l s s') (h' : Evolves l s' s'') :
  Evolves l s s''
  := Relation.ReflTransGen.trans h h'

theorem Change.evolves (h : Change l s s') :
  Evolves l s s'
  := Relation.ReflTransGen.single h

/-- What every statement preserves is preserved by sequences of statements. -/
theorem Evolves.invariant {I : Store → Prop} (hI : ∀ s s', Change l s s' → I s → I s')
    (h : Evolves l s s') (hs : I s) :
  I s'
  := by
  induction h with
  | refl => exact hs
  | tail _ hchange ih => apply hI _ _ hchange ih

/-- Statements on the other tables are no change. -/
theorem evolves_of_eq (hruns : s'.runs = s.runs) (hpending : s'.pendingTxs = s.pendingTxs) :
  Evolves l s s'
  := by
  apply Change.evolves
  apply Change.discard (fun _ => false) hruns
  rw [hpending, deleteWhere_eq_self]
  simp

/-! ### The statements of the operations -/

theorem evolves_updateRuns {p : MigrationRun → Bool} {f : MigrationRun → MigrationRun}
    (hf : ∀ run ∈ s.runs, p run = true → run.Touched l (f run)) :
  Evolves l s (s.updateRuns p f)
  := by
  apply Change.evolves
  apply Change.runs fun run => if p run then f run else run
  · rfl
  · rfl
  · intro run hrun
    by_cases hp : p run
    · simpa [hp] using hf run hrun hp
    · simpa [hp] using MigrationRun.Touched.refl

theorem evolves_updatePendingTxs {p : PendingTx → Bool} {f : PendingTx → PendingTx}
    (hf : ∀ row ∈ s.pendingTxs, p row = true → row.Touched l (f row)) :
  Evolves l s (s.updatePendingTxs p f)
  := by
  apply Change.evolves
  apply Change.pending fun row => if p row then f row else row
  · rfl
  · rfl
  · intro row hrow
    by_cases hp : p row
    · simpa [hp] using hf row hrow hp
    · simpa [hp] using PendingTx.Touched.refl

theorem evolves_deletePendingTxs {p : PendingTx → Bool} :
  Evolves l s (s.deletePendingTxs p)
  := Change.evolves (Change.discard p rfl rfl)

/-- An update that only looks at other columns of the runs. -/
theorem evolves_updateRuns_of_keep {p : MigrationRun → Bool} {f : MigrationRun → MigrationRun}
    (hid : ∀ run, (f run).runId = run.runId)
    (howner : ∀ run, (f run).accountUuid = run.accountUuid ∧ (f run).network = run.network)
    (htargets : ∀ run, (f run).targetValues = run.targetValues)
    (hphase : ∀ run, (f run).phase = run.phase) :
  Evolves l s (s.updateRuns p f)
  := by
  apply evolves_updateRuns
  intro run _ _
  exact ⟨hid run, howner run, htargets run, .inl (hphase run)⟩

/-- A loop whose steps are sequences of statements is one. -/
theorem evolves_foldlM {α : Type} {f : Store → α → Except String Store} {xs : List α}
    (hf : ∀ s s', ∀ x ∈ xs, f s x = .ok s' → Evolves l s s') (h : xs.foldlM f s = .ok s') :
  Evolves l s s'
  := Run.foldlM_rel (fun _ => Evolves.refl) Evolves.trans hf h

end Store

end Vizor
