import Vizor.Store.Expiry

/-!
# When the wallet opens

A wallet that was closed for long may open with many overdue transactions, in several runs
of several accounts.  It submits one of them and reschedules all others, one run after the
other, to heights after the tip.  The new heights are drawn in random order, so the order in
which the overdue parts of a run are released is not kept.
-/

namespace Vizor

open Table Run

namespace Store

/-! ### Rescheduling the wallet -/

/-- Whether a transaction belongs to a run of the network. -/
def ofNetwork (s : Store) (network : WalletNetwork) (row : PendingTx) : Bool :=
  s.runs.any fun run => run.runId = row.runId && run.network = network

/-- The runs of a network with an overdue transaction, in order. -/
def overdueRunIds (s : Store) (network : WalletNetwork) (chainTipHeight : Nat) : List RunId :=
  (((s.pendingTxs.filter fun row => row.status = .scheduled
      && row.scheduledHeight.any (fun h => h ≤ chainTipHeight)
      && s.ofNetwork network row).map (·.runId)).dedup).insertionSort (· ≤ ·)

/-- The excluded transaction, if it is one of the run. -/
def excludedTxid (excluded : Option (RunId × Txid)) (r : RunId) : Option Txid :=
  excluded.bind fun (excludedRunId, txid) => if r = excludedRunId then some txid else none

/-- Move the overdue transactions of all runs of a network to heights after the tip, except
for an excluded one.  The runs are committed one by one. -/
def rescheduleWalletOverduePendingTxsWithExclusion (s : Store) (network : WalletNetwork)
    (chainTipHeight : Nat) (excluded : Option (RunId × Txid)) (offsets : Txid → Nat) :
    Store × Option String :=
  commitAll ((s.overdueRunIds network chainTipHeight).map fun r s =>
    s.rescheduleOverduePendingTxs r chainTipHeight 1 (excludedTxid excluded r) offsets) s

/-- Move all overdue transactions of a network. -/
def rescheduleWalletOverduePendingTxs (s : Store) (network : WalletNetwork)
    (chainTipHeight : Nat) (offsets : Txid → Nat) : Store × Option String :=
  s.rescheduleWalletOverduePendingTxsWithExclusion network chainTipHeight none offsets

/-- Move the overdue transactions of a network except for one that was accepted. -/
def rescheduleWalletOverduePendingTxsAfterAccepted (s : Store) (network : WalletNetwork)
    (chainTipHeight : Nat) (acceptedRunId : RunId) (acceptedTxid : Txid)
    (offsets : Txid → Nat) : Store × Option String :=
  s.rescheduleWalletOverduePendingTxsWithExclusion network chainTipHeight
    (some (acceptedRunId, acceptedTxid)) offsets

/-! ### What becomes of a transaction -/

variable {s s' : Store} {network : WalletNetwork} {chainTipHeight : Nat}
  {excluded : Option (RunId × Txid)} {offsets : Txid → Nat} {r : RunId}
  {row row' row'' : PendingTx}

/-- A transaction that is to be released at once: it is scheduled, its height has passed and
it is not the excluded one. -/
def Releasable (chainTipHeight : Nat) (excluded : Option (RunId × Txid)) (row : PendingTx) :
    Prop :=
  row.status = .scheduled ∧ (∃ height, row.scheduledHeight = some height
    ∧ height ≤ chainTipHeight) ∧ excluded ≠ some (row.runId, row.txid)

/-- A transaction that was rescheduled from the tip: it needs a new signature, or it has a
height after the tip for which its expiry height is the canonical one. -/
inductive Redrawn (chainTipHeight : Nat) (row : PendingTx) : PendingTx → Prop
  | needsResign : Redrawn chainTipHeight row { row with status := .needsResign }
  | moved (height : Nat) (hlater : chainTipHeight < height)
      (hcanonical : zip318CanonicalMigrationExpiryHeight height = .ok row.expiryHeight) :
      Redrawn chainTipHeight row { row with
        scheduledHeight := some height
        scheduleStartHeight := some chainTipHeight }

/-- A transaction is left as it is, or it was releasable and is rescheduled. -/
def Settled (chainTipHeight : Nat) (excluded : Option (RunId × Txid)) (row row' : PendingTx) :
    Prop :=
  row' = row ∨ Releasable chainTipHeight excluded row ∧ Redrawn chainTipHeight row row'

/-- The overdue transactions of a run are the releasable ones. -/
theorem isOverdue_iff :
  isOverdue r chainTipHeight (excludedTxid excluded r) row = true
    ↔ row.runId = r ∧ Releasable chainTipHeight excluded row
  := by
  have hexcluded : row.runId = r →
      (excludedTxid excluded r ≠ some row.txid ↔ excluded ≠ some (row.runId, row.txid)) := by
    rintro rfl
    rcases excluded with - | ⟨r', txid⟩
    · simp [excludedTxid]
    · by_cases hr : row.runId = r'
      · simp [excludedTxid, hr]
      · simp [excludedTxid, hr, Ne.symm hr]
  simp only [isOverdue, Releasable, Bool.and_eq_true, decide_eq_true_eq, Option.any_eq_true]
  constructor
  · rintro ⟨⟨⟨hrun, hstatus⟩, hheight⟩, hne⟩
    exact ⟨hrun, hstatus, hheight, (hexcluded hrun).mp hne⟩
  · rintro ⟨hrun, hstatus, hheight, hne⟩
    exact ⟨⟨⟨hrun, hstatus⟩, hheight⟩, (hexcluded hrun).mpr hne⟩

theorem redrawn_of_rescheduledRow
    (h : rescheduledRow chainTipHeight 1 offsets row = .ok row') :
  Redrawn chainTipHeight row row'
  := by
  obtain ⟨height, hheight, h⟩ := bind_eq_ok.mp h
  obtain ⟨expiry, hexpiry, h⟩ := bind_eq_ok.mp h
  obtain rfl := pure_eq_ok.mp h
  split
  · apply Redrawn.needsResign
  · rename_i hcanonical
    rw [ne_eq, not_not] at hcanonical
    apply Redrawn.moved
    · rw [rescheduledHeight, okOr_eq_ok, checkedAdd32] at hheight
      split at hheight
      · cases hheight
        omega
      · cases hheight
    · rw [hexpiry, hcanonical]

/-- A rescheduled transaction is not released at once. -/
theorem Redrawn.not_releasable (h : Redrawn chainTipHeight row row') :
  ¬Releasable chainTipHeight excluded row'
  := by
  rintro ⟨hstatus, ⟨height, hheight, hle⟩, -⟩
  cases h with
  | needsResign => cases hstatus
  | moved later hlater _ =>
    cases hheight
    omega

/-- A transaction is rescheduled at most once. -/
theorem Settled.trans (h : Settled chainTipHeight excluded row row')
    (h' : Settled chainTipHeight excluded row' row'') :
  Settled chainTipHeight excluded row row''
  := by
  obtain rfl | ⟨hreleasable, hredrawn⟩ := h
  · apply h'
  · obtain rfl | ⟨hreleasable', -⟩ := h'
    · exact .inr ⟨hreleasable, hredrawn⟩
    · exact absurd hreleasable' hredrawn.not_releasable

/-! ### The runs one after the other -/

/-- Every transaction is settled, and the runs belong to their networks. -/
def SettledRows (chainTipHeight : Nat) (excluded : Option (RunId × Txid)) (s s' : Store) :
    Prop :=
  s.keepsOwners s' ∧ List.Forall₂ (Settled chainTipHeight excluded) s.pendingTxs s'.pendingTxs

/-- A transaction of the table after it comes from one of the table before. -/
theorem SettledRows.exists_row (h : SettledRows chainTipHeight excluded s s')
    (hrow : row' ∈ s'.pendingTxs) :
  ∃ row ∈ s.pendingTxs, Settled chainTipHeight excluded row row'
  := by
  obtain ⟨-, h⟩ := h
  revert h hrow
  generalize s.pendingTxs = rows
  generalize s'.pendingTxs = rows'
  intro hrow h
  induction h with
  | nil => cases hrow
  | cons hfirst _ ih =>
    rcases List.mem_cons.mp hrow with rfl | hrow
    · exact ⟨_, List.mem_cons_self, hfirst⟩
    · obtain ⟨row, hmem, hsettled⟩ := ih hrow
      exact ⟨row, List.mem_cons_of_mem _ hmem, hsettled⟩

theorem SettledRows.refl :
  SettledRows chainTipHeight excluded s s
  := by
  constructor
  · intro _ _
    rfl
  · apply List.forall₂_same.mpr
    intro row _
    exact .inl rfl

theorem SettledRows.trans {s s' s'' : Store} (h : SettledRows chainTipHeight excluded s s')
    (h' : SettledRows chainTipHeight excluded s' s'') :
  SettledRows chainTipHeight excluded s s''
  := by
  constructor
  · intro r network
    rw [h'.1 r network, h.1 r network]
  · have htrans : ∀ {rows rows' rows'' : List PendingTx},
        List.Forall₂ (Settled chainTipHeight excluded) rows rows' →
        List.Forall₂ (Settled chainTipHeight excluded) rows' rows'' →
        List.Forall₂ (Settled chainTipHeight excluded) rows rows'' := by
      intro rows rows' rows'' hrows
      induction hrows generalizing rows'' with
      | nil => exact id
      | cons hrow _ ih =>
        rintro (- | ⟨hrow', hrows'⟩)
        exact .cons (hrow.trans hrow') (ih hrows')
    apply htrans h.2 h'.2

/-- Rescheduling a run leaves nothing of it to be released at once. -/
theorem rescheduleOverduePendingTxs_settledRows
    (h : s.rescheduleOverduePendingTxs r chainTipHeight 1 (excludedTxid excluded r) offsets
      = .ok s') :
  SettledRows chainTipHeight excluded s s'
    ∧ ∀ row' ∈ s'.pendingTxs, row'.runId = r → ¬Releasable chainTipHeight excluded row'
  := by
  obtain ⟨howners, g, hrows, hg⟩ := rescheduleOverduePendingTxs_spec h
  constructor
  · use howners
    rw [hrows, List.forall₂_map_right_iff, List.forall₂_same]
    intro row hrow
    have hrow' := hg row hrow
    split at hrow'
    · rename_i hdue
      exact .inr ⟨(isOverdue_iff.mp hdue).2, redrawn_of_rescheduledRow hrow'⟩
    · exact .inl hrow'
  · rw [hrows]
    intro row' hmem hrun
    obtain ⟨row, hrow, rfl⟩ := List.mem_map.mp hmem
    have hrow' := hg row hrow
    split at hrow'
    · apply (redrawn_of_rescheduledRow hrow').not_releasable
    · rename_i hdue
      rw [hrow'] at hrun ⊢
      intro hreleasable
      apply hdue (isOverdue_iff.mpr ⟨hrun, hreleasable⟩)

/-- Rescheduling several runs leaves nothing of them to be released at once. -/
theorem commitAll_settledRows {runIds : List RunId}
    (h : commitAll (runIds.map fun r s => s.rescheduleOverduePendingTxs r chainTipHeight 1
      (excludedTxid excluded r) offsets) s = (s', none)) :
  SettledRows chainTipHeight excluded s s'
    ∧ ∀ row' ∈ s'.pendingTxs, row'.runId ∈ runIds → ¬Releasable chainTipHeight excluded row'
  := by
  induction runIds generalizing s with
  | nil =>
    cases h
    use SettledRows.refl
    intro _ _ hmem
    cases hmem
  | cons r runIds ih =>
    rw [List.map_cons, commitAll] at h
    split at h
    · rename_i t ht
      obtain ⟨hfirst, hclear⟩ := rescheduleOverduePendingTxs_settledRows ht
      obtain ⟨hrest, hclears⟩ := ih h
      use hfirst.trans hrest
      intro row' hrow' hmem
      rcases List.mem_cons.mp hmem with hr | hmem
      · obtain ⟨row, hrow, hsettled⟩ := hrest.exists_row hrow'
        obtain rfl | ⟨-, hredrawn⟩ := hsettled
        · apply hclear row' hrow hr
        · apply hredrawn.not_releasable
      · apply hclears row' hrow' hmem
    · cases h

/-- When the wallet has rescheduled the overdue transactions of a network, none of its
scheduled transactions is overdue but the excluded one; a transaction that was moved has the
canonical expiry height of its new height or needs a new signature; and a transaction that
was not overdue is left as it is. -/
theorem rescheduleWallet_leaves_none_overdue
    (h : s.rescheduleWalletOverduePendingTxsWithExclusion network chainTipHeight excluded offsets
      = (s', none)) :
  (∀ row' ∈ s'.pendingTxs, s'.ofNetwork network row' = true →
      ¬Releasable chainTipHeight excluded row')
    ∧ List.Forall₂ (Settled chainTipHeight excluded) s.pendingTxs s'.pendingTxs
  := by
  obtain ⟨hsettled, hclear⟩ := commitAll_settledRows h
  refine ⟨fun row' hrow' hnetwork hreleasable => ?_, hsettled.2⟩
  obtain ⟨row, hrow, hrow_settled⟩ := hsettled.exists_row hrow'
  obtain rfl | ⟨-, hredrawn⟩ := hrow_settled
  · apply hclear row' hrow' _ hreleasable
    obtain ⟨hstatus, hheight, -⟩ := hreleasable
    simp only [ofNetwork, List.any_eq_true, Bool.and_eq_true, decide_eq_true_eq] at hnetwork
    simp only [overdueRunIds, ofNetwork, List.mem_insertionSort, List.mem_dedup, List.mem_map,
      List.mem_filter, List.any_eq_true, Option.any_eq_true, Bool.and_eq_true,
      decide_eq_true_eq]
    exact ⟨row', ⟨hrow, ⟨hstatus, hheight⟩,
      (hsettled.1 row'.runId network).mp hnetwork⟩, rfl⟩
  · apply hredrawn.not_releasable hreleasable

/-! ### The order of release -/

/-- A run with two parts. -/
def sampleOverdueRun : NewRun := { sampleRun with targetValues := [100, 200] }

/-- The transactions of the two parts. -/
def sampleOverduePending : List PendingMigrationTxInsert := [
  { samplePending with expiryHeight := 103680, scheduledHeight := 34564 },
  { samplePending with
    partIndex := 1
    txid := 8
    expiryHeight := 103680
    scheduledHeight := 34570
    valueZatoshi := 200
    selectedNote := { sampleNote with outputIndex := 1 } }]

/-- The runs and the transactions of a wallet that was closed before the first part was
broadcast. -/
def sampleClosed : Store :=
  after step {} [
    .createRunWithStagedDenominationsAndSignedChildren sampleOverdueRun
      [sampleNote, { sampleNote with outputIndex := 1 }] [] []
      (some [⟨some 0, 100, 10⟩, ⟨some 1, 200, 16⟩]),
    .insertPendingTxs 1 sampleOverduePending []]

/-- The delays are 5 and 40 blocks, and the second part is drawn first. -/
def sampleOffsets (txid : Txid) : Nat :=
  if txid = 7 then 45 else 5

/-- Both parts were overdue at the tip, and both are released after it. -/
theorem rescheduleWallet_leaves_none_overdue_swapped :
  (∀ row' ∈ (sampleClosed.rescheduleWalletOverduePendingTxs .main 34600
      sampleOffsets).1.pendingTxs,
      (sampleClosed.rescheduleWalletOverduePendingTxs .main 34600 sampleOffsets).1.ofNetwork
        .main row' = true → ¬Releasable 34600 none row')
    ∧ List.Forall₂ (Settled 34600 none) sampleClosed.pendingTxs
      (sampleClosed.rescheduleWalletOverduePendingTxs .main 34600 sampleOffsets).1.pendingTxs
  := by
  apply rescheduleWallet_leaves_none_overdue
  apply Prod.ext
  · rfl
  · decide +kernel

/-- The part that was to be released first is released last. -/
theorem sampleClosed_swapped :
  sampleClosed.pendingTxs.map (fun row => (row.partIndex, row.scheduledHeight))
      = [(some 0, some 34564), (some 1, some 34570)]
    ∧ (sampleClosed.rescheduleWalletOverduePendingTxs .main 34600 sampleOffsets).2 = none
    ∧ (sampleClosed.rescheduleWalletOverduePendingTxs .main 34600
        sampleOffsets).1.pendingTxs.map
          (fun row => (row.partIndex, row.status, row.scheduledHeight))
      = [(some 0, .scheduled, some 34645), (some 1, .scheduled, some 34605)]
  := by decide +kernel

end Store

end Vizor
