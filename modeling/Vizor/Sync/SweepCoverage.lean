import Mathlib.Order.MinMax
import Vizor.Sync.ReceiveCache

/-!
# The coverage of the sweep

A cycle plans the batches of a refresh of the external addresses of an account, queries them
up to the tip, and marks those as complete whose outputs were stored.  Recent addresses are in
every plan; the others come in turn, in a window that moves on when its batch is complete.  A
batch starts where none of its addresses misses a height.
-/

namespace Vizor

open Run

namespace ReceiveCache

/-! ### Cycles -/

/-- A plan with the addresses that the database has, and the batches that are completed after
it, by their positions in the plan. -/
structure Cycle where
  addresses : List CachedExternalAddress
  limits : RefreshLimits
  tipHeight : Nat
  completed : List Nat
  deriving DecidableEq, Repr

/-- A query that was completed. -/
structure Query where
  childIndices : List Nat
  startHeight : Nat
  tipHeight : Nat
  deriving DecidableEq, Repr

/-- The cache and the queries that were completed. -/
structure Sweep where
  shared : Shared
  queries : List Query

/-- A plan, with the steps of its call. -/
def planExternalUtxoRefresh (network : WalletNetwork) (account : AccountUuid)
    (limits : RefreshLimits) (s : Shared) : Shared × List TransparentUtxoRefreshBatch :=
  let read := step s (.planExternalUtxoRefresh network account limits)
  let planned := step read.1 read.2
  let written := step planned.1 planned.2
  (written.1, match written.2 with
    | .planned batches => batches
    | _ => [])

variable (network : WalletNetwork) (account : AccountUuid)

/-- The cache and the batches after the plan of a cycle. -/
def plan (w : Sweep) (c : Cycle) : Shared × List TransparentUtxoRefreshBatch :=
  planExternalUtxoRefresh network account c.limits
    (step w.shared (.storeOutputs account c.addresses)).1

/-- Complete one of the batches of a plan. -/
def complete (tipHeight : Nat) (batches : List TransparentUtxoRefreshBatch) (w : Sweep)
    (index : Nat) : Sweep :=
  match batches[index]? with
  | none => w
  | some batch => {
    shared := markUtxoRefreshBatchComplete w.shared network account batch.childIndices
      (tipHeight + 1) batch.nextSweepOffset
    queries := w.queries ++ [⟨batch.childIndices, batch.startHeight, tipHeight⟩] }

/-- The state after a cycle. -/
def cycle (w : Sweep) (c : Cycle) : Sweep :=
  c.completed.foldl (complete network account c.tipHeight (plan network account w c).2)
    { w with shared := (plan network account w c).1 }

/-- The batch of the sweep is among those that a cycle completes. -/
def completesSweep (w : Sweep) (c : Cycle) : Bool :=
  c.completed.any fun index =>
    ((plan network account w c).2[index]?).any (·.nextSweepOffset.isSome)

/-- The number of cycles that complete the batch of their sweep. -/
def completedSweeps : Sweep → List Cycle → Nat
  | _, [] => 0
  | w, c :: cs =>
    (if completesSweep network account w c then 1 else 0)
      + completedSweeps (cycle network account w c) cs

/-- The child indexes of the addresses that a plan considers, from the last one down. -/
def eligible (addresses : List CachedExternalAddress) : List Nat :=
  ((allExternalAddresses addresses).insertionSort fun a b => b.childIndex ≤ a.childIndex).map
    (·.childIndex)

/-! ### Coverage -/

/-- A completed query of a child index contains a height. -/
def CoveredBy (queries : List Query) (childIndex height : Nat) : Prop :=
  ∃ query ∈ queries, childIndex ∈ query.childIndices ∧ query.startHeight ≤ height
    ∧ height ≤ query.tipHeight

/-- The initial start of a cycle: the birthday of the account or the safety height. -/
def Cycle.initialStart (c : Cycle) : Nat :=
  min c.limits.accountBirthdayHeight c.limits.safetyStartHeight

variable {network account}
variable {w : Sweep} {c : Cycle} {s : Shared} {initialStart childIndex height : Nat}
  {queries queries' : List Query}

theorem CoveredBy.append (h : CoveredBy queries childIndex height) :
  CoveredBy (queries ++ queries') childIndex height
  := by
  obtain ⟨query, hquery, hmem⟩ := h
  exact ⟨query, List.mem_append_left _ hquery, hmem⟩

/-- The checked heights of a record are covered. -/
def ChecksCovered (initialStart : Nat) (checks : List CachedUtxoCheck) (queries : List Query) :
    Prop :=
  ∀ entry ∈ checks, ∀ height, initialStart ≤ height → height < entry.nextStartHeight →
    CoveredBy queries entry.childIndex height

theorem mem_insertCheck {checks : List CachedUtxoCheck} {nextStartHeight : Nat}
    {entry : CachedUtxoCheck} (h : entry ∈ insertCheck checks childIndex nextStartHeight) :
  entry = ⟨childIndex, nextStartHeight⟩ ∨ entry ∈ checks
  := by
  simp only [insertCheck, List.mem_append, List.mem_filter, List.mem_singleton] at h
  tauto

theorem mem_foldl_insertCheck {entries checks : List CachedUtxoCheck} {entry : CachedUtxoCheck}
    (h : entry ∈ entries.foldl
      (fun checks entry => insertCheck checks entry.childIndex entry.nextStartHeight) checks) :
  entry ∈ entries ∨ entry ∈ checks
  := by
  induction entries generalizing checks with
  | nil => exact .inr h
  | cons first entries ih =>
    obtain hmem | hmem := ih h
    · exact .inl (List.mem_cons_of_mem _ hmem)
    · obtain rfl | hmem := mem_insertCheck hmem
      · exact .inl List.mem_cons_self
      · exact .inr hmem

theorem mem_foldl_insertCheck_same {indices : List Nat} {checks : List CachedUtxoCheck}
    {nextStartHeight : Nat} {entry : CachedUtxoCheck}
    (h : entry ∈ indices.foldl
      (fun checks childIndex => insertCheck checks childIndex nextStartHeight) checks) :
  (entry.childIndex ∈ indices ∧ entry.nextStartHeight = nextStartHeight) ∨ entry ∈ checks
  := by
  induction indices generalizing checks with
  | nil => exact .inr h
  | cons first indices ih =>
    obtain ⟨hmem, hnext⟩ | hmem := ih h
    · exact .inl ⟨List.mem_cons_of_mem _ hmem, hnext⟩
    · obtain rfl | hmem := mem_insertCheck hmem
      · exact .inl ⟨List.mem_cons_self, rfl⟩
      · exact .inr hmem

/-- The checked heights that a plan keeps are among those before. -/
theorem mem_preservedUtxoCheckedHeights {record : CacheRecord}
    {addresses : List CachedExternalAddress} {entry : CachedUtxoCheck}
    (h : entry ∈ preservedUtxoCheckedHeights record addresses) :
  entry ∈ record.utxoCheckedHeights
  := by
  unfold preservedUtxoCheckedHeights at h
  obtain hmem | hmem := mem_foldl_insertCheck h
  · apply (List.mem_filter.mp hmem).1
  · cases hmem

/-- The checked heights after a completed batch are those of its addresses and those before. -/
theorem mem_completedRecord {record : CacheRecord} {indices : List Nat} {nextStartHeight : Nat}
    {nextSweepOffset : Option Nat} {entry : CachedUtxoCheck}
    (h : entry ∈ (completedRecord record indices nextStartHeight
      nextSweepOffset).utxoCheckedHeights) :
  (entry.childIndex ∈ indices ∧ entry.nextStartHeight = nextStartHeight)
    ∨ entry ∈ record.utxoCheckedHeights
  := by
  obtain hmem | hmem := mem_foldl_insertCheck_same h
  · exact .inl hmem
  · obtain hmem | hmem := mem_foldl_insertCheck hmem
    · exact .inr hmem
    · cases hmem

/-! ### Batches -/

/-- What a batch must not miss: it starts at or after `start`, and every height from `initialStart`
on before its start is covered for each of its addresses. -/
structure StartsRight (start initialStart : Nat) (queries : List Query)
    (batch : TransparentUtxoRefreshBatch) : Prop where
  nonempty : batch.childIndices ≠ []
  le_start : start ≤ batch.startHeight
  covered : ∀ childIndex ∈ batch.childIndices, ∀ height, initialStart ≤ height →
    height < batch.startHeight → CoveredBy queries childIndex height

theorem StartsRight.append {start : Nat} {batch : TransparentUtxoRefreshBatch}
    (h : StartsRight start initialStart queries batch) :
  StartsRight start initialStart (queries ++ queries') batch
  where
  nonempty := h.nonempty
  le_start := h.le_start
  covered := fun childIndex hmem height hge hlt => (h.covered childIndex hmem height hge hlt).append

/-- A checked height is that of an entry. -/
theorem exists_of_checkedHeight {checks : List CachedUtxoCheck}
    (h : checkedHeight checks childIndex = some height) :
  ∃ entry ∈ checks, entry.childIndex = childIndex ∧ entry.nextStartHeight = height
  := by
  obtain ⟨entry, hfind, rfl⟩ := Option.map_eq_some_iff.mp h
  refine ⟨entry, List.mem_reverse.mp (List.mem_of_find?_eq_some hfind), ?_, rfl⟩
  simpa using List.find?_some hfind

/-- A batch of some addresses starts right when it starts with the first of them, each from a
height before which it is covered. -/
theorem StartsRight.of_starts {start orElse : Nat} {addresses : List CachedExternalAddress}
    {startOf : CachedExternalAddress → Nat} {nextSweepOffset : Option Nat}
    (hne : addresses ≠ []) (hstart : ∀ address, start ≤ startOf address)
    (hcovered : ∀ address height, initialStart ≤ height → height < startOf address →
      CoveredBy queries address.childIndex height) :
  StartsRight start initialStart queries {
    addresses := addresses.map (·.address)
    childIndices := addresses.map (·.childIndex)
    startHeight := (addresses.map startOf).min?.getD orElse
    nextSweepOffset := nextSweepOffset }
  := by
  obtain ⟨least, hleast⟩ : ∃ least, (addresses.map startOf).min? = some least := by
    apply Option.isSome_iff_exists.mp
    rw [List.isSome_min?_iff]
    simpa using hne
  obtain ⟨hmem, hle⟩ := List.min?_eq_some_iff.mp hleast
  rw [hleast, Option.getD_some]
  refine ⟨by simpa using hne, ?_, ?_⟩
  · obtain ⟨address, -, rfl⟩ := List.mem_map.mp hmem
    apply hstart address
  · intro childIndex hchild height hge hlt
    obtain ⟨address, haddress, rfl⟩ := List.mem_map.mp hchild
    apply hcovered address height hge
    apply hlt.trans_le (hle _ (List.mem_map_of_mem haddress))

/-- The batch of some addresses starts where none of them misses a height. -/
theorem startsRight_refreshBatch {addresses : List CachedExternalAddress}
    {checks : List CachedUtxoCheck} {birthday safety : Nat} {nextSweepOffset : Option Nat}
    {batch : TransparentUtxoRefreshBatch} (hchecks : ChecksCovered initialStart checks queries)
    (hstart : min birthday safety ≤ initialStart)
    (h : refreshBatch addresses checks birthday safety nextSweepOffset = some batch) :
  StartsRight (min birthday safety) initialStart queries batch
  := by
  unfold refreshBatch at h
  split at h
  · contradiction
  · rename_i hne
    simp only [Option.some.injEq] at h
    subst h
    apply StartsRight.of_starts hne
    · intro address
      split
      · apply le_max_right _ _
      · exact le_rfl
    · intro address height hge hlt
      rw [min_le_iff] at hstart
      split at hlt
      · rename_i checked hchecked
        obtain ⟨entry, hentry, hentryChild, rfl⟩ := exists_of_checkedHeight hchecked
        rw [← hentryChild]
        apply hchecks entry hentry height hge
        rw [lt_max_iff, lt_min_iff, transparentUtxoRequeryLookback] at hlt
        omega
      · rw [lt_min_iff] at hlt
        omega

/-- The batches of a plan are the recent one and the one of the sweep. -/
theorem mem_externalUtxoRefreshBatches {addresses : List CachedExternalAddress}
    {checks : List CachedUtxoCheck} {offset : Nat} {limits : RefreshLimits}
    {batch : TransparentUtxoRefreshBatch}
    (h : batch ∈ externalUtxoRefreshBatches addresses checks offset limits) :
  ∃ selected nextSweepOffset, refreshBatch selected checks limits.accountBirthdayHeight
    limits.safetyStartHeight nextSweepOffset = some batch
  := by
  unfold externalUtxoRefreshBatches at h
  simp only [List.mem_append, Option.mem_toList] at h
  obtain h | h := h
  · exact ⟨_, _, h⟩
  · split at h
    · contradiction
    · exact ⟨_, _, h⟩

/-! ### What a cycle keeps -/

/-- What holds of the cache and the completed queries: the record can be read, its checked
heights are covered, and the queries of an address leave no gap. -/
structure Good (network : WalletNetwork) (account : AccountUuid) (initialStart : Nat)
    (w : Sweep) : Prop where
  compatible : ∀ record readAt, w.shared.cache account = some (record, readAt) →
    record.version = cacheVersion ∧ record.network = network
  checks : ∀ record readAt, w.shared.cache account = some (record, readAt) →
    ChecksCovered initialStart record.utxoCheckedHeights w.queries
  queries : ∀ query ∈ w.queries, ∀ childIndex ∈ query.childIndices, ∀ height,
    initialStart ≤ height → height ≤ query.tipHeight → CoveredBy w.queries childIndex height

theorem readCompatibleRecord_eq (h : Good network account initialStart w) :
  readCompatibleRecord w.shared network account = w.shared.cache account
  := by
  unfold readCompatibleRecord
  cases hrecord : w.shared.cache account with
  | none => rfl
  | some record =>
    obtain ⟨hversion, hnetwork⟩ := h.compatible record.1 record.2 hrecord
    simp [Option.filter, hversion, hnetwork]

/-- The record that the plan of a cycle writes. -/
def plannedBy (network : WalletNetwork) (account : AccountUuid) (w : Sweep) (c : Cycle) :
    CacheRecord :=
  plannedRecord network c.addresses ((w.shared.cache account).map (·.1))

theorem plan_eq (h : Good network account initialStart w) :
  ∃ readAt, (plan network account w c).1.cache account
      = some (plannedBy network account w c, readAt)
    ∧ (plan network account w c).2
      = externalUtxoRefreshBatches (allExternalAddresses c.addresses)
        (plannedBy network account w c).utxoCheckedHeights
        (plannedBy network account w c).utxoSweepNextOffset c.limits
  := by
  have hread : readCompatibleRecord (step w.shared (.storeOutputs account c.addresses)).1 network
      account = w.shared.cache account := readCompatibleRecord_eq h
  unfold plan planExternalUtxoRefresh plannedBy
  simp only [step, writeRecord, Function.update_self] at hread ⊢
  rw [hread]
  exact ⟨_, rfl, rfl⟩

/-- A plan keeps what holds. -/
theorem Good.plan (h : Good network account initialStart w) :
  Good network account initialStart { w with shared := (plan network account w c).1 }
  := by
  obtain ⟨readAt, hcache, -⟩ := @plan_eq _ _ _ c _ h
  refine ⟨?_, ?_, h.queries⟩
  · intro record readAt' hrecord
    rw [hcache] at hrecord
    cases hrecord
    exact ⟨rfl, rfl⟩
  · intro record readAt' hrecord entry hentry
    rw [hcache] at hrecord
    cases hrecord
    have hmem := mem_preservedUtxoCheckedHeights hentry
    cases hexisting : w.shared.cache account with
    | none => simp [hexisting] at hmem
    | some existing =>
      rw [hexisting] at hmem
      apply h.checks existing.1 existing.2 hexisting entry hmem

/-- The batches of a plan start where none of their addresses misses a height. -/
theorem startsRight_of_mem_plan (h : Good network account initialStart w)
    (hstart : c.initialStart ≤ initialStart) {batch : TransparentUtxoRefreshBatch}
    (hbatch : batch ∈ (plan network account w c).2) :
  StartsRight c.initialStart initialStart w.queries batch
  := by
  obtain ⟨readAt, hcache, hbatches⟩ := @plan_eq _ _ _ c _ h
  rw [hbatches] at hbatch
  obtain ⟨selected, nextSweepOffset, hrefresh⟩ := mem_externalUtxoRefreshBatches hbatch
  apply startsRight_refreshBatch _ hstart hrefresh
  apply h.plan.checks _ _ hcache

/-! ### Completed batches -/

/-- The offset of the sweep in the cache. -/
def sweepOffset (account : AccountUuid) (w : Sweep) : Nat :=
  ((w.shared.cache account).map (·.1.utxoSweepNextOffset)).getD 0

/-- What holds while the batches of a plan are completed. -/
structure Completing (network : WalletNetwork) (account : AccountUuid) (start initialStart : Nat)
    (batches : List TransparentUtxoRefreshBatch) (w : Sweep) : Prop where
  good : Good network account initialStart w
  cached : (w.shared.cache account).isSome
  startsRight : ∀ batch ∈ batches, StartsRight start initialStart w.queries batch

variable {start tipHeight index : Nat} {batches : List TransparentUtxoRefreshBatch}
  {batch : TransparentUtxoRefreshBatch}

theorem complete_none (hindex : batches[index]? = none) :
  complete network account tipHeight batches w index = w
  := by
  rw [complete, hindex]

theorem complete_some {record : CacheRecord} {readAt : Nat}
    (h : Completing network account start initialStart batches w)
    (hcache : w.shared.cache account = some (record, readAt))
    (hindex : batches[index]? = some batch) :
  complete network account tipHeight batches w index
    = { shared := writeRecord w.shared account (completedRecord record batch.childIndices
          (tipHeight + 1) batch.nextSweepOffset) readAt
        queries := w.queries ++ [⟨batch.childIndices, batch.startHeight, tipHeight⟩] }
  := by
  have hne := (h.startsRight batch (List.mem_of_getElem? hindex)).nonempty
  rw [complete, hindex]
  simp only [markUtxoRefreshBatchComplete, step, if_neg hne, readCompatibleRecord_eq h.good, hcache]

/-- A completed batch leaves no gap. -/
theorem Completing.complete (h : Completing network account start initialStart batches w) :
  Completing network account start initialStart batches
    (complete network account tipHeight batches w index)
  := by
  cases hindex : batches[index]? with
  | none => rwa [complete_none hindex]
  | some batch =>
    obtain ⟨⟨record, readAt⟩, hcache⟩ := Option.isSome_iff_exists.mp h.cached
    have hright := h.startsRight batch (List.mem_of_getElem? hindex)
    have hbatch : ∀ childIndex ∈ batch.childIndices, ∀ height, initialStart ≤ height →
        height ≤ tipHeight → CoveredBy
          (w.queries ++ [⟨batch.childIndices, batch.startHeight, tipHeight⟩]) childIndex height := by
      intro childIndex hchild height hge hle
      rcases Nat.lt_or_ge height batch.startHeight with hlt | hstart
      · apply (hright.covered childIndex hchild height hge hlt).append
      · exact ⟨_, List.mem_append_right _ (List.mem_singleton_self _), hchild, hstart, hle⟩
    rw [complete_some h hcache hindex]
    refine ⟨⟨?_, ?_, ?_⟩, ?_, fun batch hbatch => (h.startsRight batch hbatch).append⟩
    · intro record' readAt' hrecord
      simp only [writeRecord, Function.update_self, Option.some.injEq, Prod.mk.injEq] at hrecord
      obtain ⟨rfl, rfl⟩ := hrecord
      apply h.good.compatible record readAt hcache
    · intro record' readAt' hrecord entry hentry height hge hlt
      simp only [writeRecord, Function.update_self, Option.some.injEq, Prod.mk.injEq] at hrecord
      obtain ⟨rfl, rfl⟩ := hrecord
      obtain ⟨hmem, hnext⟩ | hmem := mem_completedRecord hentry
      · rw [hnext] at hlt
        apply hbatch _ hmem height hge (by omega)
      · apply (h.good.checks record readAt hcache entry hmem height hge hlt).append
    · intro query hquery childIndex hchild height hge hle
      obtain hquery | hquery := List.mem_append.mp hquery
      · apply (h.good.queries query hquery childIndex hchild height hge hle).append
      · obtain rfl := List.mem_singleton.mp hquery
        apply hbatch childIndex hchild height hge hle
    · simp [writeRecord]

/-- Completed batches add their queries, and the batch of the sweep sets the offset. -/
theorem Completing.foldl {completed : List Nat}
    (h : Completing network account start initialStart batches w) :
  Completing network account start initialStart batches
      (completed.foldl (ReceiveCache.complete network account tipHeight batches) w)
    ∧ ∃ added, (completed.foldl (ReceiveCache.complete network account tipHeight batches) w).queries
        = w.queries ++ added
      ∧ ∀ index ∈ completed, ∀ batch, batches[index]? = some batch →
        ∃ query ∈ added, query.childIndices = batch.childIndices
  := by
  induction completed generalizing w with
  | nil => exact ⟨h, [], by simp, by simp⟩
  | cons index completed ih =>
    obtain ⟨hcompleting, added, hqueries, hadded⟩ :=
      ih (w := ReceiveCache.complete network account tipHeight batches w index) h.complete
    rw [List.foldl_cons]
    refine ⟨hcompleting, ?_⟩
    cases hindex : batches[index]? with
    | none =>
      rw [complete_none hindex] at hqueries
      rw [complete_none hindex]
      refine ⟨added, hqueries, ?_⟩
      intro other hother batch hbatch
      obtain rfl | hother := List.mem_cons.mp hother
      · rw [hindex] at hbatch
        contradiction
      · apply hadded other hother batch hbatch
    | some batch =>
      obtain ⟨⟨record, readAt⟩, hcache⟩ := Option.isSome_iff_exists.mp h.cached
      rw [hqueries, complete_some h hcache hindex, List.append_assoc]
      refine ⟨_, rfl, ?_⟩
      intro other hother batch' hbatch'
      obtain rfl | hother := List.mem_cons.mp hother
      · rw [hindex, Option.some.injEq] at hbatch'
        subst hbatch'
        exact ⟨_, List.mem_append_left _ (List.mem_singleton_self _), rfl⟩
      · obtain ⟨query, hquery, hsame⟩ := hadded other hother batch' hbatch'
        exact ⟨query, List.mem_append_right _ hquery, hsame⟩

/-- The offset after completed batches that all set the same one. -/
theorem Completing.sweepOffset_foldl {completed : List Nat} {next : Nat}
    (h : Completing network account start initialStart batches w)
    (hnext : ∀ batch ∈ batches, ∀ next' ∈ batch.nextSweepOffset, next' = next) :
  sweepOffset account (completed.foldl (ReceiveCache.complete network account tipHeight batches) w)
    = if completed.any (fun index => (batches[index]?).any (·.nextSweepOffset.isSome)) then next
      else sweepOffset account w
  := by
  induction completed generalizing w with
  | nil => rfl
  | cons index completed ih =>
    rw [List.foldl_cons, ih h.complete, List.any_cons]
    cases hindex : batches[index]? with
    | none => simp [complete_none hindex]
    | some batch =>
      obtain ⟨⟨record, readAt⟩, hcache⟩ := Option.isSome_iff_exists.mp h.cached
      have hoffset : sweepOffset account
          (ReceiveCache.complete network account tipHeight batches w index)
            = batch.nextSweepOffset.getD (sweepOffset account w) := by
        rw [complete_some h hcache hindex]
        simp [sweepOffset, writeRecord, completedRecord, hcache]
      rw [hoffset]
      cases hsweep : batch.nextSweepOffset with
      | none => simp [hsweep]
      | some next' =>
        rw [hnext batch (List.mem_of_getElem? hindex) next' hsweep]
        simp [hsweep]

/-! ### Cycles -/

/-- The batches of a plan can be completed. -/
theorem completing_plan (h : Good network account initialStart w)
    (hstart : c.initialStart ≤ initialStart) :
  Completing network account c.initialStart initialStart (plan network account w c).2
    { w with shared := (plan network account w c).1 }
  := by
  obtain ⟨readAt, hcache, -⟩ := @plan_eq _ _ _ c _ h
  refine ⟨h.plan, ?_, fun batch hbatch => startsRight_of_mem_plan h hstart hbatch⟩
  simp [hcache]

/-- A cycle keeps what holds. -/
theorem Good.cycle (h : Good network account initialStart w)
    (hstart : c.initialStart ≤ initialStart) :
  Good network account initialStart (cycle network account w c)
  := (completing_plan h hstart).foldl.1.good

/-- A cycle adds the queries of the batches that it completes. -/
theorem queries_cycle (h : Good network account initialStart w)
    (hstart : c.initialStart ≤ initialStart) :
  ∃ added, (cycle network account w c).queries = w.queries ++ added
    ∧ ∀ index ∈ c.completed, ∀ batch, (plan network account w c).2[index]? = some batch →
      ∃ query ∈ added, query.childIndices = batch.childIndices
  := (completing_plan h hstart).foldl.2

/-- The positions of a window of the sweep. -/
def sweepWindow (old : List Nat) (offset sweepLimit : Nat) : List Nat :=
  (List.range (min sweepLimit old.length)).filterMap fun i =>
    old[(offset % old.length + i) % old.length]?

/-- The offset after a window of the sweep. -/
def nextOffset (old : List Nat) (offset sweepLimit : Nat) : Nat :=
  (offset % old.length + min sweepLimit old.length) % old.length

theorem childIndices_refreshBatch {addresses : List CachedExternalAddress}
    {checks : List CachedUtxoCheck} {birthday safety : Nat} {nextSweepOffset : Option Nat}
    (h : refreshBatch addresses checks birthday safety nextSweepOffset = some batch) :
  batch.childIndices = addresses.map (·.childIndex) ∧ batch.nextSweepOffset = nextSweepOffset
  := by
  unfold refreshBatch at h
  split at h
  · contradiction
  · cases h
    exact ⟨rfl, rfl⟩

/-- The batch of the sweep has the next window of the old addresses. -/
theorem sweep_of_mem_plan (h : Good network account initialStart w) {next : Nat}
    (hbatch : batch ∈ (plan network account w c).2) (hsweep : batch.nextSweepOffset = some next) :
  batch.childIndices = sweepWindow ((eligible c.addresses).drop c.limits.recentLimit)
      (sweepOffset account w) c.limits.sweepLimit
    ∧ next = nextOffset ((eligible c.addresses).drop c.limits.recentLimit)
      (sweepOffset account w) c.limits.sweepLimit
  := by
  obtain ⟨readAt, hcache, hbatches⟩ := @plan_eq _ _ _ c _ h
  have hoffset : (plannedBy network account w c).utxoSweepNextOffset = sweepOffset account w := by
    unfold plannedBy plannedRecord sweepOffset
    cases w.shared.cache account <;> rfl
  rw [hbatches, hoffset] at hbatch
  unfold externalUtxoRefreshBatches at hbatch
  simp only [List.mem_append, Option.mem_toList] at hbatch
  obtain hrecent | hbatch := hbatch
  · rw [(childIndices_refreshBatch hrecent).2] at hsweep
    contradiction
  · split at hbatch
    · contradiction
    · obtain ⟨hindices, hnext⟩ := childIndices_refreshBatch hbatch
      rw [hnext, Option.some.injEq] at hsweep
      rw [hindices, ← hsweep]
      unfold sweepWindow nextOffset eligible
      rw [← List.map_drop, List.length_map, List.map_filterMap]
      refine ⟨?_, rfl⟩
      simp only [List.getElem?_map]

/-- A cycle that completes the batch of its sweep has queried the next window, and moves on. -/
theorem cycle_of_completesSweep (h : Good network account initialStart w)
    (hstart : c.initialStart ≤ initialStart) (hsweep : completesSweep network account w c = true) :
  (∃ added, (cycle network account w c).queries = w.queries ++ added
      ∧ ∃ query ∈ added, query.childIndices
        = sweepWindow ((eligible c.addresses).drop c.limits.recentLimit) (sweepOffset account w)
          c.limits.sweepLimit)
    ∧ sweepOffset account (cycle network account w c)
      = nextOffset ((eligible c.addresses).drop c.limits.recentLimit) (sweepOffset account w)
        c.limits.sweepLimit
  := by
  have hcompleting := completing_plan h hstart
  constructor
  · obtain ⟨added, hqueries, hadded⟩ := queries_cycle h hstart
    obtain ⟨index, hindex, hany⟩ := List.any_eq_true.mp hsweep
    obtain ⟨batch, hbatch, hsome⟩ := (Option.any_eq_true _ _).mp hany
    obtain ⟨next, hnext⟩ := Option.isSome_iff_exists.mp hsome
    obtain ⟨query, hquery, hsame⟩ := hadded index hindex batch hbatch
    refine ⟨added, hqueries, query, hquery, ?_⟩
    rw [hsame]
    apply (sweep_of_mem_plan h (List.mem_of_getElem? hbatch) hnext).1
  · unfold cycle
    rw [hcompleting.sweepOffset_foldl fun batch hbatch next' hnext =>
      (sweep_of_mem_plan h hbatch hnext).2]
    apply if_pos hsweep

/-- A cycle that does not complete the batch of its sweep keeps the offset. -/
theorem cycle_of_not_completesSweep (h : Good network account initialStart w)
    (hstart : c.initialStart ≤ initialStart) (hsweep : completesSweep network account w c = false) :
  sweepOffset account (cycle network account w c) = sweepOffset account w
  := by
  have hcompleting := completing_plan h hstart
  obtain ⟨readAt, hcache, -⟩ := @plan_eq _ _ _ c _ h
  unfold cycle
  rw [hcompleting.sweepOffset_foldl fun batch hbatch next' hnext =>
    (sweep_of_mem_plan h hbatch hnext).2]
  unfold completesSweep at hsweep
  rw [hsweep, if_neg Bool.false_ne_true]
  unfold sweepOffset
  rw [hcache]
  unfold plannedBy plannedRecord
  cases w.shared.cache account <;> rfl

/-! ### Turns of the sweep -/

/-- A position that comes after a window is in the part that the window leaves. -/
theorem add_sub_mod {n offset take turn : Nat} (hturn : take ≤ turn) :
  ((offset % n + take) % n + (turn - take)) % n = (offset + turn) % n
  := by
  rw [Nat.mod_add_mod, Nat.add_assoc, Nat.add_sub_cancel' hturn, Nat.mod_add_mod]

/-- Cycles over the same addresses query the old ones in turn, as many as the windows of the
completed sweeps hold. -/
theorem queried_in_turn {cycles : List Cycle} {old : List Nat} {sweepLimit : Nat}
    (hcycles : ∀ c ∈ cycles, c.initialStart ≤ initialStart
      ∧ (eligible c.addresses).drop c.limits.recentLimit = old ∧ c.limits.sweepLimit = sweepLimit)
    (h : Good network account initialStart w) :
  ∃ added, (after (cycle network account) w cycles).queries = w.queries ++ added
    ∧ ∀ turn < completedSweeps network account w cycles * min sweepLimit old.length,
      ∀ childIndex, old[(sweepOffset account w + turn) % old.length]? = some childIndex →
        ∃ query ∈ added, childIndex ∈ query.childIndices
  := by
  induction cycles generalizing w with
  | nil => exact ⟨[], by simp, by simp [completedSweeps]⟩
  | cons c cycles ih =>
    obtain ⟨hstart, hold, hlimit⟩ := hcycles c List.mem_cons_self
    obtain ⟨added, hqueries, hturns⟩ :=
      ih (fun c hc => hcycles c (List.mem_cons_of_mem _ hc)) (h.cycle hstart)
    rw [after_cons, hqueries, completedSweeps]
    cases hsweep : completesSweep network account w c with
    | false =>
      obtain ⟨added', hqueries', -⟩ := queries_cycle h hstart
      rw [cycle_of_not_completesSweep h hstart hsweep] at hturns
      refine ⟨added' ++ added, by rw [hqueries', List.append_assoc], ?_⟩
      intro turn hturn childIndex hchild
      rw [if_neg Bool.false_ne_true, Nat.zero_add] at hturn
      obtain ⟨query, hquery, hmem⟩ := hturns turn hturn childIndex hchild
      exact ⟨query, List.mem_append_right _ hquery, hmem⟩
    | true =>
      obtain ⟨⟨added', hqueries', first, hfirst, hwindow⟩, hoffset⟩ :=
        cycle_of_completesSweep h hstart hsweep
      rw [hold, hlimit] at hwindow hoffset
      refine ⟨added' ++ added, by rw [hqueries', List.append_assoc], ?_⟩
      intro turn hturn childIndex hchild
      rw [if_pos rfl, Nat.add_mul, Nat.one_mul] at hturn
      rcases Nat.lt_or_ge turn (min sweepLimit old.length) with hlt | hge
      · refine ⟨first, List.mem_append_left _ hfirst, ?_⟩
        rw [hwindow, sweepWindow, List.mem_filterMap]
        refine ⟨turn, List.mem_range.mpr hlt, ?_⟩
        rw [Nat.mod_add_mod]
        apply hchild
      · have hrest : turn - min sweepLimit old.length
            < completedSweeps network account (cycle network account w c) cycles
              * min sweepLimit old.length := by omega
        obtain ⟨query, hquery, hmem⟩ := hturns _ hrest childIndex (by
          rw [hoffset, nextOffset, add_sub_mod hge]
          apply hchild)
        exact ⟨query, List.mem_append_right _ hquery, hmem⟩

/-- Enough windows hold every old address. -/
theorem le_mul_min {count limit sweeps : Nat} (hlimit : 0 < limit)
    (hsweeps : (count + limit - 1) / limit ≤ sweeps) :
  count ≤ sweeps * min limit count
  := by
  have hceil : count ≤ (count + limit - 1) / limit * limit := by
    have hdiv := Nat.div_add_mod (count + limit - 1) limit
    have hmod := Nat.mod_lt (count + limit - 1) hlimit
    rw [Nat.mul_comm] at hdiv
    omega
  rcases Nat.le_total limit count with hle | hle
  · rw [Nat.min_eq_left hle]
    apply hceil.trans (Nat.mul_le_mul_right _ hsweeps)
  · rw [Nat.min_eq_right hle]
    cases count with
    | zero => exact Nat.zero_le _
    | succ count =>
      have hone : 1 ≤ sweeps := by
        apply le_trans _ hsweeps
        rw [Nat.le_div_iff_mul_le hlimit]
        omega
      apply Nat.le_mul_of_pos_left _ hone

/-- A position of a cyclic order comes in some turn from every offset. -/
theorem exists_turn {count position : Nat} (offset : Nat) (h : position < count) :
  ∃ turn < count, (offset + turn) % count = position
  := by
  have hmod := Nat.mod_lt offset (Nat.zero_lt_of_lt h)
  refine ⟨(position + count - offset % count) % count, Nat.mod_lt _ (Nat.zero_lt_of_lt h), ?_⟩
  rw [Nat.add_mod_mod, ← Nat.mod_add_mod, ← Nat.add_sub_assoc (by omega), Nat.add_comm,
    Nat.add_sub_cancel, Nat.add_mod_right, Nat.mod_eq_of_lt h]

/-- Recent addresses are in every plan. -/
theorem recent_mem_plan (h : Good network account initialStart w)
    (hrecent : childIndex ∈ (eligible c.addresses).take c.limits.recentLimit) :
  ∃ batch ∈ (plan network account w c).2, childIndex ∈ batch.childIndices
  := by
  obtain ⟨readAt, hcache, hbatches⟩ := @plan_eq _ _ _ c _ h
  rw [eligible, ← List.map_take] at hrecent
  obtain ⟨address, haddress, rfl⟩ := List.mem_map.mp hrecent
  obtain ⟨batch, hbatch⟩ : ∃ batch, refreshBatch (((allExternalAddresses c.addresses).insertionSort
      fun a b => b.childIndex ≤ a.childIndex).take c.limits.recentLimit)
      (plannedBy network account w c).utxoCheckedHeights c.limits.accountBirthdayHeight
      c.limits.safetyStartHeight none = some batch := by
    rw [refreshBatch, if_neg (List.ne_nil_of_mem haddress)]
    exact ⟨_, rfl⟩
  refine ⟨batch, ?_, ?_⟩
  · rw [hbatches, externalUtxoRefreshBatches, hbatch]
    simp
  · rw [(childIndices_refreshBatch hbatch).1]
    apply List.mem_map_of_mem haddress

/-! ### Runs -/

/-- The state in which no query was made. -/
def Sweep.opened (s : Shared) : Sweep := ⟨s, []⟩

theorem good_opened (h : s.cache account = none) :
  Good network account initialStart (Sweep.opened s)
  where
  compatible := by
    intro record readAt hrecord
    rw [Sweep.opened, h] at hrecord
    contradiction
  checks := by
    intro record readAt hrecord
    rw [Sweep.opened, h] at hrecord
    contradiction
  queries := nofun

/-- Every run of cycles that do not start above a height keeps what holds. -/
theorem good_after {cycles : List Cycle} (h : Good network account initialStart w)
    (hcycles : ∀ c ∈ cycles, c.initialStart ≤ initialStart) :
  Good network account initialStart (after (cycle network account) w cycles)
  := by
  apply @invariant _ _ _ (fun _ c => c.initialStart ≤ initialStart)
    (Good network account initialStart) (fun w c hgood hc => hgood.cycle hc) _ _ h
  apply along_of_forall fun _ c hc => hcycles c hc

/-- The coverage of the sweep over a run of cycles. -/
structure SweepCovers (network : WalletNetwork) (account : AccountUuid)
    (recentLimit sweepLimit initialStart : Nat) (w : Sweep) (cycles : List Cycle) : Prop where
  /-- A batch does not start before its initial start, and no address of it misses a height
  before it starts. -/
  starts : ∀ before c rest, cycles = before ++ c :: rest →
    ∀ batch ∈ (plan network account (after (cycle network account) w before) c).2,
      c.initialStart ≤ batch.startHeight
      ∧ ∀ childIndex ∈ batch.childIndices, ∀ height, initialStart ≤ height →
        height < batch.startHeight →
        CoveredBy (after (cycle network account) w before).queries childIndex height
  /-- Up to the tip of every completed query of an address no height of it is left out. -/
  noGap : ∀ query ∈ (after (cycle network account) w cycles).queries,
    ∀ childIndex ∈ query.childIndices, ∀ height, initialStart ≤ height →
      height ≤ query.tipHeight →
      CoveredBy (after (cycle network account) w cycles).queries childIndex height
  /-- Recent addresses are in every plan. -/
  recent : ∀ before c rest, cycles = before ++ c :: rest →
    ∀ childIndex ∈ (eligible c.addresses).take recentLimit,
      ∃ batch ∈ (plan network account (after (cycle network account) w before) c).2,
        childIndex ∈ batch.childIndices
  /-- While the addresses are the same, an old one is queried within as many completed sweeps as
  hold all of them. -/
  sweep : ∀ before segment rest addresses, cycles = before ++ segment ++ rest →
    (∀ c ∈ segment, eligible c.addresses = addresses) →
    ((addresses.drop recentLimit).length + sweepLimit - 1) / sweepLimit
      ≤ completedSweeps network account (after (cycle network account) w before) segment →
    ∀ childIndex ∈ addresses.drop recentLimit, ∃ added,
      (after (cycle network account) w (before ++ segment)).queries
        = (after (cycle network account) w before).queries ++ added
      ∧ ∃ query ∈ added, childIndex ∈ query.childIndices

/-- From an account without a record, every run of plans and completed batches covers the
addresses, however they grow and whichever batches fail. -/
theorem sweep_covers (network : WalletNetwork) {recentLimit sweepLimit : Nat} {cycles : List Cycle}
    (hcache : s.cache account = none) (hsweep : 0 < sweepLimit)
    (hcycles : ∀ c ∈ cycles, c.limits.recentLimit = recentLimit ∧ c.limits.sweepLimit = sweepLimit
      ∧ c.initialStart ≤ initialStart) :
  SweepCovers network account recentLimit sweepLimit initialStart (Sweep.opened s) cycles
  := by
  have hgood : ∀ before rest, cycles = before ++ rest →
      Good network account initialStart (after (cycle network account) (Sweep.opened s) before) := by
    rintro before rest rfl
    apply good_after (good_opened hcache)
    intro c hc
    apply (hcycles c (List.mem_append_left _ hc)).2.2
  refine ⟨?_, ?_, ?_, ?_⟩
  · rintro before c rest hsplit batch hbatch
    have hc := hcycles c (by simp [hsplit])
    have hright := startsRight_of_mem_plan (hgood before _ hsplit) hc.2.2 hbatch
    exact ⟨hright.le_start, hright.covered⟩
  · apply (hgood cycles [] (by simp)).queries
  · rintro before c rest hsplit childIndex hchild
    have hc := hcycles c (by simp [hsplit])
    rw [← hc.1] at hchild
    apply recent_mem_plan (hgood before _ hsplit) hchild
  · rintro before segment rest addresses hsplit hsame hsweeps childIndex hchild
    have hsegment : ∀ c ∈ segment, c.initialStart ≤ initialStart
        ∧ (eligible c.addresses).drop c.limits.recentLimit = addresses.drop recentLimit
        ∧ c.limits.sweepLimit = sweepLimit := by
      intro c hc
      obtain ⟨hrecent, hlimit, hstart⟩ := hcycles c (by simp [hsplit, hc])
      exact ⟨hstart, by rw [hsame c hc, hrecent], hlimit⟩
    obtain ⟨added, hqueries, hturns⟩ := queried_in_turn hsegment
      (hgood before (segment ++ rest) (by rw [hsplit, List.append_assoc]))
    obtain ⟨position, hposition, rfl⟩ := List.mem_iff_getElem.mp hchild
    obtain ⟨turn, hturn, heq⟩ := exists_turn
      (sweepOffset account (after (cycle network account) (Sweep.opened s) before)) hposition
    refine ⟨added, by rw [after_append, hqueries], ?_⟩
    apply hturns turn (hturn.trans_le (le_mul_min hsweep hsweeps))
    rw [heq, List.getElem?_eq_getElem hposition]

/-- A cache without a record. -/
def emptyShared : Shared where
  addresses _ := []
  cache _ := none

/-- A list of three addresses that grows by one after a cycle whose sweep fails. -/
def growingCycles : List Cycle := [
  ⟨[⟨0, "t0", true⟩, ⟨1, "t1", false⟩, ⟨2, "t2", false⟩], ⟨100, 90, 1, 1⟩, 500, [0]⟩,
  ⟨[⟨0, "t0", true⟩, ⟨1, "t1", false⟩, ⟨2, "t2", false⟩, ⟨3, "t3", false⟩], ⟨100, 90, 1, 1⟩, 700,
    [0, 1]⟩,
  ⟨[⟨0, "t0", true⟩, ⟨1, "t1", false⟩, ⟨2, "t2", false⟩, ⟨3, "t3", false⟩], ⟨100, 90, 1, 1⟩, 900,
    [1, 0]⟩]

/-- The growing list is covered. -/
theorem sweep_covers_growing :
  SweepCovers .main 1 1 1 90 (Sweep.opened emptyShared) growingCycles
  := sweep_covers .main rfl (by decide) (by decide)

end ReceiveCache

end Vizor
