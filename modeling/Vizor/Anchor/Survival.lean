import Vizor.Anchor.Scan

/-!
# Checkpoints survive scans

The checkpoint that represents a boundary is retained when the boundary is scanned, and when
the anchor has reached the boundary.  In between it is not: after the scan that brought it, the
pass releases it as long as it is above the anchor, and before the next scan only boundaries
from the frontier on are retained.  Until the anchor reaches it, it is kept when it is one of
the newest checkpoints.
-/

namespace Vizor

open Run Store

/-! ### Representatives -/

variable {checkpoints checkpoints' : Finset Nat} {boundary mined c : Nat}

theorem representative_eq_some :
  representativeOrchardCheckpoint checkpoints boundary mined = some c
    ↔ c ∈ checkpoints ∧ mined ≤ c ∧ c ≤ boundary
      ∧ ∀ h ∈ checkpoints, mined ≤ h → h ≤ boundary → h ≤ c
  := by
  unfold representativeOrchardCheckpoint
  constructor
  · intro h
    have hmem := Finset.mem_of_max h
    simp only [Finset.mem_filter] at hmem
    refine ⟨hmem.1, hmem.2.1, hmem.2.2, ?_⟩
    intro other hother hmined hboundary
    apply Finset.le_max_of_eq _ h
    apply Finset.mem_filter.mpr ⟨hother, hmined, hboundary⟩
  · rintro ⟨hmem, hmined, hboundary, hmax⟩
    have hle : ((checkpoints.filter fun height => mined ≤ height ∧ height ≤ boundary).max)
        ≤ (c : WithBot Nat) := by
      apply Finset.max_le
      intro other hother
      obtain ⟨hother, hmined', hboundary'⟩ := Finset.mem_filter.mp hother
      apply WithBot.coe_le_coe.mpr (hmax other hother hmined' hboundary')
    apply le_antisymm hle
    apply Finset.le_max
    apply Finset.mem_filter.mpr ⟨hmem, hmined, hboundary⟩

/-- A boundary with a checkpoint that contains the note has a representative. -/
theorem exists_representative {h : Nat} (hmem : h ∈ checkpoints) (hmined : mined ≤ h)
    (hboundary : h ≤ boundary) :
  ∃ c, representativeOrchardCheckpoint checkpoints boundary mined = some c
  := Finset.max_of_mem (Finset.mem_filter.mpr ⟨hmem, hmined, hboundary⟩)

/-- The representative that contains the note represents the boundary. -/
theorem representative_zero (h : representativeOrchardCheckpoint checkpoints boundary mined = some c) :
  representativeOrchardCheckpoint checkpoints boundary 0 = some c
  := by
  obtain ⟨hmem, hmined, hboundary, hmax⟩ := representative_eq_some.mp h
  refine representative_eq_some.mpr ⟨hmem, Nat.zero_le c, hboundary, ?_⟩
  intro other hother _ hle
  by_cases hcontains : mined ≤ other
  · apply hmax other hother hcontains hle
  · omega

/-- A representative that stays represents what is left. -/
theorem representative_of_subset
    (h : representativeOrchardCheckpoint checkpoints boundary mined = some c)
    (hsub : checkpoints' ⊆ checkpoints) (hmem : c ∈ checkpoints') :
  representativeOrchardCheckpoint checkpoints' boundary mined = some c
  := by
  obtain ⟨-, hmined, hboundary, hmax⟩ := representative_eq_some.mp h
  refine representative_eq_some.mpr ⟨hmem, hmined, hboundary, ?_⟩
  intro other hother
  apply hmax other (hsub hother)

/-! ### Boundaries -/

variable {network : WalletNetwork} {timingPolicy : MigrationTimingPolicy}
  {anchorHeight activation : Nat}

theorem anchorBucketModulus_pos (network : WalletNetwork) (timingPolicy : MigrationTimingPolicy) :
  0 < anchorBucketModulus network timingPolicy
  := by
  cases network <;> cases timingPolicy <;> decide

theorem anchorBucketMinAge_le_one (network : WalletNetwork)
    (timingPolicy : MigrationTimingPolicy) :
  anchorBucketMinAge network timingPolicy ≤ 1
  := by
  cases network <;> cases timingPolicy <;> decide

/-- The height from which boundaries are used. -/
def lowestBoundary (mined activation : Nat) : Nat :=
  max mined (saturatingAdd32 activation 1)

/-- The first boundary at which a note can be proved has the least age. -/
theorem head?_candidateBoundaries {boundary : Nat} :
  (zip318AnchorCandidateBoundariesWithPolicy network timingPolicy anchorHeight mined
      activation).head? = some boundary
    ↔ ∃ latest, zip318AnchorBoundaryAtOrBeforeWithPolicy network timingPolicy anchorHeight
        = some latest
      ∧ latest = boundary
        + anchorBucketMinAge network timingPolicy * anchorBucketModulus network timingPolicy
      ∧ lowestBoundary mined activation ≤ boundary
  := by
  unfold zip318AnchorCandidateBoundariesWithPolicy
  cases hlatest : zip318AnchorBoundaryAtOrBeforeWithPolicy network timingPolicy anchorHeight with
  | none => simp
  | some latest =>
    have hages : zip318AnchorAgeCap + 1 - anchorBucketMinAge network timingPolicy
        = zip318AnchorAgeCap - anchorBucketMinAge network timingPolicy + 1 := by
      have hage := anchorBucketMinAge_le_one network timingPolicy
      unfold zip318AnchorAgeCap
      omega
    dsimp only
    rw [hages, List.range'_succ, candidateBoundaries]
    unfold checkedSub32 lowestBoundary
    simp only [Option.some.injEq]
    generalize anchorBucketMinAge network timingPolicy * anchorBucketModulus network timingPolicy
      = distance
    by_cases hdistance : distance ≤ latest
    · rw [if_pos hdistance]
      dsimp only
      split
      · rename_i hlow
        simp only [List.head?_nil]
        constructor
        · nofun
        · rintro ⟨_, rfl, rfl, hlowest⟩
          omega
      · rename_i hlow
        simp only [List.head?_cons, Option.some.injEq]
        constructor
        · rintro rfl
          exact ⟨latest, rfl, by omega, by omega⟩
        · rintro ⟨_, rfl, rfl, -⟩
          omega
    · rw [if_neg hdistance]
      simp only [List.head?_nil]
      constructor
      · nofun
      · rintro ⟨_, rfl, rfl, -⟩
        omega

/-- The boundaries of a batch are represented. -/
theorem mem_checkpointRepresentativesForScan {modulus frontier batchEnd : Nat}
    (hmodulus : 0 < modulus) (hfrontier : frontier ≤ boundary)
    (hactivation : saturatingAdd32 activation 1 ≤ boundary) (hend : boundary < batchEnd)
    (hheights : batchEnd ≤ u32Size) (hdvd : modulus ∣ boundary)
    (hc : representativeOrchardCheckpoint checkpoints boundary 0 = some c) :
  c ∈ checkpointRepresentativesForScan checkpoints activation frontier batchEnd modulus
  := by
  have hfirst : ∃ first, firstBoundaryOfScan activation frontier modulus = some first
      ∧ first ≤ boundary ∧ modulus ∣ first := by
    unfold firstBoundaryOfScan
    dsimp only
    set low := max frontier (saturatingAdd32 activation 1) with hlow
    have hle : low ≤ boundary := by omega
    split
    · rename_i hrem
      exact ⟨low, rfl, hle, Nat.dvd_of_mod_eq_zero hrem⟩
    · rename_i hrem
      have hnext : low + (modulus - low % modulus) = (low / modulus + 1) * modulus := by
        have hdiv := Nat.div_add_mod' low modulus
        have hlt := Nat.mod_lt low hmodulus
        rw [Nat.add_mul, Nat.one_mul]
        omega
      have hbelow : low + (modulus - low % modulus) ≤ boundary := by
        rw [hnext]
        obtain ⟨k, rfl⟩ := hdvd
        rw [Nat.mul_comm modulus k]
        apply Nat.mul_le_mul_right
        apply Nat.div_lt_of_lt_mul
        apply lt_of_le_of_ne hle
        intro heq
        rw [heq] at hrem
        simp at hrem
      refine ⟨low + (modulus - low % modulus), ?_, hbelow, ?_⟩
      · rw [checkedAdd32, if_pos (by omega)]
      · rw [hnext]
        apply Nat.dvd_mul_left modulus _
  obtain ⟨first, hfirst, hle, hdvd'⟩ := hfirst
  unfold checkpointRepresentativesForScan
  rw [if_neg (by omega), hfirst]
  apply List.mem_filterMap.mpr
  refine ⟨boundary, ?_, hc⟩
  apply List.mem_filter.mpr
  constructor
  · rw [List.mem_range'_1]
    omega
  · rw [decide_eq_true_eq]
    apply Nat.mod_eq_zero_of_dvd (Nat.dvd_sub hdvd hdvd')

/-- The checkpoint of the last boundary and that of the first at which the note can be proved
are wanted at an anchor. -/
theorem mem_migrationAnchorCheckpointsToRetain
    (hwanted : migrationAnchorRetentionBoundary network timingPolicy anchorHeight mined
        = some boundary
      ∨ (zip318AnchorCandidateBoundariesWithPolicy network timingPolicy anchorHeight mined
        activation).head? = some boundary)
    (hc : representativeOrchardCheckpoint checkpoints boundary mined = some c) :
  c ∈ migrationAnchorCheckpointsToRetain network timingPolicy anchorHeight mined activation
    checkpoints
  := by
  unfold migrationAnchorCheckpointsToRetain
  rcases hwanted with hlatest | hfirst
  · rw [hlatest]
    apply List.mem_filterMap.mpr
    exact ⟨boundary, List.mem_cons_self, hc⟩
  · obtain ⟨latest, hlatest, rfl, hlow⟩ := head?_candidateBoundaries.mp hfirst
    have hretention : migrationAnchorRetentionBoundary network timingPolicy anchorHeight mined
        = some (boundary
          + anchorBucketMinAge network timingPolicy * anchorBucketModulus network timingPolicy) := by
      unfold migrationAnchorRetentionBoundary
      rw [hlatest, Option.filter_some, if_pos]
      unfold lowestBoundary at hlow
      rw [decide_eq_true_eq]
      omega
    rw [hretention]
    apply List.mem_filterMap.mpr
    refine ⟨boundary, ?_, hc⟩
    rw [hfirst]
    simp

/-! ### A pass -/

namespace AnchorWorld

open AnchorLedger

variable {grid : AnchorGrid} {s : AnchorWorld} {desired : List (RunId × Nat)} {r : RunId}
  {height : Nat}

/-- What a run needs is in the ledger and retained. -/
def Pinned (s : AnchorWorld) (r : RunId) (height : Nat) : Prop :=
  (r, height) ∈ s.ledger.migrationAnchorRetentionReferences ∧ height ∈ s.retained

/-- A pass pins what it wants. -/
theorem maintain_pinned (h : (r, height) ∈ desired) :
  (s.maintain grid desired).Pinned r height
  := by
  have hreferences : (s.maintain grid desired).ledger.migrationAnchorRetentionReferences
      = desired := migrationAnchorRetentionReferences_of_map map_desiredRows
  have hheights : height ∈ heights desired := mem_heights.mpr ⟨r, h⟩
  constructor
  · rw [hreferences]
    apply h
  · apply Finset.mem_sdiff.mpr
    refine ⟨Finset.mem_union_right _ hheights, ?_⟩
    rw [List.mem_toFinset, mem_release]
    exact fun hrelease => hrelease.2.1 hheights

/-- A pass releases nothing that the wallet retains for itself. -/
theorem maintain_durable (hdurable : grid.isWalletDurableAnchor height = true)
    (h : height ∈ s.retained) :
  height ∈ (s.maintain grid desired).retained
  := by
  apply Finset.mem_sdiff.mpr
  refine ⟨Finset.mem_union_left _ h, ?_⟩
  rw [List.mem_toFinset, mem_release]
  rintro ⟨-, -, hnot⟩
  rw [hdurable] at hnot
  cases hnot

end AnchorWorld

namespace ScanWorld

variable {ctx : ScanContext} {w : ScanWorld} {batch : ScanBatch}
  {candidate : PreparedAnchorRetentionCandidate} {mined boundary c : Nat}

/-- The distance between the boundaries of a run. -/
def modulus (ctx : ScanContext) (r : RunId) : Nat :=
  anchorBucketModulus ctx.network (ctx.timingPolicy r)

/-- The wallet after the blocks of a batch are scanned. -/
def scanned (ctx : ScanContext) (w : ScanWorld) (batch : ScanBatch) : ScanWorld :=
  (w.retainMigrationAnchorCheckpointsBeforeScan ctx batch).scanCachedBlocks ctx batch

/-- The batches follow each other and their passes succeed, while a note is prepared and, from
the anchor that contains it on, unspent. -/
structure Scans (ctx : ScanContext) (candidate : PreparedAnchorRetentionCandidate) (mined : Nat)
    (w : ScanWorld) (batch : ScanBatch) : Prop where
  nonempty : batch.frontierHeight < batch.batchEnd
  heights : batch.batchEnd ≤ u32Size
  increasing : w.scannedEnd ≤ batch.frontierHeight + 1
  incoming : ∀ height ∈ batch.incomingCheckpointHeights,
    batch.frontierHeight < height ∧ height < batch.batchEnd
  anchor : ∀ anchorHeight, batch.anchorHeight = some anchorHeight → w.anchor ≤ anchorHeight
  prepared : candidate ∈ batch.candidates ∧ candidate ∈ batch.candidatesAfter
  unspent : ∀ anchorHeight, batch.anchorHeight = some anchorHeight → mined ≤ anchorHeight →
    batch.selectSpendable candidate.accountUuid anchorHeight candidate.note.outpoint
      = some ⟨candidate.note.valueZatoshi, some mined⟩
  passes : ((w.scanned ctx batch).retainPreparedNoteAnchorCheckpointsAfterScan ctx batch).2
    = .ok ()

/-- A boundary above the anchor and below the frontier is represented by a checkpoint that the
wallet retains for itself, or that is still one of the newest after the scan. -/
def KeepsGap (ctx : ScanContext) (candidate : PreparedAnchorRetentionCandidate) (mined : Nat)
    (w : ScanWorld) (batch : ScanBatch) : Prop :=
  ∀ boundary, modulus ctx candidate.runId ∣ boundary →
    lowestBoundary mined ctx.nu63ActivationHeight ≤ boundary →
    w.anchor < boundary → boundary < batch.frontierHeight →
    ∀ c, representativeOrchardCheckpoint w.checkpoints boundary mined = some c →
      c ∈ w.anchors.retained ∧ ctx.grid.isWalletDurableAnchor c = true
        ∨ (w.newer batch c).card < ctx.pruningDepth

/-- The boundary is represented, and the representative is pinned once the anchor has reached
the boundary. -/
def Safe (candidate : PreparedAnchorRetentionCandidate) (mined boundary : Nat) (w : ScanWorld) :
    Prop :=
  ∃ c, representativeOrchardCheckpoint w.checkpoints boundary mined = some c
    ∧ (w.anchor < boundary ∨ w.anchors.Pinned candidate.runId c)

/-- The first boundary at which the note can be proved is a later one. -/
def Passed (ctx : ScanContext) (r : RunId) (boundary : Nat) (w : ScanWorld) : Prop :=
  boundary + anchorBucketMinAge ctx.network (ctx.timingPolicy r) * modulus ctx r
    < w.anchor - w.anchor % modulus ctx r

theorem modulus_pos {r : RunId} :
  0 < modulus ctx r
  := anchorBucketModulus_pos _ _

/-- The pass before a scan pins what a run has pinned. -/
theorem beforeScan_pinned {r : RunId} (h : w.anchors.Pinned r c) :
  (w.retainMigrationAnchorCheckpointsBeforeScan ctx batch).anchors.Pinned r c
  := by
  unfold retainMigrationAnchorCheckpointsBeforeScan
  split
  · apply h
  · apply AnchorWorld.maintain_pinned
    unfold desiredBeforeScan
    rw [List.mem_dedup]
    apply List.mem_append_left _ h.1

/-- The pass before a scan pins the representatives of the boundaries of the batch. -/
theorem beforeScan_staged (h : Scans ctx candidate mined w batch)
    (hfrontier : batch.frontierHeight ≤ boundary) (hend : boundary < batch.batchEnd)
    (hlow : lowestBoundary mined ctx.nu63ActivationHeight ≤ boundary)
    (hdvd : modulus ctx candidate.runId ∣ boundary)
    (hc : representativeOrchardCheckpoint (w.scanCheckpoints batch) boundary mined = some c) :
  (w.retainMigrationAnchorCheckpointsBeforeScan ctx batch).anchors.Pinned candidate.runId c
  := by
  unfold retainMigrationAnchorCheckpointsBeforeScan
  rw [if_neg (List.ne_nil_of_mem h.prepared.1)]
  apply AnchorWorld.maintain_pinned
  unfold desiredBeforeScan
  rw [List.mem_dedup]
  apply List.mem_append_right
  apply List.mem_flatMap.mpr
  refine ⟨candidate.runId, ?_, ?_⟩
  · rw [List.mem_dedup]
    apply List.mem_map_of_mem h.prepared.1
  · apply List.mem_map.mpr
    refine ⟨c, ?_, rfl⟩
    unfold lowestBoundary at hlow
    apply mem_checkpointRepresentativesForScan modulus_pos hfrontier (by omega) hend h.heights hdvd
      (representative_zero hc)

/-- Scanning keeps what is retained, and what is one of the newest checkpoints. -/
theorem scanned_representative
    (hc : representativeOrchardCheckpoint (w.scanCheckpoints batch) boundary mined = some c)
    (hkept : c ∈ (w.retainMigrationAnchorCheckpointsBeforeScan ctx batch).anchors.retained
      ∨ (w.newer batch c).card < ctx.pruningDepth) :
  representativeOrchardCheckpoint (w.scanned ctx batch).checkpoints boundary mined = some c
  := by
  have hsame : (w.retainMigrationAnchorCheckpointsBeforeScan ctx batch).scanCheckpoints batch
      = w.scanCheckpoints batch := by
    unfold retainMigrationAnchorCheckpointsBeforeScan
    split <;> rfl
  have hnewer : (w.retainMigrationAnchorCheckpointsBeforeScan ctx batch).newer batch c
      = w.newer batch c := by
    unfold newer
    rw [hsame]
  apply representative_of_subset hc
  · intro height hheight
    unfold scanned scanCachedBlocks at hheight
    rw [hsame] at hheight
    apply (Finset.mem_filter.mp hheight).1
  · unfold scanned scanCachedBlocks
    apply Finset.mem_filter.mpr
    rw [hsame, hnewer]
    refine ⟨(representative_eq_some.mp hc).1, ?_⟩
    apply hkept.imp_left fun hretained => Finset.mem_union_left _ hretained

/-- A scan leaves the ledger as it is and releases nothing. -/
theorem scanned_pinned {r : RunId}
    (h : (w.retainMigrationAnchorCheckpointsBeforeScan ctx batch).anchors.Pinned r c) :
  (w.scanned ctx batch).anchors.Pinned r c
  := ⟨h.1, Finset.mem_union_left _ h.2⟩

theorem scanned_anchor :
  (w.scanned ctx batch).anchor = w.anchor
  := by
  unfold scanned scanCachedBlocks retainMigrationAnchorCheckpointsBeforeScan
  split <;> rfl

/-- A boundary is safe once it is scanned. -/
theorem scanned_new (h : Scans ctx candidate mined w batch)
    (hfrontier : batch.frontierHeight ≤ boundary) (hend : boundary < batch.batchEnd)
    (hlow : lowestBoundary mined ctx.nu63ActivationHeight ≤ boundary)
    (hdvd : modulus ctx candidate.runId ∣ boundary)
    (hc : representativeOrchardCheckpoint (w.scanCheckpoints batch) boundary mined = some c) :
  Safe candidate mined boundary (w.scanned ctx batch)
  := by
  have hpinned := beforeScan_staged h hfrontier hend hlow hdvd hc
  refine ⟨c, scanned_representative hc (.inl hpinned.2), .inr ?_⟩
  apply scanned_pinned hpinned

/-- A boundary that was scanned stays safe through the next scan. -/
theorem scanned_safe (h : Scans ctx candidate mined w batch)
    (hgap : KeepsGap ctx candidate mined w batch)
    (hlow : lowestBoundary mined ctx.nu63ActivationHeight ≤ boundary)
    (hdvd : modulus ctx candidate.runId ∣ boundary) (hbefore : boundary < w.scannedEnd)
    (hsafe : Safe candidate mined boundary w) :
  Safe candidate mined boundary (w.scanned ctx batch)
  := by
  have hincreasing := h.increasing
  obtain ⟨c, hc, hpinned⟩ := hsafe
  have hfrontier : boundary ≤ batch.frontierHeight := by omega
  rcases Nat.eq_or_lt_of_le hfrontier with heq | hlt
  · have hmined : mined ≤ batch.frontierHeight := by
      unfold lowestBoundary at hlow
      omega
    have hmem : batch.frontierHeight ∈ w.scanCheckpoints batch :=
      Finset.mem_union_left _ (Finset.mem_insert_self _ _)
    obtain ⟨c', hc'⟩ := exists_representative hmem hmined (le_of_eq heq.symm)
    have hnonempty := h.nonempty
    apply scanned_new h (le_of_eq heq.symm) (by omega) hlow hdvd hc'
  · have hsame : representativeOrchardCheckpoint (w.scanCheckpoints batch) boundary mined
        = some c := by
      obtain ⟨hmem, hmined, hle, hmax⟩ := representative_eq_some.mp hc
      refine representative_eq_some.mpr ⟨?_, hmined, hle, ?_⟩
      · apply Finset.mem_union_left _ (Finset.mem_insert_of_mem hmem)
      · intro other hother hother' hle'
        rcases Finset.mem_union.mp hother with hother | hother
        · rcases Finset.mem_insert.mp hother with rfl | hother
          · omega
          · apply hmax other hother hother' hle'
        · have hincoming := h.incoming other hother
          omega
    rcases hpinned with hanchor | hpinned
    · refine ⟨c, scanned_representative hsame ?_, .inl ?_⟩
      · rcases hgap boundary hdvd hlow hanchor hlt c hc with ⟨hretained, hdurable⟩ | hnewest
        · left
          unfold retainMigrationAnchorCheckpointsBeforeScan
          split
          · apply hretained
          · apply AnchorWorld.maintain_durable hdurable hretained
        · exact .inr hnewest
      · rw [scanned_anchor]
        apply hanchor
    · have hpinned' : (w.retainMigrationAnchorCheckpointsBeforeScan ctx batch).anchors.Pinned
          candidate.runId c := beforeScan_pinned hpinned
      refine ⟨c, scanned_representative hsame (.inl hpinned'.2), .inr ?_⟩
      apply scanned_pinned hpinned'

/-- Boundaries are reached by the last boundary before the anchor. -/
theorem le_latest {modulus boundary anchorHeight : Nat} (hdvd : modulus ∣ boundary)
    (hle : boundary ≤ anchorHeight) :
  boundary ≤ anchorHeight - anchorHeight % modulus
  := by
  obtain ⟨k, rfl⟩ := hdvd
  rcases Nat.eq_zero_or_pos modulus with rfl | hpos
  · omega
  · have hk : k ≤ anchorHeight / modulus :=
      (Nat.le_div_iff_mul_le hpos).mpr (by rw [Nat.mul_comm]; exact hle)
    have hdiv := Nat.div_add_mod anchorHeight modulus
    have hmul := Nat.mul_le_mul_left modulus hk
    omega

/-- The last boundary, the first at which the note can be proved, and those before it. -/
theorem wanted_or_passed {r : RunId} {anchorHeight : Nat}
    (hlow : lowestBoundary mined ctx.nu63ActivationHeight ≤ boundary)
    (hdvd : modulus ctx r ∣ boundary) (hle : boundary ≤ anchorHeight) :
  (migrationAnchorRetentionBoundary ctx.network (ctx.timingPolicy r) anchorHeight mined
        = some boundary
      ∨ (zip318AnchorCandidateBoundariesWithPolicy ctx.network (ctx.timingPolicy r) anchorHeight
        mined ctx.nu63ActivationHeight).head? = some boundary)
    ∨ boundary + anchorBucketMinAge ctx.network (ctx.timingPolicy r) * modulus ctx r
      < anchorHeight - anchorHeight % modulus ctx r
  := by
  have hpos : 0 < boundary := by
    unfold lowestBoundary saturatingAdd32 u32Size at hlow
    omega
  have hlatest := le_latest hdvd hle
  have hread : zip318AnchorBoundaryAtOrBeforeWithPolicy ctx.network (ctx.timingPolicy r)
      anchorHeight = some (anchorHeight - anchorHeight % modulus ctx r) := by
    unfold zip318AnchorBoundaryAtOrBeforeWithPolicy
    dsimp only
    apply if_pos
    unfold modulus at hlatest
    omega
  have hdvd' : modulus ctx r ∣ anchorHeight - anchorHeight % modulus ctx r :=
    Nat.dvd_sub_mod anchorHeight
  set latest := anchorHeight - anchorHeight % modulus ctx r with hdef
  by_cases heq : boundary = latest
  · left
    left
    unfold migrationAnchorRetentionBoundary
    rw [hread, heq, Option.filter_some, if_pos]
    unfold lowestBoundary at hlow
    rw [decide_eq_true_eq]
    omega
  · have hnext : boundary + modulus ctx r ≤ latest := by
      obtain ⟨k, hk⟩ := hdvd
      obtain ⟨l, hl⟩ := hdvd'
      have hlt : k < l := by
        by_contra hnot
        have hmul := Nat.mul_le_mul_left (modulus ctx r) (Nat.le_of_not_lt hnot)
        omega
      have hmul := Nat.mul_le_mul_left (modulus ctx r) hlt
      rw [Nat.mul_succ] at hmul
      omega
    have hage : anchorBucketMinAge ctx.network (ctx.timingPolicy r) * modulus ctx r
        ≤ modulus ctx r := by
      have hmul := Nat.mul_le_mul_right (modulus ctx r)
        (anchorBucketMinAge_le_one ctx.network (ctx.timingPolicy r))
      omega
    by_cases hfirst : latest
        = boundary + anchorBucketMinAge ctx.network (ctx.timingPolicy r) * modulus ctx r
    · left
      right
      apply head?_candidateBoundaries.mpr ⟨latest, hread, hfirst, hlow⟩
    · right
      omega

/-- The pass after a scan pins the boundary once the anchor has reached it, until it is
passed. -/
theorem afterScan_safe (h : Scans ctx candidate mined w batch)
    (hlow : lowestBoundary mined ctx.nu63ActivationHeight ≤ boundary)
    (hdvd : modulus ctx candidate.runId ∣ boundary)
    (hsafe : Safe candidate mined boundary (w.scanned ctx batch)) :
  Safe candidate mined boundary (w.step ctx batch)
    ∨ Passed ctx candidate.runId boundary (w.step ctx batch)
  := by
  have hstep : w.step ctx batch
      = ((w.scanned ctx batch).retainPreparedNoteAnchorCheckpointsAfterScan ctx batch).1 := rfl
  have hpasses := h.passes
  rw [hstep]
  unfold retainPreparedNoteAnchorCheckpointsAfterScan at hpasses ⊢
  rw [if_neg (List.ne_nil_of_mem h.prepared.2)] at hpasses ⊢
  cases hanchor : batch.anchorHeight with
  | none => exact .inl hsafe
  | some anchorHeight =>
    rw [hanchor] at hpasses
    dsimp only at hpasses ⊢
    cases hdesired : (w.scanned ctx batch).desiredAfterScan ctx batch anchorHeight with
    | error e =>
      rw [hdesired] at hpasses
      cases hpasses
    | ok desired =>
      obtain ⟨c, hc, -⟩ := hsafe
      dsimp only
      by_cases hbelow : anchorHeight < boundary
      · exact .inl ⟨c, hc, .inl hbelow⟩
      · have hle := Nat.le_of_not_lt hbelow
        rcases wanted_or_passed hlow hdvd hle with hwanted | hpassed
        · left
          refine ⟨c, hc, .inr ?_⟩
          apply AnchorWorld.maintain_pinned
          obtain ⟨references, hreferences, hflatten⟩ := bind_eq_ok.mp hdesired
          obtain rfl := pure_eq_ok.mp hflatten
          obtain ⟨needed, hneeded, hread⟩ :=
            mem_of_mapM_eq_ok hreferences candidate h.prepared.2
          have hmined : mined ≤ anchorHeight := by
            unfold lowestBoundary at hlow
            omega
          unfold candidateReferences at hread
          obtain ⟨_, -, hread⟩ := bind_eq_ok.mp hread
          rw [h.unspent anchorHeight hanchor hmined] at hread
          obtain ⟨_, -, hread⟩ := bind_eq_ok.mp hread
          obtain ⟨_, hheight, hread⟩ := bind_eq_ok.mp hread
          obtain rfl : mined = _ := by simpa using hheight
          obtain rfl := pure_eq_ok.mp hread
          rw [List.mem_dedup, List.mem_flatten]
          refine ⟨_, hneeded, ?_⟩
          apply List.mem_map_of_mem
          apply mem_migrationAnchorCheckpointsToRetain hwanted hc
        · exact .inr hpassed

/-- A boundary that is passed stays so. -/
theorem passed_step {r : RunId} (h : Scans ctx candidate mined w batch)
    (hpassed : Passed ctx r boundary w) :
  Passed ctx r boundary (w.step ctx batch)
  := by
  have hmono : w.anchor ≤ (w.step ctx batch).anchor := by
    unfold step retainPreparedNoteAnchorCheckpointsAfterScan
    split
    · apply le_of_eq scanned_anchor.symm
    · split
      · apply le_of_eq scanned_anchor.symm
      · rename_i anchorHeight hanchor
        split
        · apply le_of_eq scanned_anchor.symm
        · apply h.anchor anchorHeight hanchor
  unfold Passed at hpassed ⊢
  apply lt_of_lt_of_le hpassed
  apply le_latest (Nat.dvd_sub_mod _)
  omega

theorem scannedEnd_step :
  (w.step ctx batch).scannedEnd = batch.batchEnd
  := by
  unfold step retainPreparedNoteAnchorCheckpointsAfterScan
  split
  · rfl
  · split
    · rfl
    · split <;> rfl

/-- In every sequence of batches that keeps the checkpoints between the anchor and the
frontier: the first boundary at which a note can be proved has a checkpoint that contains the
note, if it had one when it was scanned. -/
theorem anchor_survives {before later : List ScanBatch}
    (hsteps : Along (step ctx) (fun w batch => Scans ctx candidate mined w batch
      ∧ KeepsGap ctx candidate mined w batch) w (before ++ batch :: later))
    (hscanned : batch.frontierHeight ≤ boundary ∧ boundary < batch.batchEnd)
    (hcheckpoint : ∃ height ∈ (after (step ctx) w before).scanCheckpoints batch,
      mined ≤ height ∧ height ≤ boundary)
    (heligible : (zip318AnchorCandidateBoundariesWithPolicy ctx.network
      (ctx.timingPolicy candidate.runId) (after (step ctx) w (before ++ batch :: later)).anchor
      mined ctx.nu63ActivationHeight).head? = some boundary) :
  ∃ c, representativeOrchardCheckpoint
    (after (step ctx) w (before ++ batch :: later)).checkpoints boundary mined = some c
  := by
  obtain ⟨latest, hlatest, hage, hlow⟩ := head?_candidateBoundaries.mp heligible
  have hdef : latest = (after (step ctx) w (before ++ batch :: later)).anchor
      - (after (step ctx) w (before ++ batch :: later)).anchor % modulus ctx candidate.runId := by
    unfold zip318AnchorBoundaryAtOrBeforeWithPolicy at hlatest
    dsimp only at hlatest
    split at hlatest
    · apply (Option.some.inj hlatest).symm
    · cases hlatest
  have hdvd : modulus ctx candidate.runId ∣ boundary := by
    have hdvd' : modulus ctx candidate.runId ∣ latest := by
      rw [hdef]
      apply Nat.dvd_sub_mod _
    rw [hage] at hdvd'
    apply (Nat.dvd_add_left (Nat.dvd_mul_left _ _)).mp hdvd'
  have hend : Safe candidate mined boundary (after (step ctx) w (before ++ batch :: later))
      ∨ Passed ctx candidate.runId boundary (after (step ctx) w (before ++ batch :: later)) := by
    rw [along_append] at hsteps
    obtain ⟨-, ⟨hscans, -⟩, hlater⟩ := hsteps
    rw [after_append, after_cons]
    set v := after (step ctx) w before
    have hfirst : boundary < (v.step ctx batch).scannedEnd
        ∧ (Safe candidate mined boundary (v.step ctx batch)
          ∨ Passed ctx candidate.runId boundary (v.step ctx batch)) := by
      obtain ⟨height, hmem, hmined, hle⟩ := hcheckpoint
      obtain ⟨c, hc⟩ := exists_representative hmem hmined hle
      refine ⟨by rw [scannedEnd_step]; exact hscanned.2, ?_⟩
      apply afterScan_safe hscans hlow hdvd
      apply scanned_new hscans hscanned.1 hscanned.2 hlow hdvd hc
    refine (invariant (I := fun u => boundary < u.scannedEnd
      ∧ (Safe candidate mined boundary u ∨ Passed ctx candidate.runId boundary u)) ?_ hfirst
        hlater).2
    rintro u next ⟨hbefore, hu⟩ ⟨hnext, hgap⟩
    constructor
    · have hincreasing := hnext.increasing
      have hnonempty := hnext.nonempty
      rw [scannedEnd_step]
      omega
    · rcases hu with hsafe | hpassed
      · apply afterScan_safe hnext hlow hdvd
        apply scanned_safe hnext hgap hlow hdvd hbefore hsafe
      · exact .inr (passed_step hnext hpassed)
  rcases hend with ⟨c, hc, -⟩ | hpassed
  · exact ⟨c, hc⟩
  · unfold Passed at hpassed
    rw [← hdef, hage] at hpassed
    exact absurd hpassed (lt_irrefl _)

/-! ### A boundary between the anchor and the frontier -/

/-- A prepared note of run 1. -/
def sampleCandidate : PreparedAnchorRetentionCandidate :=
  ⟨1, 1, ⟨5, 0, 110, 2, none⟩⟩

/-- The main network, with boundaries at the multiples of 144. -/
def sampleContext : ScanContext where
  network := .main
  grid := ⟨some 1000, 144⟩
  nu63ActivationHeight := 1000
  timingPolicy _ := .standard
  pruningDepth := 100

/-- A wallet that was scanned up to 1400. -/
def sampleScanned : ScanWorld where
  anchors := ⟨[], ∅, none⟩
  checkpoints := {1300, 1390}
  scannedEnd := 1401
  anchor := 1390

/-- A batch for the sample note, which is mined at height 1300. -/
def sampleBatch (frontierHeight batchEnd anchorHeight : Nat) (incoming : Finset Nat) :
    ScanBatch where
  candidates := [sampleCandidate]
  frontierHeight := frontierHeight
  batchEnd := batchEnd
  incomingCheckpointHeights := incoming
  walletRetained := ∅
  candidatesAfter := [sampleCandidate]
  anchorHeight := some anchorHeight
  accountExists _ := true
  selectSpendable _ _ _ := some ⟨110, some 1300⟩

/-- The boundary 1440 has no checkpoint of its own, and is above the anchor after this batch. -/
def sampleTip : ScanBatch := sampleBatch 1400 1443 1438 {1405, 1438}

/-- The batch continues the scan. -/
theorem scans_sampleBatch {w : ScanWorld} {frontierHeight batchEnd anchorHeight : Nat}
    {incoming : Finset Nat} (hnonempty : frontierHeight < batchEnd ∧ batchEnd ≤ u32Size)
    (hincreasing : w.scannedEnd ≤ frontierHeight + 1)
    (hincoming : ∀ height ∈ incoming, frontierHeight < height ∧ height < batchEnd)
    (hanchor : w.anchor ≤ anchorHeight) :
  Scans sampleContext sampleCandidate 1300 w
    (sampleBatch frontierHeight batchEnd anchorHeight incoming)
  where
  nonempty := hnonempty.1
  heights := hnonempty.2
  increasing := hincreasing
  incoming := hincoming
  anchor other h := by
    cases h
    apply hanchor
  prepared := ⟨List.mem_singleton_self _, List.mem_singleton_self _⟩
  unspent other h _ := by
    cases h
    rfl
  passes := rfl

/-- Without a boundary between the anchor and the frontier there is nothing to keep. -/
theorem keepsGap_of_none {w : ScanWorld} {batch : ScanBatch}
    (h : ∀ k, w.anchor < 144 * k → ¬144 * k < batch.frontierHeight) :
  KeepsGap sampleContext sampleCandidate 1300 w batch
  := by
  rintro _ ⟨k, rfl⟩ _ hanchor hfrontier
  exact absurd hfrontier (h k hanchor)

/-- After a few blocks the anchor reaches the boundary 1440, whose checkpoint is retained until
the note can be proved there. -/
theorem anchor_survives_sample :
  ∃ c, representativeOrchardCheckpoint (after (step sampleContext) sampleScanned
      ([] ++ sampleTip :: [sampleBatch 1442 1500 1497 {1450, 1497},
        sampleBatch 1499 1600 1597 {1550, 1597}])).checkpoints 1440 1300 = some c
  := by
  have hsteps : Along (step sampleContext) (fun w batch =>
      Scans sampleContext sampleCandidate 1300 w batch
        ∧ KeepsGap sampleContext sampleCandidate 1300 w batch) sampleScanned
      ([] ++ sampleTip :: [sampleBatch 1442 1500 1497 {1450, 1497},
        sampleBatch 1499 1600 1597 {1550, 1597}]) := by
    refine ⟨⟨?_, ?_⟩, ⟨?_, ?_⟩, ⟨?_, ?_⟩, trivial⟩
    · apply scans_sampleBatch <;> decide +kernel
    · apply keepsGap_of_none
      intro k
      change 1390 < 144 * k → ¬144 * k < 1400
      omega
    · apply scans_sampleBatch <;> decide +kernel
    · rintro _ ⟨k, rfl⟩ _ hanchor hfrontier c hc
      obtain rfl : k = 10 := by
        change 1438 < 144 * k at hanchor
        change 144 * k < 1442 at hfrontier
        omega
      have hread : representativeOrchardCheckpoint
          (sampleScanned.step sampleContext sampleTip).checkpoints 1440 1300 = some 1438 := by
        decide +kernel
      obtain rfl : 1438 = c := Option.some.inj (hread.symm.trans hc)
      right
      decide +kernel
    · apply scans_sampleBatch <;> decide +kernel
    · apply keepsGap_of_none
      intro k
      change 1497 < 144 * k → ¬144 * k < 1499
      omega
  apply anchor_survives hsteps (by decide +kernel) (by decide +kernel) (by decide +kernel)

/-- After many blocks the checkpoint of the boundary 1440 is pruned before the anchor reaches
it. -/
theorem sampleTip_not_survives :
  Along (step sampleContext) (Scans sampleContext sampleCandidate 1300) sampleScanned
      [sampleTip, sampleBatch 1442 1600 1597 (List.range' 1497 101).toFinset]
    ∧ (sampleTip.frontierHeight ≤ 1440 ∧ 1440 < sampleTip.batchEnd)
    ∧ (∃ height ∈ sampleScanned.scanCheckpoints sampleTip, 1300 ≤ height ∧ height ≤ 1440)
    ∧ (zip318AnchorCandidateBoundariesWithPolicy .main .standard
        (after (step sampleContext) sampleScanned [sampleTip, sampleBatch 1442 1600 1597
          (List.range' 1497 101).toFinset]).anchor 1300 1000).head? = some 1440
    ∧ representativeOrchardCheckpoint (after (step sampleContext) sampleScanned [sampleTip,
        sampleBatch 1442 1600 1597 (List.range' 1497 101).toFinset]).checkpoints 1440 1300 = none
  := by
  refine ⟨⟨?_, ?_, trivial⟩, by decide +kernel, by decide +kernel, by decide +kernel,
    by decide +kernel⟩
  · apply scans_sampleBatch <;> decide +kernel
  · apply scans_sampleBatch <;> decide +kernel

end ScanWorld

end Vizor
