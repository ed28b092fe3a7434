import Mathlib.Data.Finset.Sort
import Vizor.Store.Rows

/-!
# Retention of anchor checkpoints

The checkpoints that the proofs of a migration need are retained in the note commitment
tree, and the store keeps a ledger of the runs that need them and of the retentions that the
migration owns.  A maintenance pass first records in the ledger what is needed from now on,
with a sentinel for every owned checkpoint that is not needed any more, then retains and
releases checkpoints in the tree, and last removes the sentinels.  A pass may stop at any
point, and the next one starts from what the ledger says.
-/

namespace Vizor

/-! ### The ledger -/

/-- The owner of a reference: a run, or the sentinel of the releases to be finished. -/
inductive RetentionOwner where
  | run (r : RunId)
  | releaseSentinel
  deriving DecidableEq, Repr

/-- A row of the ledger. -/
structure RetainedAnchor where
  owner : RetentionOwner
  checkpointHeight : Nat
  ownsRetention : Bool
  deriving DecidableEq, Repr

/-- The grid of the checkpoints that the wallet itself retains. -/
structure AnchorGrid where
  /-- The height of activation, if there is one. -/
  floor : Option Nat
  /-- The number of blocks between checkpoints of the grid. -/
  blockCount : Nat
  deriving DecidableEq, Repr

/-- Whether the wallet retains the checkpoint for itself. -/
def AnchorGrid.isWalletDurableAnchor (grid : AnchorGrid) (height : Nat) : Bool :=
  grid.floor.any (fun floor => floor ≤ height) && decide (grid.blockCount ∣ height)

/-- The ledger of a network. -/
abbrev AnchorLedger := List RetainedAnchor

namespace AnchorLedger

/-- The checkpoints whose retention the migration owns. -/
def currentlyOwned (ledger : AnchorLedger) : Finset Nat :=
  ((ledger.filter fun row => row.ownsRetention).map (·.checkpointHeight)).toFinset

/-- The checkpoints that runs need. -/
def migrationAnchorRetentionReferences (ledger : AnchorLedger) : List (RunId × Nat) :=
  ledger.filterMap fun row => match row.owner with
    | .run r => some (r, row.checkpointHeight)
    | .releaseSentinel => none

/-- The checkpoint heights of references. -/
def heights (references : List (RunId × Nat)) : Finset Nat :=
  (references.map (·.2)).toFinset

/-- Record a reference, which owns the retention unless the wallet had it first or another
reference owns it. -/
def recordReference (grid : AnchorGrid) (owned retainedBefore : Finset Nat) :
    AnchorLedger × Finset Nat → RunId × Nat → AnchorLedger × Finset Nat
  | (rows, ownerAssigned), (r, height) =>
    let migrationOwns := decide (height ∈ owned) || decide (height ∉ retainedBefore)
      || !grid.isWalletDurableAnchor height
    let ownsRetention := migrationOwns && decide (height ∉ ownerAssigned)
    (rows ++ [⟨.run r, height, ownsRetention⟩],
      if ownsRetention then insert height ownerAssigned else ownerAssigned)

/-- The owned checkpoints that are not needed any more, in increasing order. -/
def release (grid : AnchorGrid) (ledger : AnchorLedger) (desired : List (RunId × Nat)) :
    List Nat :=
  ((ledger.currentlyOwned \ heights desired).filter fun height =>
    grid.isWalletDurableAnchor height = false).sort

/-- The rows of the references that are needed. -/
def desiredRows (grid : AnchorGrid) (ledger : AnchorLedger) (desired : List (RunId × Nat))
    (retainedBefore : Finset Nat) : AnchorLedger :=
  (desired.foldl (recordReference grid ledger.currentlyOwned retainedBefore) ([], ∅)).1

/-- The row of a release that is not finished. -/
def releaseRow (height : Nat) : RetainedAnchor :=
  ⟨.releaseSentinel, height, true⟩

/-- Record what is needed from now on, and the releases to be finished. -/
def stageMigrationAnchorRetentionReferences (grid : AnchorGrid) (ledger : AnchorLedger)
    (desired : List (RunId × Nat)) (retainedBefore : Finset Nat) : AnchorLedger × List Nat :=
  let release := ledger.release grid desired
  (ledger.desiredRows grid desired retainedBefore ++ release.map releaseRow, release)

/-- Remove the sentinels of releases. -/
def finishMigrationAnchorRetentionReleases (ledger : AnchorLedger) (released : List Nat) :
    AnchorLedger :=
  ledger.filter fun row => !(row.owner = .releaseSentinel && row.checkpointHeight ∈ released)

end AnchorLedger

/-! ### Passes -/

/-- The point that a maintenance pass has reached. -/
inductive RetentionPass where
  /-- The references are to be recorded. -/
  | staging (desired : List (RunId × Nat)) (retainedBefore : Finset Nat)
  /-- Checkpoints are to be retained and released in the tree, and then the sentinels of
  `released` are to be removed. -/
  | applying (retain release released : List Nat)
  deriving DecidableEq

/-- The ledger, the checkpoints that the tree retains, and the pass that is running. -/
structure AnchorWorld where
  ledger : AnchorLedger
  retained : Finset Nat
  pass : Option RetentionPass := none
  deriving DecidableEq

/-- What can happen next. -/
inductive AnchorOp where
  /-- A pass starts, if none is running. -/
  | begin (desired : List (RunId × Nat))
  /-- The pass commits its next change. -/
  | advance
  /-- The pass stops, because of an error or with the process. -/
  | crash
  /-- The wallet retains a checkpoint of its grid. -/
  | walletRetain (height : Nat)
  deriving DecidableEq

namespace AnchorWorld

open AnchorLedger Run

/-- Commit the next change of the pass. -/
def advance (grid : AnchorGrid) (s : AnchorWorld) : AnchorWorld :=
  match s.pass with
  | none => s
  | some (.staging desired retainedBefore) =>
    let (ledger, release) :=
      s.ledger.stageMigrationAnchorRetentionReferences grid desired retainedBefore
    { s with
      ledger := ledger
      pass := some (.applying (heights desired).sort release release) }
  | some (.applying (height :: retain) release released) =>
    { s with
      retained := insert height s.retained
      pass := some (.applying retain release released) }
  | some (.applying [] (height :: release) released) =>
    { s with
      retained := s.retained.erase height
      pass := some (.applying [] release released) }
  | some (.applying [] [] released) =>
    { s with
      ledger := s.ledger.finishMigrationAnchorRetentionReleases released
      pass := none }

/-- What happens next. -/
def step (grid : AnchorGrid) (s : AnchorWorld) : AnchorOp → AnchorWorld
  | .begin desired =>
    if s.pass.isNone then { s with pass := some (.staging desired s.retained) } else s
  | .advance => s.advance grid
  | .crash => { s with pass := none }
  | .walletRetain height =>
    if grid.isWalletDurableAnchor height then { s with retained := insert height s.retained }
    else s

/-- The migration owns the retention of a checkpoint. -/
def Owned (s : AnchorWorld) (height : Nat) : Prop :=
  height ∈ s.ledger.currentlyOwned

/-- A run needs the checkpoint. -/
def Desired (s : AnchorWorld) (height : Nat) : Prop :=
  height ∈ heights s.ledger.migrationAnchorRetentionReferences

end AnchorWorld

/-! ### What a pass records -/

namespace AnchorLedger

variable {grid : AnchorGrid} {ledger ledger' : AnchorLedger} {desired : List (RunId × Nat)}
  {retainedBefore : Finset Nat} {h : Nat}

theorem mem_currentlyOwned :
  h ∈ ledger.currentlyOwned
    ↔ ∃ row ∈ ledger, row.ownsRetention = true ∧ row.checkpointHeight = h
  := by
  simp [currentlyOwned, and_assoc]

theorem mem_currentlyOwned_append :
  h ∈ currentlyOwned (ledger ++ ledger')
    ↔ h ∈ ledger.currentlyOwned ∨ h ∈ ledger'.currentlyOwned
  := by
  simp only [mem_currentlyOwned, List.mem_append]
  grind

theorem mem_heights :
  h ∈ heights desired ↔ ∃ r, (r, h) ∈ desired
  := by
  simp [heights]

/-- A checkpoint that is needed and whose retention is the migration's is owned, whatever
was recorded before it. -/
theorem mem_currentlyOwned_foldl {owned : Finset Nat} {rows : AnchorLedger}
    {ownerAssigned : Finset Nat} (hassigned : ownerAssigned ⊆ rows.currentlyOwned)
    (h' : h ∈ rows.currentlyOwned ∨ h ∈ heights desired
      ∧ (h ∈ owned ∨ grid.isWalletDurableAnchor h = false)) :
  h ∈ (desired.foldl (recordReference grid owned retainedBefore)
    (rows, ownerAssigned)).1.currentlyOwned
  := by
  induction desired generalizing rows ownerAssigned with
  | nil => simpa [heights] using h'
  | cons reference desired ih =>
    obtain ⟨r, height⟩ := reference
    rw [List.foldl_cons, recordReference]
    apply ih
    · intro other hother
      rw [mem_currentlyOwned_append]
      split at hother
      · rename_i howns
        rcases Finset.mem_insert.mp hother with rfl | hother
        · right
          rw [mem_currentlyOwned]
          exact ⟨_, List.mem_singleton_self _, howns, rfl⟩
        · exact .inl (hassigned hother)
      · exact .inl (hassigned hother)
    · rcases h' with hrows | ⟨hneeded, howned⟩
      · left
        rw [mem_currentlyOwned_append]
        exact .inl hrows
      · obtain ⟨r', hmem⟩ := mem_heights.mp hneeded
        rcases List.mem_cons.mp hmem with heq | hrest
        · obtain ⟨rfl, rfl⟩ := Prod.mk.inj heq
          left
          rw [mem_currentlyOwned_append]
          by_cases hin : h ∈ ownerAssigned
          · exact .inl (hassigned hin)
          · right
            rw [mem_currentlyOwned]
            refine ⟨_, List.mem_singleton_self _, ?_, rfl⟩
            rcases howned with howned | hdurable
            · simp [howned, hin]
            · simp [hdurable, hin]
        · exact .inr ⟨mem_heights.mpr ⟨r', hrest⟩, howned⟩

/-- The rows of the references are the references, in their order. -/
theorem map_foldl_recordReference {owned : Finset Nat} {rows : AnchorLedger}
    {ownerAssigned : Finset Nat} :
  (desired.foldl (recordReference grid owned retainedBefore) (rows, ownerAssigned)).1.map
      (fun row => (row.owner, row.checkpointHeight))
    = rows.map (fun row => (row.owner, row.checkpointHeight))
      ++ desired.map fun reference => (.run reference.1, reference.2)
  := by
  induction desired generalizing rows ownerAssigned with
  | nil => simp
  | cons reference desired ih =>
    obtain ⟨r, height⟩ := reference
    rw [List.foldl_cons, recordReference, ih]
    simp

/-- The owners and the heights of the rows of the references. -/
theorem map_desiredRows :
  (ledger.desiredRows grid desired retainedBefore).map
      (fun row => (row.owner, row.checkpointHeight))
    = desired.map fun reference => (.run reference.1, reference.2)
  := by
  rw [desiredRows, map_foldl_recordReference, List.map_nil, List.nil_append]

/-- The row of a reference is of a run that needs the checkpoint. -/
theorem mem_of_mem_desiredRows {row : RetainedAnchor}
    (hrow : row ∈ ledger.desiredRows grid desired retainedBefore) :
  ∃ r, row.owner = .run r ∧ (r, row.checkpointHeight) ∈ desired
  := by
  have hmem : (row.owner, row.checkpointHeight)
      ∈ (ledger.desiredRows grid desired retainedBefore).map
        (fun row => (row.owner, row.checkpointHeight)) := List.mem_map_of_mem hrow
  rw [map_desiredRows, List.mem_map] at hmem
  obtain ⟨⟨r, height⟩, hreference, heq⟩ := hmem
  obtain ⟨howner, rfl⟩ := Prod.mk.inj heq
  exact ⟨r, howner.symm, hreference⟩

theorem mem_release :
  h ∈ ledger.release grid desired
    ↔ h ∈ ledger.currentlyOwned ∧ h ∉ heights desired ∧ grid.isWalletDurableAnchor h = false
  := by
  simp [release, and_assoc]

/-- The references of rows of runs are the runs and the heights of the rows. -/
theorem migrationAnchorRetentionReferences_of_map {references : List (RunId × Nat)}
    (hrows : ledger.map (fun row => (row.owner, row.checkpointHeight))
      = references.map fun reference => (.run reference.1, reference.2)) :
  ledger.migrationAnchorRetentionReferences = references
  := by
  induction references generalizing ledger with
  | nil =>
    obtain rfl : ledger = [] := by simpa using hrows
    rfl
  | cons reference references ih =>
    cases ledger with
    | nil => cases hrows
    | cons row rows =>
      simp only [List.map_cons, List.cons.injEq, Prod.mk.injEq] at hrows
      obtain ⟨⟨howner, hheight⟩, hrest⟩ := hrows
      rw [migrationAnchorRetentionReferences, List.filterMap_cons, howner]
      simp only [hheight]
      apply congrArg _ (ih hrest)

theorem references_releaseRow {released : List Nat} :
  migrationAnchorRetentionReferences (released.map releaseRow) = []
  := by
  simp [migrationAnchorRetentionReferences, releaseRow]

/-- After recording, the runs need what the pass wants. -/
theorem stage_references :
  (ledger.stageMigrationAnchorRetentionReferences grid desired
    retainedBefore).1.migrationAnchorRetentionReferences = desired
  := by
  have hrows : (ledger.desiredRows grid desired
      retainedBefore).migrationAnchorRetentionReferences = desired :=
    migrationAnchorRetentionReferences_of_map map_desiredRows
  have hrelease : migrationAnchorRetentionReferences
      ((ledger.release grid desired).map releaseRow) = [] := references_releaseRow
  rw [migrationAnchorRetentionReferences] at hrows hrelease
  rw [stageMigrationAnchorRetentionReferences, migrationAnchorRetentionReferences,
    List.filterMap_append, hrows, hrelease, List.append_nil]

/-- What the migration owned stays recorded, and what is needed is owned, unless the wallet
retains it for itself. -/
theorem mem_stage (hdurable : grid.isWalletDurableAnchor h = false)
    (h' : h ∈ ledger.currentlyOwned ∨ h ∈ heights desired) :
  h ∈ (ledger.stageMigrationAnchorRetentionReferences grid desired
    retainedBefore).1.currentlyOwned
  := by
  rw [stageMigrationAnchorRetentionReferences, mem_currentlyOwned_append]
  by_cases hneeded : h ∈ heights desired
  · left
    apply mem_currentlyOwned_foldl (Finset.empty_subset _)
    exact .inr ⟨hneeded, .inr hdurable⟩
  · right
    rw [mem_currentlyOwned]
    have howned : h ∈ ledger.currentlyOwned := h'.resolve_right hneeded
    refine ⟨releaseRow h, List.mem_map_of_mem ?_, rfl, rfl⟩
    apply mem_release.mpr ⟨howned, hneeded, hdurable⟩

/-- After the sentinels are removed, only what the pass wants is left. -/
theorem finish_stage :
  (ledger.stageMigrationAnchorRetentionReferences grid desired
      retainedBefore).1.finishMigrationAnchorRetentionReleases (ledger.release grid desired)
    = ledger.desiredRows grid desired retainedBefore
  := by
  rw [stageMigrationAnchorRetentionReferences, finishMigrationAnchorRetentionReleases,
    List.filter_append]
  have hrows : (ledger.desiredRows grid desired retainedBefore).filter (fun row =>
      !(row.owner = .releaseSentinel && row.checkpointHeight ∈ ledger.release grid desired))
      = ledger.desiredRows grid desired retainedBefore := by
    rw [List.filter_eq_self]
    intro row hrow
    obtain ⟨r, howner, -⟩ := mem_of_mem_desiredRows hrow
    simp [howner]
  have hsentinels : ((ledger.release grid desired).map releaseRow).filter (fun row =>
      !(row.owner = .releaseSentinel && row.checkpointHeight ∈ ledger.release grid desired))
      = [] := by
    rw [List.filter_eq_nil_iff]
    intro row hrow
    obtain ⟨height, hheight, rfl⟩ := List.mem_map.mp hrow
    simp [releaseRow, hheight]
  rw [hrows, hsentinels, List.append_nil]

/-- Only the sentinels of the releases that are finished are removed. -/
theorem mem_finish {released : List Nat} (howned : h ∈ ledger.currentlyOwned)
    (hreleased : h ∉ released) :
  h ∈ (ledger.finishMigrationAnchorRetentionReleases released).currentlyOwned
  := by
  rw [mem_currentlyOwned] at *
  obtain ⟨row, hrow, howns, rfl⟩ := howned
  refine ⟨row, ?_, howns, rfl⟩
  rw [finishMigrationAnchorRetentionReleases, List.mem_filter]
  simp [hrow, hreleased]

end AnchorLedger

namespace AnchorWorld

open AnchorLedger Run

variable {grid : AnchorGrid} {s : AnchorWorld} {foreign : Nat → Prop}

/-! ### What holds at every point of a pass -/

/-- What holds while a pass changes the tree. -/
structure Applying (grid : AnchorGrid) (s : AnchorWorld) (retain release released : List Nat) :
    Prop where
  /-- Only what is needed is still to be retained. -/
  needed : ∀ h ∈ retain, s.Desired h
  /-- What is needed is owned, unless the wallet retains it for itself. -/
  owned : ∀ h, s.Desired h → grid.isWalletDurableAnchor h = false → s.Owned h
  /-- What is released is neither needed nor the wallet's own. -/
  stale : ∀ h ∈ released, ¬s.Desired h ∧ grid.isWalletDurableAnchor h = false
  /-- What is still to be released is released in this pass. -/
  pending : ∀ h ∈ release, h ∈ released
  /-- The other releases of this pass are made. -/
  done : ∀ h ∈ released, h ∉ release → h ∉ s.retained

/-- The retained checkpoints are the wallet's own, or owned by the migration, or foreign to
both, and a pass that changes the tree follows the ledger. -/
structure Sound (grid : AnchorGrid) (foreign : Nat → Prop) (s : AnchorWorld) : Prop where
  covered : ∀ h ∈ s.retained, grid.isWalletDurableAnchor h = false → s.Owned h ∨ foreign h
  applying : ∀ retain release released, s.pass = some (.applying retain release released) →
    s.Applying grid retain release released

/-- At its next change a pass keeps what holds. -/
theorem Sound.advance (h : s.Sound grid foreign) :
  (s.advance grid).Sound grid foreign
  := by
  obtain ⟨ledger, retained, pass⟩ := s
  match pass with
  | none => exact h
  | some (.staging desired retainedBefore) =>
    have hreferences : (ledger.stageMigrationAnchorRetentionReferences grid desired
        retainedBefore).1.migrationAnchorRetentionReferences = desired := stage_references
    have hdesired : ∀ height, Desired (AnchorWorld.advance grid
        ⟨ledger, retained, some (.staging desired retainedBefore)⟩) height
        ↔ height ∈ heights desired := by
      intro height
      apply iff_of_eq (congrArg (fun references => height ∈ heights references) hreferences)
    constructor
    · intro height hheight hdurable
      rcases h.covered height hheight hdurable with howned | hforeign
      · exact .inl (mem_stage hdurable (.inl howned))
      · exact .inr hforeign
    · intro retain release released hpass
      cases hpass
      constructor
      · intro height hheight
        rw [hdesired]
        simpa using hheight
      · intro height hneeded hdurable
        apply mem_stage hdurable (.inr ((hdesired height).mp hneeded))
      · intro height hheight
        obtain ⟨-, hneeded, hdurable⟩ := mem_release.mp hheight
        exact ⟨fun hd => hneeded ((hdesired height).mp hd), hdurable⟩
      · exact fun _ hheight => hheight
      · exact fun _ hheight hnot => absurd hheight hnot
  | some (.applying (height :: retain) release released) =>
    have happlying := h.applying _ _ _ rfl
    have hneeded := happlying.needed height List.mem_cons_self
    constructor
    · intro other hother hdurable
      rcases Finset.mem_insert.mp hother with rfl | hother
      · exact .inl (happlying.owned other hneeded hdurable)
      · apply h.covered other hother hdurable
    · intro _ _ _ hpass
      cases hpass
      refine ⟨fun other hother => happlying.needed other (List.mem_cons_of_mem _ hother),
        happlying.owned, happlying.stale, happlying.pending, ?_⟩
      intro other hother hnot hmem
      rcases Finset.mem_insert.mp hmem with rfl | hmem
      · apply (happlying.stale other hother).1 hneeded
      · apply happlying.done other hother hnot hmem
  | some (.applying [] (height :: release) released) =>
    have happlying := h.applying _ _ _ rfl
    constructor
    · intro other hother hdurable
      apply h.covered other (Finset.mem_of_mem_erase hother) hdurable
    · intro _ _ _ hpass
      cases hpass
      refine ⟨happlying.needed, happlying.owned, happlying.stale,
        fun other hother => happlying.pending other (List.mem_cons_of_mem _ hother), ?_⟩
      intro other hother hnot hmem
      obtain ⟨hne, hmem⟩ := Finset.mem_erase.mp hmem
      apply happlying.done other hother _ hmem
      rintro (_ | ⟨_, hrest⟩)
      · apply hne rfl
      · apply hnot hrest
  | some (.applying [] [] released) =>
    have happlying := h.applying _ _ _ rfl
    constructor
    · intro other hother hdurable
      rcases h.covered other hother hdurable with howned | hforeign
      · left
        apply mem_finish howned
        intro hreleased
        apply happlying.done other hreleased List.not_mem_nil hother
      · exact .inr hforeign
    · intro _ _ _ hpass
      cases hpass

/-- Whatever happens next keeps what holds. -/
theorem Sound.step (h : s.Sound grid foreign) (op : AnchorOp) :
  (s.step grid op).Sound grid foreign
  := by
  cases op with
  | begin desired =>
    rw [AnchorWorld.step]
    split
    · refine ⟨h.covered, ?_⟩
      intro _ _ _ hpass
      cases hpass
    · apply h
  | advance => exact h.advance
  | crash =>
    refine ⟨h.covered, ?_⟩
    intro _ _ _ hpass
    cases hpass
  | walletRetain height =>
    rw [AnchorWorld.step]
    split
    · rename_i hgrid
      have hother : ∀ other, grid.isWalletDurableAnchor other = false →
          other ∈ insert height s.retained → other ∈ s.retained := by
        intro other hdurable hmem
        rcases Finset.mem_insert.mp hmem with rfl | hmem
        · rw [hgrid] at hdurable
          cases hdurable
        · apply hmem
      constructor
      · intro other hmem hdurable
        apply h.covered other (hother other hdurable hmem) hdurable
      · intro retain release released hpass
        have happlying := h.applying retain release released hpass
        refine ⟨happlying.needed, happlying.owned, happlying.stale, happlying.pending, ?_⟩
        intro other hreleased hnot hmem
        have hdurable := (happlying.stale other hreleased).2
        apply happlying.done other hreleased hnot (hother other hdurable hmem)
    · apply h

theorem Sound.after {ops : List AnchorOp} (h : s.Sound grid foreign) :
  (Run.after (AnchorWorld.step grid) s ops).Sound grid foreign
  := by
  apply Run.invariant (C := fun _ _ => True) (fun _ op hs _ => hs.step op) h
  apply along_of_forall
  exact fun _ _ _ => trivial

/-! ### A pass that is not interrupted -/

theorem after_retain {retain release released : List Nat} {ledger : AnchorLedger}
    {retained : Finset Nat} :
  after (step grid) ⟨ledger, retained, some (.applying retain release released)⟩
      (List.replicate retain.length .advance)
    = ⟨ledger, retained ∪ retain.toFinset, some (.applying [] release released)⟩
  := by
  induction retain generalizing retained with
  | nil => simp
  | cons height retain ih =>
    rw [List.length_cons, List.replicate_succ, after_cons]
    simp only [step, advance]
    rw [ih]
    simp [Finset.insert_union]

theorem after_release {release released : List Nat} {ledger : AnchorLedger}
    {retained : Finset Nat} :
  after (step grid) ⟨ledger, retained, some (.applying [] release released)⟩
      (List.replicate release.length .advance)
    = ⟨ledger, retained \ release.toFinset, some (.applying [] [] released)⟩
  := by
  induction release generalizing retained with
  | nil => simp
  | cons height release ih =>
    rw [List.length_cons, List.replicate_succ, after_cons]
    simp only [step, advance]
    rw [ih]
    congr 1
    ext other
    simp only [Finset.mem_sdiff, Finset.mem_erase, List.mem_toFinset, List.mem_cons]
    grind

/-- The number of changes of a pass. -/
def changes (grid : AnchorGrid) (s : AnchorWorld) (desired : List (RunId × Nat)) : Nat :=
  1 + ((heights desired).sort.length + ((s.ledger.release grid desired).length + 1))

/-- A pass that is not interrupted records and retains what it wants. -/
theorem after_changes {desired : List (RunId × Nat)} (hpass : s.pass = none) :
  after (step grid) s
      (.begin desired :: List.replicate (changes grid s desired) .advance)
    = ⟨s.ledger.desiredRows grid desired s.retained,
        (s.retained ∪ heights desired) \ (s.ledger.release grid desired).toFinset, none⟩
  := by
  obtain ⟨ledger, retained, pass⟩ := s
  obtain rfl : pass = none := hpass
  rw [changes, List.replicate_add, List.replicate_add, List.replicate_add, after_cons,
    after_append, after_append, after_append]
  have hbegin : step grid ⟨ledger, retained, none⟩ (.begin desired)
      = ⟨ledger, retained, some (.staging desired retained)⟩ := rfl
  rw [hbegin, List.replicate_one, after_cons, after_nil, after_cons, after_nil]
  simp only [step, advance]
  rw [after_retain, Finset.sort_toFinset]
  have hrelease : (stageMigrationAnchorRetentionReferences grid ledger desired retained).2
      = ledger.release grid desired := rfl
  rw [hrelease, after_release]
  apply congrArg (fun rows => AnchorWorld.mk rows
    ((retained ∪ heights desired) \ (ledger.release grid desired).toFinset) none) finish_stage

/-! ### Safety and retries -/

/-- The change that releases a checkpoint in the tree releases one that is not needed. -/
theorem Sound.released (h : s.Sound grid foreign) {op : AnchorOp} {height : Nat}
    (hbefore : height ∈ s.retained) (hafter : height ∉ (s.step grid op).retained) :
  ¬s.Desired height ∧ grid.isWalletDurableAnchor height = false
  := by
  cases op with
  | begin desired =>
    rw [AnchorWorld.step] at hafter
    split at hafter
    all_goals exact absurd hbefore hafter
  | crash => exact absurd hbefore hafter
  | walletRetain other =>
    rw [AnchorWorld.step] at hafter
    split at hafter
    · exact absurd (Finset.mem_insert_of_mem hbefore) hafter
    · exact absurd hbefore hafter
  | advance =>
    obtain ⟨ledger, retained, pass⟩ := s
    match pass with
    | none | some (.staging _ _) | some (.applying [] [] _) => exact absurd hbefore hafter
    | some (.applying (other :: retain) release released) =>
      exact absurd (Finset.mem_insert_of_mem hbefore) hafter
    | some (.applying [] (other :: release) released) =>
      have happlying := h.applying _ _ _ rfl
      obtain rfl : height = other := by
        by_contra hne
        apply hafter (Finset.mem_erase.mpr ⟨hne, hbefore⟩)
      apply happlying.stale
      apply happlying.pending height List.mem_cons_self

/-- An owned checkpoint is struck off the ledger by the end of a pass that has released it. -/
theorem Sound.struckOff (h : s.Sound grid foreign) {op : AnchorOp} {height : Nat}
    (hdurable : grid.isWalletDurableAnchor height = false) (hbefore : s.Owned height)
    (hafter : ¬(s.step grid op).Owned height) :
  op = .advance ∧ ∃ released, s.pass = some (.applying [] [] released)
    ∧ height ∈ released ∧ height ∉ s.retained
  := by
  cases op with
  | begin desired =>
    rw [AnchorWorld.step] at hafter
    split at hafter
    all_goals exact absurd hbefore hafter
  | crash => exact absurd hbefore hafter
  | walletRetain other =>
    rw [AnchorWorld.step] at hafter
    split at hafter
    all_goals exact absurd hbefore hafter
  | advance =>
    obtain ⟨ledger, retained, pass⟩ := s
    match pass with
    | none | some (.applying (_ :: _) _ _) | some (.applying [] (_ :: _) _) =>
      exact absurd hbefore hafter
    | some (.staging desired retainedBefore) =>
      exact absurd (mem_stage hdurable (.inl hbefore)) hafter
    | some (.applying [] [] released) =>
      have happlying := h.applying _ _ _ rfl
      have hreleased : height ∈ released := by
        by_contra hnot
        apply hafter (mem_finish hbefore hnot)
      exact ⟨rfl, released, rfl, hreleased,
        happlying.done height hreleased List.not_mem_nil⟩

/-- Before the first pass everything that is retained and not owned is foreign. -/
theorem sound_start {ledger : AnchorLedger} {retained : Finset Nat} :
  Sound grid (fun h => h ∈ retained ∧ h ∉ ledger.currentlyOwned) ⟨ledger, retained, none⟩
  := by
  constructor
  · intro height hheight _
    by_cases howned : height ∈ ledger.currentlyOwned
    · exact .inl howned
    · exact .inr ⟨hheight, howned⟩
  · intro _ _ _ hpass
    cases hpass

/-- However passes follow each other and wherever they stop: a checkpoint that leaves the
tree is neither needed nor the wallet's own; an owned one stays in the ledger until the end
of a pass that has released it; and the next pass that is not interrupted ends with what it
wants in the ledger and in the tree, and with nothing else that the migration ever owned. -/
theorem anchorRetention_sound (grid : AnchorGrid) (ledger : AnchorLedger)
    (retained : Finset Nat) (ops : List AnchorOp) :
  (∀ op height, height ∈ (after (step grid) ⟨ledger, retained, none⟩ ops).retained →
      height ∉ (step grid (after (step grid) ⟨ledger, retained, none⟩ ops) op).retained →
      ¬(after (step grid) ⟨ledger, retained, none⟩ ops).Desired height
        ∧ grid.isWalletDurableAnchor height = false)
    ∧ (∀ op height, grid.isWalletDurableAnchor height = false →
      (after (step grid) ⟨ledger, retained, none⟩ ops).Owned height →
      ¬(step grid (after (step grid) ⟨ledger, retained, none⟩ ops) op).Owned height →
      op = .advance ∧ ∃ released,
        (after (step grid) ⟨ledger, retained, none⟩ ops).pass = some (.applying [] [] released)
          ∧ height ∈ released
          ∧ height ∉ (after (step grid) ⟨ledger, retained, none⟩ ops).retained)
    ∧ ∀ desired, ∃ n, ∃ rows retained',
      after (step grid) ⟨ledger, retained, none⟩
          (ops ++ .crash :: .begin desired :: List.replicate n .advance)
        = ⟨rows, retained', none⟩
      ∧ rows.map (fun row => (row.owner, row.checkpointHeight))
        = desired.map (fun reference => (.run reference.1, reference.2))
      ∧ (∀ height ∈ heights desired, height ∈ retained')
      ∧ ∀ height ∈ retained', grid.isWalletDurableAnchor height = false →
        height ∈ heights desired ∨ height ∈ retained ∧ height ∉ ledger.currentlyOwned
  := by
  have hsound : Sound grid (fun h => h ∈ retained ∧ h ∉ ledger.currentlyOwned)
      (after (step grid) ⟨ledger, retained, none⟩ ops) := sound_start.after
  refine ⟨fun op height => hsound.released, fun op height => hsound.struckOff, ?_⟩
  intro desired
  have hcrashed := hsound.step .crash
  let s := (after (step grid) ⟨ledger, retained, none⟩ ops).step grid .crash
  have hpass : after (step grid) s
      (.begin desired :: List.replicate (changes grid s desired) .advance)
      = ⟨s.ledger.desiredRows grid desired s.retained,
        (s.retained ∪ heights desired) \ (s.ledger.release grid desired).toFinset, none⟩ :=
    after_changes rfl
  have hend : Sound grid (fun h => h ∈ retained ∧ h ∉ ledger.currentlyOwned)
      (after (step grid) s
        (.begin desired :: List.replicate (changes grid s desired) .advance)) :=
    hcrashed.after
  use changes grid s desired, s.ledger.desiredRows grid desired s.retained,
    (s.retained ∪ heights desired) \ (s.ledger.release grid desired).toFinset
  refine ⟨?_, map_desiredRows, ?_, ?_⟩
  · rw [after_append, after_cons]
    apply hpass
  · intro height hheight
    rw [Finset.mem_sdiff, Finset.mem_union, List.mem_toFinset, mem_release]
    exact ⟨.inr hheight, fun h => h.2.1 hheight⟩
  · intro height hheight hdurable
    rw [hpass] at hend
    rcases hend.covered height hheight hdurable with howned | hforeign
    · left
      obtain ⟨row, hrow, -, rfl⟩ := mem_currentlyOwned.mp howned
      obtain ⟨r, -, hmem⟩ := mem_of_mem_desiredRows hrow
      apply mem_heights.mpr ⟨r, hmem⟩
    · exact .inr hforeign

end AnchorWorld

end Vizor
