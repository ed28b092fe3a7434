import Vizor.Lib.Interleave

/-!
# The status of a sync

A table of the wallet database keeps the version of the completion policy, the tip at which
the last sync completed, and a marker that a sync is in progress.  Syncs write the table when
they start and when they complete.  A status read takes the heights of the wallet in one
snapshot and then reads the rows of the table one after the other; in a database without a
policy it first writes the policy from the heights that it read.
-/

namespace Vizor

open Run Interleave

namespace SyncStatus

/-- The version of the completion policy. -/
def syncCompletionPolicyVersion : Nat := 1

/-- The rows of the table. -/
structure SyncMeta where
  policyVersion : Option Nat := none
  lastCompletedSyncHeight : Option Nat := none
  syncInProgress : Option Nat := none
  deriving DecidableEq, Repr

/-- A change of the table by a sync. -/
inductive SyncEvent where
  | started
  | completed (tip : Nat)
  deriving DecidableEq, Repr

/-- The wallet database, with a record of what happened to it, the newest first. -/
structure Shared where
  /-- The table, once it is created. -/
  syncMeta : Option SyncMeta := none
  /-- The fully scanned height and the height of the chain. -/
  heights : Option (Nat × Nat) := none
  events : List SyncEvent := []
  scans : List (Nat × Nat) := []
  deriving DecidableEq, Repr

/-- The heights that a status read took, and whether it initialized the policy. -/
structure Reading where
  scanned : Nat
  tip : Nat
  initialized : Bool := false
  deriving DecidableEq, Repr

/-- Where a call stands. -/
inductive Point where
  /-- Before the heights of the wallet are read. -/
  | heights
  /-- Before it is read whether the table exists. -/
  | table (reading : Reading)
  | version (reading : Reading)
  | completed (reading : Reading) (version : Option Nat)
  | inProgress (reading : Reading) (version completed : Option Nat)
  /-- Before the policy is initialized. -/
  | writePolicy (reading : Reading)
  | answered (scanned tip : Nat) (completed : Option Nat)
  | markStarted
  | markCompleted (tip : Nat)
  | setHeights (heights : Option (Nat × Nat))
  | returned
  deriving DecidableEq, Repr

/-- The kinds of calls. -/
inductive Call where
  | status
  | markSyncStarted
  | markSyncCompleted (tip : Nat)
  /-- The heights of the wallet change. -/
  | scan (heights : Option (Nat × Nat))
  deriving DecidableEq, Repr

/-! ### The table -/

/-- The table, which is created if it does not exist. -/
def Shared.ensureSyncMetaTable (s : Shared) : SyncMeta :=
  s.syncMeta.getD {}

/-- Write the policy, unless there is one, with the tip of a wallet that was scanned to it. -/
def initializeSyncCompletionPolicy (s : Shared) (legacyCompletedHeight : Option Nat) : Shared :=
  let table := s.ensureSyncMetaTable
  if table.policyVersion.isSome then s
  else { s with syncMeta := some {
    policyVersion := some syncCompletionPolicyVersion
    syncInProgress := some (table.syncInProgress.getD 0)
    lastCompletedSyncHeight := match legacyCompletedHeight with
      | some height => some height
      | none => table.lastCompletedSyncHeight } }

/-- Record that a sync starts. -/
def markSyncStarted (s : Shared) : Shared :=
  { s with
    syncMeta := some { s.ensureSyncMetaTable with
      policyVersion := some syncCompletionPolicyVersion
      syncInProgress := some 1 }
    events := .started :: s.events }

/-- Record that a sync completed at a tip. -/
def markSyncCompleted (s : Shared) (tip : Nat) : Shared :=
  { s with
    syncMeta := some {
      policyVersion := some syncCompletionPolicyVersion
      lastCompletedSyncHeight := some tip
      syncInProgress := some 0 }
    events := .completed tip :: s.events }

/-- The heights of the wallet change. -/
def setHeights (s : Shared) (heights : Option (Nat × Nat)) : Shared :=
  { s with
    heights := heights
    scans := match heights with
      | some h => h :: s.scans
      | none => s.scans }

/-! ### Status reads -/

/-- The tip at which a wallet without a policy counts as completed. -/
def Reading.legacyCompletedHeight (reading : Reading) : Option Nat :=
  if 0 < reading.tip ∧ reading.tip ≤ reading.scanned then some reading.tip else none

/-- The completed height that a status read uses, from the rows that it read. -/
def completedSyncHeight (completed inProgress : Option Nat) : Option Nat :=
  if inProgress.map (fun value => value != 0) = some false then completed else none

/-- The next point of a status read once the rows are read. -/
def Reading.finish (reading : Reading) (version completed inProgress : Option Nat) : Point :=
  if reading.initialized then
    .answered reading.scanned reading.tip (completedSyncHeight completed inProgress)
  else match version with
    | some v =>
      .answered reading.scanned reading.tip
        (if v = syncCompletionPolicyVersion then completedSyncHeight completed inProgress else none)
    | none => .writePolicy reading

/-- Whether the status of a wallet is complete. -/
def isCompletedSyncStatus (scannedHeight chainTipHeight : Nat) (lastCompletedHeight : Option Nat) :
    Bool :=
  chainTipHeight > 0 && chainTipHeight ≤ scannedHeight
    && lastCompletedHeight = some chainTipHeight

/-- The next step of a call. -/
def step (s : Shared) : Point → Shared × Point
  | .heights =>
    match s.heights with
    | some (scanned, tip) => (s, .table { scanned := scanned, tip := tip })
    | none => (s, .answered 0 0 none)
  | .table reading =>
    (s, if s.syncMeta.isSome then .version reading else reading.finish none none none)
  | .version reading => (s, .completed reading (s.ensureSyncMetaTable.policyVersion))
  | .completed reading version =>
    (s, .inProgress reading version s.ensureSyncMetaTable.lastCompletedSyncHeight)
  | .inProgress reading version completed =>
    (s, reading.finish version completed s.ensureSyncMetaTable.syncInProgress)
  | .writePolicy reading =>
    (initializeSyncCompletionPolicy s reading.legacyCompletedHeight,
      .table { reading with initialized := true })
  | .answered scanned tip completed => (s, .answered scanned tip completed)
  | .markStarted => (markSyncStarted s, .returned)
  | .markCompleted tip => (markSyncCompleted s tip, .returned)
  | .setHeights heights => (setHeights s heights, .returned)
  | .returned => (s, .returned)

/-- A call that fails: a status read goes on without a completed height. -/
def fail : Point → Point
  | .heights => .answered 0 0 none
  | .table reading | .version reading | .completed reading _ | .inProgress reading _ _
  | .writePolicy reading => .answered reading.scanned reading.tip none
  | .answered scanned tip completed => .answered scanned tip completed
  | .markStarted | .markCompleted _ | .setHeights _ | .returned => .returned

/-- Where a call starts. -/
def Call.start : Call → Point
  | .status => .heights
  | .markSyncStarted => .markStarted
  | .markSyncCompleted tip => .markCompleted tip
  | .scan heights => .setHeights heights

/-- The calls on the wallet database; a step may fail, and the database outlives the
process. -/
def program : Program Shared Point Call Bool where
  start := Call.start
  advance fails s p := if fails then (s, fail p) else step s p
  crash s := s

/-! ### Honest reports -/

/-- The last sync completed at `tip`; or the database had no policy when it was scanned to
`tip`, and no sync started or completed since. -/
def Honest (s : Shared) (tip : Nat) : Prop :=
  s.events.head? = some (.completed tip)
    ∨ s.events = [] ∧ ∃ heights ∈ s.scans, heights.2 = tip ∧ tip ≤ heights.1

instance {s : Shared} {tip : Nat} : Decidable (Honest s tip) :=
  inferInstanceAs (Decidable (_ ∨ _))

/-- The table agrees with what happened to the database. -/
structure Recorded (s : Shared) : Prop where
  legacy : s.ensureSyncMetaTable.policyVersion = none →
    s.ensureSyncMetaTable = {} ∧ s.events = []
  started : s.events.head? = some .started → s.ensureSyncMetaTable.syncInProgress = some 1
  honest : s.ensureSyncMetaTable.syncInProgress = some 0 →
    ∀ height, s.ensureSyncMetaTable.lastCompletedSyncHeight = some height → Honest s height
  scans : ∀ h, s.heights = some h → h ∈ s.scans

/-- What a status read knows of the database at its point. -/
def Knows (s : Shared) : Point → Prop
  | .table reading | .version reading | .writePolicy reading =>
    (reading.scanned, reading.tip) ∈ s.scans
      ∧ (reading.initialized = true → s.ensureSyncMetaTable.policyVersion.isSome)
  | .completed reading version =>
    (reading.scanned, reading.tip) ∈ s.scans
      ∧ (reading.initialized = true ∨ version.isSome →
        s.ensureSyncMetaTable.policyVersion.isSome)
  | .inProgress reading version completed =>
    (reading.scanned, reading.tip) ∈ s.scans
      ∧ (reading.initialized = true ∨ version.isSome →
        s.ensureSyncMetaTable.policyVersion.isSome
          ∧ (isCompletedSyncStatus reading.scanned reading.tip completed = true →
            s.ensureSyncMetaTable.syncInProgress = some 0 →
            s.ensureSyncMetaTable.lastCompletedSyncHeight = completed))
  | _ => True

/-- A completion at `tip` is no other than the one that the status read has read. -/
def Agrees (tip : Nat) : Point → Prop
  | .inProgress reading _ completed =>
    isCompletedSyncStatus reading.scanned reading.tip completed = true → reading.tip = tip
  | _ => True

instance {tip : Nat} : (p : Point) → Decidable (Agrees tip p)
  | .inProgress reading _ completed => inferInstanceAs (Decidable
      (isCompletedSyncStatus reading.scanned reading.tip completed = true → reading.tip = tip))
  | .heights | .table _ | .version _ | .completed _ _ | .writePolicy _ | .answered _ _ _
  | .markStarted | .markCompleted _ | .setHeights _ | .returned => isTrue trivial

/-- No completion is recorded while a status read that took another completed height, its own
tip, has not read the marker yet. -/
def CompletesApart (w : World Shared Point) : Move Call Bool → Prop
  | .advance i false =>
    match w.calls[i]? with
    | some (.markCompleted tip) => ∀ p ∈ w.calls, Agrees tip p
    | _ => True
  | _ => True

variable {s s' : Shared}

/-! ### Writes of the table -/

theorem isCompletedSyncStatus_iff {scannedHeight chainTipHeight : Nat}
    {lastCompletedHeight : Option Nat} :
  isCompletedSyncStatus scannedHeight chainTipHeight lastCompletedHeight = true
    ↔ 0 < chainTipHeight ∧ chainTipHeight ≤ scannedHeight
      ∧ lastCompletedHeight = some chainTipHeight
  := by
  simp [isCompletedSyncStatus, and_assoc]

/-- Only a marker that is zero gives a completed height. -/
theorem completedSyncHeight_eq_some {completed inProgress : Option Nat} {height : Nat}
    (h : completedSyncHeight completed inProgress = some height) :
  inProgress = some 0 ∧ completed = some height
  := by
  unfold completedSyncHeight at h
  split at h
  · rename_i hmarker
    obtain ⟨value, rfl, hvalue⟩ := Option.map_eq_some_iff.mp hmarker
    refine ⟨?_, h⟩
    simpa using hvalue
  · cases h

theorem Honest.of_scans {tip : Nat} (h : Honest s tip) (hevents : s'.events = s.events)
    (hscans : s.scans ⊆ s'.scans) :
  Honest s' tip
  := by
  rcases h with hlast | ⟨hnone, heights, hmem, hle⟩
  · left
    rw [hevents]
    apply hlast
  · right
    rw [hevents]
    exact ⟨hnone, heights, hscans hmem, hle⟩

theorem Recorded.markSyncStarted (h : Recorded s) :
  Recorded (markSyncStarted s)
  := by
  constructor
  · intro hpolicy
    cases hpolicy
  · intro _
    rfl
  · intro hmarker
    cases hmarker
  · apply h.scans

theorem Recorded.markSyncCompleted (h : Recorded s) {tip : Nat} :
  Recorded (markSyncCompleted s tip)
  := by
  constructor
  · intro hpolicy
    cases hpolicy
  · intro hstarted
    cases hstarted
  · intro _ height hheight
    cases hheight
    exact .inl rfl
  · apply h.scans

theorem Recorded.setHeights (h : Recorded s) {heights : Option (Nat × Nat)} :
  Recorded (setHeights s heights)
  := by
  have hscans : s.scans ⊆ (SyncStatus.setHeights s heights).scans := by
    unfold SyncStatus.setHeights
    split
    · apply List.subset_cons_self
    · apply List.Subset.refl
  refine ⟨h.legacy, h.started, ?_, ?_⟩
  · intro hmarker height hheight
    have hbefore : Honest s height := h.honest hmarker height hheight
    exact hbefore.of_scans rfl hscans
  · intro current hcurrent
    replace hcurrent : heights = some current := hcurrent
    simp [SyncStatus.setHeights, hcurrent]

/-- The policy of a wallet without one is written from heights that it had. -/
theorem Recorded.initializePolicy (h : Recorded s) {reading : Reading}
    (hreading : (reading.scanned, reading.tip) ∈ s.scans) :
  Recorded (initializeSyncCompletionPolicy s reading.legacyCompletedHeight)
  := by
  unfold initializeSyncCompletionPolicy
  dsimp only
  split
  · apply h
  · rename_i hpolicy
    obtain ⟨htable, hevents⟩ := h.legacy (by simpa using hpolicy)
    constructor
    · intro hnone
      cases hnone
    · intro hstarted
      rw [hevents] at hstarted
      cases hstarted
    · intro _ height hheight
      replace hheight : (match reading.legacyCompletedHeight with
        | some height => some height
        | none => s.ensureSyncMetaTable.lastCompletedSyncHeight) = some height := hheight
      right
      refine ⟨hevents, (reading.scanned, reading.tip), hreading, ?_⟩
      unfold Reading.legacyCompletedHeight at hheight
      split at hheight
      · rename_i hlegacy
        split at hlegacy
        · cases hlegacy
          cases hheight
          rename_i hle
          exact ⟨rfl, hle.2⟩
        · cases hlegacy
      · rw [htable] at hheight
        cases hheight
    · apply h.scans

/-! ### What the status reads know -/

/-- What the calls other than completions do to the database. -/
structure Extends (s s' : Shared) : Prop where
  scans : s.scans ⊆ s'.scans
  policy : s.ensureSyncMetaTable.policyVersion.isSome →
    s'.ensureSyncMetaTable.policyVersion.isSome
  marker : s.ensureSyncMetaTable.policyVersion.isSome →
    s'.ensureSyncMetaTable.syncInProgress = some 0 →
    s.ensureSyncMetaTable.syncInProgress = some 0
      ∧ s'.ensureSyncMetaTable.lastCompletedSyncHeight
        = s.ensureSyncMetaTable.lastCompletedSyncHeight

theorem extends_markSyncStarted : Extends s (markSyncStarted s)
  := by
  refine ⟨List.Subset.refl _, fun _ => rfl, fun _ hmarker => ?_⟩
  cases hmarker

theorem extends_setHeights {heights : Option (Nat × Nat)} : Extends s (setHeights s heights)
  := by
  refine ⟨?_, id, fun _ h => ⟨h, rfl⟩⟩
  unfold setHeights
  split
  · apply List.subset_cons_self
  · apply List.Subset.refl

theorem extends_initializePolicy {legacyCompletedHeight : Option Nat} :
  Extends s (initializeSyncCompletionPolicy s legacyCompletedHeight)
  := by
  unfold initializeSyncCompletionPolicy
  dsimp only
  split
  · exact ⟨List.Subset.refl _, id, fun _ h => ⟨h, rfl⟩⟩
  · rename_i hpolicy
    exact ⟨List.Subset.refl _, fun _ => rfl, fun h => absurd h hpolicy⟩

theorem Knows.of_extends (h : Extends s s') {p : Point} (hp : Knows s p) :
  Knows s' p
  := by
  cases p with
  | table reading | version reading | writePolicy reading =>
    exact ⟨h.scans hp.1, fun hinitialized => h.policy (hp.2 hinitialized)⟩
  | completed reading version =>
    exact ⟨h.scans hp.1, fun hversion => h.policy (hp.2 hversion)⟩
  | inProgress reading version completed =>
    refine ⟨h.scans hp.1, fun hversion => ?_⟩
    obtain ⟨hpolicy, hread⟩ := hp.2 hversion
    refine ⟨h.policy hpolicy, fun hcomplete hmarker => ?_⟩
    obtain ⟨hmarkerBefore, hsame⟩ := h.marker hpolicy hmarker
    rw [hsame]
    apply hread hcomplete hmarkerBefore
  | _ => trivial

/-- A completion does not disturb a status read that has read its height. -/
theorem Knows.markSyncCompleted {tip : Nat} {p : Point} (hp : Knows s p) (hagrees : Agrees tip p) :
  Knows (markSyncCompleted s tip) p
  := by
  cases p with
  | table reading | version reading | writePolicy reading => exact ⟨hp.1, fun _ => rfl⟩
  | completed reading version => exact ⟨hp.1, fun _ => rfl⟩
  | inProgress reading version completed =>
    refine ⟨hp.1, fun _ => ⟨rfl, fun hcomplete _ => ?_⟩⟩
    rw [(isCompletedSyncStatus_iff.mp hcomplete).2.2, hagrees hcomplete]
    rfl
  | _ => trivial

/-- The step of a call leaves the database to the others as it needs it. -/
theorem step_knows {p q : Point} (hq : Knows s q)
    (hagrees : ∀ tip, p = .markCompleted tip → Agrees tip q) :
  Knows (step s p).1 q
  := by
  cases p with
  | heights =>
    dsimp only [step]
    split <;> exact hq
  | writePolicy reading => apply hq.of_extends extends_initializePolicy
  | markStarted => apply hq.of_extends extends_markSyncStarted
  | markCompleted tip => apply hq.markSyncCompleted (hagrees tip rfl)
  | setHeights heights => apply hq.of_extends extends_setHeights
  | _ => exact hq

theorem Recorded.step (h : Recorded s) {p : Point} (hp : Knows s p) :
  Recorded (step s p).1
  := by
  cases p with
  | heights =>
    dsimp only [SyncStatus.step]
    split <;> exact h
  | writePolicy reading => apply h.initializePolicy hp.1
  | markStarted => exact h.markSyncStarted
  | markCompleted tip => exact h.markSyncCompleted
  | setHeights heights => exact h.setHeights
  | _ => exact h

theorem knows_finish {reading : Reading} {version completed inProgress : Option Nat}
    (hreading : (reading.scanned, reading.tip) ∈ s.scans) :
  Knows s (reading.finish version completed inProgress)
  := by
  unfold Reading.finish
  split
  · trivial
  · rename_i hinitialized
    split
    · trivial
    · exact ⟨hreading, fun h => absurd h hinitialized⟩

/-- A status read knows at its next point what it read. -/
theorem step_knows_self (h : Recorded s) {p : Point} (hp : Knows s p) :
  Knows (SyncStatus.step s p).1 (SyncStatus.step s p).2
  := by
  cases p with
  | heights =>
    dsimp only [step]
    split
    · rename_i scanned tip hheights
      exact ⟨h.scans _ hheights, fun hinitialized => by cases hinitialized⟩
    · trivial
  | table reading =>
    dsimp only [step]
    split
    · apply hp
    · apply knows_finish hp.1
  | version reading =>
    refine ⟨hp.1, fun hversion => ?_⟩
    rcases hversion with hinitialized | hversion
    · apply hp.2 hinitialized
    · apply hversion
  | completed reading version =>
    exact ⟨hp.1, fun hversion => ⟨hp.2 hversion, fun _ _ => rfl⟩⟩
  | inProgress reading version completed => apply knows_finish hp.1
  | writePolicy reading =>
    refine ⟨extends_initializePolicy.scans hp.1, fun _ => ?_⟩
    dsimp only [step, initializeSyncCompletionPolicy]
    split
    · assumption
    · rfl
  | _ => trivial

/-! ### Runs -/

/-- The calls keep the table in agreement with what happened. -/
theorem program_preserves :
  Preserves program CompletesApart Recorded Knows
  := by
  constructor
  · rintro w k - -
    cases k <;> trivial
  · intro w i fails p hw hm hp
    have hknows := hw.at hp
    cases fails with
    | true =>
      refine ⟨hw.1, ?_⟩
      cases p <;> trivial
    | false => exact ⟨hw.1.step hknows, step_knows_self hw.1 hknows⟩
  · intro w i fails p q hw hm hp hq
    have hknows := hw.2 q hq
    cases fails with
    | true => exact hknows
    | false =>
      apply step_knows hknows
      rintro tip rfl
      simp only [CompletesApart, hp] at hm
      apply hm q hq
  · intro w hw
    apply hw.1

/-- A wallet database without a completion policy, with its heights. -/
def Shared.legacy (table : Bool) (heights : Option (Nat × Nat)) : Shared where
  syncMeta := if table then some {} else none
  heights := heights
  scans := heights.toList

theorem recorded_legacy {table : Bool} {heights : Option (Nat × Nat)} :
  Recorded (Shared.legacy table heights)
  := by
  have htable : (Shared.legacy table heights).ensureSyncMetaTable = {} := by
    cases table <;> rfl
  constructor
  · intro _
    exact ⟨htable, rfl⟩
  · intro hstarted
    cases hstarted
  · intro hmarker
    rw [htable] at hmarker
    cases hmarker
  · intro h hheights
    replace hheights : heights = some h := hheights
    simp [Shared.legacy, hheights]

/-- A status read that answers took the marker after the completed height. -/
theorem Knows.honest {p : Point} (hp : Knows s p) (h : Recorded s)
    (hnew : ∀ scanned tip completed, p ≠ .answered scanned tip completed) {scanned tip : Nat}
    {completed : Option Nat} (hanswer : (step s p).2 = .answered scanned tip completed)
    (hcomplete : isCompletedSyncStatus scanned tip completed = true) :
  Honest s tip
  := by
  obtain ⟨htip, -, hheight⟩ := isCompletedSyncStatus_iff.mp hcomplete
  subst hheight
  cases p with
  | inProgress reading version read =>
    replace hanswer : reading.finish version read s.ensureSyncMetaTable.syncInProgress
      = .answered scanned tip (some tip) := hanswer
    have hread : (reading.initialized = true ∨ version.isSome) ∧ reading.scanned = scanned
        ∧ reading.tip = tip
        ∧ completedSyncHeight read s.ensureSyncMetaTable.syncInProgress = some tip := by
      unfold Reading.finish at hanswer
      split at hanswer
      · rename_i hinitialized
        simp only [Point.answered.injEq] at hanswer
        exact ⟨.inl hinitialized, hanswer⟩
      · split at hanswer
        · simp only [Point.answered.injEq] at hanswer
          obtain ⟨hscanned, htip', hsome⟩ := hanswer
          split at hsome
          · exact ⟨.inr rfl, hscanned, htip', hsome⟩
          · cases hsome
        · cases hanswer
    obtain ⟨hpolicy, rfl, rfl, hheight⟩ := hread
    obtain ⟨hmarker, rfl⟩ := completedSyncHeight_eq_some hheight
    apply h.honest hmarker
    apply (hp.2 hpolicy).2 hcomplete hmarker
  | heights =>
    dsimp only [step] at hanswer
    split at hanswer
    · cases hanswer
    · simp only [Point.answered.injEq] at hanswer
      omega
  | table reading =>
    dsimp only [step] at hanswer
    split at hanswer
    · cases hanswer
    · unfold Reading.finish at hanswer
      split at hanswer <;> simp [completedSyncHeight] at hanswer
  | answered scanned' tip' completed' => exact absurd rfl (hnew scanned' tip' completed')
  | _ => cases hanswer

/-- From a database without a policy, along every run in which completions are recorded apart
from status reads that took another height, a status that is complete at a tip is honest. -/
theorem completion_status_honest (table : Bool) (heights : Option (Nat × Nat))
    {moves : List (Move Call Bool)}
    (hmoves : Along program.step CompletesApart
      (World.idle (Shared.legacy table heights)) moves) :
  ∀ (i : Nat) (fails : Bool) (p : Point) (scanned tip : Nat) (completed : Option Nat),
    (after program.step (World.idle (Shared.legacy table heights)) moves).calls[i]?
      = some p →
    (∀ scanned tip completed, p ≠ .answered scanned tip completed) →
    (program.advance fails (after program.step
      (World.idle (Shared.legacy table heights)) moves).shared p).2
      = .answered scanned tip completed →
    isCompletedSyncStatus scanned tip completed = true →
    Honest (after program.step
      (World.idle (Shared.legacy table heights)) moves).shared tip
  := by
  have hholds := program_preserves.after (holds_idle recorded_legacy) hmoves
  intro i fails p scanned tip completed hp hnew hanswer hcomplete
  cases fails with
  | true =>
    obtain ⟨htip, -, rfl⟩ := isCompletedSyncStatus_iff.mp hcomplete
    cases p <;> simp [program, fail] at hanswer
    apply absurd rfl (hnew _ _ _)
  | false => apply (hholds.at hp).honest hholds.1 hnew hanswer hcomplete

/-- A wallet without a policy that was scanned to its tip. -/
def sampleWallet : World Shared Point :=
  World.idle (Shared.legacy false (some (100, 100)))

/-- A sync completes, and the status is read up to the marker. -/
def sampleRead : List (Move Call Bool) := [
  .call (.markSyncCompleted 100), .advance 0 false, .call .status, .advance 1 false,
  .advance 1 false, .advance 1 false, .advance 1 false]

/-- The status that is read after the completion is honest. -/
theorem completion_status_honest_sample :
  (program.advance false (after program.step sampleWallet sampleRead).shared
      (.inProgress { scanned := 100, tip := 100 } (some 1) (some 100))).2
      = .answered 100 100 (some 100)
    ∧ Honest (after program.step sampleWallet sampleRead).shared 100
  := by
  have hanswer : (program.advance false (after program.step sampleWallet sampleRead).shared
      (.inProgress { scanned := 100, tip := 100 } (some 1) (some 100))).2
      = .answered 100 100 (some 100) := by
    decide
  have happart : Along program.step CompletesApart sampleWallet sampleRead :=
    ⟨trivial, show ∀ p ∈ [Point.markCompleted 100], Agrees 100 p by decide, trivial, trivial,
      trivial, trivial, trivial, trivial⟩
  refine ⟨hanswer, ?_⟩
  apply completion_status_honest false (some (100, 100)) happart 1 false
    (.inProgress { scanned := 100, tip := 100 } (some 1) (some 100)) 100 100 (some 100)
  · decide
  · simp
  · apply hanswer
  · decide

/-- A sync completes at the tip and another one starts; then the status is read up to the
completed height. -/
def sampleStarted : List (Move Call Bool) := [
  .call (.markSyncCompleted 100), .advance 0 false, .call .markSyncStarted, .advance 1 false]

/-- Before the marker is read, the second sync moves the tip and completes. -/
def sampleTornRead : List (Move Call Bool) := sampleStarted ++ [
  .call .status, .advance 2 false, .advance 2 false, .advance 2 false, .advance 2 false,
  .call (.scan (some (101, 101))), .advance 3 false,
  .call (.markSyncCompleted 101), .advance 4 false, .advance 2 false]

/-- The status is complete at the old tip, though the second sync was in progress when it
started to be read and the last sync completed at another tip. -/
theorem sampleTornRead_not_honest :
  (after program.step sampleWallet sampleTornRead).calls[2]? = some (.answered 100 100 (some 100))
    ∧ isCompletedSyncStatus 100 100 (some 100) = true
    ∧ ¬Honest (after program.step sampleWallet sampleStarted).shared 100
    ∧ ¬Honest (after program.step sampleWallet sampleTornRead).shared 100
  := by decide

end SyncStatus

end Vizor
