import Vizor.Lib.Errors
import Mathlib.Data.List.Nodup
import Mathlib.Data.List.Pairwise
import Mathlib.Algebra.Order.Ring.Nat

/-!
# Orphaned scan ranges

The scan queue of a wallet holds ranges of heights with priorities.  Ranges below the birthday
of every account have nothing to be scanned for, so they are demoted to `Ignored`.  A range that
the birthday falls into is split there by an update and an insertion, each checked against the
constraints of the table, and then all ranges below the birthday are demoted at once.
-/

namespace Vizor

open Run

namespace ScanQueue

/-! ### The table -/

/-- A row of `scan_queue`: the heights from `blockRangeStart` up to and without `blockRangeEnd`,
with the code of their priority. -/
structure ScanRange where
  blockRangeStart : Nat
  blockRangeEnd : Nat
  priority : Nat
  deriving DecidableEq, Repr

/-- The code of the priority `Ignored`, which is the lowest. -/
def priorityIgnored : Nat := 0

/-- A constraint of the table that a statement violates. -/
inductive ConstraintError where
  | rangeStartUniq
  | rangeEndUniq
  | rangeBoundsOrder
  deriving DecidableEq, Repr

/-- The rows of the table, which meet its constraints. -/
structure Queue where
  rows : List ScanRange
  startsUniq : (rows.map ScanRange.blockRangeStart).Nodup
  endsUniq : (rows.map ScanRange.blockRangeEnd).Nodup
  boundsOrder : ∀ range ∈ rows, range.blockRangeStart < range.blockRangeEnd
  deriving DecidableEq

/-- What a statement leaves in the table, when the constraints allow it. -/
def commitRows (rows : List ScanRange) : Except ConstraintError Queue :=
  if hstarts : (rows.map ScanRange.blockRangeStart).Nodup then
    if hends : (rows.map ScanRange.blockRangeEnd).Nodup then
      if hbounds : ∀ range ∈ rows, range.blockRangeStart < range.blockRangeEnd then
        .ok ⟨rows, hstarts, hends, hbounds⟩
      else .error .rangeBoundsOrder
    else .error .rangeEndUniq
  else .error .rangeStartUniq

/-! ### Pruning -/

/-- The birthday falls into the range, which is not ignored. -/
def ScanRange.straddles (minBirthday : Nat) (range : ScanRange) : Bool :=
  range.blockRangeStart < minBirthday && minBirthday < range.blockRangeEnd
    && priorityIgnored < range.priority

/-- The range lies below the birthday and is not ignored. -/
def ScanRange.orphaned (minBirthday : Nat) (range : ScanRange) : Bool :=
  range.blockRangeEnd ≤ minBirthday && priorityIgnored < range.priority

/-- Let the range that starts at `start` start at the birthday. -/
def ScanRange.moveStart (start minBirthday : Nat) (range : ScanRange) : ScanRange :=
  if range.blockRangeStart = start then { range with blockRangeStart := minBirthday } else range

def ScanRange.demote (minBirthday : Nat) (range : ScanRange) : ScanRange :=
  if range.orphaned minBirthday then { range with priority := priorityIgnored } else range

/-- Split the range that the birthday falls into. -/
def splitStraddling (minBirthday : Nat) (queue : Queue) :
    Except ConstraintError (Nat × Queue) :=
  match queue.rows.find? (ScanRange.straddles minBirthday) with
  | none => .ok (0, queue)
  | some straddling => do
    let start := straddling.blockRangeStart
    let shrunk ← commitRows (queue.rows.map (ScanRange.moveStart start minBirthday))
    let split ← commitRows (shrunk.rows ++ [⟨start, minBirthday, priorityIgnored⟩])
    .ok (1, split)

def pruneOrphanedScanRangesInConn (birthdays : List Nat) (queue : Queue) :
    Except ConstraintError (Nat × Queue) :=
  match birthdays.min? with
  | none => .ok (0, queue)
  | some minBirthday => do
    let (demoted, split) ← splitStraddling minBirthday queue
    let pruned ← commitRows (split.rows.map (ScanRange.demote minBirthday))
    .ok (demoted + split.rows.countP (ScanRange.orphaned minBirthday), pruned)

/-! ### Priorities of heights -/

def ScanRange.Has (range : ScanRange) (height : Nat) : Prop :=
  range.blockRangeStart ≤ height ∧ height < range.blockRangeEnd

/-- The two ranges have no height in common. -/
def ScanRange.Apart (range other : ScanRange) : Prop :=
  range.blockRangeEnd ≤ other.blockRangeStart ∨ other.blockRangeEnd ≤ range.blockRangeStart

/-- The ranges are pairwise disjoint. -/
def Disjoint (rows : List ScanRange) : Prop :=
  rows.Pairwise ScanRange.Apart

/-- A range of the queue has the height, with this priority. -/
def PriorityAt (rows : List ScanRange) (height priority : Nat) : Prop :=
  ∃ range ∈ rows, range.Has height ∧ range.priority = priority

/-- A range of the queue has the height. -/
def Covers (rows : List ScanRange) (height : Nat) : Prop :=
  ∃ range ∈ rows, range.Has height

theorem ScanRange.Apart.symm {range other : ScanRange} (h : range.Apart other) :
  other.Apart range
  := Or.symm h

/-- Two different ranges of a queue are apart. -/
theorem Disjoint.apart {rows : List ScanRange} (h : Disjoint rows) {range other : ScanRange}
    (hrange : range ∈ rows) (hother : other ∈ rows) (hne : range ≠ other) :
  range.Apart other
  := by
  have : Std.Symm ScanRange.Apart := ⟨fun _ _ => .symm⟩
  apply List.Pairwise.forall h hrange hother hne

/-! ### The constraints hold of disjoint ranges -/

/-- A queue is determined by its rows. -/
theorem queue_ext {queue other : Queue} (h : queue.rows = other.rows) :
  queue = other
  := by
  cases queue
  cases other
  cases h
  rfl

/-- What is committed are the rows. -/
theorem rows_of_commitRows {rows : List ScanRange} {queue : Queue}
    (h : commitRows rows = .ok queue) :
  queue.rows = rows
  := by
  unfold commitRows at h
  split at h
  · split at h
    · split at h
      · cases h
        rfl
      · cases h
    · cases h
  · cases h

/-- Disjoint ranges that are not empty meet the constraints of the table. -/
theorem commitRows_eq_ok {rows : List ScanRange} (hdisjoint : Disjoint rows)
    (hbounds : ∀ range ∈ rows, range.blockRangeStart < range.blockRangeEnd) :
  ∃ queue, commitRows rows = .ok queue ∧ queue.rows = rows
  := by
  have hstarts : (rows.map ScanRange.blockRangeStart).Nodup := by
    rw [List.Nodup, List.pairwise_map]
    apply List.Pairwise.imp_of_mem _ hdisjoint
    intro range other hrange hother hapart heq
    have := hbounds range hrange
    have := hbounds other hother
    rcases hapart with hapart | hapart <;> omega
  have hends : (rows.map ScanRange.blockRangeEnd).Nodup := by
    rw [List.Nodup, List.pairwise_map]
    apply List.Pairwise.imp_of_mem _ hdisjoint
    intro range other hrange hother hapart heq
    have := hbounds range hrange
    have := hbounds other hother
    rcases hapart with hapart | hapart <;> omega
  refine ⟨⟨rows, hstarts, hends, hbounds⟩, ?_, rfl⟩
  rw [commitRows, dif_pos hstarts, dif_pos hends, dif_pos hbounds]

/-! ### The split -/

section Split

variable {queue : Queue} {minBirthday : Nat} {straddling : ScanRange}

theorem ScanRange.straddles_iff {range : ScanRange} :
  range.straddles minBirthday = true
    ↔ range.blockRangeStart < minBirthday ∧ minBirthday < range.blockRangeEnd
      ∧ priorityIgnored < range.priority
  := by
  simp [straddles, and_assoc]

/-- A range starts where the straddling range does only when it is that range. -/
theorem eq_of_start_eq (hmem : straddling ∈ queue.rows) {range : ScanRange}
    (hrange : range ∈ queue.rows) (h : range.blockRangeStart = straddling.blockRangeStart) :
  range = straddling
  := List.inj_on_of_nodup_map queue.startsUniq hrange hmem h

/-- Moving a start up keeps ranges apart. -/
theorem ScanRange.Apart.moveStart {range other : ScanRange} {start : Nat} (h : range.Apart other)
    (hle : start ≤ minBirthday) :
  (range.moveStart start minBirthday).Apart (other.moveStart start minBirthday)
  := by
  have hends : ∀ range : ScanRange,
      (range.moveStart start minBirthday).blockRangeEnd = range.blockRangeEnd := by
    intro range
    rw [ScanRange.moveStart]
    split <;> rfl
  have hstarts : ∀ range : ScanRange,
      range.blockRangeStart ≤ (range.moveStart start minBirthday).blockRangeStart := by
    intro range
    rw [ScanRange.moveStart]
    split
    · rename_i heq
      apply heq ▸ hle
    · exact le_rfl
  simp only [ScanRange.Apart, hends]
  apply h.imp (·.trans (hstarts other)) (·.trans (hstarts range))

/-- The part of the straddling range below the birthday is apart from what the other rows
become. -/
theorem apart_below (hdisjoint : Disjoint queue.rows) (hmem : straddling ∈ queue.rows)
    (hstraddles : straddling.straddles minBirthday = true) {range : ScanRange}
    (hrange : range ∈ queue.rows) :
  (range.moveStart straddling.blockRangeStart minBirthday).Apart
    ⟨straddling.blockRangeStart, minBirthday, priorityIgnored⟩
  := by
  obtain ⟨-, hend, -⟩ := ScanRange.straddles_iff.1 hstraddles
  rw [ScanRange.moveStart]
  split
  · exact .inr le_rfl
  · rename_i hne
    have hapart := hdisjoint.apart hrange hmem (fun h => hne (h ▸ rfl))
    rcases hapart with hapart | hapart
    · exact .inl hapart
    · exact .inr (hend.le.trans hapart)

/-- The rows after the split. -/
def splitRows (queue : Queue) (straddling : ScanRange) (minBirthday : Nat) : List ScanRange :=
  queue.rows.map (ScanRange.moveStart straddling.blockRangeStart minBirthday)
    ++ [⟨straddling.blockRangeStart, minBirthday, priorityIgnored⟩]

theorem disjoint_splitRows (hdisjoint : Disjoint queue.rows) (hmem : straddling ∈ queue.rows)
    (hstraddles : straddling.straddles minBirthday = true) :
  Disjoint (splitRows queue straddling minBirthday)
  := by
  obtain ⟨hstart, -, -⟩ := ScanRange.straddles_iff.1 hstraddles
  rw [Disjoint, splitRows, List.pairwise_append]
  refine ⟨?_, List.pairwise_singleton _ _, ?_⟩
  · apply List.Pairwise.map _ _ hdisjoint
    intro range other hapart
    apply hapart.moveStart hstart.le
  · intro moved hmoved below hbelow
    obtain ⟨range, hrange, rfl⟩ := List.mem_map.1 hmoved
    obtain rfl := List.mem_singleton.1 hbelow
    apply apart_below hdisjoint hmem hstraddles hrange

theorem boundsOrder_splitRows (hmem : straddling ∈ queue.rows)
    (hstraddles : straddling.straddles minBirthday = true) :
  ∀ range ∈ splitRows queue straddling minBirthday, range.blockRangeStart < range.blockRangeEnd
  := by
  obtain ⟨hstart, hend, -⟩ := ScanRange.straddles_iff.1 hstraddles
  intro range hrange
  rw [splitRows, List.mem_append, List.mem_map, List.mem_singleton] at hrange
  rcases hrange with ⟨range, hrange, rfl⟩ | rfl
  · rw [ScanRange.moveStart]
    split
    · rename_i heq
      rw [eq_of_start_eq hmem hrange heq]
      apply hend
    · apply queue.boundsOrder range hrange
  · apply hstart

/-- The split goes through, and leaves these rows. -/
theorem splitStraddling_of_some (hdisjoint : Disjoint queue.rows)
    (hfind : queue.rows.find? (ScanRange.straddles minBirthday) = some straddling) :
  ∃ split, splitStraddling minBirthday queue = .ok (1, split)
    ∧ split.rows = splitRows queue straddling minBirthday
  := by
  have hmem := List.mem_of_find?_eq_some hfind
  have hstraddles := List.find?_some hfind
  have hrows := disjoint_splitRows hdisjoint hmem hstraddles
  have hbounds := boundsOrder_splitRows hmem hstraddles
  obtain ⟨shrunk, hshrunk, hshrunkRows⟩ := commitRows_eq_ok (List.pairwise_append.1 hrows).1
    (fun range hrange => hbounds range (List.mem_append_left _ hrange))
  obtain ⟨split, hsplit, hsplitRows⟩ := commitRows_eq_ok hrows hbounds
  refine ⟨split, ?_, hsplitRows⟩
  rw [splitStraddling, hfind]
  simp only [hshrunk, ok_bind, hshrunkRows]
  rw [← splitRows, hsplit]
  rfl

/-- The split keeps the heights that have a range. -/
theorem covers_splitRows (hmem : straddling ∈ queue.rows)
    (hstraddles : straddling.straddles minBirthday = true) (height : Nat) :
  Covers (splitRows queue straddling minBirthday) height ↔ Covers queue.rows height
  := by
  obtain ⟨hstart, hend, -⟩ := ScanRange.straddles_iff.1 hstraddles
  constructor
  · rintro ⟨moved, hmoved, hhas⟩
    rw [splitRows, List.mem_append, List.mem_map, List.mem_singleton] at hmoved
    rcases hmoved with ⟨range, hrange, rfl⟩ | rfl
    · refine ⟨range, hrange, ?_⟩
      rw [ScanRange.moveStart] at hhas
      split at hhas
      · rename_i heq
        exact ⟨heq ▸ hstart.le.trans hhas.1, hhas.2⟩
      · apply hhas
    · exact ⟨straddling, hmem, hhas.1, hhas.2.trans hend⟩
  · rintro ⟨range, hrange, hhas⟩
    by_cases hbelow : range.blockRangeStart = straddling.blockRangeStart ∧ height < minBirthday
    · refine ⟨_, List.mem_append_right _ (List.mem_singleton.2 rfl), ?_, hbelow.2⟩
      apply hbelow.1 ▸ hhas.1
    · refine ⟨_, List.mem_append_left _ (List.mem_map_of_mem hrange), ?_⟩
      rw [ScanRange.moveStart]
      split
      · rename_i heq
        exact ⟨not_lt.1 (fun hlt => hbelow ⟨heq, hlt⟩), hhas.2⟩
      · apply hhas

/-- The split keeps the priorities from the birthday on. -/
theorem priorityAt_splitRows (hstraddles : straddling.straddles minBirthday = true)
    {height : Nat} (hheight : minBirthday ≤ height) (priority : Nat) :
  PriorityAt (splitRows queue straddling minBirthday) height priority
    ↔ PriorityAt queue.rows height priority
  := by
  obtain ⟨hstart, -, -⟩ := ScanRange.straddles_iff.1 hstraddles
  have hmoved : ∀ range : ScanRange,
      ((range.moveStart straddling.blockRangeStart minBirthday).Has height
        ↔ range.Has height)
        ∧ (range.moveStart straddling.blockRangeStart minBirthday).priority = range.priority := by
    intro range
    rw [ScanRange.moveStart]
    split
    · rename_i heq
      refine ⟨?_, rfl⟩
      simp only [ScanRange.Has, heq]
      omega
    · exact ⟨Iff.rfl, rfl⟩
  constructor
  · rintro ⟨moved, hmem, hhas, rfl⟩
    rw [splitRows, List.mem_append, List.mem_map, List.mem_singleton] at hmem
    rcases hmem with ⟨range, hrange, rfl⟩ | rfl
    · exact ⟨range, hrange, (hmoved range).1.1 hhas, (hmoved range).2.symm⟩
    · exact absurd hhas.2 (not_lt.2 hheight)
  · rintro ⟨range, hrange, hhas, rfl⟩
    refine ⟨_, List.mem_append_left _ (List.mem_map_of_mem hrange), ?_, (hmoved range).2⟩
    apply (hmoved range).1.2 hhas

/-- After the split the birthday falls into ignored ranges only. -/
theorem not_straddles_splitRows (hdisjoint : Disjoint queue.rows) (hmem : straddling ∈ queue.rows)
    (hstraddles : straddling.straddles minBirthday = true) :
  ∀ range ∈ splitRows queue straddling minBirthday, range.straddles minBirthday = false
  := by
  obtain ⟨hstart, hend, -⟩ := ScanRange.straddles_iff.1 hstraddles
  intro range hrange
  rw [← Bool.not_eq_true, ScanRange.straddles_iff]
  rintro ⟨hlow, hhigh, -⟩
  rw [splitRows, List.mem_append, List.mem_map, List.mem_singleton] at hrange
  rcases hrange with ⟨range, hrange, rfl⟩ | rfl
  · rw [ScanRange.moveStart] at hlow hhigh
    split at hlow
    · apply lt_irrefl _ hlow
    · rename_i hne
      rw [if_neg hne] at hhigh
      have hapart := hdisjoint.apart hrange hmem (fun h => hne (h ▸ rfl))
      rcases hapart with hapart | hapart <;> omega
  · apply lt_irrefl _ hhigh

end Split

/-! ### The demotion -/

section Demotion

variable {minBirthday : Nat} {rows : List ScanRange}

theorem ScanRange.orphaned_iff {range : ScanRange} :
  range.orphaned minBirthday = true
    ↔ range.blockRangeEnd ≤ minBirthday ∧ priorityIgnored < range.priority
  := by
  simp [orphaned]

@[simp]
theorem ScanRange.blockRangeStart_demote (range : ScanRange) :
  (range.demote minBirthday).blockRangeStart = range.blockRangeStart
  := by
  rw [demote]
  split <;> rfl

@[simp]
theorem ScanRange.blockRangeEnd_demote (range : ScanRange) :
  (range.demote minBirthday).blockRangeEnd = range.blockRangeEnd
  := by
  rw [demote]
  split <;> rfl

@[simp]
theorem ScanRange.has_demote {range : ScanRange} {height : Nat} :
  (range.demote minBirthday).Has height ↔ range.Has height
  := by
  simp [Has]

theorem ScanRange.priority_demote_le (range : ScanRange) :
  (range.demote minBirthday).priority ≤ range.priority
  := by
  rw [demote]
  split
  · apply Nat.zero_le _
  · exact le_rfl

/-- A range that was demoted is not demoted again. -/
@[simp]
theorem ScanRange.orphaned_demote (range : ScanRange) :
  (range.demote minBirthday).orphaned minBirthday = false
  := by
  rw [demote]
  split
  · simp [orphaned]
  · rename_i h
    apply Bool.not_eq_true _ ▸ h

/-- A demotion lets no range straddle the birthday that did not. -/
theorem ScanRange.straddles_demote {range : ScanRange}
    (h : range.straddles minBirthday = false) :
  (range.demote minBirthday).straddles minBirthday = false
  := by
  rw [← Bool.not_eq_true, straddles_iff] at h ⊢
  rw [blockRangeStart_demote, blockRangeEnd_demote]
  rintro ⟨hlow, hhigh, hpriority⟩
  apply h ⟨hlow, hhigh, hpriority.trans_le range.priority_demote_le⟩

theorem disjoint_demote (h : Disjoint rows) :
  Disjoint (rows.map (ScanRange.demote minBirthday))
  := by
  apply List.Pairwise.map _ _ h
  intro range other hapart
  simpa [ScanRange.Apart] using hapart

theorem covers_demote (height : Nat) :
  Covers (rows.map (ScanRange.demote minBirthday)) height ↔ Covers rows height
  := by
  simp [Covers]

/-- The demotion keeps the priorities from the birthday on. -/
theorem priorityAt_demote {height : Nat} (hheight : minBirthday ≤ height) (priority : Nat) :
  PriorityAt (rows.map (ScanRange.demote minBirthday)) height priority
    ↔ PriorityAt rows height priority
  := by
  have hkeeps : ∀ range : ScanRange, range.Has height → range.demote minBirthday = range := by
    intro range hhas
    rw [ScanRange.demote, if_neg]
    rw [ScanRange.orphaned_iff]
    have := hhas.2
    omega
  constructor
  · rintro ⟨_, hmem, hhas, rfl⟩
    obtain ⟨range, hrange, rfl⟩ := List.mem_map.1 hmem
    rw [ScanRange.has_demote] at hhas
    exact ⟨range, hrange, hhas, by rw [hkeeps range hhas]⟩
  · rintro ⟨range, hrange, hhas, rfl⟩
    refine ⟨_, List.mem_map_of_mem hrange, ?_, by rw [hkeeps range hhas]⟩
    apply ScanRange.has_demote.2 hhas

/-- Below the birthday every range is ignored after the demotion, when the birthday falls into
ignored ranges only. -/
theorem priority_demote_below (hstraddles : ∀ range ∈ rows, range.straddles minBirthday = false)
    {height priority : Nat} (hheight : height < minBirthday)
    (h : PriorityAt (rows.map (ScanRange.demote minBirthday)) height priority) :
  priority = priorityIgnored
  := by
  obtain ⟨_, hmem, hhas, rfl⟩ := h
  obtain ⟨range, hrange, rfl⟩ := List.mem_map.1 hmem
  rw [ScanRange.has_demote] at hhas
  have hnot := hstraddles range hrange
  rw [← Bool.not_eq_true, ScanRange.straddles_iff] at hnot
  rw [ScanRange.demote]
  split
  · rfl
  · rename_i horphaned
    rw [ScanRange.orphaned_iff] at horphaned
    have := hhas.1
    simp only [priorityIgnored] at *
    omega

/-- No row is demoted exactly when the demotion changes no row. -/
theorem countP_orphaned_eq_zero :
  rows.countP (ScanRange.orphaned minBirthday) = 0
    ↔ rows.map (ScanRange.demote minBirthday) = rows
  := by
  rw [List.countP_eq_zero]
  constructor
  · intro h
    conv_rhs => rw [← List.map_id rows]
    apply List.map_congr_left
    intro range hrange
    rw [ScanRange.demote, if_neg (h range hrange), id]
  · intro h range hrange horphaned
    rw [← h] at hrange
    obtain ⟨range, -, rfl⟩ := List.mem_map.1 hrange
    rw [ScanRange.orphaned_demote] at horphaned
    cases horphaned

end Demotion

/-! ### What pruning does -/

/-- The split goes through, and keeps what pruning keeps. -/
theorem splitStraddling_spec {queue : Queue} (hdisjoint : Disjoint queue.rows)
    (minBirthday : Nat) :
  ∃ demoted split, splitStraddling minBirthday queue = .ok (demoted, split)
    ∧ Disjoint split.rows
    ∧ (∀ height, Covers split.rows height ↔ Covers queue.rows height)
    ∧ (∀ height priority, minBirthday ≤ height
        → (PriorityAt split.rows height priority ↔ PriorityAt queue.rows height priority))
    ∧ (∀ range ∈ split.rows, range.straddles minBirthday = false)
    ∧ (demoted = 0 → split = queue)
    ∧ (demoted ≠ 0 → split.rows.length ≠ queue.rows.length)
  := by
  cases hfind : queue.rows.find? (ScanRange.straddles minBirthday) with
  | none =>
    refine ⟨0, queue, ?_, hdisjoint, fun _ => Iff.rfl, fun _ _ _ => Iff.rfl, ?_, fun _ => rfl,
      fun h => absurd rfl h⟩
    · rw [splitStraddling, hfind]
    · intro range hrange
      apply Bool.not_eq_true _ ▸ List.find?_eq_none.1 hfind range hrange
  | some straddling =>
    have hmem := List.mem_of_find?_eq_some hfind
    have hstraddles := List.find?_some hfind
    obtain ⟨split, hsplit, hrows⟩ := splitStraddling_of_some hdisjoint hfind
    refine ⟨1, split, hsplit, ?_, ?_, ?_, ?_, fun h => absurd h one_ne_zero, fun _ => ?_⟩
    all_goals rw [hrows]
    · apply disjoint_splitRows hdisjoint hmem hstraddles
    · apply covers_splitRows hmem hstraddles
    · intro height priority hheight
      apply priorityAt_splitRows hstraddles hheight priority
    · apply not_straddles_splitRows hdisjoint hmem hstraddles
    · simp [splitRows]

/-- A queue that was pruned is left as it is. -/
theorem pruneOrphanedScanRangesInConn_of_pruned {birthdays : List Nat} {queue : Queue}
    (h : ∀ minBirthday ∈ birthdays.min?, ∀ range ∈ queue.rows,
      range.straddles minBirthday = false ∧ range.orphaned minBirthday = false) :
  pruneOrphanedScanRangesInConn birthdays queue = .ok (0, queue)
  := by
  rw [pruneOrphanedScanRangesInConn]
  cases hmin : birthdays.min? with
  | none => rfl
  | some minBirthday =>
    have hrows := h minBirthday hmin
    have hfind : queue.rows.find? (ScanRange.straddles minBirthday) = none := by
      rw [List.find?_eq_none]
      intro range hrange
      simp [(hrows range hrange).1]
    have hcount : queue.rows.countP (ScanRange.orphaned minBirthday) = 0 := by
      rw [List.countP_eq_zero]
      intro range hrange
      simp [(hrows range hrange).2]
    have hcommit : commitRows queue.rows = .ok queue := by
      rw [commitRows, dif_pos queue.startsUniq, dif_pos queue.endsUniq,
        dif_pos queue.boundsOrder]
    simp only [splitStraddling, hfind, ok_bind, hcount, countP_orphaned_eq_zero.1 hcount, hcommit]

/-- Pruning goes through on every queue of disjoint ranges.  It keeps the ranges disjoint and
the heights they have, below the smallest birthday every height is ignored, and every other
height keeps its priority.  It reports that no row was demoted exactly when it changed nothing,
and doing it again changes nothing. -/
theorem pruneOrphanedScanRangesInConn_spec (birthdays : List Nat) {queue : Queue}
    (hdisjoint : Disjoint queue.rows) :
  ∃ demoted pruned,
    pruneOrphanedScanRangesInConn birthdays queue = .ok (demoted, pruned)
      ∧ Disjoint pruned.rows
      ∧ (∀ height, Covers pruned.rows height ↔ Covers queue.rows height)
      ∧ (∀ height priority, (∃ smallest ∈ birthdays.min?, height < smallest)
          → PriorityAt pruned.rows height priority → priority = priorityIgnored)
      ∧ (∀ height priority, (¬ ∃ smallest ∈ birthdays.min?, height < smallest)
          → (PriorityAt pruned.rows height priority ↔ PriorityAt queue.rows height priority))
      ∧ (demoted = 0 ↔ pruned = queue)
      ∧ pruneOrphanedScanRangesInConn birthdays pruned = .ok (0, pruned)
  := by
  cases hmin : birthdays.min? with
  | none =>
    have hsame : pruneOrphanedScanRangesInConn birthdays queue = .ok (0, queue) := by
      rw [pruneOrphanedScanRangesInConn, hmin]
    refine ⟨0, queue, hsame, hdisjoint, fun _ => Iff.rfl, ?_, fun _ _ _ => Iff.rfl,
      iff_of_true rfl rfl, hsame⟩
    rintro _ _ ⟨_, hsmallest, -⟩
    cases hsmallest
  | some minBirthday =>
    obtain ⟨demoted, split, hsplit, hsplitDisjoint, hcovers, hfrom, hstraddles, hsame, hlonger⟩
      := splitStraddling_spec hdisjoint minBirthday
    have hdemoted : Disjoint (split.rows.map (ScanRange.demote minBirthday)) :=
      disjoint_demote hsplitDisjoint
    obtain ⟨pruned, hpruned, hrows⟩ := commitRows_eq_ok hdemoted
      (by simpa using split.boundsOrder)
    refine ⟨demoted + split.rows.countP (ScanRange.orphaned minBirthday), pruned, ?_, ?_, ?_,
      ?_, ?_, ?_, ?_⟩
    · rw [pruneOrphanedScanRangesInConn, hmin]
      simp only [hsplit, ok_bind, hpruned]
    · rw [hrows]
      apply hdemoted
    · intro height
      rw [hrows, covers_demote, hcovers]
    · rintro height priority ⟨_, ⟨⟩, hheight⟩ hat
      rw [hrows] at hat
      apply priority_demote_below hstraddles hheight hat
    · intro height priority hheight
      have hle : minBirthday ≤ height := by
        by_contra hlt
        apply hheight ⟨minBirthday, rfl, not_le.1 hlt⟩
      rw [hrows, priorityAt_demote hle, hfrom height priority hle]
    · rw [Nat.add_eq_zero_iff, countP_orphaned_eq_zero, ← hrows]
      constructor
      · rintro ⟨hdemoted, heq⟩
        rw [hsame hdemoted] at heq
        apply queue_ext heq
      · rintro rfl
        have hzero : demoted = 0 := by
          by_contra hne
          apply hlonger hne
          rw [hrows, List.length_map]
        exact ⟨hzero, by rw [hsame hzero]⟩
    · apply pruneOrphanedScanRangesInConn_of_pruned
      rintro _ hsmallest range hrange
      obtain rfl : minBirthday = _ := Option.some.inj (hmin.symm.trans hsmallest)
      rw [hrows] at hrange
      obtain ⟨range, hmem, rfl⟩ := List.mem_map.1 hrange
      exact ⟨ScanRange.straddles_demote (hstraddles range hmem), range.orphaned_demote⟩

instance {rows : List ScanRange} : Decidable (Disjoint rows) := by
  unfold Disjoint ScanRange.Apart
  infer_instance

/-- A queue in which a birthday at 200 falls into the second of two ranges. -/
def sampleQueue : Queue where
  rows := [⟨100, 150, 10⟩, ⟨150, 300, 20⟩]
  startsUniq := by decide
  endsUniq := by decide
  boundsOrder := by decide

example : (pruneOrphanedScanRangesInConn [250, 200] sampleQueue).map (fun x => (x.1, x.2.rows))
    = .ok (2, [⟨100, 150, 0⟩, ⟨200, 300, 20⟩, ⟨150, 200, 0⟩])
  := by decide

theorem pruneOrphanedScanRangesInConn_spec_straddling :
  ∃ demoted pruned,
    pruneOrphanedScanRangesInConn [250, 200] sampleQueue = .ok (demoted, pruned)
      ∧ Disjoint pruned.rows
      ∧ (∀ height, Covers pruned.rows height ↔ Covers sampleQueue.rows height)
      ∧ (∀ priority, PriorityAt pruned.rows 199 priority → priority = priorityIgnored)
      ∧ (∀ priority, PriorityAt pruned.rows 200 priority
          ↔ PriorityAt sampleQueue.rows 200 priority)
      ∧ (demoted = 0 ↔ pruned = sampleQueue)
      ∧ pruneOrphanedScanRangesInConn [250, 200] pruned = .ok (0, pruned)
  := by
  have hdisjoint : Disjoint sampleQueue.rows := by decide
  obtain ⟨demoted, pruned, hpruned, hafter, hcovers, hbelow, hfrom, hzero, hagain⟩ :=
    pruneOrphanedScanRangesInConn_spec [250, 200] hdisjoint
  refine ⟨demoted, pruned, hpruned, hafter, hcovers, ?_, ?_, hzero, hagain⟩
  · intro priority
    apply hbelow 199 priority ⟨200, rfl, by decide⟩
  · intro priority
    apply hfrom 200 priority
    rintro ⟨_, ⟨⟩, hlt⟩
    exact absurd hlt (by decide)

end ScanQueue

end Vizor
