import Mathlib.Algebra.Group.Nat.Defs
import Vizor.Lib.Run
import Vizor.Store.Schedule

/-!
# Batches of a scan

A pending range of the chain is scanned in batches.  A batch ends at the tip of the chain, at
the end of the range, at a boundary of the sandblasting attack, or after as many blocks as
apply where it starts.  The blocks of a batch come in a stream, which is accepted when it
delivers the heights of the batch one after the other and then ends.
-/

namespace Vizor

open Run Store

namespace ScanBatches

/-! ### Batches -/

def sandblastingStart : Nat := 1710000

def sandblastingEnd : Nat := 2050000

def batchSizeSandblasting : Nat := 100

/-- The number of blocks that applies to a batch from `start`, and the end of the batch. -/
def plannedBatchEnd (baseBatchSize start rangeEnd : Nat) : Option (Nat × Nat) :=
  if rangeEnd ≤ start then none
  else
    let (batchSize, phaseEnd) :=
      if start < sandblastingStart then (baseBatchSize, min rangeEnd sandblastingStart)
      else if start < sandblastingEnd then (batchSizeSandblasting, min rangeEnd sandblastingEnd)
      else (baseBatchSize, rangeEnd)
    some (batchSize, min (saturatingAdd32 start batchSize) phaseEnd)

/-- The height after the tip of the chain. -/
def chainTipExclusiveEnd (currentTipHeight : Nat) : Nat :=
  let currentTip := if currentTipHeight < u32Size then currentTipHeight else u32Size - 1
  saturatingAdd32 currentTip 1

/-- The next batch of a range that the chain has. -/
def scannableBatchEnd (baseBatchSize start rangeEnd currentTipHeight : Nat) :
    Option (Nat × Nat) :=
  let availableEnd := min rangeEnd (chainTipExclusiveEnd currentTipHeight)
  if availableEnd ≤ start then none
  else plannedBatchEnd baseBatchSize start availableEnd

/-- A batch: the blocks from `start` up to and without `stop`. -/
structure Batch where
  start : Nat
  size : Nat
  stop : Nat
  deriving DecidableEq, Repr

/-- The batches that are taken one after the other from `start`, until there is none. -/
inductive Batches (baseBatchSize rangeEnd currentTipHeight : Nat) : Nat → List Batch → Prop
  | done {start : Nat} (h : scannableBatchEnd baseBatchSize start rangeEnd currentTipHeight = none) :
    Batches baseBatchSize rangeEnd currentTipHeight start []
  | next {start size stop : Nat} {rest : List Batch}
      (h : scannableBatchEnd baseBatchSize start rangeEnd currentTipHeight = some (size, stop))
      (hrest : Batches baseBatchSize rangeEnd currentTipHeight stop rest) :
    Batches baseBatchSize rangeEnd currentTipHeight start (⟨start, size, stop⟩ :: rest)

/-! ### Streams of blocks -/

/-- An error of a sync. -/
inductive SyncError where
  | network (message : String)
  | other (message : String)
  deriving DecidableEq, Repr

/-- What a wait for the next message of a stream ends with. -/
inductive StreamMessage (Block : Type) where
  | block (block : Block)
  /-- The stream ended. -/
  | finished
  /-- The server answered with an error. -/
  | failed (status : String)
  /-- No message came within the idle timeout. -/
  | timedOut
  deriving DecidableEq

variable {Block : Type}

def lightwalletdStreamIdleTimeoutSecs : Nat := 30

/-- Wait for the next message of a stream. -/
def awaitStreamMessage (label : String) : StreamMessage Block → Except SyncError (Option Block)
  | .block block => .ok (some block)
  | .finished => .ok none
  | .failed status => .error (.network s!"{label}: {status}")
  | .timedOut => .error (.network
    s!"{label}: timed out after {lightwalletdStreamIdleTimeoutSecs}s waiting for next message")

/-- The number of blocks of a request for heights of 64 bits. -/
def expectedBlockCount (startHeight endHeight : Nat) : Except SyncError Nat :=
  if startHeight ≤ endHeight ∧ endHeight - startHeight + 1 < 2 ^ 64 then
    .ok (endHeight - startHeight + 1)
  else .error (.other
    s!"get_block_range request {startHeight}..={endHeight} is reversed or too large")

/-- Collect the messages of a stream after the `blocks` that came already; `messages i` is
what the wait for message `i` ends with. -/
def collectFrom (height : Block → Nat) (messages : Nat → StreamMessage Block)
    (startHeight endHeight expectedCount : Nat) (blocks : List Block) :
    Except SyncError (List Block) := do
  match ← awaitStreamMessage "get_block_range stream" (messages blocks.length) with
  | none =>
    if blocks.length ≠ expectedCount then
      .error (.network s!"get_block_range returned {blocks.length} of {expectedCount} blocks for request {startHeight}..={endHeight}")
    else return blocks
  | some block =>
    if hroom : expectedCount ≤ blocks.length then
      .error (.network s!"get_block_range returned more than {expectedCount} blocks for request {startHeight}..={endHeight}")
    else if 2 ^ 64 ≤ startHeight + blocks.length then
      .error (.other "get_block_range response height overflowed")
    else if height block ≠ startHeight + blocks.length then
      .error (.network s!"get_block_range returned height {height block} while expecting {startHeight + blocks.length} for request {startHeight}..={endHeight}")
    else collectFrom height messages startHeight endHeight expectedCount (blocks ++ [block])
termination_by expectedCount - blocks.length
decreasing_by
  rw [List.length_append, List.length_singleton]
  omega

/-- Collect the blocks of a request; `reserves n` says whether there is memory for `n` of
them. -/
def collectCompactBlocks (height : Block → Nat) (reserves : Nat → Bool)
    (messages : Nat → StreamMessage Block) (startHeight endHeight : Nat) :
    Except SyncError (List Block) := do
  let expectedCount ← expectedBlockCount startHeight endHeight
  ensure (reserves expectedCount) (SyncError.other "get_block_range request is too large")
  collectFrom height messages startHeight endHeight expectedCount []

/-! ### Where a batch ends -/

/-- The size that applies to a batch from `start`. -/
def sizeAt (baseBatchSize start : Nat) : Nat :=
  if sandblastingStart ≤ start ∧ start < sandblastingEnd then batchSizeSandblasting
  else baseBatchSize

/-- What a batch of a range satisfies. -/
structure Batch.Fits (baseBatchSize : Nat) (batch : Batch) : Prop where
  nonempty : batch.start < batch.stop
  size : batch.size = sizeAt baseBatchSize batch.start
  short : batch.stop - batch.start ≤ batch.size
  outside : ∀ boundary ∈ [sandblastingStart, sandblastingEnd],
    boundary ≤ batch.start ∨ batch.stop ≤ boundary

/-- The heights of the blocks of a batch. -/
def Batch.heights (batch : Batch) : List Nat :=
  List.range' batch.start (batch.stop - batch.start)

section

variable {baseBatchSize rangeEnd currentTipHeight : Nat}

theorem min_chainTipExclusiveEnd (hend : rangeEnd < u32Size) :
  min rangeEnd (chainTipExclusiveEnd currentTipHeight) = min rangeEnd (currentTipHeight + 1)
  := by
  unfold chainTipExclusiveEnd saturatingAdd32
  unfold u32Size at *
  dsimp only
  split
  · omega
  · omega

/-- There is no batch exactly when the chain has no block of the range left. -/
theorem scannableBatchEnd_eq_none (hend : rangeEnd < u32Size) {start : Nat} :
  scannableBatchEnd baseBatchSize start rangeEnd currentTipHeight = none
    ↔ min rangeEnd (currentTipHeight + 1) ≤ start
  := by
  unfold scannableBatchEnd
  rw [min_chainTipExclusiveEnd hend]
  dsimp only
  split
  case isTrue h => simp [h]
  case isFalse h => simp [plannedBatchEnd, h]

/-- A planned batch fits and stays inside of its range. -/
theorem plannedBatchEnd_spec (hbase : 0 < baseBatchSize) (hend : rangeEnd < u32Size)
    {start size stop : Nat} (h : plannedBatchEnd baseBatchSize start rangeEnd = some (size, stop)) :
  Batch.Fits baseBatchSize ⟨start, size, stop⟩ ∧ stop ≤ rangeEnd
  := by
  have hlow : start < rangeEnd := by
    by_contra hnot
    simp [plannedBatchEnd, Nat.le_of_not_lt hnot] at h
  simp only [plannedBatchEnd, Nat.not_le.mpr hlow, if_false, saturatingAdd32, sandblastingStart,
    sandblastingEnd, batchSizeSandblasting, u32Size] at h hend
  suffices hall : start < stop
      ∧ size = sizeAt baseBatchSize start
      ∧ stop - start ≤ size
      ∧ (sandblastingStart ≤ start ∨ stop ≤ sandblastingStart)
      ∧ (sandblastingEnd ≤ start ∨ stop ≤ sandblastingEnd)
      ∧ stop ≤ rangeEnd by
    obtain ⟨hstop, hsize, hshort, hfirst, hsecond, hin⟩ := hall
    refine ⟨⟨hstop, hsize, hshort, ?_⟩, hin⟩
    intro boundary hboundary
    simp only [List.mem_cons, List.not_mem_nil, or_false] at hboundary
    obtain rfl | rfl := hboundary
    · apply hfirst
    · apply hsecond
  unfold sizeAt sandblastingStart sandblastingEnd batchSizeSandblasting
  by_cases hbefore : start < 1710000
  · obtain ⟨rfl, rfl⟩ := by simpa [hbefore] using h
    rw [if_neg (by omega)]
    omega
  by_cases hinside : start < 2050000
  · obtain ⟨rfl, rfl⟩ := by simpa [hbefore, hinside] using h
    rw [if_pos (by omega)]
    omega
  · obtain ⟨rfl, rfl⟩ := by simpa [hbefore, hinside] using h
    rw [if_neg (by omega)]
    omega

/-- The next batch fits and stays among the blocks of the range that the chain has. -/
theorem scannableBatchEnd_spec (hbase : 0 < baseBatchSize) (hend : rangeEnd < u32Size)
    {start size stop : Nat}
    (h : scannableBatchEnd baseBatchSize start rangeEnd currentTipHeight = some (size, stop)) :
  Batch.Fits baseBatchSize ⟨start, size, stop⟩ ∧ stop ≤ min rangeEnd (currentTipHeight + 1)
  := by
  unfold scannableBatchEnd at h
  rw [min_chainTipExclusiveEnd hend] at h
  dsimp only at h
  split at h
  · cases h
  · apply plannedBatchEnd_spec hbase _ h
    omega

/-! ### The batches of a range -/

/-- Taking batches terminates. -/
theorem Batches.exists (hbase : 0 < baseBatchSize) (hend : rangeEnd < u32Size) (start : Nat) :
  ∃ batches, Batches baseBatchSize rangeEnd currentTipHeight start batches
  := by
  induction hleft : min rangeEnd (currentTipHeight + 1) - start
    using Nat.strong_induction_on generalizing start with
  | _ left ih =>
    cases h : scannableBatchEnd baseBatchSize start rangeEnd currentTipHeight with
    | none => exact ⟨[], .done h⟩
    | some next =>
      obtain ⟨hfits, hstop⟩ := scannableBatchEnd_spec hbase hend h
      have hlow := hfits.nonempty
      dsimp only at hlow
      obtain ⟨rest, hrest⟩ := ih (min rangeEnd (currentTipHeight + 1) - next.2) (by omega)
        next.2 rfl
      exact ⟨_, .next h hrest⟩

/-- There is one way to take them. -/
theorem Batches.unique {start : Nat} {batches others : List Batch}
    (h : Batches baseBatchSize rangeEnd currentTipHeight start batches)
    (hother : Batches baseBatchSize rangeEnd currentTipHeight start others) :
  others = batches
  := by
  induction h generalizing others with
  | done hnone =>
    cases hother with
    | done => rfl
    | next hsome => simp [hnone] at hsome
  | next hsome _ ih =>
    cases hother with
    | done hnone => simp [hsome] at hnone
    | next hsome' hrest' =>
      obtain ⟨rfl, rfl⟩ := by simpa [hsome] using hsome'
      rw [ih hrest']

theorem Batches.fits (hbase : 0 < baseBatchSize) (hend : rangeEnd < u32Size) {start : Nat}
    {batches : List Batch} (h : Batches baseBatchSize rangeEnd currentTipHeight start batches) :
  ∀ batch ∈ batches, batch.Fits baseBatchSize ∧ batch.stop ≤ min rangeEnd (currentTipHeight + 1)
  := by
  induction h with
  | done => simp
  | next hsome _ ih =>
    intro batch hbatch
    obtain rfl | hbatch := List.mem_cons.mp hbatch
    · apply scannableBatchEnd_spec hbase hend hsome
    · apply ih batch hbatch

/-- The batches hold the blocks of the range that the chain has, each of them once and in
order. -/
theorem Batches.heights (hbase : 0 < baseBatchSize) (hend : rangeEnd < u32Size) {start : Nat}
    {batches : List Batch} (h : Batches baseBatchSize rangeEnd currentTipHeight start batches) :
  batches.flatMap Batch.heights
    = List.range' start (min rangeEnd (currentTipHeight + 1) - start)
  := by
  induction h with
  | done hnone =>
    have hle := (scannableBatchEnd_eq_none hend).mp hnone
    simp [Nat.sub_eq_zero_of_le hle]
  | @next start size stop rest hsome _ ih =>
    obtain ⟨hfits, hstop⟩ := scannableBatchEnd_spec hbase hend hsome
    have hlow := hfits.nonempty
    dsimp only at hlow
    rw [List.flatMap_cons, ih]
    calc
      _ = List.range' start (stop - start)
          ++ List.range' (start + (stop - start)) (min rangeEnd (currentTipHeight + 1) - stop) := by
        rw [Nat.add_sub_cancel' (by omega)]
        rfl
      _ = _ := by
        rw [List.range'_append_1]
        congr 1
        omega

end

/-! ### Which streams are accepted -/

section

variable {height : Block → Nat} {messages : Nat → StreamMessage Block}
  {startHeight endHeight expectedCount : Nat}

theorem awaitStreamMessage_eq_none {label : String} {message : StreamMessage Block} :
  awaitStreamMessage label message = .ok none ↔ message = .finished
  := by
  cases message <;> simp [awaitStreamMessage]

theorem awaitStreamMessage_eq_some {label : String} {message : StreamMessage Block}
    {block : Block} :
  awaitStreamMessage label message = .ok (some block) ↔ message = .block block
  := by
  cases message <;> simp [awaitStreamMessage]

/-- The messages after the `blocks` are accepted when they are the blocks of the heights that
are left, and then the end of the stream. -/
theorem collectFrom_eq_ok (hfit : startHeight + expectedCount ≤ 2 ^ 64) {blocks result : List Block}
    (hroom : blocks.length ≤ expectedCount) :
  collectFrom height messages startHeight endHeight expectedCount blocks = .ok result
    ↔ ∃ rest, result = blocks ++ rest
      ∧ blocks.length + rest.length = expectedCount
      ∧ rest.map height = List.range' (startHeight + blocks.length) rest.length
      ∧ (List.range' blocks.length rest.length).map messages = rest.map .block
      ∧ messages expectedCount = .finished
  := by
  induction hleft : expectedCount - blocks.length using Nat.strong_induction_on
    generalizing blocks with
  | _ left ih =>
    rw [collectFrom]
    constructor
    · intro h
      obtain ⟨next, hnext, h⟩ := bind_eq_ok.mp h
      cases next with
      | none =>
        have hmessage := awaitStreamMessage_eq_none.mp hnext
        dsimp only at h
        split at h
        · cases h
        case isFalse hlength =>
          cases h
          refine ⟨[], by simp, by simpa using not_not.mp hlength, rfl, rfl, ?_⟩
          rw [← not_not.mp hlength, hmessage]
      | some block =>
        have hmessage := awaitStreamMessage_eq_some.mp hnext
        dsimp only at h
        split_ifs at h with hmore hover hheight
        obtain ⟨rest, rfl, hlength, hheights, hmessages, hfinished⟩ :=
          (ih _ (by simp; omega) (by simp; omega) rfl).mp h
        refine ⟨block :: rest, by simp, by simpa [Nat.add_assoc, Nat.add_comm 1] using hlength,
          ?_, ?_, hfinished⟩
        · simpa [List.range'_succ, not_not.mp hheight, Nat.add_assoc] using hheights
        · simpa [List.range'_succ, hmessage] using hmessages
    · rintro ⟨rest, rfl, hlength, hheights, hmessages, hfinished⟩
      cases rest with
      | nil =>
        have hall : blocks.length = expectedCount := by simpa using hlength
        rw [hall, hfinished]
        simp [awaitStreamMessage, bind, Except.bind, pure, Except.pure]
      | cons block rest =>
        simp only [List.map_cons, List.length_cons, List.range'_succ, List.cons.injEq]
          at hlength hheights hmessages
        rw [hmessages.1]
        simp only [awaitStreamMessage, bind, Except.bind]
        rw [dif_neg (by omega), if_neg (by omega), if_neg (by simp [hheights.1])]
        apply (ih _ (by simp; omega) (by simp; omega) rfl).mpr
        refine ⟨rest, by simp, by simp; omega, ?_, ?_, hfinished⟩
        · simpa [Nat.add_assoc] using hheights.2
        · simpa using hmessages.2

/-- A request is answered exactly when there is memory for its blocks, and the stream holds the
block of each of its heights, in their order, and nothing after them. -/
theorem collectCompactBlocks_eq_ok {reserves : Nat → Bool} (hle : startHeight ≤ endHeight)
    (hfit : endHeight < 2 ^ 64) (hcount : endHeight - startHeight + 1 < 2 ^ 64)
    {blocks : List Block} :
  collectCompactBlocks height reserves messages startHeight endHeight = .ok blocks
    ↔ reserves (endHeight - startHeight + 1) = true
      ∧ blocks.map height = List.range' startHeight (endHeight - startHeight + 1)
      ∧ (List.range (endHeight - startHeight + 1)).map messages = blocks.map .block
      ∧ messages (endHeight - startHeight + 1) = .finished
  := by
  have hexpected : expectedBlockCount startHeight endHeight
      = .ok (endHeight - startHeight + 1) := if_pos ⟨hle, hcount⟩
  have hcollect := @collectFrom_eq_ok Block height messages startHeight endHeight
    (endHeight - startHeight + 1) (by omega) [] blocks (Nat.zero_le _)
  rw [collectCompactBlocks, hexpected]
  constructor
  · intro h
    obtain ⟨_, ⟨⟩, h⟩ := bind_eq_ok.mp h
    obtain ⟨_, hreserves, h⟩ := bind_eq_ok.mp h
    obtain ⟨rest, rfl, hall, hheights, hmessages, hfinished⟩ := hcollect.mp h
    simp only [List.length_nil, Nat.zero_add, Nat.add_zero] at hall hheights hmessages
    rw [hall] at hheights hmessages
    refine ⟨ensure_eq_ok.mp hreserves, hheights, ?_, hfinished⟩
    rw [List.range_eq_range', hmessages]
  · rintro ⟨hreserves, hheights, hmessages, hfinished⟩
    have hall : blocks.length = endHeight - startHeight + 1 := by
      simpa using congrArg List.length hheights
    apply bind_eq_ok.mpr
    refine ⟨_, rfl, bind_eq_ok.mpr ⟨(), ensure_eq_ok.mpr hreserves,
      hcollect.mpr ⟨blocks, rfl, ?_, ?_, ?_, hfinished⟩⟩⟩
    · rw [List.length_nil, Nat.zero_add, hall]
    · rw [hall, hheights, List.length_nil]
      rfl
    · rw [hall, ← hmessages, List.range_eq_range', List.length_nil]

end

/-! ### The batches of a range and their streams -/

/-- The batches of a range are taken in one way.  They are not empty, none is longer than the
size that applies or crosses a boundary of the sandblasting attack, and together they hold
each block of the range that the chain has, once and in order.  The blocks of a batch are
accepted exactly when the stream holds its heights, in their order, and nothing after them. -/
theorem batches_partition {baseBatchSize start rangeEnd currentTipHeight : Nat}
    (hbase : 0 < baseBatchSize) (hend : rangeEnd < u32Size) :
  ∃ batches, Batches baseBatchSize rangeEnd currentTipHeight start batches
    ∧ (∀ others, Batches baseBatchSize rangeEnd currentTipHeight start others → others = batches)
    ∧ (∀ batch ∈ batches, batch.Fits baseBatchSize)
    ∧ batches.flatMap Batch.heights
      = List.range' start (min rangeEnd (currentTipHeight + 1) - start)
    ∧ ∀ batch ∈ batches, ∀ {Block : Type} (height : Block → Nat) (reserves : Nat → Bool)
        (messages : Nat → StreamMessage Block) (blocks : List Block),
      collectCompactBlocks height reserves messages batch.start (batch.stop - 1) = .ok blocks
        ↔ reserves (batch.stop - batch.start) = true
          ∧ blocks.map height = batch.heights
          ∧ (List.range (batch.stop - batch.start)).map messages = blocks.map .block
          ∧ messages (batch.stop - batch.start) = .finished
  := by
  obtain ⟨batches, hbatches⟩ :=
    @Batches.exists baseBatchSize rangeEnd currentTipHeight hbase hend start
  have hfits := hbatches.fits hbase hend
  refine ⟨batches, hbatches, fun _ hothers => hbatches.unique hothers,
    fun batch hbatch => (hfits batch hbatch).1, hbatches.heights hbase hend, ?_⟩
  intro batch hbatch Block height reserves messages blocks
  obtain ⟨hfit, hstop⟩ := hfits batch hbatch
  have hnonempty := hfit.nonempty
  unfold u32Size at hend
  have hcount : batch.stop - 1 - batch.start + 1 = batch.stop - batch.start := by omega
  have hcollect := @collectCompactBlocks_eq_ok Block height messages batch.start (batch.stop - 1)
    reserves (by omega) (by omega) (by omega) blocks
  rwa [hcount] at hcollect

theorem batches_partition_around :
  (∃ batches, Batches 1000 1710500 1710199 1709500 batches
    ∧ batches.flatMap Batch.heights = List.range' 1709500 700)
    ∧ scannableBatchEnd 1000 1709500 1710500 1710199 = some (1000, 1710000)
    ∧ scannableBatchEnd 1000 1710000 1710500 1710199 = some (100, 1710100)
  := by
  obtain ⟨batches, hbatches, _, _, hheights, _⟩ :=
    @batches_partition 1000 1709500 1710500 1710199 (by decide) (by decide)
  exact ⟨⟨batches, hbatches, hheights⟩, by decide, by decide⟩

end ScanBatches

end Vizor
