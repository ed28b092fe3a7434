import Vizor.Planner.Soundness
import Mathlib.Data.List.Sort

/-!
# Consolidation

Consolidation spends a pool of notes in batches, each of which makes one feeder for the
next layer.  A batch whose total does not exceed the fee is left over.
-/

namespace Vizor.Planner

open Layered

/-- An unstable sort of notes by decreasing value.  It may reorder notes of one value in
any way that depends only on the list it is given. -/
structure NoteSort where
  sort : List PrepInput → List PrepInput
  perm : ∀ notes, (sort notes).Perm notes
  sorted : ∀ notes, (sort notes).Pairwise fun a b => b.value.value ≤ a.value.value

/-- The order of notes by decreasing value. -/
def largerFirst (a b : PrepInput) : Prop := b.value.value ≤ a.value.value

instance : DecidableRel largerFirst := fun a b =>
  inferInstanceAs (Decidable (b.value.value ≤ a.value.value))

instance : Std.Total largerFirst := ⟨fun a b => Nat.le_total b.value.value a.value.value⟩

instance : IsTrans PrepInput largerFirst := ⟨fun _ _ _ hab hbc => Nat.le_trans hbc hab⟩

/-- Insertion sort by decreasing value. -/
def NoteSort.insertion : NoteSort where
  sort := List.insertionSort largerFirst
  perm := List.perm_insertionSort largerFirst
  sorted := List.pairwise_insertionSort largerFirst

/-- The transactions of the layer under construction and the feeders they leave to the
next layer. -/
structure Round where
  txs : List PrepTransaction
  next : List PrepInput

/-- The round before any transaction. -/
def Round.empty : Round := ⟨[], []⟩

/-- Adding a consolidation of `batch` into `feeder` to a round of `layer`. -/
def Round.consolidation (round : Round) (layer : Nat) (batch : List PrepInput)
    (feeder : Zatoshis) : Round where
  txs := round.txs ++ [⟨batch, [.intermediate feeder]⟩]
  next := round.next ++ [.prior layer round.txs.length 0 feeder]

/-! ### The source functions -/

/-- The size of the next consolidation batch of `n` notes. -/
def nextBatchSize (n : Nat) : Nat :=
  if n ≤ consolidationInputsPerTx then n
  else if n - consolidationInputsPerTx = 1 then consolidationInputsPerTx - 1
  else consolidationInputsPerTx

/-- The batches of `n` notes, in at most `fuel` steps. -/
def batchSizes : (fuel n : Nat) → List Nat
  | 0, _ => []
  | fuel + 1, n =>
    if n = 0 then [] else nextBatchSize n :: batchSizes fuel (n - nextBatchSize n)

/-- The sizes of the batches in which `n` notes are consolidated, at least two, so that no
batch consists of one note. -/
def consolidationBatchSizes (n : Nat) : List Nat := batchSizes n n

/-- The total value of a list of notes. -/
def totalValue (notes : List PrepInput) : Nat :=
  (notes.map fun i => i.value.value).sum

/-- Consolidating the batches of a sorted pool.  The notes of the batches that cannot pay
the fee are appended to `leftover`. -/
def consolidateBatches (layer fee : Nat) :
    List Nat → List PrepInput → Round → List PrepInput →
      Outcome PrepError (List PrepInput × Round)
  | [], _, round, leftover => .ok (leftover, round)
  | size :: sizes, pool, round, leftover =>
    let batch := pool.take size
    let sum := totalValue batch
    if sum ≤ fee then
      consolidateBatches layer fee sizes (pool.drop size) round (leftover ++ batch)
    else do
      let feeder ← zat (sum - fee)
      consolidateBatches layer fee sizes (pool.drop size)
        (round.consolidation layer batch feeder) leftover

/-- Consolidating `pool` in `layer`: the notes left over, and the round with the
consolidations added. -/
def consolidate (S : NoteSort) (pool : List PrepInput) (layer fee : Nat) (round : Round) :
    Outcome PrepError (List PrepInput × Round) :=
  if pool.length < 2 then .ok (pool, round)
  else
    consolidateBatches layer fee (consolidationBatchSizes pool.length) (S.sort pool) round []

/-! ### Batch sizes -/

private theorem nextBatchSize_bounds {n : Nat} (hn : 2 ≤ n) :
  2 ≤ nextBatchSize n ∧ nextBatchSize n ≤ 15 ∧ nextBatchSize n ≤ n ∧ n - nextBatchSize n ≠ 1
  := by
  have h : (nextBatchSize n = n ∧ n ≤ 15) ∨ (nextBatchSize n = 14 ∧ n = 16) ∨
      (nextBatchSize n = 15 ∧ 17 ≤ n) := by
    unfold nextBatchSize consolidationInputsPerTx prepTxActions
    split_ifs <;> omega
  omega

private theorem batchSizes_spec (fuel n : Nat) (hn : n ≠ 1) (hfuel : n ≤ fuel) :
  (batchSizes fuel n).sum = n ∧ ∀ size ∈ batchSizes fuel n, 2 ≤ size ∧ size ≤ 15
  := by
  induction fuel generalizing n with
  | zero =>
    have : n = 0 := by omega
    simp [batchSizes, this]
  | succ fuel ih =>
    rw [batchSizes]
    split
    · rename_i hz
      simp [hz]
    · obtain ⟨htwo, hmax, hle, hone⟩ := nextBatchSize_bounds (n := n) (by omega)
      obtain ⟨hsum, hall⟩ := ih (n - nextBatchSize n) hone (by omega)
      constructor
      · rw [List.sum_cons, hsum]
        omega
      · intro size hsize
        rcases List.mem_cons.mp hsize with rfl | hsize
        · exact ⟨htwo, hmax⟩
        · apply hall size hsize

theorem sum_consolidationBatchSizes {n : Nat} (hn : 2 ≤ n) :
  (consolidationBatchSizes n).sum = n
  := (batchSizes_spec n n (by omega) le_rfl).1

/-- No batch consists of one note, and none exceeds the action budget. -/
theorem consolidationBatchSizes_bounds {n size : Nat} (hn : 2 ≤ n)
    (hsize : size ∈ consolidationBatchSizes n) :
  2 ≤ size ∧ size ≤ 15
  := (batchSizes_spec n n (by omega) le_rfl).2 size hsize

/-! ### The consolidations added to a round -/

variable {available : List Zatoshis} {fee : Nat} {direct : List (Nat × Zatoshis)}
  {layers : List (List PrepTransaction)} {pool leftover leftover' rest : List PrepInput}
  {round round' : Round} {sizes : List Nat} {layer : Nat} {S : NoteSort}

/-- Placing a transaction in the last layer. -/
theorem Sound.place_last {txs : List PrepTransaction} (tx : PrepTransaction)
    (h : Sound available fee direct (layers ++ [txs]) (tx.inputs ++ rest))
    (hready : ∀ i ∈ tx.inputs, i.readyAt ≤ layers.length)
    (hactions : tx.actionCount ≤ prepTxActions)
    (hconserves : tx.inputTotal = tx.outputTotal + fee)
    (hchange : ∀ value, .change value ∉ tx.outputs) :
  Sound available fee direct (layers ++ [txs ++ [tx]])
    (feeders layers.length txs.length tx.outputs ++ rest)
  := by
  have hp := h.place tx (l := layers.length) (by simp) hready hactions hconserves hchange
  rwa [place_append_singleton, size_append_singleton] at hp

/-- The state of a consolidation, on the way through its batches: the plan with the round
so far is sound, with the pool, the leftover, the feeders and `rest` live. -/
structure Consolidating (available : List Zatoshis) (fee : Nat)
    (direct : List (Nat × Zatoshis)) (layers : List (List PrepTransaction))
    (pool leftover : List PrepInput) (round : Round) (rest : List PrepInput) : Prop where
  sound : Sound available fee direct (layers ++ [round.txs])
    (pool ++ (leftover ++ (round.next ++ rest)))
  pool_ready : ∀ i ∈ pool, i.readyAt ≤ layers.length
  leftover_ready : ∀ i ∈ leftover, i.readyAt ≤ layers.length
  next_ready : ∀ i ∈ round.next, i.readyAt ≤ layers.length + 1

/-- Leaving a batch over. -/
private theorem Consolidating.skip (size : Nat)
    (h : Consolidating available fee direct layers pool leftover round rest) :
  Consolidating available fee direct layers (pool.drop size) (leftover ++ pool.take size)
    round rest
  where
  sound := by
    apply h.sound.perm
    conv_lhs => rw [← List.take_append_drop size pool]
    rw [List.perm_iff_count]
    intro i
    simp only [List.count_append]
    omega
  pool_ready := fun i hi => h.pool_ready i (List.mem_of_mem_drop hi)
  leftover_ready := by
    intro i hi
    rcases List.mem_append.mp hi with hi | hi
    · apply h.leftover_ready i hi
    · apply h.pool_ready i (List.mem_of_mem_take hi)
  next_ready := h.next_ready

/-- Consolidating a batch. -/
private theorem Consolidating.batch {size : Nat} {feeder : Zatoshis}
    (h : Consolidating available fee direct layers pool leftover round rest)
    (hsize : size ≤ 15) (hfeeder : totalValue (pool.take size) = feeder.value + fee) :
  Consolidating available fee direct layers (pool.drop size) leftover
    (round.consolidation layers.length (pool.take size) feeder) rest
  where
  sound := by
    have hlive : Sound available fee direct (layers ++ [round.txs])
        (pool.take size ++ (pool.drop size ++ (leftover ++ (round.next ++ rest)))) := by
      rw [← List.append_assoc, List.take_append_drop]
      apply h.sound
    have hp := hlive.place_last ⟨pool.take size, [.intermediate feeder]⟩
      (fun i hi => h.pool_ready i (List.mem_of_mem_take hi))
      (by
        simp only [PrepTransaction.actionCount, List.length_take, List.length_singleton,
          prepTxActions]
        omega)
      (by simpa [PrepTransaction.inputTotal, PrepTransaction.outputTotal, PrepOutput.value,
          totalValue] using hfeeder)
      (by simp)
    apply hp.perm
    rw [List.perm_iff_count]
    intro i
    simp only [feeders, feeder?, List.zipIdx_cons, List.zipIdx_nil, List.filterMap_cons,
      List.filterMap_nil, Round.consolidation, List.count_append]
    omega
  pool_ready := fun i hi => h.pool_ready i (List.mem_of_mem_drop hi)
  leftover_ready := h.leftover_ready
  next_ready := by
    intro i hi
    rcases List.mem_append.mp hi with hi | hi
    · apply h.next_ready i hi
    · rw [List.mem_singleton.mp hi]
      exact le_rfl

private theorem consolidateBatches_invariant
    (h : consolidateBatches layers.length fee sizes pool round leftover = .ok (leftover', round'))
    (hc : Consolidating available fee direct layers pool leftover round rest)
    (hsizes : ∀ size ∈ sizes, size ≤ 15) :
  Consolidating available fee direct layers [] leftover' round' rest
  := by
  induction sizes generalizing pool round leftover with
  | nil =>
    obtain ⟨rfl, rfl⟩ : leftover = leftover' ∧ round = round' := by simpa [consolidateBatches] using h
    exact {
      sound := hc.sound.subperm (List.sublist_append_right _ _).subperm
      pool_ready := by simp
      leftover_ready := hc.leftover_ready
      next_ready := hc.next_ready }
  | cons size sizes ih =>
    have htail : ∀ s ∈ sizes, s ≤ 15 := fun s hs => hsizes s (List.mem_cons_of_mem _ hs)
    rw [consolidateBatches] at h
    split at h
    · apply ih h (hc.skip size) htail
    · rename_i hfee
      obtain ⟨feeder, hz, h⟩ := Outcome.bind_eq_ok.mp h
      rw [zat_eq_ok] at hz
      apply ih h (hc.batch (hsizes size List.mem_cons_self) _) htail
      omega

/-- Consolidation keeps the plan sound: the notes it leaves over stay live and the
feeders it makes become live. -/
theorem consolidate_sound
    (h : consolidate S pool layers.length fee round = .ok (leftover', round'))
    (hs : Sound available fee direct (layers ++ [round.txs]) (pool ++ (round.next ++ rest)))
    (hpool : ∀ i ∈ pool, i.readyAt ≤ layers.length)
    (hnext : ∀ i ∈ round.next, i.readyAt ≤ layers.length + 1) :
  Consolidating available fee direct layers [] leftover' round' rest
  := by
  rw [consolidate] at h
  split at h
  · obtain ⟨rfl, rfl⟩ : pool = leftover' ∧ round = round' := by simpa using h
    exact ⟨hs, by simp, hpool, hnext⟩
  · rename_i hlen
    apply consolidateBatches_invariant h
    · exact {
        sound := hs.perm ((S.perm pool).symm.append_right _)
        pool_ready := fun i hi => hpool i ((S.perm pool).mem_iff.mp hi)
        leftover_ready := by simp
        next_ready := hnext }
    · intro size hsize
      apply (consolidationBatchSizes_bounds (by omega) hsize).2

private theorem consolidateBatches_minted
    (h : consolidateBatches layer fee sizes pool round leftover = .ok (leftover', round')) :
  mintedFunding round'.txs = mintedFunding round.txs
  := by
  induction sizes generalizing pool round leftover with
  | nil =>
    obtain ⟨-, rfl⟩ : leftover = leftover' ∧ round = round' := by simpa [consolidateBatches] using h
    rfl
  | cons size sizes ih =>
    rw [consolidateBatches] at h
    split at h
    · apply ih h
    · obtain ⟨feeder, -, h⟩ := Outcome.bind_eq_ok.mp h
      rw [ih h]
      simp [mintedFunding, Round.consolidation, PrepOutput.funding?]

/-- Consolidation mints no funding note. -/
theorem consolidate_minted
    (h : consolidate S pool layer fee round = .ok (leftover', round')) :
  mintedFunding round'.txs = mintedFunding round.txs
  := by
  rw [consolidate] at h
  split at h
  · obtain ⟨-, rfl⟩ : pool = leftover' ∧ round = round' := by simpa using h
    rfl
  · apply consolidateBatches_minted h

private theorem consolidateBatches_covers
    (h : consolidateBatches layers.length fee sizes pool round leftover = .ok (leftover', round'))
    (hc : Covers (layers ++ [round.txs]) (pool ++ (leftover ++ round.next)))
    (hsum : pool.length ≤ sizes.sum) :
  Covers (layers ++ [round'.txs]) (leftover' ++ round'.next)
  := by
  induction sizes generalizing pool round leftover with
  | nil =>
    obtain ⟨rfl, rfl⟩ : leftover = leftover' ∧ round = round' := by simpa [consolidateBatches] using h
    rw [List.sum_nil, Nat.le_zero, List.length_eq_zero_iff] at hsum
    simpa [hsum] using hc
  | cons size sizes ih =>
    have hdrop : (pool.drop size).length ≤ sizes.sum := by
      rw [List.sum_cons] at hsum
      rw [List.length_drop]
      omega
    have hsplit : Covers (layers ++ [round.txs])
        (pool.take size ++ (pool.drop size ++ (leftover ++ round.next))) := by
      rw [← List.append_assoc, List.take_append_drop]
      apply hc
    rw [consolidateBatches] at h
    split at h
    · apply ih h _ hdrop
      intro i hi
      have := hsplit i hi
      simp only [List.mem_append] at this ⊢
      tauto
    · obtain ⟨feeder, -, h⟩ := Outcome.bind_eq_ok.mp h
      apply ih h _ hdrop
      have hp := hsplit.place ⟨pool.take size, [.intermediate feeder]⟩
        (l := layers.length) (by simp)
      rw [place_append_singleton, size_append_singleton] at hp
      intro i hi
      have := hp i hi
      simp only [feeders, feeder?, List.zipIdx_cons, List.zipIdx_nil, List.filterMap_cons,
        List.filterMap_nil, List.mem_append, List.mem_singleton] at this
      simp only [Round.consolidation, List.mem_append, List.mem_singleton]
      tauto

/-- When the pool has every unconsumed feeder, so have the leftover and the new feeders. -/
theorem consolidate_covers
    (h : consolidate S pool layers.length fee round = .ok (leftover', round'))
    (hc : Covers (layers ++ [round.txs]) (pool ++ round.next)) :
  Covers (layers ++ [round'.txs]) (leftover' ++ round'.next)
  := by
  rw [consolidate] at h
  split at h
  · obtain ⟨rfl, rfl⟩ : pool = leftover' ∧ round = round' := by simpa using h
    apply hc
  · rename_i hlen
    apply consolidateBatches_covers h
    · intro i hi
      have := hc i hi
      simp only [List.mem_append, (S.perm pool).mem_iff] at this ⊢
      tauto
    · rw [(S.perm pool).length_eq, sum_consolidationBatchSizes (by omega)]

/-! ### Progress -/

theorem consolidateBatches_progress
    (h : consolidateBatches layer fee sizes pool round leftover = .ok (leftover', round'))
    (hsum : sizes.sum = pool.length) (hsizes : ∀ size ∈ sizes, 2 ≤ size) :
  ∃ added, round'.txs.length = round.txs.length + added ∧
    round'.next.length = round.next.length + added ∧
    leftover'.length + 2 * added ≤ leftover.length + pool.length
  := by
  induction sizes generalizing pool round leftover with
  | nil =>
    obtain ⟨rfl, rfl⟩ : leftover = leftover' ∧ round = round' := by simpa [consolidateBatches] using h
    exact ⟨0, by simp, by simp, by simp⟩
  | cons size sizes ih =>
    have htail : ∀ s ∈ sizes, 2 ≤ s := fun s hs => hsizes s (List.mem_cons_of_mem _ hs)
    have htwo : 2 ≤ size := hsizes size List.mem_cons_self
    have hdrop : sizes.sum = (pool.drop size).length := by
      rw [List.length_drop, ← hsum, List.sum_cons]
      omega
    have hle : size ≤ pool.length := by
      rw [← hsum, List.sum_cons]
      omega
    rw [consolidateBatches] at h
    split at h
    · obtain ⟨added, htxs, hnext, hlen⟩ := ih h hdrop htail
      refine ⟨added, htxs, hnext, ?_⟩
      rw [List.length_append, List.length_take, List.length_drop] at hlen
      omega
    · obtain ⟨feeder, -, h⟩ := Outcome.bind_eq_ok.mp h
      obtain ⟨added, htxs, hnext, hlen⟩ := ih h hdrop htail
      simp only [Round.consolidation, List.length_append, List.length_singleton] at htxs hnext
      rw [List.length_drop] at hlen
      exact ⟨added + 1, by omega, by omega, by omega⟩

/-- Every consolidation added to a round replaces at least two notes of the pool by one
feeder. -/
theorem consolidate_progress
    (h : consolidate S pool layer fee round = .ok (leftover', round')) :
  ∃ added, round'.txs.length = round.txs.length + added ∧
    round'.next.length = round.next.length + added ∧
    leftover'.length + 2 * added ≤ pool.length
  := by
  rw [consolidate] at h
  split at h
  · obtain ⟨rfl, rfl⟩ : pool = leftover' ∧ round = round' := by simpa using h
    exact ⟨0, by simp, by simp, by simp⟩
  · rename_i hlen
    have hp := consolidateBatches_progress h
      (by rw [sum_consolidationBatchSizes (by omega), (S.perm pool).length_eq])
      (fun size hsize => (consolidationBatchSizes_bounds (by omega) hsize).1)
    simpa [(S.perm pool).length_eq] using hp

private theorem consolidateBatches_ne_outOfFuel :
  consolidateBatches layer fee sizes pool round leftover ≠ .error .outOfFuel
  := by
  induction sizes generalizing pool round leftover with
  | nil => simp [consolidateBatches]
  | cons size sizes ih =>
    rw [consolidateBatches]
    split
    · apply ih
    · rw [ne_eq, Outcome.bind_eq_outOfFuel]
      rintro (h | ⟨feeder, -, h⟩)
      · apply zat_ne_outOfFuel _ h
      · apply ih h

theorem consolidate_ne_outOfFuel :
  consolidate S pool layer fee round ≠ .error .outOfFuel
  := by
  rw [consolidate]
  split
  · simp
  · apply consolidateBatches_ne_outOfFuel

end Vizor.Planner
