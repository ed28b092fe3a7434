import Vizor.Store.Stages
import Mathlib.Algebra.GroupWithZero.Nat
import Mathlib.Data.List.MinMax

/-!
# Heights of preparation stages

The stages of a denomination split are in layers: a stage spends outputs of stages of earlier
layers.  Their heights are planned layer by layer before they are signed.  When a broadcast
misses its height, the stages that were not submitted get new heights, in the order of their
old ones.
-/

namespace Vizor

open Table Run

/-! ### The source functions -/

/-- The mean and the maximum delay between two stages. -/
def preparationScheduleParameters :
    WalletNetwork → MigrationTimingPolicy → Nat × Nat
  | .regtest, .fastTestnet | .test, .fastTestnet => (4, 16)
  | .regtest, _ => (1, 4)
  | _, _ => (16, 96)

/-- The number of stages up to which the mean delay is that of the policy. -/
def densePreparationTransactionThreshold : Nat := 3

/-- The mean and the maximum delay for some stages. -/
def preparationScheduleParametersForTransactionCount (network : WalletNetwork)
    (timingPolicy : MigrationTimingPolicy) (transactionCount : Nat) : Nat × Nat :=
  let (meanDelayBlocks, maxDelayBlocks) := preparationScheduleParameters network timingPolicy
  (if densePreparationTransactionThreshold < transactionCount then max (meanDelayBlocks / 2) 1
    else meanDelayBlocks, maxDelayBlocks)

/-- What a random generator gives the schedule of a split. -/
structure PreparationDraws (maxDelayBlocks : Nat) where
  /-- A random order of the stages of a layer. -/
  shuffled : Nat → List Nat → List Nat
  shuffled_perm : ∀ layerIndex stageIndices,
    (shuffled layerIndex stageIndices).Perm stageIndices
  /-- The first sampled delay of a stage that is within the policy. -/
  delays : Nat → Nat
  delays_le : ∀ stageIndex, delays stageIndex ≤ maxDelayBlocks

/-- The stages of a layer. -/
def stagesOfLayer (stageLayers : List Nat) (layerIndex : Nat) : List Nat :=
  (List.range stageLayers.length).filter fun stageIndex =>
    stageLayers[stageIndex]? = some layerIndex

section Planning

variable (preparationPolicy : PreparationTimingPolicy) (confirmations : Nat)
  (stageLayers : List Nat) {maxDelayBlocks : Nat} (draws : PreparationDraws maxDelayBlocks)

/-- The delay before a stage. -/
def spacing (stageIndex : Nat) : Nat :=
  if preparationPolicy = .zip318Spaced then draws.delays stageIndex else 0

/-- Schedule a stage after the last one. -/
def scheduleStage (acc : Nat × List Nat) (stageIndex : Nat) : Except String (Nat × List Nat) := do
  let scheduledHeight ←
    if preparationPolicy = .zip318Spaced then
      okOr (checkedAdd32 acc.1 (draws.delays stageIndex))
        "Migration preparation scheduled height overflow"
    else .ok acc.1
  return (scheduledHeight, acc.2.set stageIndex scheduledHeight)

/-- Schedule the stages of a layer, and find the first height of the next layer. -/
def scheduleLayer (acc : Nat × List Nat) (layerIndex : Nat) : Except String (Nat × List Nat) := do
  let stageIndices := stagesOfLayer stageLayers layerIndex
  ensure (stageIndices ≠ []) s!"Migration preparation schedule is missing layer {layerIndex}"
  let stageIndices :=
    if preparationPolicy = .zip318Spaced then draws.shuffled layerIndex stageIndices
    else stageIndices
  let (scheduledHeight, heights) ← stageIndices.foldlM (scheduleStage preparationPolicy draws) acc
  let layerBase ← okOr (checkedAdd32 scheduledHeight confirmations)
    "Migration preparation layer height overflow"
  return (layerBase, heights)

end Planning

/-- The heights of stages with some layers. -/
def plannedPreparationScheduledHeights (network : WalletNetwork)
    (preparationPolicy : PreparationTimingPolicy) (timingPolicy : MigrationTimingPolicy)
    (targetHeight confirmations : Nat) (stageLayers : List Nat)
    (draws : PreparationDraws (preparationScheduleParametersForTransactionCount network
      timingPolicy stageLayers.length).2) :
    Except String (List Nat) :=
  match stageLayers.max? with
  | none => .ok []
  | some lastLayer => do
    let planned ← (List.range (lastLayer + 1)).foldlM
      (scheduleLayer preparationPolicy confirmations stageLayers draws)
      (targetHeight - 1, List.replicate stageLayers.length 0)
    return planned.2

/-! ### Layers -/

section Planning

variable {preparationPolicy : PreparationTimingPolicy} {confirmations : Nat}
  {stageLayers : List Nat} {maxDelayBlocks : Nat} {draws : PreparationDraws maxDelayBlocks}

theorem mem_stagesOfLayer {layerIndex stageIndex : Nat} :
  stageIndex ∈ stagesOfLayer stageLayers layerIndex ↔ stageLayers[stageIndex]? = some layerIndex
  := by
  rw [stagesOfLayer, List.mem_filter, List.mem_range, decide_eq_true_eq]
  constructor
  · apply And.right
  · intro h
    exact ⟨(List.getElem?_eq_some_iff.mp h).1, h⟩

theorem scheduleStage_eq_ok {acc acc' : Nat × List Nat} {stageIndex : Nat}
    (hacc : acc.1 < u32Size) :
  scheduleStage preparationPolicy draws acc stageIndex = .ok acc'
    ↔ acc.1 + spacing preparationPolicy draws stageIndex < u32Size
      ∧ acc' = (acc.1 + spacing preparationPolicy draws stageIndex,
        acc.2.set stageIndex (acc.1 + spacing preparationPolicy draws stageIndex))
  := by
  by_cases hspaced : preparationPolicy = .zip318Spaced
  · simp only [scheduleStage, spacing, if_pos hspaced, bind_eq_ok, pure_eq_ok, okOr_eq_ok,
      checkedAdd32]
    constructor
    · rintro ⟨height, hheight, rfl⟩
      split at hheight
      · rename_i hlt
        cases hheight
        exact ⟨hlt, rfl⟩
      · cases hheight
    · rintro ⟨hlt, rfl⟩
      exact ⟨_, if_pos hlt, rfl⟩
  · simp only [scheduleStage, spacing, if_neg hspaced, bind_eq_ok, pure_eq_ok, Nat.add_zero]
    constructor
    · rintro ⟨height, hheight, rfl⟩
      cases hheight
      exact ⟨hacc, rfl⟩
    · rintro ⟨-, rfl⟩
      exact ⟨_, rfl, rfl⟩

/-- The blocks between the first and the last of some stages. -/
def totalSpacing (preparationPolicy : PreparationTimingPolicy)
    (draws : PreparationDraws maxDelayBlocks) (stageIndices : List Nat) : Nat :=
  (stageIndices.map (spacing preparationPolicy draws)).sum

/-- The stages of a list are scheduled one after the other, and no other stages. -/
theorem foldlM_scheduleStage {stageIndices : List Nat} {acc : Nat × List Nat}
    (hacc : acc.1 < u32Size) (hbound : ∀ i ∈ stageIndices, i < acc.2.length) :
  if acc.1 + totalSpacing preparationPolicy draws stageIndices < u32Size then
    ∃ heights, stageIndices.foldlM (scheduleStage preparationPolicy draws) acc
        = .ok (acc.1 + totalSpacing preparationPolicy draws stageIndices, heights)
      ∧ heights.length = acc.2.length
      ∧ (∀ i ∈ stageIndices, ∃ height : Nat, heights[i]? = some height ∧ acc.1 ≤ height
        ∧ height ≤ acc.1 + totalSpacing preparationPolicy draws stageIndices)
      ∧ ∀ i : Nat, i ∉ stageIndices → heights[i]? = acc.2[i]?
  else ∀ result, stageIndices.foldlM (scheduleStage preparationPolicy draws) acc ≠ .ok result
  := by
  induction stageIndices generalizing acc with
  | nil =>
    rw [if_pos (by simpa [totalSpacing] using hacc)]
    exact ⟨acc.2, rfl, rfl, by simp, fun _ _ => rfl⟩
  | cons i stageIndices ih =>
    rw [List.forall_mem_cons] at hbound
    have htotal : totalSpacing preparationPolicy draws (i :: stageIndices)
        = spacing preparationPolicy draws i + totalSpacing preparationPolicy draws stageIndices :=
      List.sum_cons
    by_cases hlt : acc.1 + spacing preparationPolicy draws i < u32Size
    · have hstep : scheduleStage preparationPolicy draws acc i = .ok _ :=
        (scheduleStage_eq_ok hacc).mpr ⟨hlt, rfl⟩
      have hrest := @ih (acc.1 + spacing preparationPolicy draws i,
        acc.2.set i (acc.1 + spacing preparationPolicy draws i)) hlt (by simpa using hbound.2)
      dsimp only at hrest
      rw [Nat.add_assoc, ← htotal] at hrest
      split at hrest
      · rename_i hfits
        rw [if_pos hfits]
        obtain ⟨heights, hfold, hlen, hin, hout⟩ := hrest
        refine ⟨heights, ?_, by simpa using hlen, ?_, ?_⟩
        · rw [List.foldlM_cons, hstep]
          apply hfold
        · intro j hj
          by_cases hmem : j ∈ stageIndices
          · obtain ⟨height, hget, hlow, hhigh⟩ := hin j hmem
            exact ⟨height, hget, by omega, hhigh⟩
          · obtain rfl : j = i := (List.mem_cons.mp hj).resolve_right hmem
            refine ⟨_, (hout j hmem).trans (List.getElem?_set_self hbound.1), by omega, ?_⟩
            rw [htotal]
            omega
        · intro j hj
          rw [List.mem_cons, not_or] at hj
          rw [hout j hj.2, List.getElem?_set_ne (Ne.symm hj.1)]
      · rename_i hfits
        rw [if_neg hfits]
        intro result
        rw [List.foldlM_cons, hstep]
        apply hrest result
    · rw [if_neg (by omega)]
      intro result
      rw [List.foldlM_cons, Ne, bind_eq_ok]
      rintro ⟨next, hnext, -⟩
      apply hlt ((scheduleStage_eq_ok hacc).mp hnext).1

/-- The stages of a layer get heights from its base on, and no other stages. -/
theorem scheduleLayer_spec {acc : Nat × List Nat} (hacc : acc.1 < u32Size)
    (hlen : acc.2.length = stageLayers.length) (layerIndex : Nat) :
  let lastHeight := acc.1 + totalSpacing preparationPolicy draws
    (stagesOfLayer stageLayers layerIndex)
  if stagesOfLayer stageLayers layerIndex ≠ [] ∧ lastHeight + confirmations < u32Size then
    ∃ heights, scheduleLayer preparationPolicy confirmations stageLayers draws acc layerIndex
        = .ok (lastHeight + confirmations, heights)
      ∧ heights.length = stageLayers.length
      ∧ (∀ i : Nat, stageLayers[i]? = some layerIndex →
        ∃ height : Nat, heights[i]? = some height ∧ acc.1 ≤ height ∧ height ≤ lastHeight)
      ∧ ∀ i : Nat, stageLayers[i]? ≠ some layerIndex → heights[i]? = acc.2[i]?
  else ∀ result,
    scheduleLayer preparationPolicy confirmations stageLayers draws acc layerIndex ≠ .ok result
  := by
  have hperm : (if preparationPolicy = .zip318Spaced then
        draws.shuffled layerIndex (stagesOfLayer stageLayers layerIndex)
      else stagesOfLayer stageLayers layerIndex).Perm (stagesOfLayer stageLayers layerIndex) := by
    split
    · apply draws.shuffled_perm _ _
    · apply List.Perm.refl _
  dsimp only
  simp only [scheduleLayer]
  generalize (if preparationPolicy = .zip318Spaced then
      draws.shuffled layerIndex (stagesOfLayer stageLayers layerIndex)
    else stagesOfLayer stageLayers layerIndex) = stageIndices at hperm ⊢
  have htotal : totalSpacing preparationPolicy draws stageIndices
      = totalSpacing preparationPolicy draws (stagesOfLayer stageLayers layerIndex) :=
    (hperm.map _).sum_eq
  have hmem : ∀ i, i ∈ stageIndices ↔ stageLayers[i]? = some layerIndex := by
    intro i
    rw [hperm.mem_iff, mem_stagesOfLayer]
  have hstages : if acc.1 + totalSpacing preparationPolicy draws stageIndices < u32Size then _
      else _ := foldlM_scheduleStage hacc (by
    intro i hi
    rw [hlen]
    apply (List.getElem?_eq_some_iff.mp ((hmem i).mp hi)).1)
  rw [htotal] at hstages
  split
  · rename_i hfits
    rw [if_pos (by omega)] at hstages
    obtain ⟨heights, hfold, hlen', hin, hout⟩ := hstages
    refine ⟨heights, ?_, hlen'.trans hlen, ?_, ?_⟩
    · rw [bind_eq_ok]
      refine ⟨(), ensure_eq_ok.mpr hfits.1, ?_⟩
      rw [hfold, bind_eq_ok]
      refine ⟨_, rfl, ?_⟩
      rw [bind_eq_ok]
      exact ⟨_, okOr_eq_ok.mpr (if_pos hfits.2), rfl⟩
    · intro i hi
      apply hin i ((hmem i).mpr hi)
    · intro i hi
      apply hout i (fun h => hi ((hmem i).mp h))
  · rename_i hfits
    intro result h
    obtain ⟨_, hnonempty, h⟩ := bind_eq_ok.mp h
    obtain ⟨planned, hfold, h⟩ := bind_eq_ok.mp h
    split at hstages
    · obtain ⟨heights, hfold', -⟩ := hstages
      rw [hfold] at hfold'
      cases hfold'
      simp only [bind_eq_ok, okOr_eq_ok, checkedAdd32] at h
      obtain ⟨layerBase, hbase, -⟩ := h
      split at hbase
      · rename_i hlt
        apply hfits ⟨ensure_eq_ok.mp hnonempty, hlt⟩
      · cases hbase
    · apply hstages planned hfold

/-- The blocks that some layers take. -/
def totalLayers (preparationPolicy : PreparationTimingPolicy) (confirmations : Nat)
    (stageLayers : List Nat) (draws : PreparationDraws maxDelayBlocks) (layers : List Nat) : Nat :=
  (layers.map fun layerIndex => totalSpacing preparationPolicy draws
    (stagesOfLayer stageLayers layerIndex) + confirmations).sum

/-- The stages of some layers have heights from the base on, and a layer comes the required
confirmations after the layers before it. -/
structure LayersPlanned (confirmations : Nat) (stageLayers layers : List Nat) (base : Nat)
    (heights : List Nat) : Prop where
  length : heights.length = stageLayers.length
  base : ∀ i k : Nat, stageLayers[i]? = some k → k ∈ layers →
    ∃ height : Nat, heights[i]? = some height ∧ base ≤ height
  layered : ∀ i j k l : Nat, stageLayers[i]? = some k → stageLayers[j]? = some l → k ∈ layers →
    l ∈ layers → k < l → ∀ height height' : Nat, heights[i]? = some height →
    heights[j]? = some height' → height + confirmations ≤ height'

/-- Layers are scheduled one after the other. -/
theorem foldlM_scheduleLayer {layers : List Nat} (hsorted : layers.Pairwise (· < ·))
    {acc : Nat × List Nat} (hacc : acc.1 < u32Size) (hlen : acc.2.length = stageLayers.length) :
  if (∀ k ∈ layers, stagesOfLayer stageLayers k ≠ [])
      ∧ acc.1 + totalLayers preparationPolicy confirmations stageLayers draws layers < u32Size then
    ∃ planned, layers.foldlM (scheduleLayer preparationPolicy confirmations stageLayers draws) acc
        = .ok planned
      ∧ LayersPlanned confirmations stageLayers layers acc.1 planned.2
      ∧ ∀ i : Nat, (∀ k ∈ layers, stageLayers[i]? ≠ some k) → planned.2[i]? = acc.2[i]?
  else ∀ planned,
    layers.foldlM (scheduleLayer preparationPolicy confirmations stageLayers draws) acc
      ≠ .ok planned
  := by
  induction layers generalizing acc with
  | nil =>
    rw [if_pos ⟨by simp, by simpa [totalLayers] using hacc⟩]
    exact ⟨acc, rfl, ⟨hlen, by simp, by simp⟩, fun _ _ => rfl⟩
  | cons k layers ih =>
    have htotal : totalLayers preparationPolicy confirmations stageLayers draws (k :: layers)
        = totalSpacing preparationPolicy draws (stagesOfLayer stageLayers k) + confirmations
          + totalLayers preparationPolicy confirmations stageLayers draws layers := List.sum_cons
    rw [List.pairwise_cons] at hsorted
    have hlayer := @scheduleLayer_spec preparationPolicy confirmations stageLayers maxDelayBlocks
      draws acc hacc hlen k
    dsimp only at hlayer
    split at hlayer
    · rename_i hfits
      obtain ⟨heights, hstep, hlen', hin, hout⟩ := hlayer
      have hrest := @ih hsorted.2 (_, heights) hfits.2 hlen'
      dsimp only at hrest
      split at hrest
      · rename_i hfits'
        rw [if_pos ⟨by
          rw [List.forall_mem_cons]
          exact ⟨hfits.1, hfits'.1⟩, by omega⟩]
        obtain ⟨planned, hfold, hplanned, hother⟩ := hrest
        have hfirst : ∀ i : Nat, stageLayers[i]? = some k → planned.2[i]? = heights[i]? := by
          intro i hi
          apply hother
          intro l hl heq
          rw [hi] at heq
          cases heq
          exact absurd (hsorted.1 _ hl) (Nat.lt_irrefl _)
        refine ⟨planned, ?_, ⟨hplanned.length, ?_, ?_⟩, ?_⟩
        · rw [List.foldlM_cons, hstep]
          apply hfold
        · intro i l hi hl
          rcases List.mem_cons.mp hl with rfl | hl
          · obtain ⟨height, hget, hlow, -⟩ := hin i hi
            exact ⟨height, (hfirst i hi).trans hget, hlow⟩
          · obtain ⟨height, hget, hlow⟩ := hplanned.base i l hi hl
            exact ⟨height, hget, by omega⟩
        · intro i j l m hi hj hl hm hlm height height' hheight hheight'
          rcases List.mem_cons.mp hm with rfl | hm'
          · rcases List.mem_cons.mp hl with rfl | hl
            · exact absurd hlm (Nat.lt_irrefl _)
            · exact absurd (hsorted.1 _ hl) (by omega)
          · rcases List.mem_cons.mp hl with rfl | hl'
            · obtain ⟨first, hget, -, hhigh⟩ := hin i hi
              obtain ⟨later, hget', hlow'⟩ := hplanned.base j m hj hm'
              rw [hfirst i hi, hget] at hheight
              rw [hget'] at hheight'
              cases hheight
              cases hheight'
              omega
            · apply hplanned.layered i j l m hi hj hl' hm' hlm height height' hheight hheight'
        · intro i hi
          rw [List.forall_mem_cons] at hi
          rw [hother i hi.2, hout i hi.1]
      · rename_i hfits'
        rw [if_neg (by
          rw [List.forall_mem_cons]
          rintro ⟨⟨-, hnonempty⟩, hlt⟩
          apply hfits' ⟨hnonempty, by omega⟩)]
        intro planned
        rw [List.foldlM_cons, hstep]
        apply hrest planned
    · rename_i hfits
      rw [if_neg (by
        rw [List.forall_mem_cons]
        rintro ⟨⟨hnonempty, -⟩, hlt⟩
        apply hfits ⟨hnonempty, by omega⟩)]
      intro planned
      rw [List.foldlM_cons, Ne, bind_eq_ok]
      rintro ⟨next, hnext, -⟩
      apply hlayer next hnext

end Planning

/-- The first height from which stages are scheduled, and the blocks that their layers take,
fit a height, and there is no layer without stages. -/
def Schedulable (preparationPolicy : PreparationTimingPolicy) (targetHeight confirmations : Nat)
    (stageLayers : List Nat) {maxDelayBlocks : Nat} (draws : PreparationDraws maxDelayBlocks) :
    Prop :=
  ∀ lastLayer, stageLayers.max? = some lastLayer →
    (∀ k ≤ lastLayer, k ∈ stageLayers)
    ∧ targetHeight - 1 + totalLayers preparationPolicy confirmations stageLayers draws
      (List.range (lastLayer + 1)) < u32Size

section Planning

variable {network : WalletNetwork} {preparationPolicy : PreparationTimingPolicy}
  {timingPolicy : MigrationTimingPolicy} {targetHeight confirmations : Nat}
  {stageLayers : List Nat}
  {draws : PreparationDraws (preparationScheduleParametersForTransactionCount network
    timingPolicy stageLayers.length).2}

/-- Stages are scheduled when there are no gaps between their layers, unless heights overflow.
Each layer comes the required confirmations after the layer before it. -/
theorem plannedPreparationScheduledHeights_spec (htarget : targetHeight < u32Size) :
  ((∃ heights, plannedPreparationScheduledHeights network preparationPolicy timingPolicy
        targetHeight confirmations stageLayers draws = .ok heights)
      ↔ Schedulable preparationPolicy targetHeight confirmations stageLayers draws)
  ∧ ∀ heights, plannedPreparationScheduledHeights network preparationPolicy timingPolicy
      targetHeight confirmations stageLayers draws = .ok heights →
    heights.length = stageLayers.length
    ∧ ∀ i j k height height' : Nat, stageLayers[i]? = some k → stageLayers[j]? = some (k + 1) →
      heights[i]? = some height → heights[j]? = some height' → height + confirmations ≤ height'
  := by
  rw [plannedPreparationScheduledHeights, Schedulable]
  cases hmax : stageLayers.max? with
  | none =>
    obtain rfl := List.max?_eq_none_iff.mp hmax
    refine ⟨⟨nofun, fun _ => ⟨[], rfl⟩⟩, ?_⟩
    rintro _ ⟨⟩
    exact ⟨rfl, by simp⟩
  | some lastLayer =>
    have hlayers : (∀ k ∈ List.range (lastLayer + 1), stagesOfLayer stageLayers k ≠ [])
        ↔ ∀ k ≤ lastLayer, k ∈ stageLayers := by
      apply forall_congr'
      intro k
      have hnonempty : stagesOfLayer stageLayers k ≠ [] ↔ k ∈ stageLayers := by
        rw [List.mem_iff_getElem?]
        constructor
        · intro hne
          obtain ⟨i, hi⟩ := List.exists_mem_of_ne_nil _ hne
          exact ⟨i, mem_stagesOfLayer.mp hi⟩
        · rintro ⟨i, hi⟩
          apply List.ne_nil_of_mem (mem_stagesOfLayer.mpr hi)
      rw [List.mem_range, Nat.lt_succ_iff, hnonempty]
    have hfold := @foldlM_scheduleLayer preparationPolicy confirmations stageLayers _ draws
      (List.range (lastLayer + 1)) List.pairwise_lt_range
      (targetHeight - 1, List.replicate stageLayers.length 0) (by dsimp only; omega) (by simp)
    simp only [hlayers] at hfold
    simp only [Option.some.injEq, forall_eq', bind_eq_ok, pure_eq_ok]
    split at hfold
    · rename_i hfits
      obtain ⟨planned, hplanned, hspec, -⟩ := hfold
      rw [hplanned]
      refine ⟨⟨fun _ => hfits, fun _ => ⟨_, planned, rfl, rfl⟩⟩, ?_⟩
      rintro heights ⟨_, ⟨⟩, rfl⟩
      refine ⟨hspec.length, ?_⟩
      intro i j k height height' hi hj hheight hheight'
      have hle : k + 1 ≤ lastLayer := by
        obtain ⟨-, hle⟩ := List.max?_eq_some_iff.mp hmax
        apply hle _ (List.mem_of_getElem? hj)
      apply hspec.layered i j k (k + 1) hi hj _ _ (Nat.lt_succ_self k) height height' hheight
        hheight'
      · rw [List.mem_range]
        omega
      · rw [List.mem_range]
        omega
    · rename_i hfits
      refine ⟨⟨?_, fun h => absurd h hfits⟩, ?_⟩
      · rintro ⟨heights, planned, hplanned, -⟩
        exact absurd hplanned (hfold planned)
      · rintro heights ⟨planned, hplanned, -⟩
        exact absurd hplanned (hfold planned)

end Planning

/-! ### New heights -/

namespace Store

variable {s s' : Store} {r : RunId} {delays : Nat → Nat}

/-- Whether a stage of the run was not submitted. -/
def Remaining (r : RunId) (stage : DenominationStage) : Prop :=
  stage.runId = r ∧ stage.state.unsubmitted = true

instance (r : RunId) (stage : DenominationStage) : Decidable (Remaining r stage) :=
  inferInstanceAs (Decidable (_ ∧ _))

/-- The order in which stages get new heights. -/
def Before (a b : DenominationStage) : Prop :=
  effectiveBroadcastHeight a < effectiveBroadcastHeight b
    ∨ effectiveBroadcastHeight a = effectiveBroadcastHeight b ∧ a.stageIndex ≤ b.stageIndex

instance (a b : DenominationStage) : Decidable (Before a b) :=
  inferInstanceAs (Decidable (_ ∨ _))

instance : IsTrans DenominationStage Before where
  trans a b c hab hbc := by
    simp only [Before] at *
    omega

instance : Std.Total Before where
  total a b := by
    simp only [Before]
    omega

theorem Before.antisymm {a b : DenominationStage} (hab : Before a b) (hba : Before b a) :
  a.stageIndex = b.stageIndex
  := by
  simp only [Before] at hab hba
  omega

/-- A stage with a new height, if it is one of those that get one. -/
def rescheduled (r : RunId) (heights : Nat → Nat) (stageIndices : List Nat)
    (stage : DenominationStage) : DenominationStage :=
  if Remaining r stage ∧ stage.stageIndex ∈ stageIndices then
    { stage with broadcastNotBeforeHeight := some (heights stage.stageIndex) }
  else stage

/-- The stages get heights one after the other, from their own effective heights on. -/
theorem foldlM_delayStage {stages : List DenominationStage} {preceding last : Nat}
    (hnodup : (stages.map (·.stageIndex)).Nodup)
    (h : stages.foldlM (delayStage r delays) (s, preceding) = .ok (s', last)) :
  ∃ heights : Nat → Nat,
    s' = { s with stages := s.stages.map (rescheduled r heights (stages.map (·.stageIndex))) }
    ∧ (∀ stage ∈ stages, preceding ≤ heights stage.stageIndex
      ∧ effectiveBroadcastHeight stage ≤ heights stage.stageIndex)
    ∧ stages.Pairwise fun a b => heights a.stageIndex ≤ heights b.stageIndex
  := by
  induction stages generalizing s preceding with
  | nil =>
    cases h
    refine ⟨fun _ => 0, ?_, by simp, List.Pairwise.nil⟩
    have hid : rescheduled r (fun _ => 0) [] = id := by
      funext stage
      simp [rescheduled]
    simp [hid]
  | cons first stages ih =>
    rw [List.map_cons, List.nodup_cons] at hnodup
    rw [List.foldlM_cons, bind_eq_ok] at h
    obtain ⟨_, hstep, hrest⟩ := h
    simp only [delayStage, bind_eq_ok, pure_eq_ok, okOr_eq_ok, checkedAdd32] at hstep
    obtain ⟨randomizedHeight, hrandomized, rfl⟩ := hstep
    split at hrandomized
    · cases hrandomized
      obtain ⟨heights, hstages, hlow, hpairwise⟩ := ih hnodup.2 hrest
      set height := max (preceding + delays first.stageIndex) (effectiveBroadcastHeight first)
        with hheight
      have hfirst : ∀ stage ∈ stages, stage.stageIndex ≠ first.stageIndex := by
        intro stage hstage heq
        apply hnodup.1 (heq ▸ List.mem_map_of_mem hstage)
      refine ⟨Function.update heights first.stageIndex height, ?_, ?_, ?_⟩
      · rw [hstages, updateStages, updateWhere, List.map_map]
        congr 1
        apply List.map_congr_left
        intro stage _
        rw [Function.comp_apply]
        simp only [rescheduled, Remaining, List.map_cons, List.mem_cons, Bool.and_eq_true,
          decide_eq_true_eq]
        by_cases heq : stage.stageIndex = first.stageIndex
        · have hnot : stage.stageIndex ∉ stages.map (·.stageIndex) := heq ▸ hnodup.1
          by_cases hremaining : stage.runId = r ∧ stage.state.unsubmitted = true
          · simp [hremaining, heq, hnodup.1]
          · have hsel : ¬ ((stage.runId = r ∧ stage.stageIndex = first.stageIndex)
                ∧ stage.state.unsubmitted = true) := by
              tauto
            simp [hremaining, hsel]
        · simp [heq]
      · rw [List.forall_mem_cons]
        constructor
        · rw [Function.update_self]
          omega
        · intro stage hstage
          rw [Function.update_of_ne (hfirst stage hstage)]
          have := hlow stage hstage
          omega
      · rw [List.pairwise_cons]
        constructor
        · intro stage hstage
          rw [Function.update_self, Function.update_of_ne (hfirst stage hstage)]
          apply (hlow stage hstage).1
        · apply hpairwise.imp_of_mem
          intro a b ha hb hab
          rwa [Function.update_of_ne (hfirst a ha), Function.update_of_ne (hfirst b hb)]
    · cases hrandomized

/-- What new heights for the stages of a run change. -/
structure Rescheduling (r : RunId) (s : Store) (g : DenominationStage → DenominationStage) :
    Prop where
  frame : ∀ stage, g stage
    = { stage with broadcastNotBeforeHeight := (g stage).broadcastNotBeforeHeight }
  others : ∀ stage, ¬ Remaining r stage → g stage = stage
  later : ∀ stage ∈ s.stages, effectiveBroadcastHeight stage ≤ effectiveBroadcastHeight (g stage)
  ordered : ∀ a ∈ s.stages, ∀ b ∈ s.stages, Remaining r a → Remaining r b → Before a b →
    effectiveBroadcastHeight (g a) ≤ effectiveBroadcastHeight (g b)

theorem rescheduling_id : Rescheduling r s id
  := by
  refine ⟨fun _ => rfl, fun _ _ => rfl, fun _ _ => le_rfl, ?_⟩
  intro a _ b _ _ _ hab
  simp only [Before, id_eq] at *
  omega

theorem rerandomizeRemainingPreparationBroadcastHeights_rescheduling (hkeyed : s.StagesKeyed)
    {chainTipHeight : Nat}
    (h : s.rerandomizeRemainingPreparationBroadcastHeights r chainTipHeight delays = .ok s') :
  ∃ g, s' = { s with stages := s.stages.map g } ∧ Rescheduling r s g
  := by
  obtain ⟨run, -, h⟩ := bind_eq_ok.mp h
  split at h
  · obtain rfl := pure_eq_ok.mp h
    exact ⟨id, by simp, rescheduling_id⟩
  · obtain ⟨⟨_, last⟩, hloop, h⟩ := bind_eq_ok.mp h
    obtain rfl := pure_eq_ok.mp h
    set remaining := ((s.stagesOf r).filter (·.state.unsubmitted)).insertionSort Before
      with hremaining
    have hmem : ∀ stage, stage ∈ remaining ↔ stage ∈ s.stages ∧ Remaining r stage := by
      intro stage
      rw [hremaining, List.mem_insertionSort, List.mem_filter, stagesOf, List.mem_filter,
        decide_eq_true_eq, and_assoc, Remaining]
    have hsorted : remaining.Pairwise Before := List.pairwise_insertionSort _ _
    have hindexes : (remaining.map (·.stageIndex)).Nodup := by
      have hperm := List.perm_insertionSort Before ((s.stagesOf r).filter (·.state.unsubmitted))
      have hnodup : remaining.Nodup := by
        rw [hperm.nodup_iff]
        apply ((List.Nodup.of_map _ hkeyed.stages).filter _).filter _
      apply hnodup.map_on
      intro a ha b hb heq
      rw [hmem] at ha hb
      apply hkeyed.eq hb.1 ha.1 (Prod.ext (ha.2.1.trans hb.2.1.symm) heq)
    obtain ⟨heights, rfl, hlow, hpairwise⟩ := foldlM_delayStage hindexes hloop
    have hheight : ∀ stage ∈ s.stages, Remaining r stage → effectiveBroadcastHeight
        (rescheduled r heights (remaining.map (·.stageIndex)) stage) = heights stage.stageIndex := by
      intro stage hstage hrem
      have hin := (hmem stage).mpr ⟨hstage, hrem⟩
      rw [rescheduled, if_pos ⟨hrem, List.mem_map_of_mem hin⟩]
      have hle := (hlow stage hin).2
      simp only [effectiveBroadcastHeight, Option.getD_some] at hle ⊢
      omega
    refine ⟨rescheduled r heights (remaining.map (·.stageIndex)), rfl, ⟨?_, ?_, ?_, ?_⟩⟩
    · intro stage
      rw [rescheduled]
      split <;> rfl
    · intro stage hstage
      rw [rescheduled, if_neg (fun h => hstage h.1)]
    · intro stage hstage
      by_cases hrem : Remaining r stage
      · rw [hheight stage hstage hrem]
        apply (hlow stage ((hmem stage).mpr ⟨hstage, hrem⟩)).2
      · rw [rescheduled, if_neg (fun h => hrem h.1)]
    · intro a ha b hb hra hrb hab
      rw [hheight a ha hra, hheight b hb hrb]
      have hflip : remaining.Pairwise (flip fun a b =>
          Before a b → heights a.stageIndex ≤ heights b.stageIndex) := by
        apply hsorted.imp
        intro a b hab hba
        rw [hab.antisymm hba]
      have hkept : remaining.Pairwise fun a b =>
          Before a b → heights a.stageIndex ≤ heights b.stageIndex := by
        apply hpairwise.imp
        intro a b hle _
        apply hle
      apply List.Pairwise.forall_of_forall_of_flip (fun _ _ _ => le_rfl) hkept hflip
        ((hmem a).mpr ⟨ha, hra⟩) ((hmem b).mpr ⟨hb, hrb⟩) hab

/-- Planned heights of a layer come the required confirmations after those of the layer
before it.  In every state that a sequence of statements reaches, new heights are later than
the old ones, for stages that were not submitted only, and those stay in their order. -/
theorem preparationHeights_ordered :
  (∀ network preparationPolicy timingPolicy, ∀ targetHeight < u32Size,
    ∀ confirmations stageLayers draws,
    ((∃ heights, plannedPreparationScheduledHeights network preparationPolicy timingPolicy
          targetHeight confirmations stageLayers draws = .ok heights)
        ↔ Schedulable preparationPolicy targetHeight confirmations stageLayers draws)
    ∧ ∀ heights, plannedPreparationScheduledHeights network preparationPolicy timingPolicy
        targetHeight confirmations stageLayers draws = .ok heights →
      heights.length = stageLayers.length
      ∧ ∀ i j k height height' : Nat, stageLayers[i]? = some k → stageLayers[j]? = some (k + 1) →
        heights[i]? = some height → heights[j]? = some height' →
        height + confirmations ≤ height')
  ∧ ∀ ops r chainTipHeight delays s',
      (after stageStep {} ops).rerandomizeRemainingPreparationBroadcastHeights r chainTipHeight
        delays = .ok s' →
      ∃ g, s' = { after stageStep {} ops with stages := (after stageStep {} ops).stages.map g }
        ∧ Rescheduling r (after stageStep {} ops) g
  := by
  constructor
  · intro network preparationPolicy timingPolicy targetHeight htarget confirmations stageLayers
      draws
    apply plannedPreparationScheduledHeights_spec htarget
  · intro ops r chainTipHeight delays s' h
    apply rerandomizeRemainingPreparationBroadcastHeights_rescheduling
      (stagesKeyed_after stagesKeyed_empty) h

/-! ### Layers whose heights meet -/

/-- A stage with one input and one output. -/
def layeredStage (stageIndex scheduledHeight : Nat) (status : DenominationStageStatus)
    (rawTx : Option Bytes) : DenominationStageInsert where
  stageIndex := stageIndex
  basePczt := [1]
  sigs := []
  rawTx := rawTx
  expectedTxid := stageIndex
  targetHeight := 101
  scheduledHeight := scheduledHeight
  expiryHeight := 69120
  feeZatoshi := 10
  status := status
  inputs := [⟨10 + stageIndex, 0, 200, 2, none⟩]
  outputs := [⟨0, 100, 2, .migration, some stageIndex⟩]

/-- A run with spaced stages. -/
def layeredRun : NewRun where
  runId := 1
  now := 0
  fastTestnetEnabled := false
  accountUuid := 1
  network := .main
  targetValues := [100, 100]
  preparationTimingPolicy := .zip318Spaced

/-- The run has two stages, and the second waits for the first. -/
def layeredStages : List StageOp := [
  .insertDenominationStages 1
    [layeredStage 0 100 .pending (some [1]), layeredStage 1 103 .awaitingInputs none],
  .others { runs := [layeredRun.row .waitingDenomConfirmations []] }]

/-- Draws without delays. -/
def noDelays (maxDelayBlocks : Nat) : PreparationDraws maxDelayBlocks where
  shuffled _ stageIndices := stageIndices
  shuffled_perm _ _ := List.Perm.refl _
  delays _ := 0
  delays_le _ := Nat.zero_le _

/-- The two stages are planned, and get new heights. -/
theorem preparationHeights_ordered_layered :
  (∃ heights, plannedPreparationScheduledHeights .main .zip318Spaced .standard 101 3 [0, 1]
      (noDelays _) = .ok heights)
    ∧ ∃ s' g, (after stageStep {} layeredStages).rerandomizeRemainingPreparationBroadcastHeights 1
        200 (fun _ => 0) = .ok s'
      ∧ s' = { after stageStep {} layeredStages with
        stages := (after stageStep {} layeredStages).stages.map g }
      ∧ Rescheduling 1 (after stageStep {} layeredStages) g
  := by
  have hplanned := (preparationHeights_ordered.1 .main .zip318Spaced .standard 101 (by decide) 3
    [0, 1] (noDelays _)).1.mpr (by
      rintro lastLayer ⟨⟩
      decide)
  obtain ⟨g, hg, hspec⟩ := preparationHeights_ordered.2 layeredStages 1 200 (fun _ => 0) _ rfl
  exact ⟨hplanned, _, g, rfl, hg, hspec⟩

/-- The planned heights of the two layers are apart, and the new ones after a tip that is above
them are not. -/
theorem preparationHeights_meet :
  plannedPreparationScheduledHeights .main .zip318Spaced .standard 101 3 [0, 1] (noDelays _)
      = .ok [100, 103]
    ∧ (after stageStep {} layeredStages).stages.map effectiveBroadcastHeight = [100, 103]
    ∧ ((after stageStep {} layeredStages).rerandomizeRemainingPreparationBroadcastHeights 1 200
        fun _ => 0).map (fun s => s.stages.map effectiveBroadcastHeight) = .ok [200, 200]
    ∧ ¬ 200 + 3 ≤ 200
  := by
  refine ⟨rfl, rfl, rfl, by decide⟩

end Store

end Vizor
