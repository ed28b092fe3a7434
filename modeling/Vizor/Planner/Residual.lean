import Vizor.Planner.SplitCost
import Vizor.Planner.Meets

/-!
# The residual change of a plan

A plan returns as change the feeders that it leaves unspent.  A balanced split leaves at most
its own leftover, the greedy merges the feeders that are left until at most one of them is
worth a transaction, and the fallback splits one note.
-/

namespace Vizor.Planner

open Layered

variable {S : NoteSort} {fee l t : Nat} {layers layers' : List (List PrepTransaction)}
  {live pool leftover leftover' : List PrepInput} {round round' : Round} {sizes : List Nat}

/-! ### Positive feeders -/

/-- Every feeder of the transactions is worth something. -/
def PositiveFeeders (txs : List PrepTransaction) : Prop :=
  ∀ tx ∈ txs, ∀ value, .intermediate value ∈ tx.outputs → 0 < value.value

theorem positiveFeeders_append {txs txs' : List PrepTransaction} :
  PositiveFeeders (txs ++ txs') ↔ PositiveFeeders txs ∧ PositiveFeeders txs'
  := List.forall_mem_append

theorem PositiveFeeders.unconsumed (h : PositiveFeeders layers.flatten) :
  ∀ i ∈ unconsumedFeeders layers, 0 < i.value.value
  := by
  intro i hi
  obtain ⟨l, t, o, value, ho, rfl⟩ := mem_allFeeders.mp (mem_unconsumedFeeders.mp hi).1
  obtain ⟨tx, hat, hout⟩ := Option.bind_eq_some_iff.mp ho
  apply h tx (mem_flatten_iff.mpr ⟨l, t, hat⟩) value (List.mem_of_getElem? hout)

private theorem consolidateBatches_positive {layer : Nat}
    (h : consolidateBatches layer fee sizes pool round leftover = .ok (leftover', round'))
    (hround : PositiveFeeders round.txs) :
  PositiveFeeders round'.txs
  := by
  induction sizes generalizing pool round leftover with
  | nil =>
    cases h
    apply hround
  | cons size sizes ih =>
    rw [consolidateBatches] at h
    split at h
    · apply ih h hround
    · rename_i hsum
      obtain ⟨feeder, hfeeder, h⟩ := Outcome.bind_eq_ok.mp h
      rw [zat_eq_ok] at hfeeder
      apply ih h
      rw [Round.consolidation, positiveFeeders_append]
      refine ⟨hround, ?_⟩
      intro tx htx value hvalue
      rw [List.mem_singleton.mp htx, List.mem_singleton] at hvalue
      cases hvalue
      omega

/-- Consolidations make feeders that are worth something. -/
theorem consolidate_positive {layer : Nat}
    (h : consolidate S pool layer fee round = .ok (leftover', round'))
    (hround : PositiveFeeders round.txs) :
  PositiveFeeders round'.txs
  := by
  rw [consolidate] at h
  split at h
  · cases h
    apply hround
  · apply consolidateBatches_positive h hround

theorem mintAssignments_positive {layer : Nat} {assignments : List Assignment}
    (h : mintAssignments layer assignments round = .ok round')
    (hround : PositiveFeeders round.txs) :
  PositiveFeeders round'.txs
  := by
  have hfunding : ∀ {values : List Zatoshis} {value : Zatoshis},
      PrepOutput.intermediate value ∉ values.map PrepOutput.funding := by
    intro values value hmem
    obtain ⟨v, -, hv⟩ := List.mem_map.mp hmem
    cases hv
  induction assignments generalizing round with
  | nil =>
    cases h
    apply hround
  | cons a assignments ih =>
    obtain ⟨input, assigned, rest⟩ := a
    rw [mintAssignments] at h
    obtain ⟨values, -, h⟩ := Outcome.bind_eq_ok.mp h
    split at h
    · rename_i hrest
      obtain ⟨value, hvalue, h⟩ := Outcome.bind_eq_ok.mp h
      rw [zat_eq_ok] at hvalue
      apply ih h
      rw [positiveFeeders_append]
      refine ⟨hround, ?_⟩
      intro tx htx v hv
      rw [List.mem_singleton.mp htx, List.mem_append, List.mem_singleton] at hv
      rcases hv with hv | hv
      · exact absurd hv hfunding
      · cases hv
        omega
    · apply ih h
      rw [positiveFeeders_append]
      refine ⟨hround, ?_⟩
      intro tx htx v hv
      rw [List.mem_singleton.mp htx] at hv
      exact absurd hv hfunding

/-- The greedy makes feeders that are worth something. -/
theorem greedyLoop_positive {fuel : Nat} {current : List PrepInput} {remaining : List Nat}
    (h : greedyLoop S fee fuel layers current remaining = .ok layers')
    (hlayers : PositiveFeeders layers.flatten) :
  PositiveFeeders layers'.flatten
  := by
  induction fuel generalizing layers current remaining with
  | zero => cases h
  | succ fuel ih =>
    rw [greedyLoop] at h
    split at h
    · cases h
      apply hlayers
    · split at h
      · cases h
      · generalize assignFunding fee (S.sort current) remaining = r at h
        obtain ⟨partials, consolidatable, remaining'⟩ := r
        obtain ⟨minting, hmint, h⟩ := Outcome.bind_eq_ok.mp h
        obtain ⟨⟨_, round⟩, hcons, h⟩ := Outcome.bind_eq_ok.mp h
        dsimp only at h
        split at h
        · cases h
        · apply ih h
          rw [List.flatten_append, List.flatten_singleton, positiveFeeders_append]
          refine ⟨hlayers, consolidate_positive hcons (mintAssignments_positive hmint ?_)⟩
          intro tx htx
          cases htx

/-! ### Dust -/

/-- The notes of a batch that is not worth more than the fee are each worth less. -/
theorem lt_of_batch {batch : List PrepInput} (hlength : 2 ≤ batch.length)
    (hfee : totalValue batch ≤ fee) (hpositive : ∀ i ∈ batch, 0 < i.value.value) :
  ∀ i ∈ batch, i.value.value < fee
  := by
  intro i hi
  have hperm := List.perm_cons_erase hi
  have htotal : totalValue batch = i.value.value + totalValue (batch.erase i) := by
    rw [totalValue, (hperm.map _).sum_eq]
    rfl
  obtain ⟨j, rest, hrest⟩ : ∃ j rest, batch.erase i = j :: rest := by
    apply List.exists_cons_of_ne_nil
    rw [← List.length_pos_iff, List.length_erase_of_mem hi]
    omega
  have hj : 0 < j.value.value := by
    apply hpositive
    apply List.mem_of_mem_erase
    rw [hrest]
    apply List.mem_cons_self
  have hcons : totalValue (j :: rest) = j.value.value + totalValue rest := rfl
  rw [hrest, hcons] at htotal
  omega

/-- Notes that make no batch that is worth more than the fee are each worth less. -/
private theorem consolidateBatches_dust {layer : Nat}
    (h : consolidateBatches layer fee sizes pool round leftover = .ok (leftover', round'))
    (hnone : round'.txs.length = round.txs.length) (hsum : sizes.sum = pool.length)
    (hsizes : ∀ size ∈ sizes, 2 ≤ size) (hpositive : ∀ i ∈ pool, 0 < i.value.value) :
  ∀ i ∈ pool, i.value.value < fee
  := by
  induction sizes generalizing pool round leftover with
  | nil =>
    rw [List.sum_nil, eq_comm, List.length_eq_zero_iff] at hsum
    rw [hsum]
    intro i hi
    cases hi
  | cons size sizes ih =>
    rw [List.forall_mem_cons] at hsizes
    rw [List.sum_cons] at hsum
    have hdrop : sizes.sum = (pool.drop size).length := by
      rw [List.length_drop]
      omega
    rw [consolidateBatches] at h
    split at h
    · rename_i hfee
      have hrest := ih h hnone hdrop hsizes.2 fun i hi => hpositive i (List.mem_of_mem_drop hi)
      have hlength : 2 ≤ (pool.take size).length := by
        rw [List.length_take]
        omega
      have htake := lt_of_batch hlength hfee fun i hi => hpositive i (List.mem_of_mem_take hi)
      intro i hi
      rw [← List.take_append_drop size pool, List.mem_append] at hi
      rcases hi with hi | hi
      · apply htake i hi
      · apply hrest i hi
    · obtain ⟨feeder, -, h⟩ := Outcome.bind_eq_ok.mp h
      obtain ⟨added, hadded, -, -⟩ := consolidateBatches_progress h hdrop hsizes.2
      rw [Round.consolidation, List.length_append, List.length_singleton] at hadded
      omega

/-- A pool that is not consolidated has notes worth less than the fee. -/
theorem consolidate_dust {layer : Nat}
    (h : consolidate S pool layer fee Round.empty = .ok (leftover', round'))
    (hnone : round'.txs = []) (hmany : 2 ≤ pool.length)
    (hpositive : ∀ i ∈ pool, 0 < i.value.value) :
  ∀ i ∈ pool, i.value.value < fee
  := by
  rw [consolidate, if_neg (by omega)] at h
  have hdust := consolidateBatches_dust h (by rw [hnone, Round.empty])
    (by rw [sum_consolidationBatchSizes (by omega), (S.perm pool).length_eq])
    (fun size hsize => (consolidationBatchSizes_bounds (by omega) hsize).1)
    (fun i hi => hpositive i ((S.perm pool).mem_iff.mp hi))
  intro i hi
  apply hdust i ((S.perm pool).mem_iff.mpr hi)

/-- At most one unspent feeder, or none that is worth the fee. -/
def OneResidual (fee : Nat) (layers : List (List PrepTransaction)) : Prop :=
  (unconsumedFeeders layers).length ≤ 1
    ∨ ∀ i ∈ unconsumedFeeders layers, i.value.value < fee

/-- The feeders that are left are merged until at most one of them is worth the fee. -/
theorem residualLoop_oneResidual {fuel : Nat}
    (h : residualLoop S fee fuel layers = .ok layers')
    (hpositive : PositiveFeeders layers.flatten) :
  OneResidual fee layers'
  := by
  induction fuel generalizing layers with
  | zero => cases h
  | succ fuel ih =>
    simp only [residualLoop] at h
    split at h
    · rename_i hone
      cases h
      exact .inl hone
    · rename_i hmany
      obtain ⟨⟨leftover, round⟩, hcons, h⟩ := Outcome.bind_eq_ok.mp h
      dsimp only at h
      split at h
      · rename_i hnone
        cases h
        rw [List.isEmpty_iff] at hnone
        exact .inr (consolidate_dust hcons hnone (by omega) hpositive.unconsumed)
      · apply ih h
        rw [List.flatten_append, List.flatten_singleton, positiveFeeders_append]
        refine ⟨hpositive, consolidate_positive hcons ?_⟩
        intro tx htx
        cases htx

/-! ### Balanced splits -/

/-- The output for a leftover is at most one feeder, and none when nothing is left. -/
theorem leftoverOutputs_feeders {n : Nat} {outputs : List PrepOutput} {k : Nat}
    (h : leftoverOutputs n = .ok outputs) :
  ((outputs.zipIdx k).filterMap (feeder? l t)).length ≤ 1
    ∧ (n = 0 → (outputs.zipIdx k).filterMap (feeder? l t) = [])
  := by
  rw [leftoverOutputs] at h
  split at h
  · obtain ⟨value, -, h⟩ := Outcome.bind_eq_ok.mp h
    cases h
    exact ⟨le_rfl, fun hzero => by omega⟩
  · cases h
    exact ⟨Nat.zero_le _, fun _ => rfl⟩

/-- The leftover of a source that is worth what is spent is zero. -/
theorem sub64_sub64_add {base spent fee : Nat} (hbase : base = (fee + spent) % u64Size) :
  sub64 (sub64 base fee) (spent % u64Size) = 0
  := by
  unfold sub64 u64Size at *
  omega

variable {fuel layer transaction : Nat} {targets costs : List Nat} {groups : List (List Nat)}
  {source : PrepInput} {sourceValue : Nat}

/-- The cost of a node is its fee and the costs of its children, up to overflow. -/
private theorem fold_costs {txs value txs' value' : Nat} (hvalue : value < u64Size)
    (h : groups.foldlM (fun (txs, value) group => do
        let (t, v) ← subtreeCost group fee
        pure (add64 txs t, add64 value v)) (txs, value) = .ok (txs', value'))
    (hcosts : (groups.mapM fun group => do
        let (_, v) ← subtreeCost group fee
        pure v) = .ok costs) :
  value' = (value + costs.sum) % u64Size
  := by
  induction groups generalizing txs value costs with
  | nil =>
    rw [List.mapM_nil] at hcosts
    cases h
    cases hcosts
    rw [List.sum_nil, Nat.add_zero, Nat.mod_eq_of_lt hvalue]
  | cons group groups ih =>
    rw [List.foldlM_cons] at h
    rw [List.mapM_cons] at hcosts
    obtain ⟨⟨txs₁, value₁⟩, hfirst, h⟩ := Outcome.bind_eq_ok.mp h
    obtain ⟨⟨t, v⟩, hcost, hfirst⟩ := Outcome.bind_eq_ok.mp hfirst
    obtain ⟨cost, hcost', hcosts⟩ := Outcome.bind_eq_ok.mp hcosts
    rw [hcost] at hcost'
    obtain ⟨rest, hrest, hcosts⟩ := Outcome.bind_eq_ok.mp hcosts
    cases hfirst
    cases hcost'
    cases hcosts
    have hlt : add64 value v < u64Size := Nat.mod_lt _ (by decide)
    rw [ih hlt h hrest, add64, List.sum_cons, Nat.mod_add_mod, Nat.add_assoc]

/-- What a balanced split leaves: it spends its source, and of the new feeders only its
leftover is not spent, and nothing when the source is worth what the split costs. -/
private def SplitCovers (fee fuel : Nat) : Prop :=
  ∀ ⦃source sourceValue targets layer layers layers' live⦄,
    buildSplitWith fuel source sourceValue targets fee layer layers = .ok layers' →
    Covers layers (source :: live) →
    ∃ rest : List PrepInput, rest.length ≤ 1 ∧
      ((∃ txs, subtreeCost targets fee = .ok (txs, sourceValue)) → rest = []) ∧
      Covers layers' (rest ++ live)

/-- The children of a node spend its outputs. -/
private theorem SplitCovers.children (ih : SplitCovers fee fuel) {values : List Zatoshis} {k : Nat}
    (h : ((groups.zip costs).zipIdx k).foldlM
        (fun layers ((group, cost), output) => do
          let value ← zat cost
          buildSplitWith fuel (.prior layer transaction output value) cost group fee (layer + 1)
            layers)
        layers = .ok layers')
    (hvalues : values.map Zatoshis.value = costs)
    (hcosts : (groups.mapM fun group => do
        let (_, v) ← subtreeCost group fee
        pure v) = .ok costs)
    (hc : Covers layers (childInputs layer transaction k values ++ live)) :
  Covers layers' live
  := by
  induction groups generalizing costs values k layers with
  | nil =>
    rw [List.mapM_nil] at hcosts
    cases hcosts
    cases h
    rw [List.map_eq_nil_iff] at hvalues
    subst hvalues
    apply hc
  | cons group groups ihg =>
    rw [List.mapM_cons] at hcosts
    obtain ⟨cost, hcost, hcosts⟩ := Outcome.bind_eq_ok.mp hcosts
    obtain ⟨rest, hrest, hcosts⟩ := Outcome.bind_eq_ok.mp hcosts
    cases hcosts
    obtain ⟨⟨txs, _⟩, hcost, hsame⟩ := Outcome.bind_eq_ok.mp hcost
    cases hsame
    obtain ⟨value, values, rfl⟩ : ∃ v vs, values = v :: vs := by
      cases values with
      | nil => cases hvalues
      | cons v vs => exact ⟨v, vs, rfl⟩
    rw [List.map_cons, List.cons.injEq] at hvalues
    obtain ⟨rfl, rfl⟩ := hvalues
    rw [List.zip_cons_cons, List.zipIdx_cons, List.foldlM_cons] at h
    obtain ⟨mid, hmid, h⟩ := Outcome.bind_eq_ok.mp h
    obtain ⟨value', hvalue', hmid⟩ := Outcome.bind_eq_ok.mp hmid
    rw [zat_value] at hvalue'
    cases hvalue'
    obtain ⟨none, -, hnone, hcovers⟩ := ih hmid hc
    rw [hnone ⟨txs, hcost⟩] at hcovers
    apply ihg h rfl hrest hcovers

private theorem splitCovers (hfee : fee ≤ maxMoney) (fuel : Nat) :
  SplitCovers fee fuel
  := by
  induction fuel with
  | zero =>
    intro source sourceValue targets layer layers layers' live h
    cases h
  | succ fuel ih =>
    intro source sourceValue targets layer layers layers' live h hc
    have hreach : Covers (reach layers layer) (source :: live) := hc.reach
    have hl : layer < (reach layers layer).length := length_reach layers layer
    simp only [buildSplitWith] at h
    split at h
    · rename_i hleaf
      obtain ⟨values, hvalues, h⟩ := Outcome.bind_eq_ok.mp h
      obtain ⟨rest, hrest, h⟩ := Outcome.bind_eq_ok.mp h
      cases h
      have hplaced := hreach.place ⟨[source], values.map .funding ++ rest⟩ hl
      have hfeeders : ∀ l t, feeders l t (values.map .funding ++ rest)
          = (rest.zipIdx values.length).filterMap (feeder? l t) := by
        intro l t
        rw [feeders, List.zipIdx_append, List.filterMap_append, List.length_map, Nat.zero_add,
          List.append_left_eq_self, List.filterMap_eq_nil_iff]
        rintro ⟨output, index⟩ hmem
        obtain ⟨value, -, rfl⟩ := List.mem_map.mp (List.fst_mem_of_mem_zipIdx hmem)
        rfl
      rw [hfeeders] at hplaced
      obtain ⟨hone, hzero⟩ := leftoverOutputs_feeders hrest
      refine ⟨_, hone, ?_, hplaced⟩
      rintro ⟨txs, hcost⟩
      apply hzero
      rw [subtreeCost, subtreeCostWith, if_pos hleaf] at hcost
      cases hcost
      rw [sum64]
      apply sub64_sub64_add
      rw [add64, Nat.mod_add_mod, Nat.add_comm]
    · rename_i hdepth
      obtain ⟨costs, hcosts, h⟩ := Outcome.bind_eq_ok.mp h
      obtain ⟨values, hvalues, h⟩ := Outcome.bind_eq_ok.mp h
      obtain ⟨rest, hrest, h⟩ := Outcome.bind_eq_ok.mp h
      rw [mapM_zat_eq_ok] at hvalues
      have hplaced := hreach.place ⟨[source], values.map .intermediate ++ rest⟩ hl
      rw [feeders_node, List.append_assoc] at hplaced
      obtain ⟨hone, hzero⟩ := leftoverOutputs_feeders hrest
      refine ⟨_, hone, ?_, ih.children h hvalues hcosts hplaced⟩
      rintro ⟨txs, hcost⟩
      apply hzero
      rw [subtreeCost_node (by omega)] at hcost
      have hlt : fee < u64Size := lt_of_le_of_lt hfee (by decide)
      rw [sum64]
      apply sub64_sub64_add
      apply fold_costs hlt hcost hcosts

/-- A balanced split leaves at most one of its feeders unspent. -/
theorem buildSplit_covers (hfee : fee ≤ maxMoney)
    (h : buildSplit source sourceValue targets fee layer layers = .ok layers')
    (hc : Covers layers (source :: live)) :
  ∃ rest : List PrepInput, rest.length ≤ 1 ∧ Covers layers' (rest ++ live)
  := by
  obtain ⟨rest, hone, -, hcovers⟩ := splitCovers hfee _ h hc
  exact ⟨rest, hone, hcovers⟩

/-! ### Change -/

/-- The change of the relabelled outputs of a transaction is that of its unspent feeders. -/
private theorem change_relabelOutput (spent : List OutputRef) {outputs : List PrepOutput} (k : Nat)
    (hchange : ∀ value, .change value ∉ outputs) :
  ((outputs.zipIdx k).map fun o => relabelOutput spent l t o.2 o.1).filterMap PrepOutput.change?
    = ((((outputs.zipIdx k).filterMap (feeder? l t)).filter fun feeder =>
        match feeder.priorRef? with
        | some ref => ref ∉ spent
        | none => false).map PrepInput.value)
  := by
  induction outputs generalizing k with
  | nil => rfl
  | cons output outputs ih =>
    have hrest := ih (k + 1) fun value hvalue => hchange value (List.mem_cons_of_mem _ hvalue)
    rw [List.zipIdx_cons, List.map_cons]
    cases output with
    | funding value =>
      rw [List.filterMap_cons_none rfl, List.filterMap_cons_none rfl, hrest]
    | change value => exact absurd List.mem_cons_self (hchange value)
    | intermediate value =>
      have hfeeder : feeder? l t (.intermediate value, k) = some (.prior l t k value) := rfl
      rw [List.filterMap_cons_some hfeeder, List.filter_cons]
      by_cases hspent : (l, t, k) ∈ spent
      · have hnone : (relabelOutput spent l t k (.intermediate value)).change? = none := by
          rw [relabelOutput, if_pos hspent]
          rfl
        rw [List.filterMap_cons_none hnone, if_neg (by simpa [PrepInput.priorRef?] using hspent),
          hrest]
      · have hsome : (relabelOutput spent l t k (.intermediate value)).change? = some value := by
          rw [relabelOutput, if_neg hspent]
          rfl
        rw [List.filterMap_cons_some hsome, if_pos (by simpa [PrepInput.priorRef?] using hspent),
          List.map_cons, hrest]
        rfl

/-- The change of a finished plan is worth what its unspent feeders are. -/
theorem mintedChange_relabelUnspent
    (hchange : ∀ tx ∈ layers.flatten, ∀ value, .change value ∉ tx.outputs) :
  mintedChange (relabelUnspent layers).flatten = (unconsumedFeeders layers).map PrepInput.value
  := by
  rw [unconsumedFeeders, allFeeders, List.filter_flatMap, List.map_flatMap, mintedChange,
    relabelUnspent, List.mapIdx_eq_zipIdx_map, ← List.flatMap_def, List.flatMap_assoc]
  apply List.flatMap_congr
  rintro ⟨txs, l⟩ htxs
  dsimp only
  rw [List.filter_flatMap, List.map_flatMap, List.mapIdx_eq_zipIdx_map, List.flatMap_map]
  apply List.flatMap_congr
  rintro ⟨tx, t⟩ htx
  dsimp only
  rw [List.mapIdx_eq_zipIdx_map]
  apply change_relabelOutput
  apply hchange
  rw [List.mem_flatten]
  exact ⟨txs, List.fst_mem_of_mem_zipIdx htxs, List.fst_mem_of_mem_zipIdx htx⟩

/-- At most one unspent feeder that is worth the fee. -/
theorem OneResidual.length_le (h : OneResidual fee layers)
    (hchange : ∀ tx ∈ layers.flatten, ∀ value, .change value ∉ tx.outputs) :
  ((mintedChange (relabelUnspent layers).flatten).filter fun v => fee ≤ v.value).length ≤ 1
  := by
  rw [mintedChange_relabelUnspent hchange]
  rcases h with hone | hdust
  · apply (List.length_filter_le _ _).trans
    rw [List.length_map]
    apply hone
  · rw [List.filter_eq_nil_iff.mpr]
    · apply Nat.zero_le _
    · intro v hv
      obtain ⟨i, hi, rfl⟩ := List.mem_map.mp hv
      have := hdust i hi
      rw [decide_eq_true_eq]
      omega

/-! ### Plans -/

variable {available funding : List Zatoshis} {feePerTx : Zatoshis} {plan : PreparationPlan}
  {direct : List (Nat × Zatoshis)}

/-- A plan without transactions has no unspent feeder. -/
theorem covers_nil :
  Covers [] []
  := by
  intro i hi
  obtain ⟨l, t, o, value, ho, -⟩ := mem_allFeeders.mp (mem_unconsumedFeeders.mp hi).1
  rw [outputAt?, at?, List.getElem?_nil] at ho
  cases ho

/-- The layers of the fast path leave at most one feeder, and those of the greedy are worth
something. -/
theorem mintingLayers_residual {notes : List (Nat × Nat)} {current : List PrepInput}
    {remaining : List Nat} {split : Option (List (List PrepTransaction))} (hfee : fee ≤ maxMoney)
    (hsplit : fanOut notes remaining fee = .ok split)
    (h : mintingLayers S fee current remaining split = .ok layers) :
  (unconsumedFeeders layers).length ≤ 1 ∨ PositiveFeeders layers.flatten
  := by
  cases split with
  | some layers₀ =>
    cases h
    left
    rw [fanOut] at hsplit
    split at hsplit
    · cases hsplit
    · rename_i index big hlargest
      obtain ⟨⟨_, cost⟩, -, hsplit⟩ := Outcome.bind_eq_ok.mp hsplit
      dsimp only at hsplit
      split at hsplit
      · obtain ⟨value, -, hsplit⟩ := Outcome.bind_eq_ok.mp hsplit
        obtain ⟨_, hbuild, hsplit⟩ := Outcome.bind_eq_ok.mp hsplit
        cases hsplit
        have hc : Covers [] [PrepInput.wallet index value] := by
          intro i hi
          cases covers_nil i hi
        obtain ⟨rest, hone, hcovers⟩ := buildSplit_covers hfee hbuild hc
        rw [List.append_nil] at hcovers
        apply hcovers.length_le.trans hone
      · cases hsplit
  | none =>
    right
    apply greedyLoop_positive h
    intro tx htx
    cases htx

/-- When at most one feeder is left, none is merged. -/
theorem residualLoop_of_one {fuel : Nat} (hone : (unconsumedFeeders layers).length ≤ 1)
    (h : residualLoop S fee fuel layers = .ok layers') :
  OneResidual fee layers'
  := by
  cases fuel with
  | zero => cases h
  | succ fuel =>
    rw [residualLoop] at h
    dsimp only at h
    rw [if_pos hone] at h
    cases h
    exact .inl hone

/-- A plan of the greedy has at most one change note that is worth the fee. -/
theorem planPreparationGreedy_change
    (h : planPreparationGreedy S available funding feePerTx = .ok plan) :
  ((mintedChange plan.layers.flatten).filter fun v => feePerTx.value ≤ v.value).length ≤ 1
  := by
  obtain ⟨used, used', direct, remaining, layers, hm, rfl, hlayers⟩ := planPreparationGreedy_eq_ok h
  rcases hlayers with ⟨rfl, rfl⟩ | ⟨split, current, minting, hsplit, hinputs, hminting, hresidual⟩
  · apply Nat.zero_le _
  · obtain ⟨hs, -⟩ := mintingLayers_sound feePerTx.le_maxMoney hm hsplit hinputs hminting
    obtain ⟨hs', -⟩ := residualLoop_sound hresidual hs
    apply OneResidual.length_le _ hs'.noChange
    rcases mintingLayers_residual feePerTx.le_maxMoney hsplit hminting with hone | hpositive
    · apply residualLoop_of_one hone hresidual
    · apply residualLoop_oneResidual hresidual hpositive

/-- The full consolidation leaves the feeders that it returns, which are at most one. -/
theorem consolidateAll_covers {fuel : Nat} {current current' : List PrepInput}
    (h : consolidateAll S fee fuel layers current = .ok (layers', current'))
    (hc : Covers layers current) :
  Covers layers' current' ∧ current'.length ≤ 1
  := by
  induction fuel generalizing layers current with
  | zero => cases h
  | succ fuel ih =>
    rw [consolidateAll] at h
    split at h
    · rename_i hone
      cases h
      exact ⟨hc, hone⟩
    · obtain ⟨⟨leftover, round⟩, hcons, h⟩ := Outcome.bind_eq_ok.mp h
      dsimp only at h
      split at h
      · cases h
      · apply ih h
        have hempty : Covers (layers ++ [Round.empty.txs]) (current ++ Round.empty.next) := by
          rw [Round.empty, List.append_nil]
          apply hc.append_nil
        intro i hi
        rw [List.mem_append, or_comm, ← List.mem_append]
        apply consolidate_covers hcons hempty i hi

/-- A plan of the fallback has at most one change note. -/
theorem planPreparationViaConsolidation_change
    (h : planPreparationViaConsolidation S available funding feePerTx = .ok plan) :
  ((mintedChange plan.layers.flatten).filter fun v => feePerTx.value ≤ v.value).length ≤ 1
  := by
  obtain ⟨used, used', direct, targets, layers, hm, rfl, hlayers⟩ :=
    planPreparationViaConsolidation_eq_ok h
  rcases hlayers with ⟨rfl, rfl⟩ | ⟨current, consolidated, current', source, hinputs, hall, hlast,
    hbuild⟩
  · apply Nat.zero_le _
  · obtain ⟨hs, hready⟩ := hm.sound List.filter_sublist hinputs
    obtain ⟨hs', hready', -⟩ := consolidateAll_sound hall hs hready
    have hcovers : Covers [] current := by
      intro i hi
      cases covers_nil i hi
    obtain ⟨hcovers', hone⟩ := consolidateAll_covers hall hcovers
    obtain ⟨before, rfl⟩ := List.getLast?_eq_some_iff.mp hlast
    obtain rfl : before = [] := by
      rw [List.length_append, List.length_singleton] at hone
      rw [← List.length_eq_zero_iff]
      omega
    rw [List.nil_append] at hs' hready' hcovers'
    obtain ⟨hs'', -⟩ := buildSplit_sound hbuild hs' feePerTx.le_maxMoney
      (hready' source (List.mem_singleton_self source)) rfl
    obtain ⟨rest, hrest, hcovers''⟩ := buildSplit_covers feePerTx.le_maxMoney hbuild hcovers'
    rw [List.append_nil] at hcovers''
    apply OneResidual.length_le _ hs''.noChange
    exact .inl (hcovers''.length_le.trans hrest)

/-- A plan has at most one change note that is worth the fee of a transaction. -/
theorem planPreparation_one_residual (S : NoteSort) (available funding : List Zatoshis)
    (feePerTx : Zatoshis) (plan : PreparationPlan)
    (h : planPreparation S available funding feePerTx = .ok plan) :
  ((mintedChange plan.layers.flatten).filter fun v => feePerTx.value ≤ v.value).length ≤ 1
  := by
  rcases planPreparation_eq_ok h with h | h
  · apply planPreparationGreedy_change h
  · apply planPreparationViaConsolidation_change h

/-- Of three notes of 100, one is used directly, and the others leave a note of 30. -/
def sampleResidual : PreparationPlan :=
  { layers := [
      [⟨[.wallet 1 ⟨100, by decide⟩, .wallet 2 ⟨100, by decide⟩],
        [.intermediate ⟨190, by decide⟩]⟩],
      [⟨[.prior 0 0 0 ⟨190, by decide⟩],
        [.funding ⟨150, by decide⟩, .change ⟨30, by decide⟩]⟩]]
    directFunding := [(0, ⟨100, by decide⟩)] }

theorem planPreparation_one_residual_three :
  mintedChange sampleResidual.layers.flatten = [⟨30, by decide⟩]
    ∧ ((mintedChange sampleResidual.layers.flatten).filter
      fun v => (⟨10, by decide⟩ : Zatoshis).value ≤ v.value).length ≤ 1
  := by
  constructor
  · rfl
  · apply planPreparation_one_residual .insertion (List.replicate 3 ⟨100, by decide⟩)
      [⟨100, by decide⟩, ⟨150, by decide⟩]
    rfl

end Vizor.Planner
