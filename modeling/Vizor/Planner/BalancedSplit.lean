import Vizor.Planner.Consolidate

/-!
# The balanced split

A single note is split into the funding notes `targets` through a tree whose nodes fan out
by at most `fundingOutputsPerTx`.  Only the root carries a leftover, as an intermediate
output.  The planner computes with wrapping 64-bit words here; every value it mints is
converted to an amount, and a wrapped value is not one, so that a split that succeeds
conserves value exactly.
-/

namespace Vizor.Planner

open Layered

/-! ### The source functions -/

/-- The most funding notes that a subtree of the given depth produces. -/
def subtreeCapacity (depth : Nat) : Nat := fundingOutputsPerTx ^ depth

/-- The first depth from `depth` on whose capacity is at least `n`. -/
def splitDepthFrom : (fuel depth n : Nat) → Nat
  | 0, depth, _ => depth
  | fuel + 1, depth, n =>
    if subtreeCapacity depth < n then splitDepthFrom fuel (depth + 1) n else depth

/-- The fewest layers that produce `n` funding notes from one source note. -/
def splitDepth (n : Nat) : Nat :=
  if n = 0 then 0 else splitDepthFrom n 1 n

/-- The sizes of `g` contiguous groups of `len` targets, as even as possible. -/
def evenGroupSizes (len g : Nat) : List Nat :=
  (List.range g).map fun i => len / g + if i < len % g then 1 else 0

/-- The contiguous groups of the given sizes. -/
def contiguousGroups : List Nat → List Nat → List (List Nat)
  | _, [] => []
  | targets, size :: sizes => targets.take size :: contiguousGroups (targets.drop size) sizes

/-- The number of child subtrees of a split of `len` targets. -/
def childCount (len : Nat) : Nat :=
  (len + (subtreeCapacity (splitDepth len - 1) - 1)) / subtreeCapacity (splitDepth len - 1)

/-- The targets of the child subtrees of a split. -/
def childGroups (targets : List Nat) : List (List Nat) :=
  contiguousGroups targets (evenGroupSizes targets.length (childCount targets.length))

/-- The cost of a split, in at most `fuel` levels. -/
def subtreeCostWith : (fuel : Nat) → List Nat → Nat → Outcome PrepError (Nat × Nat)
  | 0, _, _ => .error .outOfFuel
  | fuel + 1, targets, fee =>
    if splitDepth targets.length ≤ 1 then .ok (1, add64 (sum64 targets) fee)
    else
      (childGroups targets).foldlM (fun (txs, value) group => do
        let (t, v) ← subtreeCostWith fuel group fee
        pure (add64 txs t, add64 value v)) (1, fee)

/-- The number of transactions and the source value of a split into `targets`. -/
def subtreeCost (targets : List Nat) (fee : Nat) : Outcome PrepError (Nat × Nat) :=
  subtreeCostWith (targets.length + 1) targets fee

/-- The outputs for a leftover: one intermediate output, or none for a leftover of zero. -/
def leftoverOutputs (leftover : Nat) : Outcome PrepError (List PrepOutput) :=
  if 0 < leftover then do
    let value ← zat leftover
    pure [.intermediate value]
  else pure []

/-- A balanced split, in at most `fuel` levels. -/
def buildSplitWith : (fuel : Nat) → PrepInput → Nat → List Nat → Nat → Nat →
    List (List PrepTransaction) → Outcome PrepError (List (List PrepTransaction))
  | 0, _, _, _, _, _, _ => .error .outOfFuel
  | fuel + 1, source, sourceValue, targets, fee, layer, layers =>
    let layers := reach layers layer
    let transaction := size layers layer
    if splitDepth targets.length ≤ 1 then do
      let values ← targets.mapM zat
      let rest ← leftoverOutputs (sub64 (sub64 sourceValue fee) (sum64 targets))
      pure (place layers layer ⟨[source], values.map .funding ++ rest⟩)
    else do
      let costs ← (childGroups targets).mapM fun group => do
        let (_, value) ← subtreeCost group fee
        pure value
      let values ← costs.mapM zat
      let rest ← leftoverOutputs (sub64 (sub64 sourceValue fee) (sum64 costs))
      let layers := place layers layer ⟨[source], values.map .intermediate ++ rest⟩
      ((childGroups targets).zip costs).zipIdx.foldlM
        (fun layers ((group, cost), output) => do
          let value ← zat cost
          buildSplitWith fuel (.prior layer transaction output value) cost group fee (layer + 1)
            layers)
        layers

/-- A balanced split of `source`, which is worth `sourceValue`, into the funding notes
`targets`, with its root in `layer`. -/
def buildSplit (source : PrepInput) (sourceValue : Nat) (targets : List Nat)
    (fee layer : Nat) (layers : List (List PrepTransaction)) :
    Outcome PrepError (List (List PrepTransaction)) :=
  buildSplitWith (targets.length + 1) source sourceValue targets fee layer layers

/-! ### The shape of the tree -/

private theorem splitDepthFrom_spec (fuel depth n : Nat) (hn : n ≤ depth + fuel)
    (hd : 1 < depth → subtreeCapacity (depth - 1) < n) :
  n ≤ subtreeCapacity (splitDepthFrom fuel depth n) ∧
    (1 < splitDepthFrom fuel depth n → subtreeCapacity (splitDepthFrom fuel depth n - 1) < n)
  := by
  induction fuel generalizing depth with
  | zero =>
    refine ⟨?_, hd⟩
    calc n
      _ ≤ depth := by omega
      _ ≤ subtreeCapacity depth := (Nat.lt_pow_self (by decide)).le
  | succ fuel ih =>
    rw [splitDepthFrom]
    split
    · rename_i hlt
      apply ih (depth + 1) (by omega) (fun _ => hlt)
    · rename_i hge
      exact ⟨by omega, hd⟩

theorem le_subtreeCapacity_splitDepth (n : Nat) :
  n ≤ subtreeCapacity (splitDepth n)
  := by
  rw [splitDepth]
  split
  · omega
  · apply (splitDepthFrom_spec n 1 n (by omega) (by omega)).1

theorem subtreeCapacity_lt_of_splitDepth {n : Nat} (h : 1 < splitDepth n) :
  subtreeCapacity (splitDepth n - 1) < n
  := by
  rw [splitDepth] at h ⊢
  split at h
  · omega
  · rename_i hn
    rw [if_neg hn]
    apply (splitDepthFrom_spec n 1 n (by omega) (by omega)).2 h

theorem subtreeCapacity_pos (depth : Nat) :
  0 < subtreeCapacity depth
  := Nat.pow_pos (by decide)

/-- A leaf has at most `fundingOutputsPerTx` targets. -/
theorem length_le_of_leaf {n : Nat} (h : splitDepth n ≤ 1) :
  n ≤ 14
  := by
  calc n
    _ ≤ subtreeCapacity (splitDepth n) := le_subtreeCapacity_splitDepth n
    _ ≤ subtreeCapacity 1 := Nat.pow_le_pow_right (by decide) h
    _ = 14 := rfl

/-- An internal node has at least two and at most `fundingOutputsPerTx` children. -/
theorem childCount_bounds {n : Nat} (h : 1 < splitDepth n) :
  2 ≤ childCount n ∧ childCount n ≤ 14
  := by
  have hlt := subtreeCapacity_lt_of_splitDepth h
  have hle := le_subtreeCapacity_splitDepth n
  have hpos := subtreeCapacity_pos (splitDepth n - 1)
  have hstep : subtreeCapacity (splitDepth n) = subtreeCapacity (splitDepth n - 1) * 14 := by
    obtain ⟨d, hd⟩ : ∃ d, splitDepth n = d + 1 := ⟨splitDepth n - 1, by omega⟩
    rw [hd]
    rfl
  rw [hstep] at hle
  unfold childCount
  generalize subtreeCapacity (splitDepth n - 1) = c at *
  constructor
  · rw [Nat.le_div_iff_mul_le hpos]
    omega
  · have : (n + (c - 1)) / c < 15 := by
      rw [Nat.div_lt_iff_lt_mul hpos]
      omega
    omega

private theorem sum_map_range_extra (q r g : Nat) (hr : r ≤ g) :
  ((List.range g).map fun i => q + if i < r then 1 else 0).sum = g * q + r
  := by
  induction g generalizing r with
  | zero => simp; omega
  | succ g ih =>
    rw [List.range_succ, List.map_append, List.sum_append, List.map_singleton, List.sum_singleton]
    rcases Nat.lt_or_ge g r with hlt | hge
    · have hsame : ((List.range g).map fun i => q + if i < r then 1 else 0)
          = (List.range g).map fun i => q + if i < g then 1 else 0 := by
        apply List.map_congr_left
        intro i hi
        rw [List.mem_range] at hi
        rw [if_pos (by omega), if_pos hi]
      rw [hsame, ih g le_rfl, if_pos hlt, Nat.succ_mul]
      omega
    · rw [ih r hge, if_neg (by omega), Nat.succ_mul]
      omega

theorem sum_evenGroupSizes {len g : Nat} (hg : 0 < g) :
  (evenGroupSizes len g).sum = len
  := by
  rw [evenGroupSizes, sum_map_range_extra _ _ _ (Nat.mod_lt len hg).le]
  apply Nat.div_add_mod len g

/-- Contiguous groups whose sizes add up to the number of targets partition them. -/
theorem flatten_contiguousGroups {targets sizes : List Nat} (h : targets.length ≤ sizes.sum) :
  (contiguousGroups targets sizes).flatten = targets
  := by
  induction sizes generalizing targets with
  | nil =>
    rw [List.sum_nil, Nat.le_zero, List.length_eq_zero_iff] at h
    simp [contiguousGroups, h]
  | cons size sizes ih =>
    rw [List.sum_cons] at h
    rw [contiguousGroups, List.flatten_cons, ih, List.take_append_drop]
    rw [List.length_drop]
    omega

theorem length_contiguousGroups (targets sizes : List Nat) :
  (contiguousGroups targets sizes).length = sizes.length
  := by
  induction sizes generalizing targets with
  | nil => rfl
  | cons size sizes ih => simp [contiguousGroups, ih]

private theorem length_le_of_mem_contiguousGroups {targets sizes group : List Nat} {n : Nat}
    (hsizes : ∀ size ∈ sizes, size ≤ n) (h : group ∈ contiguousGroups targets sizes) :
  group.length ≤ n
  := by
  induction sizes generalizing targets with
  | nil => cases h
  | cons size sizes ih =>
    rcases List.mem_cons.mp h with rfl | h
    · rw [List.length_take]
      apply (Nat.min_le_left _ _).trans (hsizes size List.mem_cons_self)
    · apply ih (fun s hs => hsizes s (List.mem_cons_of_mem _ hs)) h

variable {targets : List Nat}

theorem flatten_childGroups (h : 1 < splitDepth targets.length) :
  (childGroups targets).flatten = targets
  := by
  apply flatten_contiguousGroups
  rw [sum_evenGroupSizes]
  have := (childCount_bounds h).1
  omega

theorem length_childGroups :
  (childGroups targets).length = childCount targets.length
  := by
  rw [childGroups, length_contiguousGroups, evenGroupSizes, List.length_map, List.length_range]

/-- The children of a node have fewer targets than the node. -/
theorem length_lt_of_mem_childGroups {group : List Nat} (h : 1 < splitDepth targets.length)
    (hg : group ∈ childGroups targets) :
  group.length < targets.length
  := by
  have htwo := (childCount_bounds h).1
  have hlen : 14 < targets.length := by
    calc 14
      _ = subtreeCapacity 1 := rfl
      _ ≤ subtreeCapacity (splitDepth targets.length - 1) :=
        Nat.pow_le_pow_right (by decide) (by omega)
      _ < targets.length := subtreeCapacity_lt_of_splitDepth h
  have hle : group.length ≤ targets.length / childCount targets.length + 1 := by
    apply length_le_of_mem_contiguousGroups _ hg
    intro size hsize
    obtain ⟨i, -, rfl⟩ := List.mem_map.mp hsize
    split <;> omega
  generalize childCount targets.length = g at *
  have : targets.length / g ≤ targets.length / 2 := Nat.div_le_div_left htwo (by decide)
  omega

/-! ### Fuel -/

private theorem foldlM_ne_outOfFuel {α β : Type} {f : β → α → Outcome PrepError β} {xs : List α}
    (h : ∀ b, ∀ x ∈ xs, f b x ≠ .error .outOfFuel) (b : β) :
  xs.foldlM f b ≠ .error .outOfFuel
  := by
  induction xs generalizing b with
  | nil => simp [pure, Except.pure]
  | cons x xs ih =>
    rw [List.foldlM_cons, ne_eq, Outcome.bind_eq_outOfFuel]
    rintro (hx | ⟨b', -, hxs⟩)
    · apply h b x List.mem_cons_self hx
    · apply ih (fun b y hy => h b y (List.mem_cons_of_mem x hy)) b' hxs

private theorem subtreeCostWith_ne_outOfFuel {fuel fee : Nat} (h : targets.length < fuel) :
  subtreeCostWith fuel targets fee ≠ .error .outOfFuel
  := by
  induction fuel generalizing targets with
  | zero => omega
  | succ fuel ih =>
    rw [subtreeCostWith]
    split
    · simp
    · rename_i hdepth
      apply foldlM_ne_outOfFuel
      rintro ⟨txs, value⟩ group hgroup
      have hlt := length_lt_of_mem_childGroups (by omega) hgroup
      rw [ne_eq, Outcome.bind_eq_outOfFuel]
      rintro (hg | ⟨⟨t, v⟩, -, hp⟩)
      · apply ih (by omega) hg
      · cases hp

theorem subtreeCost_ne_outOfFuel (targets : List Nat) (fee : Nat) :
  subtreeCost targets fee ≠ .error .outOfFuel
  := subtreeCostWith_ne_outOfFuel (Nat.lt_succ_self _)

theorem leftoverOutputs_ne_outOfFuel (leftover : Nat) :
  leftoverOutputs leftover ≠ .error .outOfFuel
  := by
  rw [leftoverOutputs]
  split
  · rw [ne_eq, Outcome.bind_eq_outOfFuel]
    rintro (h | ⟨value, -, h⟩)
    · apply zat_ne_outOfFuel _ h
    · cases h
  · simp [pure, Except.pure]

private theorem buildSplitWith_ne_outOfFuel {fuel sourceValue fee layer : Nat}
    {source : PrepInput} {layers : List (List PrepTransaction)} (h : targets.length < fuel) :
  buildSplitWith fuel source sourceValue targets fee layer layers ≠ .error .outOfFuel
  := by
  induction fuel generalizing source sourceValue targets layer layers with
  | zero => omega
  | succ fuel ih =>
    simp only [buildSplitWith]
    split
    · simp only [ne_eq, Outcome.bind_eq_outOfFuel]
      rintro (hz | ⟨values, -, hr | ⟨rest, -, hp⟩⟩)
      · apply Outcome.mapM_ne_outOfFuel (fun n _ => zat_ne_outOfFuel n) hz
      · apply leftoverOutputs_ne_outOfFuel _ hr
      · cases hp
    · rename_i hdepth
      simp only [ne_eq, Outcome.bind_eq_outOfFuel]
      rintro (hc | ⟨costs, -, hz | ⟨values, -, hr | ⟨rest, -, hf⟩⟩⟩)
      · refine Outcome.mapM_ne_outOfFuel (fun group _ => ?_) hc
        rw [ne_eq, Outcome.bind_eq_outOfFuel]
        rintro (hg | ⟨⟨t, v⟩, -, hp⟩)
        · apply subtreeCost_ne_outOfFuel _ _ hg
        · cases hp
      · apply Outcome.mapM_ne_outOfFuel (fun n _ => zat_ne_outOfFuel n) hz
      · apply leftoverOutputs_ne_outOfFuel _ hr
      · revert hf
        apply foldlM_ne_outOfFuel
        rintro layers ⟨⟨group, cost⟩, output⟩ hmem
        have hgroup : group ∈ childGroups targets := by
          have hzip := List.fst_mem_of_mem_zipIdx hmem
          apply (List.of_mem_zip hzip).1
        have hlt := length_lt_of_mem_childGroups (by omega) hgroup
        have hfuel : group.length < fuel := by omega
        rw [ne_eq, Outcome.bind_eq_outOfFuel]
        rintro (hz | ⟨value, -, hb⟩)
        · apply zat_ne_outOfFuel _ hz
        · apply ih hfuel hb

theorem buildSplit_ne_outOfFuel {sourceValue fee layer : Nat} {source : PrepInput}
    {layers : List (List PrepTransaction)} :
  buildSplit source sourceValue targets fee layer layers ≠ .error .outOfFuel
  := buildSplitWith_ne_outOfFuel (Nat.lt_succ_self _)

/-! ### Soundness -/

variable {available : List Zatoshis} {fee : Nat} {direct : List (Nat × Zatoshis)}
  {layers layers' : List (List PrepTransaction)} {live : List PrepInput}

/-- The outputs for a leftover: at most one, worth the leftover, and an intermediate. -/
theorem leftoverOutputs_spec {leftover : Nat} {outputs : List PrepOutput}
    (h : leftoverOutputs leftover = .ok outputs) :
  leftover ≤ maxMoney ∧ (outputs.map fun o => o.value.value).sum = leftover ∧
    outputs.length ≤ 1 ∧ ∀ o ∈ outputs, ∃ value, o = .intermediate value
  := by
  rw [leftoverOutputs] at h
  split at h
  · obtain ⟨value, hz, hp⟩ := Outcome.bind_eq_ok.mp h
    rw [zat_eq_ok] at hz
    cases hp
    have := value.le_maxMoney
    simp [PrepOutput.value, hz]
    omega
  · rename_i hz
    cases h
    simp
    omega

theorem filterMap_funding?_of_intermediate {outputs : List PrepOutput}
    (h : ∀ o ∈ outputs, ∃ value, o = PrepOutput.intermediate value) :
  outputs.filterMap PrepOutput.funding? = []
  := by
  rw [List.filterMap_eq_nil_iff]
  intro o ho
  obtain ⟨value, rfl⟩ := h o ho
  rfl

theorem filterMap_funding?_map_funding (values : List Zatoshis) :
  (values.map PrepOutput.funding).filterMap PrepOutput.funding? = values
  := by
  simp [List.filterMap_map, Function.comp_def, PrepOutput.funding?]

private theorem sum_values_le (values : List Zatoshis) (h : values.length ≤ 14) :
  (values.map Zatoshis.value).sum ≤ 14 * maxMoney
  := by
  calc (values.map Zatoshis.value).sum
    _ ≤ (values.map Zatoshis.value).length * maxMoney := by
      apply sum_le_length_mul
      intro m hm
      obtain ⟨value, -, rfl⟩ := List.mem_map.mp hm
      apply value.le_maxMoney
    _ ≤ 14 * maxMoney := by
      rw [List.length_map]
      apply Nat.mul_le_mul_right _ h

/-- A node of the tree, which spends `source` and produces the outputs `make values` and
its leftover, can be placed. -/
private theorem Sound.place_node {source : PrepInput} {sourceValue l : Nat}
    {values : List Zatoshis} {rest : List PrepOutput} (make : Zatoshis → PrepOutput)
    (hs : Sound available fee direct layers (source :: live)) (hl : l < layers.length)
    (hready : source.readyAt ≤ l) (hvalue : source.value.value = sourceValue)
    (hfee : fee ≤ maxMoney) (hmake : ∀ v, (make v).value = v)
    (hchange : ∀ v w, make v ≠ .change w) (hlen : values.length ≤ 14)
    (hrest : leftoverOutputs (sub64 (sub64 sourceValue fee) (sum64 (values.map Zatoshis.value)))
      = .ok rest) :
  Sound available fee direct (Layered.place layers l ⟨[source], values.map make ++ rest⟩)
    (feeders l (size layers l) (values.map make ++ rest) ++ live)
  := by
  obtain ⟨hmax, hsum, hone, hinter⟩ := leftoverOutputs_spec hrest
  apply hs.place ⟨[source], values.map make ++ rest⟩ hl
  · intro i hi
    rw [List.mem_singleton.mp hi]
    apply hready
  · simp only [PrepTransaction.actionCount, List.length_singleton, List.length_append,
      List.length_map, prepTxActions]
    omega
  · have hspent := sum_values_le values hlen
    have heq := sub64_sub64_eq (hvalue ▸ source.value.le_maxMoney) hfee hspent hmax
    have hmapped : (values.map fun v => (make v).value.value).sum
        = (values.map Zatoshis.value).sum := by
      congr 1
      apply List.map_congr_left
      intro v _
      rw [hmake]
    simp only [PrepTransaction.inputTotal, PrepTransaction.outputTotal, List.map_singleton,
      List.sum_singleton, List.map_append, List.map_map, List.sum_append, Function.comp_def,
      hmapped, hsum, hvalue, sum64]
    omega
  · intro value hv
    rcases List.mem_append.mp hv with hv | hv
    · obtain ⟨v, -, hv⟩ := List.mem_map.mp hv
      apply hchange _ _ hv
    · obtain ⟨v, hv⟩ := hinter _ hv
      cases hv

/-- The prior inputs that spend the outputs of a node, from output `k` on. -/
def childInputs (layer transaction k : Nat) (values : List Zatoshis) : List PrepInput :=
  (values.zipIdx k).map fun (value, output) => .prior layer transaction output value

/-- The feeders of a node are the inputs of its children and its leftover. -/
theorem feeders_node (layer transaction : Nat) (values : List Zatoshis)
    (rest : List PrepOutput) :
  feeders layer transaction (values.map .intermediate ++ rest)
    = childInputs layer transaction 0 values
      ++ (rest.zipIdx values.length).filterMap (feeder? layer transaction)
  := by
  have h : ∀ k, ((values.map PrepOutput.intermediate).zipIdx k).filterMap
      (feeder? layer transaction) = childInputs layer transaction k values := by
    induction values with
    | nil => simp [childInputs]
    | cons value values ih =>
      intro k
      simp only [List.map_cons, List.zipIdx_cons, childInputs]
      have hhead : feeder? layer transaction (.intermediate value, k)
          = some (.prior layer transaction k value) := rfl
      rw [List.filterMap_cons_some hhead, ih]
      rfl
  rw [feeders, List.zipIdx_append, List.filterMap_append, h, List.length_map, Nat.zero_add]

private theorem childInputs_sublist_feeders (layer transaction : Nat) (values : List Zatoshis)
    (rest : List PrepOutput) :
  (childInputs layer transaction 0 values).Sublist
    (feeders layer transaction (values.map .intermediate ++ rest))
  := by
  rw [feeders_node]
  apply List.sublist_append_left _ _

/-- The values of the funding notes that a plan mints. -/
def mintedValues (layers : List (List PrepTransaction)) : List Nat :=
  (mintedFunding layers.flatten).map Zatoshis.value

/-- What a balanced split promises: it consumes its source, mints its targets and leaves
all other live notes live. -/
private def SplitSound (available : List Zatoshis) (fee : Nat) (direct : List (Nat × Zatoshis))
    (fuel : Nat) : Prop :=
  ∀ ⦃source sourceValue targets layer layers layers' live⦄,
    buildSplitWith fuel source sourceValue targets fee layer layers = .ok layers' →
    Sound available fee direct layers (source :: live) →
    source.readyAt ≤ layer → source.value.value = sourceValue →
    Sound available fee direct layers' live ∧
      (mintedValues layers').Perm (targets ++ mintedValues layers)

/-- The children of a node are split one after the other. -/
private theorem SplitSound.children {fuel layer transaction : Nat}
    (ih : SplitSound available fee direct fuel) {groups : List (List Nat)} {costs : List Nat}
    {values : List Zatoshis} {k : Nat}
    (h : ((groups.zip costs).zipIdx k).foldlM
        (fun layers ((group, cost), output) => do
          let value ← zat cost
          buildSplitWith fuel (.prior layer transaction output value) cost group fee (layer + 1)
            layers)
        layers = .ok layers')
    (hcosts : values.map Zatoshis.value = costs) (hlen : groups.length = costs.length)
    (hs : Sound available fee direct layers (childInputs layer transaction k values ++ live)) :
  Sound available fee direct layers' live ∧
    (mintedValues layers').Perm (groups.flatten ++ mintedValues layers)
  := by
  induction groups generalizing costs values k layers with
  | nil =>
    cases h
    constructor
    · apply hs.subperm (List.sublist_append_right _ _).subperm
    · apply List.Perm.refl _
  | cons group groups ihg =>
    obtain ⟨value, values, rfl⟩ : ∃ v vs, values = v :: vs := by
      cases values with
      | nil =>
        subst hcosts
        simp at hlen
      | cons v vs => exact ⟨v, vs, rfl⟩
    subst hcosts
    rw [List.map_cons, List.zip_cons_cons, List.zipIdx_cons, List.foldlM_cons] at h
    obtain ⟨mid, hmid, h⟩ := Outcome.bind_eq_ok.mp h
    obtain ⟨value', hvalue', hmid⟩ := Outcome.bind_eq_ok.mp hmid
    rw [zat_value] at hvalue'
    cases hvalue'
    obtain ⟨hsmid, hpmid⟩ := ih hmid hs le_rfl rfl
    obtain ⟨hs', hp'⟩ := ihg h rfl (by simpa using hlen) hsmid
    refine ⟨hs', hp'.trans ?_⟩
    have hswap : (groups.flatten ++ mintedValues mid).Perm
        (groups.flatten ++ (group ++ mintedValues layers)) := hpmid.append_left _
    apply hswap.trans
    rw [List.flatten_cons, ← List.append_assoc]
    apply List.perm_append_comm.append_right _

theorem mintedValues_place_perm {tx : PrepTransaction} {l : Nat}
    (hl : l < layers.length) :
  (mintedValues (place layers l tx)).Perm
    ((tx.outputs.filterMap PrepOutput.funding?).map Zatoshis.value ++ mintedValues layers)
  := by
  have h := (mintedFunding_place_perm tx hl).map Zatoshis.value
  rwa [List.map_append] at h

private theorem splitSound (hfee : fee ≤ maxMoney) (fuel : Nat) :
  SplitSound available fee direct fuel
  := by
  induction fuel with
  | zero =>
    intro source sourceValue targets layer layers layers' live h
    cases h
  | succ fuel ih =>
    intro source sourceValue targets layer layers layers' live h hs hready hvalue
    have hreach : Sound available fee direct (reach layers layer) (source :: live) := hs.reach
    have hl : layer < (reach layers layer).length := length_reach layers layer
    have hminted : mintedValues (reach layers layer) = mintedValues layers := by
      simp [mintedValues]
    simp only [buildSplitWith] at h
    split at h
    · rename_i hleaf
      obtain ⟨values, hvalues, h⟩ := Outcome.bind_eq_ok.mp h
      obtain ⟨rest, hrest, h⟩ := Outcome.bind_eq_ok.mp h
      cases h
      rw [mapM_zat_eq_ok] at hvalues
      subst hvalues
      have hlen : values.length ≤ 14 := by simpa using length_le_of_leaf hleaf
      have hplaced := hreach.place_node .funding hl hready hvalue hfee
        (fun _ => rfl) (by simp) hlen hrest
      constructor
      · apply hplaced.subperm (List.sublist_append_right _ _).subperm
      · apply (mintedValues_place_perm hl).trans
        rw [List.filterMap_append, filterMap_funding?_map_funding,
          filterMap_funding?_of_intermediate (leftoverOutputs_spec hrest).2.2.2,
          List.append_nil, hminted]
    · rename_i hdepth
      obtain ⟨costs, hcosts, h⟩ := Outcome.bind_eq_ok.mp h
      obtain ⟨values, hvalues, h⟩ := Outcome.bind_eq_ok.mp h
      obtain ⟨rest, hrest, h⟩ := Outcome.bind_eq_ok.mp h
      rw [mapM_zat_eq_ok] at hvalues
      have hcount : (childGroups targets).length = costs.length :=
        (Outcome.length_of_mapM_eq_ok hcosts).symm
      have hlen : values.length ≤ 14 := by
        rw [← List.length_map Zatoshis.value, hvalues, ← hcount, length_childGroups]
        apply (childCount_bounds (by omega)).2
      rw [← hvalues] at hrest
      have hplaced := hreach.place_node .intermediate hl hready hvalue hfee
        (fun _ => rfl) (by simp) hlen hrest
      have hchildren := hplaced.subperm
        ((childInputs_sublist_feeders layer (size (reach layers layer) layer) values rest).append_right
          live).subperm
      obtain ⟨hs', hp'⟩ := ih.children h hvalues hcount hchildren
      refine ⟨hs', hp'.trans ?_⟩
      rw [flatten_childGroups (by omega)]
      apply List.Perm.append_left
      apply (mintedValues_place_perm hl).trans
      have hnone : ∀ o ∈ values.map PrepOutput.intermediate ++ rest,
          ∃ value, o = PrepOutput.intermediate value := by
        intro o ho
        rcases List.mem_append.mp ho with ho | ho
        · obtain ⟨v, -, rfl⟩ := List.mem_map.mp ho
          exact ⟨v, rfl⟩
        · apply (leftoverOutputs_spec hrest).2.2.2 o ho
      rw [filterMap_funding?_of_intermediate hnone, hminted]
      apply List.Perm.refl _

/-- A balanced split keeps the plan sound and mints exactly its targets. -/
theorem buildSplit_sound {source : PrepInput} {sourceValue layer : Nat}
    (h : buildSplit source sourceValue targets fee layer layers = .ok layers')
    (hs : Sound available fee direct layers (source :: live)) (hfee : fee ≤ maxMoney)
    (hready : source.readyAt ≤ layer) (hvalue : source.value.value = sourceValue) :
  Sound available fee direct layers' live ∧
    (mintedValues layers').Perm (targets ++ mintedValues layers)
  := splitSound hfee _ h hs hready hvalue

end Vizor.Planner
