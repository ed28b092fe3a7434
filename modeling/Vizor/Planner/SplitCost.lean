import Vizor.Planner.Flow

/-!
# The cost of a balanced split

Without overflow, a split into targets costs their sum and a fee for each of its
transactions, of which there are fewer than twice as many as targets.  A source that is
worth the cost of a split, and no more than the money supply, can be split.
-/

namespace Vizor.Planner

variable {targets : List Nat} {fee : Nat}

/-! ### The tree -/

/-- At most `fundingOutputsPerTx` targets are minted by one transaction. -/
theorem leaf_of_length_le {n : Nat} (h : n ≤ 14) :
  splitDepth n ≤ 1
  := by
  rw [splitDepth]
  split
  · omega
  · rename_i hn
    obtain ⟨m, rfl⟩ : ∃ m, n = m + 1 := ⟨n - 1, by omega⟩
    have : subtreeCapacity 1 = 14 := rfl
    rw [splitDepthFrom, if_neg (by omega)]

private theorem ne_nil_of_mem_contiguousGroups {sizes group : List Nat}
    (hsum : sizes.sum ≤ targets.length) (hpos : ∀ size ∈ sizes, 1 ≤ size)
    (h : group ∈ contiguousGroups targets sizes) :
  group ≠ []
  := by
  induction sizes generalizing targets with
  | nil => cases h
  | cons size sizes ih =>
    rw [List.forall_mem_cons] at hpos
    rw [List.sum_cons] at hsum
    rcases List.mem_cons.mp h with rfl | h
    · rw [ne_eq, ← List.length_eq_zero_iff, List.length_take]
      omega
    · apply ih _ hpos.2 h
      rw [List.length_drop]
      omega

/-- Every child of a node has a target. -/
theorem ne_nil_of_mem_childGroups {group : List Nat} (hdepth : 1 < splitDepth targets.length)
    (h : group ∈ childGroups targets) :
  group ≠ []
  := by
  have htwo := (childCount_bounds hdepth).1
  have hlt : childCount targets.length ≤ targets.length := by
    have hpos := subtreeCapacity_pos (splitDepth targets.length - 1)
    rw [childCount]
    generalize subtreeCapacity (splitDepth targets.length - 1) = c at *
    have hlen : 1 ≤ targets.length := by
      rw [childCount] at htwo
      by_contra hzero
      have : targets.length = 0 := by omega
      rw [this] at hdepth
      simp [splitDepth] at hdepth
    rw [Nat.div_le_iff_le_mul_add_pred hpos]
    have := Nat.le_mul_of_pos_left targets.length hpos
    omega
  apply ne_nil_of_mem_contiguousGroups _ _ h
  · rw [sum_evenGroupSizes (by omega)]
  · intro size hsize
    obtain ⟨i, -, rfl⟩ := List.mem_map.mp hsize
    have : 1 ≤ targets.length / childCount targets.length :=
      (Nat.one_le_div_iff (by omega)).mpr hlt
    omega

/-! ### The cost -/

private theorem foldlM_congr {α β : Type} {f g : β → α → Outcome PrepError β} {xs : List α}
    (h : ∀ b, ∀ x ∈ xs, f b x = g b x) (b : β) :
  xs.foldlM f b = xs.foldlM g b
  := by
  induction xs generalizing b with
  | nil => rfl
  | cons x xs ih =>
    rw [List.foldlM_cons, List.foldlM_cons, h b x List.mem_cons_self]
    congr 1
    funext b'
    apply ih (fun b y hy => h b y (List.mem_cons_of_mem x hy)) b'

/-- Fuel beyond the number of targets does not matter. -/
private theorem subtreeCostWith_eq {fuel fuel' : Nat} (h : targets.length < fuel)
    (h' : targets.length < fuel') :
  subtreeCostWith fuel targets fee = subtreeCostWith fuel' targets fee
  := by
  induction fuel generalizing fuel' targets with
  | zero => omega
  | succ fuel ih =>
    obtain ⟨fuel', rfl⟩ : ∃ n, fuel' = n + 1 := ⟨fuel' - 1, by omega⟩
    rw [subtreeCostWith, subtreeCostWith]
    split
    · rfl
    · rename_i hdepth
      apply foldlM_congr
      rintro ⟨txs, value⟩ group hgroup
      have hlt := length_lt_of_mem_childGroups (by omega) hgroup
      rw [ih (by omega) (by omega : group.length < fuel')]

/-- The cost of a node is a fee and the costs of its children. -/
theorem subtreeCost_node (hdepth : 1 < splitDepth targets.length) :
  subtreeCost targets fee
    = (childGroups targets).foldlM (fun (txs, value) group => do
        let (t, v) ← subtreeCost group fee
        pure (add64 txs t, add64 value v)) (1, fee)
  := by
  rw [subtreeCost, subtreeCostWith, if_neg (by omega)]
  apply foldlM_congr
  rintro ⟨txs, value⟩ group hgroup
  have hlt := length_lt_of_mem_childGroups hdepth hgroup
  rw [subtreeCost, subtreeCostWith_eq hlt (Nat.lt_succ_self _)]

/-- The cost of a leaf is its targets and a fee. -/
theorem subtreeCost_leaf (hleaf : splitDepth targets.length ≤ 1) :
  subtreeCost targets fee = .ok (1, (targets.sum + fee) % u64Size)
  := by
  rw [subtreeCost, subtreeCostWith, if_pos hleaf, add64, sum64, Nat.mod_add_mod]

/-- The number of transactions of a split. -/
def splitCount (targets : List Nat) (fee : Nat) : Nat :=
  match subtreeCost targets fee with
  | .ok (txs, _) => txs
  | .error _ => 0

theorem splitCount_eq {txs value : Nat} (h : subtreeCost targets fee = .ok (txs, value)) :
  splitCount targets fee = txs
  := by
  rw [splitCount, h]

/-- What a split into targets costs: its targets and a fee for each of its transactions, as
a word of 64 bits. -/
structure Counted (targets : List Nat) (fee : Nat) : Prop where
  eq : subtreeCost targets fee
    = .ok (splitCount targets fee, (targets.sum + fee * splitCount targets fee) % u64Size)
  pos : 1 ≤ splitCount targets fee
  lt : splitCount targets fee < 2 * targets.length

/-- What a split into targets costs without overflow. -/
structure Costed (targets : List Nat) (fee : Nat) : Prop where
  eq : subtreeCost targets fee
    = .ok (splitCount targets fee, targets.sum + fee * splitCount targets fee)
  pos : 1 ≤ splitCount targets fee
  lt : splitCount targets fee < 2 * targets.length

theorem Counted.costed (h : Counted targets fee)
    (hsmall : targets.sum + fee * splitCount targets fee < u64Size) :
  Costed targets fee
  := by
  constructor
  · rw [h.eq, Nat.mod_eq_of_lt hsmall]
  · apply h.pos
  · apply h.lt

/-- Adding up the costs of some groups. -/
private theorem counted_fold {groups : List (List Nat)} (txs value : Nat)
    (hg : ∀ group ∈ groups, Counted group fee)
    (htxs : txs + (groups.map fun group => splitCount group fee).sum < u64Size) :
  groups.foldlM (fun (txs, value) group => do
      let (t, v) ← subtreeCost group fee
      pure (add64 txs t, add64 value v)) (txs, value % u64Size)
    = .ok (txs + (groups.map fun group => splitCount group fee).sum,
        (value + groups.flatten.sum
          + fee * (groups.map fun group => splitCount group fee).sum) % u64Size)
  := by
  induction groups generalizing txs value with
  | nil => simp [pure, Except.pure]
  | cons group groups ih =>
    rw [List.forall_mem_cons] at hg
    rw [List.map_cons, List.sum_cons] at htxs
    rw [List.foldlM_cons]
    simp only [hg.1.eq, bind, Except.bind, pure, Except.pure]
    rw [add64, add64, Nat.mod_eq_of_lt (by omega), ← Nat.add_mod]
    have := ih (txs + splitCount group fee)
      (value + (group.sum + fee * splitCount group fee)) hg.2 (by omega)
    simp only [bind, Except.bind, pure, Except.pure] at this
    rw [this]
    simp only [List.map_cons, List.sum_cons, List.flatten_cons, List.sum_append, Nat.mul_add]
    congr 2
    · omega
    · congr 1
      omega

/-- A sum over some group does not depend on whether its start is reduced. -/
private theorem counted_fold_mod {groups : List (List Nat)} (txs value : Nat)
    (hne : groups ≠ []) (hg : ∀ group ∈ groups, Counted group fee) :
  groups.foldlM (fun (txs, value) group => do
      let (t, v) ← subtreeCost group fee
      pure (add64 txs t, add64 value v)) (txs, value)
    = groups.foldlM (fun (txs, value) group => do
      let (t, v) ← subtreeCost group fee
      pure (add64 txs t, add64 value v)) (txs, value % u64Size)
  := by
  cases groups with
  | nil => exact absurd rfl hne
  | cons group groups =>
    rw [List.foldlM_cons, List.foldlM_cons]
    simp only [(hg group List.mem_cons_self).eq, bind, Except.bind, pure, Except.pure, add64,
      Nat.mod_add_mod]

private theorem sum_splitCount_bounds {groups : List (List Nat)}
    (hg : ∀ group ∈ groups, Counted group fee) :
  (groups.map fun group => splitCount group fee).sum + groups.length
    ≤ 2 * groups.flatten.length
  := by
  induction groups with
  | nil => simp
  | cons group groups ih =>
    rw [List.forall_mem_cons] at hg
    have := ih hg.2
    have := hg.1.lt
    simp only [List.map_cons, List.sum_cons, List.length_cons, List.flatten_cons,
      List.length_append]
    omega

/-- The cost of a node whose children cost their targets and fees. -/
private theorem counted_node (hdepth : 1 < splitDepth targets.length)
    (hgroups : ∀ group ∈ childGroups targets, Counted group fee)
    (hlen : 2 * targets.length ≤ u64Size) :
  1 + ((childGroups targets).map fun group => splitCount group fee).sum < 2 * targets.length ∧
    subtreeCost targets fee
      = .ok (1 + ((childGroups targets).map fun group => splitCount group fee).sum,
        (targets.sum + fee
          * (1 + ((childGroups targets).map fun group => splitCount group fee).sum)) % u64Size)
  := by
  have hflat := flatten_childGroups hdepth
  have hbound := sum_splitCount_bounds hgroups
  rw [hflat, length_childGroups] at hbound
  have htwo := (childCount_bounds hdepth).1
  have hlt : 1 + ((childGroups targets).map fun group => splitCount group fee).sum
      < 2 * targets.length := by omega
  have hne : childGroups targets ≠ [] := by
    rw [← List.length_pos_iff, length_childGroups]
    omega
  constructor
  · apply hlt
  · rw [subtreeCost_node hdepth, counted_fold_mod 1 fee hne hgroups,
      counted_fold 1 fee hgroups (by omega), hflat, Nat.mul_add, Nat.mul_one]
    congr 3
    omega

private theorem counted_of_le {n : Nat} (hn : targets.length ≤ n) (hne : targets ≠ [])
    (hlen : 2 * targets.length ≤ u64Size) :
  Counted targets fee
  := by
  induction n generalizing targets with
  | zero =>
    have := List.length_pos_iff.mpr hne
    omega
  | succ n ih =>
    have hpos := List.length_pos_iff.mpr hne
    by_cases hleaf : splitDepth targets.length ≤ 1
    · have hcost : subtreeCost targets fee = _ := subtreeCost_leaf hleaf
      have hcount := splitCount_eq hcost
      exact ⟨by rw [hcost, hcount, Nat.mul_one], by omega, by omega⟩
    · have hdepth : 1 < splitDepth targets.length := by omega
      have hgroups : ∀ group ∈ childGroups targets, Counted group fee := by
        intro group hgroup
        have hlt := length_lt_of_mem_childGroups hdepth hgroup
        apply ih (by omega) (ne_nil_of_mem_childGroups hdepth hgroup) (by omega)
      obtain ⟨hlt, hcost⟩ := counted_node hdepth hgroups hlen
      have hcount := splitCount_eq hcost
      exact ⟨by rw [hcost, hcount], by omega, by omega⟩

/-- A split into some targets costs them and a fee for each of its transactions. -/
theorem counted (hne : targets ≠ []) (hlen : 2 * targets.length ≤ u64Size) :
  Counted targets fee
  := counted_of_le le_rfl hne hlen

/-- The children of a node have costs. -/
theorem counted_children (hdepth : 1 < splitDepth targets.length)
    (hlen : 2 * targets.length ≤ u64Size) :
  ∀ group ∈ childGroups targets, Counted group fee
  := by
  intro group hgroup
  have hlt := length_lt_of_mem_childGroups hdepth hgroup
  apply counted (ne_nil_of_mem_childGroups hdepth hgroup) (by omega)

/-- A node has a transaction and those of its children. -/
theorem splitCount_node (hdepth : 1 < splitDepth targets.length)
    (hlen : 2 * targets.length ≤ u64Size) :
  splitCount targets fee
    = 1 + ((childGroups targets).map fun group => splitCount group fee).sum
  := splitCount_eq (counted_node hdepth (counted_children hdepth hlen) hlen).2

/-- Where the targets and a fee for each of them fit, there are not too many of them. -/
theorem twice_length_le (h : targets.sum + (fee + 1) * (2 * targets.length) < u64Size) :
  2 * targets.length ≤ u64Size
  := by
  rw [Nat.succ_mul] at h
  omega

/-- A split of which no sum overflows costs its targets and a fee for each of its
transactions. -/
theorem costed (hne : targets ≠ [])
    (hsmall : targets.sum + (fee + 1) * (2 * targets.length) < u64Size) :
  Costed targets fee
  := by
  have h : Counted targets fee := counted hne (twice_length_le hsmall)
  apply h.costed
  have := Nat.mul_le_mul_left fee h.lt.le
  rw [Nat.succ_mul] at hsmall
  omega

/-! ### Building the split -/

theorem mapM_zat_ok {values : List Nat} (h : ∀ v ∈ values, v ≤ maxMoney) :
  ∃ vs : List Zatoshis, vs.map Zatoshis.value = values ∧
    (values.mapM zat : Outcome PrepError (List Zatoshis)) = .ok vs
  := by
  have hmap : (values.pmap Zatoshis.mk h).map Zatoshis.value = values := by
    rw [List.map_pmap]
    simp
  exact ⟨_, hmap, mapM_zat_eq_ok.mpr hmap⟩

theorem leftoverOutputs_ok {leftover : Nat} (h : leftover ≤ maxMoney) :
  ∃ outputs, leftoverOutputs leftover = .ok outputs
  := by
  rw [leftoverOutputs]
  split
  · obtain ⟨v, -, hv⟩ := exists_zat (ε := PrepError) h
    rw [hv]
    exact ⟨_, rfl⟩
  · exact ⟨_, rfl⟩

/-- Subtraction of words does not wrap where it does not go below zero. -/
theorem sub64_eq {m n : Nat} (hm : m < u64Size) (hn : n ≤ m) :
  sub64 m n = m - n
  := by
  unfold sub64 u64Size at *
  omega

/-- The leftover of a node that can pay for what it mints. -/
theorem leftover_eq {source spent : Nat} (hmax : source ≤ maxMoney)
    (hcost : spent + fee ≤ source) :
  sub64 (sub64 source fee) (spent % u64Size) = source - fee - spent
  := by
  have hbig : maxMoney < u64Size := by decide
  rw [Nat.mod_eq_of_lt (by omega), sub64_eq (m := source) (by omega) (by omega),
    sub64_eq (by omega) (by omega)]

theorem mem_le_sum {values : List Nat} {v : Nat} (h : v ∈ values) :
  v ≤ values.sum
  := List.single_le_sum (fun _ _ => Nat.zero_le _) v h

/-- The costs of the children of a node. -/
theorem mapM_costs {groups : List (List Nat)}
    (hg : ∀ group ∈ groups, Costed group fee) :
  (groups.mapM fun group => do
      let (_, value) ← subtreeCost group fee
      pure value)
    = .ok (groups.map fun group => group.sum + fee * splitCount group fee)
  := by
  induction groups with
  | nil => rfl
  | cons group groups ih =>
    rw [List.forall_mem_cons] at hg
    rw [List.mapM_cons, ih hg.2]
    simp only [hg.1.eq, bind, Except.bind, pure, Except.pure, List.map_cons]

theorem sum_costs (groups : List (List Nat)) :
  (groups.map fun group => group.sum + fee * splitCount group fee).sum
    = groups.flatten.sum + fee * (groups.map fun group => splitCount group fee).sum
  := by
  induction groups with
  | nil => simp
  | cons group groups ih =>
    simp only [List.map_cons, List.sum_cons, ih, List.flatten_cons, List.sum_append, Nat.mul_add]
    omega

/-- The children of a node are split when each of them can be. -/
private theorem children_ok {fuel layer transaction : Nat} {groups : List (List Nat)} (k : Nat)
    (layers : List (List PrepTransaction))
    (hle : ∀ group ∈ groups, group.sum + fee * splitCount group fee ≤ maxMoney)
    (h : ∀ group ∈ groups, ∀ source layers,
      ∃ layers', buildSplitWith fuel source (group.sum + fee * splitCount group fee) group fee
        (layer + 1) layers = .ok layers') :
  ∃ layers', ((groups.zip (groups.map fun group =>
      group.sum + fee * splitCount group fee)).zipIdx k).foldlM
    (fun layers ((group, cost), output) => do
      let value ← zat cost
      buildSplitWith fuel (.prior layer transaction output value) cost group fee (layer + 1)
        layers)
    layers = .ok layers'
  := by
  induction groups generalizing k layers with
  | nil => exact ⟨layers, rfl⟩
  | cons group groups ih =>
    rw [List.forall_mem_cons] at hle h
    rw [List.map_cons, List.zip_cons_cons, List.zipIdx_cons, List.foldlM_cons]
    obtain ⟨v, -, hv⟩ := exists_zat (ε := PrepError) hle.1
    obtain ⟨layers₁, hlayers₁⟩ := h.1 (.prior layer transaction k v) layers
    obtain ⟨layers₂, hlayers₂⟩ := ih (k + 1) layers₁ hle.2 h.2
    refine ⟨layers₂, ?_⟩
    simp only [hv, bind, Except.bind]
    rw [hlayers₁]
    apply hlayers₂

/-- A source that is worth the cost of a split can be split. -/
theorem buildSplitWith_ok {fuel sourceValue layer : Nat} {source : PrepInput}
    {layers : List (List PrepTransaction)} (hfuel : targets.length < fuel) (hne : targets ≠ [])
    (hlen : 2 * targets.length ≤ u64Size)
    (hcost : targets.sum + fee * splitCount targets fee ≤ sourceValue)
    (hmax : sourceValue ≤ maxMoney) :
  ∃ layers', buildSplitWith fuel source sourceValue targets fee layer layers = .ok layers'
  := by
  induction fuel generalizing source sourceValue targets layer layers with
  | zero => omega
  | succ fuel ih =>
    have hbig : maxMoney < u64Size := by decide
    have hc : Counted targets fee := counted hne hlen
    have hone : fee ≤ fee * splitCount targets fee := Nat.le_mul_of_pos_right _ hc.pos
    simp only [buildSplitWith]
    split
    · have hle : ∀ v ∈ targets, v ≤ maxMoney := by
        intro v hv
        have := mem_le_sum hv
        omega
      obtain ⟨vs, -, hvs⟩ := mapM_zat_ok hle
      obtain ⟨outputs, houtputs⟩ := leftoverOutputs_ok
        (show sourceValue - fee - targets.sum ≤ maxMoney by omega)
      rw [hvs, sum64, leftover_eq hmax (by omega), houtputs]
      exact ⟨_, rfl⟩
    · rename_i hleaf
      have hdepth : 1 < splitDepth targets.length := by omega
      have hcounts : ∀ group ∈ childGroups targets, Counted group fee := counted_children hdepth hlen
      have htotal : ((childGroups targets).map fun group =>
          group.sum + fee * splitCount group fee).sum + fee ≤ sourceValue := by
        rw [splitCount_node hdepth hlen, Nat.mul_add, Nat.mul_one] at hcost
        rw [sum_costs, flatten_childGroups hdepth]
        omega
      have hle : ∀ cost ∈ (childGroups targets).map fun group =>
          group.sum + fee * splitCount group fee, cost ≤ maxMoney := by
        intro cost hmem
        have := mem_le_sum hmem
        omega
      have hgle : ∀ group ∈ childGroups targets,
          group.sum + fee * splitCount group fee ≤ maxMoney := fun group hgroup =>
        hle _ (List.mem_map_of_mem hgroup)
      have hgroups : ∀ group ∈ childGroups targets, Costed group fee := by
        intro group hgroup
        apply (hcounts group hgroup).costed
        have := hgle group hgroup
        omega
      obtain ⟨vs, -, hvs⟩ := mapM_zat_ok hle
      obtain ⟨outputs, houtputs⟩ := leftoverOutputs_ok (show sourceValue - fee
        - ((childGroups targets).map fun group => group.sum + fee * splitCount group fee).sum
          ≤ maxMoney by omega)
      rw [mapM_costs hgroups]
      simp only [bind, Except.bind]
      rw [hvs, sum64, leftover_eq hmax htotal, houtputs]
      apply children_ok 0 _ hgle
      intro group hgroup source layers
      have hlt := length_lt_of_mem_childGroups hdepth hgroup
      apply ih (by omega) (ne_nil_of_mem_childGroups hdepth hgroup) (by omega) le_rfl
        (hgle group hgroup)

end Vizor.Planner
