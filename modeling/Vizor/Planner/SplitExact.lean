import Vizor.Planner.SplitCost

/-!
# What a balanced split builds

A balanced split adds a tree of transactions to a plan.  Its cost and its transactions are
two recursions over the same groups of targets, and every group of a node has a tree of
one layer less.  So the split spends its source, mints its targets, has as many
transactions as its cost says, fills as many layers as its depth says, and leaves one
intermediate note, worth what the source is worth beyond the cost.
-/

namespace Vizor.Planner

open Layered

variable {targets : List Nat} {fee : Nat}

/-! ### The depth of the tree -/

/-- The depth of a split is the one whose capacity is the first to suffice. -/
theorem splitDepth_eq {n d : Nat} (hn : 0 < n) (hd : 1 ≤ d) (hle : n ≤ subtreeCapacity d)
    (hlt : 1 < d → subtreeCapacity (d - 1) < n) :
  splitDepth n = d
  := by
  have hmono : ∀ {a b}, a ≤ b → subtreeCapacity a ≤ subtreeCapacity b :=
    fun h => Nat.pow_le_pow_right (by decide) h
  have hcap := le_subtreeCapacity_splitDepth n
  rcases Nat.lt_trichotomy (splitDepth n) d with h | h | h
  · exfalso
    by_cases hone : 1 < d
    · have := hlt hone
      have := hmono (show splitDepth n ≤ d - 1 by omega)
      omega
    · have hzero : splitDepth n = 0 := by omega
      rw [hzero] at hcap
      have : subtreeCapacity 0 = 1 := rfl
      have : n = 1 := by omega
      subst this
      cases hzero
  · apply h
  · exfalso
    have := subtreeCapacity_lt_of_splitDepth (show 1 < splitDepth n by omega)
    have := hmono (show d ≤ splitDepth n - 1 by omega)
    omega

private theorem length_mem_of_mem_contiguousGroups {sizes group : List Nat}
    (hsum : sizes.sum ≤ targets.length) (h : group ∈ contiguousGroups targets sizes) :
  group.length ∈ sizes
  := by
  induction sizes generalizing targets with
  | nil => cases h
  | cons size sizes ih =>
    rw [List.sum_cons] at hsum
    rcases List.mem_cons.mp h with rfl | h
    · rw [List.length_take, Nat.min_eq_left (by omega)]
      apply List.mem_cons_self
    · apply List.mem_cons_of_mem
      apply ih _ h
      rw [List.length_drop]
      omega

/-- The groups of a node are as even as possible. -/
theorem length_of_mem_childGroups {group : List Nat} (hdepth : 1 < splitDepth targets.length)
    (h : group ∈ childGroups targets) :
  targets.length / childCount targets.length ≤ group.length ∧
    childCount targets.length * group.length < targets.length + childCount targets.length
  := by
  have htwo := (childCount_bounds hdepth).1
  have hmem := length_mem_of_mem_contiguousGroups
    (by rw [sum_evenGroupSizes (by omega)]) h
  generalize childCount targets.length = g at *
  obtain ⟨i, hi, hsize⟩ := List.mem_map.mp hmem
  have hdiv := Nat.div_add_mod targets.length g
  have hmod := Nat.mod_lt targets.length (show 0 < g by omega)
  rw [← hsize]
  split
  · rw [Nat.mul_add, Nat.mul_one]
    omega
  · rw [Nat.add_zero]
    omega

/-- The trees of the groups of a node have one layer less. -/
theorem splitDepth_of_mem_childGroups {group : List Nat}
    (hdepth : 1 < splitDepth targets.length) (h : group ∈ childGroups targets) :
  splitDepth group.length = splitDepth targets.length - 1
  := by
  have hne := List.length_pos_iff.mpr (ne_nil_of_mem_childGroups hdepth h)
  obtain ⟨hlow, hhigh⟩ := length_of_mem_childGroups hdepth h
  obtain ⟨htwo, -⟩ := childCount_bounds hdepth
  have hcount : childCount targets.length
      = (targets.length + (subtreeCapacity (splitDepth targets.length - 1) - 1))
        / subtreeCapacity (splitDepth targets.length - 1) := rfl
  have hpos := subtreeCapacity_pos (splitDepth targets.length - 1)
  apply splitDepth_eq hne (by omega)
  · generalize subtreeCapacity (splitDepth targets.length - 1) = c at *
    generalize childCount targets.length = g at *
    have hceil : targets.length ≤ g * c := by
      have := Nat.lt_mul_div_succ (targets.length + (c - 1)) hpos
      rw [← hcount, Nat.mul_add, Nat.mul_one, Nat.mul_comm] at this
      omega
    have hlt : g * group.length < g * (c + 1) := by
      rw [Nat.mul_add, Nat.mul_one]
      omega
    have := Nat.lt_of_mul_lt_mul_left hlt
    omega
  · intro htall
    have hstep : subtreeCapacity (splitDepth targets.length - 1)
        = subtreeCapacity (splitDepth targets.length - 1 - 1) * 14 := by
      obtain ⟨d, hd⟩ : ∃ d, splitDepth targets.length - 1 = d + 1 :=
        ⟨splitDepth targets.length - 2, by omega⟩
      rw [hd]
      rfl
    have hpos' := subtreeCapacity_pos (splitDepth targets.length - 1 - 1)
    rw [hstep] at hcount hpos
    generalize subtreeCapacity (splitDepth targets.length - 1 - 1) = c at *
    generalize childCount targets.length = g at *
    have hmany : (g - 1) * (c * 14) < targets.length := by
      have hle : g * (c * 14) ≤ targets.length + (c * 14 - 1) := by
        rw [hcount]
        apply Nat.div_mul_le_self _ _
      obtain ⟨m, rfl⟩ : ∃ m, g = m + 1 := ⟨g - 1, by omega⟩
      rw [Nat.succ_mul] at hle
      rw [Nat.add_sub_cancel]
      omega
    have hwide : (c + 1) * g ≤ targets.length := by
      obtain ⟨m, rfl⟩ : ∃ m, g = m + 2 := ⟨g - 2, by omega⟩
      have hcm : m ≤ m * c := Nat.le_mul_of_pos_right _ hpos'
      have hsub : m + 2 - 1 = m + 1 := by omega
      rw [hsub, Nat.succ_mul, ← Nat.mul_assoc] at hmany
      rw [Nat.succ_mul, Nat.mul_add, Nat.mul_comm c m]
      omega
    have := (Nat.le_div_iff_mul_le (show 0 < g by omega)).mpr hwide
    omega

/-! ### What a split adds to a plan -/

/-- What splitting the notes `sources` into `targets` adds to a plan: the transactions in it
stay where they are, `txs` transactions of at most sixteen actions are new and fill the
`depth` layers from `layer` on, every target is minted by a funding output, and every note
that is made for another transaction is spent, but for `change`. -/
structure Splits (sources change : List PrepInput) (targets : List Nat) (txs layer depth : Nat)
    (layers layers' : List (List PrepTransaction)) : Prop where
  kept : ∀ l t tx, at? layers l t = some tx → at? layers' l t = some tx
  count : layers'.flatten.length = layers.flatten.length + txs
  actions : ∀ tx ∈ layers'.flatten, tx ∈ layers.flatten ∨ tx.actionCount ≤ 16
  filled : ∀ l, size layers l < size layers' l ↔ layer ≤ l ∧ l < layer + depth
  length : layers'.length = max layers.length (layer + depth)
  minted : (mintedValues layers').Perm (targets ++ mintedValues layers)
  spent : ∃ feeders, (allInputs layers').Perm (sources ++ (feeders ++ allInputs layers)) ∧
    (allFeeders layers').Perm (change ++ (feeders ++ allFeeders layers))

variable {layers layers' : List (List PrepTransaction)} {layer depth txs : Nat}
  {sources change : List PrepInput}

/-- Placing a transaction adds its intermediate outputs. -/
theorem allFeeders_place_perm (tx : PrepTransaction) {l : Nat} (hl : l < layers.length) :
  (allFeeders (place layers l tx)).Perm
    (feeders l (size layers l) tx.outputs ++ allFeeders layers)
  := by
  have hself : at? (place layers l tx) l (size layers l) = some tx := at?_place_self hl
  apply (List.perm_ext_iff_of_nodup (allFeeders_nodup _).of_map _).mpr
  · intro i
    rw [mem_allFeeders, List.mem_append, mem_feeders, mem_allFeeders]
    simp only [outputAt?, Option.bind_eq_some_iff]
    constructor
    · rintro ⟨k, t, o, value, ⟨tx', hat, ho⟩, rfl⟩
      rcases at?_of_place hat with hold | ⟨rfl, rfl, rfl⟩
      · exact .inr ⟨k, t, o, value, ⟨tx', hold, ho⟩, rfl⟩
      · exact .inl ⟨o, value, ho, rfl⟩
    · rintro (⟨o, value, ho, rfl⟩ | ⟨k, t, o, value, ⟨tx', hat, ho⟩, rfl⟩)
      · exact ⟨l, size layers l, o, value, ⟨tx, hself, ho⟩, rfl⟩
      · exact ⟨k, t, o, value, ⟨tx', at?_place_of_some hat, ho⟩, rfl⟩
  · rw [List.nodup_append]
    refine ⟨(feeders_nodup _ _ _).of_map _, (allFeeders_nodup _).of_map _, ?_⟩
    rintro i hi j hj rfl
    obtain ⟨o, value, -, rfl⟩ := mem_feeders.mp hi
    obtain ⟨k, t, o', value', hout, hji⟩ := mem_allFeeders.mp hj
    cases hji
    obtain ⟨tx', hat, -⟩ := Option.bind_eq_some_iff.mp hout
    exact absurd (lt_size_of_at? hat) (lt_irrefl _)

theorem allFeeders_reach {l : Nat} :
  (allFeeders (reach layers l)).Perm (allFeeders layers)
  := by
  apply (List.perm_ext_iff_of_nodup (allFeeders_nodup _).of_map
    (allFeeders_nodup _).of_map).mpr
  intro i
  simp only [mem_allFeeders, outputAt?, at?_reach]

/-- Placing a transaction that spends `source` in `layer`, which is added if it is missing. -/
theorem Splits.place {source : PrepInput} {outputs : List PrepOutput}
    (hactions : 1 + outputs.length ≤ 16) :
  Splits [source] (feeders layer (size layers layer) outputs)
    ((outputs.filterMap PrepOutput.funding?).map Zatoshis.value) 1 layer 1 layers
    (place (reach layers layer) layer ⟨[source], outputs⟩)
  := by
  have hl : layer < (reach layers layer).length := length_reach layers layer
  constructor
  · intro l t tx h
    apply at?_place_of_some
    rw [at?_reach]
    apply h
  · rw [(flatten_place_perm hl).length_eq, List.length_cons, flatten_reach]
  · intro tx h
    rcases (mem_flatten_place hl).mp h with rfl | h
    · right
      rw [PrepTransaction.actionCount, List.length_singleton]
      apply hactions
    · left
      rwa [flatten_reach] at h
  · intro l
    rw [size_place hl, size_reach]
    split <;> omega
  · rw [length_place, length_reach_eq]
  · have h := @mintedValues_place_perm _ ⟨[source], outputs⟩ _ hl
    simpa [mintedValues] using h
  · refine ⟨[], ?_, ?_⟩
    · have h := @allInputs_place_perm _ _ ⟨[source], outputs⟩ hl
      rwa [allInputs_reach] at h
    · have h := allFeeders_place_perm ⟨[source], outputs⟩ hl
      rw [size_reach] at h
      apply h.trans (allFeeders_reach.append_left _)

/-- Two splits one after the other, in the same layers. -/
theorem Splits.trans {sources₁ sources₂ : List PrepInput} {targets₁ targets₂ : List Nat}
    {txs₁ txs₂ : Nat} {mid : List (List PrepTransaction)}
    (h₁ : Splits sources₁ [] targets₁ txs₁ layer depth layers mid)
    (h₂ : Splits sources₂ [] targets₂ txs₂ layer depth mid layers') :
  Splits (sources₁ ++ sources₂) [] (targets₁ ++ targets₂) (txs₁ + txs₂) layer depth layers layers'
  := by
  constructor
  · intro l t tx h
    apply h₂.kept l t tx (h₁.kept l t tx h)
  · rw [h₂.count, h₁.count, Nat.add_assoc]
  · intro tx h
    rcases h₂.actions tx h with h | h
    · apply h₁.actions tx h
    · exact .inr h
  · intro l
    have hle₁ := size_le_of_kept h₁.kept l
    have hle₂ := size_le_of_kept h₂.kept l
    rw [← h₁.filled l]
    constructor
    · intro hlt
      by_contra hstill
      have := (h₁.filled l).mpr ((h₂.filled l).mp (by omega))
      omega
    · omega
  · rw [h₂.length, h₁.length]
    omega
  · calc (mintedValues layers').Perm (targets₂ ++ mintedValues mid) := h₂.minted
      List.Perm _ (targets₂ ++ (targets₁ ++ mintedValues layers)) := h₁.minted.append_left _
      List.Perm _ (targets₁ ++ targets₂ ++ mintedValues layers) := by
        rw [← List.append_assoc]
        apply List.perm_append_comm.append_right _
  · obtain ⟨fs₁, hin₁, hout₁⟩ := h₁.spent
    obtain ⟨fs₂, hin₂, hout₂⟩ := h₂.spent
    refine ⟨fs₁ ++ fs₂, ?_, ?_⟩
    · rw [List.perm_iff_count] at *
      intro i
      simp only [List.count_append, hin₂ i, hin₁ i]
      omega
    · rw [List.perm_iff_count] at *
      intro i
      simp only [List.count_append, List.count_nil, hout₂ i, hout₁ i]
      omega

/-- A node whose notes for its children are split in the layers below. -/
theorem Splits.node {children : List PrepInput} {mid : List (List PrepTransaction)}
    (htop : Splits sources (children ++ change) [] 1 layer 1 layers mid)
    (hbelow : Splits children [] targets txs (layer + 1) depth mid layers') :
  Splits sources change targets (1 + txs) layer (1 + depth) layers layers'
  := by
  constructor
  · intro l t tx h
    apply hbelow.kept l t tx (htop.kept l t tx h)
  · rw [hbelow.count, htop.count, Nat.add_assoc]
  · intro tx h
    rcases hbelow.actions tx h with h | h
    · apply htop.actions tx h
    · exact .inr h
  · intro l
    have hle₁ := size_le_of_kept htop.kept l
    have hle₂ := size_le_of_kept hbelow.kept l
    have hfilled₁ := htop.filled l
    have hfilled₂ := hbelow.filled l
    omega
  · rw [hbelow.length, htop.length]
    omega
  · apply hbelow.minted.trans (htop.minted.append_left _)
  · obtain ⟨fs₁, hin₁, hout₁⟩ := htop.spent
    obtain ⟨fs₂, hin₂, hout₂⟩ := hbelow.spent
    refine ⟨children ++ (fs₁ ++ fs₂), ?_, ?_⟩
    · rw [List.perm_iff_count] at *
      intro i
      simp only [List.count_append, hin₂ i, hin₁ i]
      omega
    · rw [List.perm_iff_count] at *
      intro i
      simp only [List.count_append, List.count_nil, hout₂ i, hout₁ i]
      omega

/-! ### What the split of a note builds -/

/-- The note that carries a leftover. -/
private theorem leftover_feeders {leftover : Nat} {rest : List PrepOutput}
    (h : leftoverOutputs leftover = .ok rest) (l t k : Nat) :
  ((rest.zipIdx k).filterMap (feeder? l t)).map (fun i => i.value.value)
    = if 0 < leftover then [leftover] else []
  := by
  rw [leftoverOutputs] at h
  split at h
  · rename_i hpos
    obtain ⟨value, hz, hp⟩ := Outcome.bind_eq_ok.mp h
    cases hp
    rw [if_pos hpos, ← zat_eq_ok.mp hz]
    rfl
  · rename_i hzero
    cases h
    rw [if_neg hzero]
    rfl

/-- The feeders of a leaf are its leftover. -/
private theorem feeders_leaf (l t : Nat) (values : List Zatoshis) (rest : List PrepOutput) :
  feeders l t (values.map .funding ++ rest)
    = (rest.zipIdx values.length).filterMap (feeder? l t)
  := by
  have h : ∀ k, ((values.map PrepOutput.funding).zipIdx k).filterMap (feeder? l t) = [] := by
    induction values with
    | nil => simp
    | cons value values ih =>
      intro k
      rw [List.map_cons, List.zipIdx_cons, List.filterMap_cons_none rfl, ih]
  rw [feeders, List.zipIdx_append, List.filterMap_append, h, List.length_map, Nat.zero_add,
    List.nil_append]

/-- What a source is worth beyond the cost of its split, as the values of notes. -/
def changeValues (sourceValue cost : Nat) : List Nat :=
  if cost < sourceValue then [sourceValue - cost] else []

private theorem changeValues_eq {sourceValue spent : Nat} :
  (if 0 < sourceValue - fee - spent then [sourceValue - fee - spent] else [])
    = changeValues sourceValue (spent + fee)
  := by
  rw [changeValues]
  have hsub : sourceValue - fee - spent = sourceValue - (spent + fee) := by omega
  rw [hsub]
  split
  · rw [if_pos (by omega)]
  · rw [if_neg (by omega)]

/-- What the split of a note that is worth its cost builds, with the given fuel. -/
private def SplitsExactly (fee fuel : Nat) : Prop :=
  ∀ ⦃source : PrepInput⦄ ⦃sourceValue : Nat⦄ ⦃targets : List Nat⦄ ⦃layer : Nat⦄
    ⦃layers layers' : List (List PrepTransaction)⦄,
    targets ≠ [] → 2 * targets.length ≤ u64Size →
    targets.sum + fee * splitCount targets fee ≤ sourceValue → sourceValue ≤ maxMoney →
    buildSplitWith fuel source sourceValue targets fee layer layers = .ok layers' →
    ∃ change : List PrepInput, change.map (fun i => i.value.value)
        = changeValues sourceValue (targets.sum + fee * splitCount targets fee) ∧
      Splits [source] change targets (splitCount targets fee) layer (splitDepth targets.length)
        layers layers'

/-- The children of a node are split one after the other. -/
private theorem SplitsExactly.children {fuel transaction : Nat} (ih : SplitsExactly fee fuel)
    {groups : List (List Nat)} {values : List Zatoshis} {k : Nat} (hgroups : groups ≠ [])
    (hne : ∀ group ∈ groups, group ≠ []) (hlen : ∀ group ∈ groups, 2 * group.length ≤ u64Size)
    (hdepth : ∀ group ∈ groups, splitDepth group.length = depth)
    (hcosts : values.map Zatoshis.value
      = groups.map fun group => group.sum + fee * splitCount group fee)
    (h : ((groups.zip (groups.map fun group =>
        group.sum + fee * splitCount group fee)).zipIdx k).foldlM
      (fun layers ((group, cost), output) => do
        let value ← zat cost
        buildSplitWith fuel (.prior layer transaction output value) cost group fee (layer + 1)
          layers)
      layers = .ok layers') :
  Splits (childInputs layer transaction k values) [] groups.flatten
    (groups.map fun group => splitCount group fee).sum (layer + 1) depth layers layers'
  := by
  induction groups generalizing values k layers with
  | nil => exact absurd rfl hgroups
  | cons group groups ihg =>
    rw [List.forall_mem_cons] at hne hlen hdepth
    rw [List.map_cons] at hcosts
    obtain ⟨value, values, rfl, hvalue, hrest⟩ := List.map_eq_cons_iff.mp hcosts
    rw [List.map_cons, List.zip_cons_cons, List.zipIdx_cons, List.foldlM_cons] at h
    obtain ⟨mid, hmid, h⟩ := Outcome.bind_eq_ok.mp h
    obtain ⟨value', hvalue', hmid⟩ := Outcome.bind_eq_ok.mp hmid
    obtain rfl : value' = value := Zatoshis.ext ((zat_eq_ok.mp hvalue').trans hvalue.symm)
    obtain ⟨change, hchange, hsplit⟩ :=
      ih hne.1 hlen.1 le_rfl (hvalue ▸ value'.le_maxMoney) hmid
    rw [changeValues, if_neg (lt_irrefl _), List.map_eq_nil_iff] at hchange
    rw [hchange, hdepth.1] at hsplit
    have hinputs : childInputs layer transaction k (value' :: values)
        = [.prior layer transaction k value'] ++ childInputs layer transaction (k + 1) values :=
      rfl
    rw [hinputs, List.flatten_cons, List.map_cons, List.sum_cons]
    cases groups with
    | nil =>
      cases h
      rw [List.map_nil, List.map_eq_nil_iff] at hrest
      subst hrest
      simpa [childInputs] using hsplit
    | cons group' groups =>
      apply hsplit.trans (ihg (by simp) hne.2 hlen.2 hdepth.2 hrest h)

private theorem splitsExactly (fuel : Nat) :
  SplitsExactly fee fuel
  := by
  induction fuel with
  | zero =>
    intro source sourceValue targets layer layers layers' hne hlen hcost hmax h
    cases h
  | succ fuel ih =>
    intro source sourceValue targets layer layers layers' hne hlen hcost hmax h
    have hbig : maxMoney < u64Size := by decide
    have hpos := List.length_pos_iff.mpr hne
    have hcounted : Counted targets fee := counted hne hlen
    have hone : fee ≤ fee * splitCount targets fee := Nat.le_mul_of_pos_right _ hcounted.pos
    simp only [buildSplitWith] at h
    split at h
    · rename_i hleaf
      obtain ⟨values, hvalues, h⟩ := Outcome.bind_eq_ok.mp h
      obtain ⟨rest, hrest, h⟩ := Outcome.bind_eq_ok.mp h
      cases h
      rw [mapM_zat_eq_ok] at hvalues
      have hone : splitCount targets fee = 1 := splitCount_eq (subtreeCost_leaf hleaf)
      have hdepth : splitDepth targets.length = 1 :=
        splitDepth_eq hpos le_rfl (length_le_of_leaf hleaf) (by omega)
      rw [sum64, leftover_eq hmax (by omega)] at hrest
      have hspec := leftoverOutputs_spec hrest
      have hwidth : values.length ≤ 14 := by
        rw [← List.length_map Zatoshis.value, hvalues]
        apply length_le_of_leaf hleaf
      have hactions : 1 + (values.map PrepOutput.funding ++ rest).length ≤ 16 := by
        rw [List.length_append, List.length_map]
        omega
      have hsplit : Splits [source] _ _ 1 layer 1 layers _ := Splits.place hactions
      rw [feeders_leaf, List.filterMap_append, filterMap_funding?_map_funding,
        filterMap_funding?_of_intermediate hspec.2.2.2, List.append_nil, hvalues] at hsplit
      rw [hone, hdepth]
      refine ⟨_, ?_, hsplit⟩
      rw [leftover_feeders hrest, changeValues_eq, Nat.mul_one]
    · rename_i hleaf
      have hdepth : 1 < splitDepth targets.length := by omega
      have hcounts : ∀ group ∈ childGroups targets, Counted group fee := counted_children hdepth hlen
      have htotal : ((childGroups targets).map fun group =>
          group.sum + fee * splitCount group fee).sum + fee
            = targets.sum + fee * splitCount targets fee := by
        rw [splitCount_node hdepth hlen, sum_costs, flatten_childGroups hdepth, Nat.mul_add,
          Nat.mul_one]
        omega
      have hgroups : ∀ group ∈ childGroups targets, Costed group fee := by
        intro group hgroup
        apply (hcounts group hgroup).costed
        have := mem_le_sum (List.mem_map_of_mem
          (f := fun group => group.sum + fee * splitCount group fee) hgroup)
        omega
      rw [mapM_costs hgroups] at h
      obtain ⟨costs, hcosts, h⟩ := Outcome.bind_eq_ok.mp h
      cases hcosts
      obtain ⟨values, hvalues, h⟩ := Outcome.bind_eq_ok.mp h
      obtain ⟨rest, hrest, h⟩ := Outcome.bind_eq_ok.mp h
      rw [mapM_zat_eq_ok] at hvalues
      rw [sum64, leftover_eq hmax (by omega)] at hrest
      have hspec := leftoverOutputs_spec hrest
      have hwidth : values.length ≤ 14 := by
        rw [← List.length_map Zatoshis.value, hvalues, List.length_map, length_childGroups]
        apply (childCount_bounds hdepth).2
      have hactions : 1 + (values.map PrepOutput.intermediate ++ rest).length ≤ 16 := by
        rw [List.length_append, List.length_map]
        omega
      have htop : Splits [source] _ _ 1 layer 1 layers _ := Splits.place hactions
      have hnone : ∀ o ∈ values.map PrepOutput.intermediate ++ rest,
          ∃ value, o = PrepOutput.intermediate value := by
        intro o ho
        rcases List.mem_append.mp ho with ho | ho
        · obtain ⟨v, -, rfl⟩ := List.mem_map.mp ho
          exact ⟨v, rfl⟩
        · apply hspec.2.2.2 o ho
      rw [feeders_node, filterMap_funding?_of_intermediate hnone, List.map_nil] at htop
      have hsome : childGroups targets ≠ [] := by
        rw [← List.length_pos_iff, length_childGroups]
        have := (childCount_bounds hdepth).1
        omega
      have hbelow := ih.children hsome (fun group hg => ne_nil_of_mem_childGroups hdepth hg)
        (fun group hg => by
          have := length_lt_of_mem_childGroups hdepth hg
          omega)
        (fun group hg => splitDepth_of_mem_childGroups hdepth hg) hvalues h
      rw [size_reach, flatten_childGroups hdepth] at hbelow
      have hsplit := htop.node hbelow
      have hlayers : 1 + (splitDepth targets.length - 1) = splitDepth targets.length := by omega
      rw [← splitCount_node hdepth hlen, hlayers] at hsplit
      refine ⟨_, ?_, hsplit⟩
      rw [leftover_feeders hrest, changeValues_eq, htotal]

/-! ### The balanced split -/

/-- The balanced split of a note that is worth at least the cost of a split into some
targets, which does not overflow: it mints every target, has the transactions that the cost
counts, in as many layers as the depth of the targets says, each of at most sixteen actions,
and its only unspent intermediate note is what the note is worth beyond the cost. -/
theorem buildSplit_exact {source : PrepInput} {cost : Nat} (hne : targets ≠ [])
    (hlen : 2 * targets.length ≤ u64Size) (hcost : subtreeCost targets fee = .ok (txs, cost))
    (hfits : targets.sum + fee * txs < u64Size) (hworth : cost ≤ source.value.value) :
  ∃ layers', buildSplit source source.value.value targets fee layer layers = .ok layers' ∧
    ∃ change : List PrepInput,
      change.map (fun i => i.value.value) = changeValues source.value.value cost ∧
      Splits [source] change targets txs layer (splitDepth targets.length) layers layers'
  := by
  have hcounted : Counted targets fee := counted hne hlen
  have htxs := splitCount_eq hcost
  rw [← htxs] at hfits
  have hvalue : cost = targets.sum + fee * splitCount targets fee := by
    have h := hcounted.eq
    rw [hcost, Nat.mod_eq_of_lt hfits] at h
    cases h
    omega
  rw [hvalue] at hworth
  obtain ⟨layers', h⟩ : ∃ layers', buildSplit source source.value.value targets fee layer layers
      = .ok layers' :=
    buildSplitWith_ok (Nat.lt_succ_self _) hne hlen hworth source.value.le_maxMoney
  obtain ⟨change, hchange, hsplit⟩ :=
    splitsExactly _ hne hlen hworth source.value.le_maxMoney h
  rw [← hvalue] at hchange
  rw [htxs] at hsplit
  exact ⟨layers', h, change, hchange, hsplit⟩

theorem buildSplit_exact_fifteen :
  ∃ layers', buildSplit (.wallet 0 ⟨2000, by decide⟩) 2000 (List.replicate 15 100) 10 0 []
      = .ok layers' ∧
    ∃ change : List PrepInput,
      change.map (fun i => i.value.value) = changeValues 2000 1530 ∧
      Splits [.wallet 0 ⟨2000, by decide⟩] change (List.replicate 15 100) 3 0 2 [] layers'
  := @buildSplit_exact (List.replicate 15 100) 10 [] 0 3 (.wallet 0 ⟨2000, by decide⟩) 1530
    (by decide) (by decide) (by decide +kernel) (by decide) (by decide)

/-- A split into no targets still has a transaction, in one layer more than its depth; and
where the sum of the targets wraps around, a source that is worth the cost is not split. -/
theorem buildSplit_inexact :
  (subtreeCost [] 0 = .ok (1, 0) ∧ splitDepth 0 = 0 ∧
    buildSplit (.wallet 0 ⟨0, by decide⟩) 0 [] 0 0 []
      = .ok [[⟨[.wallet 0 ⟨0, by decide⟩], []⟩]]) ∧
  (subtreeCost [u64Size - 1, 2] 0 = .ok (1, 1) ∧
    buildSplit (.wallet 0 ⟨1, by decide⟩) 1 [u64Size - 1, 2] 0 0 [] = .error .panic)
  := by
  decide +kernel

end Vizor.Planner
