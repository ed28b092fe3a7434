import Vizor.Planner.Plan

/-!
# The invariant of a plan under construction

The operations of the planner keep `Sound`: dropping live notes, placing a transaction
that spends live notes, adding empty layers, and reading the live notes off the plan.
Relabelling the unspent feeders of a sound plan as change finishes it.
-/

namespace Vizor.Planner

open Layered

variable {available : List Zatoshis} {fee : Nat} {direct : List (Nat × Zatoshis)}
  {layers : List (List PrepTransaction)} {live pool : List PrepInput} {l t o : Nat}
  {tx : PrepTransaction}

/-! ### Backed notes -/

/-- A note backed by a plan stays backed when a transaction is placed. -/
theorem Backed.place {i : PrepInput} (h : Backed available layers i) :
  Backed available (place layers l tx) i
  := by
  cases i with
  | wallet index value => exact h
  | prior layer transaction output value =>
    simp only [Backed, outputAt?, Option.bind_eq_some_iff] at h ⊢
    obtain ⟨tx', hat, ho⟩ := h
    exact ⟨tx', at?_place_of_some hat, ho⟩

theorem Backed.reach {i : PrepInput} (h : Backed available layers i) :
  Backed available (reach layers l) i
  := by
  cases i with
  | wallet index value => exact h
  | prior layer transaction output value => simpa [Backed, outputAt?] using h

/-- The feeders of a placed transaction are backed. -/
theorem Backed.feeders_place {i : PrepInput} (hl : l < layers.length)
    (hi : i ∈ feeders l (size layers l) tx.outputs) :
  Backed available (Layered.place layers l tx) i
  := by
  obtain ⟨o, value, ho, rfl⟩ := mem_feeders.mp hi
  simp only [Backed, outputAt?, Option.bind_eq_some_iff]
  exact ⟨tx, at?_place_self hl, ho⟩

/-- A backed note does not have the address of an output that is yet to be placed. -/
theorem Backed.source_ne {i : PrepInput} (h : Backed available layers i) :
  i.source ≠ .inr (l, size layers l, o)
  := by
  cases i with
  | wallet index value => simp [PrepInput.source]
  | prior layer transaction output value =>
    simp only [Backed, outputAt?, Option.bind_eq_some_iff] at h
    obtain ⟨tx', hat, -⟩ := h
    have := lt_size_of_at? hat
    simp only [PrepInput.source, ne_eq, Sum.inr.injEq, Prod.mk.injEq]
    rintro ⟨rfl, rfl, -⟩
    omega

/-! ### The inputs of a plan -/

theorem allInputs_place_perm (hl : l < layers.length) :
  (allInputs (place layers l tx)).Perm (tx.inputs ++ allInputs layers)
  := (flatten_place_perm hl).flatMap_right _

@[simp]
theorem allInputs_reach :
  allInputs (reach layers l) = allInputs layers
  := by
  simp [allInputs]

@[simp]
theorem usedSources_reach :
  usedSources direct (reach layers l) = usedSources direct layers
  := by
  simp [usedSources]

/-- The transactions placed so far and the one being placed mint the funding of both. -/
theorem mintedFunding_place_perm (tx : PrepTransaction) (hl : l < layers.length) :
  (mintedFunding (place layers l tx).flatten).Perm
    (tx.outputs.filterMap PrepOutput.funding? ++ mintedFunding layers.flatten)
  := (flatten_place_perm hl).flatMap_right _

/-! ### Operations on sound plans -/

/-- The empty plan is sound when its live notes are distinct wallet notes that are not
used directly. -/
theorem Sound.nil (hd : ∀ note ∈ direct, available[note.1]? = some note.2)
    (hl : ∀ i ∈ live, Backed available [] i)
    (hn : (direct.map (fun note : Nat × Zatoshis => Sum.inl note.1) ++
      live.map PrepInput.source).Nodup) :
  Sound available fee direct [] live
  where
  nodup := by simpa [usedSources, allInputs] using hn
  actions := by simp
  conserves := by simp
  noChange := by simp
  ready := by simp [at?]
  backed := by simp [allInputs]
  direct_backed := hd
  live_backed := hl

/-- Live notes can be dropped and reordered. -/
theorem Sound.subperm (h : Sound available fee direct layers live) (hs : pool.Subperm live) :
  Sound available fee direct layers pool
  where
  nodup := by
    obtain ⟨live', hp, hsub⟩ := hs
    have hn : (usedSources direct layers ++ live'.map PrepInput.source).Nodup :=
      h.nodup.sublist ((List.Sublist.refl _).append (hsub.map _))
    apply ((hp.map _).append_left _).nodup_iff.mp hn
  actions := h.actions
  conserves := h.conserves
  noChange := h.noChange
  ready := h.ready
  backed := h.backed
  direct_backed := h.direct_backed
  live_backed := fun i hi => h.live_backed i (hs.subset hi)

theorem Sound.perm (h : Sound available fee direct layers live) (hp : live.Perm pool) :
  Sound available fee direct layers pool
  := h.subperm hp.symm.subperm

/-- Empty layers can be added. -/
theorem Sound.reach (h : Sound available fee direct layers live) :
  Sound available fee direct (reach layers l) live
  where
  nodup := by simpa using h.nodup
  actions := by simpa using h.actions
  conserves := by simpa using h.conserves
  noChange := by simpa using h.noChange
  ready := by simpa using h.ready
  backed := fun i hi => (h.backed i (by simpa using hi)).reach
  direct_backed := h.direct_backed
  live_backed := fun i hi => (h.live_backed i hi).reach

private theorem nodup_insert_feeders {α : Type} {D A I V F : List α}
    (hn : ((D ++ A) ++ (I ++ V)).Nodup) (hF : F.Nodup)
    (hdis : ∀ s ∈ F, s ∉ D ∧ s ∉ A ∧ s ∉ I ∧ s ∉ V) :
  ((D ++ (I ++ A)) ++ (F ++ V)).Nodup
  := by
  classical
  have hperm : ((D ++ (I ++ A)) ++ (F ++ V)).Perm (F ++ ((D ++ A) ++ (I ++ V))) := by
    rw [List.perm_iff_count]
    intro s
    simp only [List.count_append]
    omega
  rw [hperm.nodup_iff, List.nodup_append']
  refine ⟨hF, hn, ?_⟩
  intro s hs hs'
  obtain ⟨hD, hA, hI, hV⟩ := hdis s hs
  simp only [List.mem_append] at hs'
  tauto

/-- A transaction that spends live notes can be placed in a layer after those that
produced them; its intermediate outputs become live. -/
theorem Sound.place (tx : PrepTransaction)
    (h : Sound available fee direct layers (tx.inputs ++ live))
    (hl : l < layers.length) (hready : ∀ i ∈ tx.inputs, i.readyAt ≤ l)
    (hactions : tx.actionCount ≤ prepTxActions)
    (hconserves : tx.inputTotal = tx.outputTotal + fee)
    (hchange : ∀ value, .change value ∉ tx.outputs) :
  Sound available fee direct (place layers l tx)
    (feeders l (size layers l) tx.outputs ++ live)
  where
  nodup := by
    have hfresh : ∀ s ∈ (feeders l (size layers l) tx.outputs).map PrepInput.source,
        ∃ o, s = .inr (l, size layers l, o) := by
      intro s hs
      obtain ⟨i, hi, rfl⟩ := List.mem_map.mp hs
      obtain ⟨o, value, -, rfl⟩ := mem_feeders.mp hi
      exact ⟨o, rfl⟩
    have hinputs : ((allInputs (Layered.place layers l tx)).map PrepInput.source).Perm
        (tx.inputs.map PrepInput.source ++ (allInputs layers).map PrepInput.source) := by
      rw [← List.map_append]
      apply (allInputs_place_perm hl).map _
    have hn := h.nodup
    rw [usedSources, List.map_append] at hn
    rw [usedSources, List.map_append,
      ((hinputs.append_left (direct.map fun note => Sum.inl note.1)).append_right _).nodup_iff]
    apply nodup_insert_feeders hn (feeders_nodup _ _ _)
    intro s hs
    obtain ⟨o, rfl⟩ := hfresh s hs
    have hne : ∀ notes : List PrepInput, (∀ i ∈ notes, Backed available layers i) →
        Sum.inr (l, size layers l, o) ∉ notes.map PrepInput.source := by
      intro notes hnotes hmem
      obtain ⟨i, hi, hsource⟩ := List.mem_map.mp hmem
      apply (hnotes i hi).source_ne hsource
    refine ⟨by simp, hne _ h.backed, hne _ ?_, hne _ ?_⟩
    · exact fun i hi => h.live_backed i (List.mem_append_left _ hi)
    · exact fun i hi => h.live_backed i (List.mem_append_right _ hi)
  actions := by
    intro tx' htx'
    rcases (mem_flatten_place hl).mp htx' with rfl | hold
    · apply hactions
    · apply h.actions tx' hold
  conserves := by
    intro tx' htx'
    rcases (mem_flatten_place hl).mp htx' with rfl | hold
    · apply hconserves
    · apply h.conserves tx' hold
  noChange := by
    intro tx' htx'
    rcases (mem_flatten_place hl).mp htx' with rfl | hold
    · apply hchange
    · apply h.noChange tx' hold
  ready := by
    intro k u tx' hat i hi
    rcases at?_of_place hat with hold | ⟨rfl, -, rfl⟩
    · apply h.ready k u tx' hold i hi
    · apply hready i hi
  backed := by
    intro i hi
    rw [(allInputs_place_perm hl).mem_iff, List.mem_append] at hi
    apply Backed.place
    rcases hi with hi | hi
    · apply h.live_backed i (List.mem_append_left _ hi)
    · apply h.backed i hi
  direct_backed := h.direct_backed
  live_backed := by
    intro i hi
    rcases List.mem_append.mp hi with hi | hi
    · apply Backed.feeders_place hl hi
    · apply (h.live_backed i (List.mem_append_right _ hi)).place

/-- The unconsumed feeders of a sound plan are live. -/
theorem Sound.unconsumedFeeders (h : Sound available fee direct layers live) :
  Sound available fee direct layers (unconsumedFeeders layers)
  where
  nodup := by
    have hused : (usedSources direct layers).Nodup := (List.nodup_append'.mp h.nodup).1
    rw [List.nodup_append']
    refine ⟨hused, ?_, ?_⟩
    · apply (allFeeders_nodup layers).sublist (List.filter_sublist.map _)
    · intro s hs hs'
      obtain ⟨i, hi, rfl⟩ := List.mem_map.mp hs'
      obtain ⟨hfeeder, hfree⟩ := mem_unconsumedFeeders.mp hi
      obtain ⟨l, t, o, value, -, rfl⟩ := mem_allFeeders.mp hfeeder
      rcases List.mem_append.mp hs with hs | hs
      · simp [PrepInput.source] at hs
      · apply hfree hs
  actions := h.actions
  conserves := h.conserves
  noChange := h.noChange
  ready := h.ready
  backed := h.backed
  direct_backed := h.direct_backed
  live_backed := by
    intro i hi
    obtain ⟨l, t, o, value, ho, rfl⟩ := mem_allFeeders.mp (mem_unconsumedFeeders.mp hi).1
    apply ho

/-! ### Covering the unconsumed feeders -/

/-- A list of notes covers a plan when it has every unconsumed feeder of the plan. -/
def Covers (layers : List (List PrepTransaction)) (live : List PrepInput) : Prop :=
  ∀ i ∈ unconsumedFeeders layers, i ∈ live

/-- A placed transaction replaces the notes it spends by its feeders. -/
theorem Covers.place (tx : PrepTransaction) (h : Covers layers (tx.inputs ++ live))
    (hl : l < layers.length) :
  Covers (Layered.place layers l tx) (feeders l (size layers l) tx.outputs ++ live)
  := by
  intro i hi
  obtain ⟨hfeeder, hfree⟩ := mem_unconsumedFeeders.mp hi
  obtain ⟨k, u, o, value, ho, rfl⟩ := mem_allFeeders.mp hfeeder
  have hsources : ((allInputs (Layered.place layers l tx)).map PrepInput.source).Perm
      ((tx.inputs ++ allInputs layers).map PrepInput.source) :=
    (allInputs_place_perm hl).map _
  rw [hsources.mem_iff, List.map_append, List.mem_append, not_or] at hfree
  obtain ⟨tx', hat, hout⟩ := Option.bind_eq_some_iff.mp ho
  rw [List.mem_append]
  rcases at?_of_place hat with hold | ⟨rfl, rfl, rfl⟩
  · right
    have hopen : PrepInput.prior k u o value ∈ Planner.unconsumedFeeders layers := by
      rw [mem_unconsumedFeeders, mem_allFeeders]
      refine ⟨⟨k, u, o, value, ?_, rfl⟩, hfree.2⟩
      apply Option.bind_eq_some_iff.mpr ⟨tx', hold, hout⟩
    rcases List.mem_append.mp (h _ hopen) with hin | hlive
    · exact absurd (List.mem_map_of_mem hin) hfree.1
    · apply hlive
  · left
    apply mem_feeders.mpr ⟨o, value, hout, rfl⟩

/-- Layers without transactions have no feeders. -/
theorem Covers.reach (h : Covers layers live) :
  Covers (Layered.reach layers l) live
  := by
  intro i hi
  rw [mem_unconsumedFeeders, mem_allFeeders] at hi
  simp only [allInputs_reach, outputAt?, at?_reach] at hi
  apply h
  rw [mem_unconsumedFeeders, mem_allFeeders]
  apply hi

theorem Covers.append_nil (h : Covers layers live) :
  Covers (layers ++ [[]]) live
  := by
  have hreach : Layered.reach layers layers.length = layers ++ [[]] := by simp [Layered.reach]
  rw [← hreach]
  apply h.reach

/-- There are at most as many unconsumed feeders as notes that cover them. -/
theorem Covers.length_le (h : Covers layers live) :
  (unconsumedFeeders layers).length ≤ live.length
  := by
  have hn : (Planner.unconsumedFeeders layers).Nodup :=
    ((allFeeders_nodup layers).of_map _).filter _
  apply (List.subperm_of_subset hn h).length_le

/-! ### Finishing a plan -/

theorem relabelOutput_value (spent : List OutputRef) (l t o : Nat) (output : PrepOutput) :
  (relabelOutput spent l t o output).value = output.value
  := by
  cases output with
  | intermediate value =>
    simp only [relabelOutput]
    split <;> rfl
  | funding value => rfl
  | change value => rfl

theorem relabelOutput_funding? (spent : List OutputRef) (l t o : Nat) (output : PrepOutput) :
  (relabelOutput spent l t o output).funding? = output.funding?
  := by
  cases output with
  | intermediate value =>
    simp only [relabelOutput]
    split <;> rfl
  | funding value => rfl
  | change value => rfl

theorem relabelOutput_eq_intermediate {spent : List OutputRef} {output : PrepOutput}
    {value : Zatoshis} :
  relabelOutput spent l t o output = .intermediate value
    ↔ output = .intermediate value ∧ (l, t, o) ∈ spent
  := by
  cases output with
  | intermediate v =>
    simp only [relabelOutput]
    split <;> simp_all
  | funding v => simp [relabelOutput]
  | change v => simp [relabelOutput]

/-- A transaction with its outputs relabelled. -/
def relabelTransaction (spent : List OutputRef) (l t : Nat) (tx : PrepTransaction) :
    PrepTransaction :=
  { tx with outputs := tx.outputs.mapIdx (relabelOutput spent l t) }

theorem at?_relabelUnspent :
  at? (relabelUnspent layers) l t
    = (at? layers l t).map (relabelTransaction (spentOutputs layers) l t)
  := by
  simp only [at?, relabelUnspent, List.getElem?_mapIdx]
  cases layers[l]? with
  | none => rfl
  | some txs =>
    simp only [Option.map_some, Option.bind_some, List.getElem?_mapIdx]
    rfl

theorem outputAt?_relabelUnspent :
  outputAt? (relabelUnspent layers) l t o
    = (outputAt? layers l t o).map (relabelOutput (spentOutputs layers) l t o)
  := by
  rw [outputAt?, outputAt?, at?_relabelUnspent]
  cases at? layers l t with
  | none => rfl
  | some tx => simp [relabelTransaction, List.getElem?_mapIdx]

/-- A transaction of the relabelled plan is the relabelling of one of the plan. -/
theorem mem_flatten_relabelUnspent (h : tx ∈ (relabelUnspent layers).flatten) :
  ∃ l t, ∃ tx' ∈ layers.flatten, tx = relabelTransaction (spentOutputs layers) l t tx'
  := by
  obtain ⟨l, t, hat⟩ := mem_flatten_iff.mp h
  rw [at?_relabelUnspent, Option.map_eq_some_iff] at hat
  obtain ⟨tx', hat', rfl⟩ := hat
  exact ⟨l, t, tx', mem_flatten_iff.mpr ⟨l, t, hat'⟩, rfl⟩

private theorem flatMap_mapIdx {α β : Type} {f g : α → List β} {k : Nat → α → α}
    (h : ∀ i a, f (k i a) = g a) (xs : List α) :
  (xs.mapIdx k).flatMap f = xs.flatMap g
  := by
  induction xs generalizing k with
  | nil => rfl
  | cons x xs ih =>
    rw [List.mapIdx_cons, List.flatMap_cons, List.flatMap_cons, h, ih]
    intro i a
    apply h

/-- Relabelling does not change what is read off a transaction when it does not change
what is read off its relabelling. -/
private theorem flatMap_relabelUnspent {β : Type} {f : PrepTransaction → List β}
    (h : ∀ spent l t tx, f (relabelTransaction spent l t tx) = f tx) :
  (relabelUnspent layers).flatten.flatMap f = layers.flatten.flatMap f
  := by
  rw [← List.flatMap_id, List.flatMap_assoc, ← List.flatMap_id, List.flatMap_assoc]
  apply flatMap_mapIdx
  intro l txs
  apply flatMap_mapIdx
  intro t tx
  apply h

theorem allInputs_relabelUnspent :
  allInputs (relabelUnspent layers) = allInputs layers
  := flatMap_relabelUnspent fun _ _ _ _ => rfl

theorem spentOutputs_relabelUnspent :
  spentOutputs (relabelUnspent layers) = spentOutputs layers
  := flatMap_relabelUnspent fun _ _ _ _ => rfl

private theorem filterMap_mapIdx {α β : Type} {f : α → Option β} {k : Nat → α → α}
    (h : ∀ i a, f (k i a) = f a) (xs : List α) :
  (xs.mapIdx k).filterMap f = xs.filterMap f
  := by
  induction xs generalizing k with
  | nil => rfl
  | cons x xs ih =>
    rw [List.mapIdx_cons, List.filterMap_cons, List.filterMap_cons, h, ih]
    intro i a
    apply h

private theorem map_mapIdx {α β : Type} {f : α → β} {k : Nat → α → α}
    (h : ∀ i a, f (k i a) = f a) (xs : List α) :
  (xs.mapIdx k).map f = xs.map f
  := by
  have h' := filterMap_mapIdx (f := fun a => some (f a)) (fun i a => congrArg some (h i a)) xs
  simpa only [List.filterMap_eq_map'] using h'

theorem mintedFunding_relabelUnspent :
  mintedFunding (relabelUnspent layers).flatten = mintedFunding layers.flatten
  := by
  apply flatMap_relabelUnspent
  intro spent l t tx
  apply filterMap_mapIdx
  intro i output
  apply relabelOutput_funding?

theorem relabelTransaction_outputTotal (spent : List OutputRef) (l t : Nat)
    (tx : PrepTransaction) :
  (relabelTransaction spent l t tx).outputTotal = tx.outputTotal
  := by
  rw [PrepTransaction.outputTotal, PrepTransaction.outputTotal, relabelTransaction, map_mapIdx]
  intro i output
  rw [relabelOutput_value]

/-- The wallet notes among inputs are those whose sources are wallet indices. -/
private theorem map_fst_walletNotes (inputs : List PrepInput) :
  ((walletNotes inputs).map fun note => (Sum.inl note.1 : Nat ⊕ OutputRef)).Sublist
    (inputs.map PrepInput.source)
  := by
  apply map_filterMap_sublist
  intro i note h
  cases i with
  | wallet index value =>
    cases h
    rfl
  | prior l t o value => cases h

/-- Relabelling the unspent feeders of a sound plan finishes it: the result meets what
was requested, provided that the plan mints or uses directly the requested notes. -/
theorem Sound.meets {fee : Zatoshis} {requested : List Zatoshis}
    (h : Sound available fee.value direct layers live)
    (hf : (mintedFunding layers.flatten ++ direct.map Prod.snd).Perm requested) :
  Meets available fee requested ⟨relabelUnspent layers, direct⟩
  where
  actions := by
    intro tx htx
    obtain ⟨l, t, tx', htx', rfl⟩ := mem_flatten_relabelUnspent htx
    have := h.actions tx' htx'
    simpa [PrepTransaction.actionCount, relabelTransaction, prepTxActions] using this
  conserves := by
    intro tx htx
    obtain ⟨l, t, tx', htx', rfl⟩ := mem_flatten_relabelUnspent htx
    rw [relabelTransaction_outputTotal]
    apply h.conserves tx' htx'
  walletOnce := by
    have hused : (usedSources direct layers).Nodup := (List.nodup_append'.mp h.nodup).1
    have hsub : ((direct ++ walletNotes (allInputs layers)).map
        fun note => (Sum.inl note.1 : Nat ⊕ OutputRef)).Sublist (usedSources direct layers) := by
      rw [List.map_append, usedSources]
      apply (List.Sublist.refl _).append (map_fst_walletNotes _)
    have hn := hused.sublist hsub
    rw [allInputs_relabelUnspent]
    rw [show (fun note : Nat × Zatoshis => (Sum.inl note.1 : Nat ⊕ OutputRef))
      = Sum.inl ∘ Prod.fst from rfl, ← List.map_map] at hn
    apply hn.of_map _
  walletValue := by
    intro note hnote
    rw [allInputs_relabelUnspent, List.mem_append] at hnote
    rcases hnote with hnote | hnote
    · apply h.direct_backed note hnote
    · obtain ⟨i, hi, hw⟩ := List.mem_filterMap.mp hnote
      have hb := h.backed i hi
      cases i with
      | wallet index value =>
        cases hw
        apply hb
      | prior l t o value => cases hw
  priorEarlier := by
    intro layer transaction tx hat l t o value hi
    rw [at?_relabelUnspent, Option.map_eq_some_iff] at hat
    obtain ⟨tx', hat', rfl⟩ := hat
    have hmem : PrepInput.prior l t o value ∈ allInputs layers := by
      rw [mem_allInputs]
      exact ⟨tx', mem_flatten_iff.mpr ⟨layer, transaction, hat'⟩, hi⟩
    constructor
    · apply h.ready layer transaction tx' hat' _ hi
    · rw [outputAt?_relabelUnspent, h.backed _ hmem, Option.map_some, Option.some_inj,
        relabelOutput_eq_intermediate, mem_spentOutputs]
      exact ⟨rfl, List.mem_map_of_mem hmem⟩
  spentOnce := by
    intro l t o value ho
    rw [outputAt?_relabelUnspent, Option.map_eq_some_iff] at ho
    obtain ⟨output, -, hr⟩ := ho
    have hspent := (relabelOutput_eq_intermediate.mp hr).2
    rw [spentOutputs_relabelUnspent]
    apply List.count_eq_one_of_mem _ hspent
    have hused : (usedSources direct layers).Nodup := (List.nodup_append'.mp h.nodup).1
    have hsources := (List.nodup_append'.mp hused).2.1
    have hsub : ((spentOutputs layers).map Sum.inr).Sublist
        ((allInputs layers).map PrepInput.source) := by
      have hflat : spentOutputs layers = (allInputs layers).filterMap PrepInput.priorRef? := by
        rw [spentOutputs, allInputs, List.filterMap_flatMap]
      rw [hflat]
      apply map_filterMap_sublist
      intro i ref href
      apply (priorRef?_eq_some.mp href).symm
    apply (hsources.sublist hsub).of_map _
  funding := by
    rw [PreparationPlan.fundingNotes, mintedFunding_relabelUnspent]
    apply hf

end Vizor.Planner
