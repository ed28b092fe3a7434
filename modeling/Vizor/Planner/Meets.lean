import Vizor.Planner.Greedy

/-!
# The plans of the preparation planner

Both planners start from the wallet notes that are not used directly, and both finish with
a sound plan that mints the funding values still to produce.  Neither runs out of fuel.
-/

namespace Vizor.Planner

open Layered

variable {available funding : List Zatoshis} {direct : List (Nat × Zatoshis)}
  {layers layers' : List (List PrepTransaction)} {current : List PrepInput}
  {used used' : List Bool} {remaining values targets : List Nat} {fee : Nat} {S : NoteSort}

/-! ### Direct funding -/

theorem findUnused_eq_some {funding index : Nat}
    (h : findUnused (available.map Zatoshis.value) used funding = some index) :
  ∃ value, available[index]? = some value ∧ value.value = funding ∧ used[index]? = some false
  := by
  rw [findUnused, List.findIdx?_eq_some_iff_getElem] at h
  obtain ⟨hlt, hmatch, -⟩ := h
  have hav : index < available.length := by
    rw [List.length_zip, List.length_map] at hlt
    omega
  have hused : index < used.length := by
    rw [List.length_zip] at hlt
    omega
  simp only [List.getElem_zip, List.getElem_map, Bool.and_eq_true, Bool.not_eq_true',
    beq_iff_eq] at hmatch
  use available[index]
  rw [List.getElem?_eq_getElem hav, List.getElem?_eq_getElem hused, hmatch.1]
  exact ⟨rfl, hmatch.2, rfl⟩

/-- The state of the exact-match pass: the mask only grows, the matched notes are distinct,
were free and are marked, and the values are split into matched and remaining ones. -/
structure Matched (available : List Zatoshis) (used used' : List Bool)
    (direct : List (Nat × Zatoshis)) (values remaining : List Nat) : Prop where
  marked : ∀ i : Nat, used[i]? = some true → used'[i]? = some true
  backed : ∀ note ∈ direct, available[note.1]? = some note.2
  free : ∀ note ∈ direct, used[note.1]? = some false
  taken : ∀ note ∈ direct, used'[note.1]? = some true
  distinct : (direct.map Prod.fst).Nodup
  split : (remaining ++ direct.map fun note => note.2.value).Perm values

theorem extractDirectFunding_spec
    (h : extractDirectFunding (available.map Zatoshis.value) values used
      = .ok (used', direct, remaining)) :
  Matched available used used' direct values remaining
  := by
  induction values generalizing used used' direct remaining with
  | nil =>
    cases h
    exact ⟨fun i hi => hi, by simp, by simp, by simp, by simp, by simp⟩
  | cons v vs ih =>
    rw [extractDirectFunding] at h
    split at h
    · rename_i index hfind
      obtain ⟨value, hvalue, h⟩ := Outcome.bind_eq_ok.mp h
      obtain ⟨⟨u, d, r⟩, hrec, h⟩ := Outcome.bind_eq_ok.mp h
      cases h
      obtain ⟨note, hav, hnote, hfree⟩ := findUnused_eq_some hfind
      rw [zat_eq_ok] at hvalue
      have hsame : note = value := Zatoshis.ext (by omega)
      subst hsame
      have hlt : index < used.length := (List.getElem?_eq_some_iff.mp hfree).1
      have hm := ih hrec
      have hne : ∀ d' ∈ d, d'.1 ≠ index := by
        intro d' hd' heq
        have := hm.free d' hd'
        rw [heq, List.getElem?_set_self hlt] at this
        cases this
      refine ⟨?_, ?_, ?_, ?_, ?_, ?_⟩
      · intro i hi
        apply hm.marked
        by_cases heq : index = i
        · rw [← heq, List.getElem?_set_self hlt]
        · rw [List.getElem?_set_ne heq]
          apply hi
      · rw [List.forall_mem_cons]
        exact ⟨hav, hm.backed⟩
      · rw [List.forall_mem_cons]
        refine ⟨hfree, fun d' hd' => ?_⟩
        have := hm.free d' hd'
        rwa [List.getElem?_set_ne (hne d' hd').symm] at this
      · rw [List.forall_mem_cons]
        exact ⟨hm.marked _ (List.getElem?_set_self hlt), hm.taken⟩
      · rw [List.map_cons, List.nodup_cons]
        refine ⟨?_, hm.distinct⟩
        intro hmem
        obtain ⟨d', hd', heq⟩ := List.mem_map.mp hmem
        apply hne d' hd' heq
      · rw [List.map_cons, hnote]
        apply List.perm_middle.trans (hm.split.cons v)
    · obtain ⟨⟨u, d, r⟩, hrec, h⟩ := Outcome.bind_eq_ok.mp h
      cases h
      have hm := ih hrec
      exact ⟨hm.marked, hm.backed, hm.free, hm.taken, hm.distinct, hm.split.cons v⟩

private theorem extractDirectFunding_ne_outOfFuel {available : List Nat} :
  extractDirectFunding available values used ≠ .error .outOfFuel
  := by
  induction values generalizing used with
  | nil => simp [extractDirectFunding]
  | cons v vs ih =>
    rw [extractDirectFunding]
    split
    · simp only [ne_eq, Outcome.bind_eq_outOfFuel]
      rintro (h | ⟨value, -, h | ⟨r, -, h⟩⟩)
      · apply zat_ne_outOfFuel _ h
      · apply ih h
      · cases h
    · simp only [ne_eq, Outcome.bind_eq_outOfFuel]
      rintro (h | ⟨r, -, h⟩)
      · apply ih h
      · cases h

/-! ### The unused wallet notes -/

theorem mem_unusedNotes {note : Nat × Nat} :
  note ∈ unusedNotes (available.map Zatoshis.value) used ↔
    (∃ value, available[note.1]? = some value ∧ value.value = note.2) ∧
      used[note.1]? = some false
  := by
  simp only [unusedNotes, List.mem_filterMap, Prod.exists, List.mem_zipIdx_iff_getElem?,
    List.getElem?_zip_eq_some, List.getElem?_map, Option.map_eq_some_iff]
  constructor
  · rintro ⟨v, u, i, ⟨⟨value, hav, rfl⟩, hu⟩, hn⟩
    split at hn
    · cases hn
    · rename_i hfalse
      cases hn
      rw [Bool.not_eq_true] at hfalse
      exact ⟨⟨value, hav, rfl⟩, hfalse ▸ hu⟩
  · rintro ⟨⟨value, hav, hv⟩, hu⟩
    exact ⟨note.2, false, note.1, ⟨⟨value, hav, hv⟩, hu⟩, by simp⟩

theorem unusedNotes_nodup (available : List Nat) (used : List Bool) :
  ((unusedNotes available used).map Prod.fst).Nodup
  := by
  have hs : ((unusedNotes available used).map Prod.fst).Sublist
      ((available.zip used).zipIdx.map Prod.snd) := by
    apply map_filterMap_sublist
    rintro ⟨⟨v, u⟩, i⟩ note hn
    dsimp only at hn
    split at hn
    · cases hn
    · cases hn
      rfl
  apply hs.nodup
  rw [List.zipIdx_map_snd]
  exact List.nodup_range'

private theorem foldl_largest_mem (note : Nat × Nat) (notes : List (Nat × Nat)) :
  notes.foldl (fun best n => if n.2 < best.2 then best else n) note ∈ note :: notes
  := by
  induction notes generalizing note with
  | nil => simp
  | cons n ns ih =>
    rw [List.foldl_cons]
    have hbest : (if n.2 < note.2 then note else n) ∈ [note, n] := by
      split <;> simp
    have hfold := List.mem_cons.mp (ih (if n.2 < note.2 then note else n))
    generalize (if n.2 < note.2 then note else n) = best at *
    simp only [List.mem_cons, List.not_mem_nil, or_false] at hbest ⊢
    rcases hfold with hfold | hfold
    · rw [hfold]
      tauto
    · tauto

theorem lastLargest_mem {notes : List (Nat × Nat)} {note : Nat × Nat}
    (h : lastLargest notes = some note) :
  note ∈ notes
  := by
  cases notes with
  | nil => cases h
  | cons n ns =>
    rw [lastLargest, Option.some_inj] at h
    rw [← h]
    exact foldl_largest_mem n ns

theorem walletInputs_eq_ok {notes : List (Nat × Nat)} {inputs : List PrepInput}
    (h : walletInputs notes = .ok inputs) :
  inputs.map PrepInput.source = notes.map (fun note => Sum.inl note.1) ∧
    ∀ i ∈ inputs, ∃ index value, i = .wallet index value ∧ (index, value.value) ∈ notes
  := by
  induction notes generalizing inputs with
  | nil =>
    cases h
    simp
  | cons note notes ih =>
    rw [walletInputs, List.mapM_cons] at h
    obtain ⟨input, hinput, h⟩ := Outcome.bind_eq_ok.mp h
    obtain ⟨value, hvalue, hinput⟩ := Outcome.bind_eq_ok.mp hinput
    obtain ⟨rest, hrest, h⟩ := Outcome.bind_eq_ok.mp h
    cases hinput
    cases h
    rw [zat_eq_ok] at hvalue
    obtain ⟨hsources, hmem⟩ := ih hrest
    constructor
    · rw [List.map_cons, List.map_cons, hsources]
      rfl
    · intro i hi
      rcases List.mem_cons.mp hi with rfl | hi
      · exact ⟨note.1, value, rfl, by rw [hvalue]; exact List.mem_cons_self⟩
      · obtain ⟨index, v, rfl, hv⟩ := hmem i hi
        exact ⟨index, v, rfl, List.mem_cons_of_mem _ hv⟩

private theorem walletInputs_ne_outOfFuel {notes : List (Nat × Nat)} :
  walletInputs notes ≠ .error .outOfFuel
  := by
  apply Outcome.mapM_ne_outOfFuel
  rintro ⟨index, value⟩ -
  simp only [ne_eq, Outcome.bind_eq_outOfFuel]
  rintro (h | ⟨v, -, h⟩)
  · apply zat_ne_outOfFuel _ h
  · cases h

/-- The empty plan is sound with any distinct unused wallet notes live. -/
theorem Matched.sound {notes : List (Nat × Nat)}
    (h : Matched available used used' direct values remaining)
    (hnotes : notes.Sublist (unusedNotes (available.map Zatoshis.value) used'))
    (hinputs : walletInputs notes = .ok current) :
  Sound available fee direct [] current ∧ ∀ i ∈ current, i.readyAt ≤ 0
  := by
  obtain ⟨hsources, hmem⟩ := walletInputs_eq_ok hinputs
  have hunused : ∀ note ∈ notes, used'[note.1]? = some false := fun note hnote =>
    (mem_unusedNotes.mp (hnotes.subset hnote)).2
  constructor
  · apply Sound.nil h.backed
    · intro i hi
      obtain ⟨index, value, rfl, hnote⟩ := hmem i hi
      obtain ⟨⟨v, hav, hv⟩, -⟩ := mem_unusedNotes.mp (hnotes.subset hnote)
      have : v = value := Zatoshis.ext hv
      rw [Backed, ← this]
      apply hav
    · rw [hsources, List.nodup_append']
      refine ⟨?_, ?_, ?_⟩
      · have := h.distinct.map (f := (Sum.inl : Nat → Nat ⊕ OutputRef)) Sum.inl_injective
        rwa [List.map_map] at this
      · have := ((hnotes.map Prod.fst).nodup (unusedNotes_nodup _ _)).map
          (f := (Sum.inl : Nat → Nat ⊕ OutputRef)) Sum.inl_injective
        rwa [List.map_map] at this
      · intro s hs hs'
        obtain ⟨d, hd, rfl⟩ := List.mem_map.mp hs
        obtain ⟨note, hnote, heq⟩ := List.mem_map.mp hs'
        have := h.taken d hd
        rw [← Sum.inl_injective heq, hunused note hnote] at this
        cases this
  · intro i hi
    obtain ⟨index, value, rfl, -⟩ := hmem i hi
    exact le_rfl

/-! ### The requested values -/

/-- The requested amounts that are positive. -/
def requestedNotes (funding : List Zatoshis) : List Zatoshis :=
  funding.filter fun v => 0 < v.value

theorem positiveFunding_perm (funding : List Zatoshis) :
  (positiveFunding funding).Perm ((requestedNotes funding).map Zatoshis.value)
  := by
  have hfilter : (funding.map Zatoshis.value).filter (fun v => 0 < v)
      = (requestedNotes funding).map Zatoshis.value := List.filter_map
  rw [positiveFunding, sortDescending, hfilter]
  apply List.perm_insertionSort _ _

/-- A sound plan that mints what the exact-match pass left finishes as requested. -/
theorem Matched.meets {fee : Zatoshis}
    (h : Matched available used used' direct (positiveFunding funding) remaining)
    (hs : Sound available fee.value direct layers [])
    (hm : (mintedValues layers).Perm remaining) :
  Meets available fee (requestedNotes funding) ⟨relabelUnspent layers, direct⟩
  := by
  apply hs.meets
  rw [← List.map_perm_map_iff (f := Zatoshis.value) (fun v w hvw => Zatoshis.ext hvw)]
  rw [List.map_append, List.map_map]
  apply (hm.append_right _).trans (h.split.trans (positiveFunding_perm funding))

/-! ### The two planners -/

theorem checkTotals_ne_outOfFuel :
  checkTotals available funding ≠ .error .outOfFuel
  := by
  rw [checkTotals]
  split
  · simp
  · split <;> simp

private theorem mintedValues_nil :
  mintedValues [] = []
  := rfl

/-- The fast path is a sound plan that mints what remains. -/
theorem fanOut_sound {notes : List (Nat × Nat)} (hfee : fee ≤ maxMoney)
    (hm : Matched available used used' direct values remaining)
    (hnotes : notes = unusedNotes (available.map Zatoshis.value) used')
    (h : fanOut notes remaining fee = .ok (some layers)) :
  Sound available fee direct layers [] ∧ (mintedValues layers).Perm remaining
  := by
  rw [fanOut] at h
  split at h
  · cases h
  · rename_i index big hlargest
    obtain ⟨⟨t, cost⟩, -, h⟩ := Outcome.bind_eq_ok.mp h
    dsimp only at h
    split at h
    · obtain ⟨value, hvalue, h⟩ := Outcome.bind_eq_ok.mp h
      obtain ⟨split, hsplit, h⟩ := Outcome.bind_eq_ok.mp h
      cases h
      have hmem : (index, big) ∈ notes := lastLargest_mem hlargest
      have hinputs : walletInputs [(index, big)] = .ok [.wallet index value] := by
        simp [walletInputs, hvalue, bind, Except.bind, pure, Except.pure]
      have hs : Sound available fee direct [] [.wallet index value] :=
        (hm.sound (hnotes ▸ List.singleton_sublist.mpr hmem) hinputs).1
      obtain ⟨hs', hp'⟩ := buildSplit_sound hsplit hs hfee le_rfl (zat_eq_ok.mp hvalue)
      rw [mintedValues_nil, List.append_nil] at hp'
      exact ⟨hs', hp'⟩
    · cases h

private theorem fanOut_ne_outOfFuel {notes : List (Nat × Nat)} :
  fanOut notes remaining fee ≠ .error .outOfFuel
  := by
  rw [fanOut]
  split
  · simp [pure, Except.pure]
  · rw [ne_eq, Outcome.bind_eq_outOfFuel]
    rintro (h | ⟨⟨t, cost⟩, -, h⟩)
    · apply subtreeCost_ne_outOfFuel _ _ h
    · dsimp only at h
      split at h
      · rcases Outcome.bind_eq_outOfFuel.mp h with h | ⟨value, -, h⟩
        · apply zat_ne_outOfFuel _ h
        · rcases Outcome.bind_eq_outOfFuel.mp h with h | ⟨layers, -, h⟩
          · apply buildSplit_ne_outOfFuel h
          · cases h
      · cases h

/-- The minting layers, by the fast path or by the loop, are sound. -/
theorem mintingLayers_sound {split : Option (List (List PrepTransaction))}
    (hfee : fee ≤ maxMoney) (hm : Matched available used used' direct values remaining)
    (hsplit : fanOut (unusedNotes (available.map Zatoshis.value) used') remaining fee = .ok split)
    (hinputs : walletInputs (unusedNotes (available.map Zatoshis.value) used') = .ok current)
    (h : mintingLayers S fee current remaining split = .ok layers) :
  Sound available fee direct layers [] ∧ (mintedValues layers).Perm remaining
  := by
  cases split with
  | some split =>
    cases h
    apply fanOut_sound hfee hm rfl hsplit
  | none =>
    obtain ⟨hs, hready⟩ := hm.sound (List.Sublist.refl _) hinputs
    apply greedyLoop_sound h ⟨hs, hready, List.Perm.refl _⟩

/-- The steps by which the greedy comes to the layers of a plan, from the notes that are not
used directly. -/
def GreedySteps (S : NoteSort) (available : List Zatoshis) (fee : Nat) (used : List Bool)
    (remaining : List Nat) (layers : List (List PrepTransaction)) : Prop :=
  ∃ split current minting, fanOut (unusedNotes (available.map Zatoshis.value) used) remaining fee
      = .ok split
    ∧ walletInputs (unusedNotes (available.map Zatoshis.value) used) = .ok current
    ∧ mintingLayers S fee current remaining split = .ok minting
    ∧ residualLoop S fee ((unconsumedFeeders minting).length + 1) minting = .ok layers

/-- A plan of the greedy has no layers, or those of its steps. -/
theorem planPreparationGreedy_eq_ok {feePerTx : Zatoshis} {plan : PreparationPlan}
    (h : planPreparationGreedy S available funding feePerTx = .ok plan) :
  ∃ used used' direct remaining layers,
    Matched available used used' direct (positiveFunding funding) remaining
      ∧ plan = ⟨relabelUnspent layers, direct⟩
      ∧ (remaining = [] ∧ layers = []
        ∨ GreedySteps S available feePerTx.value used' remaining layers)
  := by
  rw [planPreparationGreedy] at h
  obtain ⟨-, -, h⟩ := Outcome.bind_eq_ok.mp h
  obtain ⟨⟨used, direct, remaining⟩, hextract, h⟩ := Outcome.bind_eq_ok.mp h
  have hm := extractDirectFunding_spec hextract
  dsimp only at h
  split at h
  · rename_i hempty
    cases h
    rw [List.isEmpty_iff] at hempty
    exact ⟨_, used, direct, remaining, [], hm, rfl, .inl ⟨hempty, rfl⟩⟩
  · obtain ⟨split, hsplit, h⟩ := Outcome.bind_eq_ok.mp h
    obtain ⟨current, hinputs, h⟩ := Outcome.bind_eq_ok.mp h
    obtain ⟨minting, hminting, h⟩ := Outcome.bind_eq_ok.mp h
    obtain ⟨layers, hresidual, h⟩ := Outcome.bind_eq_ok.mp h
    cases h
    refine ⟨_, used, direct, remaining, layers, hm, rfl, .inr ?_⟩
    exact ⟨split, current, minting, hsplit, hinputs, hminting, hresidual⟩

theorem planPreparationGreedy_meets {feePerTx : Zatoshis} {plan : PreparationPlan}
    (h : planPreparationGreedy S available funding feePerTx = .ok plan) :
  Meets available feePerTx (requestedNotes funding) plan
  := by
  obtain ⟨used, used', direct, remaining, layers, hm, rfl, hlayers⟩ := planPreparationGreedy_eq_ok h
  rcases hlayers with ⟨rfl, rfl⟩ | ⟨split, current, minting, hsplit, hinputs, hminting, hresidual⟩
  · apply hm.meets (hm.sound (List.nil_sublist _) rfl).1 (List.Perm.refl _)
  · obtain ⟨hs, hp⟩ := mintingLayers_sound feePerTx.le_maxMoney hm hsplit hinputs hminting
    obtain ⟨hs', hp'⟩ := residualLoop_sound hresidual hs
    apply hm.meets hs' (hp' ▸ hp)

theorem planPreparationGreedy_ne_outOfFuel {feePerTx : Zatoshis} :
  planPreparationGreedy S available funding feePerTx ≠ .error .outOfFuel
  := by
  intro h
  rw [planPreparationGreedy] at h
  rcases Outcome.bind_eq_outOfFuel.mp h with h | ⟨-, -, h⟩
  · apply checkTotals_ne_outOfFuel h
  rcases Outcome.bind_eq_outOfFuel.mp h with h | ⟨⟨used, direct, remaining⟩, hextract, h⟩
  · apply extractDirectFunding_ne_outOfFuel h
  have hm := extractDirectFunding_spec hextract
  dsimp only at h
  split at h
  · cases h
  rcases Outcome.bind_eq_outOfFuel.mp h with h | ⟨split, hsplit, h⟩
  · apply fanOut_ne_outOfFuel h
  rcases Outcome.bind_eq_outOfFuel.mp h with h | ⟨current, hinputs, h⟩
  · apply walletInputs_ne_outOfFuel h
  rcases Outcome.bind_eq_outOfFuel.mp h with h | ⟨layers, hlayers, h⟩
  · cases split with
    | some split => cases h
    | none =>
      obtain ⟨hs, hready⟩ := hm.sound (List.Sublist.refl _) hinputs
      apply greedyLoop_ne_outOfFuel ⟨hs, hready, List.Perm.refl _⟩ (Nat.lt_succ_self _) h
  · obtain ⟨hs, -⟩ := mintingLayers_sound feePerTx.le_maxMoney hm hsplit hinputs hlayers
    rcases Outcome.bind_eq_outOfFuel.mp h with h | ⟨layers', -, h⟩
    · apply residualLoop_ne_outOfFuel hs (Nat.lt_succ_self _) h
    · cases h

/-- A round of the full consolidation keeps the plan sound, mints nothing and leaves fewer
notes. -/
theorem consolidateAll_round {leftover : List PrepInput} {round : Round}
    (hs : Sound available fee direct layers current)
    (hready : ∀ i ∈ current, i.readyAt ≤ layers.length)
    (h : consolidate S current layers.length fee Round.empty = .ok (leftover, round)) :
  Sound available fee direct (layers ++ [round.txs]) (round.next ++ leftover) ∧
    (∀ i ∈ round.next ++ leftover, i.readyAt ≤ (layers ++ [round.txs]).length) ∧
    mintedValues (layers ++ [round.txs]) = mintedValues layers ∧
    (round.txs ≠ [] → (round.next ++ leftover).length < current.length)
  := by
  have hc := consolidate_sound h
    (show Sound available fee direct (layers ++ [Round.empty.txs])
        (current ++ (Round.empty.next ++ [])) from by simpa [Round.empty] using hs.append_nil)
    hready (by simp [Round.empty])
  refine ⟨hc.sound.perm (by simpa using List.perm_append_comm), ?_, ?_, ?_⟩
  · intro i hi
    rw [List.length_append, List.length_singleton]
    rcases List.mem_append.mp hi with hi | hi
    · apply hc.next_ready i hi
    · apply (hc.leftover_ready i hi).trans (Nat.le_succ _)
  · rw [mintedValues_append_singleton, consolidate_minted h]
    simp [Round.empty, mintedFunding]
  · intro htxs
    obtain ⟨added, htx, hnext, hlen⟩ := consolidate_progress h
    have : round.txs.length ≠ 0 := by simpa using htxs
    simp only [Round.empty, List.length_nil] at htx hnext
    rw [List.length_append]
    omega

theorem consolidateAll_sound {fuel : Nat} {current' : List PrepInput}
    (h : consolidateAll S fee fuel layers current = .ok (layers', current'))
    (hs : Sound available fee direct layers current)
    (hready : ∀ i ∈ current, i.readyAt ≤ layers.length) :
  Sound available fee direct layers' current' ∧ (∀ i ∈ current', i.readyAt ≤ layers'.length) ∧
    mintedValues layers' = mintedValues layers
  := by
  induction fuel generalizing layers current with
  | zero => cases h
  | succ fuel ih =>
    rw [consolidateAll] at h
    split at h
    · cases h
      exact ⟨hs, hready, rfl⟩
    · obtain ⟨⟨leftover, round⟩, hcons, h⟩ := Outcome.bind_eq_ok.mp h
      dsimp only at h
      split at h
      · cases h
      · obtain ⟨hs', hready', hm', -⟩ := consolidateAll_round hs hready hcons
        rw [← hm']
        apply ih h hs' hready'

private theorem consolidateAll_ne_outOfFuel {fuel : Nat}
    (hs : Sound available fee direct layers current)
    (hready : ∀ i ∈ current, i.readyAt ≤ layers.length) (hpos : 0 < fuel)
    (hfuel : current.length ≤ fuel) :
  consolidateAll S fee fuel layers current ≠ .error .outOfFuel
  := by
  induction fuel generalizing layers current with
  | zero => omega
  | succ fuel ih =>
    rw [consolidateAll]
    split
    · simp
    · rename_i hmany
      rw [ne_eq, Outcome.bind_eq_outOfFuel]
      rintro (h | ⟨⟨leftover, round⟩, hcons, h⟩)
      · apply consolidate_ne_outOfFuel h
      · dsimp only at h
        split at h
        · cases h
        · rename_i htxs
          obtain ⟨hs', hready', -, hlt⟩ := consolidateAll_round hs hready hcons
          have := hlt (by simpa using htxs)
          apply ih hs' hready' (by omega) (by omega) h

/-- The steps by which the fallback comes to the layers of a plan. -/
def FallbackSteps (S : NoteSort) (available : List Zatoshis) (fee : Nat) (used : List Bool)
    (targets : List Nat) (layers : List (List PrepTransaction)) : Prop :=
  ∃ current consolidated current' source,
    walletInputs ((unusedNotes (available.map Zatoshis.value) used).filter fun note => 0 < note.2)
        = .ok current
      ∧ consolidateAll S fee current.length [] current = .ok (consolidated, current')
      ∧ current'.getLast? = some source
      ∧ buildSplit source source.value.value targets fee consolidated.length consolidated
        = .ok layers

/-- A plan of the fallback has no layers, or those of its steps. -/
theorem planPreparationViaConsolidation_eq_ok {feePerTx : Zatoshis} {plan : PreparationPlan}
    (h : planPreparationViaConsolidation S available funding feePerTx = .ok plan) :
  ∃ used used' direct targets layers,
    Matched available used used' direct (positiveFunding funding) targets
      ∧ plan = ⟨relabelUnspent layers, direct⟩
      ∧ (targets = [] ∧ layers = []
        ∨ FallbackSteps S available feePerTx.value used' targets layers)
  := by
  rw [planPreparationViaConsolidation] at h
  obtain ⟨-, -, h⟩ := Outcome.bind_eq_ok.mp h
  obtain ⟨⟨used, direct, targets⟩, hextract, h⟩ := Outcome.bind_eq_ok.mp h
  have hm := extractDirectFunding_spec hextract
  dsimp only at h
  split at h
  · rename_i hempty
    cases h
    rw [List.isEmpty_iff] at hempty
    exact ⟨_, used, direct, targets, [], hm, rfl, .inl ⟨hempty, rfl⟩⟩
  · obtain ⟨current, hinputs, h⟩ := Outcome.bind_eq_ok.mp h
    split at h
    · cases h
    · obtain ⟨⟨consolidated, current'⟩, hall, h⟩ := Outcome.bind_eq_ok.mp h
      dsimp only at h
      split at h
      · cases h
      · rename_i source hlast
        obtain ⟨⟨t, cost⟩, -, h⟩ := Outcome.bind_eq_ok.mp h
        dsimp only at h
        split at h
        · cases h
        · obtain ⟨layers, hbuild, h⟩ := Outcome.bind_eq_ok.mp h
          cases h
          refine ⟨_, used, direct, targets, layers, hm, rfl, .inr ?_⟩
          exact ⟨current, consolidated, current', source, hinputs, hall, hlast, hbuild⟩

theorem planPreparationViaConsolidation_meets {feePerTx : Zatoshis} {plan : PreparationPlan}
    (h : planPreparationViaConsolidation S available funding feePerTx = .ok plan) :
  Meets available feePerTx (requestedNotes funding) plan
  := by
  obtain ⟨used, used', direct, targets, layers, hm, rfl, hlayers⟩ :=
    planPreparationViaConsolidation_eq_ok h
  rcases hlayers with ⟨rfl, rfl⟩ | ⟨current, consolidated, current', source, hinputs, hall, hlast,
    hbuild⟩
  · apply hm.meets (hm.sound (List.nil_sublist _) rfl).1 (List.Perm.refl _)
  · obtain ⟨hs, hready⟩ := hm.sound List.filter_sublist hinputs
    obtain ⟨hs', hready', hm'⟩ := consolidateAll_sound hall hs hready
    have hmem := List.mem_of_getLast? hlast
    have hone := hs'.subperm (List.singleton_sublist.mpr hmem).subperm
    obtain ⟨hs'', hp⟩ := buildSplit_sound hbuild hone feePerTx.le_maxMoney (hready' source hmem) rfl
    rw [hm', mintedValues_nil, List.append_nil] at hp
    apply hm.meets hs'' hp

theorem planPreparationViaConsolidation_ne_outOfFuel {feePerTx : Zatoshis} :
  planPreparationViaConsolidation S available funding feePerTx ≠ .error .outOfFuel
  := by
  intro h
  rw [planPreparationViaConsolidation] at h
  rcases Outcome.bind_eq_outOfFuel.mp h with h | ⟨-, -, h⟩
  · apply checkTotals_ne_outOfFuel h
  rcases Outcome.bind_eq_outOfFuel.mp h with h | ⟨⟨used, direct, targets⟩, hextract, h⟩
  · apply extractDirectFunding_ne_outOfFuel h
  have hm := extractDirectFunding_spec hextract
  dsimp only at h
  split at h
  · cases h
  rcases Outcome.bind_eq_outOfFuel.mp h with h | ⟨current, hinputs, h⟩
  · apply walletInputs_ne_outOfFuel h
  split at h
  · cases h
  rename_i hne
  rcases Outcome.bind_eq_outOfFuel.mp h with h | ⟨⟨layers, current'⟩, -, h⟩
  · obtain ⟨hs, hready⟩ := hm.sound List.filter_sublist hinputs
    have hpos : 0 < current.length := by
      rw [List.length_pos_iff]
      simpa using hne
    apply consolidateAll_ne_outOfFuel hs hready hpos le_rfl h
  dsimp only at h
  split at h
  · cases h
  rcases Outcome.bind_eq_outOfFuel.mp h with h | ⟨⟨t, cost⟩, -, h⟩
  · apply subtreeCost_ne_outOfFuel _ _ h
  dsimp only at h
  split at h
  · cases h
  rcases Outcome.bind_eq_outOfFuel.mp h with h | ⟨layers', -, h⟩
  · apply buildSplit_ne_outOfFuel h
  · cases h

/-- A plan of the preparation planner is one of the greedy or one of the fallback. -/
theorem planPreparation_eq_ok {feePerTx : Zatoshis} {plan : PreparationPlan}
    (h : planPreparation S available funding feePerTx = .ok plan) :
  planPreparationGreedy S available funding feePerTx = .ok plan ∨
    planPreparationViaConsolidation S available funding feePerTx = .ok plan
  := by
  rw [planPreparation] at h
  split at h
  · exact .inr h
  · exact .inl h

/-- The loops of the preparation planner end. -/
theorem planPreparation_ne_outOfFuel {feePerTx : Zatoshis} :
  planPreparation S available funding feePerTx ≠ .error .outOfFuel
  := by
  rw [planPreparation]
  split
  · apply planPreparationViaConsolidation_ne_outOfFuel
  · apply planPreparationGreedy_ne_outOfFuel

/-- The plans of the preparation planner meet the positive amounts of the request. -/
theorem Meets.of_planPreparation {feePerTx : Zatoshis} {plan : PreparationPlan}
    (h : planPreparation S available funding feePerTx = .ok plan) :
  Meets available feePerTx (requestedNotes funding) plan
  := by
  rcases planPreparation_eq_ok h with h | h
  · apply planPreparationGreedy_meets h
  · apply planPreparationViaConsolidation_meets h

/-- Whenever the planner returns a plan, its transactions are within the action budget and
conserve value, its wallet notes are used at most once, its intermediate notes flow to
strictly later layers and are spent exactly once, and its funding notes are the positive
amounts of the request. -/
theorem planPreparation_meets_request (S : NoteSort) (available funding : List Zatoshis)
    (feePerTx : Zatoshis) (plan : PreparationPlan)
    (h : planPreparation S available funding feePerTx = .ok plan) :
  Meets available feePerTx (funding.filter fun v => 0 < v.value) plan
  := Meets.of_planPreparation h

/-- Three notes of 100 fund notes of 100 and 150: one is used directly, the others are
consolidated into a note that is split into 150 and change. -/
theorem planPreparation_meets_request_three :
  Meets (List.replicate 3 ⟨100, by decide⟩) ⟨10, by decide⟩
    ([⟨100, by decide⟩, ⟨150, by decide⟩].filter fun v : Zatoshis => 0 < v.value)
    { layers := [
        [⟨[.wallet 1 ⟨100, by decide⟩, .wallet 2 ⟨100, by decide⟩],
          [.intermediate ⟨190, by decide⟩]⟩],
        [⟨[.prior 0 0 0 ⟨190, by decide⟩],
          [.funding ⟨150, by decide⟩, .change ⟨30, by decide⟩]⟩]]
      directFunding := [(0, ⟨100, by decide⟩)] }
  := planPreparation_meets_request .insertion _ _ _ _ rfl

/-- A requested amount of zero is not produced: its plan has no funding note. -/
theorem planPreparation_drops_zero :
  ¬ ∀ (available funding : List Zatoshis) (feePerTx : Zatoshis) (plan : PreparationPlan),
    planPreparation .insertion available funding feePerTx = .ok plan →
    Meets available feePerTx funding plan
  := by
  intro h
  have hperm := (h [] [⟨0, by decide⟩] ⟨0, by decide⟩ ⟨[], []⟩ rfl).funding
  exact absurd hperm.length_eq (by decide)

end Vizor.Planner
