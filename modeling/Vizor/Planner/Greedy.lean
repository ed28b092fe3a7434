import Vizor.Planner.Preparation

/-!
# The layered greedy

The two passes of a greedy layer partition the funding values and the notes of the layer;
a layer keeps the plan sound, and every layer leaves fewer notes and funding values than
it found.
-/

namespace Vizor.Planner

open Layered

variable {available : List Zatoshis} {fee : Nat} {direct : List (Nat × Zatoshis)}
  {layers layers' : List (List PrepTransaction)} {live current consolidatable : List PrepInput}
  {remaining remaining' : List Nat} {partials : List Assignment} {round round' : Round}
  {S : NoteSort}

/-! ### The first pass -/

/-- Taking the values that fit partitions them, within the budget and the action limit. -/
theorem takeFitting_spec (budget used count : Nat) (values : List Nat) :
  ((takeFitting budget used count values).1 ++ (takeFitting budget used count values).2).Perm
      values ∧
    (used ≤ budget → used + (takeFitting budget used count values).1.sum ≤ budget) ∧
    (takeFitting budget used count values).1.length + count ≤ max count 14
  := by
  induction values generalizing used count with
  | nil => simp [takeFitting]
  | cons v vs ih =>
    rw [takeFitting]
    split
    · rename_i hfit
      obtain ⟨hperm, hsum, hlen⟩ := ih (used + v) (count + 1)
      have hcount : count < 14 := hfit.1
      refine ⟨hperm.cons v, fun _ => ?_, ?_⟩
      · have := hsum hfit.2
        rw [List.sum_cons]
        omega
      · rw [List.length_cons]
        omega
    · obtain ⟨hperm, hsum, hlen⟩ := ih used count
      exact ⟨List.perm_middle.trans (hperm.cons v), hsum, hlen⟩

/-- Something is taken when the last value fits into the budget. -/
theorem takeFitting_ne_nil (budget : Nat) {smallest : Nat} {values : List Nat}
    (hlast : values.getLast? = some smallest) (hfit : smallest ≤ budget) :
  (takeFitting budget 0 0 values).1 ≠ []
  := by
  induction values with
  | nil => cases hlast
  | cons v vs ih =>
    rw [takeFitting]
    split
    · simp
    · rename_i hno
      cases vs with
      | nil =>
        simp only [List.getLast?_singleton, Option.some_inj] at hlast
        subst hlast
        have : fundingOutputsPerTx = 14 := rfl
        omega
      | cons w ws =>
        rw [List.getLast?_cons_cons] at hlast
        apply ih hlast

/-- What an assignment promises: its values and its leftover are its input less the fee,
and it has at least one and at most `fundingOutputsPerTx` values. -/
structure Assignment.Valid (fee : Nat) (a : Assignment) : Prop where
  balance : a.input.value.value = a.assigned.sum + a.leftover + fee
  bounded : a.assigned.length ≤ 14
  nonempty : a.assigned ≠ []

/-- The first pass partitions the funding values, and its assignments and small notes are
among the notes of the layer. -/
theorem assignFunding_spec
    (h : assignFunding fee current remaining = (partials, consolidatable, remaining')) :
  (∀ a ∈ partials, a.Valid fee) ∧
    (partials.map Assignment.input ++ consolidatable).Subperm current ∧
    (partials.flatMap Assignment.assigned ++ remaining').Perm remaining
  := by
  induction current generalizing remaining partials consolidatable with
  | nil =>
    cases h
    exact ⟨by simp, List.Subperm.refl _, List.Perm.refl _⟩
  | cons input inputs ih =>
    rw [assignFunding] at h
    split at h
    · obtain ⟨hvalid, hsub, hperm⟩ := ih h
      exact ⟨hvalid, hsub.trans (List.sublist_cons_self _ _).subperm, hperm⟩
    · rename_i smallest hlast
      dsimp only at h
      split at h
      · generalize hrec : assignFunding fee inputs remaining = r at h
        obtain ⟨ps, cs, rem⟩ := r
        cases h
        obtain ⟨hvalid, hsub, hperm⟩ := ih hrec
        refine ⟨hvalid, ?_, hperm⟩
        apply List.perm_middle.subperm.trans ((List.subperm_cons input).mpr hsub)
      · rename_i hbig
        generalize htake : takeFitting (input.value.value - fee) 0 0 remaining = t at h
        obtain ⟨assigned, kept⟩ := t
        dsimp only at h
        generalize hrec : assignFunding fee inputs kept = r at h
        obtain ⟨ps, cs, rem⟩ := r
        cases h
        obtain ⟨hvalid, hsub, hperm⟩ := ih hrec
        obtain ⟨htperm, htsum, htlen⟩ := takeFitting_spec (input.value.value - fee) 0 0 remaining
        have htne := takeFitting_ne_nil (input.value.value - fee) hlast (by omega)
        rw [htake] at htperm htsum htlen htne
        refine ⟨?_, (List.subperm_cons input).mpr hsub, ?_⟩
        · intro a ha
          rcases List.mem_cons.mp ha with rfl | ha
          · have := htsum (Nat.zero_le _)
            exact ⟨by dsimp only at *; omega, by dsimp only at *; omega, htne⟩
          · apply hvalid a ha
        · rw [List.flatMap_cons, List.append_assoc]
          apply (hperm.append_left assigned).trans htperm

/-! ### The second pass -/

/-- Minting one assignment. -/
private theorem Sound.mint {a : Assignment} {values : List Zatoshis} {extra : List PrepOutput}
    (hs : Sound available fee direct (layers ++ [round.txs]) (a.input :: live))
    (hready : a.input.readyAt ≤ layers.length) (ha : a.Valid fee)
    (hvalues : values.map Zatoshis.value = a.assigned)
    (hextra : leftoverOutputs a.leftover = .ok extra) :
  Sound available fee direct
    (layers ++ [round.txs ++ [⟨[a.input], values.map .funding ++ extra⟩]])
    (feeders layers.length round.txs.length (values.map .funding ++ extra) ++ live)
  := by
  obtain ⟨hmax, hsum, hone, hinter⟩ := leftoverOutputs_spec hextra
  have hlen : values.length = a.assigned.length := by rw [← hvalues, List.length_map]
  apply hs.place_last ⟨[a.input], values.map PrepOutput.funding ++ extra⟩
  · intro i hi
    rw [List.mem_singleton.mp hi]
    apply hready
  · simp only [PrepTransaction.actionCount, List.length_singleton, List.length_append,
      List.length_map, prepTxActions]
    have := ha.bounded
    omega
  · have hmint : (values.map fun v => (PrepOutput.funding v).value.value).sum
        = a.assigned.sum := by
      rw [← hvalues]
      rfl
    simp only [PrepTransaction.inputTotal, PrepTransaction.outputTotal, List.map_singleton,
      List.sum_singleton, List.map_append, List.map_map, List.sum_append, Function.comp_def,
      hmint, hsum]
    apply ha.balance
  · intro value hv
    rcases List.mem_append.mp hv with hv | hv
    · obtain ⟨v, -, hv⟩ := List.mem_map.mp hv
      cases hv
    · obtain ⟨v, hv⟩ := hinter _ hv
      cases hv

/-- The values of the funding notes that a round mints. -/
def Round.mintedValues (round : Round) : List Nat :=
  (mintedFunding round.txs).map Zatoshis.value

/-- The second pass keeps the plan sound and mints the assigned values. -/
theorem mintAssignments_spec
    (h : mintAssignments layers.length partials round = .ok round')
    (hs : Sound available fee direct (layers ++ [round.txs])
      (partials.map Assignment.input ++ (round.next ++ live)))
    (hready : ∀ a ∈ partials, a.input.readyAt ≤ layers.length)
    (hnext : ∀ i ∈ round.next, i.readyAt ≤ layers.length + 1)
    (hvalid : ∀ a ∈ partials, a.Valid fee) :
  Sound available fee direct (layers ++ [round'.txs]) (round'.next ++ live) ∧
    (∀ i ∈ round'.next, i.readyAt ≤ layers.length + 1) ∧
    round'.mintedValues = round.mintedValues ++ partials.flatMap Assignment.assigned ∧
    round'.txs.length = round.txs.length + partials.length ∧
    round'.next.length ≤ round.next.length + partials.length
  := by
  induction partials generalizing round with
  | nil =>
    cases h
    exact ⟨hs, hnext, by simp, by simp, by simp⟩
  | cons a as ih =>
    obtain ⟨input, assigned, leftover⟩ := a
    rw [List.forall_mem_cons] at hready hvalid
    rw [mintAssignments] at h
    obtain ⟨values, hvalues, h⟩ := Outcome.bind_eq_ok.mp h
    rw [mapM_zat_eq_ok] at hvalues
    have hminted : ∀ extra : List PrepOutput,
        (∀ o ∈ extra, ∃ value, o = PrepOutput.intermediate value) →
        (mintedFunding (round.txs ++ [⟨[input], values.map .funding ++ extra⟩])).map
          Zatoshis.value = round.mintedValues ++ assigned := by
      intro extra hextra
      simp only [mintedFunding, Round.mintedValues, List.flatMap_append, List.flatMap_singleton,
        List.filterMap_append, filterMap_funding?_map_funding,
        filterMap_funding?_of_intermediate hextra, List.append_nil, List.map_append, hvalues]
    split at h
    · rename_i hpos
      obtain ⟨value, hvalue, h⟩ := Outcome.bind_eq_ok.mp h
      have hextra : leftoverOutputs leftover = .ok [.intermediate value] := by
        rw [leftoverOutputs, if_pos hpos, hvalue]
        rfl
      have hmint := hs.mint (a := ⟨input, assigned, leftover⟩) hready.1 hvalid.1 hvalues hextra
      have hfeeder : PrepInput.prior layers.length round.txs.length values.length value ∈
          feeders layers.length round.txs.length
            (values.map PrepOutput.funding ++ [.intermediate value]) := by
        rw [mem_feeders]
        refine ⟨values.length, value, ?_, rfl⟩
        rw [List.getElem?_append_right (by simp)]
        simp
      have hkeep : (as.map Assignment.input ++ ((round.next ++
          [PrepInput.prior layers.length round.txs.length values.length value]) ++ live)).Subperm
          (feeders layers.length round.txs.length
            (values.map PrepOutput.funding ++ [.intermediate value]) ++
              (as.map Assignment.input ++ (round.next ++ live))) := by
        have hone : [PrepInput.prior layers.length round.txs.length values.length value].Subperm
            (feeders layers.length round.txs.length
              (values.map PrepOutput.funding ++ [.intermediate value])) :=
          (List.singleton_sublist.mpr hfeeder).subperm
        refine List.Subperm.trans ?_ ((List.subperm_append_right
          (as.map Assignment.input ++ (round.next ++ live))).mpr hone)
        apply List.Perm.subperm
        rw [List.perm_iff_count]
        intro i
        simp only [List.count_append]
        omega
      obtain ⟨hs', hn', hm', htx', hlen'⟩ := ih h (hmint.subperm hkeep) hready.2
        (by
          intro i hi
          rcases List.mem_append.mp hi with hi | hi
          · apply hnext i hi
          · rw [List.mem_singleton.mp hi]
            exact le_rfl)
        hvalid.2
      refine ⟨hs', hn', ?_, ?_, ?_⟩
      · rw [hm', Round.mintedValues, hminted _ (by simp)]
        simp
      · simp only [List.length_append, List.length_cons, List.length_nil] at htx' ⊢
        omega
      · simp only [List.length_append, List.length_cons, List.length_nil] at hlen' ⊢
        omega
    · rename_i hzero
      have hextra : leftoverOutputs leftover = .ok [] := by
        rw [leftoverOutputs, if_neg hzero]
        rfl
      have hmint := hs.mint (a := ⟨input, assigned, leftover⟩) hready.1 hvalid.1 hvalues hextra
      rw [List.append_nil] at hmint
      obtain ⟨hs', hn', hm', htx', hlen'⟩ := ih h
        (hmint.subperm (List.sublist_append_right _ _).subperm) hready.2 hnext hvalid.2
      have hnone := hminted [] (by simp)
      rw [List.append_nil] at hnone
      refine ⟨hs', hn', ?_, ?_, ?_⟩
      · rw [hm', Round.mintedValues, hnone]
        simp
      · simp only [List.length_append, List.length_cons, List.length_nil] at htx' ⊢
        omega
      · simp only [List.length_cons] at hlen' ⊢
        omega

private theorem mintAssignments_ne_outOfFuel {layer : Nat} :
  mintAssignments layer partials round ≠ .error .outOfFuel
  := by
  induction partials generalizing round with
  | nil => simp [mintAssignments, pure, Except.pure]
  | cons a as ih =>
    obtain ⟨input, assigned, leftover⟩ := a
    rw [mintAssignments, ne_eq, Outcome.bind_eq_outOfFuel]
    rintro (h | ⟨values, -, h⟩)
    · apply Outcome.mapM_ne_outOfFuel (fun n _ => zat_ne_outOfFuel n) h
    · split at h
      · rcases Outcome.bind_eq_outOfFuel.mp h with h | ⟨value, -, h⟩
        · apply zat_ne_outOfFuel _ h
        · apply ih h
      · apply ih h

/-! ### A layer -/

/-- The state of the greedy between two layers, for the target values `targets`: the plan
is sound with the notes of the layer live, and the minted and remaining values are the
targets. -/
structure Greedy (available : List Zatoshis) (fee : Nat) (direct : List (Nat × Zatoshis))
    (targets : List Nat) (layers : List (List PrepTransaction)) (current : List PrepInput)
    (remaining : List Nat) : Prop where
  sound : Sound available fee direct layers current
  ready : ∀ i ∈ current, i.readyAt ≤ layers.length
  minted : (mintedValues layers ++ remaining).Perm targets

theorem mintedValues_append_singleton (layers : List (List PrepTransaction))
    (txs : List PrepTransaction) :
  mintedValues (layers ++ [txs])
    = mintedValues layers ++ (mintedFunding txs).map Zatoshis.value
  := by
  simp [mintedValues, mintedFunding]

/-- An empty layer can be added at the end. -/
theorem Sound.append_nil (h : Sound available fee direct layers live) :
  Sound available fee direct (layers ++ [[]]) live
  := by
  have hreach : Layered.reach layers layers.length = layers ++ [[]] := by
    simp [Layered.reach]
  rw [← hreach]
  apply h.reach

/-- A layer of the greedy keeps its state and decreases the number of notes and remaining
values, provided that it has a transaction. -/
theorem Greedy.layer {targets : List Nat} {leftover : List PrepInput}
    {minting : Round}
    (h : Greedy available fee direct targets layers current remaining)
    (hassign : assignFunding fee (S.sort current) remaining
      = (partials, consolidatable, remaining'))
    (hmint : mintAssignments layers.length partials Round.empty = .ok minting)
    (hcons : consolidate S consolidatable layers.length fee minting = .ok (leftover, round))
    (htxs : round.txs ≠ []) :
  Greedy available fee direct targets (layers ++ [round.txs]) round.next remaining' ∧
    remaining'.length + round.next.length < remaining.length + current.length
  := by
  obtain ⟨hvalid, hsub, hperm⟩ := assignFunding_spec hassign
  have hsub' := hsub.trans (S.perm current).subperm
  have hready : ∀ i ∈ partials.map Assignment.input ++ consolidatable,
      i.readyAt ≤ layers.length :=
    fun i hi => h.ready i (hsub'.subset hi)
  have hstart : Sound available fee direct (layers ++ [Round.empty.txs])
      (partials.map Assignment.input ++ (Round.empty.next ++ consolidatable)) :=
    (h.sound.subperm hsub').append_nil
  obtain ⟨hs, hn, hm, htx, hnextlen⟩ := mintAssignments_spec hmint hstart
    (fun a ha => hready _ (List.mem_append_left _ (List.mem_map_of_mem ha)))
    (by simp [Round.empty]) hvalid
  have hc := consolidate_sound hcons
    (show Sound available fee direct (layers ++ [minting.txs])
        (consolidatable ++ (minting.next ++ [])) from
      hs.perm (by simpa using List.perm_append_comm))
    (fun i hi => hready i (List.mem_append_right _ hi)) hn
  constructor
  · exact {
      sound := hc.sound.subperm (by
        simpa using (List.sublist_append_right leftover round.next).subperm)
      ready := by simpa using hc.next_ready
      minted := by
        rw [mintedValues_append_singleton, consolidate_minted hcons]
        have hm' : (mintedFunding minting.txs).map Zatoshis.value
            = partials.flatMap Assignment.assigned := by
          simpa [Round.mintedValues, Round.empty, mintedFunding] using hm
        rw [hm', List.append_assoc]
        apply (hperm.append_left _).trans h.minted }
  · obtain ⟨added, htx', hnext', hlen'⟩ := consolidate_progress hcons
    have hnotes := hsub'.length_le
    have hvalues := hperm.length_eq
    simp only [Round.empty, List.length_nil, Nat.zero_add] at htx hnextlen
    simp only [List.length_append, List.length_map] at hnotes hvalues
    cases partials with
    | nil =>
      have : round.txs.length ≠ 0 := by simpa using htxs
      simp only [List.length_nil] at htx hnextlen hnotes
      simp only [List.flatMap_nil, List.length_nil] at hvalues
      omega
    | cons a as =>
      have hne := (hvalid a List.mem_cons_self).nonempty
      have hpos : 0 < a.assigned.length := List.length_pos_iff.mpr hne
      simp only [List.flatMap_cons, List.length_append] at hvalues
      omega

/-! ### The loops -/

/-- The layered greedy mints the targets into a sound plan. -/
theorem greedyLoop_sound {targets : List Nat} {fuel : Nat}
    (h : greedyLoop S fee fuel layers current remaining = .ok layers')
    (hg : Greedy available fee direct targets layers current remaining) :
  Sound available fee direct layers' [] ∧ (mintedValues layers').Perm targets
  := by
  induction fuel generalizing layers current remaining with
  | zero => cases h
  | succ fuel ih =>
    rw [greedyLoop] at h
    split at h
    · rename_i hempty
      cases h
      rw [List.isEmpty_iff] at hempty
      refine ⟨hg.sound.subperm (List.nil_subperm), ?_⟩
      simpa [hempty] using hg.minted
    · split at h
      · cases h
      · generalize hassign : assignFunding fee (S.sort current) remaining = r at h
        obtain ⟨partials, consolidatable, remaining'⟩ := r
        obtain ⟨minting, hmint, h⟩ := Outcome.bind_eq_ok.mp h
        obtain ⟨⟨leftover, round⟩, hcons, h⟩ := Outcome.bind_eq_ok.mp h
        dsimp only at h
        split at h
        · cases h
        · rename_i htxs
          apply ih h (hg.layer hassign hmint hcons (by simpa using htxs)).1

theorem greedyLoop_ne_outOfFuel {targets : List Nat} {fuel : Nat}
    (hg : Greedy available fee direct targets layers current remaining)
    (hfuel : remaining.length + current.length < fuel) :
  greedyLoop S fee fuel layers current remaining ≠ .error .outOfFuel
  := by
  induction fuel generalizing layers current remaining with
  | zero => omega
  | succ fuel ih =>
    rw [greedyLoop]
    split
    · simp
    · split
      · simp
      · generalize hassign : assignFunding fee (S.sort current) remaining = r
        obtain ⟨partials, consolidatable, remaining'⟩ := r
        rw [ne_eq, Outcome.bind_eq_outOfFuel]
        rintro (h | ⟨minting, hmint, h⟩)
        · apply mintAssignments_ne_outOfFuel h
        · rcases Outcome.bind_eq_outOfFuel.mp h with h | ⟨⟨leftover, round⟩, hcons, h⟩
          · apply consolidate_ne_outOfFuel h
          · dsimp only at h
            split at h
            · cases h
            · rename_i htxs
              obtain ⟨hg', hlt⟩ := hg.layer hassign hmint hcons (by simpa using htxs)
              apply ih hg' (by omega) h

/-- Consolidating the unconsumed feeders of a layer keeps the plan sound, mints nothing,
and leaves fewer unconsumed feeders. -/
theorem residual_round {leftover : List PrepInput}
    (hs : Sound available fee direct layers [])
    (h : consolidate S (unconsumedFeeders layers) layers.length fee Round.empty
      = .ok (leftover, round)) :
  Sound available fee direct (layers ++ [round.txs]) [] ∧
    mintedValues (layers ++ [round.txs]) = mintedValues layers ∧
    (round.txs ≠ [] → (unconsumedFeeders (layers ++ [round.txs])).length
      < (unconsumedFeeders layers).length)
  := by
  have hpool : ∀ i ∈ unconsumedFeeders layers, i.readyAt ≤ layers.length := by
    intro i hi
    obtain ⟨l, t, o, value, ho, rfl⟩ := mem_allFeeders.mp (mem_unconsumedFeeders.mp hi).1
    obtain ⟨tx, hat, -⟩ := Option.bind_eq_some_iff.mp ho
    apply lt_length_of_at? hat
  have hc := consolidate_sound h
    (show Sound available fee direct (layers ++ [Round.empty.txs])
        (unconsumedFeeders layers ++ (Round.empty.next ++ [])) from
      by simpa [Round.empty] using hs.unconsumedFeeders.append_nil)
    hpool (by simp [Round.empty])
  refine ⟨hc.sound.subperm List.nil_subperm, ?_, ?_⟩
  · rw [mintedValues_append_singleton, consolidate_minted h]
    simp [Round.empty, mintedFunding]
  · intro htxs
    have hcovers : Covers (layers ++ [Round.empty.txs])
        (unconsumedFeeders layers ++ Round.empty.next) := by
      rw [Round.empty, List.append_nil]
      apply Covers.append_nil fun i hi => hi
    have hlen := (consolidate_covers h hcovers).length_le
    obtain ⟨added, htx, hnext, hleft⟩ := consolidate_progress h
    have : round.txs.length ≠ 0 := by simpa using htxs
    simp only [Round.empty, List.length_nil, List.length_append] at htx hnext hlen
    omega

/-- The residual consolidation keeps the plan sound and mints nothing. -/
theorem residualLoop_sound {fuel : Nat}
    (h : residualLoop S fee fuel layers = .ok layers')
    (hs : Sound available fee direct layers []) :
  Sound available fee direct layers' [] ∧ mintedValues layers' = mintedValues layers
  := by
  induction fuel generalizing layers with
  | zero => cases h
  | succ fuel ih =>
    simp only [residualLoop] at h
    split at h
    · cases h
      exact ⟨hs, rfl⟩
    · obtain ⟨⟨leftover, round⟩, hcons, h⟩ := Outcome.bind_eq_ok.mp h
      obtain ⟨hs', hm', -⟩ := residual_round hs hcons
      dsimp only at h
      split at h
      · cases h
        exact ⟨hs, rfl⟩
      · rw [← hm']
        apply ih h hs'

theorem residualLoop_ne_outOfFuel {fuel : Nat}
    (hs : Sound available fee direct layers [])
    (hfuel : (unconsumedFeeders layers).length < fuel) :
  residualLoop S fee fuel layers ≠ .error .outOfFuel
  := by
  induction fuel generalizing layers with
  | zero => omega
  | succ fuel ih =>
    simp only [residualLoop]
    split
    · simp
    · rw [ne_eq, Outcome.bind_eq_outOfFuel]
      rintro (h | ⟨⟨leftover, round⟩, hcons, h⟩)
      · apply consolidate_ne_outOfFuel h
      · obtain ⟨hs', -, hlt⟩ := residual_round hs hcons
        dsimp only at h
        split at h
        · cases h
        · rename_i htxs
          have := hlt (by simpa using htxs)
          apply ih hs' (by omega) h

end Vizor.Planner
