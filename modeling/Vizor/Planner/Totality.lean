import Vizor.Planner.SplitCost

/-!
# The preparation planner is total

When the available and the requested totals are amounts, no conversion of the planner
panics: every note it makes is worth at most the wallet notes.  So the planner returns a
plan or reports insufficient funds.
-/

namespace Vizor.Planner

open Layered

variable {available funding : List Zatoshis} {fee : Nat} {direct : List (Nat × Zatoshis)}
  {layers layers' : List (List PrepTransaction)} {current pool leftover : List PrepInput}
  {remaining remaining' : List Nat} {partials : List Assignment} {round : Round}
  {S : NoteSort} {α β : Type}

/-! ### Outcomes that settle -/

/-- An outcome settles when it is a value or reports insufficient funds. -/
def Settles (x : Outcome PrepError α) : Prop :=
  ∀ halt, x = .error halt → halt = .error .insufficientFunds

theorem Settles.ok (a : α) :
  Settles (.ok a : Outcome PrepError α)
  := by
  intro halt h
  cases h

theorem Settles.of_ok {x : Outcome PrepError α} (h : ∃ a, x = .ok a) :
  Settles x
  := by
  obtain ⟨a, rfl⟩ := h
  apply Settles.ok a

theorem Settles.insufficientFunds :
  Settles (.error (.error .insufficientFunds) : Outcome PrepError α)
  := by
  intro halt h
  cases h
  rfl

theorem Settles.bind {x : Outcome PrepError α} {f : α → Outcome PrepError β} (hx : Settles x)
    (hf : ∀ a, x = .ok a → Settles (f a)) :
  Settles (x >>= f)
  := by
  intro halt h
  rcases Outcome.bind_eq_error.mp h with h | ⟨a, ha, h⟩
  · apply hx halt h
  · apply hf a ha halt h

/-! ### Consolidation -/

private theorem consolidateBatches_ok {layer : Nat} {sizes : List Nat}
    (h : totalValue pool ≤ maxMoney) :
  ∃ r, consolidateBatches layer fee sizes pool round leftover = .ok r
  := by
  induction sizes generalizing pool round leftover with
  | nil => exact ⟨_, rfl⟩
  | cons size sizes ih =>
    have hsplit : totalValue (pool.take size) + totalValue (pool.drop size) = totalValue pool := by
      rw [← totalValue_append, List.take_append_drop]
    rw [consolidateBatches]
    split
    · apply ih (by omega)
    · have hle : totalValue (pool.take size) - fee ≤ maxMoney := by omega
      obtain ⟨feeder, -, hfeeder⟩ := exists_zat (ε := PrepError) hle
      rw [hfeeder]
      apply ih (by omega)

/-- A pool within the money supply can be consolidated. -/
theorem consolidate_ok {layer : Nat} (h : totalValue pool ≤ maxMoney) :
  ∃ r, consolidate S pool layer fee round = .ok r
  := by
  rw [consolidate]
  split
  · exact ⟨_, rfl⟩
  · apply consolidateBatches_ok
    rw [totalValue, ((S.perm pool).map _).sum_eq]
    apply h

/-! ### The greedy -/

/-- Valid assignments can be minted. -/
theorem mintAssignments_ok {layer : Nat} (h : ∀ a ∈ partials, a.Valid fee) :
  ∃ r, mintAssignments layer partials round = .ok r
  := by
  induction partials generalizing round with
  | nil => exact ⟨_, rfl⟩
  | cons a partials ih =>
    rw [List.forall_mem_cons] at h
    obtain ⟨input, assigned, rest⟩ := a
    have hbalance := h.1.balance
    have hmax := input.value.le_maxMoney
    dsimp only at hbalance
    have hle : ∀ v ∈ assigned, v ≤ maxMoney := by
      intro v hv
      have := List.single_le_sum (fun _ _ => Nat.zero_le _) v hv
      omega
    obtain ⟨values, -, hvalues⟩ := mapM_zat_ok hle
    rw [mintAssignments, hvalues]
    simp only [bind, Except.bind]
    split
    · have hrest : rest ≤ maxMoney := by omega
      obtain ⟨value, -, hvalue⟩ := exists_zat (ε := PrepError) hrest
      rw [hvalue]
      apply ih h.2
    · apply ih h.2

/-- The greedy returns layers or reports insufficient funds. -/
theorem greedyLoop_settles {targets : List Nat} {fuel : Nat}
    (hmax : zatTotal available ≤ maxMoney)
    (hg : Greedy available fee direct targets layers current remaining)
    (hfuel : remaining.length + current.length < fuel) :
  Settles (greedyLoop S fee fuel layers current remaining)
  := by
  induction fuel generalizing layers current remaining with
  | zero => omega
  | succ fuel ih =>
    rw [greedyLoop]
    split
    · apply Settles.ok _
    · split
      · apply Settles.insufficientFunds
      · generalize hassign : assignFunding fee (S.sort current) remaining = r
        obtain ⟨partials, consolidatable, remaining'⟩ := r
        obtain ⟨hvalid, hsub, -⟩ := assignFunding_spec hassign
        dsimp only
        apply Settles.bind (Settles.of_ok (mintAssignments_ok hvalid))
        intro minting hmint
        have hpool : totalValue consolidatable ≤ totalValue current := by
          apply totalValue_le_of_subperm
          apply ((List.sublist_append_right _ _).subperm.trans hsub).trans (S.perm current).subperm
        have hlive := hg.sound.live_le
        apply Settles.bind (Settles.of_ok (consolidate_ok (by omega)))
        rintro ⟨leftover, round⟩ hcons
        dsimp only
        split
        · apply Settles.insufficientFunds
        · rename_i htxs
          obtain ⟨hg', hlt⟩ := hg.layer hassign hmint hcons (by simpa using htxs)
          apply ih hg' (by omega)

/-- The residual consolidation ends with a plan. -/
theorem residualLoop_ok {fuel : Nat} (hmax : zatTotal available ≤ maxMoney)
    (hs : Sound available fee direct layers [])
    (hfuel : (unconsumedFeeders layers).length < fuel) :
  ∃ layers', residualLoop S fee fuel layers = .ok layers'
  := by
  induction fuel generalizing layers with
  | zero => omega
  | succ fuel ih =>
    have hlive := hs.unconsumedFeeders.live_le
    simp only [residualLoop]
    split
    · exact ⟨_, rfl⟩
    · obtain ⟨⟨leftover, round⟩, hcons⟩ :
          ∃ r, consolidate S (unconsumedFeeders layers) layers.length fee Round.empty = .ok r :=
        consolidate_ok (hlive.trans hmax)
      rw [hcons]
      simp only [bind, Except.bind]
      split
      · exact ⟨_, rfl⟩
      · rename_i htxs
        obtain ⟨hs', -, hlt⟩ := residual_round hs hcons
        have := hlt (by simpa using htxs)
        apply ih hs' (by omega)

/-! ### The wallet notes -/

theorem exists_sum_of_le {vs : List Zatoshis} (h : zatTotal vs ≤ maxMoney) :
  ∃ w, Zatoshis.sum vs = some w
  := ⟨⟨zatTotal vs, h⟩, Zatoshis.sum_eq_some.mpr rfl⟩

theorem checkTotals_ok (hmax : zatTotal available ≤ maxMoney)
    (hfund : zatTotal funding ≤ maxMoney) :
  checkTotals available funding = .ok ()
  := by
  obtain ⟨a, ha⟩ := exists_sum_of_le hmax
  obtain ⟨f, hf⟩ := exists_sum_of_le hfund
  rw [checkTotals, ha, hf]

theorem extractDirectFunding_ok {values targets : List Nat} {used : List Bool}
    (h : ∀ v ∈ targets, v ≤ maxMoney) :
  ∃ r, extractDirectFunding values targets used = .ok r
  := by
  induction targets generalizing used with
  | nil => exact ⟨_, rfl⟩
  | cons v targets ih =>
    rw [List.forall_mem_cons] at h
    rw [extractDirectFunding]
    split
    · rename_i index hfind
      obtain ⟨value, -, hvalue⟩ := exists_zat (ε := PrepError) h.1
      obtain ⟨r, hr⟩ : ∃ r, extractDirectFunding values targets (used.set index true) = .ok r :=
        ih h.2
      rw [hvalue]
      simp only [bind, Except.bind, hr]
      exact ⟨_, rfl⟩
    · obtain ⟨r, hr⟩ : ∃ r, extractDirectFunding values targets used = .ok r := ih h.2
      simp only [bind, Except.bind, hr]
      exact ⟨_, rfl⟩

theorem walletInputs_ok {notes : List (Nat × Nat)} (h : ∀ note ∈ notes, note.2 ≤ maxMoney) :
  ∃ inputs, walletInputs notes = .ok inputs
  := by
  induction notes with
  | nil => exact ⟨_, rfl⟩
  | cons note notes ih =>
    rw [List.forall_mem_cons] at h
    obtain ⟨value, -, hvalue⟩ := exists_zat (ε := PrepError) h.1
    obtain ⟨inputs, hinputs⟩ := ih h.2
    rw [walletInputs] at hinputs
    rw [walletInputs, List.mapM_cons, hinputs]
    simp only [hvalue, bind, Except.bind, pure, Except.pure]
    exact ⟨_, rfl⟩

theorem unusedNotes_le {used : List Bool} {note : Nat × Nat}
    (h : note ∈ unusedNotes (available.map Zatoshis.value) used) :
  note.2 ≤ maxMoney
  := by
  obtain ⟨⟨value, -, hvalue⟩, -⟩ := mem_unusedNotes.mp h
  apply hvalue ▸ value.le_maxMoney

/-- The requested values that are positive are worth at most what is requested. -/
theorem sum_positiveFunding_le (funding : List Zatoshis) :
  (positiveFunding funding).sum ≤ zatTotal funding
  := by
  rw [(positiveFunding_perm funding).sum_eq, zatTotal]
  apply (List.filter_sublist.map _).sum_le_sum fun _ _ => Nat.zero_le _

/-! ### The two planners -/

/-- The sums over a split of the requested values do not overflow. -/
def Fits (values : List Nat) (fee : Nat) : Prop :=
  values.sum + (fee + 1) * (2 * values.length) < u64Size

theorem Fits.of_subperm {values values' : List Nat} (h : Fits values fee)
    (hs : values'.Subperm values) :
  Fits values' fee
  := by
  obtain ⟨sub, hperm, hsub⟩ := hs
  have hsum : values'.sum ≤ values.sum := by
    rw [← hperm.sum_eq]
    apply hsub.sum_le_sum fun _ _ => Nat.zero_le _
  have hlen : values'.length ≤ values.length := by
    rw [← hperm.length_eq]
    apply hsub.length_le
  have hmul : (fee + 1) * (2 * values'.length) ≤ (fee + 1) * (2 * values.length) :=
    Nat.mul_le_mul_left _ (by omega)
  rw [Fits] at *
  omega

/-- What the exact-match pass leaves is part of what is requested. -/
theorem Matched.remaining_subperm {used used' : List Bool} {values : List Nat}
    (h : Matched available used used' direct values remaining) :
  remaining.Subperm values
  := (List.sublist_append_left _ _).subperm.trans h.split.subperm

/-- The fast path finds whether the largest note can be split, and splits it. -/
theorem fanOut_ok {used : List Bool} (hfits : Fits remaining fee) (hne : remaining ≠ []) :
  ∃ split, fanOut (unusedNotes (available.map Zatoshis.value) used) remaining fee = .ok split
  := by
  rw [fanOut]
  split
  · exact ⟨_, rfl⟩
  · rename_i index big hlargest
    have hmax : big ≤ maxMoney := unusedNotes_le (lastLargest_mem hlargest)
    have hc : Costed remaining fee := costed hne hfits
    rw [hc.eq]
    simp only [bind, Except.bind]
    split
    · rename_i hcost
      obtain ⟨value, -, hvalue⟩ := exists_zat (ε := PrepError) hmax
      obtain ⟨layers, hlayers⟩ : ∃ layers, buildSplit (.wallet index value) big remaining fee 0 []
          = .ok layers := buildSplitWith_ok (Nat.lt_succ_self _) hne
            (twice_length_le hfits) hcost hmax
      rw [hvalue]
      simp only [hlayers]
      exact ⟨_, rfl⟩
    · exact ⟨_, rfl⟩

/-- The greedy returns a plan or reports insufficient funds. -/
theorem planPreparationGreedy_settles {feePerTx : Zatoshis}
    (hmax : zatTotal available ≤ maxMoney) (hfund : zatTotal funding ≤ maxMoney)
    (hfits : Fits (positiveFunding funding) feePerTx.value) :
  Settles (planPreparationGreedy S available funding feePerTx)
  := by
  have hsum := sum_positiveFunding_le funding
  rw [planPreparationGreedy, checkTotals_ok hmax hfund]
  obtain ⟨⟨used, direct, remaining⟩, hextract⟩ : ∃ r, extractDirectFunding
      (available.map Zatoshis.value) (positiveFunding funding)
      (List.replicate (available.map Zatoshis.value).length false) = .ok r := by
    apply extractDirectFunding_ok
    intro v hv
    have := List.single_le_sum (fun _ _ => Nat.zero_le _) v hv
    omega
  have hm := extractDirectFunding_spec hextract
  simp only [hextract, bind, Except.bind]
  split
  · apply Settles.ok _
  · rename_i hempty
    have hne : remaining ≠ [] := by simpa using hempty
    obtain ⟨split, hsplit⟩ : ∃ split, fanOut (unusedNotes (available.map Zatoshis.value) used)
        remaining feePerTx.value = .ok split :=
      fanOut_ok (hfits.of_subperm hm.remaining_subperm) hne
    obtain ⟨current, hcurrent⟩ : ∃ inputs,
        walletInputs (unusedNotes (available.map Zatoshis.value) used) = .ok inputs :=
      walletInputs_ok fun note hnote => unusedNotes_le hnote
    rw [hsplit, hcurrent]
    dsimp only
    have hminting : Settles (mintingLayers S feePerTx.value current remaining split) := by
      cases split with
      | some layers => exact Settles.ok _
      | none =>
        obtain ⟨hs, hready⟩ := hm.sound (List.Sublist.refl _) hcurrent
        apply greedyLoop_settles hmax ⟨hs, hready, List.Perm.refl _⟩ (Nat.lt_succ_self _)
    apply Settles.bind hminting
    intro layers hlayers
    have hs := (mintingLayers_sound feePerTx.le_maxMoney hm hsplit hcurrent hlayers).1
    apply Settles.bind (Settles.of_ok (residualLoop_ok hmax hs (Nat.lt_succ_self _)))
    intro layers' _
    apply Settles.ok _

theorem consolidateAll_settles {fuel : Nat} (hmax : zatTotal available ≤ maxMoney)
    (hs : Sound available fee direct layers current)
    (hready : ∀ i ∈ current, i.readyAt ≤ layers.length) (hpos : 0 < fuel)
    (hfuel : current.length ≤ fuel) :
  Settles (consolidateAll S fee fuel layers current)
  := by
  induction fuel generalizing layers current with
  | zero => omega
  | succ fuel ih =>
    rw [consolidateAll]
    split
    · apply Settles.ok _
    · rename_i hmany
      apply Settles.bind (Settles.of_ok (consolidate_ok (hs.live_le.trans hmax)))
      rintro ⟨leftover, round⟩ hcons
      dsimp only
      split
      · apply Settles.insufficientFunds
      · rename_i htxs
        obtain ⟨hs', hready', -, hlt⟩ := consolidateAll_round hs hready hcons
        have := hlt (by simpa using htxs)
        apply ih hs' hready' (by omega) (by omega)

/-- Consolidation of some notes leaves a note. -/
theorem consolidateAll_ne_nil {fuel : Nat} {current' : List PrepInput} (hne : current ≠ [])
    (h : consolidateAll S fee fuel layers current = .ok (layers', current')) :
  current' ≠ []
  := by
  induction fuel generalizing layers current with
  | zero => cases h
  | succ fuel ih =>
    rw [consolidateAll] at h
    split at h
    · cases h
      apply hne
    · obtain ⟨⟨leftover, round⟩, hcons, h⟩ := Outcome.bind_eq_ok.mp h
      dsimp only at h
      split at h
      · cases h
      · rename_i htxs
        apply ih _ h
        obtain ⟨added, htx, hnext, -⟩ := consolidate_progress hcons
        have : round.txs.length ≠ 0 := by simpa using htxs
        simp only [Round.empty, List.length_nil] at htx hnext
        rw [ne_eq, List.append_eq_nil_iff, not_and_or, ← List.length_eq_zero_iff]
        left
        omega

/-- The fallback returns a plan or reports insufficient funds. -/
theorem planPreparationViaConsolidation_settles {feePerTx : Zatoshis}
    (hmax : zatTotal available ≤ maxMoney) (hfund : zatTotal funding ≤ maxMoney)
    (hfits : Fits (positiveFunding funding) feePerTx.value) :
  Settles (planPreparationViaConsolidation S available funding feePerTx)
  := by
  have hsum := sum_positiveFunding_le funding
  rw [planPreparationViaConsolidation, checkTotals_ok hmax hfund]
  obtain ⟨⟨used, direct, targets⟩, hextract⟩ : ∃ r, extractDirectFunding
      (available.map Zatoshis.value) (positiveFunding funding)
      (List.replicate (available.map Zatoshis.value).length false) = .ok r := by
    apply extractDirectFunding_ok
    intro v hv
    have := List.single_le_sum (fun _ _ => Nat.zero_le _) v hv
    omega
  have hm := extractDirectFunding_spec hextract
  simp only [hextract, bind, Except.bind]
  split
  · apply Settles.ok _
  · rename_i hempty
    have hne : targets ≠ [] := by simpa using hempty
    have htargets := hfits.of_subperm hm.remaining_subperm
    obtain ⟨current, hcurrent⟩ : ∃ inputs, walletInputs ((unusedNotes
        (available.map Zatoshis.value) used).filter fun note => 0 < note.2) = .ok inputs :=
      walletInputs_ok fun note hnote => unusedNotes_le (List.mem_of_mem_filter hnote)
    rw [hcurrent]
    dsimp only
    split
    · apply Settles.insufficientFunds
    · rename_i hsome
      have hcne : current ≠ [] := by simpa using hsome
      obtain ⟨hs, hready⟩ := hm.sound List.filter_sublist hcurrent
      apply Settles.bind (consolidateAll_settles hmax hs hready (List.length_pos_iff.mpr hcne) le_rfl)
      rintro ⟨layers, current'⟩ hall
      have hlast := consolidateAll_ne_nil hcne hall
      dsimp only
      split
      · rename_i hnone
        exact absurd (List.getLast?_eq_none_iff.mp hnone) hlast
      · rename_i source hsource
        have hc : Costed targets feePerTx.value := costed hne htargets
        rw [hc.eq]
        dsimp only
        split
        · apply Settles.insufficientFunds
        · rename_i hcost
          obtain ⟨layers', hlayers'⟩ : ∃ layers', buildSplit source source.value.value targets
              feePerTx.value layers.length layers = .ok layers' :=
            buildSplitWith_ok (Nat.lt_succ_self _) hne (twice_length_le htargets) (by omega)
              source.value.le_maxMoney
          rw [hlayers']
          apply Settles.ok _

/-- The preparation planner returns a plan or reports insufficient funds. -/
theorem planPreparation_settles {feePerTx : Zatoshis}
    (hmax : zatTotal available ≤ maxMoney) (hfund : zatTotal funding ≤ maxMoney)
    (hfits : Fits (positiveFunding funding) feePerTx.value) :
  Settles (planPreparation S available funding feePerTx)
  := by
  rw [planPreparation]
  split
  · apply planPreparationViaConsolidation_settles hmax hfund hfits
  · apply planPreparationGreedy_settles hmax hfund hfits

end Vizor.Planner
