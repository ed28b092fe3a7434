import Vizor.Planner.PaddedTotality

/-!
# The balance status

The status of a wallet says from its total balance alone whether it can create a migration
output: it plans denominations for the total, with the fee of one preparation transaction
and without looking at the notes.
-/

namespace Vizor.Planner

variable {inputValues : List Nat} {migrationFee : Nat} {S : NoteSort}

/-! ### Denominations of a total -/

/-- The smallest migration output. -/
def minIronwoodMigrationOutputZatoshi : Nat := 1

/-- The migration fee that the status assumes. -/
def migrationStatusFeeEstimateZatoshi : Nat := 15000

/-- The preparation fee that the status assumes. -/
def denominationSplitStatusFeeEstimateZatoshi : Nat := 80000

/-- Taking the largest denomination as long as it can be paid with its fee, at most `fuel`
times: the denominations, and what remains. -/
def denominationLoop (migrationFee : Nat) :
    (fuel remaining : Nat) → Outcome String (List Nat × Nat)
  | 0, _ => .error .outOfFuel
  | fuel + 1, remaining =>
    if remaining < migrationFee then .ok ([], remaining)
    else
      match largestZip318DenominationAtOrBelow (remaining - migrationFee) with
      | none => .ok ([], remaining)
      | some denomination =>
        if remaining < denomination + migrationFee then
          .error (.error "Canonical denomination fee underflow")
        else do
          let (outputs, rest) ←
            denominationLoop migrationFee fuel (remaining - denomination - migrationFee)
          pure (denomination :: outputs, rest)

/-- The denominations of a total, after one split fee. -/
def planDenominations (totalInput splitFee migrationFee minimumOutput : Nat) :
    Outcome String DenominationPlan :=
  if totalInput ≤ splitFee then
    .ok {
      migrationOutputs := []
      orchardChange := none
      splitFeeZatoshi := totalInput
      migrationFeeZatoshi := migrationFee
      totalInputZatoshi := totalInput
      totalMigratableZatoshi := 0 }
  else do
    let (outputs, remaining) ←
      denominationLoop migrationFee (totalInput - splitFee + 1) (totalInput - splitFee)
    let totalMigratableZatoshi ← checkedSum outputs "Migratable total overflow"
    pure {
      migrationOutputs := outputs
      orchardChange := if minimumOutput ≤ remaining then some remaining else none
      splitFeeZatoshi := splitFee
      migrationFeeZatoshi := migrationFee
      totalInputZatoshi := totalInput
      totalMigratableZatoshi }

/-- Whether a balance can create a migration output, as the status sees it. -/
def orchardBalanceCanCreateMigrationOutput (orchardSpendable : Nat) : Outcome String Bool :=
  if orchardSpendable = 0 then .ok false
  else do
    let plan ← planDenominations orchardSpendable denominationSplitStatusFeeEstimateZatoshi
      migrationStatusFeeEstimateZatoshi minIronwoodMigrationOutputZatoshi
    pure (!plan.migrationOutputs.isEmpty)

/-- The loop ends; it takes a denomination when one can be paid, and never takes more than
there is. -/
theorem denominationLoop_ok {fuel remaining : Nat} (hfuel : remaining < fuel) :
  ∃ outputs rest, denominationLoop migrationFee fuel remaining = .ok (outputs, rest) ∧
    (outputs = [] ↔ remaining < zip318MaxResidualValueZatoshi + migrationFee) ∧
    outputs.sum ≤ remaining
  := by
  induction fuel generalizing remaining with
  | zero => omega
  | succ fuel ih =>
    rw [denominationLoop]
    split
    · exact ⟨[], remaining, rfl, by simp; omega, by simp⟩
    · split
      · rename_i hnone
        refine ⟨[], remaining, rfl, ?_, by simp⟩
        by_contra hroom
        have hsome : (largestZip318DenominationAtOrBelow (remaining - migrationFee)).isSome :=
          largestZip318DenominationAtOrBelow_isSome (by simp at hroom; omega)
        simp [hnone] at hsome
      · rename_i denomination hsome
        have hle := le_of_largestZip318DenominationAtOrBelow hsome
        have hmin := le_of_isZip318CanonicalDenomination
          (isZip318CanonicalDenomination_of_largest hsome)
        have hpos : 0 < zip318MaxResidualValueZatoshi := by decide
        rw [if_neg (by omega)]
        obtain ⟨outputs, rest, hloop, -, hsum⟩ :=
          ih (by omega : remaining - denomination - migrationFee < fuel)
        rw [hloop]
        refine ⟨denomination :: outputs, rest, rfl, ?_, ?_⟩
        · simp only [reduceCtorEq, false_iff]
          omega
        · rw [List.sum_cons]
          omega

/-- A total that fits a word can be planned, and has no denomination when it is too small
for one. -/
theorem planDenominations_ok {total splitFee minimumOutput : Nat} (h : total < u64Size) :
  ∃ plan, planDenominations total splitFee migrationFee minimumOutput = .ok plan ∧
    (plan.migrationOutputs = []
      ↔ total < zip318MaxResidualValueZatoshi + migrationFee + splitFee)
  := by
  have hpos : 0 < zip318MaxResidualValueZatoshi := by decide
  rw [planDenominations]
  split
  · rename_i hsmall
    refine ⟨_, rfl, ?_⟩
    simp only [true_iff]
    omega
  · rename_i hlarge
    obtain ⟨outputs, rest, hloop, hempty, hsum⟩ : ∃ outputs rest,
        denominationLoop migrationFee (total - splitFee + 1) (total - splitFee)
          = .ok (outputs, rest) ∧
        (outputs = [] ↔ total - splitFee < zip318MaxResidualValueZatoshi + migrationFee) ∧
        outputs.sum ≤ total - splitFee := denominationLoop_ok (by omega)
    have hchecked : checkedSum outputs "Migratable total overflow" = .ok outputs.sum :=
      checkedSum_eq_ok.mpr ⟨by omega, rfl⟩
    simp only [hloop, hchecked, bind, Except.bind]
    refine ⟨_, rfl, ?_⟩
    dsimp only
    rw [hempty]
    omega

/-- The smallest migration funding note. -/
def minimumFundingNote : Nat :=
  zip318MaxResidualValueZatoshi + migrationStatusFeeEstimateZatoshi

/-- The smallest balance for which the status is positive: the smallest funding note and
one preparation fee. -/
def minimumMigratableBalance : Nat :=
  minimumFundingNote + denominationSplitStatusFeeEstimateZatoshi

/-- The status of a balance that fits a word. -/
theorem orchardBalanceCanCreateMigrationOutput_eq {total : Nat} (h : total < u64Size) :
  orchardBalanceCanCreateMigrationOutput total
    = .ok (decide (minimumMigratableBalance ≤ total))
  := by
  have hpos : 0 < minimumMigratableBalance := by decide
  rw [orchardBalanceCanCreateMigrationOutput]
  split
  · have : ¬ minimumMigratableBalance ≤ total := by omega
    rw [decide_eq_false this]
  · obtain ⟨plan, hplan, hempty⟩ : ∃ plan, planDenominations total
        denominationSplitStatusFeeEstimateZatoshi migrationStatusFeeEstimateZatoshi
        minIronwoodMigrationOutputZatoshi = .ok plan ∧ (plan.migrationOutputs = []
          ↔ total < minimumMigratableBalance) := planDenominations_ok h
    rw [hplan]
    simp only [bind, Except.bind, pure, Except.pure, Except.ok.injEq]
    rw [Bool.eq_iff_iff, Bool.not_eq_true', List.isEmpty_eq_false_iff, ne_eq, hempty,
      decide_eq_true_iff, not_lt]

/-! ### The status and the planner -/

/-- At the fees that the status assumes, every list of canonical crossings within the
money supply fits. -/
private theorem fits_at_status_fees :
  ∀ values, Canonical values → True →
    (values.map (fundingOf migrationStatusFeeEstimateZatoshi)).sum ≤ maxMoney →
      ∀ d, isZip318CanonicalDenomination d →
        ((values ++ [d]).map (fundingOf migrationStatusFeeEstimateZatoshi)).sum ≤ maxMoney →
          Fits ((values ++ [d]).map (fundingOf migrationStatusFeeEstimateZatoshi))
            denominationSplitStatusFeeEstimateZatoshi
  := by
  intro values hvalues _ _ d hd hsum
  apply Fits.of_crossings _ hsum (by decide)
  intro v hv
  rcases List.mem_append.mp hv with hv | hv
  · apply hvalues v hv
  · rw [List.mem_singleton.mp hv]
    apply hd

/-- The planner at the fees that the status assumes. -/
def statusPlan (S : NoteSort) (inputValues : List Nat) :
    Outcome String (Option PaddedDenominationPlan) :=
  planPaddedDenominationsWithoutRefinement S inputValues denominationSplitStatusFeeEstimateZatoshi
    migrationStatusFeeEstimateZatoshi minIronwoodMigrationOutputZatoshi

/-- How the planner ends at these fees. -/
private theorem statusPlan_spec (S : NoteSort) (hsum : inputValues.sum ≤ maxMoney) :
  (positiveIndices inputValues = [] ∧ statusPlan S inputValues = .ok none) ∨
  ∃ context crossings preparation,
    ContextOf inputValues denominationSplitStatusFeeEstimateZatoshi context ∧
    Grown S context denominationSplitStatusFeeEstimateZatoshi migrationStatusFeeEstimateZatoshi
      crossings (crossings.map (fundingOf migrationStatusFeeEstimateZatoshi)) preparation ∧
    (crossings = [] → statusPlan S inputValues = .ok none) ∧
    (crossings ≠ [] → ∃ plan, statusPlan S inputValues = .ok (some plan))
  := by
  have hspec := planPaddedDenominationsWithoutRefinement_spec S (I := fun _ => True) hsum
    (by decide) (by decide) (by decide) fits_at_status_fees
    (fun _ _ _ _ _ _ _ _ _ _ _ _ _ _ => trivial) trivial
  rcases hspec with hnone | ⟨context, crossings, preparation, hc, hgrown, -, hempty, hsome⟩
  · exact .inl hnone
  · right
    refine ⟨context, crossings, preparation, hc, hgrown, hempty, fun hne => ?_⟩
    obtain ⟨plan, hplan, -⟩ := hsome hne
    exact ⟨plan, hplan⟩

/-- One wallet note is worth the smallest funding note and a fee: the planner finds a plan. -/
theorem statusPlan_of_note (S : NoteSort) (hsum : inputValues.sum ≤ maxMoney) {note : Nat}
    (hnote : note ∈ inputValues) (hlarge : minimumMigratableBalance ≤ note) :
  ∃ plan, statusPlan S inputValues = .ok (some plan)
  := by
  have hpos : 0 < minimumMigratableBalance := by decide
  have hnotele : note ≤ inputValues.sum := List.single_le_sum (fun _ _ => Nat.zero_le _) note hnote
  rcases statusPlan_spec S hsum with ⟨hnone, -⟩ | ⟨context, crossings, preparation, hc, hgrown,
    -, hsome⟩
  · have hmem : note ∈ inputValues.filter fun v => 0 < v :=
      List.mem_filter.mpr ⟨hnote, decide_eq_true (by omega)⟩
    rw [← map_positiveIndices, hnone] at hmem
    cases hmem
  · apply hsome
    rintro rfl
    have hmin : isZip318CanonicalDenomination zip318MaxResidualValueZatoshi := by decide
    have hmoney : zatTotal context.available ≤ maxMoney := by rw [hc.zatTotal_eq, hc.total]; exact hsum
    have hclosed := hgrown.closed zip318MaxResidualValueZatoshi hmin (by
      rw [hgrown.start rfl, hc.total]
      simp only [List.map_nil, List.sum_nil, PreparationPlan.transactionCount, Nat.mul_zero,
        Nat.zero_add, fundingOf]
      rw [minimumMigratableBalance, minimumFundingNote] at hlarge
      omega)
    let funding : Zatoshis := ⟨minimumFundingNote, by decide⟩
    have hfunding : positiveFunding [funding] = [minimumFundingNote] := rfl
    obtain ⟨plan, hplan⟩ : ∃ plan, planPreparationGreedy S context.available [funding]
        context.prepFee = .ok plan := by
      apply planPreparationGreedy_of_cover hmoney (by decide)
      · rw [hfunding, ← List.nil_append [minimumFundingNote]]
      · apply List.singleton_subperm_iff.mpr
        rw [hc.available]
        apply List.mem_filter.mpr ⟨hnote, decide_eq_true (by omega)⟩
      · rw [hc.fee]
        simpa [minimumMigratableBalance] using hlarge
      · simp
      · rw [hc.fee]
        decide
    have htyped : [funding].map Zatoshis.value
        = [zip318MaxResidualValueZatoshi].map (fundingOf migrationStatusFeeEstimateZatoshi) := rfl
    have hprepared := preparationForCrossings_of_plan (by simpa [Canonical] using hmin) htyped
      hmoney hc.zatTotal_eq (by rw [planPreparation, hplan])
    rw [hc.fee] at hprepared
    rw [List.nil_append, hprepared] at hclosed
    cases hclosed

/-- A plan for a total below the smallest migratable balance uses a wallet note as it is. -/
theorem statusPlan_of_small (S : NoteSort) (hsmall : inputValues.sum < minimumMigratableBalance)
    (hnote : minimumFundingNote ∉ inputValues) :
  statusPlan S inputValues = .ok none
  := by
  have hmax : minimumMigratableBalance ≤ maxMoney := by decide
  have hsum : inputValues.sum ≤ maxMoney := by omega
  rcases statusPlan_spec S hsum with ⟨-, hplan⟩ | ⟨context, crossings, preparation, hc,
    hgrown, hempty, -⟩
  · apply hplan
  · apply hempty
    by_contra hne
    obtain ⟨typed, htyped, hmeets⟩ :=
      meets_of_preparationForCrossings hgrown.prepared.canonical (hgrown.prepared.prepared hne)
    obtain ⟨crossing, rest, rfl⟩ := List.exists_cons_of_ne_nil hne
    have hcanonical := hgrown.prepared.canonical crossing List.mem_cons_self
    have hmin := le_of_isZip318CanonicalDenomination hcanonical
    have hflow := hmeets.flow_le
    have htotal : zatTotal typed = fundingOf migrationStatusFeeEstimateZatoshi crossing
        + (rest.map (fundingOf migrationStatusFeeEstimateZatoshi)).sum := by
      rw [zatTotal, htyped, List.map_cons, List.sum_cons]
    rw [htotal, hc.zatTotal_eq, hc.total, hc.fee, fundingOf] at hflow
    rw [minimumMigratableBalance, minimumFundingNote] at hsmall
    have hdirect : preparation.layers.flatten = [] := by
      rw [← List.length_eq_zero_iff]
      have hfee : denominationSplitStatusFeeEstimateZatoshi = 80000 := rfl
      rw [hfee] at hsmall hflow
      omega
    have hcrossing : crossing = zip318MaxResidualValueZatoshi := by
      have hlt : crossing < zip318MaxResidualValueZatoshi * 2 := by
        have hdouble : denominationSplitStatusFeeEstimateZatoshi
            ≤ zip318MaxResidualValueZatoshi := by decide
        omega
      have hall : ∀ d ∈ denominationSteps, d < zip318MaxResidualValueZatoshi * 2 →
          d = zip318MaxResidualValueZatoshi := by decide
      apply hall crossing (mem_denominationSteps_of_canonical hcanonical).1 hlt
    have hmem : minimumFundingNote ∈ typed.map Zatoshis.value := by
      rw [htyped, List.map_cons, hcrossing]
      apply List.mem_cons_self
    obtain ⟨value, hvalue, heq⟩ := List.mem_map.mp hmem
    have hfunding := hmeets.funding.mem_iff.mpr hvalue
    rw [PreparationPlan.fundingNotes, hdirect] at hfunding
    obtain ⟨note, hnote', rfl⟩ := List.mem_map.mp hfunding
    have hav := hmeets.walletValue note (List.mem_append_left _ hnote')
    have hwallet : minimumFundingNote ∈ context.available.map Zatoshis.value := by
      rw [← heq]
      apply List.mem_map_of_mem (List.mem_of_getElem? hav)
    rw [hc.available] at hwallet
    apply hnote (List.mem_of_mem_filter hwallet)

/-- For notes within the money supply, the status and the planner agree where one wallet
note alone is large enough, and where the total is too small and no wallet note is a
funding note as it is. -/
theorem orchardBalance_agrees_with_planner (S : NoteSort) (inputValues : List Nat)
    (hsum : inputValues.sum ≤ maxMoney) :
  ((∃ note ∈ inputValues, minimumMigratableBalance ≤ note) →
    orchardBalanceCanCreateMigrationOutput inputValues.sum = .ok true ∧
      ∃ plan, statusPlan S inputValues = .ok (some plan)) ∧
  (inputValues.sum < minimumMigratableBalance → minimumFundingNote ∉ inputValues →
    orchardBalanceCanCreateMigrationOutput inputValues.sum = .ok false ∧
      statusPlan S inputValues = .ok none)
  := by
  have hword : inputValues.sum < u64Size := by
    have : maxMoney < u64Size := by decide
    omega
  rw [orchardBalanceCanCreateMigrationOutput_eq hword]
  constructor
  · rintro ⟨note, hnote, hlarge⟩
    have hle := List.single_le_sum (fun _ _ => Nat.zero_le _) note hnote
    exact ⟨by rw [decide_eq_true (hlarge.trans hle)], statusPlan_of_note S hsum hnote hlarge⟩
  · intro hsmall hnote
    exact ⟨by rw [decide_eq_false (by omega)], statusPlan_of_small S hsmall hnote⟩

/-- A note of 0.03 ZEC, and two notes of half the smallest denomination. -/
theorem orchardBalance_agrees_with_planner_notes :
  (orchardBalanceCanCreateMigrationOutput 3000000 = .ok true ∧
    ∃ plan, statusPlan .insertion [3000000] = .ok (some plan)) ∧
  (orchardBalanceCanCreateMigrationOutput 1000000 = .ok false ∧
    statusPlan .insertion [500000, 500000] = .ok none)
  := ⟨(orchardBalance_agrees_with_planner .insertion [3000000] (by decide)).1
      ⟨3000000, by decide, by decide⟩,
    (orchardBalance_agrees_with_planner .insertion [500000, 500000] (by decide)).2 (by decide)
      (by decide)⟩

/-- Two notes that are worth the smallest migratable balance together cannot also pay for
their consolidation: the status is positive, and the planner has no plan. -/
theorem orchardBalance_disagrees_on_fragments :
  ¬ ∀ inputValues : List Nat,
    orchardBalanceCanCreateMigrationOutput inputValues.sum = .ok true
      ↔ ∃ plan, statusPlan .insertion inputValues = .ok (some plan)
  := by
  intro h
  have hstatus : orchardBalanceCanCreateMigrationOutput 1100000 = .ok true := by decide +kernel
  have hplan : statusPlan .insertion [550000, 550000] = .ok none := by decide +kernel
  obtain ⟨plan, hsome⟩ := (h [550000, 550000]).mp hstatus
  rw [hplan] at hsome
  cases hsome

end Vizor.Planner
