import Vizor.Planner.Status

/-!
# Planning the denominations of a total

The plan for a total takes the largest denomination again and again, each time with a
migration fee, until what is left cannot pay for the smallest one.  Nothing of the total is
lost: it is the split fee, the outputs and their fees, and what is left.
-/

namespace Vizor.Planner

/-! ### The denominations -/

/-- One, two or five times a power of ten, from a hundredth of a ZEC to ten thousand ZEC. -/
def IsDenomination (d : Nat) : Prop :=
  (∃ multiplier ∈ [1, 2, 5], ∃ k, d = zip318MaxResidualValueZatoshi * 10 ^ k * multiplier) ∧
    d ≤ zip318MaxMigrationDenominationZatoshi

theorem mem_denominationSteps {d : Nat} :
  d ∈ denominationSteps ↔ ∃ k < 7, ∃ multiplier ∈ [1, 2, 5],
    d = zip318MaxResidualValueZatoshi * 10 ^ k * multiplier
  := by
  simp only [denominationSteps, List.mem_flatMap, List.mem_map, List.mem_range]
  constructor
  · rintro ⟨magnitude, ⟨k, hk, rfl⟩, hd⟩
    refine ⟨k, hk, ?_⟩
    simpa using hd
  · rintro ⟨k, hk, multiplier, hm, rfl⟩
    refine ⟨_, ⟨k, hk, rfl⟩, ?_⟩
    simp only [List.mem_cons, List.not_mem_nil, or_false] at hm
    rcases hm with rfl | rfl | rfl <;> simp

/-- The values that the source calls canonical are the denominations. -/
theorem isZip318CanonicalDenomination_iff {d : Nat} :
  isZip318CanonicalDenomination d ↔ IsDenomination d
  := by
  constructor
  · intro h
    obtain ⟨hmem, hmax⟩ := mem_denominationSteps_of_canonical h
    obtain ⟨k, -, multiplier, hm, hd⟩ := mem_denominationSteps.mp hmem
    exact ⟨⟨multiplier, hm, k, hd⟩, hmax⟩
  · rintro ⟨⟨multiplier, hm, k, rfl⟩, hmax⟩
    have hall : ∀ d ∈ denominationSteps, d ≤ zip318MaxMigrationDenominationZatoshi →
        isZip318CanonicalDenomination d := by decide
    apply hall _ _ hmax
    refine mem_denominationSteps.mpr ⟨k, ?_, multiplier, hm, rfl⟩
    by_contra hk
    have hpow : 10 ^ 7 ≤ 10 ^ k := Nat.pow_le_pow_right (by decide) (by omega)
    have hone : 1 ≤ multiplier := by
      simp only [List.mem_cons, List.not_mem_nil, or_false] at hm
      omega
    have hle : zip318MaxResidualValueZatoshi * 10 ^ 7 * 1
        ≤ zip318MaxResidualValueZatoshi * 10 ^ k * multiplier :=
      Nat.mul_le_mul (Nat.mul_le_mul_left _ hpow) hone
    exact absurd (hle.trans hmax) (by decide)

/-- A denomination that is the greatest one not above a value. -/
structure GreatestBelow (value d : Nat) : Prop where
  denomination : IsDenomination d
  le : d ≤ value
  greatest : ∀ d', IsDenomination d' → d' ≤ value → d' ≤ d

theorem largestZip318DenominationAtOrBelow_greatest {value d : Nat}
    (h : largestZip318DenominationAtOrBelow value = some d) :
  GreatestBelow value d
  := by
  constructor
  · apply isZip318CanonicalDenomination_iff.mp (isZip318CanonicalDenomination_of_largest h)
  · apply le_of_largestZip318DenominationAtOrBelow h
  · intro d' hd' hle
    apply le_largestZip318DenominationAtOrBelow h (isZip318CanonicalDenomination_iff.mpr hd') hle

theorem exists_largestZip318DenominationAtOrBelow {value : Nat}
    (h : zip318MaxResidualValueZatoshi ≤ value) :
  ∃ d, largestZip318DenominationAtOrBelow value = some d ∧ GreatestBelow value d
  := by
  obtain ⟨d, hd⟩ := Option.isSome_iff_exists.mp (largestZip318DenominationAtOrBelow_isSome h)
  exact ⟨d, hd, largestZip318DenominationAtOrBelow_greatest hd⟩

/-! ### The loop -/

/-- What the denominations taken from an amount promise. -/
structure Taken (migrationFee amount : Nat) (outputs : List Nat) (rest : Nat) : Prop where
  canonical : ∀ d ∈ outputs, IsDenomination d
  decreasing : outputs.Pairwise (· ≥ ·)
  total : outputs.sum + migrationFee * outputs.length + rest = amount
  small : rest < zip318MaxResidualValueZatoshi + migrationFee

/-- The loop ends, and takes denominations until the rest is too small for one. -/
theorem denominationLoop_taken {migrationFee fuel amount : Nat} (hfuel : amount < fuel) :
  ∃ outputs rest, denominationLoop migrationFee fuel amount = .ok (outputs, rest) ∧
    Taken migrationFee amount outputs rest
  := by
  induction fuel generalizing amount with
  | zero => omega
  | succ fuel ih =>
    have hpos : 0 < zip318MaxResidualValueZatoshi := by decide
    rw [denominationLoop]
    split
    · exact ⟨[], amount, rfl, by simp, by simp, by simp, by omega⟩
    · rename_i hfee
      cases hlargest : largestZip318DenominationAtOrBelow (amount - migrationFee) with
      | none =>
        refine ⟨[], amount, rfl, by simp, by simp, by simp, ?_⟩
        by_contra hroom
        obtain ⟨d, hd, -⟩ := exists_largestZip318DenominationAtOrBelow
          (show zip318MaxResidualValueZatoshi ≤ amount - migrationFee by omega)
        rw [hlargest] at hd
        cases hd
      | some d =>
        have hgreatest := largestZip318DenominationAtOrBelow_greatest hlargest
        have hle := hgreatest.le
        have hmin : zip318MaxResidualValueZatoshi ≤ d :=
          le_of_isZip318CanonicalDenomination (isZip318CanonicalDenomination_of_largest hlargest)
        dsimp only
        rw [if_neg (by omega)]
        obtain ⟨outputs, rest, hloop, htaken⟩ :=
          ih (show amount - d - migrationFee < fuel by omega)
        rw [hloop]
        refine ⟨d :: outputs, rest, rfl, ?_, ?_, ?_, htaken.small⟩
        · rw [List.forall_mem_cons]
          exact ⟨hgreatest.denomination, htaken.canonical⟩
        · rw [List.pairwise_cons]
          refine ⟨?_, htaken.decreasing⟩
          intro d' hd'
          apply hgreatest.greatest d' (htaken.canonical d' hd')
          have := List.single_le_sum (fun _ _ => Nat.zero_le _) d' hd'
          have := htaken.total
          omega
        · have := htaken.total
          rw [List.sum_cons, List.length_cons, Nat.mul_succ]
          omega

/-! ### The plan -/

/-- What the plan for a total promises, with what is left of the total. -/
structure Planned (totalInput migrationFee minimumOutput : Nat) (plan : DenominationPlan)
    (leftover : Nat) : Prop where
  taken : Taken migrationFee (totalInput - plan.splitFeeZatoshi) plan.migrationOutputs leftover
  splitFee : plan.splitFeeZatoshi ≤ totalInput
  change : plan.orchardChange
    = if plan.splitFeeZatoshi < totalInput ∧ minimumOutput ≤ leftover then some leftover else none
  migratable : plan.totalMigratableZatoshi = plan.migrationOutputs.sum

/-- Every total has a plan, whose outputs are denominations in decreasing order, and which
leaves less than the smallest denomination and its fee; and the source's choice of a
denomination is the greatest one. -/
theorem planDenominations_exact :
  (∀ totalInput splitFee migrationFee minimumOutput, totalInput < u64Size →
    ∃ plan leftover,
      planDenominations totalInput splitFee migrationFee minimumOutput = .ok plan ∧
      plan.splitFeeZatoshi = min splitFee totalInput ∧
      Planned totalInput migrationFee minimumOutput plan leftover ∧
      plan.splitFeeZatoshi + plan.migrationOutputs.sum
        + migrationFee * plan.migrationOutputs.length + leftover = totalInput) ∧
  ∀ value, zip318MaxResidualValueZatoshi ≤ value →
    ∃ d, largestZip318DenominationAtOrBelow value = some d ∧ GreatestBelow value d
  := by
  refine ⟨?_, fun value h => exists_largestZip318DenominationAtOrBelow h⟩
  intro totalInput splitFee migrationFee minimumOutput hword
  have hpos : 0 < zip318MaxResidualValueZatoshi := by decide
  rw [planDenominations]
  split
  · rename_i hsmall
    refine ⟨_, 0, rfl, by simp; omega, ⟨⟨by simp, by simp, by simp, by omega⟩, le_rfl, ?_, rfl⟩,
      by simp⟩
    simp
  · rename_i hlarge
    obtain ⟨outputs, rest, hloop, htaken⟩ :=
      @denominationLoop_taken migrationFee _ _ (Nat.lt_succ_self (totalInput - splitFee))
    have htotal := htaken.total
    have hchecked : checkedSum outputs "Migratable total overflow" = .ok outputs.sum :=
      checkedSum_eq_ok.mpr ⟨by omega, rfl⟩
    simp only [hloop, hchecked, bind, Except.bind]
    refine ⟨_, rest, rfl, by simp; omega, ⟨htaken, by simp; omega, ?_, rfl⟩, by simp; omega⟩
    have hlt : splitFee < totalInput := by omega
    simp [hlt]

theorem planDenominations_exact_oneOutput :
  (∃ plan leftover, planDenominations 1095000 80000 15000 1 = .ok plan ∧
    plan.splitFeeZatoshi = min 80000 1095000 ∧
    Planned 1095000 15000 1 plan leftover ∧
    plan.splitFeeZatoshi + plan.migrationOutputs.sum + 15000 * plan.migrationOutputs.length
      + leftover = 1095000) ∧
  ∃ d, largestZip318DenominationAtOrBelow 3000000 = some d ∧ GreatestBelow 3000000 d
  := ⟨planDenominations_exact.1 1095000 80000 15000 1 (by decide),
    planDenominations_exact.2 3000000 (by decide)⟩

/-- The outputs, their fees and the rest do not add up to the total: there is the split fee
as well. -/
theorem planDenominations_splitFee :
  ∃ plan, planDenominations 1095000 80000 15000 1 = .ok plan ∧ plan.orchardChange = none ∧
    plan.migrationOutputs.sum + 15000 * plan.migrationOutputs.length ≠ 1095000
  := ⟨{ migrationOutputs := [1000000], orchardChange := none, splitFeeZatoshi := 80000,
        migrationFeeZatoshi := 15000, totalInputZatoshi := 1095000,
        totalMigratableZatoshi := 1000000 }, by decide +kernel, rfl, by decide⟩

end Vizor.Planner
