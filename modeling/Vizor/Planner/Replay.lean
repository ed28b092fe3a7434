import Vizor.Planner.Padded

/-!
# Replaying an approved plan

The preparation planner, and with it every decision of the padded planner but the random
refinement, depends only on the multiset of the crossings.  The forward planner stops only
when no further denomination can be appended, which is what the replay checks.
-/

namespace Vizor.Planner

variable {S : NoteSort} {context : PlanningContext} {crossings crossings' : List Nat}
  {fundingValues : List Nat} {preparation : PreparationPlan}
  {feePerStage migrationFee minimumOutput : Nat} {σ : Type}

/-! ### Order does not matter -/

theorem sortDescending_congr {values values' : List Nat} (h : values.Perm values') :
  sortDescending values = sortDescending values'
  := by
  apply List.Perm.eq_of_pairwise' (sortDescending_pairwise _) (sortDescending_pairwise _)
  apply (sortDescending_perm values).trans (h.trans (sortDescending_perm values').symm)

theorem checkTotals_congr {available funding funding' : List Zatoshis}
    (h : funding.Perm funding') :
  checkTotals available funding = checkTotals available funding'
  := by
  rw [checkTotals, checkTotals, Zatoshis.sum_perm h]

theorem positiveFunding_congr {funding funding' : List Zatoshis} (h : funding.Perm funding') :
  positiveFunding funding = positiveFunding funding'
  := sortDescending_congr ((h.map _).filter _)

/-- The preparation plan does not depend on the order of the funding values. -/
theorem planPreparation_congr {available funding funding' : List Zatoshis} {fee : Zatoshis}
    (h : funding.Perm funding') :
  planPreparation S available funding fee = planPreparation S available funding' fee
  := by
  simp only [planPreparation, planPreparationGreedy, planPreparationViaConsolidation,
    checkTotals_congr h, positiveFunding_congr h]

/-! ### Preparation for a list of crossings -/

/-- The funding value of a crossing. -/
def fundingOf (migrationFee crossing : Nat) : Nat := crossing + migrationFee

theorem mapM_checkedAdd_eq_ok {context : String} :
  (crossings.mapM fun crossing => checkedAdd crossing migrationFee context) = .ok fundingValues
    ↔ fundingValues = crossings.map (fundingOf migrationFee) ∧
      ∀ v ∈ fundingValues, v < u64Size
  := by
  induction crossings generalizing fundingValues with
  | nil => cases fundingValues <;> simp
  | cons crossing crossings ih =>
    simp only [List.mapM_cons, Outcome.bind_eq_ok, Outcome.pure_eq_ok, ih, checkedAdd_eq_ok,
      List.map_cons]
    constructor
    · rintro ⟨v, ⟨hlt, rfl⟩, vs, ⟨rfl, hvs⟩, rfl⟩
      rw [List.forall_mem_cons]
      exact ⟨rfl, hlt, hvs⟩
    · rintro ⟨rfl, h⟩
      rw [List.forall_mem_cons] at h
      exact ⟨_, ⟨h.1, rfl⟩, _, ⟨rfl, h.2⟩, rfl⟩

theorem mapM_toZatoshis_eq_ok {values : List Nat} {context : String} {vs : List Zatoshis} :
  (values.mapM fun value => toZatoshis value context) = .ok vs
    ↔ vs.map Zatoshis.value = values
  := by
  induction values generalizing vs with
  | nil => cases vs <;> simp
  | cons value values ih =>
    simp only [List.mapM_cons, Outcome.bind_eq_ok, toZatoshis_eq_ok, ih, Outcome.pure_eq_ok]
    constructor
    · rintro ⟨v, rfl, vs, rfl, rfl⟩
      rfl
    · intro h
      obtain ⟨v, ws, rfl, hv, hws⟩ := List.map_eq_cons_iff.mp h
      exact ⟨v, hv, ws, hws, rfl⟩

/-- What a successful preparation for a list of crossings computes. -/
theorem preparationForCrossings_eq_ok {result : Option (List Nat × PreparationPlan)} :
  preparationForCrossings S context crossings feePerStage migrationFee = .ok result
    ↔ ∃ typed : List Zatoshis, typed.map Zatoshis.value = crossings.map (fundingOf migrationFee) ∧
      ∃ outcome,
        preparationOutcome (planPreparation S context.available typed context.prepFee)
          = .ok outcome ∧
        match outcome with
        | none => result = none
        | some plan => ∃ committed,
            committedValue (crossings.map (fundingOf migrationFee)) plan feePerStage
              = .ok committed ∧
            result = if committed ≤ context.totalInputZatoshi then
                some (crossings.map (fundingOf migrationFee), plan) else none
  := by
  simp only [preparationForCrossings, Outcome.bind_eq_ok, mapM_checkedAdd_eq_ok,
    mapM_toZatoshis_eq_ok]
  constructor
  · rintro ⟨_, ⟨rfl, -⟩, typed, htyped, outcome, houtcome, h⟩
    refine ⟨typed, htyped, outcome, houtcome, ?_⟩
    cases outcome with
    | none =>
      cases h
      rfl
    | some plan =>
      obtain ⟨committed, hcommitted, h⟩ := Outcome.bind_eq_ok.mp h
      refine ⟨committed, hcommitted, ?_⟩
      split at h
      · rename_i hle
        cases h
        rw [if_pos hle]
      · rename_i hle
        cases h
        rw [if_neg hle]
  · rintro ⟨typed, htyped, outcome, houtcome, h⟩
    have hsmall : ∀ v ∈ crossings.map (fundingOf migrationFee), v < u64Size := by
      intro v hv
      rw [← htyped] at hv
      obtain ⟨w, -, rfl⟩ := List.mem_map.mp hv
      apply lt_of_le_of_lt w.le_maxMoney (by decide)
    refine ⟨_, ⟨rfl, hsmall⟩, typed, htyped, outcome, houtcome, ?_⟩
    cases outcome with
    | none =>
      rw [h]
      rfl
    | some plan =>
      obtain ⟨committed, hcommitted, rfl⟩ := h
      apply Outcome.bind_eq_ok.mpr
      refine ⟨committed, hcommitted, ?_⟩
      split <;> rfl

theorem exists_zatoshis_of_forall_le {values : List Nat} (h : ∀ v ∈ values, v ≤ maxMoney) :
  ∃ vs : List Zatoshis, vs.map Zatoshis.value = values
  := by
  use values.pmap Zatoshis.mk h
  rw [List.map_pmap]
  simp

theorem committedValue_congr {values values' : List Nat} (h : values.Perm values') :
  committedValue values preparation feePerStage = committedValue values' preparation feePerStage
  := by
  simp only [committedValue, checkedSum, h.sum_eq]

/-- Reordering crossings that can be prepared reorders their funding values and leaves
their preparation as it is; crossings that cannot be prepared cannot be in any order. -/
theorem preparationForCrossings_perm {result : Option (List Nat × PreparationPlan)}
    (hp : crossings.Perm crossings')
    (h : preparationForCrossings S context crossings feePerStage migrationFee = .ok result) :
  preparationForCrossings S context crossings' feePerStage migrationFee
    = .ok (result.map fun r => (crossings'.map (fundingOf migrationFee), r.2))
  := by
  obtain ⟨typed, htyped, outcome, houtcome, hresult⟩ := preparationForCrossings_eq_ok.mp h
  have hmap := hp.map (fundingOf migrationFee)
  obtain ⟨typed', htyped'⟩ : ∃ vs : List Zatoshis,
      vs.map Zatoshis.value = crossings'.map (fundingOf migrationFee) := by
    apply exists_zatoshis_of_forall_le
    intro v hv
    rw [← hmap.mem_iff, ← htyped] at hv
    obtain ⟨w, -, rfl⟩ := List.mem_map.mp hv
    apply w.le_maxMoney
  have hperm : typed'.Perm typed := by
    rw [← List.map_perm_map_iff (f := Zatoshis.value) (fun v w hvw => Zatoshis.ext hvw),
      htyped, htyped']
    apply hmap.symm
  rw [preparationForCrossings_eq_ok]
  refine ⟨typed', htyped', outcome, by rw [planPreparation_congr hperm, houtcome], ?_⟩
  cases outcome with
  | none =>
    rw [hresult]
    rfl
  | some plan =>
    obtain ⟨committed, hcommitted, rfl⟩ := hresult
    refine ⟨committed, by rw [← committedValue_congr hmap, hcommitted], ?_⟩
    split <;> rfl

/-! ### The forward planner -/

/-- The state of the forward planner between two extensions: the crossings are canonical,
and they are prepared, or there are none yet. -/
structure Prepared (S : NoteSort) (context : PlanningContext) (feePerStage migrationFee : Nat)
    (crossings fundingValues : List Nat) (preparation : PreparationPlan) : Prop where
  canonical : Canonical crossings
  funding : fundingValues = crossings.map (fundingOf migrationFee)
  prepared : crossings ≠ [] →
    preparationForCrossings S context crossings feePerStage migrationFee
      = .ok (some (fundingValues, preparation))

/-- A prepared list of crossings has the funding values of its crossings. -/
theorem Prepared.of_preparationForCrossings (hc : Canonical crossings)
    (h : preparationForCrossings S context crossings feePerStage migrationFee
      = .ok (some (fundingValues, preparation))) :
  Prepared S context feePerStage migrationFee crossings fundingValues preparation
  where
  canonical := hc
  funding := by
    obtain ⟨typed, -, outcome, -, hresult⟩ := preparationForCrossings_eq_ok.mp h
    cases outcome with
    | none => cases hresult
    | some plan =>
      obtain ⟨committed, -, hresult⟩ := hresult
      split at hresult
      · cases hresult
        rfl
      · cases hresult
  prepared := fun _ => h

/-- The first affordable candidate extends the crossings; when there is none, no candidate
can be prepared. -/
theorem firstAffordable_spec {candidates : List (List Nat)}
    {result : Option (List Nat × List Nat × PreparationPlan)}
    (h : firstAffordable S context crossings feePerStage migrationFee candidates = .ok result) :
  match result with
  | some (extended, fundingValues, preparation) =>
    ∃ candidate ∈ candidates, extended = crossings ++ candidate ∧
      preparationForCrossings S context extended feePerStage migrationFee
        = .ok (some (fundingValues, preparation))
  | none => ∀ candidate ∈ candidates,
      preparationForCrossings S context (crossings ++ candidate) feePerStage migrationFee
        = .ok none
  := by
  induction candidates with
  | nil =>
    cases h
    simp
  | cons candidate candidates ih =>
    rw [firstAffordable] at h
    obtain ⟨prepared, hprepared, h⟩ := Outcome.bind_eq_ok.mp h
    cases prepared with
    | some r =>
      obtain ⟨fundingValues, preparation⟩ := r
      cases h
      exact ⟨candidate, List.mem_cons_self, rfl, hprepared⟩
    | none =>
      have hrest := ih h
      cases result with
      | some r =>
        obtain ⟨c, hc, hext, hprep⟩ := hrest
        exact ⟨c, List.mem_cons_of_mem _ hc, hext, hprep⟩
      | none =>
        rw [List.forall_mem_cons]
        exact ⟨hprepared, hrest⟩

/-- An extension of the forward planner adds at least one canonical crossing.  When there
is no extension, nothing can be appended. -/
theorem extendCrossings_spec {refine : Nat → StateM σ DenominationRefinement} {fuel affordable : Nat}
    {state state' : σ} {result : Option (List Nat × List Nat × PreparationPlan)}
    (h : extendCrossings S refine context crossings feePerStage migrationFee fuel affordable state
      = .ok (result, state')) :
  (∀ extended fundingValues preparation, result = some (extended, fundingValues, preparation) →
    ∃ candidate, candidate ≠ [] ∧ Canonical candidate ∧ extended = crossings ++ candidate ∧
      preparationForCrossings S context extended feePerStage migrationFee
        = .ok (some (fundingValues, preparation))) ∧
  (result = none →
    canAppendFrom S context crossings feePerStage migrationFee fuel affordable = .ok false)
  := by
  induction fuel generalizing affordable state with
  | zero => cases h
  | succ fuel ih =>
    rw [extendCrossings] at h
    split at h
    · rename_i hlt
      cases h
      exact ⟨by simp, fun _ => by simp [canAppendFrom, hlt]⟩
    · rename_i hge
      split at h
      · rename_i hnone
        cases h
        exact ⟨by simp, fun _ => by simp [canAppendFrom, hge, hnone]⟩
      · rename_i greedy hgreedy
        generalize refine greedy state = draw at h
        obtain ⟨refinement, state₁⟩ := draw
        dsimp only at h
        split at h
        · cases h
        · rename_i hvalue
          obtain ⟨candidates, hcandidates, h⟩ := Outcome.bind_eq_ok.mp h
          obtain ⟨accepted, haccepted, h⟩ := Outcome.bind_eq_ok.mp h
          obtain ⟨hroot, hcanonical⟩ := refinementCandidates_spec hcandidates
          have hfirst := firstAffordable_spec haccepted
          cases accepted with
          | some r =>
            cases h
            refine ⟨?_, by simp⟩
            rintro extended fundingValues preparation hr
            cases hr
            obtain ⟨candidate, hmem, hext, hprep⟩ := hfirst
            exact ⟨candidate, (hcanonical candidate hmem).2, (hcanonical candidate hmem).1, hext,
              hprep⟩
          | none =>
            have hsingle : preparationForCrossings S context (crossings ++ [greedy]) feePerStage
                migrationFee = .ok none := by
              rw [not_not] at hvalue
              apply hvalue ▸ hfirst _ hroot
            have hstep : canAppendFrom S context crossings feePerStage migrationFee (fuel + 1)
                affordable = if greedy = zip318MaxResidualValueZatoshi then .ok false
                  else canAppendFrom S context crossings feePerStage migrationFee fuel
                    (greedy - 1) := by
              rw [canAppendFrom, if_neg hge, hgreedy]
              simp only [hsingle]
              rfl
            dsimp only at h
            split at h
            · rename_i hmin
              cases h
              exact ⟨by simp, fun _ => by rw [hstep, if_pos hmin]⟩
            · rename_i hmin
              rw [hstep, if_neg hmin]
              apply ih h

/-- The forward planner ends with prepared canonical crossings to which nothing can be
appended. -/
theorem growCrossings_spec {refine : Nat → StateM σ DenominationRefinement} {fuel : Nat}
    {extended extendedFunding : List Nat} {extendedPreparation : PreparationPlan} {state : σ}
    (h : growCrossings S refine context feePerStage migrationFee fuel
      (crossings, fundingValues, preparation) state
        = .ok (extended, extendedFunding, extendedPreparation))
    (hmin : zip318MaxResidualValueZatoshi + migrationFee < u64Size)
    (hp : Prepared S context feePerStage migrationFee crossings fundingValues preparation) :
  Prepared S context feePerStage migrationFee extended extendedFunding extendedPreparation ∧
    canAppendCanonicalDenomination S context extended extendedFunding extendedPreparation
      feePerStage migrationFee = .ok false
  := by
  induction fuel generalizing crossings fundingValues preparation state with
  | zero => cases h
  | succ fuel ih =>
    rw [growCrossings] at h
    obtain ⟨committed, hcommitted, h⟩ := Outcome.bind_eq_ok.mp h
    have hcheck : checkedAdd zip318MaxResidualValueZatoshi migrationFee
        "Minimum migration funding note overflow"
        = .ok (zip318MaxResidualValueZatoshi + migrationFee) := by
      rw [checkedAdd, if_pos hmin]
    have happend : canAppendCanonicalDenomination S context crossings fundingValues preparation
        feePerStage migrationFee
          = if context.totalInputZatoshi - committed
              < zip318MaxResidualValueZatoshi + migrationFee then .ok false
            else canAppendFrom S context crossings feePerStage migrationFee
              (affordableWithin (context.totalInputZatoshi - committed) migrationFee + 1)
              (affordableWithin (context.totalInputZatoshi - committed) migrationFee) := by
      simp only [canAppendCanonicalDenomination, hcommitted, hcheck]
      rfl
    dsimp only at h
    split at h
    · rename_i hsmall
      cases h
      exact ⟨hp, by rw [happend, if_pos hsmall]⟩
    · rename_i hbudget
      obtain ⟨⟨accepted, state'⟩, hextend, h⟩ := Outcome.bind_eq_ok.mp h
      have hspec := extendCrossings_spec hextend
      cases accepted with
      | none =>
        cases h
        exact ⟨hp, by rw [happend, if_neg hbudget]; exact hspec.2 rfl⟩
      | some r =>
        obtain ⟨crossings', fundingValues', preparation'⟩ := r
        obtain ⟨candidate, -, hcanonical, rfl, hprep⟩ := hspec.1 _ _ _ rfl
        apply ih h
        apply Prepared.of_preparationForCrossings _ hprep
        intro v hv
        rcases List.mem_append.mp hv with hv | hv
        · apply hp.canonical v hv
        · apply hcanonical v hv

/-! ### Finishing a plan -/

/-- The crossings with their funding values, ordered as parts. -/
theorem sorted_zip (crossings : List Nat) (migrationFee : Nat) :
  (crossings.zip (crossings.map (fundingOf migrationFee))).insertionSort (fun a b => a.1 ≥ b.1)
    = (sortDescending crossings).map fun c => (c, fundingOf migrationFee c)
  := by
  have hzip : crossings.zip (crossings.map (fundingOf migrationFee))
      = crossings.map fun c => (c, fundingOf migrationFee c) := by
    induction crossings with
    | nil => rfl
    | cons c crossings ih => rw [List.map_cons, List.zip_cons_cons, ih, List.map_cons]
  rw [hzip, sortDescending]
  apply (List.map_insertionSort (· ≥ ·) (fun a b : Nat × Nat => a.1 ≥ b.1)
    (fun c => (c, fundingOf migrationFee c)) crossings (fun a _ b _ => Iff.rfl)).symm

/-- Finishing a plan does not depend on the order of the crossings. -/
theorem finishPlan_sortDescending (hne : crossings ≠ []) :
  finishPlan context (sortDescending crossings)
      ((sortDescending crossings).map (fundingOf migrationFee)) preparation feePerStage migrationFee
      minimumOutput
    = finishPlan context crossings (crossings.map (fundingOf migrationFee)) preparation feePerStage
      migrationFee minimumOutput
  := by
  have hsorted : sortDescending (sortDescending crossings) = sortDescending crossings :=
    sortDescending_congr (sortDescending_perm crossings)
  have hne' : sortDescending crossings ≠ [] := by
    intro h
    apply hne (List.perm_nil.mp (h ▸ (sortDescending_perm crossings).symm))
  rw [finishPlan, finishPlan, sorted_zip, sorted_zip, hsorted]
  simp [hne, hne']

theorem translatePreparationPlan_denominations {denominations : DenominationPlan}
    {indices : List Nat} {plan : PaddedDenominationPlan}
    (h : translatePreparationPlan preparation denominations indices fundingValues feePerStage
      = .ok plan) :
  plan.denominations = denominations
  := by
  rw [translatePreparationPlan] at h
  obtain ⟨⟨direct, parts⟩, -, h⟩ := Outcome.bind_eq_ok.mp h
  obtain ⟨⟨stages, parts'⟩, -, h⟩ := Outcome.bind_eq_ok.mp h
  dsimp only at h
  split at h
  · cases h
  · cases h
    rfl

/-- What a finished plan computes. -/
theorem finishPlan_eq_ok {plan : PaddedDenominationPlan}
    (h : finishPlan context crossings (crossings.map (fundingOf migrationFee)) preparation
      feePerStage migrationFee minimumOutput = .ok (some plan)) :
  crossings ≠ [] ∧ ∃ remaining total,
    context.totalInputZatoshi
      = ((sortDescending crossings).map (fundingOf migrationFee)).sum
        + feePerStage * preparation.transactionCount + remaining ∧
    translatePreparationPlan preparation {
        migrationOutputs := sortDescending crossings
        orchardChange := if minimumOutput ≤ remaining then some remaining else none
        splitFeeZatoshi := feePerStage * preparation.transactionCount
        migrationFeeZatoshi := migrationFee
        totalInputZatoshi := context.totalInputZatoshi
        totalMigratableZatoshi := total }
      context.positiveInputIndices ((sortDescending crossings).map (fundingOf migrationFee))
      feePerStage = .ok plan
  := by
  rw [finishPlan] at h
  split at h
  · cases h
  · rename_i hne
    rw [if_neg (by simp), sorted_zip] at h
    obtain ⟨splitFee, hsplit, h⟩ := Outcome.bind_eq_ok.mp h
    obtain ⟨fundingTotal, hfunding, h⟩ := Outcome.bind_eq_ok.mp h
    have hsplit' : splitFee = feePerStage * preparation.transactionCount :=
      (checkedMul_eq_ok.mp hsplit).2.symm
    have hfirst : (((sortDescending crossings).map fun c => (c, fundingOf migrationFee c)).map
        Prod.fst) = sortDescending crossings := by
      rw [List.map_map]
      apply List.map_id _
    have hsecond : (((sortDescending crossings).map fun c => (c, fundingOf migrationFee c)).map
        Prod.snd) = (sortDescending crossings).map (fundingOf migrationFee) := by
      rw [List.map_map]
      rfl
    rw [hsecond] at hfunding h
    rw [hfirst] at h
    have hfunding' : fundingTotal
        = ((sortDescending crossings).map (fundingOf migrationFee)).sum :=
      (checkedSum_eq_ok.mp hfunding).2.symm
    split at h
    · cases h
    · rename_i htotal
      obtain ⟨total, -, h⟩ := Outcome.bind_eq_ok.mp h
      obtain ⟨plan', hplan, h⟩ := Outcome.bind_eq_ok.mp h
      cases h
      refine ⟨by simpa using hne, context.totalInputZatoshi - fundingTotal - splitFee, total, ?_, ?_⟩
      · omega
      · rw [← hsplit']
        apply hplan

/-! ### The replay -/

/-- The crossings of a plan of the forward planner. -/
theorem planPaddedDenominationsWithRefiner_spec {inputValues : List Nat}
    {refine : Nat → StateM σ DenominationRefinement} {state : σ} {plan : PaddedDenominationPlan}
    (h : planPaddedDenominationsWithRefiner S inputValues feePerStage migrationFee minimumOutput
      refine state = .ok (some plan)) :
  ∃ context crossings preparation,
    planningContext inputValues feePerStage minimumOutput = .ok (some context) ∧
    Prepared S context feePerStage migrationFee crossings
      (crossings.map (fundingOf migrationFee)) preparation ∧
    canAppendCanonicalDenomination S context crossings (crossings.map (fundingOf migrationFee))
      preparation feePerStage migrationFee = .ok false ∧
    finishPlan context crossings (crossings.map (fundingOf migrationFee)) preparation feePerStage
      migrationFee minimumOutput = .ok (some plan)
  := by
  rw [planPaddedDenominationsWithRefiner] at h
  obtain ⟨context, hcontext, h⟩ := Outcome.bind_eq_ok.mp h
  cases context with
  | none => cases h
  | some context =>
    obtain ⟨m, hmin, h⟩ := Outcome.bind_eq_ok.mp h
    obtain ⟨⟨crossings, fundingValues, preparation⟩, hgrow, h⟩ := Outcome.bind_eq_ok.mp h
    have hsmall : zip318MaxResidualValueZatoshi + migrationFee < u64Size :=
      (checkedAdd_eq_ok.mp hmin).1
    obtain ⟨hprepared, happend⟩ := growCrossings_spec hgrow hsmall
      ⟨by simp [Canonical], rfl, by simp⟩
    obtain rfl := hprepared.funding
    exact ⟨context, crossings, preparation, hcontext, hprepared, happend, h⟩

theorem canAppendFrom_perm {fuel affordable : Nat} (hp : crossings.Perm crossings')
    (h : canAppendFrom S context crossings feePerStage migrationFee fuel affordable = .ok false) :
  canAppendFrom S context crossings' feePerStage migrationFee fuel affordable = .ok false
  := by
  induction fuel generalizing affordable with
  | zero => cases h
  | succ fuel ih =>
    rw [canAppendFrom] at h ⊢
    split at h
    · rename_i hlt
      rw [if_pos hlt]
    · rename_i hge
      rw [if_neg hge]
      split at h
      · apply h
      · rename_i crossing hsome
        obtain ⟨prepared, hprepared, h⟩ := Outcome.bind_eq_ok.mp h
        apply Outcome.bind_eq_ok.mpr
        refine ⟨_, preparationForCrossings_perm (hp.append_right [crossing]) hprepared, ?_⟩
        rw [Option.isSome_map]
        split at h
        · cases h
        · rename_i hnone
          rw [if_neg hnone]
          split at h
          · rename_i hmin
            rw [if_pos hmin]
            rfl
          · rename_i hmin
            rw [if_neg hmin]
            apply ih h

/-- Whether nothing can be appended does not depend on the order of the crossings. -/
theorem canAppendCanonicalDenomination_perm (hp : crossings.Perm crossings')
    (h : canAppendCanonicalDenomination S context crossings
      (crossings.map (fundingOf migrationFee)) preparation feePerStage migrationFee = .ok false) :
  canAppendCanonicalDenomination S context crossings'
    (crossings'.map (fundingOf migrationFee)) preparation feePerStage migrationFee = .ok false
  := by
  rw [canAppendCanonicalDenomination] at h ⊢
  obtain ⟨committed, hcommitted, h⟩ := Outcome.bind_eq_ok.mp h
  obtain ⟨m, hm, h⟩ := Outcome.bind_eq_ok.mp h
  apply Outcome.bind_eq_ok.mpr
  refine ⟨committed, by rw [← committedValue_congr (hp.map _), hcommitted], ?_⟩
  apply Outcome.bind_eq_ok.mpr
  refine ⟨m, hm, ?_⟩
  split at h
  · rename_i hsmall
    rw [if_pos hsmall]
    rfl
  · rename_i hbudget
    rw [if_neg hbudget]
    apply canAppendFrom_perm hp h

/-- Replaying the denominations of a plan of the forward planner, with any refiner,
rebuilds the plan. -/
theorem planPaddedDenominationsForTargets_of_refiner {inputValues : List Nat}
    {refine : Nat → StateM σ DenominationRefinement} {state : σ} {plan : PaddedDenominationPlan}
    (h : planPaddedDenominationsWithRefiner S inputValues feePerStage migrationFee minimumOutput
      refine state = .ok (some plan)) :
  planPaddedDenominationsForTargets S inputValues plan.denominations.migrationOutputs feePerStage
    migrationFee minimumOutput = .ok (some plan)
  := by
  obtain ⟨context, crossings, preparation, hcontext, hprepared, happend, hfinish⟩ :=
    planPaddedDenominationsWithRefiner_spec h
  obtain ⟨hne, remaining, total, -, htranslate⟩ := finishPlan_eq_ok hfinish
  have htargets : plan.denominations.migrationOutputs = sortDescending crossings := by
    rw [translatePreparationPlan_denominations htranslate]
  have hperm := sortDescending_perm crossings
  rw [htargets, planPaddedDenominationsForTargets]
  have hne' : (sortDescending crossings).isEmpty = false := by
    rw [List.isEmpty_eq_false_iff]
    intro hnil
    apply hne (List.perm_nil.mp (hnil ▸ hperm.symm))
  have hcanonical : (sortDescending crossings).find?
      (fun value => !isZip318CanonicalDenomination value) = none := by
    rw [List.find?_eq_none]
    intro v hv
    simpa using hprepared.canonical v (hperm.mem_iff.mp hv)
  have hsorted : (sortDescending crossings).IsChain (· ≥ ·) :=
    List.isChain_iff_pairwise.mpr (sortDescending_pairwise crossings)
  have hprep := preparationForCrossings_perm hperm.symm (hprepared.prepared hne)
  have happend' := canAppendCanonicalDenomination_perm hperm.symm happend
  simp only [hne', hcanonical, hsorted, hcontext, hprep, happend', Outcome.bind_eq_ok,
    Bool.false_eq_true, if_false, not_true_eq_false, Except.ok.injEq, exists_eq_left', Option.map]
  rw [finishPlan_sortDescending hne]
  apply hfinish

/-! ### The loops of the forward planner end -/

mutual

private theorem refinementCandidates_ends :
    ∀ refinement : DenominationRefinement,
      refinementCandidates refinement ≠ .error .outOfFuel
  | .node value children => by
    rw [refinementCandidates]
    split
    · simp
    · split
      · simp
      · apply Outcome.bind_ne_outOfFuel (checkedSum_ne_outOfFuel _ _)
        intro total _
        split
        · simp
        · apply Outcome.bind_ne_outOfFuel (expandChildren_ends children _)
          intro expanded _
          split
          · simp
          · simp [pure, Except.pure]

private theorem expandChildren_ends :
    ∀ (children : List DenominationRefinement) (expanded : List (List Nat)),
      expandChildren children expanded ≠ .error .outOfFuel
  | [], expanded => by simp [expandChildren]
  | child :: children, expanded => by
    rw [expandChildren]
    apply Outcome.bind_ne_outOfFuel (refinementCandidates_ends child)
    intro candidates _
    split
    · simp
    split
    · simp
    · apply expandChildren_ends children _

end

theorem committedValue_ne_outOfFuel :
  committedValue fundingValues preparation feePerStage ≠ .error .outOfFuel
  := by
  rw [committedValue]
  apply Outcome.bind_ne_outOfFuel (checkedSum_ne_outOfFuel _ _)
  intro fundingTotal _
  apply Outcome.bind_ne_outOfFuel (checkedMul_ne_outOfFuel _ _ _)
  intro prepFees _
  apply checkedAdd_ne_outOfFuel _ _ _

theorem preparationForCrossings_ne_outOfFuel :
  preparationForCrossings S context crossings feePerStage migrationFee ≠ .error .outOfFuel
  := by
  rw [preparationForCrossings]
  apply Outcome.bind_ne_outOfFuel
    (Outcome.mapM_ne_outOfFuel fun _ _ => checkedAdd_ne_outOfFuel _ _ _)
  intro fundingValues _
  apply Outcome.bind_ne_outOfFuel
    (Outcome.mapM_ne_outOfFuel fun _ _ => toZatoshis_ne_outOfFuel _ _)
  intro typed _
  apply Outcome.bind_ne_outOfFuel
  · have hplan : planPreparation S context.available typed context.prepFee ≠ .error .outOfFuel :=
      planPreparation_ne_outOfFuel
    revert hplan
    generalize planPreparation S context.available typed context.prepFee = outcome
    intro hplan
    match outcome with
    | .ok plan => simp [preparationOutcome]
    | .error (.error .insufficientFunds) => simp [preparationOutcome]
    | .error (.error .balanceInvalid) => simp [preparationOutcome]
    | .error .panic => simp [preparationOutcome]
    | .error .outOfFuel => exact absurd rfl hplan
  · intro preparation _
    cases preparation with
    | none => simp [pure, Except.pure]
    | some plan =>
      apply Outcome.bind_ne_outOfFuel committedValue_ne_outOfFuel
      intro committed _
      split <;> simp [pure, Except.pure]

private theorem firstAffordable_ends {candidates : List (List Nat)} :
  firstAffordable S context crossings feePerStage migrationFee candidates ≠ .error .outOfFuel
  := by
  induction candidates with
  | nil => simp [firstAffordable]
  | cons candidate candidates ih =>
    rw [firstAffordable]
    apply Outcome.bind_ne_outOfFuel preparationForCrossings_ne_outOfFuel
    intro prepared _
    cases prepared with
    | none => exact ih
    | some r => simp [pure, Except.pure]

/-- Every trial of an extension is below the one before. -/
private theorem extendCrossings_ends {refine : Nat → StateM σ DenominationRefinement}
    {fuel affordable : Nat} {state : σ} (h : affordable < fuel) :
  extendCrossings S refine context crossings feePerStage migrationFee fuel affordable state
    ≠ .error .outOfFuel
  := by
  induction fuel generalizing affordable state with
  | zero => omega
  | succ fuel ih =>
    rw [extendCrossings]
    split
    · simp
    · split
      · simp
      · rename_i hge greedy hgreedy
        generalize refine greedy state = draw
        obtain ⟨refinement, state'⟩ := draw
        dsimp only
        split
        · simp
        · apply Outcome.bind_ne_outOfFuel (refinementCandidates_ends _)
          intro candidates _
          apply Outcome.bind_ne_outOfFuel firstAffordable_ends
          intro accepted _
          cases accepted with
          | some r => simp [pure, Except.pure]
          | none =>
            dsimp only
            split
            · simp [pure, Except.pure]
            · have hle := le_of_largestZip318DenominationAtOrBelow hgreedy
              have hpos : 0 < greedy := by
                have := le_of_isZip318CanonicalDenomination
                  (isZip318CanonicalDenomination_of_largest hgreedy)
                have : 0 < zip318MaxResidualValueZatoshi := by decide
                omega
              apply ih (by omega)

/-- The funding values of prepared crossings do not exceed the selected notes. -/
private theorem Prepared.funding_le
    (h : Prepared S context feePerStage migrationFee crossings fundingValues preparation) :
  fundingValues.sum ≤ context.totalInputZatoshi
  := by
  by_cases hne : crossings = []
  · rw [h.funding, hne]
    simp
  · obtain ⟨typed, -, outcome, -, hresult⟩ :=
      preparationForCrossings_eq_ok.mp (h.prepared hne)
    cases outcome with
    | none => cases hresult
    | some plan =>
      obtain ⟨committed, hcommitted, hresult⟩ := hresult
      split at hresult
      · rename_i hle
        cases hresult
        rw [committedValue] at hcommitted
        obtain ⟨fundingTotal, hfunding, hcommitted⟩ := Outcome.bind_eq_ok.mp hcommitted
        obtain ⟨prepFees, -, hcommitted⟩ := Outcome.bind_eq_ok.mp hcommitted
        have := (checkedSum_eq_ok.mp hfunding).2
        have := (checkedAdd_eq_ok.mp hcommitted).2
        omega
      · cases hresult

/-- Every extension adds to the funding values, which the selected notes bound. -/
private theorem growCrossings_ends {refine : Nat → StateM σ DenominationRefinement} {fuel : Nat}
    {state : σ}
    (hp : Prepared S context feePerStage migrationFee crossings fundingValues preparation)
    (hfuel : context.totalInputZatoshi < fundingValues.sum + fuel) :
  growCrossings S refine context feePerStage migrationFee fuel
    (crossings, fundingValues, preparation) state ≠ .error .outOfFuel
  := by
  induction fuel generalizing crossings fundingValues preparation state with
  | zero =>
    have := hp.funding_le
    omega
  | succ fuel ih =>
    rw [growCrossings]
    apply Outcome.bind_ne_outOfFuel committedValue_ne_outOfFuel
    intro committed _
    dsimp only
    split
    · simp [pure, Except.pure]
    · apply Outcome.bind_ne_outOfFuel (extendCrossings_ends (Nat.lt_succ_self _))
      rintro ⟨accepted, state'⟩ hextend
      cases accepted with
      | none => simp [pure, Except.pure]
      | some r =>
        obtain ⟨crossings', fundingValues', preparation'⟩ := r
        obtain ⟨candidate, hne, hcanonical, rfl, hprep⟩ :=
          (extendCrossings_spec hextend).1 _ _ _ rfl
        have hp' : Prepared S context feePerStage migrationFee (crossings ++ candidate)
            fundingValues' preparation' := by
          apply Prepared.of_preparationForCrossings _ hprep
          intro v hv
          rcases List.mem_append.mp hv with hv | hv
          · apply hp.canonical v hv
          · apply hcanonical v hv
        apply ih hp'
        obtain ⟨c, cs, rfl⟩ := List.exists_cons_of_ne_nil hne
        have hc := le_of_isZip318CanonicalDenomination (hcanonical c List.mem_cons_self)
        have hpos : 0 < zip318MaxResidualValueZatoshi := by decide
        rw [hp.funding] at hfuel
        rw [hp'.funding, List.map_append, List.sum_append, List.map_cons, List.sum_cons, fundingOf]
        omega

/-- The loops of the forward planner end: when the planner is left without a plan, it is
not for want of fuel. -/
theorem growCrossings_ne_outOfFuel {refine : Nat → StateM σ DenominationRefinement} {state : σ} :
  growCrossings S refine context feePerStage migrationFee (context.totalInputZatoshi + 1)
    ([], [], ⟨[], []⟩) state ≠ .error .outOfFuel
  := by
  apply growCrossings_ends
  · exact ⟨by simp [Canonical], rfl, by simp⟩
  · simp

/-! ### Every random choice -/

/-- Replay: whenever the planner returns a plan, for any notes, fees, refinement policy and
random words, rebuilding a plan for its denominations returns the same plan. -/
theorem planPaddedDenominationsForTargets_replays (S : NoteSort) (inputValues : List Nat)
    (feePerStage migrationFee minimumOutput : Nat) (policy : DenominationRefinementPolicy)
    (nextU32 : StateM σ Nat) (rng : σ) (plan : PaddedDenominationPlan)
    (h : planPaddedDenominationsWithPolicyAndRng S inputValues feePerStage migrationFee
      minimumOutput policy nextU32 rng = .ok (some plan)) :
  planPaddedDenominationsForTargets S inputValues plan.denominations.migrationOutputs feePerStage
    migrationFee minimumOutput = .ok (some plan)
  := planPaddedDenominationsForTargets_of_refiner h

/-- The plan for notes of 1015000 and 3300000 zatoshi with a stage fee of 80000 and a
migration fee of 15000: the notes are consolidated and split into two equal parts. -/
def twoNotesPlan : PaddedDenominationPlan where
  denominations := {
    migrationOutputs := [2000000, 2000000]
    orchardChange := some 125000
    splitFeeZatoshi := 160000
    migrationFeeZatoshi := 15000
    totalInputZatoshi := 4315000
    totalMigratableZatoshi := 4000000 }
  stages := [
    { layerIndex := 0
      inputs := [.original 1 3300000, .original 0 1015000]
      outputs := [⟨4235000, .continuation, none⟩]
      feeZatoshi := 80000
      requestedActions := 3 },
    { layerIndex := 1
      inputs := [.prior 0 0 4235000]
      outputs := [⟨2015000, .migration, some 0⟩, ⟨2015000, .migration, some 1⟩,
        ⟨125000, .orchardChange, none⟩]
      feeZatoshi := 80000
      requestedActions := 4 }]
  layerCount := 2
  directMigrationInputs := []

/-- The consolidation of two notes is replayed. -/
theorem planPaddedDenominationsForTargets_replays_two_notes :
  planPaddedDenominationsForTargets .insertion [1015000, 3300000] [2000000, 2000000] 80000 15000 1
    = .ok (some twoNotesPlan)
  := planPaddedDenominationsForTargets_replays .insertion [1015000, 3300000] 80000 15000 1
    ⟨80, 55, 35, by decide⟩ (fun s : Nat => (s, s + 1)) 0 twoNotesPlan rfl

end Vizor.Planner
