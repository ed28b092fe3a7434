import Vizor.Planner.Success
import Vizor.Planner.PartAssignment

/-!
# The deterministic planner is total

Without refinement, the padded planner never fails on notes that are worth at most the
money supply: it returns a plan, or none.
-/

namespace Vizor.Planner

variable {S : NoteSort} {context : PlanningContext} {crossings fundingValues inputValues : List Nat}
  {preparation : PreparationPlan} {feePerStage migrationFee minimumOutput : Nat}

/-- The refiner that does not refine. -/
def leafRefiner (greedy : Nat) : StateM Unit DenominationRefinement :=
  pure (.leaf greedy)

/-- The padded planner without refinement. -/
def planPaddedDenominationsWithoutRefinement (S : NoteSort) (inputValues : List Nat)
    (feePerStage migrationFee minimumOutput : Nat) :
    Outcome String (Option PaddedDenominationPlan) :=
  planPaddedDenominationsWithRefiner S inputValues feePerStage migrationFee minimumOutput
    leafRefiner ()

/-! ### The planning context -/

theorem map_positiveIndices (inputValues : List Nat) :
  (positiveIndices inputValues).map (fun index => inputValues.getD index 0)
    = inputValues.filter fun v => 0 < v
  := by
  have hfst : inputValues.filter (fun v => 0 < v)
      = inputValues.zipIdx.filterMap fun entry => if 0 < entry.1 then some entry.1 else none := by
    conv_lhs => rw [← List.zipIdx_map_fst 0 inputValues]
    rw [← List.filterMap_eq_filter, List.filterMap_map]
    apply List.filterMap_congr
    intro entry _
    simp [Option.guard]
  rw [hfst, positiveIndices, List.map_filterMap]
  apply List.filterMap_congr
  rintro ⟨v, index⟩ hmem
  have hget := List.mem_zipIdx_iff_getElem?.mp hmem
  dsimp only
  split
  · simp [List.getD_eq_getElem?_getD, hget]
  · rfl

private theorem sum_filter_pos (inputValues : List Nat) :
  (inputValues.filter fun v => 0 < v).sum = inputValues.sum
  := by
  induction inputValues with
  | nil => rfl
  | cons v vs ih =>
    rw [List.filter_cons]
    split
    · rw [List.sum_cons, List.sum_cons, ih]
    · rename_i hzero
      have : v = 0 := by simpa using hzero
      rw [List.sum_cons, ih, this, Nat.zero_add]

/-- What the planner knows of the selected notes. -/
structure ContextOf (inputValues : List Nat) (feePerStage : Nat) (context : PlanningContext) :
    Prop where
  available : context.available.map Zatoshis.value = inputValues.filter fun v => 0 < v
  total : context.totalInputZatoshi = inputValues.sum
  fee : context.prepFee.value = feePerStage
  indices : context.positiveInputIndices = positiveIndices inputValues
  fee_pos : 0 < feePerStage
  some_pos : positiveIndices inputValues ≠ []

theorem planningContext_spec
    (h : planningContext inputValues feePerStage minimumOutput = .ok (some context)) :
  ContextOf inputValues feePerStage context
  := by
  rw [planningContext] at h
  split at h
  · cases h
  · rename_i hsome
    split at h
    · cases h
    · rename_i hfee
      split at h
      · cases h
      · obtain ⟨total, htotal, h⟩ := Outcome.bind_eq_ok.mp h
        obtain ⟨available, havailable, h⟩ := Outcome.bind_eq_ok.mp h
        obtain ⟨prepFee, hprepFee, h⟩ := Outcome.bind_eq_ok.mp h
        cases h
        rw [map_positiveIndices] at htotal havailable
        exact {
          available := mapM_toZatoshis_eq_ok.mp havailable
          total := by rw [← (checkedSum_eq_ok.mp htotal).2, sum_filter_pos]
          fee := toZatoshis_eq_ok.mp hprepFee
          indices := rfl
          fee_pos := Nat.pos_of_ne_zero hfee
          some_pos := by simpa using hsome }

theorem ContextOf.zatTotal_eq (h : ContextOf inputValues feePerStage context) :
  zatTotal context.available = context.totalInputZatoshi
  := by
  rw [zatTotal, h.available, sum_filter_pos, h.total]

/-- Notes that are worth at most the money supply have a planning context, or none is
positive. -/
theorem planningContext_ok (hsum : inputValues.sum ≤ maxMoney) (hfee : feePerStage ≠ 0)
    (hmax : feePerStage ≤ maxMoney) :
  ∃ context, planningContext inputValues feePerStage 1 = .ok context
  := by
  rw [planningContext]
  by_cases hnone : (positiveIndices inputValues).isEmpty
  · rw [if_pos hnone]
    exact ⟨_, rfl⟩
  · rw [if_neg hnone, if_neg hfee, if_neg (by simp), map_positiveIndices]
    have hpositive : (inputValues.filter fun v => 0 < v).sum < u64Size := by
      have : maxMoney < u64Size := by decide
      rw [sum_filter_pos]
      omega
    obtain ⟨vs, hvs⟩ : ∃ vs : List Zatoshis,
        vs.map Zatoshis.value = inputValues.filter fun v => 0 < v := by
      apply exists_zatoshis_of_forall_le
      intro v hv
      have := List.single_le_sum (fun _ _ => Nat.zero_le _) v (List.mem_of_mem_filter hv)
      omega
    have havailable : ((inputValues.filter fun v => 0 < v).mapM fun value =>
        toZatoshis value "Selected Orchard note exceeds the maximum money supply") = .ok vs :=
      mapM_toZatoshis_eq_ok.mpr hvs
    have hprepFee : toZatoshis feePerStage "Padded denomination fee is invalid"
        = .ok ⟨feePerStage, hmax⟩ := toZatoshis_eq_ok.mpr rfl
    have htotal : checkedSum (inputValues.filter fun v => 0 < v) "Selected Orchard value overflow"
        = .ok (inputValues.filter fun v => 0 < v).sum := checkedSum_eq_ok.mpr ⟨hpositive, rfl⟩
    simp only [htotal, havailable, hprepFee, bind, Except.bind]
    exact ⟨_, rfl⟩

/-! ### Preparation for a list of crossings -/

theorem PreparationPlan.transactionCount_eq (plan : PreparationPlan) :
  plan.transactionCount = plan.layers.flatten.length
  := List.length_flatten.symm

/-- The value committed to crossings that can be prepared. -/
theorem committedValue_of_planPreparation {typed : List Zatoshis}
    (hsum : zatTotal typed ≤ maxMoney) (hmax : zatTotal context.available ≤ maxMoney)
    (h : planPreparation S context.available typed context.prepFee = .ok preparation) :
  zatTotal (requestedNotes typed) + context.prepFee.value * preparation.transactionCount
      + zatTotal (preparation.remainingNotes context.available) ≤ zatTotal context.available ∧
    committedValue (typed.map Zatoshis.value) preparation context.prepFee.value
      = .ok (zatTotal typed + context.prepFee.value * preparation.transactionCount)
  := by
  have hflow := (Meets.of_planPreparation h).flow_le
  rw [← PreparationPlan.transactionCount_eq] at hflow
  have hbig : maxMoney + maxMoney < u64Size := by decide
  refine ⟨hflow, ?_⟩
  rw [committedValue, checkedSum, if_pos (show (typed.map Zatoshis.value).sum < u64Size by
    rw [← zatTotal]
    omega)]
  simp only [bind, Except.bind]
  rw [checkedMul, if_pos (by omega)]
  dsimp only
  rw [checkedAdd, if_pos (by rw [← zatTotal]; omega)]
  rfl

/-- Preparation for crossings settles: the planner finds a plan, or none. -/
theorem preparationForCrossings_ok (hmax : zatTotal context.available ≤ maxMoney)
    (hsum : (crossings.map (fundingOf migrationFee)).sum ≤ maxMoney)
    (hfits : Fits (crossings.map (fundingOf migrationFee)) context.prepFee.value) :
  ∃ result, preparationForCrossings S context crossings context.prepFee.value migrationFee
    = .ok result
  := by
  obtain ⟨typed, htyped⟩ : ∃ vs : List Zatoshis,
      vs.map Zatoshis.value = crossings.map (fundingOf migrationFee) := by
    apply exists_zatoshis_of_forall_le
    intro v hv
    have := List.single_le_sum (fun _ _ => Nat.zero_le _) v hv
    omega
  have htotal : zatTotal typed ≤ maxMoney := by rw [zatTotal, htyped]; exact hsum
  have hsettles : Settles (planPreparation S context.available typed context.prepFee) := by
    apply planPreparation_settles hmax htotal
    apply hfits.of_subperm
    rw [positiveFunding, htyped]
    apply (sortDescending_perm _).subperm.trans List.filter_sublist.subperm
  cases hplan : planPreparation S context.available typed context.prepFee with
  | error halt =>
    have hhalt := hsettles halt hplan
    subst hhalt
    refine ⟨none, preparationForCrossings_eq_ok.mpr ⟨typed, htyped, none, ?_, rfl⟩⟩
    rw [hplan]
    rfl
  | ok plan =>
    have hcommitted := (committedValue_of_planPreparation htotal hmax hplan).2
    rw [htyped] at hcommitted
    refine ⟨_, preparationForCrossings_eq_ok.mpr ⟨typed, htyped, some plan, ?_, _, hcommitted, rfl⟩⟩
    rw [hplan]
    rfl

/-- Crossings are prepared when the preparation planner finds a plan for their funding
notes. -/
theorem preparationForCrossings_of_plan {typed : List Zatoshis} (hc : Canonical crossings)
    (htyped : typed.map Zatoshis.value = crossings.map (fundingOf migrationFee))
    (hmax : zatTotal context.available ≤ maxMoney)
    (htotal : zatTotal context.available = context.totalInputZatoshi)
    (hplan : planPreparation S context.available typed context.prepFee = .ok preparation) :
  preparationForCrossings S context crossings context.prepFee.value migrationFee
    = .ok (some (crossings.map (fundingOf migrationFee), preparation))
  := by
  have hflow := (Meets.of_planPreparation hplan).flow_le
  rw [requestedNotes_of_canonical hc htyped] at hflow
  obtain ⟨hle, hcommitted⟩ := committedValue_of_planPreparation (by omega) hmax hplan
  rw [requestedNotes_of_canonical hc htyped] at hle
  rw [htyped] at hcommitted
  refine preparationForCrossings_eq_ok.mpr ⟨typed, htyped, some preparation, by rw [hplan]; rfl, _,
    hcommitted, ?_⟩
  rw [if_pos (by omega)]

/-! ### The forward planner -/

theorem refinementCandidates_leaf {d : Nat} (h : isZip318CanonicalDenomination d) :
  refinementCandidates (.leaf d) = .ok [[d]]
  := by
  rw [DenominationRefinement.leaf, refinementCandidates, if_neg (by simpa using h),
    if_pos (by rfl)]

/-- What an extension of the crossings without refinement tries: every denomination that is
affordable, from the largest one on, until one can be prepared. -/
structure Tried (S : NoteSort) (context : PlanningContext) (feePerStage migrationFee : Nat)
    (crossings : List Nat) (affordable : Nat)
    (result : Option (List Nat × List Nat × PreparationPlan)) : Prop where
  exhausted : result = none → ∀ d, isZip318CanonicalDenomination d → d ≤ affordable →
    preparationForCrossings S context (crossings ++ [d]) feePerStage migrationFee = .ok none
  found : ∀ extended fundingValues preparation,
    result = some (extended, fundingValues, preparation) →
      ∃ g, isZip318CanonicalDenomination g ∧ g ≤ affordable ∧ extended = crossings ++ [g] ∧
        preparationForCrossings S context extended feePerStage migrationFee
          = .ok (some (fundingValues, preparation)) ∧
        ∀ d, isZip318CanonicalDenomination d → g < d → d ≤ affordable →
          preparationForCrossings S context (crossings ++ [d]) feePerStage migrationFee = .ok none

/-- An extension without refinement settles when every trial does. -/
theorem extendCrossings_leaf {fuel affordable : Nat} (hfuel : affordable < fuel)
    (h : ∀ d, isZip318CanonicalDenomination d → d ≤ affordable →
      ∃ r, preparationForCrossings S context (crossings ++ [d]) feePerStage migrationFee = .ok r) :
  ∃ result, extendCrossings S leafRefiner context crossings feePerStage migrationFee fuel
      affordable () = .ok (result, ()) ∧
    Tried S context feePerStage migrationFee crossings affordable result
  := by
  induction fuel generalizing affordable with
  | zero => omega
  | succ fuel ih =>
    rw [extendCrossings]
    split
    · rename_i hsmall
      refine ⟨none, rfl, fun _ d hd hle => ?_, by simp⟩
      have := le_of_isZip318CanonicalDenomination hd
      omega
    · rename_i hlarge
      obtain ⟨greedy, hgreedy⟩ := Option.isSome_iff_exists.mp
        (largestZip318DenominationAtOrBelow_isSome (by omega : _ ≤ affordable))
      have hcanonical := isZip318CanonicalDenomination_of_largest hgreedy
      have hle := le_of_largestZip318DenominationAtOrBelow hgreedy
      obtain ⟨r, hr⟩ := h greedy hcanonical hle
      have hdraw : leafRefiner greedy () = (.leaf greedy, ()) := rfl
      rw [hgreedy]
      dsimp only
      rw [hdraw]
      dsimp only
      rw [if_neg (by simp [DenominationRefinement.leaf, DenominationRefinement.valueZatoshi]),
        refinementCandidates_leaf hcanonical]
      simp only [bind, Except.bind, firstAffordable, hr]
      cases r with
      | some r =>
        obtain ⟨fundingValues, preparation⟩ := r
        refine ⟨some (crossings ++ [greedy], fundingValues, preparation), rfl, by simp, ?_⟩
        intro extended fundingValues' preparation' hsome
        cases hsome
        refine ⟨greedy, hcanonical, hle, rfl, hr, fun d hd hlt hda => ?_⟩
        have := le_largestZip318DenominationAtOrBelow hgreedy hd hda
        omega
      | none =>
        dsimp only
        split
        · rename_i hmin
          refine ⟨none, rfl, fun _ d hd hda => ?_, by simp⟩
          have hdg := le_largestZip318DenominationAtOrBelow hgreedy hd hda
          have hdmin := le_of_isZip318CanonicalDenomination hd
          have hd' : d = greedy := by omega
          rw [hd', hr]
        · have hpos : 0 < greedy := by
            have hmin := le_of_isZip318CanonicalDenomination hcanonical
            have : 0 < zip318MaxResidualValueZatoshi := by decide
            omega
          obtain ⟨result, hresult, htried⟩ := ih (by omega : greedy - 1 < fuel)
            fun d hd hda => h d hd (by omega)
          have hbetween : ∀ d, isZip318CanonicalDenomination d → d ≤ affordable → greedy - 1 < d →
              preparationForCrossings S context (crossings ++ [d]) feePerStage migrationFee
                = .ok none := by
            intro d hd hda hgd
            have := le_largestZip318DenominationAtOrBelow hgreedy hd hda
            have hd' : d = greedy := by omega
            rw [hd', hr]
          refine ⟨result, hresult, fun hnone d hd hda => ?_, ?_⟩
          · by_cases hgd : d ≤ greedy - 1
            · apply htried.exhausted hnone d hd hgd
            · apply hbetween d hd hda (by omega)
          · intro extended fundingValues preparation hsome
            obtain ⟨g, hg, hga, hext, hprep, habove⟩ := htried.found _ _ _ hsome
            refine ⟨g, hg, by omega, hext, hprep, fun d hd hgd hda => ?_⟩
            by_cases hdg : d ≤ greedy - 1
            · apply habove d hd hgd hdg
            · apply hbetween d hd hda (by omega)

/-- The state of the planner before any crossing. -/
theorem Prepared.start (S : NoteSort) (context : PlanningContext)
    (feePerStage migrationFee : Nat) :
  Prepared S context feePerStage migrationFee [] [] ⟨[], []⟩
  where
  canonical := by simp [Canonical]
  funding := rfl
  prepared := by simp

/-- What prepared crossings commit: their funding values and the fees of the stages. -/
theorem committed_of_prepared
    (hp : Prepared S context feePerStage migrationFee crossings fundingValues preparation)
    (hstart : crossings = [] → preparation = ⟨[], []⟩) :
  ∃ committed, committedValue fundingValues preparation feePerStage = .ok committed ∧
    committed = fundingValues.sum + feePerStage * preparation.transactionCount ∧
    committed ≤ context.totalInputZatoshi
  := by
  by_cases hne : crossings = []
  · refine ⟨0, ?_, ?_, Nat.zero_le _⟩
    · rw [hstart hne, hp.funding, hne]
      simp [committedValue, checkedSum, checkedMul, checkedAdd, PreparationPlan.transactionCount,
        bind, Except.bind, u64Size]
    · rw [hstart hne, hp.funding, hne]
      simp [PreparationPlan.transactionCount]
  · obtain ⟨typed, -, outcome, -, hresult⟩ := preparationForCrossings_eq_ok.mp (hp.prepared hne)
    cases outcome with
    | none => cases hresult
    | some plan =>
      obtain ⟨committed, hcommitted, hresult⟩ := hresult
      split at hresult
      · rename_i hle
        cases hresult
        refine ⟨committed, hcommitted, ?_, hle⟩
        rw [committedValue] at hcommitted
        obtain ⟨fundingTotal, hfunding, hcommitted⟩ := Outcome.bind_eq_ok.mp hcommitted
        obtain ⟨prepFees, hfees, hcommitted⟩ := Outcome.bind_eq_ok.mp hcommitted
        rw [← (checkedAdd_eq_ok.mp hcommitted).2, ← (checkedSum_eq_ok.mp hfunding).2,
          ← (checkedMul_eq_ok.mp hfees).2]
      · cases hresult

/-- An extension of crossings without refinement, within the budget they leave. -/
theorem extendCrossings_within {committed : Nat}
    (hmax : zatTotal context.available ≤ maxMoney)
    (htotal : zatTotal context.available = context.totalInputZatoshi)
    (hfee : context.prepFee.value = feePerStage)
    (hfits : ∀ d, isZip318CanonicalDenomination d →
      ((crossings ++ [d]).map (fundingOf migrationFee)).sum ≤ maxMoney →
        Fits ((crossings ++ [d]).map (fundingOf migrationFee)) feePerStage)
    (hcommitted : (crossings.map (fundingOf migrationFee)).sum ≤ committed) :
  ∃ result, extendCrossings S leafRefiner context crossings feePerStage migrationFee
      (affordableWithin (context.totalInputZatoshi - committed) migrationFee + 1)
      (affordableWithin (context.totalInputZatoshi - committed) migrationFee) ()
        = .ok (result, ()) ∧
    Tried S context feePerStage migrationFee crossings
      (affordableWithin (context.totalInputZatoshi - committed) migrationFee) result
  := by
  apply extendCrossings_leaf (Nat.lt_succ_self _)
  intro d hd hda
  have hsum : ((crossings ++ [d]).map (fundingOf migrationFee)).sum ≤ maxMoney := by
    have hle : d ≤ context.totalInputZatoshi - committed - migrationFee :=
      hda.trans (Nat.min_le_left _ _)
    have hpos := le_of_isZip318CanonicalDenomination hd
    have : 0 < zip318MaxResidualValueZatoshi := by decide
    rw [List.map_append, List.sum_append, List.map_singleton, List.sum_singleton, fundingOf]
    omega
  have hf := hfits d hd hsum
  rw [← hfee] at hf ⊢
  apply preparationForCrossings_ok hmax hsum hf

/-- Canonical crossings within the money supply fit, for all but absurd fees. -/
theorem Fits.of_crossings (hc : Canonical crossings)
    (hsum : (crossings.map (fundingOf migrationFee)).sum ≤ maxMoney)
    (hfee : feePerStage ≤ 4000000000) :
  Fits (crossings.map (fundingOf migrationFee)) feePerStage
  := by
  have hlen : crossings.length * zip318MaxResidualValueZatoshi
      ≤ (crossings.map (fundingOf migrationFee)).sum := by
    clear hsum
    induction crossings with
    | nil => simp
    | cons c crossings ih =>
      have hmin := le_of_isZip318CanonicalDenomination (hc c List.mem_cons_self)
      have := ih fun v hv => hc v (List.mem_cons_of_mem _ hv)
      rw [List.length_cons, Nat.succ_mul, List.map_cons, List.sum_cons, fundingOf]
      omega
  have hsize : crossings.length ≤ 2100000000 := by
    simp only [zip318MaxResidualValueZatoshi, zatoshisPerZec] at hlen
    unfold maxMoney at hsum
    omega
  have hmul : (feePerStage + 1) * (2 * crossings.length) ≤ 4000000001 * 4200000000 :=
    Nat.mul_le_mul (by omega) (by omega)
  unfold Fits u64Size
  unfold maxMoney at hsum
  rw [List.length_map]
  omega

/-- The crossings with which the planner stops: they are prepared, and no denomination
that their commitments leave room for can be appended. -/
structure Grown (S : NoteSort) (context : PlanningContext) (feePerStage migrationFee : Nat)
    (crossings fundingValues : List Nat) (preparation : PreparationPlan) : Prop where
  prepared : Prepared S context feePerStage migrationFee crossings fundingValues preparation
  start : crossings = [] → preparation = ⟨[], []⟩
  closed : ∀ d, isZip318CanonicalDenomination d →
    fundingValues.sum + feePerStage * preparation.transactionCount + fundingOf migrationFee d
      ≤ context.totalInputZatoshi →
    preparationForCrossings S context (crossings ++ [d]) feePerStage migrationFee = .ok none

/-- What every extension by the largest denomination that can be prepared preserves. -/
def KeptByGrowth (S : NoteSort) (context : PlanningContext) (feePerStage migrationFee : Nat)
    (I : List Nat → Prop) : Prop :=
  ∀ crossings fundingValues preparation g fundingValues' preparation', I crossings →
    Prepared S context feePerStage migrationFee crossings fundingValues preparation →
    (crossings = [] → preparation = ⟨[], []⟩) → isZip318CanonicalDenomination g →
    preparationForCrossings S context (crossings ++ [g]) feePerStage migrationFee
      = .ok (some (fundingValues', preparation')) →
    (∀ d, isZip318CanonicalDenomination d → g < d →
      fundingValues.sum + feePerStage * preparation.transactionCount + fundingOf migrationFee d
        ≤ context.totalInputZatoshi →
      preparationForCrossings S context (crossings ++ [d]) feePerStage migrationFee = .ok none) →
    I (crossings ++ [g])

private theorem le_affordableWithin {d budget : Nat} (hd : isZip318CanonicalDenomination d)
    (h : fundingOf migrationFee d ≤ budget) :
  d ≤ affordableWithin budget migrationFee
  := by
  have := (mem_denominationSteps_of_canonical hd).2
  rw [affordableWithin]
  rw [fundingOf] at h
  omega

/-- The crossings grow until nothing can be appended, and no step of it fails. -/
theorem growCrossings_leaf {fuel : Nat} {I : List Nat → Prop}
    (hmax : zatTotal context.available ≤ maxMoney)
    (htotal : zatTotal context.available = context.totalInputZatoshi)
    (hfee : context.prepFee.value = feePerStage)
    (hfits : ∀ values, Canonical values → I values →
      (values.map (fundingOf migrationFee)).sum ≤ maxMoney →
        ∀ d, isZip318CanonicalDenomination d →
          ((values ++ [d]).map (fundingOf migrationFee)).sum ≤ maxMoney →
            Fits ((values ++ [d]).map (fundingOf migrationFee)) feePerStage)
    (hI : KeptByGrowth S context feePerStage migrationFee I) (hinv : I crossings)
    (hp : Prepared S context feePerStage migrationFee crossings fundingValues preparation)
    (hstart : crossings = [] → preparation = ⟨[], []⟩)
    (hfuel : context.totalInputZatoshi < fundingValues.sum + fuel) :
  ∃ extended extendedFunding extendedPreparation,
    growCrossings S leafRefiner context feePerStage migrationFee fuel
        (crossings, fundingValues, preparation) ()
      = .ok (extended, extendedFunding, extendedPreparation) ∧
    Grown S context feePerStage migrationFee extended extendedFunding extendedPreparation ∧
    I extended
  := by
  induction fuel generalizing crossings fundingValues preparation with
  | zero =>
    obtain ⟨committed, -, heq, hle⟩ := committed_of_prepared hp hstart
    omega
  | succ fuel ih =>
    obtain ⟨committed, hcommitted, heq, hle⟩ := committed_of_prepared hp hstart
    have hfunding := hp.funding
    rw [growCrossings, hcommitted]
    simp only [bind, Except.bind]
    split
    · rename_i hsmall
      refine ⟨_, _, _, rfl, ⟨hp, hstart, fun d hd hroom => ?_⟩, hinv⟩
      have := le_of_isZip318CanonicalDenomination hd
      rw [fundingOf] at hroom
      omega
    · obtain ⟨result, hextend, htried⟩ : ∃ result, _ ∧ _ :=
        extendCrossings_within hmax htotal hfee
          (hfits crossings hp.canonical hinv (by rw [← hfunding]; omega))
          (show _ ≤ committed by rw [← hfunding]; omega)
      rw [hextend]
      dsimp only
      cases result with
      | none =>
        refine ⟨_, _, _, rfl, ⟨hp, hstart, fun d hd hroom => ?_⟩, hinv⟩
        apply htried.exhausted rfl d hd (le_affordableWithin hd (by omega))
      | some r =>
        obtain ⟨extended, fundingValues', preparation'⟩ := r
        obtain ⟨g, hg, -, rfl, hprep, habove⟩ := htried.found _ _ _ rfl
        have hcanonical : Canonical (crossings ++ [g]) := by
          intro v hv
          rcases List.mem_append.mp hv with hv | hv
          · apply hp.canonical v hv
          · rw [List.mem_singleton.mp hv]
            apply hg
        have hp' := Prepared.of_preparationForCrossings hcanonical hprep
        have hinv' := hI _ _ _ _ _ _ hinv hp hstart hg hprep fun d hd hgd hroom =>
          habove d hd hgd (le_affordableWithin hd (by omega))
        apply ih hinv' hp' (by simp)
        have hmin := le_of_isZip318CanonicalDenomination hg
        have hpos : 0 < zip318MaxResidualValueZatoshi := by decide
        rw [hp'.funding, List.map_append, List.sum_append, List.map_singleton, List.sum_singleton,
          ← hfunding, fundingOf]
        omega

/-- Prepared crossings are finished to a plan. -/
theorem finishPlan_ok (hcontext : planningContext inputValues feePerStage minimumOutput
      = .ok (some context)) (hmax : context.totalInputZatoshi ≤ maxMoney)
    (hp : Prepared S context feePerStage migrationFee crossings
      (crossings.map (fundingOf migrationFee)) preparation) (hne : crossings ≠ []) :
  ∃ plan, finishPlan context crossings (crossings.map (fundingOf migrationFee)) preparation
    feePerStage migrationFee minimumOutput = .ok (some plan)
  := by
  obtain ⟨committed, -, heq, hle⟩ := committed_of_prepared hp (fun h => absurd h hne)
  have hbig : maxMoney < u64Size := by decide
  have hfirst : (((sortDescending crossings).map fun c => (c, fundingOf migrationFee c)).map
      Prod.fst) = sortDescending crossings := by
    rw [List.map_map]
    apply List.map_id _
  have hsecond : (((sortDescending crossings).map fun c => (c, fundingOf migrationFee c)).map
      Prod.snd) = (sortDescending crossings).map (fundingOf migrationFee) := by
    rw [List.map_map]
    rfl
  have hsum : ((sortDescending crossings).map (fundingOf migrationFee)).sum
      = (crossings.map (fundingOf migrationFee)).sum :=
    ((sortDescending_perm crossings).map _).sum_eq
  have hcrossings : (sortDescending crossings).sum
      ≤ ((sortDescending crossings).map (fundingOf migrationFee)).sum := by
    generalize sortDescending crossings = values
    induction values with
    | nil => simp
    | cons v values ih =>
      rw [List.map_cons, List.sum_cons, List.sum_cons, fundingOf]
      omega
  have hsplit : checkedMul feePerStage preparation.transactionCount
      "Preparation fee total overflow" = .ok (feePerStage * preparation.transactionCount) :=
    checkedMul_eq_ok.mpr ⟨by omega, rfl⟩
  have hfunding : checkedSum ((sortDescending crossings).map (fundingOf migrationFee))
      "Migration funding total overflow"
        = .ok ((sortDescending crossings).map (fundingOf migrationFee)).sum :=
    checkedSum_eq_ok.mpr ⟨by omega, rfl⟩
  have hmigratable : checkedSum (sortDescending crossings)
      "Migratable denomination total overflow" = .ok (sortDescending crossings).sum :=
    checkedSum_eq_ok.mpr ⟨by omega, rfl⟩
  rw [finishPlan, if_neg (by simpa using hne), if_neg (by simp), sorted_zip]
  simp only [hsplit, hfirst, hsecond, hfunding, hmigratable, bind, Except.bind]
  rw [if_neg (by omega)]
  obtain ⟨plan, hplan⟩ := translatePreparationPlan_of_crossings hcontext hp.canonical
    (hp.prepared hne) {
      migrationOutputs := sortDescending crossings
      orchardChange := if minimumOutput ≤ context.totalInputZatoshi
          - ((sortDescending crossings).map (fundingOf migrationFee)).sum
          - feePerStage * preparation.transactionCount then
        some (context.totalInputZatoshi
          - ((sortDescending crossings).map (fundingOf migrationFee)).sum
          - feePerStage * preparation.transactionCount) else none
      splitFeeZatoshi := feePerStage * preparation.transactionCount
      migrationFeeZatoshi := migrationFee
      totalInputZatoshi := context.totalInputZatoshi
      totalMigratableZatoshi := (sortDescending crossings).sum }
  rw [hplan]
  exact ⟨plan, rfl⟩

/-- How the deterministic planner ends: without a positive note, or with grown crossings
that are finished to a plan when there are any. -/
theorem planPaddedDenominationsWithoutRefinement_spec (S : NoteSort) {I : List Nat → Prop}
    (hsum : inputValues.sum ≤ maxMoney) (hfee : 0 < feePerStage) (hsmall : feePerStage ≤ maxMoney)
    (hmin : zip318MaxResidualValueZatoshi + migrationFee < u64Size)
    (hfits : ∀ values, Canonical values → I values →
      (values.map (fundingOf migrationFee)).sum ≤ maxMoney →
        ∀ d, isZip318CanonicalDenomination d →
          ((values ++ [d]).map (fundingOf migrationFee)).sum ≤ maxMoney →
            Fits ((values ++ [d]).map (fundingOf migrationFee)) feePerStage)
    (hI : ∀ context, ContextOf inputValues feePerStage context →
      KeptByGrowth S context feePerStage migrationFee I) (hinv : I []) :
  (positiveIndices inputValues = [] ∧
    planPaddedDenominationsWithoutRefinement S inputValues feePerStage migrationFee 1 = .ok none) ∨
  ∃ context crossings preparation, ContextOf inputValues feePerStage context ∧
    Grown S context feePerStage migrationFee crossings (crossings.map (fundingOf migrationFee))
      preparation ∧ I crossings ∧
    (crossings = [] → planPaddedDenominationsWithoutRefinement S inputValues feePerStage
      migrationFee 1 = .ok none) ∧
    (crossings ≠ [] → ∃ plan,
      planPaddedDenominationsWithoutRefinement S inputValues feePerStage migrationFee 1
        = .ok (some plan) ∧
      finishPlan context crossings (crossings.map (fundingOf migrationFee)) preparation feePerStage
        migrationFee 1 = .ok (some plan))
  := by
  rw [planPaddedDenominationsWithoutRefinement, planPaddedDenominationsWithRefiner]
  by_cases hnone : positiveIndices inputValues = []
  · left
    rw [planningContext, if_pos (by simp [hnone])]
    exact ⟨hnone, rfl⟩
  · right
    obtain ⟨found, hcontext⟩ := planningContext_ok hsum (Nat.pos_iff_ne_zero.mp hfee) hsmall
    cases found with
    | none =>
      rw [planningContext, if_neg (by simpa using hnone)] at hcontext
      split at hcontext
      · cases hcontext
      · split at hcontext
        · cases hcontext
        · obtain ⟨_, -, h⟩ := Outcome.bind_eq_ok.mp hcontext
          obtain ⟨_, -, h⟩ := Outcome.bind_eq_ok.mp h
          obtain ⟨_, -, h⟩ := Outcome.bind_eq_ok.mp h
          cases h
    | some context =>
      have hc := planningContext_spec hcontext
      have htotal := hc.zatTotal_eq
      have hmax : context.totalInputZatoshi ≤ maxMoney := hc.total ▸ hsum
      obtain ⟨crossings, fundingValues, preparation, hgrow, hgrown, hinv'⟩ :=
        growCrossings_leaf (htotal ▸ hmax) htotal hc.fee hfits (hI context hc) hinv
          (Prepared.start S context feePerStage migrationFee) (fun _ => rfl)
          (by simp : _ < _ + (context.totalInputZatoshi + 1))
      have hfunding := hgrown.prepared.funding
      subst hfunding
      refine ⟨context, crossings, preparation, hc, hgrown, hinv', ?_, ?_⟩
      · rintro rfl
        rw [hcontext, checkedAdd, if_pos hmin]
        simp only [bind, Except.bind]
        rw [hgrow]
        rfl
      · intro hne
        obtain ⟨plan, hplan⟩ := finishPlan_ok hcontext hmax hgrown.prepared hne
        rw [hcontext, checkedAdd, if_pos hmin]
        simp only [bind, Except.bind]
        rw [hgrow]
        exact ⟨plan, hplan, hplan⟩

end Vizor.Planner
