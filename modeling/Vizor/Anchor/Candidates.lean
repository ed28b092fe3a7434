import Vizor.Anchor.Survival
import Mathlib.Algebra.GroupWithZero.Nat
import Mathlib.Algebra.Order.BigOperators.Group.List
import Mathlib.Algebra.Order.Group.Nat

/-!
# Candidate boundaries

The boundaries at which a note can be proved are enumerated from the newest on, and a
boundary that was drawn is checked later by inequalities.  The enumeration adds one to the
activation height with saturation, so that the two differ where no height is left above the
activation.  A boundary is drawn with a weight that halves with its age.
-/

namespace Vizor

open Store

/-! ### The source functions -/

/-- The age of a boundary, if it is one that a proof may use. -/
def zip318AnchorBoundaryAge (network : WalletNetwork) (timingPolicy : MigrationTimingPolicy)
    (latestBoundary anchorBoundary : Nat) : Option Nat :=
  if latestBoundary < anchorBoundary then none
  else
    let delta := latestBoundary - anchorBoundary
    let modulus := anchorBucketModulus network timingPolicy
    if delta % modulus ≠ 0 then none
    else
      let age := delta / modulus
      if anchorBucketMinAge network timingPolicy ≤ age ∧ age ≤ zip318AnchorAgeCap then some age
      else none

/-- Whether a note can be proved at a boundary. -/
def zip318AnchorBoundaryIsCandidateWithPolicy (network : WalletNetwork)
    (timingPolicy : MigrationTimingPolicy) (anchorBoundary observedAnchorHeight noteMinedHeight
      nu63ActivationHeight : Nat) : Bool :=
  if anchorBoundary = 0 ∨ anchorBoundary % anchorBucketModulus network timingPolicy ≠ 0 then false
  else if anchorBoundary < noteMinedHeight ∨ anchorBoundary ≤ nu63ActivationHeight then false
  else
    match zip318AnchorBoundaryAtOrBeforeWithPolicy network timingPolicy observedAnchorHeight with
    | none => false
    | some latestBoundary =>
      (zip318AnchorBoundaryAge network timingPolicy latestBoundary anchorBoundary).isSome

/-- Some boundaries with their weights, and the total weight. -/
def weightedBoundaries (network : WalletNetwork) (timingPolicy : MigrationTimingPolicy)
    (latestBoundary : Nat) (availableCandidates : List Nat) : Option (List (Nat × Nat) × Nat) :=
  availableCandidates.foldlM (fun (weighted, totalWeight) boundary => do
    let age ← zip318AnchorBoundaryAge network timingPolicy latestBoundary boundary
    let weight := 2 ^ (zip318AnchorAgeCap - age)
    let totalWeight ← checkedAdd32 totalWeight weight
    pure (weighted ++ [(boundary, weight)], totalWeight)) ([], 0)

/-- The boundary in whose share of the total weight a draw falls. -/
def drawnBoundary : List (Nat × Nat) → Nat → Option Nat
  | [], _ => none
  | (boundary, weight) :: weighted, draw =>
    if draw < weight then some boundary else drawnBoundary weighted (draw - weight)

/-- Drawing one of some boundaries, with a generator of numbers below a bound. -/
def zip318DrawAnchorBoundaryFromAvailableWithPolicy (network : WalletNetwork)
    (timingPolicy : MigrationTimingPolicy) (genRange : (bound : Nat) → 0 < bound → Fin bound)
    (observedAnchorHeight : Nat) (availableCandidates : List Nat) : Option Nat := do
  let latestBoundary ←
    zip318AnchorBoundaryAtOrBeforeWithPolicy network timingPolicy observedAnchorHeight
  if availableCandidates.isEmpty then none
  else
    let (weighted, totalWeight) ←
      weightedBoundaries network timingPolicy latestBoundary availableCandidates
    if h : 0 < totalWeight then drawnBoundary weighted (genRange totalWeight h) else none

/-! ### The enumeration -/

variable {network : WalletNetwork} {timingPolicy : MigrationTimingPolicy}
  {observed mined activation latest b : Nat}

/-- The enumeration stops at the first boundary that is too low, and all older ones are. -/
theorem mem_candidateBoundaries {modulus lower m n : Nat} :
  b ∈ candidateBoundaries modulus latest lower (List.range' m n)
    ↔ ∃ age, m ≤ age ∧ age < m + n ∧ latest = b + age * modulus ∧ lower ≤ b
  := by
  induction n generalizing m with
  | zero =>
    simp only [List.range'_zero, candidateBoundaries, List.not_mem_nil, false_iff]
    rintro ⟨age, hle, hlt, -⟩
    omega
  | succ n ih =>
    have hmono {age : Nat} (hle : m ≤ age) : m * modulus ≤ age * modulus :=
      Nat.mul_le_mul_right _ hle
    rw [List.range'_succ, candidateBoundaries, checkedSub32]
    by_cases hdistance : m * modulus ≤ latest
    · rw [if_pos hdistance]
      dsimp only
      split
      · rename_i hlow
        simp only [List.not_mem_nil, false_iff]
        rintro ⟨age, hle, -, heq, hlower⟩
        have := hmono hle
        omega
      · rename_i hlow
        rw [List.mem_cons, ih]
        constructor
        · rintro (rfl | ⟨age, hle, hlt, heq, hlower⟩)
          · exact ⟨m, le_rfl, by omega, by omega, by omega⟩
          · exact ⟨age, by omega, by omega, heq, hlower⟩
        · rintro ⟨age, hle, hlt, heq, hlower⟩
          rcases Nat.eq_or_lt_of_le hle with rfl | hlt'
          · left
            omega
          · exact .inr ⟨age, hlt', by omega, heq, hlower⟩
    · rw [if_neg hdistance]
      simp only [List.not_mem_nil, false_iff]
      rintro ⟨age, hle, -, heq, -⟩
      have := hmono hle
      omega

/-- The ages of candidates. -/
def CandidateAge (network : WalletNetwork) (timingPolicy : MigrationTimingPolicy)
    (age : Nat) : Prop :=
  anchorBucketMinAge network timingPolicy ≤ age ∧ age ≤ zip318AnchorAgeCap

/-- What the enumeration lists. -/
theorem mem_zip318AnchorCandidateBoundaries :
  b ∈ zip318AnchorCandidateBoundariesWithPolicy network timingPolicy observed mined activation
    ↔ ∃ latest, zip318AnchorBoundaryAtOrBeforeWithPolicy network timingPolicy observed
        = some latest ∧
      (∃ age, CandidateAge network timingPolicy age ∧
        latest = b + age * anchorBucketModulus network timingPolicy) ∧
      lowestBoundary mined activation ≤ b
  := by
  have hage := anchorBucketMinAge_le_one network timingPolicy
  rw [zip318AnchorCandidateBoundariesWithPolicy]
  cases zip318AnchorBoundaryAtOrBeforeWithPolicy network timingPolicy observed with
  | none => simp
  | some latest =>
    simp only [mem_candidateBoundaries, CandidateAge, zip318AnchorAgeCap, lowestBoundary,
      Option.some.injEq, exists_eq_left']
    constructor
    · rintro ⟨age, hle, hlt, heq, hlow⟩
      exact ⟨⟨age, ⟨hle, by omega⟩, heq⟩, hlow⟩
    · rintro ⟨⟨age, ⟨hle, hcap⟩, heq⟩, hlow⟩
      exact ⟨age, hle, by omega, heq, hlow⟩

/-! ### The check -/

theorem zip318AnchorBoundaryAge_eq_some {age : Nat} :
  zip318AnchorBoundaryAge network timingPolicy latest b = some age
    ↔ CandidateAge network timingPolicy age ∧
      latest = b + age * anchorBucketModulus network timingPolicy
  := by
  rw [zip318AnchorBoundaryAge, CandidateAge]
  have hpos := anchorBucketModulus_pos network timingPolicy
  generalize anchorBucketModulus network timingPolicy = modulus at *
  split
  · simp only [reduceCtorEq, false_iff]
    rintro ⟨-, heq⟩
    omega
  · rename_i hle
    have hdiv := Nat.div_add_mod (latest - b) modulus
    dsimp only
    split
    · rename_i hrem
      simp only [reduceCtorEq, false_iff]
      rintro ⟨-, heq⟩
      apply hrem
      rw [heq, Nat.add_sub_cancel_left, Nat.mul_mod_left]
    · rename_i hrem
      split
      · rename_i hage
        rw [Option.some.injEq]
        constructor
        · rintro rfl
          refine ⟨hage, ?_⟩
          rw [Nat.mul_comm]
          omega
        · rintro ⟨-, heq⟩
          rw [heq, Nat.add_sub_cancel_left, Nat.mul_div_cancel _ hpos]
      · rename_i hage
        simp only [reduceCtorEq, false_iff]
        rintro ⟨hcandidate, heq⟩
        rw [heq, Nat.add_sub_cancel_left, Nat.mul_div_cancel _ hpos] at hage
        apply hage hcandidate

/-- The last boundary at or before a height. -/
theorem zip318AnchorBoundaryAtOrBefore_eq_some {height : Nat} :
  zip318AnchorBoundaryAtOrBeforeWithPolicy network timingPolicy height = some latest
    ↔ 0 < latest ∧ latest % anchorBucketModulus network timingPolicy = 0 ∧ latest ≤ height ∧
      height < latest + anchorBucketModulus network timingPolicy
  := by
  have hpos := anchorBucketModulus_pos network timingPolicy
  rw [zip318AnchorBoundaryAtOrBeforeWithPolicy]
  generalize anchorBucketModulus network timingPolicy = modulus at *
  have hmod := Nat.mod_lt height hpos
  have hdiv := Nat.div_add_mod height modulus
  constructor
  · intro h
    split at h
    · cases h
      refine ⟨by omega, ?_, by omega, by omega⟩
      have : height - height % modulus = modulus * (height / modulus) := by omega
      rw [this, Nat.mul_mod_right]
    · cases h
  · rintro ⟨hlatest, hrem, hle, hlt⟩
    have heq : height - height % modulus = latest := by
      obtain ⟨k, rfl⟩ := Nat.dvd_of_mod_eq_zero hrem
      have hk : height / modulus = k := by
        rw [Nat.div_eq_iff hpos]
        rw [Nat.mul_comm modulus k] at *
        omega
      rw [hk] at hdiv
      omega
    rw [heq, if_pos hlatest]

/-- What the check accepts. -/
theorem zip318AnchorBoundaryIsCandidate_iff :
  zip318AnchorBoundaryIsCandidateWithPolicy network timingPolicy b observed mined activation
    ↔ ∃ latest, zip318AnchorBoundaryAtOrBeforeWithPolicy network timingPolicy observed
        = some latest ∧
      (∃ age, CandidateAge network timingPolicy age ∧
        latest = b + age * anchorBucketModulus network timingPolicy) ∧
      mined ≤ b ∧ activation < b
  := by
  rw [zip318AnchorBoundaryIsCandidateWithPolicy]
  constructor
  · intro h
    split at h
    · cases h
    · split at h
      · cases h
      · rename_i hlow
        cases hlatest : zip318AnchorBoundaryAtOrBeforeWithPolicy network timingPolicy observed with
        | none => simp [hlatest] at h
        | some latest =>
          simp only [hlatest] at h
          obtain ⟨age, hage⟩ := Option.isSome_iff_exists.mp h
          exact ⟨latest, rfl, ⟨age, zip318AnchorBoundaryAge_eq_some.mp hage⟩, by omega, by omega⟩
  · rintro ⟨latest, hlatest, ⟨age, hage, heq⟩, hmined, hactivation⟩
    obtain ⟨-, hrem, -⟩ := zip318AnchorBoundaryAtOrBefore_eq_some.mp hlatest
    rw [heq, Nat.add_mul_mod_self_right] at hrem
    rw [if_neg (by omega), if_neg (by omega), hlatest]
    apply Option.isSome_iff_exists.mpr ⟨age, zip318AnchorBoundaryAge_eq_some.mpr ⟨hage, heq⟩⟩

/-! ### The draw -/

variable {available : List Nat}

/-- Candidates have weights, and are drawn by them. -/
theorem weightedBoundaries_of_candidates
    (hlatest : zip318AnchorBoundaryAtOrBeforeWithPolicy network timingPolicy observed
      = some latest)
    (h : ∀ b ∈ available,
      b ∈ zip318AnchorCandidateBoundariesWithPolicy network timingPolicy observed mined activation)
    (hfew : available.length ≤ 5) :
  ∃ weighted total, weightedBoundaries network timingPolicy latest available
      = some (weighted, total) ∧
    weighted.map Prod.fst = available ∧ (weighted.map Prod.snd).sum = total ∧
    ∀ p ∈ weighted, 1 ≤ p.2
  := by
  have hfold : ∀ (rest : List Nat) (weighted : List (Nat × Nat)) (total : Nat),
      (∀ b ∈ rest, b ∈ zip318AnchorCandidateBoundariesWithPolicy network timingPolicy observed
        mined activation) →
      (weighted.map Prod.snd).sum = total → (∀ p ∈ weighted, 1 ≤ p.2) →
      total + 16 * rest.length < u32Size →
      ∃ weighted' total', rest.foldlM (fun (weighted, totalWeight) boundary => do
          let age ← zip318AnchorBoundaryAge network timingPolicy latest boundary
          let weight := 2 ^ (zip318AnchorAgeCap - age)
          let totalWeight ← checkedAdd32 totalWeight weight
          pure (weighted ++ [(boundary, weight)], totalWeight)) (weighted, total)
          = some (weighted', total') ∧
        weighted'.map Prod.fst = weighted.map Prod.fst ++ rest ∧
        (weighted'.map Prod.snd).sum = total' ∧ ∀ p ∈ weighted', 1 ≤ p.2 := by
    intro rest
    induction rest with
    | nil =>
      intro weighted total _ hsum hpos _
      exact ⟨weighted, total, rfl, by simp, hsum, hpos⟩
    | cons b rest ih =>
      intro weighted total hrest hsum hpos hsmall
      rw [List.forall_mem_cons] at hrest
      obtain ⟨latest', hlatest', ⟨age, hage, heq⟩, -⟩ :=
        mem_zip318AnchorCandidateBoundaries.mp hrest.1
      obtain rfl : latest = latest' := by
        rw [hlatest] at hlatest'
        apply Option.some.inj hlatest'
      have hweight : 2 ^ (zip318AnchorAgeCap - age) ≤ 2 ^ 4 :=
        Nat.pow_le_pow_right (by decide) (by unfold zip318AnchorAgeCap; omega)
      have hone : 1 ≤ 2 ^ (zip318AnchorAgeCap - age) := Nat.one_le_two_pow
      rw [List.length_cons] at hsmall
      simp only [List.foldlM_cons, zip318AnchorBoundaryAge_eq_some.mpr ⟨hage, heq⟩,
        Option.bind_eq_bind, Option.bind_some, checkedAdd32]
      rw [if_pos (by omega)]
      obtain ⟨weighted', total', hfold, hfst, hsnd, hpos'⟩ :=
        ih (weighted ++ [(b, 2 ^ (zip318AnchorAgeCap - age))])
          (total + 2 ^ (zip318AnchorAgeCap - age)) hrest.2 (by simp [hsum])
          (by
            intro p hp
            rcases List.mem_append.mp hp with hp | hp
            · apply hpos p hp
            · rw [List.mem_singleton.mp hp]
              apply hone)
          (by omega)
      refine ⟨weighted', total', hfold, ?_, hsnd, hpos'⟩
      rw [hfst]
      simp
  have hsmall : 0 + 16 * available.length < u32Size := by
    unfold u32Size
    omega
  obtain ⟨weighted, total, heq, hfst, hsnd, hpos⟩ := hfold available [] 0 h rfl (by simp) hsmall
  exact ⟨weighted, total, heq, by simpa using hfst, hsnd, hpos⟩

/-- A draw below the total weight falls on one of the boundaries. -/
theorem drawnBoundary_isSome {weighted : List (Nat × Nat)} {draw : Nat}
    (h : draw < (weighted.map Prod.snd).sum) :
  ∃ b ∈ weighted.map Prod.fst, drawnBoundary weighted draw = some b
  := by
  induction weighted generalizing draw with
  | nil => simp at h
  | cons p weighted ih =>
    obtain ⟨boundary, weight⟩ := p
    rw [drawnBoundary]
    split
    · exact ⟨boundary, by simp, rfl⟩
    · rename_i hge
      rw [List.map_cons, List.sum_cons] at h
      dsimp only at h
      obtain ⟨b, hb, hdrawn⟩ := ih (show draw - weight < _ by omega)
      exact ⟨b, List.mem_cons_of_mem _ hb, hdrawn⟩

theorem length_candidateBoundaries_le (modulus lower : Nat) (ages : List Nat) :
  (candidateBoundaries modulus latest lower ages).length ≤ ages.length
  := by
  induction ages with
  | nil => simp [candidateBoundaries]
  | cons age ages ih =>
    rw [candidateBoundaries]
    split
    · simp
    · split
      · simp
      · rw [List.length_cons, List.length_cons]
        omega

theorem length_zip318AnchorCandidateBoundaries_le :
  (zip318AnchorCandidateBoundariesWithPolicy network timingPolicy observed mined
    activation).length ≤ 5
  := by
  rw [zip318AnchorCandidateBoundariesWithPolicy]
  split
  · simp
  · apply (length_candidateBoundaries_le _ _ _).trans
    rw [List.length_range', zip318AnchorAgeCap]
    omega

/-- A draw from some of the candidates is one of them. -/
theorem draw_mem_available (genRange : (bound : Nat) → 0 < bound → Fin bound)
    (hne : available ≠ [])
    (hsub : available.Sublist
      (zip318AnchorCandidateBoundariesWithPolicy network timingPolicy observed mined activation)) :
  ∃ b ∈ available, zip318DrawAnchorBoundaryFromAvailableWithPolicy network timingPolicy genRange
    observed available = some b
  := by
  obtain ⟨c, hc⟩ := List.exists_mem_of_ne_nil available hne
  obtain ⟨latest, hlatest, -⟩ := mem_zip318AnchorCandidateBoundaries.mp (hsub.subset hc)
  obtain ⟨weighted, total, hweighted, hfst, hsnd, hpos⟩ :=
    weightedBoundaries_of_candidates hlatest (fun b hb => hsub.subset hb)
      (hsub.length_le.trans length_zip318AnchorCandidateBoundaries_le)
  have htotal : 0 < total := by
    have hmem : c ∈ weighted.map Prod.fst := by rwa [hfst]
    obtain ⟨p, hp, -⟩ := List.mem_map.mp hmem
    have := List.single_le_sum (fun _ _ => Nat.zero_le _) _ (List.mem_map_of_mem
      (f := Prod.snd) hp)
    have := hpos p hp
    omega
  obtain ⟨b, hb, hdrawn⟩ := drawnBoundary_isSome
    (show (genRange total htotal : Nat) < (weighted.map Prod.snd).sum by
      rw [hsnd]
      apply (genRange total htotal).isLt)
  rw [hfst] at hb
  refine ⟨b, hb, ?_⟩
  have hempty : available.isEmpty = false := by simpa using hne
  simp only [zip318DrawAnchorBoundaryFromAvailableWithPolicy, hlatest, hempty, hweighted,
    Option.bind_eq_bind, Option.bind_some, Bool.false_eq_true, if_false]
  rw [dif_pos htotal]
  apply hdrawn

/-! ### The enumeration and the check -/

/-- The enumeration and the check agree on every boundary. -/
def CandidatesAgree (network : WalletNetwork) (timingPolicy : MigrationTimingPolicy)
    (observed mined activation : Nat) : Prop :=
  ∀ b, b ∈ zip318AnchorCandidateBoundariesWithPolicy network timingPolicy observed mined activation
    ↔ zip318AnchorBoundaryIsCandidateWithPolicy network timingPolicy b observed mined activation

/-- Every draw from some of the candidates is one of them. -/
def DrawsCandidate (network : WalletNetwork) (timingPolicy : MigrationTimingPolicy)
    (observed mined activation : Nat) : Prop :=
  ∀ (genRange : (bound : Nat) → 0 < bound → Fin bound) (available : List Nat),
    available ≠ [] →
    available.Sublist
      (zip318AnchorCandidateBoundariesWithPolicy network timingPolicy observed mined activation) →
    ∃ b ∈ available, zip318DrawAnchorBoundaryFromAvailableWithPolicy network timingPolicy genRange
      observed available = some b

/-- The largest height. -/
def maxHeight : Nat := u32Size - 1

/-- The enumeration and the check agree below the largest height. -/
theorem candidatesAgree_of_lt (h : activation < maxHeight) :
  CandidatesAgree network timingPolicy observed mined activation
  := by
  intro b
  have hlow : lowestBoundary mined activation ≤ b ↔ mined ≤ b ∧ activation < b := by
    unfold lowestBoundary saturatingAdd32
    unfold maxHeight at h
    omega
  rw [mem_zip318AnchorCandidateBoundaries, zip318AnchorBoundaryIsCandidate_iff, hlow]

/-- The last boundary at or before the largest height is the largest height only where every
height is a boundary. -/
theorem maxHeight_boundary :
  maxHeight % anchorBucketModulus network timingPolicy = 0
    ↔ network = .regtest ∧ timingPolicy ≠ .fastTestnet
  := by
  cases network <;> cases timingPolicy <;> decide

theorem minAge_of_regtest (h : network = .regtest ∧ timingPolicy ≠ .fastTestnet) :
  anchorBucketMinAge network timingPolicy = 0
  := by
  obtain ⟨rfl, hpolicy⟩ := h
  cases timingPolicy <;> first | rfl | exact absurd rfl hpolicy

/-- With the activation at the largest height, the enumeration lists nothing but this height,
where it is a boundary and the anchor. -/
theorem mem_candidates_maxHeight (hobserved : observed < u32Size) (hmined : mined < u32Size) :
  b ∈ zip318AnchorCandidateBoundariesWithPolicy network timingPolicy observed mined maxHeight
    ↔ b = maxHeight ∧ observed = maxHeight ∧ network = .regtest ∧ timingPolicy ≠ .fastTestnet
  := by
  have hlow : lowestBoundary mined maxHeight = maxHeight := by
    unfold lowestBoundary saturatingAdd32 maxHeight u32Size at *
    omega
  have hmax : maxHeight + 1 = u32Size := by decide
  rw [mem_zip318AnchorCandidateBoundaries, hlow]
  constructor
  · rintro ⟨latest, hlatest, ⟨age, -, heq⟩, hle⟩
    obtain ⟨-, hrem, hobs, -⟩ := zip318AnchorBoundaryAtOrBefore_eq_some.mp hlatest
    have hb : b = maxHeight := by omega
    have hl : latest = maxHeight := by omega
    rw [hl] at hrem
    exact ⟨hb, by omega, maxHeight_boundary.mp hrem⟩
  · rintro ⟨rfl, rfl, hregtest⟩
    refine ⟨maxHeight, ?_, ⟨0, ?_, by simp⟩, le_rfl⟩
    · apply zip318AnchorBoundaryAtOrBefore_eq_some.mpr
      have := anchorBucketModulus_pos network timingPolicy
      exact ⟨by decide, maxHeight_boundary.mpr hregtest, le_rfl, by omega⟩
    · rw [CandidateAge, minAge_of_regtest hregtest]
      exact ⟨le_rfl, by decide⟩

/-- The enumeration and the check agree, and every draw is a candidate, unless every height is
a boundary and both the activation and the anchor are at the largest height. -/
theorem anchorCandidates_exact (network : WalletNetwork) (timingPolicy : MigrationTimingPolicy)
    (hobserved : observed < u32Size) (hmined : mined < u32Size)
    (hactivation : activation < u32Size) :
  (CandidatesAgree network timingPolicy observed mined activation ∧
    DrawsCandidate network timingPolicy observed mined activation)
    ↔ ¬ (network = .regtest ∧ timingPolicy ≠ .fastTestnet ∧ observed = maxHeight ∧
      activation = maxHeight)
  := by
  have hmax : maxHeight + 1 = u32Size := by decide
  have hdraw : DrawsCandidate network timingPolicy observed mined activation :=
    fun genRange _ hne hsub => draw_mem_available genRange hne hsub
  constructor
  · rintro ⟨hagree, -⟩ ⟨hnetwork, hpolicy, hobs, rfl⟩
    have hmem := (mem_candidates_maxHeight hobserved hmined).mpr
      ⟨rfl, hobs, hnetwork, hpolicy⟩
    obtain ⟨-, -, -, -, hlt⟩ := zip318AnchorBoundaryIsCandidate_iff.mp ((hagree _).mp hmem)
    apply lt_irrefl _ hlt
  · intro h
    refine ⟨?_, hdraw⟩
    rcases Nat.lt_or_ge activation maxHeight with hlt | hge
    · apply candidatesAgree_of_lt hlt
    · obtain rfl : activation = maxHeight := by omega
      intro b
      rw [mem_candidates_maxHeight hobserved hmined, zip318AnchorBoundaryIsCandidate_iff]
      constructor
      · rintro ⟨-, hobs, hnetwork, hpolicy⟩
        exact absurd ⟨hnetwork, hpolicy, hobs, rfl⟩ h
      · rintro ⟨latest, hlatest, ⟨age, -, heq⟩, -, hlt⟩
        obtain ⟨-, -, hobs, -⟩ := zip318AnchorBoundaryAtOrBefore_eq_some.mp hlatest
        omega

theorem anchorCandidates_exact_test :
  CandidatesAgree .test .standard 5700 5000 5000 ∧ DrawsCandidate .test .standard 5700 5000 5000
  := (anchorCandidates_exact .test .standard (by decide) (by decide) (by decide)).mpr (by decide)

/-- At the largest height the enumeration lists the activation height, which the check
refuses. -/
theorem anchorCandidates_differ :
  maxHeight ∈ zip318AnchorCandidateBoundariesWithPolicy .regtest .standard maxHeight 1 maxHeight ∧
  ¬ zip318AnchorBoundaryIsCandidateWithPolicy .regtest .standard maxHeight maxHeight 1 maxHeight
  := by
  decide

end Vizor
