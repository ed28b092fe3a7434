import Vizor.Anchor.Candidates
import Mathlib.Order.Bounds.Basic

/-!
# The heights at which proofs are tried

A note can be proved as soon as the trusted anchor has a candidate boundary for it.  The
height at which this is so is computed in closed form from the height at which the note was
mined; after a try that found no boundary, the next one is at the height at which the
trusted anchor has a newer boundary.  Where the newest boundary itself may be used, the next
try is at the first boundary that has not been scanned yet.
-/

namespace Vizor

open Run Store

variable {network : WalletNetwork} {timingPolicy : MigrationTimingPolicy} {view : ChainView}
  {mined activation height next : Nat}

/-! ### The source function -/

/-- The number of blocks between a scanned height and the trusted anchor. -/
def confirmationLag (view : ChainView) : Nat :=
  view.denominationConfirmationsRequired - 1

/-- The height at which a proof is tried again after it was tried at a scanned height. -/
def nextAnchorRetryHeightAfter (view : ChainView) (network : WalletNetwork)
    (timingPolicy : MigrationTimingPolicy) (fullyScannedHeight : Nat) : Except String Nat :=
  let modulus := anchorBucketModulus network timingPolicy
  let boundaryReference :=
    if 0 < anchorBucketMinAge network timingPolicy then
      fullyScannedHeight - confirmationLag view
    else fullyScannedHeight
  let distance := modulus - boundaryReference % modulus
  okOr ((checkedAdd32 boundaryReference distance).bind fun boundary =>
    checkedAdd32 boundary (confirmationLag view)) "Migration proof retry height overflow"

/-! ### The trusted anchor -/

/-- The trusted anchor of a scanned height. -/
def trustedAnchor (view : ChainView) (height : Nat) : Nat :=
  height - confirmationLag view

/-- The candidate boundaries for a note at a scanned height. -/
def candidatesAt (view : ChainView) (network : WalletNetwork)
    (timingPolicy : MigrationTimingPolicy) (mined activation height : Nat) : List Nat :=
  zip318AnchorCandidateBoundariesWithPolicy network timingPolicy (trustedAnchor view height) mined
    activation

/-- The newest boundary of the trusted anchor of a scanned height. -/
def newestBoundary (view : ChainView) (network : WalletNetwork)
    (timingPolicy : MigrationTimingPolicy) (height : Nat) : Option Nat :=
  zip318AnchorBoundaryAtOrBeforeWithPolicy network timingPolicy (trustedAnchor view height)

/-- The first boundary that contains a note. -/
def containingBoundary (network : WalletNetwork) (timingPolicy : MigrationTimingPolicy)
    (mined : Nat) : Nat :=
  (mined + (anchorBucketModulus network timingPolicy - 1)) / anchorBucketModulus network timingPolicy
    * anchorBucketModulus network timingPolicy

/-- The least of the heights from `m` on, if it is one. -/
theorem isLeast_iff {S : Set Nat} {m n x : Nat} (h : ∀ k, k ∈ S ↔ k < n ∧ m ≤ k) :
  IsLeast S x ↔ x = m ∧ m < n
  := by
  constructor
  · rintro ⟨hmem, hlow⟩
    obtain ⟨hlt, hle⟩ := (h x).mp hmem
    have hm : m ∈ S := (h m).mpr ⟨by omega, le_rfl⟩
    have := hlow hm
    omega
  · rintro ⟨rfl, hlt⟩
    refine ⟨(h x).mpr ⟨hlt, le_rfl⟩, ?_⟩
    intro k hk
    apply ((h k).mp hk).2

/-- A boundary that is not after a height is not after the last one before it. -/
theorem exists_boundary {c : Nat} (hc : 0 < c)
    (hrem : c % anchorBucketModulus network timingPolicy = 0) (hle : c ≤ height) :
  ∃ latest, zip318AnchorBoundaryAtOrBeforeWithPolicy network timingPolicy height = some latest ∧
    c ≤ latest
  := by
  have hpos := anchorBucketModulus_pos network timingPolicy
  have hmod := Nat.mod_lt height hpos
  have hdiv := Nat.div_add_mod height (anchorBucketModulus network timingPolicy)
  have hlast : c ≤ anchorBucketModulus network timingPolicy
      * (height / anchorBucketModulus network timingPolicy) := by
    obtain ⟨k, rfl⟩ := Nat.dvd_of_mod_eq_zero hrem
    apply Nat.mul_le_mul_left
    rw [Nat.le_div_iff_mul_le hpos, Nat.mul_comm]
    apply hle
  refine ⟨_, zip318AnchorBoundaryAtOrBefore_eq_some.mpr
    ⟨by omega, Nat.mul_mod_right _ _, by omega, by omega⟩, hlast⟩

/-! ### The first try -/

/-- A multiple that is not below a height is not below the first multiple after it. -/
theorem containingBoundary_le_iff {b : Nat} (h : b % anchorBucketModulus network timingPolicy = 0) :
  containingBoundary network timingPolicy mined ≤ b ↔ mined ≤ b
  := by
  have hpos := anchorBucketModulus_pos network timingPolicy
  unfold containingBoundary
  generalize anchorBucketModulus network timingPolicy = modulus at *
  obtain ⟨k, rfl⟩ := Nat.dvd_of_mod_eq_zero h
  rw [Nat.mul_comm modulus k, Nat.mul_le_mul_right_iff hpos]
  constructor
  · intro hle
    have := (Nat.div_le_iff_le_mul_add_pred hpos).mp hle
    rw [Nat.mul_comm modulus k] at this
    omega
  · intro hle
    apply (Nat.div_le_iff_le_mul_add_pred hpos).mpr
    rw [Nat.mul_comm modulus k]
    omega

theorem containingBoundary_mod (mined : Nat) :
  containingBoundary network timingPolicy mined % anchorBucketModulus network timingPolicy = 0
  := Nat.mul_mod_left _ _

/-- The source computes the boundary that contains a note. -/
theorem anchorBoundaryContainingNote_eq :
  anchorBoundaryContainingNoteWithPolicy network timingPolicy mined
    = if mined % anchorBucketModulus network timingPolicy = 0 then
        .ok (containingBoundary network timingPolicy mined)
      else okOr (checkedAdd32 0 (containingBoundary network timingPolicy mined))
        "Migration anchor boundary overflow"
  := by
  have hpos := anchorBucketModulus_pos network timingPolicy
  unfold anchorBoundaryContainingNoteWithPolicy containingBoundary
  generalize anchorBucketModulus network timingPolicy = modulus at *
  have hdiv := Nat.div_add_mod mined modulus
  have hlt := Nat.mod_lt mined hpos
  dsimp only
  split
  · rename_i hrem
    have : (mined + (modulus - 1)) / modulus = mined / modulus := by
      rw [Nat.div_eq_iff hpos]
      rw [Nat.mul_comm modulus] at hdiv
      omega
    rw [this, Nat.mul_comm]
    congr 1
    omega
  · rename_i hrem
    have : (mined + (modulus - 1)) / modulus = mined / modulus + 1 := by
      rw [Nat.div_eq_iff hpos, Nat.succ_mul]
      rw [Nat.mul_comm modulus] at hdiv
      omega
    rw [this, Nat.succ_mul]
    unfold checkedAdd32
    rw [Nat.mul_comm modulus] at hdiv
    have heq : mined + (modulus - mined % modulus) = 0 + (mined / modulus * modulus + modulus) := by
      omega
    rw [heq]

/-- What is added to the boundary that contains a note until it can be proved. -/
def readinessDelay (view : ChainView) (network : WalletNetwork)
    (timingPolicy : MigrationTimingPolicy) : Nat :=
  anchorBucketModulus network timingPolicy * anchorBucketMinAge network timingPolicy
    + confirmationLag view

theorem proofReadyHeight_eq_ok {ready : Nat} (hmined : mined < u32Size) :
  proofReadyHeightForNoteMinedHeight view network timingPolicy mined = .ok ready
    ↔ ready = containingBoundary network timingPolicy mined
        + readinessDelay view network timingPolicy ∧
      containingBoundary network timingPolicy mined + readinessDelay view network timingPolicy
        < u32Size
  := by
  have hself : mined % anchorBucketModulus network timingPolicy = 0 →
      containingBoundary network timingPolicy mined < u32Size := by
    intro h
    have : containingBoundary network timingPolicy mined ≤ mined :=
      (containingBoundary_le_iff h).mpr le_rfl
    omega
  unfold proofReadyHeightForNoteMinedHeight
  rw [anchorBoundaryContainingNote_eq, readinessDelay, confirmationLag]
  generalize containingBoundary network timingPolicy mined = c at *
  generalize anchorBucketModulus network timingPolicy * anchorBucketMinAge network timingPolicy = a
  generalize view.denominationConfirmationsRequired - 1 = lag
  have hboundary : (if mined % anchorBucketModulus network timingPolicy = 0 then Except.ok c
      else okOr (checkedAdd32 0 c) "Migration anchor boundary overflow")
      = if c < u32Size then .ok c else .error "Migration anchor boundary overflow" := by
    unfold checkedAdd32
    split
    · rename_i h
      rw [if_pos (hself h)]
    · rw [Nat.zero_add]
      split <;> rfl
  rw [hboundary]
  unfold checkedAdd32
  by_cases hc : c < u32Size
  · by_cases ha : c + a < u32Size
    · by_cases hl : c + a + lag < u32Size
      · simp only [hc, ha, hl, if_true, bind, Except.bind, okOr, Except.ok.injEq]
        omega
      · simp only [hc, ha, hl, if_true, if_false, bind, Except.bind, okOr, reduceCtorEq,
          false_iff]
        omega
    · simp only [hc, ha, if_true, if_false, bind, Except.bind, okOr, reduceCtorEq, false_iff]
      omega
  · simp only [hc, if_false, bind, Except.bind, reduceCtorEq, false_iff]
    omega

/-- There is a candidate for a note from the height on at which the boundary that contains it
has aged and is trusted. -/
theorem candidatesAt_ne_nil
    (hlater : activation < containingBoundary network timingPolicy mined) :
  candidatesAt view network timingPolicy mined activation height ≠ []
    ↔ containingBoundary network timingPolicy mined + readinessDelay view network timingPolicy
      ≤ height
  := by
  have hpos := anchorBucketModulus_pos network timingPolicy
  have hcontains : containingBoundary network timingPolicy mined
      % anchorBucketModulus network timingPolicy = 0 := containingBoundary_mod mined
  rw [ne_eq, ← List.head?_eq_none_iff, ← ne_eq, Option.ne_none_iff_exists']
  simp only [candidatesAt, head?_candidateBoundaries, zip318AnchorBoundaryAtOrBefore_eq_some,
    trustedAnchor, readinessDelay]
  rw [Nat.mul_comm (anchorBucketModulus network timingPolicy)]
  constructor
  · rintro ⟨b, latest, ⟨-, hrem, hle, -⟩, rfl, hlow⟩
    rw [Nat.add_mul_mod_self_right] at hrem
    have hmined : mined ≤ b := by
      unfold lowestBoundary at hlow
      omega
    have := (containingBoundary_le_iff hrem).mpr hmined
    omega
  · intro hready
    have haged : (containingBoundary network timingPolicy mined
        + anchorBucketMinAge network timingPolicy * anchorBucketModulus network timingPolicy)
          % anchorBucketModulus network timingPolicy = 0 := by
      rw [Nat.add_mul_mod_self_right, hcontains]
    obtain ⟨latest, hlatest, hle⟩ := exists_boundary (show 0 < _ by omega) haged
      (show _ ≤ height - confirmationLag view by omega)
    refine ⟨latest - anchorBucketMinAge network timingPolicy
      * anchorBucketModulus network timingPolicy, latest,
      zip318AnchorBoundaryAtOrBefore_eq_some.mp hlatest, by omega, ?_⟩
    have hmined : mined ≤ containingBoundary network timingPolicy mined :=
      (containingBoundary_le_iff hcontains).mp le_rfl
    have hlow : lowestBoundary mined activation
        ≤ containingBoundary network timingPolicy mined := by
      unfold lowestBoundary saturatingAdd32
      apply max_le hmined ((min_le_left _ _).trans hlater)
    omega

/-! ### The next try -/

/-- The first multiple after a height. -/
def nextMultiple (modulus height : Nat) : Nat :=
  height + (modulus - height % modulus)

theorem nextMultiple_mod {modulus : Nat} (hpos : 0 < modulus) (height : Nat) :
  nextMultiple modulus height % modulus = 0
  := by
  have hdiv := Nat.div_add_mod height modulus
  have hlt := Nat.mod_lt height hpos
  have : nextMultiple modulus height = modulus * (height / modulus + 1) := by
    rw [nextMultiple, Nat.mul_succ]
    omega
  rw [this, Nat.mul_mod_right]

/-- A multiple is after a height exactly when it is not before the first multiple after it. -/
theorem nextMultiple_le_iff {modulus b : Nat} (hpos : 0 < modulus) (h : b % modulus = 0) :
  nextMultiple modulus height ≤ b ↔ height < b
  := by
  have hdiv := Nat.div_add_mod height modulus
  have hlt := Nat.mod_lt height hpos
  constructor
  · intro hle
    unfold nextMultiple at hle
    omega
  · intro hgt
    obtain ⟨k, rfl⟩ := Nat.dvd_of_mod_eq_zero h
    have hquot : height / modulus < k := by
      by_contra hle
      have := Nat.mul_le_mul_left modulus (show k ≤ height / modulus by omega)
      omega
    have := Nat.mul_le_mul_left modulus (show height / modulus + 1 ≤ k by omega)
    rw [Nat.mul_succ] at this
    unfold nextMultiple
    omega

theorem nextAnchorRetryHeightAfter_eq_ok :
  nextAnchorRetryHeightAfter view network timingPolicy height = .ok next
    ↔ ∃ reference, reference = (if 0 < anchorBucketMinAge network timingPolicy then
          trustedAnchor view height
        else height) ∧
      next = nextMultiple (anchorBucketModulus network timingPolicy) reference
        + confirmationLag view ∧
      nextMultiple (anchorBucketModulus network timingPolicy) reference + confirmationLag view
        < u32Size
  := by
  rw [exists_eq_left, nextAnchorRetryHeightAfter]
  unfold trustedAnchor nextMultiple
  generalize (if 0 < anchorBucketMinAge network timingPolicy then height - confirmationLag view
    else height) = reference
  generalize confirmationLag view = lag
  generalize anchorBucketModulus network timingPolicy = modulus
  unfold checkedAdd32
  by_cases h : reference + (modulus - reference % modulus) < u32Size
  · by_cases hl : reference + (modulus - reference % modulus) + lag < u32Size
    · simp only [h, hl, if_true, Option.bind_some, okOr, Except.ok.injEq, and_true]
      apply eq_comm
    · simp only [h, hl, if_true, if_false, Option.bind_some, okOr, reduceCtorEq, and_false]
  · simp only [h, if_false, Option.bind_none, okOr, reduceCtorEq, false_iff]
    omega

/-- The newest boundary is the same until the next multiple is trusted. -/
theorem newestBoundary_eq {height' : Nat} (hle : height ≤ height')
    (hlt : height' < nextMultiple (anchorBucketModulus network timingPolicy)
      (trustedAnchor view height) + confirmationLag view) :
  newestBoundary view network timingPolicy height'
    = newestBoundary view network timingPolicy height
  := by
  have hpos := anchorBucketModulus_pos network timingPolicy
  have hmono : trustedAnchor view height ≤ trustedAnchor view height' := by
    unfold trustedAnchor
    omega
  have hbefore : trustedAnchor view height'
      < nextMultiple (anchorBucketModulus network timingPolicy) (trustedAnchor view height) := by
    have hnext : 0 < nextMultiple (anchorBucketModulus network timingPolicy)
        (trustedAnchor view height) := by
      have := Nat.mod_lt (trustedAnchor view height) hpos
      unfold nextMultiple
      omega
    unfold trustedAnchor at *
    omega
  unfold newestBoundary
  apply Option.ext
  intro b
  rw [zip318AnchorBoundaryAtOrBefore_eq_some, zip318AnchorBoundaryAtOrBefore_eq_some]
  constructor
  · rintro ⟨hb, hrem, hle', hlt'⟩
    refine ⟨hb, hrem, ?_, by omega⟩
    by_contra hgt
    have : nextMultiple _ (trustedAnchor view height) ≤ _ :=
      (nextMultiple_le_iff hpos hrem).mpr (by omega)
    omega
  · rintro ⟨hb, hrem, hle', hlt'⟩
    refine ⟨hb, hrem, by omega, ?_⟩
    have hnext : (b + anchorBucketModulus network timingPolicy)
        % anchorBucketModulus network timingPolicy = 0 := by
      rw [Nat.add_mod_right, hrem]
    have : nextMultiple _ (trustedAnchor view height) ≤ _ :=
      (nextMultiple_le_iff hpos hnext).mpr hlt'
    omega

/-- When the next multiple is trusted it is the newest boundary. -/
theorem newestBoundary_next {reference : Nat} :
  newestBoundary view network timingPolicy
      (nextMultiple (anchorBucketModulus network timingPolicy) reference + confirmationLag view)
    = some (nextMultiple (anchorBucketModulus network timingPolicy) reference)
  := by
  have hpos := anchorBucketModulus_pos network timingPolicy
  have hlt := Nat.mod_lt reference hpos
  rw [newestBoundary, trustedAnchor, Nat.add_sub_cancel]
  apply zip318AnchorBoundaryAtOrBefore_eq_some.mpr
  refine ⟨?_, nextMultiple_mod hpos reference, le_rfl, by omega⟩
  unfold nextMultiple
  omega

theorem newestBoundary_le {b : Nat}
    (h : newestBoundary view network timingPolicy height = some b) :
  b ≤ trustedAnchor view height
  := (zip318AnchorBoundaryAtOrBefore_eq_some.mp h).2.2.1

/-- The candidates depend on the newest boundary only. -/
theorem candidatesAt_congr {height' : Nat}
    (h : newestBoundary view network timingPolicy height'
      = newestBoundary view network timingPolicy height) :
  candidatesAt view network timingPolicy mined activation height'
    = candidatesAt view network timingPolicy mined activation height
  := by
  unfold newestBoundary at h
  unfold candidatesAt zip318AnchorCandidateBoundariesWithPolicy
  rw [h]

/-- The newest candidate changes with the newest boundary, if there was one. -/
theorem candidatesAt_head?_ne {height' b b' : Nat}
    (h : newestBoundary view network timingPolicy height = some b)
    (h' : newestBoundary view network timingPolicy height' = some b') (hne : b ≠ b')
    (hsome : candidatesAt view network timingPolicy mined activation height ≠ []) :
  (candidatesAt view network timingPolicy mined activation height').head?
    ≠ (candidatesAt view network timingPolicy mined activation height).head?
  := by
  unfold newestBoundary at h h'
  obtain ⟨c, hc⟩ : ∃ c, (candidatesAt view network timingPolicy mined activation height).head?
      = some c := by
    rw [← Option.ne_none_iff_exists', ne_eq, List.head?_eq_none_iff]
    apply hsome
  rw [hc]
  intro hc'
  obtain ⟨latest, hlatest, rfl, -⟩ := head?_candidateBoundaries.mp hc
  obtain ⟨latest', hlatest', rfl, -⟩ := head?_candidateBoundaries.mp hc'
  rw [h] at hlatest
  rw [h'] at hlatest'
  apply hne ((Option.some.inj hlatest).trans (Option.some.inj hlatest').symm)

/-! ### Both heights -/

/-- The first try is at the least height with a candidate for the note. -/
def ReadyExactly (view : ChainView) (network : WalletNetwork)
    (timingPolicy : MigrationTimingPolicy) (mined activation : Nat) : Prop :=
  ∀ ready, proofReadyHeightForNoteMinedHeight view network timingPolicy mined = .ok ready
    ↔ IsLeast {h | h < u32Size ∧
        candidatesAt view network timingPolicy mined activation h ≠ []} ready

/-- The next try is at the least height with another newest boundary; until then the
candidates of every note stay as they were, and then its newest one changes if it has one. -/
structure RetryExactly (view : ChainView) (network : WalletNetwork)
    (timingPolicy : MigrationTimingPolicy) (height : Nat) : Prop where
  least : ∀ next, nextAnchorRetryHeightAfter view network timingPolicy height = .ok next
    ↔ IsLeast {h | h < u32Size ∧ height < h ∧ newestBoundary view network timingPolicy h
        ≠ newestBoundary view network timingPolicy height} next
  same : ∀ next, nextAnchorRetryHeightAfter view network timingPolicy height = .ok next →
    ∀ h mined activation, height ≤ h → h < next →
      candidatesAt view network timingPolicy mined activation h
        = candidatesAt view network timingPolicy mined activation height
  changes : ∀ next, nextAnchorRetryHeightAfter view network timingPolicy height = .ok next →
    ∀ mined activation, candidatesAt view network timingPolicy mined activation height ≠ [] →
      (candidatesAt view network timingPolicy mined activation next).head?
        ≠ (candidatesAt view network timingPolicy mined activation height).head?

/-- The next try is at the least height whose newest boundary has not been scanned yet. -/
def RetryUnscanned (view : ChainView) (network : WalletNetwork)
    (timingPolicy : MigrationTimingPolicy) (height : Nat) : Prop :=
  ∀ next, nextAnchorRetryHeightAfter view network timingPolicy height = .ok next
    ↔ IsLeast {h | h < u32Size ∧
        ∃ b, newestBoundary view network timingPolicy h = some b ∧ height < b} next

theorem readyExactly (hmined : mined < u32Size)
    (hlater : activation < containingBoundary network timingPolicy mined) :
  ReadyExactly view network timingPolicy mined activation
  := by
  intro ready
  rw [proofReadyHeight_eq_ok hmined]
  symm
  apply isLeast_iff
  intro k
  rw [Set.mem_ofPred_eq]
  apply and_congr_right
  intro _
  apply candidatesAt_ne_nil hlater

theorem retryExactly (hage : 0 < anchorBucketMinAge network timingPolicy) :
  RetryExactly view network timingPolicy height
  := by
  have hpos := anchorBucketModulus_pos network timingPolicy
  have hmod := Nat.mod_lt (trustedAnchor view height) hpos
  have hnext : newestBoundary view network timingPolicy
      (nextMultiple (anchorBucketModulus network timingPolicy) (trustedAnchor view height)
        + confirmationLag view)
      = some (nextMultiple (anchorBucketModulus network timingPolicy)
        (trustedAnchor view height)) := newestBoundary_next
  have hok : ∀ next, nextAnchorRetryHeightAfter view network timingPolicy height = .ok next
      ↔ next = nextMultiple (anchorBucketModulus network timingPolicy) (trustedAnchor view height)
          + confirmationLag view ∧
        nextMultiple (anchorBucketModulus network timingPolicy) (trustedAnchor view height)
          + confirmationLag view < u32Size := by
    intro next
    rw [nextAnchorRetryHeightAfter_eq_ok, exists_eq_left, if_pos hage]
  have hafter : height < nextMultiple (anchorBucketModulus network timingPolicy)
      (trustedAnchor view height) + confirmationLag view := by
    unfold nextMultiple trustedAnchor at *
    omega
  have hnewest : ∀ b, newestBoundary view network timingPolicy height = some b →
      b ≠ nextMultiple (anchorBucketModulus network timingPolicy) (trustedAnchor view height) := by
    rintro b hb rfl
    have := newestBoundary_le hb
    unfold nextMultiple at this
    omega
  constructor
  · intro next
    rw [hok]
    constructor
    · rintro ⟨rfl, hsmall⟩
      refine ⟨⟨hsmall, hafter, ?_⟩, ?_⟩
      · rw [hnext]
        intro heq
        apply hnewest _ heq.symm rfl
      · rintro h ⟨-, hgt, hne⟩
        by_contra hbefore
        apply hne (newestBoundary_eq hgt.le (by omega))
    · rintro ⟨⟨hsmall, hgt, hne⟩, hleast⟩
      have hge : nextMultiple (anchorBucketModulus network timingPolicy)
          (trustedAnchor view height) + confirmationLag view ≤ next := by
        by_contra hbefore
        apply hne (newestBoundary_eq hgt.le (by omega))
      have hmem := hleast (a := nextMultiple (anchorBucketModulus network timingPolicy)
        (trustedAnchor view height) + confirmationLag view) ⟨by omega, hafter, by
          rw [hnext]
          intro heq
          apply hnewest _ heq.symm rfl⟩
      omega
  · intro next h k mined activation hle hlt
    obtain ⟨rfl, -⟩ := (hok next).mp h
    apply candidatesAt_congr (newestBoundary_eq hle hlt)
  · intro next h mined activation hsome
    obtain ⟨rfl, -⟩ := (hok next).mp h
    obtain ⟨b, hb⟩ : ∃ b, newestBoundary view network timingPolicy height = some b := by
      obtain ⟨c, hc⟩ := List.exists_mem_of_ne_nil _ hsome
      obtain ⟨latest, hlatest, -⟩ := mem_zip318AnchorCandidateBoundaries.mp hc
      exact ⟨latest, hlatest⟩
    apply candidatesAt_head?_ne hb hnext (hnewest b hb) hsome

theorem retryUnscanned (hage : anchorBucketMinAge network timingPolicy = 0) :
  RetryUnscanned view network timingPolicy height
  := by
  have hpos := anchorBucketModulus_pos network timingPolicy
  intro next
  rw [nextAnchorRetryHeightAfter_eq_ok, exists_eq_left, if_neg (by omega)]
  symm
  apply isLeast_iff
  intro k
  rw [Set.mem_ofPred_eq]
  apply and_congr_right
  intro _
  constructor
  · rintro ⟨b, hb, hgt⟩
    obtain ⟨hzero, hrem, hle, -⟩ := zip318AnchorBoundaryAtOrBefore_eq_some.mp hb
    have := (nextMultiple_le_iff hpos hrem).mpr hgt
    unfold trustedAnchor at hle
    omega
  · intro hle
    have hnext : 0 < nextMultiple (anchorBucketModulus network timingPolicy) height := by
      have := Nat.mod_lt height hpos
      unfold nextMultiple
      omega
    obtain ⟨latest, hlatest, hge⟩ := exists_boundary hnext (nextMultiple_mod hpos height)
      (show _ ≤ trustedAnchor view k by unfold trustedAnchor; omega)
    refine ⟨latest, hlatest, ?_⟩
    have hrem := (zip318AnchorBoundaryAtOrBefore_eq_some.mp hlatest).2.1
    apply (nextMultiple_le_iff hpos hrem).mp hge

/-- The two heights in closed form are the least ones: for every note whose boundary is above
the activation, and for every scanned height, by whether the newest boundary is used. -/
theorem anchorHeights_exact (view : ChainView) (network : WalletNetwork)
    (timingPolicy : MigrationTimingPolicy) :
  (∀ mined activation, mined < u32Size →
    activation < containingBoundary network timingPolicy mined →
    ReadyExactly view network timingPolicy mined activation) ∧
  (0 < anchorBucketMinAge network timingPolicy →
    ∀ height, RetryExactly view network timingPolicy height) ∧
  (anchorBucketMinAge network timingPolicy = 0 →
    ∀ height, RetryUnscanned view network timingPolicy height)
  := by
  refine ⟨?_, ?_, ?_⟩
  · intro mined activation hmined hlater
    apply readyExactly hmined hlater
  · intro hage height
    apply retryExactly hage
  · intro hage height
    apply retryUnscanned hage

/-- A wallet that trusts three confirmations and has scanned nothing. -/
def threeConfirmations : ChainView where
  localDenominationChainIdentity := fun _ => none
  syncedOrchardConfirmationCount := fun _ => 0
  denominationConfirmationsRequired := 3
  localTransactionRaw := fun _ => false
  noteSpendMetadata := fun _ => none

theorem anchorHeights_exact_samples :
  ReadyExactly threeConfirmations .main .standard 142 100 ∧
    RetryExactly threeConfirmations .test .standard 5760 ∧
    RetryUnscanned threeConfirmations .regtest .standard 10
  := ⟨(anchorHeights_exact threeConfirmations .main .standard).1 142 100 (by decide) (by decide),
    (anchorHeights_exact threeConfirmations .test .standard).2.1 (by decide) 5760,
    (anchorHeights_exact threeConfirmations .regtest .standard).2.2 (by decide) 10⟩

/-- A note whose boundary is not above the activation has no candidate at the computed height;
and where the newest boundary is used, it changes before the computed height. -/
theorem anchorHeights_inexact :
  (proofReadyHeightForNoteMinedHeight threeConfirmations .main .standard 100 = .ok 290 ∧
    candidatesAt threeConfirmations .main .standard 100 144 290 = []) ∧
  (nextAnchorRetryHeightAfter threeConfirmations .regtest .standard 10 = .ok 13 ∧
    newestBoundary threeConfirmations .regtest .standard 11
      ≠ newestBoundary threeConfirmations .regtest .standard 10)
  := by
  decide

end Vizor
