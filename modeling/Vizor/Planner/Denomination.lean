import Vizor.Amount
import Mathlib.Data.List.Sort
import Mathlib.Data.List.Range

/-!
# Denominations and their refinement

The canonical denominations are one, two and five times a power of ten, from a hundredth
of a ZEC to ten thousand ZEC.  A refinement is a tree of canonical denominations in which
the children of a node add up to it; its candidates are the values of its prunings.
-/

namespace Vizor.Planner

/-! ### Canonical denominations -/

/-- The number of zatoshi in a ZEC. -/
def zatoshisPerZec : Nat := 100000000

/-- The smallest canonical denomination. -/
def zip318MaxResidualValueZatoshi : Nat := zatoshisPerZec / 100

/-- The largest canonical denomination. -/
def zip318MaxMigrationDenominationZatoshi : Nat := 10000 * zatoshisPerZec

/-- The candidates for denominations, magnitude by magnitude. -/
def denominationSteps : List Nat :=
  ((List.range 7).map fun k => zip318MaxResidualValueZatoshi * 10 ^ k).flatMap fun magnitude =>
    [magnitude * 1, magnitude * 2, magnitude * 5]

/-- Whether `denomination` can be used for `value`. -/
def denominationFits (value denomination : Nat) : Bool :=
  denomination ≤ value && denomination ≤ zip318MaxMigrationDenominationZatoshi

/-- The largest canonical denomination that does not exceed `value`. -/
def largestZip318DenominationAtOrBelow (value : Nat) : Option Nat :=
  if value < zip318MaxResidualValueZatoshi then none
  else
    denominationSteps.foldl
      (fun best denomination => if denominationFits value denomination then some denomination else best)
      none

/-- A value is canonical when it is the largest denomination that does not exceed it. -/
def isZip318CanonicalDenomination (value : Nat) : Bool :=
  largestZip318DenominationAtOrBelow value == some value

private theorem foldl_last_fit {p : Nat → Bool} {xs : List Nat} {best : Option Nat} {d : Nat}
    (h : xs.foldl (fun best x => if p x then some x else best) best = some d) :
  best = some d ∨ (d ∈ xs ∧ p d)
  := by
  induction xs generalizing best with
  | nil => exact .inl h
  | cons x xs ih =>
    rw [List.foldl_cons] at h
    rcases ih h with hx | ⟨hd, hp⟩
    · split at hx
      · rename_i hpx
        cases hx
        exact .inr ⟨List.mem_cons_self, hpx⟩
      · exact .inl hx
    · exact .inr ⟨List.mem_cons_of_mem _ hd, hp⟩

private theorem foldl_last_fit_isSome {p : Nat → Bool} {xs : List Nat} {best : Option Nat}
    (h : best.isSome ∨ ∃ x ∈ xs, p x) :
  (xs.foldl (fun best x => if p x then some x else best) best).isSome
  := by
  induction xs generalizing best with
  | nil => simpa using h
  | cons x xs ih =>
    rw [List.foldl_cons]
    apply ih
    by_cases hx : p x
    · simp [hx]
    · rw [if_neg hx]
      rcases h with h | ⟨y, hy, hpy⟩
      · exact .inl h
      · rcases List.mem_cons.mp hy with rfl | hy
        · exact absurd hpy hx
        · exact .inr ⟨y, hy, hpy⟩

private theorem foldl_last_fit_ge {p : Nat → Bool} {xs : List Nat} {best : Option Nat} {d : Nat}
    (hxs : xs.Pairwise (· ≤ ·)) (hbest : ∀ b, best = some b → ∀ x ∈ xs, b ≤ x)
    (h : xs.foldl (fun best x => if p x then some x else best) best = some d) :
  (∀ b, best = some b → b ≤ d) ∧ ∀ x ∈ xs, p x → x ≤ d
  := by
  induction xs generalizing best with
  | nil =>
    rw [List.foldl_nil] at h
    subst h
    simp
  | cons y xs ih =>
    rw [List.foldl_cons] at h
    rw [List.pairwise_cons] at hxs
    by_cases hy : p y
    · rw [if_pos hy] at h
      obtain ⟨hlow, hall⟩ := ih hxs.2 (by rintro b ⟨⟩; exact hxs.1) h
      have hyd := hlow y rfl
      refine ⟨fun b hb => (hbest b hb y List.mem_cons_self).trans hyd, ?_⟩
      rw [List.forall_mem_cons]
      exact ⟨fun _ => hyd, hall⟩
    · rw [if_neg hy] at h
      obtain ⟨hlow, hall⟩ := ih hxs.2
        (fun b hb x hx => hbest b hb x (List.mem_cons_of_mem _ hx)) h
      refine ⟨hlow, ?_⟩
      rw [List.forall_mem_cons]
      exact ⟨fun hp => absurd hp hy, hall⟩

theorem largestZip318DenominationAtOrBelow_mem {value d : Nat}
    (h : largestZip318DenominationAtOrBelow value = some d) :
  d ∈ denominationSteps ∧ d ≤ value ∧ d ≤ zip318MaxMigrationDenominationZatoshi
  := by
  rw [largestZip318DenominationAtOrBelow] at h
  split at h
  · cases h
  · rcases foldl_last_fit h with h | ⟨hmem, hfit⟩
    · cases h
    · simp only [denominationFits, Bool.and_eq_true, decide_eq_true_eq] at hfit
      exact ⟨hmem, hfit⟩

/-- The largest denomination at or below a value does not exceed it. -/
theorem le_of_largestZip318DenominationAtOrBelow {value d : Nat}
    (h : largestZip318DenominationAtOrBelow value = some d) :
  d ≤ value
  := (largestZip318DenominationAtOrBelow_mem h).2.1

/-- The largest denomination at or below a value is canonical. -/
theorem isZip318CanonicalDenomination_of_largest {value d : Nat}
    (h : largestZip318DenominationAtOrBelow value = some d) :
  isZip318CanonicalDenomination d
  := by
  obtain ⟨hmem, -, hmax⟩ := largestZip318DenominationAtOrBelow_mem h
  have hall : ∀ d ∈ denominationSteps, d ≤ zip318MaxMigrationDenominationZatoshi →
      isZip318CanonicalDenomination d := by decide
  apply hall d hmem hmax

/-- A canonical denomination is at least the smallest one. -/
theorem le_of_isZip318CanonicalDenomination {d : Nat} (h : isZip318CanonicalDenomination d) :
  zip318MaxResidualValueZatoshi ≤ d
  := by
  rw [isZip318CanonicalDenomination, beq_iff_eq, largestZip318DenominationAtOrBelow] at h
  split at h
  · cases h
  · omega

/-- A canonical denomination is one of the steps, up to the largest one. -/
theorem mem_denominationSteps_of_canonical {d : Nat} (h : isZip318CanonicalDenomination d) :
  d ∈ denominationSteps ∧ d ≤ zip318MaxMigrationDenominationZatoshi
  := by
  rw [isZip318CanonicalDenomination, beq_iff_eq] at h
  obtain ⟨hmem, -, hmax⟩ := largestZip318DenominationAtOrBelow_mem h
  exact ⟨hmem, hmax⟩

/-- The largest denomination at or below a value is at least every other one. -/
theorem le_largestZip318DenominationAtOrBelow {value d g : Nat}
    (hg : largestZip318DenominationAtOrBelow value = some g)
    (hd : isZip318CanonicalDenomination d) (hle : d ≤ value) :
  d ≤ g
  := by
  obtain ⟨hmem, hmax⟩ := mem_denominationSteps_of_canonical hd
  rw [largestZip318DenominationAtOrBelow] at hg
  split at hg
  · cases hg
  · apply (foldl_last_fit_ge (by decide) (by simp) hg).2 d hmem
    simp only [denominationFits, Bool.and_eq_true, decide_eq_true_eq]
    exact ⟨hle, hmax⟩

/-- There is a denomination at or below every value from the smallest one on. -/
theorem largestZip318DenominationAtOrBelow_isSome {value : Nat}
    (h : zip318MaxResidualValueZatoshi ≤ value) :
  (largestZip318DenominationAtOrBelow value).isSome
  := by
  rw [largestZip318DenominationAtOrBelow, if_neg (by omega)]
  apply foldl_last_fit_isSome
  right
  refine ⟨zip318MaxResidualValueZatoshi, by decide, ?_⟩
  simp only [denominationFits, Bool.and_eq_true, decide_eq_true_eq]
  exact ⟨h, by decide⟩

/-! ### Refinement -/

/-- A selected refinement of a value, with its recursively selected child splits. -/
inductive DenominationRefinement where
  | node (valueZatoshi : Nat) (children : List DenominationRefinement)

namespace DenominationRefinement

/-- The value that a refinement splits. -/
def valueZatoshi : DenominationRefinement → Nat
  | .node value _ => value

/-- The refinement that does not split. -/
def leaf (valueZatoshi : Nat) : DenominationRefinement := .node valueZatoshi []

end DenominationRefinement

/-- The percentages with which the refinable denominations are split. -/
structure DenominationRefinementPolicy where
  tenThousandSplitPercent : Nat
  fiveThousandSplitPercent : Nat
  twoThousandSplitPercent : Nat
  /-- The percentages are checked where a policy is made. -/
  le_hundred : tenThousandSplitPercent ≤ 100 ∧ fiveThousandSplitPercent ≤ 100 ∧
    twoThousandSplitPercent ≤ 100

def tenThousandZecZatoshi : Nat := zip318MaxMigrationDenominationZatoshi
def fiveThousandZecZatoshi : Nat := tenThousandZecZatoshi / 2
def twoThousandZecZatoshi : Nat := tenThousandZecZatoshi / 5
def oneThousandZecZatoshi : Nat := tenThousandZecZatoshi / 10

/-- The gate and the children of a refinable denomination. -/
def DenominationRefinementPolicy.splitRule (policy : DenominationRefinementPolicy)
    (denomination : Nat) : Option (Nat × List Nat) :=
  if denomination = tenThousandZecZatoshi then
    some (policy.tenThousandSplitPercent, [fiveThousandZecZatoshi, fiveThousandZecZatoshi])
  else if denomination = fiveThousandZecZatoshi then
    some (policy.fiveThousandSplitPercent,
      [twoThousandZecZatoshi, twoThousandZecZatoshi, oneThousandZecZatoshi])
  else if denomination = twoThousandZecZatoshi then
    some (policy.twoThousandSplitPercent, [oneThousandZecZatoshi, oneThousandZecZatoshi])
  else none

/-- Selecting a refinement with random draws, to the given depth. -/
def refineToDepth {σ : Type} (policy : DenominationRefinementPolicy) (nextU32 : StateM σ Nat) :
    (depth : Nat) → Nat → StateM σ DenominationRefinement
  | 0, denomination => pure (.leaf denomination)
  | depth + 1, denomination =>
    match policy.splitRule denomination with
    | none => pure (.leaf denomination)
    | some (splitPercent, children) => do
      if splitPercent = 0 then pure (.leaf denomination)
      else
        let draw ← nextU32
        if splitPercent ≤ draw % 100 then pure (.leaf denomination)
        else
          let children ← children.mapM (refineToDepth policy nextU32 depth)
          pure (.node denomination children)

/-- Selecting a refinement with random draws.  No denomination is refined more than three
levels deep. -/
def refineDenomination {σ : Type} (policy : DenominationRefinementPolicy)
    (nextU32 : StateM σ Nat) (denomination : Nat) : StateM σ DenominationRefinement :=
  refineToDepth policy nextU32 4 denomination

/-- How often a denomination can be refined. -/
private def refinementRank (denomination : Nat) : Nat :=
  if denomination = tenThousandZecZatoshi then 3
  else if denomination = fiveThousandZecZatoshi then 2
  else if denomination = twoThousandZecZatoshi then 1
  else 0

private theorem refinementRank_lt {policy : DenominationRefinementPolicy}
    {denomination splitPercent : Nat} {children : List Nat}
    (h : policy.splitRule denomination = some (splitPercent, children)) :
  ∀ child ∈ children, refinementRank child < refinementRank denomination
  := by
  rw [DenominationRefinementPolicy.splitRule] at h
  split_ifs at h with hten hfive htwo
  · cases h
    subst hten
    decide
  · cases h
    subst hfive
    decide
  · cases h
    subst htwo
    decide

/-- The depth to which a denomination is refined does not matter once it exceeds the
number of times that the denomination can be refined. -/
private theorem refineToDepth_eq {σ : Type} {policy : DenominationRefinementPolicy}
    {nextU32 : StateM σ Nat} {k m d : Nat} (hk : refinementRank d < k)
    (hm : refinementRank d < m) :
  refineToDepth policy nextU32 k d = refineToDepth policy nextU32 m d
  := by
  induction k generalizing m d with
  | zero => omega
  | succ k ih =>
    obtain ⟨m, rfl⟩ : ∃ n, m = n + 1 := ⟨m - 1, by omega⟩
    rw [refineToDepth, refineToDepth]
    cases hrule : policy.splitRule d with
    | none => rfl
    | some rule =>
      obtain ⟨splitPercent, children⟩ := rule
      have hrank := refinementRank_lt hrule
      have hchildren : children.mapM (refineToDepth policy nextU32 k)
          = children.mapM (refineToDepth policy nextU32 m) := by
        clear hrule
        induction children with
        | nil => rfl
        | cons child children ihc =>
          rw [List.forall_mem_cons] at hrank
          rw [List.mapM_cons, List.mapM_cons, ihc hrank.2, ih (by omega) (by omega : _ < m)]
      simp only [hchildren]

/-- A greater depth does not refine a denomination further. -/
theorem refineDenomination_eq_refineToDepth {σ : Type} (policy : DenominationRefinementPolicy)
    (nextU32 : StateM σ Nat) (denomination depth : Nat) (h : 4 ≤ depth) :
  refineDenomination policy nextU32 denomination
    = refineToDepth policy nextU32 depth denomination
  := by
  have hrank : refinementRank denomination < 4 := by
    rw [refinementRank]
    split_ifs <;> omega
  apply refineToDepth_eq hrank (by omega)

/-- A sum that is checked not to overflow a 64-bit word. -/
def checkedSum (values : List Nat) (context : String) : Outcome String Nat :=
  if values.sum < u64Size then .ok values.sum else .error (.error context)

/-- The most elements of three words that a vector holds, in `isize::MAX` bytes. -/
def maxVecCapacity : Nat := (2 ^ 63 - 1) / 24

/-- The order of candidates: the more split first, then lexicographic. -/
def candidateOrder (left right : List Nat) : Prop :=
  right.length < left.length ∨ (left.length = right.length ∧ left ≤ right)

instance : DecidableRel candidateOrder := fun left right =>
  inferInstanceAs (Decidable (right.length < left.length ∨ _))

/-- A list without repetitions of neighbours. -/
def dedupAdjacent : List (List Nat) → List (List Nat)
  | [] => []
  | [x] => [x]
  | x :: y :: rest =>
    if x = y then dedupAdjacent (y :: rest) else x :: dedupAdjacent (y :: rest)

/-- The values in decreasing order. -/
def sortDescending (values : List Nat) : List Nat :=
  values.insertionSort (· ≥ ·)

/-- The candidates of a node, from the combinations of those of its children. -/
def orderedCandidates (value : Nat) (expanded : List (List Nat)) : List (List Nat) :=
  dedupAdjacent (((expanded ++ [[value]]).map sortDescending).insertionSort candidateOrder)

mutual

/-- The values of the prunings of a refinement, from the most split one to the unsplit
root. -/
def refinementCandidates : DenominationRefinement → Outcome String (List (List Nat))
  | .node value children =>
    if !isZip318CanonicalDenomination value then
      .error (.error "Denomination refinement produced a noncanonical value")
    else if children.isEmpty then .ok [[value]]
    else do
      let total ← checkedSum (children.map DenominationRefinement.valueZatoshi)
        "Denomination refinement total overflow"
      if total ≠ value then
        .error (.error "Denomination refinement must preserve the selected value")
      else
        let expanded ← expandChildren children [[]]
        -- The vector is full, so the unsplit root is pushed to one of twice the capacity.
        if maxVecCapacity < 2 * expanded.length then .error .panic
        else pure (orderedCandidates value expanded)

/-- The combinations of the candidates of the children, after the given prefixes. -/
def expandChildren :
    List DenominationRefinement → List (List Nat) → Outcome String (List (List Nat))
  | [], expanded => .ok expanded
  | child :: children, expanded => do
    let childCandidates ← refinementCandidates child
    if u64Size ≤ expanded.length * childCandidates.length then
      .error (.error "Denomination refinement candidate count overflow")
    else if maxVecCapacity < expanded.length * childCandidates.length then .error .panic
    else
      expandChildren children
        (expanded.flatMap fun front => childCandidates.map fun candidate => front ++ candidate)

end

/-! ### Candidates -/

theorem mem_dedupAdjacent {x : List Nat} {xs : List (List Nat)} :
  x ∈ dedupAdjacent xs ↔ x ∈ xs
  := by
  induction xs using dedupAdjacent.induct with
  | case1 => simp [dedupAdjacent]
  | case2 y => simp [dedupAdjacent]
  | case3 y rest ih =>
    rw [dedupAdjacent, if_pos rfl, ih]
    simp
  | case4 y z rest hne ih =>
    rw [dedupAdjacent, if_neg hne, List.mem_cons, ih]
    simp

theorem sortDescending_pairwise (values : List Nat) :
  (sortDescending values).Pairwise (· ≥ ·)
  := List.pairwise_insertionSort (· ≥ ·) values

theorem sortDescending_perm (values : List Nat) :
  (sortDescending values).Perm values
  := List.perm_insertionSort _ _

/-- The candidates of a node are the sorted combinations and the unsplit root. -/
theorem mem_orderedCandidates {value : Nat} {expanded : List (List Nat)} {c : List Nat} :
  c ∈ orderedCandidates value expanded
    ↔ (∃ e ∈ expanded, sortDescending e = c) ∨ c = [value]
  := by
  rw [orderedCandidates, mem_dedupAdjacent, (List.perm_insertionSort _ _).mem_iff, List.map_append,
    List.mem_append, List.mem_map]
  simp [sortDescending]

/-- A list of canonical denominations. -/
def Canonical (values : List Nat) : Prop :=
  ∀ v ∈ values, isZip318CanonicalDenomination v

mutual

private theorem refinementCandidates_spec' :
    ∀ (refinement : DenominationRefinement) (candidates : List (List Nat)),
      refinementCandidates refinement = .ok candidates →
        [refinement.valueZatoshi] ∈ candidates ∧ ∀ c ∈ candidates, Canonical c ∧ c ≠ []
  | .node value children, candidates => by
    intro h
    rw [refinementCandidates] at h
    split at h
    · cases h
    · rename_i hcanonical
      have hvalue : isZip318CanonicalDenomination value := by simpa using hcanonical
      have hroot : Canonical [value] := by simpa [Canonical] using hvalue
      split at h
      · cases h
        simp [DenominationRefinement.valueZatoshi, hroot]
      · rename_i hne
        obtain ⟨total, -, h⟩ := Outcome.bind_eq_ok.mp h
        split at h
        · cases h
        · obtain ⟨expanded, hexpanded, h⟩ := Outcome.bind_eq_ok.mp h
          split at h
          · cases h
          · cases h
            have hspec := expandChildren_spec' children [[]] expanded hexpanded
              (by simp [Canonical]) (by simpa using hne)
            refine ⟨mem_orderedCandidates.mpr (.inr rfl), ?_⟩
            intro c hc
            rcases mem_orderedCandidates.mp hc with ⟨e, he, rfl⟩ | rfl
            · obtain ⟨hcan, hnil⟩ := hspec e he
              constructor
              · intro v hv
                apply hcan v ((sortDescending_perm e).mem_iff.mp hv)
              · intro hsorted
                apply hnil (List.perm_nil.mp (hsorted ▸ (sortDescending_perm e).symm))
            · exact ⟨hroot, by simp⟩

private theorem expandChildren_spec' :
    ∀ (children : List DenominationRefinement) (expanded result : List (List Nat)),
      expandChildren children expanded = .ok result → (∀ e ∈ expanded, Canonical e) →
        children ≠ [] → ∀ e ∈ result, Canonical e ∧ e ≠ []
  | [], expanded, result => by
    intro h hcan hne
    exact absurd rfl hne
  | child :: children, expanded, result => by
    intro h hcan hne
    rw [expandChildren] at h
    obtain ⟨candidates, hcandidates, h⟩ := Outcome.bind_eq_ok.mp h
    obtain ⟨-, hchild⟩ := refinementCandidates_spec' child candidates hcandidates
    split at h
    · cases h
    split at h
    · cases h
    · have hcombined : ∀ e ∈ expanded.flatMap
          (fun front => candidates.map fun candidate => front ++ candidate),
          Canonical e ∧ e ≠ [] := by
        intro e he
        obtain ⟨front, hfront, he⟩ := List.mem_flatMap.mp he
        obtain ⟨candidate, hc, rfl⟩ := List.mem_map.mp he
        obtain ⟨hc', hne'⟩ := hchild candidate hc
        constructor
        · intro v hv
          rcases List.mem_append.mp hv with hv | hv
          · apply hcan front hfront v hv
          · apply hc' v hv
        · simp [hne']
      cases children with
      | nil =>
        cases h
        apply hcombined
      | cons child' children =>
        apply expandChildren_spec' (child' :: children) _ result h
          (fun e he => (hcombined e he).1) (by simp)

end

/-- The candidates of a refinement are nonempty lists of canonical denominations, and the
unsplit root is one of them. -/
theorem refinementCandidates_spec {refinement : DenominationRefinement}
    {candidates : List (List Nat)} (h : refinementCandidates refinement = .ok candidates) :
  [refinement.valueZatoshi] ∈ candidates ∧ ∀ c ∈ candidates, Canonical c ∧ c ≠ []
  := refinementCandidates_spec' refinement candidates h

end Vizor.Planner
