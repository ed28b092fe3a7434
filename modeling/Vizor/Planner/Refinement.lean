import Vizor.Planner.Denomination
import Mathlib.Data.Multiset.Basic
import Mathlib.Data.Finset.Image
import Mathlib.Data.Finset.Prod
import Mathlib.Algebra.Order.BigOperators.GroupWithZero.List
import Mathlib.Algebra.Order.Ring.Nat

/-!
# The prunings of a refinement

A refinement may be cut at any of its nodes: what is below the cut is dropped, and the
values of the leaves that remain form a multiset.  The candidates of a refinement are the
multisets of its prunings, each once and in decreasing order, and ordered themselves from
the one with the most parts to the unsplit root.

A refinement is refused unless its nodes are canonical denominations and the children of a
node add up to it, and a vector must be able to hold twice the combinations of the children;
one that a policy selects always has candidates.
-/

namespace Vizor.Planner

/-! ### Prunings -/

mutual

/-- The values of the leaves that remain when a refinement is cut somewhere. -/
def prunings : DenominationRefinement → Finset (Multiset Nat)
  | .node value [] => {{value}}
  | .node value (child :: children) => insert {value} (combinedPrunings (child :: children))

/-- The values of the leaves that remain when each of some refinements is cut. -/
def combinedPrunings : List DenominationRefinement → Finset (Multiset Nat)
  | [] => {0}
  | child :: children =>
    (prunings child ×ˢ combinedPrunings children).image fun m => m.1 + m.2

end

/-- A refinement of a canonical denomination into canonical denominations that add up. -/
inductive WellFormed : DenominationRefinement → Prop
  | node {value : Nat} {children : List DenominationRefinement}
      (canonical : isZip318CanonicalDenomination value)
      (preserves : children ≠ [] →
        (children.map DenominationRefinement.valueZatoshi).sum = value)
      (below : ∀ child ∈ children, WellFormed child) :
    WellFormed (.node value children)

/-- A vector holds twice the combinations of the prunings of the children of every node. -/
inductive CountsFit : DenominationRefinement → Prop
  | node {value : Nat} {children : List DenominationRefinement}
      (fits : 2 * (children.map fun child => (prunings child).card).prod ≤ maxVecCapacity)
      (below : ∀ child ∈ children, CountsFit child) :
    CountsFit (.node value children)

theorem prunings_node {value : Nat} {children : List DenominationRefinement}
    (h : children ≠ []) :
  prunings (.node value children) = insert {value} (combinedPrunings children)
  := by
  cases children with
  | nil => exact absurd rfl h
  | cons child children => rw [prunings]

/-- Cutting at the root leaves the value of the root. -/
theorem root_mem_prunings (refinement : DenominationRefinement) :
  {refinement.valueZatoshi} ∈ prunings refinement
  := by
  obtain ⟨value, children⟩ := refinement
  cases children with
  | nil => simp [prunings, DenominationRefinement.valueZatoshi]
  | cons child children => simp [prunings, DenominationRefinement.valueZatoshi]

theorem card_prunings_pos (refinement : DenominationRefinement) :
  0 < (prunings refinement).card
  := Finset.card_pos.mpr ⟨_, root_mem_prunings refinement⟩

theorem mem_combinedPrunings_cons {child : DenominationRefinement}
    {children : List DenominationRefinement} {m : Multiset Nat} :
  m ∈ combinedPrunings (child :: children)
    ↔ ∃ a ∈ prunings child, ∃ b ∈ combinedPrunings children, a + b = m
  := by
  rw [combinedPrunings, Finset.mem_image]
  constructor
  · rintro ⟨⟨a, b⟩, hab, rfl⟩
    obtain ⟨ha, hb⟩ := Finset.mem_product.mp hab
    exact ⟨a, ha, b, hb, rfl⟩
  · rintro ⟨a, ha, b, hb, rfl⟩
    exact ⟨(a, b), Finset.mem_product.mpr ⟨ha, hb⟩, rfl⟩

/-! ### The order of candidates -/

theorem candidateOrder_total (a b : List Nat) :
  candidateOrder a b ∨ candidateOrder b a
  := by
  simp only [candidateOrder]
  rcases Nat.lt_trichotomy a.length b.length with h | h | h
  · exact .inr (.inl h)
  · rcases le_total a b with hab | hba
    · exact .inl (.inr ⟨h, hab⟩)
    · exact .inr (.inr ⟨h.symm, hba⟩)
  · exact .inl (.inl h)

theorem candidateOrder_trans {a b c : List Nat} (hab : candidateOrder a b)
    (hbc : candidateOrder b c) :
  candidateOrder a c
  := by
  simp only [candidateOrder] at *
  rcases hab with hab | ⟨hab, hle⟩
  · left
    omega
  · rcases hbc with hbc | ⟨hbc, hle'⟩
    · left
      omega
    · exact .inr ⟨by omega, le_trans hle hle'⟩

theorem candidateOrder_antisymm {a b : List Nat} (hab : candidateOrder a b)
    (hba : candidateOrder b a) :
  a = b
  := by
  simp only [candidateOrder] at *
  rcases hab with hab | ⟨hab, hle⟩
  · omega
  · rcases hba with hba | ⟨hba, hle'⟩
    · omega
    · apply le_antisymm hle hle'

instance : Std.Total candidateOrder := ⟨candidateOrder_total⟩

instance : IsTrans (List Nat) candidateOrder := ⟨fun _ _ _ => candidateOrder_trans⟩

/-- A sorted list has no repetitions once those of neighbours are gone. -/
theorem dedupAdjacent_pairwise {xs : List (List Nat)} (h : xs.Pairwise candidateOrder) :
  (dedupAdjacent xs).Pairwise fun a b => candidateOrder a b ∧ a ≠ b
  := by
  induction xs using dedupAdjacent.induct with
  | case1 => simp [dedupAdjacent]
  | case2 x => simp [dedupAdjacent]
  | case3 y rest ih =>
    rw [dedupAdjacent, if_pos rfl]
    apply ih (List.pairwise_cons.mp h).2
  | case4 x y rest hne ih =>
    obtain ⟨hx, hrest⟩ := List.pairwise_cons.mp h
    rw [dedupAdjacent, if_neg hne, List.pairwise_cons]
    refine ⟨?_, ih hrest⟩
    intro z hz
    rw [mem_dedupAdjacent] at hz
    refine ⟨hx z hz, ?_⟩
    rintro rfl
    rcases List.mem_cons.mp hz with rfl | hz
    · apply hne rfl
    · apply hne (candidateOrder_antisymm (hx y List.mem_cons_self)
        ((List.pairwise_cons.mp hrest).1 x hz))

/-- The order of sorted candidates. -/
theorem orderedCandidates_pairwise (value : Nat) (expanded : List (List Nat)) :
  (orderedCandidates value expanded).Pairwise fun a b => candidateOrder a b ∧ a ≠ b
  := dedupAdjacent_pairwise (List.pairwise_insertionSort candidateOrder _)

/-! ### The candidates of a refinement -/

/-- The candidates of a refinement: its prunings, each of them once and in decreasing order,
from the most split one to the unsplit root. -/
structure CandidatesOf (refinement : DenominationRefinement) (candidates : List (List Nat)) :
    Prop where
  prunings : ∀ m : Multiset Nat, m ∈ prunings refinement ↔ ∃ c ∈ candidates, (c : Multiset Nat) = m
  decreasing : ∀ c ∈ candidates, c.Pairwise (· ≥ ·)
  ordered : candidates.Pairwise fun a b => candidateOrder a b ∧ a ≠ b
  root : [refinement.valueZatoshi] ∈ candidates
  canonical : ∀ c ∈ candidates, Canonical c
  preserves : ∀ c ∈ candidates, c.sum = refinement.valueZatoshi

/-- Decreasing lists with the same elements are equal. -/
theorem eq_of_decreasing {a b : List Nat} (ha : a.Pairwise (· ≥ ·)) (hb : b.Pairwise (· ≥ ·))
    (h : (a : Multiset Nat) = b) :
  a = b
  := List.Perm.eq_of_pairwise' ha hb (Multiset.coe_eq_coe.mp h)

/-- There are as many candidates as prunings. -/
theorem CandidatesOf.length {refinement : DenominationRefinement} {candidates : List (List Nat)}
    (h : CandidatesOf refinement candidates) :
  candidates.length = (Planner.prunings refinement).card
  := by
  have hnodup : (candidates.map Multiset.ofList).Nodup := by
    rw [List.Nodup, List.pairwise_map]
    apply h.ordered.imp_of_mem
    intro a b ha hb hab heq
    apply hab.2 (eq_of_decreasing (h.decreasing a ha) (h.decreasing b hb) heq)
  have hset : Planner.prunings refinement
      = (candidates.map Multiset.ofList).toFinset := by
    ext m
    rw [h.prunings m, List.mem_toFinset, List.mem_map]
  rw [hset, List.toFinset_card_of_nodup hnodup, List.length_map]

mutual

/-- The prunings of a refinement that adds up add up to its value. -/
theorem sum_of_mem_prunings {m : Multiset Nat} :
    ∀ refinement, WellFormed refinement → m ∈ prunings refinement →
      m.sum = refinement.valueZatoshi
  | .node value [] => by
    intro _ hm
    rw [prunings, Finset.mem_singleton] at hm
    rw [hm, Multiset.sum_singleton]
    rfl
  | .node value (child :: children) => by
    rintro (⟨-, hpreserves, hbelow⟩) hm
    rw [prunings, Finset.mem_insert] at hm
    rcases hm with rfl | hm
    · rw [Multiset.sum_singleton]
      rfl
    · rw [sum_of_mem_combinedPrunings (child :: children) hbelow hm]
      apply hpreserves (by simp)

theorem sum_of_mem_combinedPrunings {m : Multiset Nat} :
    ∀ children : List DenominationRefinement, (∀ child ∈ children, WellFormed child) →
      m ∈ combinedPrunings children →
      m.sum = (children.map DenominationRefinement.valueZatoshi).sum
  | [] => by
    intro _ hm
    rw [combinedPrunings, Finset.mem_singleton] at hm
    rw [hm]
    rfl
  | child :: children => by
    intro hbelow hm
    rw [List.forall_mem_cons] at hbelow
    obtain ⟨a, ha, b, hb, rfl⟩ := mem_combinedPrunings_cons.mp hm
    rw [Multiset.sum_add, sum_of_mem_prunings child hbelow.1 ha,
      sum_of_mem_combinedPrunings children hbelow.2 hb, List.map_cons, List.sum_cons]

end

private theorem candidatesOf_leaf {value : Nat} (h : isZip318CanonicalDenomination value) :
  CandidatesOf (.node value []) [[value]]
  := by
  constructor
  · intro m
    simp [prunings, eq_comm]
  · simp
  · simp
  · apply List.mem_singleton.mpr rfl
  · simpa [Canonical] using h
  · simp [DenominationRefinement.valueZatoshi]

/-- The candidates of a node, from the combinations of its children. -/
private theorem candidatesOf_node {value : Nat} {children : List DenominationRefinement}
    {expanded : List (List Nat)} (hne : children ≠ [])
    (hwell : WellFormed (.node value children))
    (hok : refinementCandidates (.node value children) = .ok (orderedCandidates value expanded))
    (hexpanded : ∀ m : Multiset Nat,
      m ∈ combinedPrunings children ↔ ∃ e ∈ expanded, (e : Multiset Nat) = m) :
  CandidatesOf (.node value children) (orderedCandidates value expanded)
  := by
  have hsorted (e : List Nat) : (sortDescending e : Multiset Nat) = e :=
    Multiset.coe_eq_coe.mpr (sortDescending_perm e)
  have hprunings (m : Multiset Nat) : m ∈ prunings (.node value children)
      ↔ ∃ c ∈ orderedCandidates value expanded, (c : Multiset Nat) = m := by
    rw [prunings_node hne, Finset.mem_insert, hexpanded]
    constructor
    · rintro (rfl | ⟨e, he, rfl⟩)
      · exact ⟨[value], mem_orderedCandidates.mpr (.inr rfl), rfl⟩
      · exact ⟨sortDescending e, mem_orderedCandidates.mpr (.inl ⟨e, he, rfl⟩), hsorted e⟩
    · rintro ⟨c, hc, rfl⟩
      rcases mem_orderedCandidates.mp hc with ⟨e, he, rfl⟩ | rfl
      · exact .inr ⟨e, he, (hsorted e).symm⟩
      · exact .inl rfl
  obtain ⟨hroot, hcanonical⟩ := refinementCandidates_spec hok
  constructor
  · apply hprunings
  · intro c hc
    rcases mem_orderedCandidates.mp hc with ⟨e, -, rfl⟩ | rfl
    · apply sortDescending_pairwise e
    · simp
  · apply orderedCandidates_pairwise value expanded
  · apply hroot
  · exact fun c hc => (hcanonical c hc).1
  · intro c hc
    have h := sum_of_mem_prunings _ hwell ((hprunings c).mpr ⟨c, hc, rfl⟩)
    rwa [Multiset.sum_coe] at h

mutual

private theorem candidates_of_ok :
    ∀ (refinement : DenominationRefinement) (candidates : List (List Nat)),
      refinementCandidates refinement = .ok candidates →
        CandidatesOf refinement candidates ∧ WellFormed refinement ∧ CountsFit refinement
  | .node value children, candidates => by
    intro h
    have hok := h
    rw [refinementCandidates] at h
    split at h
    · cases h
    · rename_i hcanonical
      have hvalue : isZip318CanonicalDenomination value := by simpa using hcanonical
      split at h
      · rename_i hempty
        obtain rfl := List.isEmpty_iff.mp hempty
        cases h
        refine ⟨candidatesOf_leaf hvalue, ?_, ?_⟩
        · exact .node hvalue (by simp) (by simp)
        · exact .node (by decide) (by simp)
      · rename_i hempty
        have hne : children ≠ [] := by simpa using hempty
        obtain ⟨total, htotal, h⟩ := Outcome.bind_eq_ok.mp h
        rw [checkedSum] at htotal
        split at htotal
        · cases htotal
          split at h
          · cases h
          · rename_i hpreserves
            rw [ne_eq, Decidable.not_not] at hpreserves
            obtain ⟨expanded, hexpanded, h⟩ := Outcome.bind_eq_ok.mp h
            split at h
            · cases h
            · rename_i hroom
              cases h
              obtain ⟨hbelow, hlength, hmem⟩ := expanded_of_ok children [[]] expanded hexpanded
              have hwell : WellFormed (.node value children) :=
                .node hvalue (fun _ => hpreserves) fun child hc => (hbelow child hc).1
              refine ⟨candidatesOf_node hne hwell hok ?_, hwell, ?_⟩
              · intro m
                simp [hmem m]
              · apply CountsFit.node
                · rw [List.length_singleton, Nat.one_mul] at hlength
                  rw [← hlength]
                  apply Nat.le_of_not_lt hroom
                · exact fun child hc => (hbelow child hc).2
        · cases htotal

private theorem expanded_of_ok :
    ∀ (children : List DenominationRefinement) (expanded result : List (List Nat)),
      expandChildren children expanded = .ok result →
        (∀ child ∈ children, WellFormed child ∧ CountsFit child) ∧
        result.length
          = expanded.length * (children.map fun child => (prunings child).card).prod ∧
        ∀ m : Multiset Nat, (∃ e ∈ result, (e : Multiset Nat) = m)
          ↔ ∃ front ∈ expanded, ∃ b ∈ combinedPrunings children, (front : Multiset Nat) + b = m
  | [], expanded, result => by
    intro h
    cases h
    refine ⟨by simp, by simp, ?_⟩
    intro m
    simp [combinedPrunings]
  | child :: children, expanded, result => by
    intro h
    rw [expandChildren] at h
    obtain ⟨candidates, hcandidates, h⟩ := Outcome.bind_eq_ok.mp h
    obtain ⟨hchild, hwell, hcounts⟩ := candidates_of_ok child candidates hcandidates
    split at h
    · cases h
    split at h
    · cases h
    · obtain ⟨hbelow, hlength, hmem⟩ := expanded_of_ok children _ result h
      have hproduct : (expanded.flatMap fun front =>
          candidates.map fun candidate => front ++ candidate).length
            = expanded.length * (prunings child).card := by
        simp [List.length_flatMap, hchild.length]
      rw [hproduct] at hlength
      refine ⟨?_, ?_, ?_⟩
      · rw [List.forall_mem_cons]
        exact ⟨⟨hwell, hcounts⟩, hbelow⟩
      · rw [hlength, List.map_cons, List.prod_cons, Nat.mul_assoc]
      · intro m
        rw [hmem m]
        constructor
        · rintro ⟨front', hfront', b, hb, rfl⟩
          obtain ⟨front, hfront, hcombined⟩ := List.mem_flatMap.mp hfront'
          obtain ⟨c, hc, rfl⟩ := List.mem_map.mp hcombined
          refine ⟨front, hfront, c + b, ?_, ?_⟩
          · have ha := (hchild.prunings c).mpr ⟨c, hc, rfl⟩
            apply mem_combinedPrunings_cons.mpr ⟨c, ha, b, hb, rfl⟩
          · rw [← Multiset.coe_add, add_assoc]
        · rintro ⟨front, hfront, m, hm, rfl⟩
          obtain ⟨a, ha, b, hb, rfl⟩ := mem_combinedPrunings_cons.mp hm
          obtain ⟨c, hc, rfl⟩ := (hchild.prunings a).mp ha
          refine ⟨front ++ c, ?_, b, hb, ?_⟩
          · exact List.mem_flatMap.mpr ⟨front, hfront, List.mem_map.mpr ⟨c, hc, rfl⟩⟩
          · rw [← Multiset.coe_add, add_assoc]

end

private theorem prod_card_pos (children : List DenominationRefinement) :
  0 < (children.map fun child => (prunings child).card).prod
  := by
  apply List.prod_pos
  intro n hn
  obtain ⟨child, -, rfl⟩ := List.mem_map.mp hn
  apply card_prunings_pos child

private theorem expandChildren_ok {children : List DenominationRefinement}
    {expanded : List (List Nat)}
    (h : ∀ child ∈ children, ∃ candidates, refinementCandidates child = .ok candidates)
    (hfits : expanded.length * (children.map fun child => (prunings child).card).prod
      ≤ maxVecCapacity) :
  ∃ result, expandChildren children expanded = .ok result
  := by
  induction children generalizing expanded with
  | nil => exact ⟨expanded, rfl⟩
  | cons child children ih =>
    rw [List.forall_mem_cons] at h
    obtain ⟨candidates, hcandidates⟩ := h.1
    have hlength := (candidates_of_ok child candidates hcandidates).1.length
    rw [List.map_cons, List.prod_cons, ← Nat.mul_assoc, ← hlength] at hfits
    have hle : expanded.length * candidates.length ≤ maxVecCapacity :=
      (Nat.le_mul_of_pos_right _ (prod_card_pos children)).trans hfits
    have hsmall : maxVecCapacity < u64Size := by decide
    simp only [expandChildren, hcandidates, bind, Except.bind]
    rw [if_neg (by omega), if_neg (by omega)]
    apply ih h.2
    have hproduct : (expanded.flatMap fun front =>
        candidates.map fun candidate => front ++ candidate).length
          = expanded.length * candidates.length := by
      simp [List.length_flatMap]
    rw [hproduct]
    apply hfits

private theorem refinementCandidates_ok {refinement : DenominationRefinement}
    (hwell : WellFormed refinement) (hcounts : CountsFit refinement) :
  ∃ candidates, refinementCandidates refinement = .ok candidates
  := by
  induction hwell with
  | @node value children hcanonical hpreserves _ ih =>
    obtain ⟨hfits, hbelow⟩ := hcounts
    by_cases hne : children = []
    · subst hne
      exact ⟨[[value]], by simp [refinementCandidates, hcanonical]⟩
    · have hsum := hpreserves hne
      obtain ⟨expanded, hexpanded⟩ := @expandChildren_ok _ [[]]
        (fun child hc => ih child hc (hbelow child hc)) (by simp; omega)
      obtain ⟨-, hlength, -⟩ := expanded_of_ok children [[]] expanded hexpanded
      rw [List.length_singleton, Nat.one_mul] at hlength
      have hroom : ¬ maxVecCapacity < 2 * expanded.length := by
        rw [hlength]
        apply Nat.not_lt_of_le hfits
      have hle := (mem_denominationSteps_of_canonical hcanonical).2
      have hsmall : value < u64Size := lt_of_le_of_lt hle (by decide)
      have hempty : children.isEmpty = false := by simpa using hne
      refine ⟨orderedCandidates value expanded, ?_⟩
      rw [refinementCandidates]
      simp only [hcanonical, hempty, checkedSum, hsum, hexpanded, if_pos hsmall, if_neg hroom,
        bind, Except.bind, pure, Except.pure, ne_eq, not_true_eq_false]
      rfl

/-! ### Selected refinements -/

/-- The most prunings of a refinement that a policy selects for a denomination. -/
def maxPrunings (denomination : Nat) : Nat :=
  if denomination = tenThousandZecZatoshi then 26
  else if denomination = fiveThousandZecZatoshi then 5
  else if denomination = twoThousandZecZatoshi then 2
  else 1

/-- What holds of a refinement that a policy selects for a denomination. -/
structure Selected (denomination : Nat) (refinement : DenominationRefinement) : Prop where
  value : refinement.valueZatoshi = denomination
  wellFormed : WellFormed refinement
  countsFit : CountsFit refinement
  few : (prunings refinement).card ≤ maxPrunings denomination

/-- The rules of a policy split a denomination into canonical ones that add up to it. -/
private theorem splitRule_children {policy : DenominationRefinementPolicy}
    {denomination splitPercent : Nat} {children : List Nat}
    (h : policy.splitRule denomination = some (splitPercent, children)) :
  children ≠ [] ∧ children.sum = denomination ∧
    (∀ child ∈ children, isZip318CanonicalDenomination child) ∧
    (children.map maxPrunings).prod + 1 ≤ maxPrunings denomination
  := by
  rw [DenominationRefinementPolicy.splitRule] at h
  split_ifs at h with hten hfive htwo
  · cases h
    subst hten
    decide
  · cases h
    subst hfive
    decide
  · cases h
    subst htwo
    decide

private theorem one_le_maxPrunings (denomination : Nat) :
  1 ≤ maxPrunings denomination ∧ maxPrunings denomination ≤ 26
  := by
  rw [maxPrunings]
  split_ifs <;> decide

private theorem selected_leaf {denomination : Nat}
    (h : isZip318CanonicalDenomination denomination) :
  Selected denomination (.leaf denomination)
  := by
  constructor
  · rfl
  · exact .node h (by simp) (by simp)
  · exact .node (by decide) (by simp)
  · rw [DenominationRefinement.leaf, prunings, Finset.card_singleton]
    apply (one_le_maxPrunings denomination).1

/-- There are at most as many combinations as the product of the prunings. -/
private theorem card_combinedPrunings_le {denominations : List Nat}
    {children : List DenominationRefinement} (h : List.Forall₂ Selected denominations children) :
  (combinedPrunings children).card ≤ (children.map fun child => (prunings child).card).prod ∧
    (children.map fun child => (prunings child).card).prod ≤ (denominations.map maxPrunings).prod
  := by
  induction h with
  | nil => simp [combinedPrunings]
  | @cons denomination child denominations children hchild _ ih =>
    rw [List.map_cons, List.prod_cons, List.map_cons, List.prod_cons, combinedPrunings]
    constructor
    · apply Finset.card_image_le.trans
      rw [Finset.card_product]
      apply Nat.mul_le_mul_left _ ih.1
    · apply Nat.mul_le_mul hchild.few ih.2

private theorem selected_node {policy : DenominationRefinementPolicy}
    {denomination splitPercent : Nat} {denominations : List Nat}
    {children : List DenominationRefinement}
    (hrule : policy.splitRule denomination = some (splitPercent, denominations))
    (hcanonical : isZip318CanonicalDenomination denomination)
    (h : List.Forall₂ Selected denominations children) :
  Selected denomination (.node denomination children)
  := by
  obtain ⟨hne, hsum, -, hfew⟩ := splitRule_children hrule
  obtain ⟨hcombined, hprod⟩ := card_combinedPrunings_le h
  have hmax := (one_le_maxPrunings denomination).2
  have hne' : children ≠ [] := by
    rintro rfl
    cases h
    apply hne rfl
  have hvalues : children.map DenominationRefinement.valueZatoshi = denominations := by
    clear hne hne' hsum hfew hcombined hprod hrule
    induction h with
    | nil => rfl
    | cons hchild _ ih => rw [List.map_cons, hchild.value, ih]
  have hbelow : ∀ child ∈ children, ∃ d, Selected d child := by
    intro child hc
    obtain ⟨i, hi, rfl⟩ := List.mem_iff_getElem.mp hc
    exact ⟨_, h.get (by rw [h.length_eq]; exact hi) hi⟩
  constructor
  · rfl
  · apply WellFormed.node hcanonical
    · intro _
      rw [hvalues, hsum]
    · intro child hc
      obtain ⟨_, hsel⟩ := hbelow child hc
      apply hsel.wellFormed
  · apply CountsFit.node
    · have hroom : 2 * 26 ≤ maxVecCapacity := by decide
      omega
    · intro child hc
      obtain ⟨_, hsel⟩ := hbelow child hc
      apply hsel.countsFit
  · rw [prunings_node hne']
    have := Finset.card_insert_le ({denomination} : Multiset Nat) (combinedPrunings children)
    omega

private theorem forall₂_mapM {σ : Type} {f : Nat → StateM σ DenominationRefinement}
    {denominations : List Nat} (h : ∀ d ∈ denominations, ∀ s, Selected d (f d s).1) (s : σ) :
  List.Forall₂ Selected denominations (denominations.mapM f s).1
  := by
  induction denominations generalizing s with
  | nil => exact .nil
  | cons d denominations ih =>
    rw [List.forall_mem_cons] at h
    rw [List.mapM_cons]
    exact .cons (h.1 s) (ih h.2 _)

private theorem refineToDepth_selected {σ : Type} (policy : DenominationRefinementPolicy)
    (nextU32 : StateM σ Nat) {denomination : Nat}
    (h : isZip318CanonicalDenomination denomination) (depth : Nat) (s : σ) :
  Selected denomination (refineToDepth policy nextU32 depth denomination s).1
  := by
  induction depth generalizing denomination s with
  | zero => exact selected_leaf h
  | succ depth ih =>
    rw [refineToDepth]
    cases hrule : policy.splitRule denomination with
    | none => exact selected_leaf h
    | some rule =>
      obtain ⟨splitPercent, denominations⟩ := rule
      dsimp only
      split
      · apply selected_leaf h
      · simp only [bind, StateT.bind]
        generalize nextU32 s = drawn
        obtain ⟨draw, s'⟩ := drawn
        dsimp only
        split
        · apply selected_leaf h
        · apply selected_node hrule h
          apply forall₂_mapM
          intro d hd s
          apply ih ((splitRule_children hrule).2.2.1 d hd) s

/-- Every refinement that a policy selects has candidates, at most twenty-six. -/
theorem refineDenomination_selected {σ : Type} (policy : DenominationRefinementPolicy)
    (nextU32 : StateM σ Nat) {denomination : Nat}
    (h : isZip318CanonicalDenomination denomination) (s : σ) :
  Selected denomination (refineDenomination policy nextU32 denomination s).1
  := refineToDepth_selected policy nextU32 h 4 s

/-- The candidates of a refinement are its prunings; and it has candidates exactly when it
is well formed and a vector holds twice the combinations at each of its nodes, as for every
refinement that a policy selects. -/
theorem refinementCandidates_exact (refinement : DenominationRefinement) :
  (∀ candidates, refinementCandidates refinement = .ok candidates →
    CandidatesOf refinement candidates) ∧
  ((∃ candidates, refinementCandidates refinement = .ok candidates)
    ↔ WellFormed refinement ∧ CountsFit refinement) ∧
  ∀ (σ : Type) (policy : DenominationRefinementPolicy) (nextU32 : StateM σ Nat) (d : Nat) (s : σ),
    isZip318CanonicalDenomination d →
    refinement = (refineDenomination policy nextU32 d s).1 →
      ∃ candidates, refinementCandidates refinement = .ok candidates ∧ candidates.length ≤ 26
  := by
  refine ⟨?_, ⟨?_, ?_⟩, ?_⟩
  · intro candidates h
    apply (candidates_of_ok refinement candidates h).1
  · rintro ⟨candidates, h⟩
    apply (candidates_of_ok refinement candidates h).2
  · rintro ⟨hwell, hcounts⟩
    apply refinementCandidates_ok hwell hcounts
  · rintro σ policy nextU32 d s hd rfl
    have hsel := refineDenomination_selected policy nextU32 hd s
    obtain ⟨candidates, h⟩ := refinementCandidates_ok hsel.wellFormed hsel.countsFit
    refine ⟨candidates, h, ?_⟩
    rw [(candidates_of_ok _ candidates h).1.length]
    apply hsel.few.trans (one_le_maxPrunings d).2

theorem refinementCandidates_exact_leaf :
  CandidatesOf (.leaf zip318MaxResidualValueZatoshi) [[zip318MaxResidualValueZatoshi]]
  := (refinementCandidates_exact (.leaf zip318MaxResidualValueZatoshi)).1 _ (by decide)

/-- One hundred notes of a hundred ZEC, each of which may be split in halves. -/
def hundredHalves : DenominationRefinement :=
  .node tenThousandZecZatoshi (List.replicate 100 (.node (100 * zatoshisPerZec)
    [.leaf (50 * zatoshisPerZec), .leaf (50 * zatoshisPerZec)]))

/-- A refinement that loses half of its value. -/
def halfLost : DenominationRefinement :=
  .node (100 * zatoshisPerZec) [.leaf (50 * zatoshisPerZec)]

/-- A refinement that does not add up is refused; and one of canonical denominations that add
up has no candidates when no vector holds the combinations. -/
theorem refinementCandidates_refuses :
  refinementCandidates halfLost
      = .error (.error "Denomination refinement must preserve the selected value") ∧
    WellFormed hundredHalves ∧ ∀ candidates, refinementCandidates hundredHalves ≠ .ok candidates
  := by
  have hleaf : WellFormed (.leaf (50 * zatoshisPerZec)) :=
    .node (by decide) (by simp) (by simp)
  have hchild : WellFormed (.node (100 * zatoshisPerZec)
      [.leaf (50 * zatoshisPerZec), .leaf (50 * zatoshisPerZec)]) := by
    apply WellFormed.node
    · decide
    · intro _
      rfl
    · simp [hleaf]
  refine ⟨by decide, ?_, ?_⟩
  · apply WellFormed.node
    · decide
    · intro _
      decide
    · intro child hc
      rw [(List.mem_replicate.mp hc).2]
      apply hchild
  · intro candidates h
    obtain ⟨hfits, -⟩ := (candidates_of_ok hundredHalves candidates h).2.2
    rw [List.map_replicate, List.prod_replicate] at hfits
    revert hfits
    decide

end Vizor.Planner
