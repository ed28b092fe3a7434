import Mathlib.Order.Basic
import Mathlib.Data.List.Basic
import Mathlib.Data.List.Pairwise
import Mathlib.Order.Lattice
import Mathlib.Tactic.Common

/-!
# Matching in order

Items wait for arrivals.  The items are gone through by increasing key, and each takes the first
arrival after its key that no item before it took.  An arrival is taken when an item waits for
it: when, counted from the key of some item on, fewer arrivals came before it than items.
-/

namespace InOrderMatching

universe u v

variable {α : Type u} {γ : Type v} [LinearOrder α] (key : γ → α)

/-- Match the items with the arrivals, both in increasing order. -/
def pair : List γ → List α → List (γ × α)
  | [], _ => []
  | item :: items, arrivals =>
    match arrivals.dropWhile (· ≤ key item) with
    | [] => pair items []
    | arrival :: arrivals => (item, arrival) :: pair items arrivals

/-- An item waits for the arrival: counted from the key of the item on, fewer arrivals came
before it than items. -/
def Waiting (items : List γ) (arrivals : List α) (arrival : α) : Prop :=
  ∃ item ∈ items, key item < arrival
    ∧ arrivals.countP (fun x => key item < x ∧ x < arrival)
      < items.countP (fun y => key item ≤ key y ∧ key y < arrival)

variable {key}

@[simp]
theorem pair_nil (items : List γ) :
  pair key items [] = []
  := by
  induction items with
  | nil => rfl
  | cons item items ih => exact ih

/-! ### The pairs -/

/-- What is left after the arrivals up to a bound comes from the arrivals and is after it. -/
theorem dropWhile_sublist_of_eq {arrivals rest : List α} {bound : α}
    (h : arrivals.dropWhile (· ≤ bound) = rest) :
  rest.Sublist arrivals
  := by
  rw [← h]
  apply List.dropWhile_sublist _

theorem lt_of_dropWhile_eq_cons {arrivals rest : List α} {bound first : α}
    (h : arrivals.dropWhile (· ≤ bound) = first :: rest) :
  bound < first
  := by
  have hne : arrivals.dropWhile (· ≤ bound) ≠ [] := by simp [h]
  have hhead := List.head_dropWhile_not (fun x : α => decide (x ≤ bound)) hne
  simpa [h] using hhead

/-- The arrivals that are taken are arrivals, in their order. -/
theorem map_snd_pair_sublist (items : List γ) (arrivals : List α) :
  ((pair key items arrivals).map Prod.snd).Sublist arrivals
  := by
  induction items generalizing arrivals with
  | nil => exact List.nil_sublist _
  | cons item items ih =>
    unfold pair
    split
    · simp
    · rename_i first rest h
      apply ((ih rest).cons_cons first).trans (dropWhile_sublist_of_eq h)

/-- The items that take an arrival are items, in their order. -/
theorem map_fst_pair_sublist (items : List γ) (arrivals : List α) :
  ((pair key items arrivals).map Prod.fst).Sublist items
  := by
  induction items generalizing arrivals with
  | nil => exact List.nil_sublist _
  | cons item items ih =>
    unfold pair
    split
    · apply (ih []).cons item
    · rename_i first rest h
      apply (ih rest).cons_cons item

/-- An item takes an arrival after its key. -/
theorem lt_of_mem_pair {items : List γ} {arrivals : List α} {matched : γ × α}
    (h : matched ∈ pair key items arrivals) :
  key matched.1 < matched.2
  := by
  induction items generalizing arrivals with
  | nil => cases h
  | cons item items ih =>
    unfold pair at h
    split at h
    · apply ih h
    · rename_i first rest hdrop
      rcases List.mem_cons.mp h with rfl | h
      · apply lt_of_dropWhile_eq_cons hdrop
      · apply ih h

/-! ### Which arrivals are taken -/

theorem countP_eq_of_forall {β : Type u} {p q : β → Prop} [DecidablePred p] [DecidablePred q]
    {values : List β} (h : ∀ value ∈ values, p value ↔ q value) :
  values.countP (fun value => p value) = values.countP (fun value => q value)
  := by
  apply List.countP_congr
  intro value hvalue
  simp [h value hvalue]

/-- When no item is left out, someone waits for an arrival exactly when fewer arrivals came
before it than items. -/
theorem waiting_of_lt {items : List γ} {arrivals : List α} {arrival : α}
    (hitems : items.Pairwise (fun x y => key x ≤ key y))
    (h : arrivals.countP (fun x => x < arrival) < items.countP (fun y => key y < arrival)) :
  Waiting key items arrivals arrival
  := by
  cases items with
  | nil => simp at h
  | cons item items =>
    have hle : ∀ y ∈ item :: items, key item ≤ key y := by
      intro y hy
      rcases List.mem_cons.mp hy with rfl | hy
      · exact le_rfl
      · apply List.rel_of_pairwise_cons hitems hy
    have hcount : (item :: items).countP (fun y => key item ≤ key y ∧ key y < arrival)
        = (item :: items).countP (fun y => key y < arrival) :=
      countP_eq_of_forall fun y hy => and_iff_right (hle y hy)
    have hlt : key item < arrival := by
      by_contra hnot
      have hzero : (item :: items).countP (fun y => key y < arrival) = 0 := by
        simp only [List.countP_eq_zero, decide_eq_true_eq]
        intro y hy hlt
        apply hnot ((hle y hy).trans_lt hlt)
      omega
    refine ⟨item, List.mem_cons_self, hlt, ?_⟩
    rw [hcount]
    refine lt_of_le_of_lt ?_ h
    apply List.countP_mono_left
    intro x _ hx
    simp only [decide_eq_true_eq] at hx ⊢
    apply hx.2

/-- The arrivals up to the key of the first item play no role. -/
theorem waiting_dropWhile {item : γ} {items : List γ} {arrivals : List α} {arrival : α}
    (hitems : (item :: items).Pairwise (fun x y => key x ≤ key y)) :
  Waiting key (item :: items) (arrivals.dropWhile (· ≤ key item)) arrival
    ↔ Waiting key (item :: items) arrivals arrival
  := by
  unfold Waiting
  apply exists_congr
  intro y
  apply and_congr_right
  intro hy
  apply and_congr_right
  intro _
  have hle : key item ≤ key y := by
    rcases List.mem_cons.mp hy with rfl | hy
    · exact le_rfl
    · apply List.rel_of_pairwise_cons hitems hy
  have hskip : (arrivals.takeWhile (· ≤ key item)).countP (fun x => key y < x ∧ x < arrival)
      = 0 := by
    simp only [List.countP_eq_zero, decide_eq_true_eq]
    rintro x hx ⟨hlt, -⟩
    have hxle : x ≤ key item := by
      simpa using List.all_eq_true.mp List.all_takeWhile x hx
    exact absurd (hle.trans_lt hlt) (not_lt.mpr hxle)
  have hcount : arrivals.countP (fun x => key y < x ∧ x < arrival)
      = (arrivals.dropWhile (· ≤ key item)).countP (fun x => key y < x ∧ x < arrival) := by
    conv_lhs => rw [← List.takeWhile_append_dropWhile (p := (· ≤ key item)) (l := arrivals)]
    rw [List.countP_append, hskip, Nat.zero_add]
  rw [hcount]

theorem mem_dropWhile_iff {arrivals : List α} {bound arrival : α}
    (harrivals : arrivals.Pairwise (· < ·)) :
  arrival ∈ arrivals.dropWhile (· ≤ bound) ↔ arrival ∈ arrivals ∧ bound < arrival
  := by
  induction arrivals with
  | nil => simp
  | cons first rest ih =>
    have hrest := ih harrivals.of_cons
    rw [List.dropWhile_cons]
    split_ifs with hle
    · simp only [decide_eq_true_eq] at hle
      rw [hrest, List.mem_cons]
      constructor
      · rintro ⟨hmem, hlt⟩
        exact ⟨Or.inr hmem, hlt⟩
      · rintro ⟨rfl | hmem, hlt⟩
        · exact absurd hlt (not_lt.mpr hle)
        · exact ⟨hmem, hlt⟩
    · simp only [decide_eq_true_eq, not_le] at hle
      constructor
      · intro hmem
        refine ⟨hmem, ?_⟩
        rcases List.mem_cons.mp hmem with rfl | hmem
        · apply hle
        · apply hle.trans (List.rel_of_pairwise_cons harrivals hmem)
      · apply And.left

/-- The first item waits for the first arrival. -/
theorem waiting_first {item : γ} {items : List γ} {first : α} {rest : List α}
    (harrivals : (first :: rest).Pairwise (· < ·)) (hfirst : key item < first) :
  Waiting key (item :: items) (first :: rest) first
  := by
  refine ⟨item, List.mem_cons_self, hfirst, ?_⟩
  have hnone : (first :: rest).countP (fun x => key item < x ∧ x < first) = 0 := by
    simp only [List.countP_eq_zero, decide_eq_true_eq]
    rintro x hx ⟨-, hlt⟩
    rcases List.mem_cons.mp hx with rfl | hx
    · apply lt_irrefl x hlt
    · apply lt_asymm hlt (List.rel_of_pairwise_cons harrivals hx)
  rw [hnone, List.countP_cons_of_pos (by simp [hfirst])]
  apply Nat.succ_pos _

/-- After the first item took the first arrival, the others wait for the same arrivals. -/
theorem waiting_cons_iff {item : γ} {items : List γ} {first arrival : α} {rest : List α}
    (hitems : (item :: items).Pairwise (fun x y => key x ≤ key y))
    (harrivals : (first :: rest).Pairwise (· < ·)) (hfirst : key item < first)
    (harrival : arrival ∈ rest) :
  Waiting key (item :: items) (first :: rest) arrival ↔ Waiting key items rest arrival
  := by
  have hlt : first < arrival := List.rel_of_pairwise_cons harrivals harrival
  have hafter : ∀ x ∈ rest, first < x := fun x hx => List.rel_of_pairwise_cons harrivals hx
  have hle : ∀ y ∈ items, key item ≤ key y := fun y hy => List.rel_of_pairwise_cons hitems hy
  have hearly : ∀ bound < first, (first :: rest).countP (fun x => bound < x ∧ x < arrival)
      = rest.countP (fun x => x < arrival) + 1 := by
    intro bound hbound
    rw [List.countP_cons_of_pos (by simp [hbound, hlt])]
    congr 1
    apply countP_eq_of_forall fun x hx => and_iff_right (hbound.trans (hafter x hx))
  have hlate : ∀ bound, first ≤ bound →
      (first :: rest).countP (fun x => bound < x ∧ x < arrival)
        = rest.countP (fun x => bound < x ∧ x < arrival) := by
    intro bound hbound
    rw [List.countP_cons_of_neg (by simp [not_lt.mpr hbound])]
  constructor
  · rintro ⟨y, hy, hya, hcount⟩
    rcases lt_or_ge (key y) first with hyf | hyf
    · apply waiting_of_lt hitems.of_cons
      rw [hearly _ hyf] at hcount
      have hmono : (item :: items).countP (fun z => key y ≤ key z ∧ key z < arrival)
          ≤ (item :: items).countP (fun z => key z < arrival) := by
        apply List.countP_mono_left
        intro z _ hz
        simp only [decide_eq_true_eq] at hz ⊢
        apply hz.2
      have hsucc : (item :: items).countP (fun z => key z < arrival)
          ≤ items.countP (fun z => key z < arrival) + 1 := by
        rw [List.countP_cons]
        split_ifs <;> omega
      omega
    · have hyi : y ∈ items := by
        rcases List.mem_cons.mp hy with rfl | hy
        · exact absurd hfirst (not_lt.mpr hyf)
        · apply hy
      refine ⟨y, hyi, hya, ?_⟩
      rw [hlate _ hyf] at hcount
      rwa [List.countP_cons_of_neg (by simp [not_le.mpr (hfirst.trans_le hyf)])] at hcount
  · rintro ⟨y, hy, hya, hcount⟩
    rcases lt_or_ge (key y) first with hyf | hyf
    · refine ⟨item, List.mem_cons_self, hfirst.trans hlt, ?_⟩
      rw [hearly _ hfirst, List.countP_cons_of_pos (by simp [hfirst.trans hlt])]
      have hrest : rest.countP (fun x => key y < x ∧ x < arrival)
          = rest.countP (fun x => x < arrival) :=
        countP_eq_of_forall fun x hx => and_iff_right (hyf.trans (hafter x hx))
      have hmono : items.countP (fun z => key y ≤ key z ∧ key z < arrival)
          ≤ items.countP (fun z => key item ≤ key z ∧ key z < arrival) := by
        apply List.countP_mono_left
        intro z hz hz'
        simp only [decide_eq_true_eq] at hz' ⊢
        exact ⟨hle z hz, hz'.2⟩
      omega
    · refine ⟨y, List.mem_cons_of_mem _ hy, hya, ?_⟩
      rw [hlate _ hyf]
      rw [List.countP_cons_of_neg (by simp [not_le.mpr (hfirst.trans_le hyf)])]
      apply hcount

/-- The arrivals that are taken are those for which an item waits. -/
theorem mem_map_snd_pair_iff {items : List γ} {arrivals : List α} {arrival : α}
    (hitems : items.Pairwise (fun x y => key x ≤ key y)) (harrivals : arrivals.Pairwise (· < ·)) :
  arrival ∈ (pair key items arrivals).map Prod.snd
    ↔ arrival ∈ arrivals ∧ Waiting key items arrivals arrival
  := by
  induction items generalizing arrivals with
  | nil => simp [pair, Waiting]
  | cons item items ih =>
    have hlater : Waiting key (item :: items) arrivals arrival → key item < arrival := by
      rintro ⟨y, hy, hya, -⟩
      rcases List.mem_cons.mp hy with rfl | hy
      · apply hya
      · apply (List.rel_of_pairwise_cons hitems hy).trans_lt hya
    have hdrop : arrival ∈ arrivals ∧ Waiting key (item :: items) arrivals arrival
        ↔ arrival ∈ arrivals.dropWhile (· ≤ key item)
          ∧ Waiting key (item :: items) (arrivals.dropWhile (· ≤ key item)) arrival := by
      rw [waiting_dropWhile hitems, mem_dropWhile_iff harrivals]
      constructor
      · rintro ⟨hmem, hwaiting⟩
        exact ⟨⟨hmem, hlater hwaiting⟩, hwaiting⟩
      · rintro ⟨⟨hmem, -⟩, hwaiting⟩
        exact ⟨hmem, hwaiting⟩
    rw [hdrop]
    unfold pair
    split
    · rename_i h
      simp [h]
    · rename_i first rest h
      have hsorted : (first :: rest).Pairwise (· < ·) :=
        harrivals.sublist (dropWhile_sublist_of_eq h)
      have hfirst := lt_of_dropWhile_eq_cons h
      rw [h, List.map_cons, List.mem_cons, List.mem_cons, ih hitems.of_cons hsorted.of_cons]
      constructor
      · rintro (rfl | ⟨hmem, hwaiting⟩)
        · exact ⟨Or.inl rfl, waiting_first hsorted hfirst⟩
        · exact ⟨Or.inr hmem, (waiting_cons_iff hitems hsorted hfirst hmem).mpr hwaiting⟩
      · rintro ⟨rfl | hmem, hwaiting⟩
        · exact Or.inl rfl
        · exact Or.inr ⟨hmem, (waiting_cons_iff hitems hsorted hfirst hmem).mp hwaiting⟩

/-- Who waits does not depend on the order in which items and arrivals are listed. -/
theorem waiting_congr {items items' : List γ} {arrivals arrivals' : List α} {arrival : α}
    (hitems : items.Perm items') (harrivals : arrivals.Perm arrivals') :
  Waiting key items arrivals arrival ↔ Waiting key items' arrivals' arrival
  := by
  unfold Waiting
  simp only [hitems.mem_iff, hitems.countP_eq, harrivals.countP_eq]

end InOrderMatching
