import Mathlib.Tactic.Common

/-!
# Lists of slots

A machine that holds a list of slots replaces one slot in a step.  The lemmas of this file say
what such a replacement does to the members of the list and to how many of them have a
property.
-/

namespace Slots

universe u

variable {α : Type u} {xs : List α} {i : Nat} {x a b : α} {P : α → Prop}

/-- What holds of all slots and of the new one holds after a replacement. -/
theorem forall_set (h : ∀ x ∈ xs, P x) (ha : P a) :
  ∀ x ∈ xs.set i a, P x
  := by
  intro x hx
  obtain hold | rfl := List.mem_or_eq_of_mem_set hx
  · apply h x hold
  · apply ha

/-- A slot is still there after a replacement, unless it was replaced. -/
theorem mem_set_or_eq (hi : xs[i]? = some b) (hx : x ∈ xs) :
  x ∈ xs.set i a ∨ x = b
  := by
  obtain ⟨j, hj⟩ := List.getElem?_of_mem hx
  by_cases hij : i = j
  · subst hij
    rw [hi] at hj
    exact .inr (Option.some_inj.mp hj).symm
  · left
    apply List.mem_of_getElem? (i := j)
    rw [List.getElem?_set_ne hij]
    apply hj

/-- The new slot is there after a replacement. -/
theorem mem_set_self (hi : xs[i]? = some b) :
  a ∈ xs.set i a
  := by
  obtain ⟨hlt, -⟩ := List.getElem?_eq_some_iff.mp hi
  apply List.mem_set hlt a

/-- A slot that is not the replaced one stays at its place, and the new one is at its own. -/
theorem getElem?_set_cases {j : Nat} (h : (xs.set i a)[j]? = some x) :
  j = i ∧ x = a ∨ j ≠ i ∧ xs[j]? = some x
  := by
  by_cases hij : i = j
  · subst hij
    left
    rw [List.getElem?_set_self'] at h
    obtain ⟨_, -, hx⟩ := Option.map_eq_some_iff.mp h
    exact ⟨rfl, hx.symm⟩
  · right
    rw [List.getElem?_set_ne hij] at h
    exact ⟨Ne.symm hij, h⟩

/-- A slot of an extended list is old, or the new one. -/
theorem getElem?_concat_cases {j : Nat} (h : (xs ++ [a])[j]? = some x) :
  xs[j]? = some x ∨ j = xs.length ∧ x = a
  := by
  obtain hlt | hge := Nat.lt_or_ge j xs.length
  · rw [List.getElem?_append_left hlt] at h
    exact .inl h
  · rw [List.getElem?_append_right hge, List.getElem?_singleton] at h
    split at h
    case isTrue hzero =>
      cases h
      exact .inr ⟨by omega, rfl⟩
    case isFalse => cases h

/-- How many slots have a property after a replacement. -/
theorem countP_set_add {p : α → Bool} (hi : xs[i]? = some b) :
  (xs.set i a).countP p + (if p b then 1 else 0) = xs.countP p + (if p a then 1 else 0)
  := by
  obtain ⟨hlt, hb⟩ := List.getElem?_eq_some_iff.mp hi
  rw [List.countP_set hlt, hb]
  by_cases hp : p b
  · have hpos : 0 < xs.countP p := List.countP_pos_iff.mpr ⟨b, List.mem_of_getElem? hi, hp⟩
    rw [if_pos hp]
    omega
  · rw [if_neg hp]
    omega

end Slots
