import Mathlib.Data.List.Basic
import Mathlib.Data.List.Perm.Basic
import Mathlib.Algebra.BigOperators.Group.List.Basic
import Mathlib.Tactic.Common

/-!
# Layered lists

A layered list is a list of layers, each a list of entries; an entry is addressed by
its layer and its position in the layer.  Entries are only ever placed at the end of a
layer, so that an address, once taken, keeps its entry.
-/

namespace Layered

variable {α : Type*} {L : List (List α)} {x y : α} {k l t : ℕ}

/-- The entry at position `t` of layer `l`. -/
def at? (L : List (List α)) (l t : ℕ) : Option α :=
  L[l]?.bind fun layer => layer[t]?

/-- The number of entries of layer `l`. -/
def size (L : List (List α)) (l : ℕ) : ℕ :=
  (L[l]?.getD []).length

/-- Placing an entry at the end of layer `l`. -/
def place (L : List (List α)) (l : ℕ) (x : α) : List (List α) :=
  L.modify l fun layer => layer ++ [x]

/-- Adding empty layers until there are more than `l` of them. -/
def reach (L : List (List α)) (l : ℕ) : List (List α) :=
  L ++ List.replicate (l + 1 - L.length) []

/-! ### Addresses -/

theorem at?_eq_some :
  at? L l t = some x ↔ ∃ layer, L[l]? = some layer ∧ layer[t]? = some x
  := Option.bind_eq_some_iff

theorem lt_length_of_at? (h : at? L l t = some x) :
  l < L.length
  := by
  obtain ⟨layer, hl, -⟩ := at?_eq_some.mp h
  apply (List.getElem?_eq_some_iff.mp hl).1

theorem lt_size_of_at? (h : at? L l t = some x) :
  t < size L l
  := by
  obtain ⟨layer, hl, ht⟩ := at?_eq_some.mp h
  rw [size, hl]
  apply (List.getElem?_eq_some_iff.mp ht).1

/-- The entries of a layered list are those at some address. -/
theorem mem_flatten_iff :
  x ∈ L.flatten ↔ ∃ l t, at? L l t = some x
  := by
  simp only [List.mem_flatten, at?_eq_some]
  constructor
  · rintro ⟨layer, hL, hx⟩
    obtain ⟨l, hl⟩ := List.mem_iff_getElem?.mp hL
    obtain ⟨t, ht⟩ := List.mem_iff_getElem?.mp hx
    exact ⟨l, t, layer, hl, ht⟩
  · rintro ⟨l, t, layer, hl, ht⟩
    exact ⟨layer, List.mem_of_getElem? hl, List.mem_of_getElem? ht⟩

/-! ### Placing an entry -/

@[simp]
theorem length_place :
  (place L l x).length = L.length
  := by
  simp [place]

theorem getElem?_place :
  (place L l x)[k]? = if l = k then L[k]?.map (· ++ [x]) else L[k]?
  := by
  rw [place, List.getElem?_modify]
  split
  · rfl
  · simp

/-- Entries keep their addresses when another entry is placed. -/
theorem at?_place_of_some (h : at? L k t = some y) :
  at? (place L l x) k t = some y
  := by
  obtain ⟨layer, hk, ht⟩ := at?_eq_some.mp h
  rw [at?_eq_some]
  by_cases hlk : l = k
  · use layer ++ [x]
    rw [getElem?_place, if_pos hlk, hk]
    constructor
    · rfl
    · rw [List.getElem?_append_left (List.getElem?_eq_some_iff.mp ht).1]
      apply ht
  · use layer
    rw [getElem?_place, if_neg hlk]
    exact ⟨hk, ht⟩

/-- A placed entry is at the first address of its layer that was not taken. -/
theorem at?_place_self (h : l < L.length) :
  at? (place L l x) l (size L l) = some x
  := by
  rw [at?_eq_some]
  use L[l] ++ [x]
  rw [getElem?_place, if_pos rfl, List.getElem?_eq_getElem h]
  constructor
  · rfl
  · simp [size, List.getElem?_eq_getElem h]

/-- An entry found after a placement was there before or is the placed one. -/
theorem at?_of_place (h : at? (place L l x) k t = some y) :
  at? L k t = some y ∨ (k = l ∧ t = size L l ∧ y = x)
  := by
  obtain ⟨layer, hk, ht⟩ := at?_eq_some.mp h
  rw [getElem?_place] at hk
  by_cases hlk : l = k
  · subst hlk
    rw [if_pos rfl, Option.map_eq_some_iff] at hk
    obtain ⟨old, hold, rfl⟩ := hk
    rcases Nat.lt_or_ge t old.length with hlt | hge
    · left
      rw [List.getElem?_append_left hlt] at ht
      apply at?_eq_some.mpr ⟨old, hold, ht⟩
    · right
      rw [List.getElem?_append_right hge, List.getElem?_singleton] at ht
      split at ht
      · rename_i hz
        have ht' : t = size L l := by
          simp only [size, hold, Option.getD_some]
          omega
        exact ⟨rfl, ht', (Option.some_inj.mp ht).symm⟩
      · cases ht
  · left
    rw [if_neg hlk] at hk
    apply at?_eq_some.mpr ⟨layer, hk, ht⟩

/-- Placing an entry adds it to the entries. -/
theorem flatten_place_perm (h : l < L.length) :
  (place L l x).flatten.Perm (x :: L.flatten)
  := by
  induction L generalizing l with
  | nil => simp at h
  | cons layer L ih =>
    cases l with
    | zero =>
      simp only [place, List.modify_zero_cons, List.flatten_cons, List.append_assoc,
        List.singleton_append]
      apply List.perm_middle
    | succ l =>
      have hl : l < L.length := by simpa using h
      have hp : (place (layer :: L) (l + 1) x).flatten = layer ++ (place L l x).flatten := by
        simp [place]
      rw [hp, List.flatten_cons]
      apply ((ih hl).append_left layer).trans List.perm_middle

theorem mem_flatten_place (h : l < L.length) :
  y ∈ (place L l x).flatten ↔ y = x ∨ y ∈ L.flatten
  := by
  rw [(flatten_place_perm h).mem_iff, List.mem_cons]

/-- Placing an entry makes its layer longer by one. -/
theorem size_place (h : l < L.length) :
  size (place L l x) k = if l = k then size L k + 1 else size L k
  := by
  simp only [size, getElem?_place]
  split
  · rename_i hlk
    subst hlk
    simp [List.getElem?_eq_getElem h]
  · rfl

/-- A layer has entries at the positions below its size. -/
theorem at?_isSome_iff :
  (at? L l t).isSome ↔ t < size L l
  := by
  simp only [at?, size]
  cases L[l]? with
  | none => simp
  | some layer => simp

/-- A layered list that keeps the entries of another has layers at least as long. -/
theorem size_le_of_kept {L' : List (List α)}
    (h : ∀ l t x, at? L l t = some x → at? L' l t = some x) (l : ℕ) :
  size L l ≤ size L' l
  := by
  by_contra hlt
  have hsome : (at? L l (size L' l)).isSome := at?_isSome_iff.mpr (by omega)
  obtain ⟨x, hx⟩ := Option.isSome_iff_exists.mp hsome
  have := lt_size_of_at? (h l _ x hx)
  omega

/-! ### Adding layers -/

theorem length_reach (L : List (List α)) (l : ℕ) :
  l < (reach L l).length
  := by
  simp only [reach, List.length_append, List.length_replicate]
  omega

theorem length_reach_eq (L : List (List α)) (l : ℕ) :
  (reach L l).length = max L.length (l + 1)
  := by
  simp only [reach, List.length_append, List.length_replicate]
  omega

@[simp]
theorem flatten_reach :
  (reach L l).flatten = L.flatten
  := by
  simp [reach]

@[simp]
theorem at?_reach :
  at? (reach L l) k t = at? L k t
  := by
  rcases Nat.lt_or_ge k L.length with h | h
  · simp only [at?, reach, List.getElem?_append_left h]
  · have hL : L[k]? = none := List.getElem?_eq_none h
    simp only [at?, reach, List.getElem?_append_right h, hL, List.getElem?_replicate]
    split <;> simp

@[simp]
theorem size_reach :
  size (reach L l) k = size L k
  := by
  rcases Nat.lt_or_ge k L.length with h | h
  · simp only [size, reach, List.getElem?_append_left h]
  · have hL : L[k]? = none := List.getElem?_eq_none h
    simp only [size, reach, List.getElem?_append_right h, hL, List.getElem?_replicate]
    split <;> simp

/-- Appending an entry to a new last layer is placing it there. -/
theorem place_append_singleton (L : List (List α)) (layer : List α) (x : α) :
  place (L ++ [layer]) L.length x = L ++ [layer ++ [x]]
  := by
  apply List.ext_getElem?
  intro i
  rw [getElem?_place]
  rcases Nat.lt_trichotomy i L.length with h | h | h
  · rw [if_neg (by omega), List.getElem?_append_left h, List.getElem?_append_left h]
  · subst h
    simp
  · rw [if_neg (by omega), List.getElem?_eq_none (by simp; omega),
      List.getElem?_eq_none (by simp; omega)]

theorem size_append_singleton (L : List (List α)) (layer : List α) :
  size (L ++ [layer]) L.length = layer.length
  := by
  simp [size]

end Layered
