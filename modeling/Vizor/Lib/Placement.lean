import Mathlib.Data.Finset.Card
import Mathlib.Data.Finset.Range
import Mathlib.Data.List.Perm.Basic
import Mathlib.Tactic.Common

/-!
# Placing entries in slots

Entries are placed one after another: an entry takes a slot that no entry took before it, and
the list of slots grows only when every slot is taken.  After any number of entries, each of
them is in exactly one slot, and there are as many slots as are needed for the slots of the
beginning and for the entries.
-/

namespace Placement

universe u v

variable {β : Type u} {γ : Type v} {slots : List β} {i j n : Nat} {x : β}

/-- Put `x` in the slot `i`, or after the slots if there is no such slot. -/
def place (slots : List β) (i : Nat) (x : β) : List β :=
  if i < slots.length then slots.set i x else slots ++ [x]

/-! ### What a placement does to the slots -/

theorem place_of_lt (h : i < slots.length) :
  place slots i x = slots.set i x
  := if_pos h

theorem place_length :
  place slots slots.length x = slots ++ [x]
  := if_neg (lt_irrefl _)

theorem length_place (h : i ≤ slots.length) :
  (place slots i x).length = max slots.length (i + 1)
  := by
  obtain hlt | rfl := Nat.lt_or_eq_of_le h
  · rw [place_of_lt hlt, List.length_set, Nat.max_eq_left hlt]
  · rw [place_length, List.length_append, List.length_singleton,
      Nat.max_eq_right (Nat.le_succ _)]

/-- The slot `i` holds the new entry, and the others are as they were. -/
theorem getElem?_place (h : i ≤ slots.length) :
  (place slots i x)[j]? = if j = i then some x else slots[j]?
  := by
  obtain hlt | rfl := Nat.lt_or_eq_of_le h
  · rw [place_of_lt hlt, List.getElem?_set]
    by_cases hij : i = j
    · subst hij
      simp [hlt]
    · rw [if_neg hij, if_neg (Ne.symm hij)]
  · rw [place_length, List.getElem?_append]
    by_cases hj : j < slots.length
    · rw [if_pos hj, if_neg (Nat.ne_of_lt hj)]
    · rw [if_neg hj]
      by_cases heq : j = slots.length
      · simp [heq]
      · rw [if_neg heq, List.getElem?_eq_none (by simp; omega), List.getElem?_eq_none (by omega)]

theorem map_place (f : β → γ) :
  (place slots i x).map f = place (slots.map f) i (f x)
  := by
  unfold place
  rw [List.length_map]
  split
  · apply List.map_set
  · rw [List.map_append, List.map_singleton]

/-- Slots that are numbered in their order stay so. -/
theorem place_range (h : i ≤ n) :
  place (List.range n) i i = List.range (max n (i + 1))
  := by
  obtain hlt | rfl := Nat.lt_or_eq_of_le h
  · rw [Nat.max_eq_left hlt, place_of_lt (by rwa [List.length_range])]
    apply List.ext_getElem?
    intro j
    rw [List.getElem?_set]
    by_cases hij : i = j
    · subst hij
      simp [hlt]
    · rw [if_neg hij]
  · rw [Nat.max_eq_right (Nat.le_succ _), List.range_succ]
    have hplace := @place_length _ (List.range i) i
    rwa [List.length_range] at hplace

/-- A column in which an entry repeats what was in its slot only grows. -/
theorem extends_place_getD {values : List γ} {v : γ} :
  values <+: place values i (values[i]?.getD v)
  := by
  unfold place
  split
  · rename_i hlt
    rw [List.getElem?_eq_getElem hlt, Option.getD_some, List.set_getElem_self]
  · apply List.prefix_append

/-- What the slots hold, after an entry took a slot that held nothing. -/
theorem filterMap_place_perm {held : β → Option γ} {t : γ} (h : i ≤ slots.length)
    (hfree : ∀ slot, slots[i]? = some slot → held slot = none) (hx : held x = some t) :
  ((place slots i x).filterMap held).Perm (slots.filterMap held ++ [t])
  := by
  obtain hlt | rfl := Nat.lt_or_eq_of_le h
  · have hnone : held slots[i] = none := hfree _ (List.getElem?_eq_getElem hlt)
    have hheld : slots.filterMap held
        = (slots.take i).filterMap held ++ (slots.drop (i + 1)).filterMap held := by
      conv_lhs => rw [← List.take_append_drop i slots, List.drop_eq_getElem_cons hlt]
      rw [List.filterMap_append, List.filterMap_cons_none hnone]
    rw [place_of_lt hlt, List.set_eq_take_append_cons_drop, if_pos hlt, List.filterMap_append,
      List.filterMap_cons_some hx, hheld, List.append_assoc]
    apply List.Perm.append_left
    apply (List.perm_append_singleton t _).symm
  · rw [place_length, List.filterMap_append]
    simp [hx]

/-! ### Entries placed one after another -/

/-- The next slot to take: one that is not taken, or the one after all the slots if they are
all taken. -/
structure Next (taken : Finset Nat) (length i : Nat) : Prop where
  le : i ≤ length
  free : i ∉ taken
  full : i = length → ∀ j < length, j ∈ taken

/-- The entries are in the slots, each in one that is taken. -/
structure Placed (held : β → Option γ) (n : Nat) (slots : List β) (taken : Finset Nat)
    (entries : List γ) : Prop where
  length : slots.length = max n entries.length
  mem_taken : ∀ i, i ∈ taken ↔ ∃ slot, slots[i]? = some slot ∧ (held slot).isSome
  card : taken.card = entries.length
  perm : (slots.filterMap held).Perm entries

variable {held : β → Option γ} {taken : Finset Nat} {entries : List γ} {t : γ}

/-- In the beginning nothing is placed. -/
theorem placed_nil (h : ∀ slot ∈ slots, held slot = none) :
  Placed held slots.length slots ∅ []
  := by
  constructor
  · simp
  · intro i
    constructor
    · intro hi
      exact absurd hi (Finset.notMem_empty i)
    · rintro ⟨slot, hslot, hheld⟩
      rw [h slot (List.mem_of_getElem? hslot)] at hheld
      cases hheld
  · rfl
  · rw [List.filterMap_eq_nil_iff.mpr h]

theorem Placed.lt_of_taken (h : Placed held n slots taken entries) (hi : i ∈ taken) :
  i < slots.length
  := by
  obtain ⟨slot, hslot, -⟩ := (h.mem_taken i).mp hi
  apply (List.getElem?_eq_some_iff.mp hslot).1

/-- There are as many slots as before, unless all of them are taken. -/
theorem Placed.length_next (h : Placed held n slots taken entries)
    (hnext : Next taken slots.length i) :
  max slots.length (i + 1) = max n (entries.length + 1)
  := by
  have hlength := h.length
  have hsub : taken ⊆ Finset.range slots.length := by
    intro j hj
    rw [Finset.mem_range]
    apply h.lt_of_taken hj
  obtain hlt | heq := Nat.lt_or_eq_of_le hnext.le
  · have hinsert : insert i taken ⊆ Finset.range slots.length :=
      Finset.insert_subset (Finset.mem_range.mpr hlt) hsub
    have hcard := Finset.card_le_card hinsert
    rw [Finset.card_insert_of_notMem hnext.free, Finset.card_range, h.card] at hcard
    omega
  · have hfull : Finset.range slots.length ⊆ taken := by
      intro j hj
      apply hnext.full heq j (Finset.mem_range.mp hj)
    have hcard := Finset.card_le_card hfull
    rw [Finset.card_range, h.card] at hcard
    omega

/-- One more entry is placed in the next slot. -/
theorem Placed.place (h : Placed held n slots taken entries) (hnext : Next taken slots.length i)
    (hx : held x = some t) :
  Placed held n (place slots i x) (insert i taken) (entries ++ [t])
  := by
  constructor
  · rw [length_place hnext.le, h.length_next hnext, List.length_append, List.length_singleton]
  · intro j
    rw [Finset.mem_insert, getElem?_place hnext.le]
    by_cases hji : j = i
    · simp [hji, hx]
    · simp only [hji, false_or, if_false]
      apply h.mem_taken
  · rw [Finset.card_insert_of_notMem hnext.free, h.card, List.length_append,
      List.length_singleton]
  · have hfree : ∀ slot, slots[i]? = some slot → held slot = none := by
      intro slot hslot
      by_contra hheld
      apply hnext.free
      rw [h.mem_taken]
      exact ⟨slot, hslot, Option.isSome_iff_ne_none.mpr hheld⟩
    apply (filterMap_place_perm hnext.le hfree hx).trans
    apply h.perm.append_right

end Placement
