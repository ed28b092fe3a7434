import Mathlib.Data.List.Basic
import Mathlib.Tactic.Common

/-!
# Ranks

The rank of a position of a list is the number of elements before it that meet a predicate.
The element of rank `r` among those that meet the predicate is at the position of this rank,
and positions of elements that meet it have different ranks.
-/

namespace Rank

variable {α : Type*} {p : α → Bool} {xs : List α} {x y : α} {i j r : ℕ}

/-- The number of elements before a position that meet `p`. -/
def rank (p : α → Bool) (xs : List α) (i : ℕ) : ℕ :=
  (xs.take i).countP p

/-- The elements that meet `p` are found at positions with their ranks. -/
theorem exists_of_filter (h : (xs.filter p)[r]? = some x) :
  ∃ i, xs[i]? = some x ∧ p x ∧ rank p xs i = r
  := by
  induction xs generalizing r with
  | nil => simp at h
  | cons y xs ih =>
    by_cases hy : p y
    · rw [List.filter_cons_of_pos hy] at h
      cases r with
      | zero =>
        obtain rfl : y = x := by simpa using h
        exact ⟨0, rfl, hy, by simp [rank]⟩
      | succ r =>
        rw [List.getElem?_cons_succ] at h
        obtain ⟨i, hi, hx, hrank⟩ := ih h
        refine ⟨i + 1, by simpa using hi, hx, ?_⟩
        rw [rank, List.take_succ_cons, List.countP_cons_of_pos hy]
        apply congrArg (· + 1) hrank
    · rw [List.filter_cons_of_neg hy] at h
      obtain ⟨i, hi, hx, hrank⟩ := ih h
      refine ⟨i + 1, by simpa using hi, hx, ?_⟩
      rw [rank, List.take_succ_cons, List.countP_cons_of_neg hy]
      apply hrank

/-- The rank grows past an element that meets `p`. -/
theorem rank_lt (hi : xs[i]? = some x) (hx : p x) (hij : i < j) :
  rank p xs i < rank p xs j
  := by
  obtain ⟨hlt, rfl⟩ := List.getElem?_eq_some_iff.mp hi
  have hsplit : xs.take (i + 1) = xs.take i ++ [xs[i]] := by
    apply List.take_succ_eq_append_getElem hlt
  have hone : rank p xs (i + 1) = rank p xs i + 1 := by
    rw [rank, hsplit, List.countP_append, List.countP_singleton, if_pos hx]
    rfl
  have hmono : rank p xs (i + 1) ≤ rank p xs j := by
    apply List.Sublist.countP_le
    apply (List.take_prefix_take_left (by omega)).sublist
  omega

/-- Elements that meet `p` at different positions have different ranks. -/
theorem rank_inj (hi : xs[i]? = some x) (hx : p x) (hj : xs[j]? = some y) (hy : p y)
    (h : rank p xs i = rank p xs j) :
  i = j
  := by
  rcases Nat.lt_trichotomy i j with hlt | heq | hgt
  · have := rank_lt hi hx hlt
    omega
  · apply heq
  · have := rank_lt hj hy hgt
    omega

/-- An element that meets `p` is not the last one counted. -/
theorem rank_lt_countP (hi : xs[i]? = some x) (hx : p x) :
  rank p xs i < xs.countP p
  := by
  have hlt := (List.getElem?_eq_some_iff.mp hi).1
  have h := rank_lt hi hx hlt
  rwa [rank, rank, List.take_length] at h

end Rank
