import Vizor.Lib.Run

/-!
# Binary search

A search for the last number that is accepted, between two bounds.  Every number that is tried
is accepted with a value or refused, and a trial may fail.  The search finds a number that is
accepted and whose successor, within the bounds, is refused; that the numbers below an accepted
one are accepted is not assumed.
-/

namespace BinarySearch

open Run

variable {ε β : Type}

/-- Try numbers from `low` to `high`; `best` is the last one that was accepted. -/
def searchLast (accepts : Nat → Except ε (Option β)) (low high : Nat) (hlow : 0 < low)
    (best : Option (Nat × β)) : Except ε (Option (Nat × β)) :=
  if hle : low ≤ high then do
    let candidate := low + (high - low) / 2
    match ← accepts candidate with
    | some size => searchLast accepts (candidate + 1) high (by omega) (some (candidate, size))
    | none => searchLast accepts low (candidate - 1) hlow best
  else return best
termination_by high + 1 - low
decreasing_by all_goals omega

/-- What a search from 1 to `last` may return: nothing where 1 is refused, or a number that is
accepted and whose successor is refused or beyond the bound. -/
def IsLast (accepts : Nat → Except ε (Option β)) (last : Nat) : Option (Nat × β) → Prop
  | none => last = 0 ∨ accepts 1 = .ok none
  | some (count, size) => 0 < count ∧ count ≤ last ∧ accepts count = .ok (some size)
    ∧ (count = last ∨ accepts (count + 1) = .ok none)

/-- What is known during a search: the number below `low` is the last one that was accepted, and
the one above `high` was refused or is beyond the bound. -/
structure Searching (accepts : Nat → Except ε (Option β)) (last low high : Nat)
    (best : Option (Nat × β)) : Prop where
  le : low ≤ high + 1
  high_le : high ≤ last
  best : best = none ∧ low = 1 ∨ ∃ size, best = some (low - 1, size) ∧ 1 < low
    ∧ accepts (low - 1) = .ok (some size)
  above : high = last ∨ accepts (high + 1) = .ok none

variable {accepts : Nat → Except ε (Option β)} {last low high : Nat} {hlow : 0 < low}
  {best result : Option (Nat × β)}

/-- A search that ends has found the last number. -/
theorem Searching.isLast (h : Searching accepts last low high best) (hend : high < low) :
  IsLast accepts last best
  := by
  have heq : low = high + 1 := by
    have := h.le
    omega
  subst heq
  obtain ⟨rfl, hone⟩ | ⟨size, rfl, hone, haccepts⟩ := h.best
  · have hzero : high = 0 := by omega
    subst hzero
    apply h.above.imp_left Eq.symm
  · exact ⟨by omega, by have := h.high_le; omega, haccepts, h.above⟩

theorem isLast_of_searchLast (h : Searching accepts last low high best)
    (hresult : searchLast accepts low high hlow best = .ok result) :
  IsLast accepts last result
  := by
  induction low, high, hlow, best using searchLast.induct with
  | case1 low high hlow best hle candidate ih ih' =>
    rw [searchLast, dif_pos hle] at hresult
    obtain ⟨found, hfound, hrest⟩ := bind_eq_ok.mp hresult
    cases found with
    | some size =>
      apply ih size _ hrest
      exact ⟨by omega, h.high_le, .inr ⟨size, rfl, by omega, hfound⟩, h.above⟩
    | none =>
      apply ih' _ hrest
      refine ⟨by omega, ?_, h.best, .inr ?_⟩
      · have := h.high_le
        omega
      · have hcandidate : low + (high - low) / 2 - 1 + 1 = low + (high - low) / 2 := by omega
        rw [hcandidate]
        apply hfound
  | case2 low high hlow best hle =>
    rw [searchLast, dif_neg hle] at hresult
    cases hresult
    apply h.isLast (by omega)

/-- A search fails only where a trial fails. -/
theorem exists_of_searchLast_eq_error {error : ε}
    (h : searchLast accepts low high hlow best = .error error) :
  ∃ count, accepts count = .error error
  := by
  induction low, high, hlow, best using searchLast.induct with
  | case1 low high hlow best hle candidate ih ih' =>
    rw [searchLast, dif_pos hle] at h
    dsimp only at h
    cases hfound : accepts (low + (high - low) / 2) with
    | error error' =>
      rw [hfound] at h
      cases h
      exact ⟨_, hfound⟩
    | ok found =>
      rw [hfound] at h
      cases found with
      | some size => exact ih size h
      | none => exact ih' h
  | case2 low high hlow best hle =>
    rw [searchLast, dif_neg hle] at h
    cases h

/-- A search from 1 finds the last number that is accepted before one that is refused. -/
theorem searchLast_isLast (h : searchLast accepts 1 last Nat.one_pos none = .ok result) :
  IsLast accepts last result
  := isLast_of_searchLast ⟨by omega, Nat.le_refl _, .inl ⟨rfl, rfl⟩, .inl rfl⟩ h

end BinarySearch
