import Vizor.Lib.Run

/-!
# Interleaved calls

Calls share a state and take steps one at a time, in any order.  A call stands at a point,
and a step of it reads and writes the shared state and moves it to its next point.  When the
process ends, the calls are gone and the shared state keeps what is stored.
-/

namespace Interleave

open Run

universe u v w x

/-- How calls start, how they take their steps with the input they get from outside, and
what is left of the shared state when the process ends. -/
structure Program (σ : Type u) (π : Type v) (κ : Type w) (ι : Type x) where
  start : κ → π
  advance : ι → σ → π → σ × π
  crash : σ → σ

variable {σ : Type u} {π : Type v} {κ : Type w} {ι : Type x}

/-- The shared state and the points of the calls. -/
structure World (σ : Type u) (π : Type v) where
  shared : σ
  calls : List π
  deriving DecidableEq

/-- The world in which no call was made. -/
def World.idle (s : σ) : World σ π :=
  { shared := s, calls := [] }

/-- A new call, a step of a call, or the end of the process. -/
inductive Move (κ : Type w) (ι : Type x) where
  | call (k : κ)
  | advance (i : Nat) (input : ι)
  | crash

namespace Program

/-- The world after a move. -/
def step (P : Program σ π κ ι) (w : World σ π) : Move κ ι → World σ π
  | .call k => { w with calls := w.calls ++ [P.start k] }
  | .advance i input =>
    match w.calls[i]? with
    | none => w
    | some p =>
      let next := P.advance input w.shared p
      { shared := next.1, calls := w.calls.set i next.2 }
  | .crash => { shared := P.crash w.shared, calls := [] }

variable {P : Program σ π κ ι} {w : World σ π}

/-- The world after a step of a call. -/
theorem step_advance {i : Nat} {input : ι} {p : π} (hp : w.calls[i]? = some p) :
  P.step w (.advance i input)
    = { shared := (P.advance input w.shared p).1
        calls := w.calls.set i (P.advance input w.shared p).2 }
  := by
  rw [step, hp]

end Program

/-- The shared state satisfies `I`, and every call satisfies `J` at its point. -/
def Holds (I : σ → Prop) (J : σ → π → Prop) (w : World σ π) : Prop :=
  I w.shared ∧ ∀ p ∈ w.calls, J w.shared p

theorem Holds.at {I : σ → Prop} {J : σ → π → Prop} {w : World σ π} (h : Holds I J w) {i : Nat}
    {p : π} (hp : w.calls[i]? = some p) :
  J w.shared p
  := by
  apply h.2
  apply List.mem_of_getElem? hp

/-- No two calls stand at points that exclude each other. -/
def Apart (K : π → π → Prop) (w : World σ π) : Prop :=
  ∀ (i j : Nat) (p q : π), i ≠ j → w.calls[i]? = some p → w.calls[j]? = some q → K p q

/-- What a program has to show of its moves when calls keep each other out: a call starts
well, its step keeps the shared state and itself well, does not disturb the other calls, and
does not come to a point that another call keeps it from. -/
structure PreservesApart (P : Program σ π κ ι) (C : World σ π → Move κ ι → Prop) (I : σ → Prop)
    (J : σ → π → Prop) (K : π → π → Prop) : Prop where
  symm : ∀ p q, K p q → K q p
  start : ∀ w k, Holds I J w → C w (.call k) →
    J w.shared (P.start k) ∧ ∀ q ∈ w.calls, K (P.start k) q
  advance : ∀ w i input p, Holds I J w → C w (.advance i input) → w.calls[i]? = some p →
    I (P.advance input w.shared p).1
      ∧ J (P.advance input w.shared p).1 (P.advance input w.shared p).2
  stable : ∀ w i input p q, Holds I J w → C w (.advance i input) → w.calls[i]? = some p →
    q ∈ w.calls → K p q →
      J (P.advance input w.shared p).1 q ∧ K (P.advance input w.shared p).2 q
  crash : ∀ w, Holds I J w → I (P.crash w.shared)

/-- What a program has to show of its moves: a call starts well, its step keeps the shared
state and itself well, and does not disturb the other calls. -/
structure Preserves (P : Program σ π κ ι) (C : World σ π → Move κ ι → Prop) (I : σ → Prop)
    (J : σ → π → Prop) : Prop where
  start : ∀ w k, Holds I J w → C w (.call k) → J w.shared (P.start k)
  advance : ∀ w i input p, Holds I J w → C w (.advance i input) → w.calls[i]? = some p →
    I (P.advance input w.shared p).1
      ∧ J (P.advance input w.shared p).1 (P.advance input w.shared p).2
  stable : ∀ w i input p q, Holds I J w → C w (.advance i input) → w.calls[i]? = some p →
    q ∈ w.calls → J (P.advance input w.shared p).1 q
  crash : ∀ w, Holds I J w → I (P.crash w.shared)

variable {P : Program σ π κ ι} {C : World σ π → Move κ ι → Prop} {I : σ → Prop}
  {J : σ → π → Prop} {K : π → π → Prop}

/-- Where no calls keep each other out, they are apart. -/
theorem Preserves.preservesApart (h : Preserves P C I J) :
  PreservesApart P C I J fun _ _ => True
  := by
  constructor
  · intro p q _
    trivial
  · intro w k hw hm
    exact ⟨h.start w k hw hm, fun _ _ => trivial⟩
  · apply h.advance
  · intro w i input p q hw hm hp hq _
    exact ⟨h.stable w i input p q hw hm hp hq, trivial⟩
  · apply h.crash

/-- A new call is apart from the others. -/
theorem PreservesApart.apart_call (h : PreservesApart P C I J K) {w : World σ π} {p : π}
    (hapart : Apart K w) (hp : ∀ q ∈ w.calls, K p q) :
  Apart K { w with calls := w.calls ++ [p] }
  := by
  have hnew : ∀ (i : Nat) (q : π), (w.calls ++ [p])[i]? = some q →
      w.calls[i]? = some q ∨ i = w.calls.length ∧ q = p := by
    intro i q hq
    rcases Nat.lt_or_ge i w.calls.length with hlt | hge
    · rw [List.getElem?_append_left hlt] at hq
      exact .inl hq
    · rw [List.getElem?_append_right hge, List.getElem?_singleton] at hq
      split at hq
      · cases hq
        exact .inr ⟨by omega, rfl⟩
      · cases hq
  intro i j q r hij hq hr
  replace hq := hnew i q hq
  rcases hq with hq | ⟨hi, rfl⟩
  · rcases hnew j r hr with hr | ⟨hj, rfl⟩
    · apply hapart i j q r hij hq hr
    · apply h.symm
      apply hp q
      apply List.mem_of_getElem? hq
  · rcases hnew j r hr with hr | ⟨hj, rfl⟩
    · apply hp r (List.mem_of_getElem? hr)
    · omega

/-- A call that moves to a point from which no other call keeps it stays apart. -/
theorem PreservesApart.apart_set (h : PreservesApart P C I J K) {w w' : World σ π} {i : Nat}
    {p : π} (hapart : Apart K w) (hcalls : w'.calls = w.calls.set i p)
    (hp : ∀ j q, j ≠ i → w.calls[j]? = some q → K p q) :
  Apart K w'
  := by
  intro j k q r hjk hq hr
  rw [hcalls] at hq hr
  by_cases hj : j = i
  · subst hj
    obtain ⟨hlt, hsame⟩ := List.getElem?_eq_some_iff.mp hq
    rw [List.getElem_set_self] at hsame
    rw [List.getElem?_set_ne hjk] at hr
    rw [← hsame]
    apply hp k r (Ne.symm hjk) hr
  · rw [List.getElem?_set_ne (Ne.symm hj)] at hq
    by_cases hk : k = i
    · subst hk
      obtain ⟨hlt, hsame⟩ := List.getElem?_eq_some_iff.mp hr
      rw [List.getElem_set_self] at hsame
      rw [← hsame]
      apply h.symm
      apply hp j q hj hq
    · rw [List.getElem?_set_ne (Ne.symm hk)] at hr
      apply hapart j k q r hjk hq hr

/-- A move keeps what the program preserves. -/
theorem PreservesApart.step (h : PreservesApart P C I J K) {w : World σ π} {m : Move κ ι}
    (hw : Holds I J w ∧ Apart K w) (hm : C w m) :
  Holds I J (P.step w m) ∧ Apart K (P.step w m)
  := by
  obtain ⟨hholds, hapart⟩ := hw
  cases m with
  | call k =>
    obtain ⟨hstart, hothers⟩ := h.start w k hholds hm
    refine ⟨⟨hholds.1, fun p hp => ?_⟩, h.apart_call hapart hothers⟩
    rcases List.mem_append.mp hp with hp | hp
    · apply hholds.2 p hp
    · rw [List.mem_singleton.mp hp]
      apply hstart
  | advance i input =>
    cases hp : w.calls[i]? with
    | none =>
      rw [Program.step, hp]
      exact ⟨hholds, hapart⟩
    | some p =>
      rw [Program.step_advance hp]
      obtain ⟨hshared, hown⟩ := h.advance w i input p hholds hm hp
      have hother : ∀ j q, j ≠ i → w.calls[j]? = some q →
          J (P.advance input w.shared p).1 q ∧ K (P.advance input w.shared p).2 q := by
        intro j q hj hq
        apply h.stable w i input p q hholds hm hp (List.mem_of_getElem? hq)
        apply hapart i j p q (Ne.symm hj) hp hq
      refine ⟨⟨hshared, fun q hq => ?_⟩,
        h.apart_set hapart rfl fun j q hj hq => (hother j q hj hq).2⟩
      obtain ⟨j, hj⟩ := List.mem_iff_getElem?.mp hq
      by_cases hji : j = i
      · subst hji
        obtain ⟨hlt, hsame⟩ := List.getElem?_eq_some_iff.mp hj
        rw [List.getElem_set_self] at hsame
        rw [← hsame]
        apply hown
      · rw [List.getElem?_set_ne (Ne.symm hji)] at hj
        apply (hother j q hji hj).1
  | crash =>
    refine ⟨⟨h.crash w hholds, fun p hp => by cases hp⟩, ?_⟩
    intro i j p q _ hp
    cases hp

/-- What a program preserves holds after all its moves. -/
theorem PreservesApart.after (h : PreservesApart P C I J K) {w : World σ π}
    {moves : List (Move κ ι)} (hw : Holds I J w ∧ Apart K w) (hmoves : Along P.step C w moves) :
  Holds I J (after P.step w moves) ∧ Apart K (Run.after P.step w moves)
  := by
  apply Run.invariant (I := fun w => Holds I J w ∧ Apart K w) _ hw hmoves
  intro w m hw hm
  apply h.step hw hm

theorem holds_idle {s : σ} (h : I s) : Holds I J (World.idle s : World σ π)
  := ⟨h, fun p hp => by cases hp⟩

theorem apart_idle {s : σ} : Apart K (World.idle s : World σ π)
  := by
  intro i j p q _ hp
  cases hp

/-- What a program preserves holds after all its moves. -/
theorem Preserves.after (h : Preserves P C I J) {w : World σ π} {moves : List (Move κ ι)}
    (hw : Holds I J w) (hmoves : Along P.step C w moves) :
  Holds I J (after P.step w moves)
  := (h.preservesApart.after ⟨hw, fun _ _ _ _ _ _ _ => trivial⟩ hmoves).1

/-! ### Debts -/

/-- While the shared state meets `D`, some call stands at a point that meets `Q`. -/
def Owed (D : σ → Prop) (Q : π → Prop) (w : World σ π) : Prop :=
  D w.shared → ∃ p ∈ w.calls, Q p

/-- What a program has to show of a debt: the call that takes a step owes it afterwards, or it
was there before and is not of this call, or another call owes it. -/
structure PreservesOwed (P : Program σ π κ ι) (C : World σ π → Move κ ι → Prop) (I : σ → Prop)
    (J : σ → π → Prop) (D : σ → Prop) (Q : π → Prop) : Prop where
  advance : ∀ w i input p, Holds I J w → C w (.advance i input) → w.calls[i]? = some p →
    D (P.advance input w.shared p).1 →
      Q (P.advance input w.shared p).2 ∨ D w.shared ∧ ¬Q p ∨ ∃ q ∈ w.calls.eraseIdx i, Q q
  crash : ∀ s, ¬D (P.crash s)

variable {D : σ → Prop} {Q : π → Prop}

/-- A move keeps a debt with some call. -/
theorem PreservesOwed.step (h : PreservesOwed P C I J D Q) {w : World σ π} {m : Move κ ι}
    (hw : Holds I J w) (howed : Owed D Q w) (hm : C w m) :
  Owed D Q (P.step w m)
  := by
  cases m with
  | call k =>
    intro hD
    obtain ⟨p, hp, hQ⟩ := howed hD
    exact ⟨p, List.mem_append_left _ hp, hQ⟩
  | advance i input =>
    cases hp : w.calls[i]? with
    | none =>
      rw [Program.step, hp]
      apply howed
    | some p =>
      rw [Program.step_advance hp]
      intro hD
      have hkept : ∀ j q, j ≠ i → w.calls[j]? = some q → Q q →
          ∃ r ∈ w.calls.set i (P.advance input w.shared p).2, Q r := by
        intro j q hj hq hQ
        refine ⟨q, List.mem_of_getElem? (i := j) ?_, hQ⟩
        rw [List.getElem?_set_ne (Ne.symm hj)]
        apply hq
      rcases h.advance w i input p hw hm hp hD with hQ | ⟨hbefore, hQp⟩ | ⟨q, hq, hQ⟩
      · have hlt := (List.getElem?_eq_some_iff.mp hp).1
        exact ⟨_, List.mem_set hlt _, hQ⟩
      · obtain ⟨q, hq, hQ⟩ := howed hbefore
        obtain ⟨j, hj⟩ := List.mem_iff_getElem?.mp hq
        apply hkept j q _ hj hQ
        rintro rfl
        rw [hp] at hj
        cases hj
        apply hQp hQ
      · obtain ⟨j, hji, hj⟩ := List.mem_eraseIdx_iff_getElem?.mp hq
        apply hkept j q hji hj hQ
  | crash =>
    intro hD
    exact absurd hD (h.crash w.shared)

end Interleave
