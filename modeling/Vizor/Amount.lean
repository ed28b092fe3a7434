import Mathlib.Algebra.BigOperators.Group.List.Basic
import Mathlib.Algebra.GroupWithZero.Nat
import Mathlib.Data.List.Basic
import Mathlib.Tactic.Common

/-!
# Amounts and outcomes

Zatoshi amounts are bounded by the maximum money supply, so they are a subtype of the
natural numbers.  A computation of the planner either returns a value, returns one of
the errors of its own error type, or stops: it panics, or (in the model only) it uses up the
fuel that bounds one of its loops.  The planner's internal
arithmetic is on unsigned words of 64 bits, which wrap around in a release build.
-/

namespace Vizor

/-! ### Outcomes -/

/-- The ways in which a computation with errors `ε` does not return a value. -/
inductive Halt (ε : Type) where
  /-- The computation returned the error `e`. -/
  | error (e : ε)
  /-- An `expect` failed, or a vector outgrew its capacity. -/
  | panic
  /-- The fuel of a loop of the model ran out. -/
  | outOfFuel
  deriving DecidableEq, Repr

/-- The outcomes of a computation with values `α` and errors `ε`. -/
abbrev Outcome (ε α : Type) : Type := Except (Halt ε) α

namespace Outcome

variable {ε α β : Type}

/-- A sequence of two computations returns a value when both do. -/
theorem bind_eq_ok {x : Outcome ε α} {f : α → Outcome ε β} {b : β} :
  (x >>= f) = .ok b ↔ ∃ a, x = .ok a ∧ f a = .ok b
  := by
  cases x with
  | error e => simp [bind, Except.bind]
  | ok a => simp [bind, Except.bind]

/-- A sequence of two computations stops in some way when one of them does. -/
theorem bind_eq_error {x : Outcome ε α} {f : α → Outcome ε β} {halt : Halt ε} :
  (x >>= f) = .error halt ↔ x = .error halt ∨ ∃ a, x = .ok a ∧ f a = .error halt
  := by
  cases x with
  | error e => simp [bind, Except.bind]
  | ok a => simp [bind, Except.bind]

/-- A sequence of two computations uses up its fuel when one of them does. -/
theorem bind_eq_outOfFuel {x : Outcome ε α} {f : α → Outcome ε β} :
  (x >>= f) = .error .outOfFuel
    ↔ x = .error .outOfFuel ∨ ∃ a, x = .ok a ∧ f a = .error .outOfFuel
  := bind_eq_error

/-- A sequence of computations that do not use up their fuel does not either. -/
theorem bind_ne_outOfFuel {x : Outcome ε α} {f : α → Outcome ε β}
    (hx : x ≠ .error .outOfFuel) (hf : ∀ a, x = .ok a → f a ≠ .error .outOfFuel) :
  (x >>= f) ≠ .error .outOfFuel
  := by
  rw [ne_eq, bind_eq_outOfFuel]
  rintro (h | ⟨a, ha, h⟩)
  · apply hx h
  · apply hf a ha h

@[simp]
theorem pure_eq_ok {a b : α} :
  (pure a : Outcome ε α) = .ok b ↔ a = b
  := by
  simp [pure, Except.pure]

end Outcome

/-! ### Zatoshi amounts -/

/-- The maximum money supply, in zatoshi. -/
def maxMoney : Nat := 2100000000000000

/-- An amount of zatoshi, at most the maximum money supply. -/
structure Zatoshis where
  /-- The number of zatoshi. -/
  value : Nat
  /-- No amount exceeds the money supply. -/
  le_maxMoney : value ≤ maxMoney
  deriving DecidableEq

namespace Zatoshis

@[ext]
theorem ext {v w : Zatoshis} (h : v.value = w.value) :
  v = w
  := by
  cases v
  cases w
  simp_all

/-- The conversion `Zatoshis::from_u64`, which rejects amounts above the money supply. -/
def fromU64 (value : Nat) : Option Zatoshis :=
  if h : value ≤ maxMoney then some ⟨value, h⟩ else none

theorem fromU64_eq_some {n : Nat} {v : Zatoshis} :
  fromU64 n = some v ↔ v.value = n
  := by
  unfold fromU64
  split
  · rw [Option.some_inj]
    constructor
    · rintro rfl
      rfl
    · intro h
      apply ext h.symm
  · rename_i h
    constructor
    · intro h'
      cases h'
    · rintro rfl
      exact absurd v.le_maxMoney h

/-- The sum of two amounts, when it is an amount. -/
def add (v w : Zatoshis) : Option Zatoshis :=
  fromU64 (v.value + w.value)

/-- The sum of a list of amounts, when all its partial sums are amounts. -/
def sum (vs : List Zatoshis) : Option Zatoshis :=
  vs.foldlM add ⟨0, Nat.zero_le _⟩

private theorem foldlM_add_eq_some {vs : List Zatoshis} {v w : Zatoshis} :
  vs.foldlM add v = some w ↔ w.value = v.value + (vs.map value).sum
  := by
  induction vs generalizing v with
  | nil =>
    simp only [List.foldlM_nil, Option.pure_def, Option.some_inj, List.map_nil, List.sum_nil,
      Nat.add_zero]
    constructor
    · rintro rfl
      rfl
    · intro h
      apply ext h.symm
  | cons x vs ih =>
    simp only [List.foldlM_cons, Option.bind_eq_bind, Option.bind_eq_some_iff, List.map_cons,
      List.sum_cons]
    constructor
    · rintro ⟨u, hu, h⟩
      rw [add, fromU64_eq_some] at hu
      rw [ih] at h
      omega
    · intro h
      have hx : v.value + x.value ≤ maxMoney := by
        have := w.le_maxMoney
        omega
      use ⟨v.value + x.value, hx⟩
      constructor
      · rw [add, fromU64_eq_some]
      · rw [ih, h]
        dsimp only
        omega

/-- The sum of amounts is an amount exactly when the sum of their values is one. -/
theorem sum_eq_some {vs : List Zatoshis} {w : Zatoshis} :
  sum vs = some w ↔ w.value = (vs.map value).sum
  := by
  simp [sum, foldlM_add_eq_some]

/-- The sum of amounts does not depend on their order. -/
theorem sum_perm {vs ws : List Zatoshis} (h : vs.Perm ws) :
  sum vs = sum ws
  := by
  apply Option.ext
  intro w
  rw [sum_eq_some, sum_eq_some, (h.map value).sum_eq]

end Zatoshis

/-- The conversion of a value of the planner to an amount, which panics above the money
supply. -/
def zat {ε : Type} (value : Nat) : Outcome ε Zatoshis :=
  match Zatoshis.fromU64 value with
  | some v => .ok v
  | none => .error .panic

theorem zat_eq_ok {ε : Type} {n : Nat} {v : Zatoshis} :
  (zat n : Outcome ε Zatoshis) = .ok v ↔ v.value = n
  := by
  unfold zat
  rw [← Zatoshis.fromU64_eq_some]
  cases Zatoshis.fromU64 n <;> simp

theorem zat_value {ε : Type} (v : Zatoshis) :
  (zat v.value : Outcome ε Zatoshis) = .ok v
  := zat_eq_ok.mpr rfl

theorem zat_ne_outOfFuel {ε : Type} (n : Nat) :
  (zat n : Outcome ε Zatoshis) ≠ .error .outOfFuel
  := by
  unfold zat
  cases Zatoshis.fromU64 n <;> simp

/-- A value within the money supply converts. -/
theorem exists_zat {ε : Type} {n : Nat} (h : n ≤ maxMoney) :
  ∃ v : Zatoshis, v.value = n ∧ (zat n : Outcome ε Zatoshis) = .ok v
  := ⟨⟨n, h⟩, rfl, zat_eq_ok.mpr rfl⟩

theorem mapM_zat_eq_ok {ε : Type} {ns : List Nat} {vs : List Zatoshis} :
  (ns.mapM zat : Outcome ε (List Zatoshis)) = .ok vs ↔ vs.map Zatoshis.value = ns
  := by
  induction ns generalizing vs with
  | nil => cases vs <;> simp
  | cons n ns ih =>
    simp only [List.mapM_cons, Outcome.bind_eq_ok, zat_eq_ok, ih, Outcome.pure_eq_ok]
    constructor
    · rintro ⟨v, rfl, vs, rfl, rfl⟩
      rfl
    · intro h
      obtain ⟨v, ws, rfl, hv, hws⟩ := List.map_eq_cons_iff.mp h
      exact ⟨v, hv, ws, hws, rfl⟩

/-- A traversal that returns values returns one for each element. -/
theorem Outcome.length_of_mapM_eq_ok {ε α β : Type} {f : α → Outcome ε β} {xs : List α}
    {ys : List β} (h : xs.mapM f = .ok ys) :
  ys.length = xs.length
  := by
  induction xs generalizing ys with
  | nil =>
    cases h
    rfl
  | cons x xs ih =>
    rw [List.mapM_cons] at h
    obtain ⟨y, -, h⟩ := bind_eq_ok.mp h
    obtain ⟨zs, hzs, h⟩ := bind_eq_ok.mp h
    cases h
    rw [List.length_cons, List.length_cons, ih hzs]

/-- A traversal stops in some way only where one of its computations does. -/
theorem Outcome.mapM_ne_error {ε α β : Type} {f : α → Outcome ε β} {xs : List α} {halt : Halt ε}
    (h : ∀ x ∈ xs, f x ≠ .error halt) :
  xs.mapM f ≠ .error halt
  := by
  induction xs with
  | nil => simp [pure, Except.pure]
  | cons x xs ih =>
    rw [List.mapM_cons, ne_eq, bind_eq_error]
    rintro (hx | ⟨y, -, hxs⟩)
    · apply h x List.mem_cons_self hx
    · rcases bind_eq_error.mp hxs with hxs | ⟨ys, -, hys⟩
      · apply ih (fun z hz => h z (List.mem_cons_of_mem x hz)) hxs
      · cases hys

/-- A traversal uses up its fuel only where one of its computations does. -/
theorem Outcome.mapM_ne_outOfFuel {ε α β : Type} {f : α → Outcome ε β} {xs : List α}
    (h : ∀ x ∈ xs, f x ≠ .error .outOfFuel) :
  xs.mapM f ≠ .error .outOfFuel
  := mapM_ne_error h

/-- A sum of bounded numbers is bounded. -/
theorem sum_le_length_mul {ns : List Nat} {n : Nat} (h : ∀ m ∈ ns, m ≤ n) :
  ns.sum ≤ ns.length * n
  := by
  induction ns with
  | nil => simp
  | cons m ns ih =>
    rw [List.forall_mem_cons] at h
    rw [List.sum_cons, List.length_cons, Nat.succ_mul]
    have := ih h.2
    omega

/-! ### Words of 64 bits -/

/-- The number of values of a word of 64 bits. -/
def u64Size : Nat := 18446744073709551616

/-- Wrapping addition of 64-bit words. -/
def add64 (m n : Nat) : Nat := (m + n) % u64Size

/-- Wrapping subtraction of 64-bit words. -/
def sub64 (m n : Nat) : Nat := (m + (u64Size - n % u64Size)) % u64Size

/-- The wrapping sum of a list of 64-bit words. -/
def sum64 (ns : List Nat) : Nat := ns.sum % u64Size

/-- A wrapping difference of amounts that is itself an amount is a real difference. -/
theorem sub64_sub64_eq {source fee spent : Nat} (hsource : source ≤ maxMoney)
    (hfee : fee ≤ maxMoney) (hspent : spent ≤ 14 * maxMoney)
    (h : sub64 (sub64 source fee) (spent % u64Size) ≤ maxMoney) :
  source = sub64 (sub64 source fee) (spent % u64Size) + spent + fee
  := by
  unfold sub64 u64Size at *
  unfold maxMoney at *
  omega

end Vizor
