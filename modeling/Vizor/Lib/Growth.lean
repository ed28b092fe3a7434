import Mathlib.Algebra.BigOperators.Group.List.Basic
import Mathlib.Algebra.GroupWithZero.Nat
import Mathlib.Algebra.Order.BigOperators.Group.List
import Mathlib.Tactic.Common

/-!
# Lists that grow

A list grows when each of its entries is followed by a related one in the same place, and new
entries come after them.  What a relation between entries does to a sum over them, it does to
the sum over a list that grows.
-/

universe u

namespace Growth

variable {α : Type u}

/-- Each entry is followed by one that `R` relates to it, and the new entries meet `P`. -/
inductive Grows (R : α → α → Prop) (P : α → Prop) : List α → List α → Prop where
  | nil {added : List α} (h : ∀ x ∈ added, P x) : Grows R P [] added
  | cons {x y : α} {l l' : List α} (h : R x y) (hl : Grows R P l l') :
      Grows R P (x :: l) (y :: l')

variable {R R' : α → α → Prop} {P : α → Prop} {l l' l'' : List α}

namespace Grows

/-! ### Changes that make a list grow -/

theorem map {f : α → α} (h : ∀ x ∈ l, R x (f x)) :
  Grows R P l (l.map f)
  := by
  induction l with
  | nil => exact nil nofun
  | cons x l ih =>
    apply cons (h x List.mem_cons_self)
    apply ih fun y hy => h y (List.mem_cons_of_mem x hy)

theorem append {added : List α} (hR : ∀ x, R x x) (h : ∀ x ∈ added, P x) :
  Grows R P l (l ++ added)
  := by
  induction l with
  | nil => exact nil h
  | cons x l ih => exact cons (hR x) ih

theorem refl (hR : ∀ x, R x x) :
  Grows R P l l
  := by
  have h : Grows R P l (l ++ []) := append hR nofun
  rw [List.append_nil] at h
  apply h

theorem modify {f : α → α} {n : Nat} (hR : ∀ x, R x x) (h : ∀ x, l[n]? = some x → R x (f x)) :
  Grows R P l (l.modify n f)
  := by
  induction l generalizing n with
  | nil =>
    rw [List.modify_nil]
    apply nil nofun
  | cons x l ih =>
    cases n with
    | zero =>
      rw [List.modify_zero_cons]
      apply cons (h x rfl) (refl hR)
    | succ n =>
      rw [List.modify_succ_cons]
      apply cons (hR x) (ih h)

theorem mono {P' : α → Prop} (h : Grows R P l l') (hR : ∀ x y, R x y → R' x y)
    (hP : ∀ x, P x → P' x) :
  Grows R' P' l l'
  := by
  induction h with
  | nil h => exact nil fun x hx => hP x (h x hx)
  | cons hxy _ ih => exact cons (hR _ _ hxy) ih

/-- A list that grows twice has grown. -/
theorem trans (hR : ∀ x y z, R x y → R y z → R x z) (hP : ∀ x y, P x → R x y → P y)
    (h : Grows R P l l') (h' : Grows R P l' l'') :
  Grows R P l l''
  := by
  induction h generalizing l'' with
  | nil h =>
    apply nil
    induction h' with
    | nil h' => exact h'
    | cons hxy _ ih =>
      intro z hz
      rcases List.mem_cons.mp hz with rfl | hz
      · apply hP _ _ (h _ List.mem_cons_self) hxy
      · apply ih (fun x hx => h x (List.mem_cons_of_mem _ hx)) z hz
  | cons hxy _ ih =>
    cases h' with
    | cons hyz hl' => exact cons (hR _ _ _ hxy hyz) (ih hl')

/-! ### What a growing list keeps -/

/-- What holds of every entry, and of the new ones, holds of every later entry. -/
theorem forall_mem {Q T : α → Prop} (h : Grows R P l l') (hl : ∀ x ∈ l, Q x)
    (hR : ∀ x y, R x y → Q x → T y) (hP : ∀ x, P x → T x) :
  ∀ y ∈ l', T y
  := by
  induction h with
  | nil h => exact fun y hy => hP y (h y hy)
  | cons hxy _ ih =>
    intro z hz
    rcases List.mem_cons.mp hz with rfl | hz
    · apply hR _ _ hxy (hl _ List.mem_cons_self)
    · apply ih (fun x hx => hl x (List.mem_cons_of_mem _ hx)) z hz

/-- A sum over the entries grows with each of them. -/
theorem sum_le {g : α → Nat} (h : Grows R P l l') (hR : ∀ x y, R x y → g x ≤ g y) :
  (l.map g).sum ≤ (l'.map g).sum
  := by
  induction h with
  | nil _ => exact Nat.zero_le _
  | cons hxy _ ih =>
    rw [List.map_cons, List.map_cons, List.sum_cons, List.sum_cons]
    apply Nat.add_le_add (hR _ _ hxy) ih

end Grows

/-- What holds of every entry, and of a changed one, holds after a change. -/
theorem forall_mem_modify {Q : α → Prop} {f : α → α} {n : Nat} (hl : ∀ x ∈ l, Q x)
    (hf : ∀ x, Q x → Q (f x)) :
  ∀ y ∈ l.modify n f, Q y
  := by
  have hgrows : Grows (fun x y => y = x ∨ y = f x) (fun _ => False) l (l.modify n f) :=
    Grows.modify (fun _ => Or.inl rfl) fun _ _ => Or.inr rfl
  apply hgrows.forall_mem (T := Q) hl
  · rintro x _ (rfl | rfl) hx
    · apply hx
    · apply hf x hx
  · exact fun _ hx => hx.elim

/-! ### Sums over the entries -/

variable {g : α → Nat} {x : α} {n : Nat}

/-- A change of one entry changes its part of a sum. -/
theorem sum_map_modify {f : α → α} (h : l[n]? = some x) :
  ((l.modify n f).map g).sum + g x = (l.map g).sum + g (f x)
  := by
  induction l generalizing n with
  | nil => simp at h
  | cons y l ih =>
    cases n with
    | zero =>
      simp only [List.getElem?_cons_zero, Option.some.injEq] at h
      subst h
      simp only [List.modify_zero_cons, List.map_cons, List.sum_cons]
      omega
    | succ n =>
      have := ih (by simpa using h)
      simp only [List.modify_succ_cons, List.map_cons, List.sum_cons]
      omega

/-- The removal of one entry takes its part out of a sum. -/
theorem sum_map_eraseIdx (h : l[n]? = some x) :
  ((l.eraseIdx n).map g).sum + g x = (l.map g).sum
  := by
  induction l generalizing n with
  | nil => simp at h
  | cons y l ih =>
    cases n with
    | zero =>
      simp only [List.getElem?_cons_zero, Option.some.injEq] at h
      subst h
      simp only [List.eraseIdx_cons_zero, List.map_cons, List.sum_cons]
      omega
    | succ n =>
      have := ih (by simpa using h)
      simp only [List.eraseIdx_cons_succ, List.map_cons, List.sum_cons]
      omega

/-- Entries without a part in a sum can be left out. -/
theorem sum_map_filter {p : α → Bool} (h : ∀ x ∈ l, p x = false → g x = 0) :
  ((l.filter p).map g).sum = (l.map g).sum
  := by
  induction l with
  | nil => rfl
  | cons y l ih =>
    have ih := ih fun x hx => h x (List.mem_cons_of_mem y hx)
    cases hy : p y with
    | true => simp [hy, ih]
    | false => simp [hy, ih, h y List.mem_cons_self hy]

end Growth
